import MailMerge.Format.Spec

/-!
# Reading a specifier with a cursor

Another way to read a specifier is to leave its text in one piece and to move a
cursor over the bytes. Places are counted in bytes from the percent sign on, and
the last place is that of the closing character. A byte is looked at by its
place, and a number is a slice between two places.

Nothing keeps such a reading within the text but the text itself. So it writes
down what it does, and it is refused a byte that is not there, and a slice that
is not one of the text. For the specifiers of a format string neither happens;
what it comes to is what taking the parts off one after the other comes to.
-/

namespace MailMerge.Format

/-- What a reading does with its text. -/
inductive Access
  /-- It looks at the byte at a place. -/
  | look (place : Nat)
  /-- It takes the characters of a span. -/
  | slice (span : Span)
  /-- It puts a cursor to a place. -/
  | move (place : Nat)
  deriving Repr, DecidableEq

/-- Why a reading stops. -/
inductive ReadStop
  /-- The specifier has a fault. -/
  | fault (fault : Fault)
  /-- There is no such byte, or no such slice. -/
  | refused (access : Access)
  /-- There is no last byte. -/
  | empty
  deriving Repr, DecidableEq

/-- A reading: what it has done with its text, in order, and what came of it. -/
structure Reading (α : Type) where
  accesses : List Access
  result : Except ReadStop α

namespace Reading

/-- Goes on from what a reading has come to, unless it has stopped. -/
def andThen {α β : Type} (reading : Reading α) (next : α → Reading β) : Reading β :=
  match reading.result with
  | .ok value => ⟨reading.accesses ++ (next value).accesses, (next value).result⟩
  | .error stop => ⟨reading.accesses, .error stop⟩

instance : Monad Reading where
  pure value := ⟨[], .ok value⟩
  bind := andThen

theorem bind_of_ok {α β : Type} {reading : Reading α} {next : α → Reading β} {value : α}
    (h : reading.result = .ok value) :
    reading >>= next
      = ⟨reading.accesses ++ (next value).accesses, (next value).result⟩ := by
  show reading.andThen next = _
  simp only [andThen, h]

theorem bind_of_error {α β : Type} {reading : Reading α} {next : α → Reading β}
    {stop : ReadStop} (h : reading.result = .error stop) :
    reading >>= next = ⟨reading.accesses, .error stop⟩ := by
  show reading.andThen next = _
  simp only [andThen, h]

def fault {α : Type} (fault : Fault) : Reading α :=
  ⟨[], .error (.fault fault)⟩

/-- An access that is refused if there is nothing to be had by it. -/
def access {α : Type} (access : Access) (value : Option α) : Reading α :=
  match value with
  | some value => ⟨[access], .ok value⟩
  | none => ⟨[access], .error (.refused access)⟩

def move (place : Nat) : Reading Unit :=
  ⟨[.move place], .ok ()⟩

/-- The byte at a place, as the character with this number. -/
def look (text : List Char) (place : Nat) : Reading Char :=
  access (.look place) ((utf8Bytes text)[place]?.map Char.ofUInt8)

def slice (text : List Char) (span : Span) : Reading (List Char) :=
  access (.slice span) (span.slice? text)

/-- The place of the last byte. -/
def lastPlace (text : List Char) : Reading Nat :=
  match byteLength text with
  | 0 => ⟨[], .error .empty⟩
  | last + 1 => pure last

/-- The first place from the given one on, but at most the limit, where no digit
is. -/
def skipDigits (text : List Char) (limit place : Nat) : Reading Nat := do
  move place
  if place < limit then
    let c ← look text place
    if c.isDigit then skipDigits text limit (place + 1) else return place
  else return place
termination_by limit - place

end Reading

/-- A number as it is written, without the plus sign that may stand in front. -/
def withoutPlus : List Char → List Char
  | '+' :: rest => rest
  | text => text

/-- The number of 64 bits that is written in decimal digits. -/
def natural? (text : List Char) : Option Nat :=
  let digits := withoutPlus text
  if digits ≠ [] ∧ digits.all Char.isDigit ∧ valueOfDigits digits < indexBound then
    some (valueOfDigits digits)
  else none

namespace Flags

def unset : Flags := ⟨false, false, false, false, false, false⟩

/-- The flags with one more of them set, if the character is a flag. -/
def set? (flags : Flags) (c : Char) : Option Flags :=
  match c with
  | '-' => some { flags with leftAlign := true }
  | '#' => some { flags with alternate := true }
  | '+' => some { flags with plus := true }
  | ' ' => some { flags with space := true }
  | '0' => some { flags with zeroPad := true }
  | ',' => some { flags with grouping := true }
  | _ => none

end Flags

namespace Reading

/-- The index that is the number between two places, with a dollar sign behind it. A
number that cannot be read counts as zero. -/
def numberAt (text : List Char) (span : Span) : Reading (ArgumentIndex × Nat) := do
  let digits ← slice text span
  let number := (natural? digits).getD 0
  if number = 0 then fault .missingArgument
  else
    move (span.stop + 1)
    return (.explicit number, span.stop + 1)

/-- The index at a place, and the place behind it. -/
def indexAt (text : List Char) (last place : Nat) : Reading (ArgumentIndex × Nat) := do
  let first ← look text place
  if first = '<' then
    move (place + 1)
    return (.previous, place + 1)
  else
    let stop ← skipDigits text last place
    if place < stop then
      let sign ← look text stop
      if sign = '$' then numberAt text ⟨place, stop⟩
      else return (.next, place)
    else return (.next, place)

/-- The flags from a place on, besides those that are set already, and the place
behind them. -/
def flagsAt (text : List Char) (last : Nat) (flags : Flags) (place : Nat) :
    Reading (Flags × Nat) :=
  if place < last then do
    let c ← look text place
    match flags.set? c with
    | some flags =>
      move (place + 1)
      flagsAt text last flags (place + 1)
    | none => return (flags, place)
  else return (flags, place)
termination_by last - place

/-- A width or a precision, which is the number between two places. -/
def extentAt (text : List Char) (span : Span) (otherwise : Fault) :
    Reading (Option Nat × Nat) := do
  let digits ← slice text span
  match (natural? digits).filter (· ≤ maxWidth) with
  | some extent =>
    move span.stop
    return (some extent, span.stop)
  | none => fault otherwise

def widthAt (text : List Char) (last place : Nat) : Reading (Option Nat × Nat) := do
  let stop ← skipDigits text last place
  if place < stop then extentAt text ⟨place, stop⟩ .unknownConversion
  else return (none, place)

def precisionAt (text : List Char) (last place : Nat) : Reading (Option Nat × Nat) :=
  if place < last then do
    let point ← look text place
    if point = '.' then
      let stop ← skipDigits text last (place + 1)
      extentAt text ⟨place + 1, stop⟩ .illegalPrecision
    else return (none, place)
  else return (none, place)

end Reading

open Reading in
/-- The specifier with the given text, read with a cursor that starts behind the
percent sign. -/
def Spec.readByCursor (text : List Char) : Reading Spec := do
  let last ← lastPlace text
  move 1
  let (index, afterIndex) ← indexAt text last 1
  let (flags, afterFlags) ← flagsAt text last .unset afterIndex
  let (width, afterWidth) ← widthAt text last afterFlags
  let (precision, stop) ← precisionAt text last afterWidth
  if stop ≠ last then fault .unknownConversion
  else
    let closing ← look text last
    match Conversion.ofClosing? closing with
    | none => fault .unknownConversion
    | some conversion =>
      if precision.isSome && !conversion.acceptsPrecision then fault .illegalPrecision
      else return ⟨index, flags, width, precision, conversion⟩

end MailMerge.Format
