import MailMerge.Number.Digits

/-!
# Dates and times

A date, a time, or both, and with both an offset from universal time. Their
text has one form for each of them: a `T` between date and time, `Z` for
universal time, and no zeros at the end of a fraction of a second.
-/

namespace MailMerge.Toml

/-- A day of the calendar. -/
structure Date where
  year : Nat
  month : Nat
  day : Nat
  deriving Repr, DecidableEq

/-- A time of day; the second sixty is there for leap seconds. -/
structure Time where
  hour : Nat
  minute : Nat
  second : Nat
  nanosecond : Nat
  deriving Repr, DecidableEq

/-- The distance of a local time from universal time. -/
inductive Offset
  | universal
  | minutes (east : Int)
  deriving Repr, DecidableEq

/-- A point in time, or a part of what it takes to name one. -/
inductive DateTime
  | offsetDateTime (date : Date) (time : Time) (offset : Offset)
  | localDateTime (date : Date) (time : Time)
  | localDate (date : Date)
  | localTime (time : Time)
  deriving Repr, DecidableEq

/-! ## Text -/

/-- A number in two digits. -/
def twoDigits (n : Nat) : List Char :=
  padZeros 2 (digitsOf n)

def Date.text (date : Date) : List Char :=
  padZeros 4 (digitsOf date.year) ++ '-' :: twoDigits date.month ++ '-' :: twoDigits date.day

/-- A fraction of a second: nine digits without the zeros at their end. -/
def fractionText (nanosecond : Nat) : List Char :=
  if nanosecond = 0 then []
  else '.' :: ((padZeros 9 (digitsOf nanosecond)).reverse.dropWhile (· = '0')).reverse

def Time.text (time : Time) : List Char :=
  twoDigits time.hour ++ ':' :: twoDigits time.minute ++ ':' :: twoDigits time.second
    ++ fractionText time.nanosecond

def Offset.text : Offset → List Char
  | .universal => ['Z']
  | .minutes east =>
    (if east < 0 then '-' else '+') :: twoDigits (east.natAbs / 60)
      ++ ':' :: twoDigits (east.natAbs % 60)

def DateTime.text : DateTime → List Char
  | .offsetDateTime date time offset => date.text ++ 'T' :: time.text ++ offset.text
  | .localDateTime date time => date.text ++ 'T' :: time.text
  | .localDate date => date.text
  | .localTime time => time.text

/-! ## Reading -/

/-- Takes a number with exactly so many digits off a text. -/
def takeNumber? (count : Nat) (text : List Char) : Option (Nat × List Char) :=
  let digits := text.take count
  if digits.length = count ∧ digits.all Char.isDigit then
    some (valueOfDigits digits, text.drop count)
  else none

/-- Takes a character off a text. -/
def takeChar? (c : Char) : List Char → Option (List Char)
  | d :: rest => if d = c then some rest else none
  | [] => none

def isLeapYear (year : Nat) : Bool :=
  year % 4 == 0 && (year % 100 != 0 || year % 400 == 0)

def daysInMonth (year month : Nat) : Nat :=
  if month = 2 then if isLeapYear year then 29 else 28
  else if month = 4 ∨ month = 6 ∨ month = 9 ∨ month = 11 then 30
  else 31

/-- A day that the calendar has. -/
def Date.IsValid (date : Date) : Prop :=
  1 ≤ date.month ∧ date.month ≤ 12 ∧ 1 ≤ date.day ∧ date.day ≤ daysInMonth date.year date.month

instance (date : Date) : Decidable date.IsValid := by
  unfold Date.IsValid; infer_instance

def Date.take? (text : List Char) : Option (Date × List Char) := do
  let (year, text) ← takeNumber? 4 text
  let text ← takeChar? '-' text
  let (month, text) ← takeNumber? 2 text
  let text ← takeChar? '-' text
  let (day, text) ← takeNumber? 2 text
  guard (Date.IsValid ⟨year, month, day⟩)
  return (⟨year, month, day⟩, text)

/-- Takes a fraction of a second off a text, if one is there. Digits after the
ninth are dropped. -/
def takeFraction (text : List Char) : Nat × List Char :=
  match text with
  | '.' :: rest =>
    match rest.takeWhile Char.isDigit with
    | [] => (0, text)
    | digits =>
      let nine := digits.take 9
      (valueOfDigits nine * Nat.pow 10 (9 - nine.length), rest.dropWhile Char.isDigit)
  | _ => (0, text)

def Time.take? (text : List Char) : Option (Time × List Char) := do
  let (hour, text) ← takeNumber? 2 text
  let text ← takeChar? ':' text
  let (minute, text) ← takeNumber? 2 text
  let text ← takeChar? ':' text
  let (second, text) ← takeNumber? 2 text
  guard (hour ≤ 23 ∧ minute ≤ 59 ∧ second ≤ 60)
  let (nanosecond, text) := takeFraction text
  return (⟨hour, minute, second, nanosecond⟩, text)

def Offset.take? (text : List Char) : Option (Offset × List Char) :=
  match text with
  | [] => none
  | c :: rest =>
    if c = 'Z' ∨ c = 'z' then some (.universal, rest)
    else if c = '+' ∨ c = '-' then do
      let (hour, rest) ← takeNumber? 2 rest
      let rest ← takeChar? ':' rest
      let (minute, rest) ← takeNumber? 2 rest
      guard (hour ≤ 23 ∧ minute ≤ 59)
      let distance : Int := hour * 60 + minute
      return (.minutes (if c = '-' then -distance else distance), rest)
    else none

/-- Takes what follows a date off a text: a time behind a `T` or a space, and
perhaps an offset. -/
def DateTime.takeAfterDate (date : Date) (text : List Char) : DateTime × List Char :=
  match text with
  | [] => (.localDate date, text)
  | c :: rest =>
    if c = 'T' ∨ c = 't' ∨ c = ' ' then
      match Time.take? rest with
      | none => (.localDate date, text)
      | some (time, rest) =>
        match Offset.take? rest with
        | none => (.localDateTime date time, rest)
        | some (offset, rest) => (.offsetDateTime date time offset, rest)
    else (.localDate date, text)

/-- Takes a date, a time or both off a text. -/
def DateTime.take? (text : List Char) : Option (DateTime × List Char) :=
  match Date.take? text with
  | some (date, rest) => some (DateTime.takeAfterDate date rest)
  | none => (Time.take? text).map fun (time, rest) => (.localTime time, rest)

end MailMerge.Toml
