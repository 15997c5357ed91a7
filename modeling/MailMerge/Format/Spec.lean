import MailMerge.Format.Error
import MailMerge.Number.Digits

/-!
# Specifiers

A specifier says which argument to take, how to convert it, and how wide and
how precise to write it. Its text is, in this order: the index (`<` for the
previous argument, or a number and `$`), the flags, the width, the precision
behind a point, and the closing character that names the conversion. All parts
but the last may be missing.

`Spec.read` takes the text of a specifier apart, and `Spec.modifiers` with
`Conversion.closing` writes one; reading what was written gives back the
specifier.
-/

namespace MailMerge.Format

/-- Which argument a specifier takes. -/
inductive ArgumentIndex
  /-- The next one in order. -/
  | next
  /-- The one with this number, counted from one. -/
  | explicit (number : Nat)
  /-- The same one as the specifier before. -/
  | previous
  deriving Repr, DecidableEq

structure Flags where
  /-- `-`: spaces go to the right of the text. -/
  leftAlign : Bool
  /-- `#`: hexadecimal and octal numbers are marked. -/
  alternate : Bool
  /-- `+`: numbers that are not negative have a plus sign. -/
  plus : Bool
  /-- A space: numbers that are not negative begin with one. -/
  space : Bool
  /-- `0`: numbers are filled up with zeros. -/
  zeroPad : Bool
  /-- `,`: digits stand in groups of three. -/
  grouping : Bool
  deriving Repr, DecidableEq

inductive Conversion
  | string (upper : Bool)
  | decimal
  | hex (upper : Bool)
  | octal
  | fixed
  | scientific (upper : Bool)
  | character (upper : Bool)
  | boolean (upper : Bool)
  | percent
  | newline
  deriving Repr, DecidableEq

structure Spec where
  index : ArgumentIndex
  flags : Flags
  width : Option Nat
  precision : Option Nat
  conversion : Conversion
  deriving Repr, DecidableEq

/-- The largest width and the largest precision that a specifier may have. -/
def maxWidth : Nat := 65536

/-- Argument numbers are below this bound: they have 64 bits. -/
def indexBound : Nat := UInt64.size

namespace Conversion

def ofClosing? : Char → Option Conversion
  | 's' => some (.string false)
  | 'S' => some (.string true)
  | 'd' => some .decimal
  | 'x' => some (.hex false)
  | 'X' => some (.hex true)
  | 'o' => some .octal
  | 'f' => some .fixed
  | 'e' => some (.scientific false)
  | 'E' => some (.scientific true)
  | 'c' => some (.character false)
  | 'C' => some (.character true)
  | 'b' => some (.boolean false)
  | 'B' => some (.boolean true)
  | '%' => some .percent
  | 'n' => some .newline
  | _ => none

def closing : Conversion → Char
  | .string upper => if upper then 'S' else 's'
  | .decimal => 'd'
  | .hex upper => if upper then 'X' else 'x'
  | .octal => 'o'
  | .fixed => 'f'
  | .scientific upper => if upper then 'E' else 'e'
  | .character upper => if upper then 'C' else 'c'
  | .boolean upper => if upper then 'B' else 'b'
  | .percent => '%'
  | .newline => 'n'

theorem ofClosing?_closing (conversion : Conversion) :
    ofClosing? conversion.closing = some conversion := by
  cases conversion with
  | string upper => cases upper <;> rfl
  | hex upper => cases upper <;> rfl
  | scientific upper => cases upper <;> rfl
  | character upper => cases upper <;> rfl
  | boolean upper => cases upper <;> rfl
  | _ => rfl

def takesArgument : Conversion → Bool
  | .percent | .newline => false
  | _ => true

/-- Whether a specifier with this conversion may have a precision. -/
def acceptsPrecision : Conversion → Bool
  | .string _ | .boolean _ | .fixed | .scientific _ => true
  | _ => false

def isUpper : Conversion → Bool
  | .string upper | .hex upper | .scientific upper | .character upper | .boolean upper => upper
  | _ => false

end Conversion

namespace Flags

def isFlag (c : Char) : Bool :=
  "-#+ 0,".toList.contains c

def ofChars (chars : List Char) : Flags :=
  ⟨chars.contains '-', chars.contains '#', chars.contains '+', chars.contains ' ',
    chars.contains '0', chars.contains ','⟩

/-- The characters of the flags that are set, each once. -/
def toChars (flags : Flags) : List Char :=
  (if flags.leftAlign then ['-'] else []) ++ (if flags.alternate then ['#'] else [])
    ++ (if flags.plus then ['+'] else []) ++ (if flags.space then [' '] else [])
    ++ (if flags.zeroPad then ['0'] else []) ++ (if flags.grouping then [','] else [])

theorem ofChars_toChars (flags : Flags) : ofChars flags.toChars = flags := by
  obtain ⟨a, b, c, d, e, f⟩ := flags
  cases a <;> cases b <;> cases c <;> cases d <;> cases e <;> cases f <;> rfl

end Flags

namespace Spec

/-- Takes the index off a specifier's modifiers. Digits are an index only if a
dollar sign follows them. -/
def readIndex (modifiers : List Char) : Except Fault (ArgumentIndex × List Char) :=
  match modifiers with
  | '<' :: rest => .ok (.previous, rest)
  | _ =>
    match modifiers.takeWhile Char.isDigit, modifiers.dropWhile Char.isDigit with
    | d :: digits, '$' :: rest =>
      let number := valueOfDigits (d :: digits)
      if number = 0 ∨ indexBound ≤ number then .error .missingArgument
      else .ok (.explicit number, rest)
    | _, _ => .ok (.next, modifiers)

def readWidth (modifiers : List Char) : Except Fault (Option Nat × List Char) :=
  match modifiers.takeWhile Char.isDigit with
  | [] => .ok (none, modifiers)
  | digits =>
    if valueOfDigits digits ≤ maxWidth then
      .ok (some (valueOfDigits digits), modifiers.dropWhile Char.isDigit)
    else .error .unknownConversion

/-- Takes the precision off; behind a point there has to be one. -/
def readPrecision (modifiers : List Char) : Except Fault (Option Nat × List Char) :=
  match modifiers with
  | '.' :: rest =>
    let digits := rest.takeWhile Char.isDigit
    if digits ≠ [] ∧ valueOfDigits digits ≤ maxWidth then
      .ok (some (valueOfDigits digits), rest.dropWhile Char.isDigit)
    else .error .illegalPrecision
  | _ => .ok (none, modifiers)

/-- The specifier with the given modifiers and closing character. -/
def read (modifiers : List Char) (closing : Char) : Except Fault Spec := do
  let (index, afterIndex) ← readIndex modifiers
  let flags := Flags.ofChars (afterIndex.takeWhile Flags.isFlag)
  let (width, afterWidth) ← readWidth (afterIndex.dropWhile Flags.isFlag)
  let (precision, rest) ← readPrecision afterWidth
  if rest ≠ [] then throw .unknownConversion
  let some conversion := Conversion.ofClosing? closing | throw .unknownConversion
  if precision.isSome && !conversion.acceptsPrecision then throw .illegalPrecision
  return ⟨index, flags, width, precision, conversion⟩

def indexChars : ArgumentIndex → List Char
  | .next => []
  | .explicit number => digitsOf number ++ ['$']
  | .previous => ['<']

def modifiers (spec : Spec) : List Char :=
  indexChars spec.index ++ spec.flags.toChars
    ++ (match spec.width with
        | some width => digitsOf width
        | none => [])
    ++ (match spec.precision with
        | some precision => '.' :: digitsOf precision
        | none => [])

def raw (spec : Spec) : List Char :=
  '%' :: spec.modifiers ++ [spec.conversion.closing]

end Spec

end MailMerge.Format
