import MailMerge.Format.Spec

/-!
# How specifiers are written

A specifier is written in parts, from left to right: a percent sign, an index,
flags, a width, a precision and the closing character. `Parts` has them as they
are written, down to zeros in front of a number and flags given twice;
`Parts.Valid` says which of them make a specifier, and `Parts.spec` what that
specifier is. Nothing here says how to find the parts of a text.
-/

namespace MailMerge.Format

/-- The characters are all decimal digits. -/
def IsDigits (text : List Char) : Prop :=
  ∀ c ∈ text, c.isDigit = true

/-- An index as it is written. -/
inductive IndexText
  | absent
  /-- `<`. -/
  | previous
  /-- The digits of a number, and a dollar sign behind them. -/
  | number (digits : List Char)
  deriving Repr, DecidableEq

namespace IndexText

def chars : IndexText → List Char
  | .absent => []
  | .previous => ['<']
  | .number digits => digits ++ ['$']

/-- A number is at least one and has 64 bits. -/
def Valid : IndexText → Prop
  | .number digits =>
    digits ≠ [] ∧ IsDigits digits ∧
      1 ≤ valueOfDigits digits ∧ valueOfDigits digits < UInt64.size
  | _ => True

def index : IndexText → ArgumentIndex
  | .absent => .next
  | .previous => .previous
  | .number digits => .explicit (valueOfDigits digits)

end IndexText

/-- The parts of a specifier as they are written. -/
structure Parts where
  index : IndexText
  flags : List Char
  /-- The digits of the width; without a width there are none. -/
  width : List Char
  /-- The digits behind the point, if there is one. -/
  precision : Option (List Char)
  conversion : Conversion
  deriving Repr, DecidableEq

namespace Parts

/-- A point and the digits behind it. -/
def precisionChars : Option (List Char) → List Char
  | none => []
  | some digits => '.' :: digits

/-- What stands between the percent sign and the closing character. -/
def modifiers (parts : Parts) : List Char :=
  parts.index.chars ++ (parts.flags ++ (parts.width ++ precisionChars parts.precision))

/-- The whole text. -/
def raw (parts : Parts) : List Char :=
  '%' :: parts.modifiers ++ [parts.conversion.closing]

/-- The parts are those of a specifier. A zero in front of a width would be a flag. -/
structure Valid (parts : Parts) : Prop where
  index : parts.index.Valid
  flags : ∀ c ∈ parts.flags, c ∈ ['-', '#', '+', ' ', '0', ',']
  width_digits : IsDigits parts.width
  width_head : parts.width.head? ≠ some '0'
  width_le : valueOfDigits parts.width ≤ 65536
  precision : ∀ digits, parts.precision = some digits →
    digits ≠ [] ∧ IsDigits digits ∧ valueOfDigits digits ≤ 65536 ∧
      parts.conversion.closing ∈ ['s', 'S', 'b', 'B', 'f', 'e', 'E']

/-- The width that digits stand for. -/
def widthOf? (digits : List Char) : Option Nat :=
  if digits = [] then none else some (valueOfDigits digits)

/-- The specifier that the parts are those of. -/
def spec (parts : Parts) : Spec where
  index := parts.index.index
  flags := Flags.ofChars parts.flags
  width := widthOf? parts.width
  precision := parts.precision.map valueOfDigits
  conversion := parts.conversion

end Parts

end MailMerge.Format
