import MailMerge.Number.Digits
import MailMerge.Number.Rounding

/-!
# Numbers in a document

Integers are decimal, with an optional sign and no zeros in front, or
hexadecimal, octal or binary behind a mark. Floating-point numbers have a
fraction, an exponent or both. A single underscore may stand between two
digits anywhere.
-/

namespace MailMerge.Toml

/-- The digits after a digit, without the underscores between them. -/
def moreDigits (isDigit : Char → Bool) : List Char → List Char × List Char
  | '_' :: c :: rest =>
    if isDigit c then
      let (digits, rest) := moreDigits isDigit rest
      (c :: digits, rest)
    else ([], '_' :: c :: rest)
  | c :: rest =>
    if isDigit c then
      let (digits, rest) := moreDigits isDigit rest
      (c :: digits, rest)
    else ([], c :: rest)
  | [] => ([], [])

/-- Takes digits off a text; there has to be one. -/
def takeDigits? (isDigit : Char → Bool) : List Char → Option (List Char × List Char)
  | c :: rest =>
    if isDigit c then
      let (digits, rest) := moreDigits isDigit rest
      some (c :: digits, rest)
    else none
  | [] => none

/-- Takes a sign off a text; the flag tells whether it is a minus. -/
def takeSign : List Char → Bool × List Char
  | '+' :: rest => (false, rest)
  | '-' :: rest => (true, rest)
  | text => (false, text)

/-- Takes the digits of a decimal integer off a text. A zero in front stands
alone. -/
def takeDecimal? : List Char → Option (List Char × List Char)
  | '0' :: rest => some (['0'], rest)
  | text => takeDigits? Char.isDigit text

def digitValue (c : Char) : Nat :=
  if c.isDigit then c.toNat - '0'.toNat else c.toLower.toNat - 'a'.toNat + 10

/-- Whether a character is a digit of a base up to sixteen. -/
def isDigitOf (base : Nat) (c : Char) : Bool :=
  (c.isDigit || (decide ('a' ≤ c.toLower) && decide (c.toLower ≤ 'f')))
    && decide (digitValue c < base)

/-- An integer of 64 bits, if it is one. -/
def int64? (i : Int) : Option Int64 :=
  if Int64.minValue.toInt ≤ i ∧ i ≤ Int64.maxValue.toInt then some (Int64.ofInt i) else none

/-- Reads the digits of an integer in a base. -/
def readBased? (base : Nat) (text : List Char) : Option (Int64 × List Char) := do
  let (digits, rest) ← takeDigits? (isDigitOf base) text
  let value ← int64? (digits.foldl (fun n c => base * n + digitValue c) 0 : Nat)
  return (value, rest)

def readInteger? (text : List Char) : Option (Int64 × List Char) :=
  match text with
  | '0' :: 'x' :: rest => readBased? 16 rest
  | '0' :: 'o' :: rest => readBased? 8 rest
  | '0' :: 'b' :: rest => readBased? 2 rest
  | _ => do
    let (negative, text) := takeSign text
    let (digits, rest) ← takeDecimal? text
    let magnitude : Int := valueOfDigits digits
    let value ← int64? (if negative then -magnitude else magnitude)
    return (value, rest)

/-- Takes an exponent off a text, if one is there. -/
def takeExponent? (text : List Char) : Option (Int × List Char) :=
  match text with
  | c :: rest =>
    if c = 'e' ∨ c = 'E' then do
      let (negative, rest) := takeSign rest
      let (digits, rest) ← takeDigits? Char.isDigit rest
      let magnitude : Int := valueOfDigits digits
      return (if negative then -magnitude else magnitude, rest)
    else some (0, text)
  | [] => some (0, text)

/-- A number from its digits. One too large is refused, unless it is negative:
that becomes negative infinity. -/
def floatOfDigits? (negative : Bool) (whole fraction : List Char) (exponent : Int) :
    Option Binary64 :=
  let value := Binary64.ofDecimal negative (valueOfDigits (whole ++ fraction))
    (exponent - fraction.length)
  if value.isInfinite && !negative then none else some value

/-- Reads a floating-point number: digits, then a fraction, an exponent or
both. -/
def readFloat? (text : List Char) : Option (Binary64 × List Char) := do
  let (negative, text) := takeSign text
  let (whole, text) ← takeDecimal? text
  match text with
  | '.' :: text =>
    let (fraction, text) ← takeDigits? Char.isDigit text
    let (exponent, text) ← takeExponent? text
    return (← floatOfDigits? negative whole fraction exponent, text)
  | 'e' :: _ | 'E' :: _ =>
    let (exponent, text) ← takeExponent? text
    return (← floatOfDigits? negative whole [] exponent, text)
  | _ => none

/-- Reads an infinity, or what is no number. -/
def readSpecialFloat? (text : List Char) : Option (Binary64 × List Char) :=
  let (negative, text) := takeSign text
  match text with
  | 'i' :: 'n' :: 'f' :: rest => some (.infinity negative, rest)
  | 'n' :: 'a' :: 'n' :: rest => some (.nan negative, rest)
  | _ => none

end MailMerge.Toml
