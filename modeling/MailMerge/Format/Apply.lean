import MailMerge.Format.Spec
import MailMerge.Number.Places
import MailMerge.Text.Capital

/-!
# Applying a specifier to an argument

A conversion turns its argument into a body: either text, or a numeral with its
sign, its mark and its digits kept apart. Only numerals are filled up with
zeros, between the mark and the digits; every body is put into capitals if the
conversion asks for it and then filled up with spaces.
-/

namespace MailMerge.Format

/-- What a conversion makes of an argument. -/
inductive Body
  /-- Text, which only spaces can widen. -/
  | text (content : List Char)
  /-- A numeral, which zeros can widen between its mark and its digits. -/
  | numeral (sign mark digits : List Char)
  deriving Repr, DecidableEq

/-- The places of a floating-point number that has no precision given. -/
def defaultPlaces : Nat := 6

/-- The most places that a floating-point number can be written with. This is one less
than the largest precision. -/
def maxPlaces : Nat := 65535

/-- The places that a floating-point number should have under a precision. -/
def placesFor (precision : Option Nat) : Nat :=
  precision.getD defaultPlaces

/-- What is written with places: finite numbers, under the conversions for them. -/
def Conversion.WritesPlaces : Conversion → Argument → Prop
  | .fixed, .float value | .scientific _, .float value =>
    value.isNaN = false ∧ value.isInfinite = false
  | _, _ => False

/-- The character with a code point, if there is one. -/
def scalar? (code : Int) : Option Char :=
  if 0 ≤ code ∧ code.toNat.isValidChar then some (Char.ofNat code.toNat) else none

/-- A power of ten as an exponent: its sign and at least two digits. -/
def exponentChars (exponent : Int) : List Char :=
  'e' :: (if exponent < 0 then '-' else '+') :: padZeros 2 (digitsOf exponent.natAbs)

namespace Spec

def sign (spec : Spec) (negative : Bool) : List Char :=
  if negative then ['-']
  else if spec.flags.plus then ['+']
  else if spec.flags.space then [' ']
  else []

/-- Digits, in groups if the flag says so. -/
def grouped (spec : Spec) (digits : List Char) : List Char :=
  if spec.flags.grouping then groupThousands digits else digits

def truncate (spec : Spec) (text : List Char) : List Char :=
  match spec.precision with
  | some precision => text.take precision
  | none => text

def decimalBody (spec : Spec) (value : Int64) : Body :=
  .numeral (spec.sign (decide (value.toInt < 0))) [] (spec.grouped (digitsOf value.toInt.natAbs))

/-- The 64 bits of an integer as a natural number, in digits of a base. -/
def patternBody (spec : Spec) (base : Nat) (mark : List Char) (value : Int64) : Body :=
  .numeral [] (if spec.flags.alternate then mark else [])
    (Nat.toDigits base value.toBitVec.toNat)

/-- The digits of a finite number's absolute value, with the places of the precision. -/
def digitsOfFloat (spec : Spec) (value : Binary64) : List Char :=
  let places := placesFor spec.precision
  let (num, den) := value.magnitude
  match spec.conversion with
  | .scientific _ =>
    let result := scientificPlaces num den places
    result.mantissa.text ++ exponentChars result.exponent
  | _ =>
    let result := fixedPlaces num den places
    PlacedDigits.text { result with whole := spec.grouped result.whole }

/-- The digits of a finite number's absolute value, unless they are asked for with too
many places. -/
def floatDigits (spec : Spec) (value : Binary64) : Except (Failure Fault) (List Char) :=
  if maxPlaces < placesFor spec.precision then .error .tooManyPlaces
  else .ok (spec.digitsOfFloat value)

/-- A floating-point number. A zero has no minus sign, and an infinity has no
space in place of a sign. -/
def floatBody (spec : Spec) (value : Binary64) : Except (Failure Fault) Body :=
  if value.isNaN then .ok (.text "NaN".toList)
  else if value.isInfinite then
    .ok (.text ((if value.isNegative then ['-'] else if spec.flags.plus then ['+'] else [])
      ++ "Infinity".toList))
  else (spec.floatDigits value).map
    (.numeral (spec.sign (value.isNegative && !value.isZero)) [])

def truth : Argument → Bool
  | .null => false
  | .boolean value => value
  | _ => true

/-- The error of a conversion that does not apply to arguments of this kind. -/
def illegal {α : Type} (argument : Argument) : Except (Failure Fault) α :=
  .error (.returned (.illegalConversion argument.kind))

/-- What the conversion makes of an argument. -/
def body (spec : Spec) (argument : Argument) : Except (Failure Fault) Body :=
  match spec.conversion, argument with
  | .percent, _ => .ok (.text ['%'])
  | .newline, _ => .ok (.text ['\n'])
  | .string _, argument => .ok (.text (spec.truncate argument.plain))
  | .boolean _, argument =>
    .ok (.text (spec.truncate (Argument.boolean (truth argument)).plain))
  | _, .null => .ok (.text Argument.null.plain)
  | .character _, .character value => .ok (.text [value])
  | .character _, .integer value =>
    match scalar? value.toInt with
    | some c => .ok (.text [c])
    | none => illegal (.integer value)
  | .decimal, .integer value => .ok (spec.decimalBody value)
  | .hex _, .integer value => .ok (spec.patternBody 16 ['0', 'x'] value)
  | .octal, .integer value => .ok (spec.patternBody 8 ['0'] value)
  | .fixed, .float value => spec.floatBody value
  | .scientific _, .float value => spec.floatBody value
  | _, argument => illegal argument

/-- The zeros that widen a numeral of the given length. -/
def zeros (spec : Spec) (length : Nat) : List Char :=
  match spec.width with
  | some width =>
    if spec.flags.zeroPad && !spec.flags.leftAlign then List.replicate (width - length) '0'
    else []
  | none => []

/-- A body as text, with the zeros of the specifier. -/
def bodyText (spec : Spec) : Body → List Char
  | .text content => content
  | .numeral sign mark digits =>
    sign ++ mark ++ spec.zeros (sign.length + mark.length + digits.length) ++ digits

def pad (spec : Spec) (text : List Char) : List Char :=
  match spec.width with
  | some width =>
    let spaces := List.replicate (width - text.length) ' '
    if spec.flags.leftAlign then text ++ spaces else spaces ++ text
  | none => text

/-- A text in capitals, if the conversion writes them. -/
def inCase (spec : Spec) (text : List Char) : List Char :=
  if spec.conversion.isUpper then capitals text else text

/-- The text that the specifier makes of an argument. Without an argument it is
applied to the null argument. A line break is never widened. -/
def apply (spec : Spec) (argument : Option Argument) : Except (Failure Fault) (List Char) :=
  if spec.conversion = .newline then .ok ['\n']
  else (spec.body (argument.getD .null)).map fun body => spec.pad (spec.inCase (spec.bodyText body))

/-- The argument is to be written with more places than numbers can be written with. -/
def TooManyPlaces (spec : Spec) (argument : Argument) : Prop :=
  spec.conversion.WritesPlaces argument ∧ maxPlaces < placesFor spec.precision

/-! ## Floating-point numbers -/

section

variable {spec : Spec} {value : Binary64} {argument : Argument}

theorem floatBody_of_finite (hnan : value.isNaN = false) (hinfinite : value.isInfinite = false) :
    spec.floatBody value
      = (spec.floatDigits value).map
          (.numeral (spec.sign (value.isNegative && !value.isZero)) []) := by
  rw [floatBody, hnan, hinfinite]
  rfl

theorem exists_floatBody_of_not_finite (spec : Spec)
    (h : ¬(value.isNaN = false ∧ value.isInfinite = false)) :
    ∃ content, spec.floatBody value = .ok (.text content) := by
  unfold floatBody
  cases hnan : value.isNaN with
  | true => exact ⟨_, rfl⟩
  | false =>
      cases hinfinite : value.isInfinite with
      | true => exact ⟨_, rfl⟩
      | false => exact absurd ⟨hnan, hinfinite⟩ h

theorem floatDigits_of_le (h : placesFor spec.precision ≤ maxPlaces) (value : Binary64) :
    spec.floatDigits value = .ok (spec.digitsOfFloat value) :=
  if_neg (Nat.not_lt.mpr h)

theorem body_of_tooManyPlaces (h : spec.TooManyPlaces argument) :
    spec.body argument = .error .tooManyPlaces := by
  obtain ⟨hwrites, hlt⟩ := h
  have hdigits : ∀ value, spec.floatDigits value = .error .tooManyPlaces := fun _ => if_pos hlt
  unfold body
  cases hconversion : spec.conversion with
  | fixed | scientific _ =>
      rw [hconversion] at hwrites
      cases argument with
      | float value =>
          simp only [floatBody_of_finite hwrites.1 hwrites.2, hdigits]
          rfl
      | _ => cases hwrites
  | _ =>
      rw [hconversion] at hwrites
      cases hwrites

theorem apply_of_tooManyPlaces (h : spec.TooManyPlaces argument) :
    spec.apply (some argument) = .error .tooManyPlaces := by
  have hline : spec.conversion ≠ .newline := by
    intro hconversion
    have hwrites := h.1
    rw [hconversion] at hwrites
    cases hwrites
  rw [apply, if_neg hline, Option.getD_some, body_of_tooManyPlaces h]
  rfl

end

end Spec

end MailMerge.Format
