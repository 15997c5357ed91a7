import MailMerge.Number.Rounding
import MailMerge.Number.Digits

/-!
# Numerals with a given number of places

A quotient is written with a fixed number of places after the point, or as a
mantissa with so many places and a power of ten. Either way it is rounded once,
from its exact value, with halves going to the even neighbour.
-/

namespace MailMerge

/-- A number written out as `digits`, with a point before the last `places`. -/
structure PlacedDigits where
  whole : List Char
  fraction : List Char
  deriving Repr, DecidableEq, Inhabited

/-- A number of units of the last place, with the point put in. -/
def PlacedDigits.of (units places : Nat) : PlacedDigits :=
  let digits := padZeros (places + 1) (digitsOf units)
  ⟨digits.take (digits.length - places), digits.drop (digits.length - places)⟩

/-- The point is written only before a fraction that has digits. -/
def PlacedDigits.text (n : PlacedDigits) : List Char :=
  if n.fraction = [] then n.whole else n.whole ++ '.' :: n.fraction

/-- A quotient rounded to a number of places. -/
def fixedPlaces (num den places : Nat) : PlacedDigits :=
  .of (roundHalfEven (num * Nat.pow 10 places) den) places

/-- A mantissa and the power of ten it is multiplied by. -/
structure Scientific where
  mantissa : PlacedDigits
  exponent : Int
  deriving Repr, DecidableEq, Inhabited

/-- A quotient with one digit before the point and `places` after it. A
mantissa that rounds up to ten moves on to the next power. -/
def scientificPlaces (num den places : Nat) : Scientific :=
  if num = 0 then ⟨.of 0 places, 0⟩
  else
    let exponent := floorLog10 num den
    let shift := (places : Int) - exponent
    let units := roundHalfEven (num * Nat.pow 10 shift.toNat) (den * Nat.pow 10 (-shift).toNat)
    if units < Nat.pow 10 (places + 1) then ⟨.of units places, exponent⟩
    else ⟨.of (units / 10) places, exponent + 1⟩

end MailMerge
