import MailMerge.Number.Binary64

/-!
# Rounding to a floating-point number

Integers, decimal numerals and numbers of the 32-bit format become
floating-point numbers of 64 bits by one rule: the nearest number, and of two
equally near ones the one with the even significand. What is too large becomes
an infinity.
-/

namespace MailMerge

/-- The integer nearest to a quotient; a half goes to the even neighbour. -/
def roundHalfEven (num den : Nat) : Nat :=
  let floor := num / den
  let rest := num % den
  if 2 * rest < den then floor
  else if den < 2 * rest then floor + 1
  else if floor % 2 = 0 then floor
  else floor + 1

theorem roundHalfEven_eq (num den : Nat) :
    roundHalfEven num den = num / den ∨ roundHalfEven num den = num / den + 1 := by
  simp only [roundHalfEven]
  split
  · exact .inl rfl
  · split
    · exact .inr rfl
    · split
      · exact .inl rfl
      · exact .inr rfl

namespace Binary64

/-- Whether `2 ^ power` is at most the quotient. -/
def powerLE (power : Int) (num den : Nat) : Bool :=
  decide (den * Nat.pow 2 power.toNat ≤ num * Nat.pow 2 (-power).toNat)

/-- The largest power of two that is at most a positive quotient. The
logarithms of its two parts miss it by one at most. -/
def floorLog2 (num den : Nat) : Int :=
  let guess := (num.log2 : Int) - den.log2
  if powerLE guess num den then guess else guess - 1

/-- The unsigned pattern nearest to a quotient. Consecutive patterns are
consecutive numbers, so a significand that rounds up past its last bit carries
into the exponent field by itself. -/
def nearestBits (num den : Nat) : Nat :=
  if num = 0 then 0
  else
    let unit : Int := max (floorLog2 num den - 52) (-1074)
    let significand := roundHalfEven (num * Nat.pow 2 (-unit).toNat) (den * Nat.pow 2 unit.toNat)
    min ((unit + 1074).toNat * exponentUnit + significand) infinityBits

/-- The number nearest to an integer. -/
def ofInt (i : Int) : Binary64 :=
  ofUnsignedBits (decide (i < 0)) (nearestBits i.natAbs 1)

/-- The number nearest to `coefficient * 10 ^ exponent`, with a sign. Outside
the bounds on the exponent the answer is known without computing the power. -/
def ofDecimal (negative : Bool) (coefficient : Nat) (exponent : Int) : Binary64 :=
  let leading := exponent + (Nat.toDigits 10 coefficient).length
  let pattern :=
    if coefficient = 0 ∨ leading < -400 then 0
    else if 400 < leading then infinityBits
    else nearestBits (coefficient * Nat.pow 10 exponent.toNat) (Nat.pow 10 (-exponent).toNat)
  ofUnsignedBits negative pattern

/-- The number that a pattern of IEEE 754's 32-bit format stands for; each of
its numbers is one of the 64-bit format, too. -/
def ofBinary32 (pattern : UInt32) : Binary64 :=
  let word := pattern.toNat
  let negative := decide (0x80000000 ≤ word)
  let exponent : Nat := word / 0x800000 % 0x100
  let fraction : Nat := word % 0x800000
  if exponent = 255 then if fraction = 0 then infinity negative else nan negative
  else
    let significand := if exponent = 0 then fraction else 0x800000 + fraction
    let scale : Int := max (exponent : Int) 1 - 150
    ofUnsignedBits negative
      (nearestBits (significand * Nat.pow 2 scale.toNat) (Nat.pow 2 (-scale).toNat))

end Binary64

end MailMerge
