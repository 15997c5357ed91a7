import MailMerge.Number.Binary64
import MailMerge.Number.Digits

/-!
# The shortest decimal numeral of a floating-point number

Around a floating-point number lies an interval of real numbers that all round
to it. Its shortest numeral is the decimal number in that interval with the
fewest digits, and of those the one nearest to the number itself; of two
equally near ones it is the larger.
-/

namespace MailMerge

/-- The number `coefficient * 10 ^ exponent`. -/
structure Decimal where
  coefficient : Nat
  exponent : Int
  deriving Repr, DecidableEq, Inhabited

/-- The same number with no zero at the end of its coefficient. -/
def Decimal.trimmed (coefficient : Nat) (exponent : Int) : Decimal :=
  if h : coefficient ≠ 0 ∧ coefficient % 10 = 0 then trimmed (coefficient / 10) (exponent + 1)
  else ⟨coefficient, exponent⟩
termination_by coefficient
decreasing_by omega

/-- The interval of the real numbers that round to a floating-point number,
as multiples of `1 / den`; its ends belong to it if `closed` is set. -/
structure RoundingInterval where
  low : Nat
  value : Nat
  high : Nat
  den : Nat
  closed : Bool

/-- The interval of a finite number's absolute value. It reaches half a unit
of the last place up, and as far down unless the number is a power of two: the
numbers below that are twice as dense. -/
def RoundingInterval.of (x : Binary64) : RoundingInterval :=
  let unit := Nat.pow 2 x.scale.toNat
  let value := 4 * x.significand * unit
  let lower := if x.fraction = 0 ∧ 1 < x.exponentField then unit else 2 * unit
  { low := value - lower
    value := value
    high := value + 2 * unit
    den := 4 * Nat.pow 2 (-x.scale).toNat
    closed := x.significand % 2 = 0 }

namespace RoundingInterval

/-- The two sides of a comparison of `coefficient * 10 ^ exponent` with
`point / den`, multiplied by the same positive number. -/
def sides (i : RoundingInterval) (coefficient : Nat) (exponent : Int) (point : Nat) : Nat × Nat :=
  (coefficient * Nat.pow 10 exponent.toNat * i.den, point * Nat.pow 10 (-exponent).toNat)

/-- Whether the interval holds `coefficient * 10 ^ exponent`. -/
def holds (i : RoundingInterval) (coefficient : Nat) (exponent : Int) : Bool :=
  let (atLow, low) := i.sides coefficient exponent i.low
  let (atHigh, high) := i.sides coefficient exponent i.high
  if i.closed then decide (low ≤ atLow) && decide (atHigh ≤ high)
  else decide (low < atLow) && decide (atHigh < high)

/-- The multiple of `10 ^ exponent` in the interval that is nearest to the
value, if there is one: one of the value's two neighbours. -/
def nearestMultiple? (i : RoundingInterval) (exponent : Int) : Option Nat :=
  let num := i.value * Nat.pow 10 (-exponent).toNat
  let den := i.den * Nat.pow 10 exponent.toNat
  let below := num / den
  let above := below + 1
  match i.holds below exponent, i.holds above exponent with
  | true, true => if num - below * den < above * den - num then some below else some above
  | true, false => some below
  | false, true => some above
  | false, false => none

end RoundingInterval

/-- The shortest numeral of a finite number's absolute value. Seventeen digits
are always enough. -/
def Binary64.shortest (x : Binary64) : Decimal :=
  if x.significand = 0 then ⟨0, 0⟩
  else
    let interval := RoundingInterval.of x
    let top := floorLog10 interval.value interval.den
    let found := (List.range 17).findSome? fun (extra : Nat) =>
      (interval.nearestMultiple? (top - extra)).map fun coefficient =>
        Decimal.trimmed coefficient (top - extra)
    found.getD ⟨x.significand, 0⟩

end MailMerge
