import MailMerge.Number.Shortest
import Mathlib.Algebra.Order.Field.Rat
import Mathlib.Tactic.FieldSimp
import Mathlib.Tactic.Linarith
import Mathlib.Tactic.Positivity
import Mathlib.Tactic.Ring

/-!
# Shortest numerals of whole numbers

The search for a number's shortest numeral tries the powers of ten from the one of the
first digit downwards, seventeen of them, and takes the first that has a multiple in the
number's interval. Two things have to be known about it: that it finds one at all, and
whether what it finds is a whole number.

Both come from the width of the interval (`Binary64.interval_bounds`). It is more than a
part in ten to the 16 of the number, so multiples seventeen digits down are closer to
each other than that and one of them is in it. And it reaches at most half a unit of the
last place to either side; where numbers have fractions such a unit is less than one, so
the only whole number that can be in it is the number itself. That one is in it, and it
is a multiple of one, which comes in the search before the parts of one do.

The search compares products of natural numbers. They stand for comparisons of rational
numbers (`RoundingInterval.holds_iff`), and that is how they are reasoned about here.
-/

namespace MailMerge

/-- The number that a decimal stands for. -/
def Decimal.value (d : Decimal) : ℚ :=
  d.coefficient * 10 ^ d.exponent

theorem zpow_ten_mul (e : ℤ) : (10 : ℚ) ^ e * 10 ^ (-e).toNat = 10 ^ e.toNat := by
  rw [← zpow_natCast, ← zpow_natCast, ← zpow_add₀ (by norm_num)]
  congr 1
  omega

theorem Decimal.value_trimmed (coefficient : ℕ) (exponent : ℤ) :
    (trimmed coefficient exponent).value = coefficient * 10 ^ exponent := by
  fun_induction trimmed coefficient exponent with
  | case1 coefficient exponent h ih =>
      have hten : (coefficient : ℚ) = (coefficient / 10 : ℕ) * 10 := by
        exact_mod_cast (show coefficient = coefficient / 10 * 10 by omega)
      rw [ih, hten, zpow_add₀ (by norm_num), zpow_one]
      ring
  | case2 coefficient exponent h => rfl

theorem Decimal.value_of_exponent_nonneg {d : Decimal} (h : 0 ≤ d.exponent) :
    d.value = (d.coefficient * 10 ^ d.exponent.toNat : ℕ) := by
  rw [value, ← Int.toNat_of_nonneg h, zpow_natCast, Int.toNat_natCast]
  push_cast
  rfl

theorem Decimal.le_exponent_trimmed (coefficient : ℕ) (exponent : ℤ) :
    exponent ≤ (trimmed coefficient exponent).exponent := by
  fun_induction trimmed coefficient exponent with
  | case1 coefficient exponent h ih => omega
  | case2 coefficient exponent h => exact Int.le_refl exponent

/-! ## The power of ten of the first digit -/

theorem digitCount_bounds {n : ℕ} (h : 0 < n) :
    0 < digitCount n ∧ 10 ^ (digitCount n - 1) ≤ n ∧ n < 10 ^ digitCount n := by
  have hcount : digitCount n = (digitsOf n).length := if_neg (by omega)
  have hpos : 0 < (digitsOf n).length := List.length_pos_iff.mpr (digitsOf_ne_nil n)
  have hiff : ∀ k, 0 < k → ((digitsOf n).length ≤ k ↔ n < 10 ^ k) := fun k hk =>
    Nat.length_toDigits_le_iff (by decide) hk
  rw [hcount]
  refine ⟨hpos, ?_, (hiff _ hpos).mp (Nat.le_refl _)⟩
  by_cases hone : (digitsOf n).length = 1
  · rw [hone]
    exact h
  · by_contra hlt
    have := (hiff ((digitsOf n).length - 1) (by omega)).mpr (by omega)
    omega

theorem zpow_floorLog10_mul_le {num den : ℕ} (hnum : 0 < num) (hden : 0 < den) :
    (10 : ℚ) ^ floorLog10 num den * den ≤ num := by
  unfold floorLog10
  split
  · next hle =>
      obtain ⟨hpos, hlow, -⟩ := digitCount_bounds (Nat.div_pos hle hden)
      have hexponent : (digitCount (num / den) : ℤ) - 1 = (digitCount (num / den) - 1 : ℕ) := by
        omega
      rw [hexponent, zpow_natCast]
      exact_mod_cast (Nat.le_div_iff_mul_le hden).mp hlow
  · next hgt =>
      obtain ⟨-, -, hhigh⟩ := digitCount_bounds (Nat.div_pos (show num ≤ den - 1 by omega) hnum)
      rw [zpow_neg, zpow_natCast, inv_mul_le_iff₀ (by positivity)]
      have hlt := (Nat.div_lt_iff_lt_mul hnum).mp hhigh
      exact_mod_cast (show den ≤ 10 ^ digitCount ((den - 1) / num) * num by omega)

theorem floorLog10_nonneg {num den : ℕ} (hden : 0 < den) (h : den ≤ num) :
    0 ≤ floorLog10 num den := by
  obtain ⟨hcount, -⟩ := digitCount_bounds (Nat.div_pos h hden)
  rw [floorLog10, if_pos h]
  omega

/-! ## Intervals -/

namespace RoundingInterval

variable {i : RoundingInterval}

def Contains (i : RoundingInterval) (v : ℚ) : Prop :=
  if i.closed then i.low ≤ v * i.den ∧ v * i.den ≤ i.high
  else i.low < v * i.den ∧ v * i.den < i.high

theorem Contains.bounds {v : ℚ} (h : i.Contains v) :
    i.low ≤ v * i.den ∧ v * i.den ≤ i.high := by
  unfold Contains at h
  split at h
  · exact h
  · exact ⟨h.1.le, h.2.le⟩

theorem contains_of_lt {v : ℚ} (hlow : i.low < v * i.den) (hhigh : v * i.den < i.high) :
    i.Contains v := by
  unfold Contains
  split
  · exact ⟨hlow.le, hhigh.le⟩
  · exact ⟨hlow, hhigh⟩

theorem scaled_eq (c den : ℕ) (e : ℤ) :
    (c * 10 ^ e * den : ℚ) * 10 ^ (-e).toNat = (c * 10 ^ e.toNat * den : ℕ) := by
  push_cast
  rw [← zpow_ten_mul e]
  ring

theorem holds_iff (c : ℕ) (e : ℤ) : i.holds c e = true ↔ i.Contains (c * 10 ^ e) := by
  have hpos : (0 : ℚ) < 10 ^ (-e).toNat := by positivity
  have hle : ∀ point : ℕ, point * 10 ^ (-e).toNat ≤ c * 10 ^ e.toNat * i.den ↔
      (point : ℚ) ≤ c * 10 ^ e * i.den := by
    intro point
    rw [← mul_le_mul_iff_of_pos_right hpos, scaled_eq]
    exact_mod_cast Iff.rfl
  have hge : ∀ point : ℕ, c * 10 ^ e.toNat * i.den ≤ point * 10 ^ (-e).toNat ↔
      c * 10 ^ e * i.den ≤ (point : ℚ) := by
    intro point
    rw [← mul_le_mul_iff_of_pos_right hpos, scaled_eq]
    exact_mod_cast Iff.rfl
  have hlt : ∀ point : ℕ, point * 10 ^ (-e).toNat < c * 10 ^ e.toNat * i.den ↔
      (point : ℚ) < c * 10 ^ e * i.den := fun point => by rw [← not_le, hge, not_le]
  have hgt : ∀ point : ℕ, c * 10 ^ e.toNat * i.den < point * 10 ^ (-e).toNat ↔
      c * 10 ^ e * i.den < (point : ℚ) := fun point => by rw [← not_le, hle, not_le]
  unfold holds Contains
  cases i.closed with
  | true => simp [sides, hle, hge]
  | false => simp [sides, hlt, hgt]

/-- The multiple of a power of ten that is next below the value or is the value. -/
def below (i : RoundingInterval) (e : ℤ) : ℕ :=
  i.value * 10 ^ (-e).toNat / (i.den * 10 ^ e.toNat)

theorem contains_of_nearestMultiple? {e : ℤ} {c : ℕ} (h : i.nearestMultiple? e = some c) :
    i.Contains (c * 10 ^ e) := by
  rw [← holds_iff]
  simp only [nearestMultiple?] at h
  split at h
  · next hbelow habove =>
      split at h
      · cases h
        exact hbelow
      · cases h
        exact habove
  · next hbelow _ =>
      cases h
      exact hbelow
  · next _ habove =>
      cases h
      exact habove
  · cases h

theorem isSome_nearestMultiple?_iff (e : ℤ) :
    (i.nearestMultiple? e).isSome ↔
      i.Contains (i.below e * 10 ^ e) ∨ i.Contains ((i.below e + 1 : ℕ) * 10 ^ e) := by
  rw [← holds_iff, ← holds_iff]
  unfold nearestMultiple?
  simp only []
  split
  · next hbelow _ =>
      refine ⟨fun _ => .inl hbelow, fun _ => ?_⟩
      split <;> rfl
  · next hbelow _ => exact ⟨fun _ => .inl hbelow, fun _ => rfl⟩
  · next _ habove => exact ⟨fun _ => .inr habove, fun _ => rfl⟩
  · next hbelow habove =>
      refine ⟨nofun, fun hholds => ?_⟩
      rcases hholds with h | h
      · exact absurd (hbelow.symm.trans h) (by decide)
      · exact absurd (habove.symm.trans h) (by decide)

/-- The value lies between the two multiples. -/
theorem below_bounds (hden : 0 < i.den) (e : ℤ) :
    (i.below e * 10 ^ e * i.den : ℚ) ≤ i.value ∧
      (i.value : ℚ) < (i.below e + 1 : ℕ) * 10 ^ e * i.den := by
  have hpos : (0 : ℚ) < 10 ^ (-e).toNat := by positivity
  have hunit : 0 < i.den * 10 ^ e.toNat := by positivity
  constructor
  · rw [← mul_le_mul_iff_of_pos_right hpos, scaled_eq]
    have hle := Nat.div_mul_le_self (i.value * 10 ^ (-e).toNat) (i.den * 10 ^ e.toNat)
    exact_mod_cast (show i.below e * 10 ^ e.toNat * i.den ≤ i.value * 10 ^ (-e).toNat by
      rw [mul_assoc, mul_comm (10 ^ e.toNat)]
      exact hle)
  · rw [← mul_lt_mul_iff_of_pos_right hpos, scaled_eq]
    have hlt := Nat.lt_mul_div_succ (i.value * 10 ^ (-e).toNat) hunit
    exact_mod_cast (show i.value * 10 ^ (-e).toNat < (i.below e + 1) * 10 ^ e.toNat * i.den by
      rw [mul_assoc, mul_comm (i.below e + 1), mul_comm (10 ^ e.toNat)]
      exact hlt)

/-- An interval that is wider than the multiples of a power of ten are apart has one
of the two around its value. -/
theorem isSome_nearestMultiple? (hden : 0 < i.den) (hlow : i.low < i.value)
    (hhigh : i.value < i.high) {e : ℤ} (hgap : (10 : ℚ) ^ e * i.den < i.high - i.low) :
    (i.nearestMultiple? e).isSome := by
  rw [isSome_nearestMultiple?_iff]
  obtain ⟨hbelow, habove⟩ := below_bounds hden e
  have hlow' : (i.low : ℚ) < i.value := by exact_mod_cast hlow
  have hhigh' : (i.value : ℚ) < i.high := by exact_mod_cast hhigh
  by_cases hleft : (i.low : ℚ) < i.below e * 10 ^ e * i.den
  · exact .inl (contains_of_lt hleft (by linarith))
  · refine .inr (contains_of_lt (by linarith) ?_)
    push_cast
    linarith

/-- A value that is whole is itself the multiple of one. -/
theorem isSome_nearestMultiple?_zero (hdvd : i.den ∣ i.value) (hlow : i.low < i.value)
    (hhigh : i.value < i.high) : (i.nearestMultiple? 0).isSome := by
  have hbelow : i.below 0 * i.den = i.value := by
    simp [below, Nat.div_mul_cancel hdvd]
  have hown : (i.below 0 * 10 ^ (0 : ℤ) * i.den : ℚ) = i.value := by
    rw [zpow_zero, mul_one]
    exact_mod_cast hbelow
  rw [isSome_nearestMultiple?_iff]
  left
  apply contains_of_lt
  · rw [hown]
    exact_mod_cast hlow
  · rw [hown]
    exact_mod_cast hhigh

end RoundingInterval

/-- A search through the numbers from zero on finds the first one there is. -/
theorem exists_of_findSome?_range {α : Type} {f : ℕ → Option α} {n : ℕ} {found : α}
    (h : (List.range n).findSome? f = some found) :
    ∃ k, f k = some found ∧ ∀ before < k, f before = none := by
  induction n with
  | zero => cases h
  | succ n ih =>
      rw [List.range_succ, List.findSome?_append, Option.or_eq_some_iff] at h
      rcases h with hbefore | ⟨hnone, hlast⟩
      · exact ih hbefore
      · refine ⟨n, by simpa using hlast, ?_⟩
        intro before hbefore
        exact List.findSome?_eq_none_iff.mp hnone before (List.mem_range.mpr hbefore)

namespace Binary64

variable {x : Binary64}

/-! ## The interval of a number -/

theorem significand_lt (x : Binary64) : x.significand < 2 ^ 53 := by
  have hfraction : x.fraction < 2 ^ 52 := Nat.mod_lt _ (by decide)
  have hunit : exponentUnit = 2 ^ 52 := by decide
  unfold significand
  split <;> omega

/-- The interval of a number that is not zero is wider than a part in ten to the 16 of the
number. A power of two has the narrower interval, but it is the least number with its units. -/
theorem interval_bounds (h : x.significand ≠ 0) :
    let i := RoundingInterval.of x
    0 < i.den ∧ i.low < i.value ∧ i.value < i.high ∧
      i.value + i.low * 10 ^ 16 < i.high * 10 ^ 16 := by
  simp only [RoundingInterval.of, Nat.pow_eq]
  have hden : 0 < 2 ^ (-x.scale).toNat := by positivity
  have hunit : 0 < 2 ^ x.scale.toNat := by positivity
  generalize 2 ^ x.scale.toNat = unit at hunit
  have hone : 1 * unit ≤ x.significand * unit := Nat.mul_le_mul_right unit (by omega)
  rw [Nat.mul_assoc 4]
  split
  · next hpower =>
      have hsignificand : x.significand = 2 ^ 52 := by
        rw [significand, if_neg (by omega), hpower.1]
        rfl
      rw [hsignificand] at hone ⊢
      omega
  · have hlt := significand_lt x
    have hmost : x.significand * unit ≤ 2 ^ 53 * unit := Nat.mul_le_mul_right unit hlt.le
    generalize x.significand * unit = value at hone hmost
    omega

/-- Seventeen digits are enough. -/
theorem isSome_nearestMultiple? (h : x.significand ≠ 0) :
    let i := RoundingInterval.of x
    (i.nearestMultiple? (floorLog10 i.value i.den - 16)).isSome := by
  intro i
  obtain ⟨hden, hlow, hhigh, hwide⟩ := interval_bounds h
  apply RoundingInterval.isSome_nearestMultiple? hden hlow hhigh
  have hten := zpow_floorLog10_mul_le (Nat.zero_lt_of_lt hlow) hden
  have hwide' : ((i.value + i.low * 10 ^ 16 : ℕ) : ℚ) < (i.high * 10 ^ 16 : ℕ) := by
    exact_mod_cast hwide
  push_cast at hwide'
  rw [zpow_sub₀ (by norm_num), div_mul_eq_mul_div, div_lt_iff₀ (by positivity)]
  have hsixteen : (10 : ℚ) ^ (16 : ℤ) = 10 ^ 16 := by norm_cast
  rw [hsixteen]
  linarith

/-! ## The numeral -/

/-- The numeral is made of the first multiple that is found, from the widest apart to the
closest. -/
theorem exists_shortest_eq (h : x.significand ≠ 0) :
    let i := RoundingInterval.of x
    let top := floorLog10 i.value i.den
    ∃ (extra c : ℕ), i.nearestMultiple? (top - extra) = some c ∧
      x.shortest = Decimal.trimmed c (top - extra) ∧
      ∀ before < extra, i.nearestMultiple? (top - before) = none := by
  intro i top
  let tried := fun extra : ℕ => (i.nearestMultiple? (top - extra)).map fun c =>
    Decimal.trimmed c (top - extra)
  have hsome : ((List.range 17).findSome? tried).isSome := by
    rw [List.findSome?_isSome_iff]
    refine ⟨16, by decide, ?_⟩
    rw [Option.isSome_map]
    exact isSome_nearestMultiple? h
  obtain ⟨found, hfound⟩ := Option.isSome_iff_exists.mp hsome
  have hshortest : x.shortest = found := by
    rw [shortest, if_neg h]
    show ((List.range 17).findSome? tried).getD _ = found
    rw [hfound, Option.getD_some]
  obtain ⟨extra, hextra, hfirst⟩ := exists_of_findSome?_range hfound
  obtain ⟨c, hc, htrimmed⟩ := Option.map_eq_some_iff.mp hextra
  exact ⟨extra, c, hc, hshortest.trans htrimmed.symm,
    fun before hbefore => Option.map_eq_none_iff.mp (hfirst before hbefore)⟩

/-- What the numeral stands for rounds to the number. -/
theorem contains_shortest (h : x.significand ≠ 0) :
    (RoundingInterval.of x).Contains x.shortest.value := by
  obtain ⟨extra, c, hc, hshortest, -⟩ := exists_shortest_eq h
  rw [hshortest, Decimal.value_trimmed]
  exact RoundingInterval.contains_of_nearestMultiple? hc

/-! ## Whole numbers -/

theorem shortest_of_significand_eq_zero (h : x.significand = 0) : x.shortest = ⟨0, 0⟩ :=
  if_pos h

/-- An interval reaches half a unit up and down, and where there are fractions a unit is
one or less; so it has no whole number in it but its own. -/
theorem dvd_of_exponent_nonneg (h : 0 ≤ x.shortest.exponent) :
    x.magnitude.2 ∣ x.magnitude.1 := by
  simp only [magnitude, Nat.pow_eq]
  by_cases hzero : x.significand = 0
  · rw [hzero, Nat.zero_mul]
    exact Nat.dvd_zero _
  · by_cases hscale : 0 ≤ x.scale
    · rw [Int.toNat_eq_zero.mpr (show -x.scale ≤ 0 by omega)]
      exact Nat.one_dvd _
    · obtain ⟨hlow, hhigh⟩ := (contains_shortest hzero).bounds
      rw [Decimal.value_of_exponent_nonneg h] at hlow hhigh
      generalize x.shortest.coefficient * 10 ^ x.shortest.exponent.toNat = n at hlow hhigh
      have hlow' : (RoundingInterval.of x).low ≤ n * (RoundingInterval.of x).den := by
        exact_mod_cast hlow
      have hhigh' : n * (RoundingInterval.of x).den ≤ (RoundingInterval.of x).high := by
        exact_mod_cast hhigh
      simp only [RoundingInterval.of, Nat.pow_eq] at hlow' hhigh'
      rw [Int.toNat_eq_zero.mpr (show x.scale ≤ 0 by omega)] at hlow' hhigh' ⊢
      rw [Nat.mul_left_comm] at hlow' hhigh'
      have hn : x.significand * 2 ^ 0 = 2 ^ (-x.scale).toNat * n := by
        rw [Nat.mul_comm _ n]
        split at hlow' <;> omega
      exact ⟨n, hn⟩

/-- A whole number is a multiple of one, and that is tried before its parts are. -/
theorem exponent_nonneg_of_dvd (h : x.magnitude.2 ∣ x.magnitude.1) :
    0 ≤ x.shortest.exponent := by
  by_cases hzero : x.significand = 0
  · rw [shortest_of_significand_eq_zero hzero]
  · let i := RoundingInterval.of x
    obtain ⟨hden, hlow, hhigh, -⟩ := interval_bounds hzero
    have hdvd : i.den ∣ i.value := by
      obtain ⟨n, hn⟩ := h
      refine ⟨n, ?_⟩
      show 4 * x.significand * Nat.pow 2 x.scale.toNat = 4 * Nat.pow 2 (-x.scale).toNat * n
      rw [Nat.mul_assoc, Nat.mul_assoc]
      exact congrArg (4 * ·) hn
    have htop : 0 ≤ floorLog10 i.value i.den :=
      floorLog10_nonneg hden (Nat.le_of_dvd (Nat.zero_lt_of_lt hlow) hdvd)
    obtain ⟨extra, c, -, hshortest, hnone⟩ := exists_shortest_eq hzero
    have hexponent := Decimal.le_exponent_trimmed c (floorLog10 i.value i.den - extra)
    rw [← hshortest] at hexponent
    by_contra hnegative
    have hmissed := hnone (floorLog10 i.value i.den).toNat (by omega)
    rw [Int.toNat_of_nonneg htop, Int.sub_self] at hmissed
    have hone := RoundingInterval.isSome_nearestMultiple?_zero hdvd hlow hhigh
    rw [hmissed] at hone
    cases hone

/-- Exactly the whole numbers have a numeral without a point. -/
theorem exponent_nonneg_iff :
    0 ≤ x.shortest.exponent ↔ x.magnitude.2 ∣ x.magnitude.1 :=
  ⟨dvd_of_exponent_nonneg, exponent_nonneg_of_dvd⟩

end Binary64

end MailMerge
