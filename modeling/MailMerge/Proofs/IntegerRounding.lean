import MailMerge.Number.Rounding

/-!
# Integers as floating-point numbers

An integer too large for the significand loses its last bits on the way to a
floating-point number, and integers that were different may come out the same.
What survives is the order: `orderKey_ofInt_mono` says that a larger integer
never becomes a smaller number. And every integer becomes a number that has an
order, since none is large enough to become anything past infinity.

The pattern that an integer rounds to is made of the place of its highest bit
and of what the bits from there on round to. Two integers with the highest bit
in the same place are told apart by the second part alone; otherwise the first
part decides, because the second one stays between one and two units of the
exponent field (`exponentUnit_le_leadingBits`, `leadingBits_le`).
-/

namespace MailMerge

/-! ## Rounding a quotient -/

theorem roundHalfEven_eq_succ_iff {num den : Nat} :
    roundHalfEven num den = num / den + 1 ↔
      den < 2 * (num % den) ∨ (2 * (num % den) = den ∧ num / den % 2 = 1) := by
  simp only [roundHalfEven]
  split
  · omega
  · split
    · omega
    · split <;> omega

theorem roundHalfEven_mono {m n : Nat} (den : Nat) (h : m ≤ n) :
    roundHalfEven m den ≤ roundHalfEven n den := by
  have hm := roundHalfEven_eq m den
  have hn := roundHalfEven_eq n den
  rcases Nat.lt_or_ge (m / den) (n / den) with hlt | hge
  · omega
  · have hquot : m / den = n / den := Nat.le_antisymm (Nat.div_le_div_right h) hge
    -- With the same quotient, what rounds the smaller one up does so to the other.
    have hrest : m % den ≤ n % den := by
      have hm := Nat.div_add_mod m den
      have hn := Nat.div_add_mod n den
      rw [hquot] at hm
      omega
    rcases hm with hm | hm
    · omega
    · have hup : roundHalfEven n den = n / den + 1 := by
        rw [roundHalfEven_eq_succ_iff] at hm ⊢
        rw [hquot] at hm
        omega
      omega

namespace Binary64

/-! ## The pattern of an integer -/

theorem floorLog2_one {n : Nat} (h : n ≠ 0) : floorLog2 n 1 = n.log2 := by
  have hguess : (n.log2 : Int) - (Nat.log2 1 : Nat) = n.log2 := by
    rw [show Nat.log2 1 = 0 by decide]
    omega
  have hle : powerLE n.log2 n 1 = true := by
    have := Nat.log2_self_le h
    simpa [powerLE] using this
  unfold floorLog2
  simp only [hguess, hle, if_true]

/-- The significand that a positive integer rounds to. -/
def leadingBits (n : Nat) : Nat :=
  roundHalfEven (n * Nat.pow 2 (52 - n.log2)) (Nat.pow 2 (n.log2 - 52))

theorem nearestBits_one {n : Nat} (h : n ≠ 0) :
    nearestBits n 1 = min ((n.log2 + 1022) * exponentUnit + leadingBits n) infinityBits := by
  have hunit : max ((n.log2 : Int) - 52) (-1074) = n.log2 - 52 := by omega
  have hpos : ((n.log2 : Int) - 52).toNat = n.log2 - 52 := by omega
  have hneg : (-((n.log2 : Int) - 52)).toNat = 52 - n.log2 := by omega
  have hfield : ((n.log2 : Int) - 52 + 1074).toNat = n.log2 + 1022 := by omega
  unfold nearestBits leadingBits
  rw [if_neg h]
  simp only [floorLog2_one h, hunit, hpos, hneg, hfield, Nat.one_mul]

/-- Scaled until it is counted in units of its last significant bit, an integer
has as many units as a significand. -/
theorem quotient_bounds {n : Nat} (h : n ≠ 0) :
    exponentUnit ≤ n * Nat.pow 2 (52 - n.log2) / Nat.pow 2 (n.log2 - 52) ∧
      n * Nat.pow 2 (52 - n.log2) / Nat.pow 2 (n.log2 - 52) < 2 * exponentUnit := by
  have hunit : exponentUnit = Nat.pow 2 52 := by decide
  have hlow : Nat.pow 2 n.log2 ≤ n := Nat.log2_self_le h
  have hhigh : n < Nat.pow 2 (n.log2 + 1) := Nat.lt_log2_self
  have hexp : Nat.pow 2 52 * Nat.pow 2 (n.log2 - 52)
      = Nat.pow 2 n.log2 * Nat.pow 2 (52 - n.log2) := by
    simp only [Nat.pow_eq, ← Nat.pow_add]
    congr 1
    omega
  have hden : 0 < Nat.pow 2 (n.log2 - 52) := Nat.pow_pos (by decide)
  rw [hunit]
  constructor
  · rw [Nat.le_div_iff_mul_le hden, hexp]
    exact Nat.mul_le_mul_right _ hlow
  · rw [Nat.div_lt_iff_lt_mul hden, Nat.mul_assoc, hexp, ← Nat.mul_assoc]
    refine Nat.mul_lt_mul_of_pos_right ?_ (Nat.pow_pos (by decide))
    rwa [Nat.pow_eq, Nat.pow_succ, Nat.mul_comm] at hhigh

theorem exponentUnit_le_leadingBits {n : Nat} (h : n ≠ 0) :
    exponentUnit ≤ leadingBits n := by
  have hbounds := quotient_bounds h
  have hround := roundHalfEven_eq (n * Nat.pow 2 (52 - n.log2)) (Nat.pow 2 (n.log2 - 52))
  unfold leadingBits
  omega

theorem leadingBits_le {n : Nat} (h : n ≠ 0) : leadingBits n ≤ 2 * exponentUnit := by
  have hbounds := quotient_bounds h
  have hround := roundHalfEven_eq (n * Nat.pow 2 (52 - n.log2)) (Nat.pow 2 (n.log2 - 52))
  unfold leadingBits
  omega

theorem nearestBits_zero (den : Nat) : nearestBits 0 den = 0 := by
  unfold nearestBits
  rw [if_pos rfl]

theorem nearestBits_one_mono {m n : Nat} (h : m ≤ n) : nearestBits m 1 ≤ nearestBits n 1 := by
  by_cases hm : m = 0
  · rw [hm, nearestBits_zero]
    exact Nat.zero_le _
  · have hn : n ≠ 0 := by omega
    have hlog : m.log2 ≤ n.log2 := (Nat.le_log2 hn).mpr (Nat.le_trans (Nat.log2_self_le hm) h)
    have hpattern : (m.log2 + 1022) * exponentUnit + leadingBits m
        ≤ (n.log2 + 1022) * exponentUnit + leadingBits n := by
      rcases Nat.eq_or_lt_of_le hlog with heq | hlt
      · have hbits : leadingBits m ≤ leadingBits n := by
          unfold leadingBits
          rw [heq]
          exact roundHalfEven_mono _ (Nat.mul_le_mul_right _ h)
        rw [heq]
        exact Nat.add_le_add_left hbits _
      · -- A significand that rounds up past its last bit fills up the step to
        -- the next exponent, and no more.
        have hup := leadingBits_le hm
        have hlow := exponentUnit_le_leadingBits hn
        have hstep : (m.log2 + 1022 + 1) * exponentUnit ≤ (n.log2 + 1022) * exponentUnit :=
          Nat.mul_le_mul_right _ (by omega)
        rw [Nat.add_mul, Nat.one_mul] at hstep
        omega
    rw [nearestBits_one hm, nearestBits_one hn]
    omega

theorem nearestBits_le (num den : Nat) : nearestBits num den ≤ infinityBits := by
  unfold nearestBits
  split
  · exact Nat.zero_le _
  · exact Nat.min_le_right ..

theorem lt_signUnit_of_le {pattern : Nat} (h : pattern ≤ infinityBits) : pattern < signUnit :=
  Nat.lt_of_le_of_lt h (by decide)

/-! ## The number of an integer -/

section

variable {negative : Bool} {pattern : Nat}

theorem toNat_bits_ofUnsignedBits (h : pattern < signUnit) :
    (ofUnsignedBits negative pattern).bits.toNat
      = if negative then signUnit + pattern else pattern := by
  have hsign : signUnit + signUnit = 2 ^ 64 := by decide
  unfold ofUnsignedBits
  rw [UInt64.toNat_ofNat', Nat.mod_eq_of_lt]
  split <;> omega

theorem isNegative_ofUnsignedBits (h : pattern < signUnit) :
    (ofUnsignedBits negative pattern).isNegative = negative := by
  unfold isNegative
  rw [toNat_bits_ofUnsignedBits h]
  cases negative with
  | true => simp
  | false => simp; omega

theorem unsignedBits_ofUnsignedBits (h : pattern < signUnit) :
    (ofUnsignedBits negative pattern).unsignedBits = pattern := by
  unfold unsignedBits
  rw [toNat_bits_ofUnsignedBits h]
  cases negative with
  | true => rw [if_pos rfl, Nat.add_mod_left, Nat.mod_eq_of_lt h]
  | false => rw [if_neg (by decide), Nat.mod_eq_of_lt h]

theorem isNaN_ofUnsignedBits (h : pattern ≤ infinityBits) :
    (ofUnsignedBits negative pattern).isNaN = false := by
  have hunit : 0 < exponentUnit := by decide
  unfold isNaN exponentField fraction
  rw [unsignedBits_ofUnsignedBits (lt_signUnit_of_le h), Bool.and_eq_false_imp]
  intro hfield
  rw [beq_iff_eq] at hfield
  have hdiv := Nat.div_add_mod pattern exponentUnit
  rw [hfield, Nat.mul_comm] at hdiv
  have hrest : pattern % exponentUnit = 0 := by
    unfold infinityBits at h
    omega
  simp [hrest]

end

theorem isNaN_ofInt (i : Int) : (ofInt i).isNaN = false :=
  isNaN_ofUnsignedBits (nearestBits_le ..)

theorem orderKey_ofInt (i : Int) :
    (ofInt i).orderKey
      = if i < 0 then -(nearestBits i.natAbs 1 : Int) else nearestBits i.natAbs 1 := by
  unfold orderKey ofInt
  have hpattern := lt_signUnit_of_le (nearestBits_le i.natAbs 1)
  rw [isNegative_ofUnsignedBits hpattern, unsignedBits_ofUnsignedBits hpattern]
  simp only [decide_eq_true_eq]

/-- Rounding keeps the order of integers, though not their differences. -/
theorem orderKey_ofInt_mono {i j : Int} (h : i ≤ j) : (ofInt i).orderKey ≤ (ofInt j).orderKey := by
  rw [orderKey_ofInt, orderKey_ofInt]
  split
  · split
    · have := nearestBits_one_mono (show j.natAbs ≤ i.natAbs by omega)
      omega
    · omega
  · rw [if_neg (by omega)]
    have := nearestBits_one_mono (show i.natAbs ≤ j.natAbs by omega)
    omega

end Binary64

end MailMerge
