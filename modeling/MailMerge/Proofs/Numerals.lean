import MailMerge.Format.Apply
import MailMerge.Proofs.ByteCounts
import MailMerge.Toml.NumberLiteral

/-!
# What numerals are made of

The conversions of numbers hand on a sign, a mark and digits, and what is done to
these afterwards goes by where the one ends and the next begins. Two facts about
the digits are enough for that, whatever base, places or groups they come in: they
begin with a digit, and all of it is ASCII (`IsNumeral`). The first tells the
digits from the sign in front of them. The second makes capitals harmless, because
an ASCII character has one capital form and it is ASCII, too; no other conversion
can be sure of that.

What a conversion writes is a numeral of this kind (`Spec.exists_numeral`) or a text
(`Spec.exists_text`), and it can be told from the conversion and the argument which of
the two it is (`Conversion.MakesNumeral`).
-/

namespace MailMerge

/-! ## Digits -/

theorem exists_of_mem_toDigits {base n : Nat} (hbase : 1 < base) {c : Char}
    (h : c ∈ Nat.toDigits base n) : ∃ d < base, c = Nat.digitChar d := by
  induction n using Nat.strongRecOn with
  | ind n ih =>
      by_cases hlt : n < base
      · rw [Nat.toDigits_of_lt_base hlt, List.mem_singleton] at h
        exact ⟨n, hlt, h⟩
      · rw [Nat.toDigits_of_base_le hbase (by omega), List.mem_append] at h
        rcases h with h | h
        · exact ih (n / base) (Nat.div_lt_self (by omega) hbase) h
        · exact ⟨n % base, Nat.mod_lt n (by omega), List.mem_singleton.mp h⟩

theorem digitChar_val_le {d : Nat} (h : d < 16) : (Nat.digitChar d).val ≤ 127 := by
  revert d
  decide

theorem isDigitOf_digitChar {d : Nat} (h : d < 16) :
    Toml.isDigitOf 16 (Nat.digitChar d) = true ∧
      Toml.isDigitOf 16 (Nat.digitChar d).toUpper = true := by
  revert d
  decide

/-- Every character is a digit of the base. -/
def AreDigits (base : Nat) (text : List Char) : Prop :=
  ∀ c ∈ text, ∃ d < base, c = Nat.digitChar d

theorem areDigits_toDigits {base : Nat} (hbase : 1 < base) (n : Nat) :
    AreDigits base (Nat.toDigits base n) :=
  fun _ => exists_of_mem_toDigits hbase

theorem areDigits_padZeros (count n : Nat) : AreDigits 10 (padZeros count (digitsOf n)) := by
  intro c hc
  rcases List.mem_append.mp hc with hzero | hdigit
  · exact ⟨0, by decide, (List.mem_replicate.mp hzero).2⟩
  · exact exists_of_mem_toDigits (by decide) hdigit

theorem AreDigits.isAscii {base : Nat} {text : List Char} (h : AreDigits base text)
    (hbase : base ≤ 16) : IsAscii text := by
  intro c hc
  obtain ⟨d, hd, rfl⟩ := h c hc
  exact digitChar_val_le (by omega)

/-! ## Digits and what may stand between them -/

/-- A text that begins with a digit, all of it ASCII. -/
structure IsNumeral (text : List Char) : Prop where
  first : ∃ d < 16, text.head? = some (Nat.digitChar d)
  ascii : IsAscii text

theorem AreDigits.isNumeral {base : Nat} {text : List Char} (h : AreDigits base text)
    (hbase : base ≤ 16) (hne : text ≠ []) : IsNumeral text := by
  refine ⟨?_, h.isAscii hbase⟩
  obtain ⟨c, rest, rfl⟩ := List.exists_cons_of_ne_nil hne
  obtain ⟨d, hd, hc⟩ := h c List.mem_cons_self
  exact ⟨d, by omega, congrArg some hc⟩

theorem isNumeral_toDigits {base : Nat} (hlow : 1 < base) (hhigh : base ≤ 16) (n : Nat) :
    IsNumeral (Nat.toDigits base n) :=
  (areDigits_toDigits hlow n).isNumeral hhigh Nat.toDigits_ne_nil

theorem IsNumeral.append {text rest : List Char} (h : IsNumeral text) (hrest : IsAscii rest) :
    IsNumeral (text ++ rest) := by
  obtain ⟨d, hd, hfirst⟩ := h.first
  refine ⟨⟨d, hd, ?_⟩, h.ascii.append hrest⟩
  rw [List.head?_append, hfirst]
  rfl

theorem head?_groupThousands (digits : List Char) :
    (groupThousands digits).head? = digits.head? := by
  cases digits with
  | nil => rfl
  | cons digit rest =>
      unfold groupThousands
      split <;> rfl

theorem mem_groupThousands {c : Char} {digits : List Char} (h : c ∈ groupThousands digits) :
    c = ',' ∨ c ∈ digits := by
  induction digits with
  | nil => exact .inr h
  | cons digit rest ih =>
      unfold groupThousands at h
      rw [List.mem_cons]
      split at h
      · rcases List.mem_cons.mp h with rfl | h
        · exact .inr (.inl rfl)
        · rcases List.mem_cons.mp h with rfl | h
          · exact .inl rfl
          · exact (ih h).imp_right .inr
      · rcases List.mem_cons.mp h with rfl | h
        · exact .inr (.inl rfl)
        · exact (ih h).imp_right .inr

theorem IsNumeral.groupThousands {digits : List Char} (h : IsNumeral digits) :
    IsNumeral (groupThousands digits) := by
  refine ⟨(head?_groupThousands digits).symm ▸ h.first, ?_⟩
  intro c hc
  rcases mem_groupThousands hc with rfl | hdigit
  · decide
  · exact h.ascii c hdigit

/-! ## Places -/

theorem areDigits_whole (units places : Nat) :
    AreDigits 10 (PlacedDigits.of units places).whole :=
  fun c hc => areDigits_padZeros (places + 1) units c (List.mem_of_mem_take hc)

theorem areDigits_fraction (units places : Nat) :
    AreDigits 10 (PlacedDigits.of units places).fraction :=
  fun c hc => areDigits_padZeros (places + 1) units c (List.mem_of_mem_drop hc)

theorem whole_ne_nil (units places : Nat) : (PlacedDigits.of units places).whole ≠ [] := by
  have hlength : places + 1 ≤ (padZeros (places + 1) (digitsOf units)).length := by
    unfold padZeros
    rw [List.length_append, List.length_replicate]
    omega
  intro hnil
  have := congrArg List.length hnil
  simp only [PlacedDigits.of, List.length_take, List.length_nil] at this
  omega

theorem isNumeral_whole (units places : Nat) : IsNumeral (PlacedDigits.of units places).whole :=
  (areDigits_whole units places).isNumeral (by decide) (whole_ne_nil units places)

theorem isAscii_fraction (units places : Nat) :
    IsAscii (PlacedDigits.of units places).fraction :=
  (areDigits_fraction units places).isAscii (by decide)

theorem isNumeral_text {n : PlacedDigits} (hwhole : IsNumeral n.whole)
    (hfraction : IsAscii n.fraction) : IsNumeral n.text := by
  unfold PlacedDigits.text
  split
  · exact hwhole
  · exact hwhole.append (List.forall_mem_cons.mpr ⟨by decide, hfraction⟩)

theorem exists_mantissa_eq (num den places : Nat) :
    ∃ units, (scientificPlaces num den places).mantissa = .of units places := by
  unfold scientificPlaces
  split
  · exact ⟨0, rfl⟩
  · simp only []
    split
    · exact ⟨_, rfl⟩
    · exact ⟨_, rfl⟩

/-! ## Capitals -/

theorem IsAscii.map_toUpper {text : List Char} (h : IsAscii text) :
    IsAscii (text.map Char.toUpper) := by
  have hcapital : ∀ n < 128, (Char.ofNat n).toUpper.val ≤ 127 := by decide
  intro c hc
  obtain ⟨small, hsmall, rfl⟩ := List.mem_map.mp hc
  rw [← Char.ofNat_toNat small]
  exact hcapital small.toNat (Nat.lt_succ_of_le (h small hsmall))

theorem capitals_of_isAscii {text : List Char} (h : IsAscii text) :
    capitals text = text.map Char.toUpper := by
  induction text with
  | nil => rfl
  | cons c text ih =>
      obtain ⟨hc, htext⟩ := List.forall_mem_cons.mp h
      have hform : capitalForm c = [c.toUpper] := if_pos (Nat.lt_succ_of_le hc)
      rw [List.map_cons, ← ih htext]
      show capitalForm c ++ capitals text = _
      rw [hform]
      rfl

namespace Format

variable {spec : Spec}

theorem Spec.inCase_append (text rest : List Char) :
    spec.inCase (text ++ rest) = spec.inCase text ++ spec.inCase rest := by
  unfold Spec.inCase
  split
  · exact capitals_append text rest
  · rfl

theorem Spec.inCase_of_not_upper (h : spec.conversion.isUpper = false) (text : List Char) :
    spec.inCase text = text := by
  rw [Spec.inCase, h]
  rfl

theorem Spec.inCase_of_isAscii {text : List Char} (h : IsAscii text) :
    spec.inCase text = if spec.conversion.isUpper then text.map Char.toUpper else text := by
  unfold Spec.inCase
  rw [capitals_of_isAscii h]

theorem Spec.length_inCase {text : List Char} (h : IsAscii text) :
    (spec.inCase text).length = text.length := by
  rw [Spec.inCase_of_isAscii h]
  split
  · exact List.length_map _
  · rfl

theorem Spec.isAscii_inCase {text : List Char} (h : IsAscii text) : IsAscii (spec.inCase text) := by
  rw [Spec.inCase_of_isAscii h]
  split
  · exact h.map_toUpper
  · exact h

theorem Spec.inCase_zeros (count : Nat) :
    spec.inCase (List.replicate count '0') = List.replicate count '0' := by
  have hascii : IsAscii (List.replicate count '0') := by
    intro c hc
    rw [(List.mem_replicate.mp hc).2]
    decide
  rw [Spec.inCase_of_isAscii hascii, List.map_replicate]
  exact ite_self _

/-! ## Signs and marks -/

/-- What may stand in front of a number. -/
def signs : List (List Char) :=
  [[], ['-'], ['+'], [' ']]

/-- What the flag `#` puts in front of the digits. -/
def Spec.mark (spec : Spec) : List Char :=
  if spec.flags.alternate then
    match spec.conversion with
    | .hex upper => if upper then ['0', 'X'] else ['0', 'x']
    | .octal => ['0']
    | _ => []
  else []

/-- Integers and finite floating-point numbers, for the conversions that write them
in digits. -/
def Conversion.MakesNumeral : Conversion → Argument → Prop
  | .decimal, .integer _ | .hex _, .integer _ | .octal, .integer _ => True
  | .fixed, .float value | .scientific _, .float value =>
    value.isNaN = false ∧ value.isInfinite = false
  | _, _ => False

theorem Spec.sign_mem (spec : Spec) (negative : Bool) : spec.sign negative ∈ signs := by
  unfold Spec.sign
  split
  · decide
  · split
    · decide
    · split <;> decide

theorem eq_of_mem_signs {sign : List Char} (h : sign ∈ signs) :
    sign = [] ∨ sign = ['-'] ∨ sign = ['+'] ∨ sign = [' '] := by
  simpa [signs] using h

theorem ascii_of_mem_signs {sign : List Char} (h : sign ∈ signs) : IsAscii sign := by
  rcases eq_of_mem_signs h with rfl | rfl | rfl | rfl <;> decide

theorem not_isDigitOf_of_mem_signs {sign : List Char} (h : sign ∈ signs) :
    ∀ c ∈ sign, (!Toml.isDigitOf 16 c) = true := by
  rw [← List.all_eq_true]
  rcases eq_of_mem_signs h with rfl | rfl | rfl | rfl <;> decide

theorem Spec.isDigitOf_head_mark {c : Char} (h : spec.mark.head? = some c) :
    Toml.isDigitOf 16 c = true := by
  have hzero : spec.mark.head? = none ∨ spec.mark.head? = some '0' := by
    unfold Spec.mark
    split
    · split
      · split <;> exact .inr rfl
      · exact .inr rfl
      · exact .inl rfl
    · exact .inl rfl
  rcases hzero with hnone | hzero
  · rw [hnone] at h
    cases h
  · rw [hzero] at h
    cases h
    decide

theorem Spec.inCase_sign {sign : List Char} (h : sign ∈ signs) : spec.inCase sign = sign := by
  unfold Spec.inCase
  split
  · rcases eq_of_mem_signs h with rfl | rfl | rfl | rfl <;> decide
  · rfl

/-! ## Conversions -/

theorem Spec.isNumeral_grouped (spec : Spec) {digits : List Char} (h : IsNumeral digits) :
    IsNumeral (spec.grouped digits) := by
  unfold Spec.grouped
  split
  · exact h.groupThousands
  · exact h

theorem isAscii_exponentChars (exponent : Int) : IsAscii (exponentChars exponent) := by
  have hdigits := (areDigits_padZeros 2 exponent.natAbs).isAscii (by decide)
  unfold exponentChars
  refine List.forall_mem_cons.mpr ⟨by decide, List.forall_mem_cons.mpr ⟨?_, hdigits⟩⟩
  split <;> decide

theorem Spec.isNumeral_digitsOfFloat (spec : Spec) (value : Binary64) :
    IsNumeral (spec.digitsOfFloat value) := by
  unfold Spec.digitsOfFloat
  simp only []
  split
  · obtain ⟨units, hmantissa⟩ := exists_mantissa_eq value.magnitude.1 value.magnitude.2
      (placesFor spec.precision)
    rw [hmantissa]
    exact (isNumeral_text (isNumeral_whole ..) (isAscii_fraction _ _)).append
      (isAscii_exponentChars _)
  · exact isNumeral_text (spec.isNumeral_grouped (isNumeral_whole ..)) (isAscii_fraction _ _)

/-- The parts of a numeral are what they should be. -/
structure Spec.Parted (spec : Spec) (sign mark digits : List Char) : Prop where
  sign_mem : sign ∈ signs
  mark_eq : spec.inCase mark = spec.mark
  mark_ascii : IsAscii mark
  isNumeral : IsNumeral digits

theorem Spec.parted_decimal (hconversion : spec.conversion = .decimal) (value : Int64) :
    spec.Parted (spec.sign (decide (value.toInt < 0))) []
      (spec.grouped (digitsOf value.toInt.natAbs)) := by
  refine ⟨spec.sign_mem _, ?_, by decide,
    spec.isNumeral_grouped (isNumeral_toDigits (by decide) (by decide) _)⟩
  simp [Spec.inCase, Spec.mark, hconversion, Conversion.isUpper]

theorem Spec.parted_hex {upper : Bool} (hconversion : spec.conversion = .hex upper)
    (value : Int64) :
    spec.Parted [] (if spec.flags.alternate then ['0', 'x'] else [])
      (Nat.toDigits 16 value.toBitVec.toNat) := by
  refine ⟨by decide, ?_, by split <;> decide, isNumeral_toDigits (by decide) (by decide) _⟩
  unfold Spec.inCase Spec.mark
  rw [hconversion]
  cases upper <;> cases spec.flags.alternate <;> rfl

theorem Spec.parted_octal (hconversion : spec.conversion = .octal) (value : Int64) :
    spec.Parted [] (if spec.flags.alternate then ['0'] else [])
      (Nat.toDigits 8 value.toBitVec.toNat) := by
  refine ⟨by decide, ?_, by split <;> decide, isNumeral_toDigits (by decide) (by decide) _⟩
  unfold Spec.inCase Spec.mark
  rw [hconversion]
  cases spec.flags.alternate <;> rfl

theorem Spec.parted_float (hmark : spec.mark = []) (value : Binary64) :
    spec.Parted (spec.sign (value.isNegative && !value.isZero)) [] (spec.digitsOfFloat value) := by
  refine ⟨spec.sign_mem _, ?_, by decide, spec.isNumeral_digitsOfFloat value⟩
  rw [hmark]
  exact ite_self _

theorem Spec.exists_numeral {argument : Argument} {body : Body}
    (h : spec.conversion.MakesNumeral argument) (hbody : spec.body argument = .ok body) :
    ∃ sign mark digits, body = .numeral sign mark digits ∧ spec.Parted sign mark digits := by
  unfold Spec.body at hbody
  cases hconversion : spec.conversion with
  | decimal =>
      rw [hconversion] at h hbody
      cases argument with
      | integer value =>
          cases hbody
          exact ⟨_, _, _, rfl, Spec.parted_decimal hconversion value⟩
      | _ => cases h
  | hex upper =>
      rw [hconversion] at h hbody
      cases argument with
      | integer value =>
          cases hbody
          exact ⟨_, _, _, rfl, Spec.parted_hex hconversion value⟩
      | _ => cases h
  | octal =>
      rw [hconversion] at h hbody
      cases argument with
      | integer value =>
          cases hbody
          exact ⟨_, _, _, rfl, Spec.parted_octal hconversion value⟩
      | _ => cases h
  | fixed | scientific _ =>
      rw [hconversion] at h hbody
      cases argument with
      | float value =>
          have hmark : spec.mark = [] := by simp [Spec.mark, hconversion]
          simp only [Spec.floatBody_of_finite h.1 h.2, Spec.floatDigits] at hbody
          split at hbody
          · cases hbody
          · cases hbody
            exact ⟨_, _, _, rfl, Spec.parted_float hmark value⟩
      | _ => cases h
  | _ =>
      rw [hconversion] at h
      cases h

theorem Spec.exists_text {argument : Argument} {body : Body}
    (h : ¬spec.conversion.MakesNumeral argument) (hbody : spec.body argument = .ok body) :
    ∃ content, body = .text content := by
  unfold Spec.body at hbody
  split at hbody
  case h_1 | h_2 | h_3 | h_4 | h_5 | h_6 =>
    cases hbody
    exact ⟨_, rfl⟩
  case h_7 =>
    split at hbody
    · cases hbody
      exact ⟨_, rfl⟩
    · cases hbody
  case h_8 hconversion | h_9 hconversion | h_10 hconversion =>
    exact absurd (by rw [hconversion]; trivial) h
  case h_11 hconversion | h_12 hconversion =>
    rw [hconversion] at h
    obtain ⟨content, htext⟩ := spec.exists_floatBody_of_not_finite h
    rw [htext] at hbody
    cases hbody
    exact ⟨content, rfl⟩
  case h_13 => cases hbody

end Format

end MailMerge
