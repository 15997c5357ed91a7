import MailMerge.Proofs.Widening
import Mathlib.Algebra.Ring.Int.Defs
import Mathlib.Data.List.DropRight

/-!
# Integers read back

Flags and a width put much around the digits of an integer: spaces, a sign, a mark,
zeros, commas. None of it hides the integer. What is taken off again here is taken
off by rules that know nothing of the specifier, except whether there is a mark; and
what is left is read digit by digit. The integer comes out for every value of the 64
bits, the least one among them, whose absolute value is not one of them.

The digits themselves are the heart of it (`Spec.naturalOf?_inCase`): one more
digit at the end means one more step of reading, in every base, and capitals do not
change what a digit stands for.
-/

namespace MailMerge

/-! ## Reading -/

/-- The number that digits of a base stand for, be they capitals or not. -/
def naturalOf? (base : Nat) (text : List Char) : Option Nat :=
  if text ≠ [] ∧ text.all (Toml.isDigitOf base) = true then
    some (text.foldl (fun n c => base * n + Toml.digitValue c) 0)
  else none

/-- The integer that decimal digits stand for, with a minus sign in front or not. -/
def integerOf? (text : List Char) : Option Int :=
  if text.head? = some '-' then (naturalOf? 10 text.tail).map fun n => -(n : Int)
  else (naturalOf? 10 text).map fun n => (n : Int)

/-- A text without the spaces at its ends. -/
def trimSpaces (text : List Char) : List Char :=
  (text.dropWhile (· = ' ')).rdropWhile (· = ' ')

def dropPlus (text : List Char) : List Char :=
  if text.head? = some '+' then text.tail else text

/-- Drops the zeros in front, but not the last character. -/
def dropZeros : List Char → List Char
  | '0' :: c :: rest => dropZeros (c :: rest)
  | text => text

/-- A decimal integer without spaces around it, a plus sign, commas, and zeros in
front of its digits. -/
def plainDecimal (text : List Char) : List Char :=
  let bare := (dropPlus (trimSpaces text)).filter (· ≠ ',')
  if bare.head? = some '-' then '-' :: dropZeros bare.tail else dropZeros bare

/-! ## Digits -/

theorem digitValue_digitChar {d : Nat} (h : d < 16) :
    Toml.digitValue (Nat.digitChar d) = d ∧ Toml.digitValue (Nat.digitChar d).toUpper = d := by
  revert d
  decide

theorem isDigitOf_iff {base : Nat} (hbase : base ≤ 16) {c : Char} :
    Toml.isDigitOf base c = true ↔
      Toml.isDigitOf 16 c = true ∧ Toml.digitValue c < base := by
  simp only [Toml.isDigitOf, Bool.and_eq_true, decide_eq_true_eq]
  constructor
  · rintro ⟨hshape, hvalue⟩
    exact ⟨⟨hshape, by omega⟩, hvalue⟩
  · rintro ⟨⟨hshape, -⟩, hvalue⟩
    exact ⟨hshape, hvalue⟩

section

variable {base : Nat} {f : Char → Char}

theorem foldl_digitValue_toDigits (hlow : 1 < base)
    (hf : ∀ d < base, Toml.digitValue (f (Nat.digitChar d)) = d) (n : Nat) :
    ((Nat.toDigits base n).map f).foldl (fun n c => base * n + Toml.digitValue c) 0 = n := by
  induction n using Nat.strongRecOn with
  | ind n ih =>
      by_cases hlt : n < base
      · rw [Nat.toDigits_of_lt_base hlt]
        simp [hf n hlt]
      · have hdiv := Nat.div_add_mod n base
        rw [Nat.toDigits_of_base_le hlow (by omega), List.map_append, List.foldl_append,
          ih (n / base) (Nat.div_lt_self (by omega) hlow)]
        simp [hf (n % base) (Nat.mod_lt n (by omega)), hdiv]

theorem naturalOf?_map_toDigits (hlow : 1 < base) (hhigh : base ≤ 16)
    (hf : ∀ d < base, Toml.isDigitOf 16 (f (Nat.digitChar d)) = true ∧
      Toml.digitValue (f (Nat.digitChar d)) = d) (n : Nat) :
    naturalOf? base ((Nat.toDigits base n).map f) = some n := by
  unfold naturalOf?
  rw [foldl_digitValue_toDigits hlow (fun d hd => (hf d hd).2), if_pos]
  refine ⟨by simp [Nat.toDigits_ne_nil], List.all_eq_true.mpr ?_⟩
  intro c hc
  obtain ⟨small, hsmall, rfl⟩ := List.mem_map.mp hc
  obtain ⟨d, hd, rfl⟩ := exists_of_mem_toDigits hlow hsmall
  obtain ⟨hdigit, hvalue⟩ := hf d hd
  exact (isDigitOf_iff hhigh).mpr ⟨hdigit, by omega⟩

theorem naturalOf?_toDigits (hlow : 1 < base) (hhigh : base ≤ 16) (n : Nat) :
    naturalOf? base (Nat.toDigits base n) = some n := by
  have hmap := naturalOf?_map_toDigits (f := id) hlow hhigh (fun d hd =>
    ⟨(isDigitOf_digitChar (by omega)).1, (digitValue_digitChar (by omega)).1⟩) n
  rwa [List.map_id] at hmap

end

theorem naturalOf?_zero_cons {base : Nat} (hbase : 0 < base) {text : List Char} {n : Nat}
    (h : naturalOf? base text = some n) : naturalOf? base ('0' :: text) = some n := by
  have hzero : Toml.isDigitOf base '0' = true := decide_eq_true hbase
  unfold naturalOf? at h ⊢
  split at h
  · next hdigits =>
      rw [if_pos ⟨List.cons_ne_nil _ _, by rw [List.all_cons, hzero, hdigits.2]; rfl⟩]
      exact h
  · cases h

theorem naturalOf?_zeros {base : Nat} (hbase : 0 < base) (count : Nat) {text : List Char}
    {n : Nat} (h : naturalOf? base text = some n) :
    naturalOf? base (List.replicate count '0' ++ text) = some n := by
  induction count with
  | zero => exact h
  | succ count ih => exact naturalOf?_zero_cons hbase ih

theorem not_mem_of_naturalOf? {base : Nat} {text : List Char} {n : Nat}
    (h : naturalOf? base text = some n) : text ≠ [] ∧ ' ' ∉ text := by
  unfold naturalOf? at h
  split at h
  · next hdigits =>
      refine ⟨hdigits.1, fun hmem => ?_⟩
      have hspace := List.all_eq_true.mp hdigits.2 ' ' hmem
      cases hspace
  · cases h

theorem dropZeros_of_head? {text : List Char} (h : text.head? ≠ some '0') :
    dropZeros text = text := by
  unfold dropZeros
  split
  · exact absurd rfl h
  · rfl

theorem dropZeros_zeros (count n : Nat) :
    dropZeros (List.replicate count '0' ++ digitsOf n) = digitsOf n := by
  induction count with
  | zero =>
      rcases Nat.eq_zero_or_pos n with rfl | hpos
      · rfl
      · exact dropZeros_of_head? (head?_digitsOf hpos)
  | succ count ih =>
      have hne : List.replicate count '0' ++ digitsOf n ≠ [] :=
        List.append_ne_nil_of_right_ne_nil _ (digitsOf_ne_nil n)
      obtain ⟨c, rest, hrest⟩ := List.exists_cons_of_ne_nil hne
      rw [List.replicate_succ, List.cons_append, hrest, dropZeros, ← hrest, ih]

/-! ## What stands around the digits -/

theorem trimSpaces_spaces {text : List Char} (hne : text ≠ []) (hspace : ' ' ∉ text)
    (left right : Nat) :
    trimSpaces (List.replicate left ' ' ++ text ++ List.replicate right ' ') = text := by
  have hspaces : ∀ count, ∀ c ∈ List.replicate count ' ', decide (c = ' ') = true := by
    intro count c hc
    exact decide_eq_true (List.mem_replicate.mp hc).2
  have htext : ∀ c ∈ text, decide (c = ' ') = false := by
    rintro c hc
    exact decide_eq_false fun heq => hspace (heq ▸ hc)
  have hfront : ∀ c ∈ (text ++ List.replicate right ' ').head?, decide (c = ' ') = false := by
    intro c hc
    rw [List.head?_append_of_ne_nil _ hne] at hc
    exact htext c (List.mem_of_mem_head? hc)
  have hback : ∀ c ∈ text.reverse.head?, decide (c = ' ') = false := by
    intro c hc
    exact htext c (List.mem_reverse.mp (List.mem_of_mem_head? hc))
  unfold trimSpaces List.rdropWhile
  rw [List.append_assoc, dropWhile_append_of_head? (hspaces left) hfront, List.reverse_append,
    List.reverse_replicate, dropWhile_append_of_head? (hspaces right) hback, List.reverse_reverse]

section

variable {text : List Char}

theorem head?_ne_of_not_mem {c : Char} (h : c ∉ text) : text.head? ≠ some c :=
  fun hhead => h (List.mem_of_mem_head? hhead)

/-- Spaces and a plus sign are gone, a minus sign stays. -/
theorem plainDecimal_spaces (hne : text ≠ []) (hspace : ' ' ∉ text) (hplus : '+' ∉ text)
    (hminus : '-' ∉ text) {sign : List Char} (hsign : sign ∈ Format.signs) (left right : Nat) :
    plainDecimal (List.replicate left ' ' ++ (sign ++ text) ++ List.replicate right ' ')
      = (if sign = ['-'] then ['-'] else []) ++ dropZeros (text.filter (· ≠ ',')) := by
  have hbare : (text.filter (· ≠ ',')).head? ≠ some '-' :=
    head?_ne_of_not_mem fun hmem => hminus (List.mem_of_mem_filter hmem)
  have hunsigned : ∀ left, plainDecimal
      (List.replicate left ' ' ++ text ++ List.replicate right ' ')
        = dropZeros (text.filter (· ≠ ',')) := by
    intro left
    rw [plainDecimal, trimSpaces_spaces hne hspace, dropPlus,
      if_neg (head?_ne_of_not_mem hplus), if_neg hbare]
  have hsigned : ∀ c, c ≠ ' ' →
      trimSpaces (List.replicate left ' ' ++ (c :: text) ++ List.replicate right ' ')
        = c :: text := by
    intro c hc
    apply trimSpaces_spaces (List.cons_ne_nil _ _)
    simpa [hspace] using hc.symm
  simp only [Format.signs, List.mem_cons, List.not_mem_nil, or_false] at hsign
  rcases hsign with rfl | rfl | rfl | rfl
  · exact hunsigned left
  · rw [plainDecimal, List.singleton_append, hsigned '-' (by decide)]
    rfl
  · rw [plainDecimal, List.singleton_append, hsigned '+' (by decide)]
    exact if_neg hbare
  · -- The space is one more of those in front.
    have hleft : List.replicate left ' ' ++ ([' '] ++ text)
        = List.replicate (left + 1) ' ' ++ text := by
      rw [← List.append_assoc, List.replicate_succ']
    rw [hleft, hunsigned]
    rfl

end

theorem integerOf?_digitsOf (n : Nat) :
    integerOf? (digitsOf n) = some (n : Int) ∧ integerOf? ('-' :: digitsOf n) = some (-n : Int) := by
  have hread : naturalOf? 10 (digitsOf n) = some n :=
    naturalOf?_toDigits (by decide) (by decide) n
  have hminus : (digitsOf n).head? ≠ some '-' := by
    apply head?_ne_of_not_mem
    intro hmem
    exact absurd (isDigit_of_mem_digitsOf hmem) (by decide)
  constructor
  · rw [integerOf?, if_neg hminus, hread]
    rfl
  · rw [integerOf?, List.head?_cons, if_pos rfl, List.tail_cons, hread]
    rfl

namespace Format

variable {spec : Spec}

/-! ## What specifiers write -/

theorem Spec.exists_pad (spec : Spec) (text : List Char) :
    ∃ left right, spec.pad text
      = List.replicate left ' ' ++ text ++ List.replicate right ' ' := by
  cases hwidth : spec.width with
  | none => exact ⟨0, 0, by simp [Spec.pad, hwidth]⟩
  | some width =>
      cases hleft : spec.flags.leftAlign with
      | true => exact ⟨0, _, Spec.pad_of_leftAlign hwidth hleft text⟩
      | false =>
          refine ⟨width - text.length, 0, ?_⟩
          rw [Spec.pad_of_rightAlign hwidth hleft, List.replicate_zero, List.append_nil]

theorem Spec.exists_zeros (spec : Spec) (length : Nat) :
    ∃ count, spec.zeros length = List.replicate count '0' := by
  unfold Spec.zeros
  split
  · split
    · exact ⟨_, rfl⟩
    · exact ⟨0, rfl⟩
  · exact ⟨0, rfl⟩

/-- A numeral is written with zeros in front of its digits and spaces around it. -/
theorem Spec.exists_apply_of_parted (hline : spec.conversion ≠ .newline) {argument : Argument}
    {sign mark digits : List Char}
    (hbody : spec.body argument = .ok (.numeral sign mark digits))
    (h : spec.Parted sign mark digits) :
    ∃ left zeros right, spec.apply (some argument) = .ok (List.replicate left ' '
      ++ (sign ++ spec.mark ++ List.replicate zeros '0' ++ spec.inCase digits)
      ++ List.replicate right ' ') := by
  obtain ⟨zeros, hzeros⟩ := spec.exists_zeros (sign.length + mark.length + digits.length)
  obtain ⟨left, right, hpad⟩ := spec.exists_pad
    (sign ++ spec.mark ++ List.replicate zeros '0' ++ spec.inCase digits)
  refine ⟨left, zeros, right, ?_⟩
  rw [spec.apply_eq_ok hline (some argument) hbody, Spec.bodyText_numeral, hzeros, h.inCase_eq,
    hpad]

theorem Spec.sign_eq_minus_iff (spec : Spec) (negative : Bool) :
    spec.sign negative = ['-'] ↔ negative = true := by
  unfold Spec.sign
  cases negative with
  | true => simp
  | false => cases spec.flags.plus <;> cases spec.flags.space <;> simp

theorem Spec.mem_grouped {c : Char} {digits : List Char} (h : c ∈ spec.grouped digits) :
    c = ',' ∨ c ∈ digits := by
  unfold Spec.grouped at h
  split at h
  · exact mem_groupThousands h
  · exact .inr h

theorem Spec.filter_grouped {digits : List Char} (h : ',' ∉ digits) :
    (spec.grouped digits).filter (· ≠ ',') = digits := by
  unfold Spec.grouped
  split
  · exact filter_groupThousands digits h
  · rw [List.filter_eq_self]
    rintro c hc
    exact decide_eq_true fun heq => h (heq ▸ hc)

theorem plainDecimal_numeral (spec : Spec) (negative : Bool) (n left zeros right : Nat) :
    plainDecimal (List.replicate left ' '
        ++ (spec.sign negative ++ (List.replicate zeros '0' ++ spec.grouped (digitsOf n)))
        ++ List.replicate right ' ')
      = (if negative then ['-'] else []) ++ digitsOf n := by
  have hdigits : ∀ c ∈ List.replicate zeros '0' ++ spec.grouped (digitsOf n),
      c = ',' ∨ c.isDigit = true := by
    intro c hc
    rcases List.mem_append.mp hc with hzero | hdigit
    · rw [(List.mem_replicate.mp hzero).2]
      exact .inr rfl
    · exact (Spec.mem_grouped hdigit).imp_right isDigit_of_mem_digitsOf
  have hnot : ∀ c, c ≠ ',' → c.isDigit = false →
      c ∉ List.replicate zeros '0' ++ spec.grouped (digitsOf n) := by
    intro c hcomma hdigit hmem
    rcases hdigits c hmem with heq | htrue
    · exact hcomma heq
    · rw [hdigit] at htrue
      cases htrue
  have hne : List.replicate zeros '0' ++ spec.grouped (digitsOf n) ≠ [] := by
    have hdigitsOf : IsNumeral (digitsOf n) := isNumeral_toDigits (by decide) (by decide) n
    obtain ⟨d, -, hfirst⟩ := (spec.isNumeral_grouped hdigitsOf).first
    intro hnil
    rw [(List.append_eq_nil_iff.mp hnil).2] at hfirst
    cases hfirst
  have hcomma : ',' ∉ digitsOf n := by
    intro hmem
    exact absurd (isDigit_of_mem_digitsOf hmem) (by decide)
  have hzeros : (List.replicate zeros '0').filter (· ≠ ',') = List.replicate zeros '0' :=
    List.filter_replicate_of_pos (by decide)
  rw [plainDecimal_spaces hne (hnot ' ' (by decide) rfl) (hnot '+' (by decide) rfl)
      (hnot '-' (by decide) rfl) (spec.sign_mem negative),
    List.filter_append, hzeros, Spec.filter_grouped hcomma, dropZeros_zeros]
  simp only [Spec.sign_eq_minus_iff]

theorem Spec.space_not_mem_mark (spec : Spec) : ' ' ∉ spec.mark := by
  unfold Spec.mark
  split
  · split
    · split <;> decide
    · decide
    · decide
  · decide

/-- The base of the digits that the 64 bits of an integer are written in. -/
def Conversion.base? : Conversion → Option Nat
  | .hex _ => some 16
  | .octal => some 8
  | _ => none

theorem Spec.exists_patternBody {base : Nat} (h : spec.conversion.base? = some base)
    (value : Int64) :
    (1 < base ∧ base ≤ 16) ∧ ∃ mark,
      spec.body (.integer value)
        = .ok (.numeral [] mark (Nat.toDigits base value.toBitVec.toNat)) ∧
      spec.Parted [] mark (Nat.toDigits base value.toBitVec.toNat) := by
  unfold Spec.body
  cases hconversion : spec.conversion with
  | hex upper =>
      rw [hconversion] at h
      cases h
      exact ⟨by decide, _, rfl, Spec.parted_hex hconversion value⟩
  | octal =>
      rw [hconversion] at h
      cases h
      exact ⟨by decide, _, rfl, Spec.parted_octal hconversion value⟩
  | _ =>
      rw [hconversion] at h
      cases h

theorem Spec.naturalOf?_inCase (spec : Spec) {base : Nat} (hlow : 1 < base)
    (hhigh : base ≤ 16) (n : Nat) :
    naturalOf? base (spec.inCase (Nat.toDigits base n)) = some n := by
  rw [Spec.inCase_of_isAscii ((areDigits_toDigits hlow n).isAscii hhigh)]
  split
  · exact naturalOf?_map_toDigits hlow hhigh (fun d hd =>
      ⟨(isDigitOf_digitChar (by omega)).2, (digitValue_digitChar (by omega)).2⟩) n
  · exact naturalOf?_toDigits hlow hhigh n

/-- Two's complement: a negative integer stands for what it takes to the next
multiple of two to the 64. -/
theorem toNat_toBitVec_eq (value : Int64) :
    value.toBitVec.toNat = (value.toInt % 2 ^ 64).toNat := by
  have hlt := value.toBitVec.isLt
  have hint : value.toInt = value.toBitVec.toInt := rfl
  rw [hint, BitVec.toInt_eq_toNat_cond]
  split <;> omega

/-- Written in decimal digits, an integer is read back from the text when spaces, a plus
sign, commas and zeros in front are taken off; written in digits of its 64 bits, the
number that these are is read back behind spaces and the mark. -/
theorem integers_read_back (spec : Spec) (value : Int64) :
    (spec.conversion = .decimal →
      ∃ text, spec.apply (some (.integer value)) = .ok text ∧
        integerOf? (plainDecimal text) = some value.toInt) ∧
    ∀ base, spec.conversion.base? = some base →
      ∃ text digits, spec.apply (some (.integer value)) = .ok text ∧
        trimSpaces text = spec.mark ++ digits ∧
        naturalOf? base digits = some (value.toInt % 2 ^ 64).toNat := by
  constructor
  · intro hconversion
    have hmark : spec.mark = [] := by simp [Spec.mark, hconversion]
    have hcase : ∀ text, spec.inCase text = text := by
      intro text
      simp [Spec.inCase, hconversion, Conversion.isUpper]
    have hbody : spec.body (.integer value) = .ok (spec.decimalBody value) := by
      unfold Spec.body
      rw [hconversion]
    have hline : spec.conversion ≠ .newline := by
      rw [hconversion]
      decide
    obtain ⟨left, zeros, right, happly⟩ :=
      Spec.exists_apply_of_parted hline hbody (Spec.parted_decimal hconversion value)
    refine ⟨_, happly, ?_⟩
    rw [hmark, List.append_nil, hcase, List.append_assoc (spec.sign _), plainDecimal_numeral]
    obtain ⟨hplain, hminus⟩ := integerOf?_digitsOf value.toInt.natAbs
    by_cases hnegative : value.toInt < 0
    · rw [decide_eq_true hnegative]
      refine hminus.trans (congrArg some ?_)
      omega
    · rw [decide_eq_false hnegative]
      refine hplain.trans (congrArg some ?_)
      omega
  · intro base hbase
    obtain ⟨⟨hlow, hhigh⟩, mark, hbody, hparted⟩ := Spec.exists_patternBody hbase value
    have hline : spec.conversion ≠ .newline := by
      intro hconversion
      rw [hconversion] at hbase
      cases hbase
    obtain ⟨left, zeros, right, happly⟩ := Spec.exists_apply_of_parted hline hbody hparted
    have hread := naturalOf?_zeros (by omega) zeros
      (spec.naturalOf?_inCase hlow hhigh value.toBitVec.toNat)
    obtain ⟨hne, hspace⟩ := not_mem_of_naturalOf? hread
    rw [toNat_toBitVec_eq value] at hread hne hspace happly
    refine ⟨_, _, happly, ?_, hread⟩
    rw [List.nil_append, List.append_assoc spec.mark]
    refine trimSpaces_spaces (List.append_ne_nil_of_right_ne_nil _ hne) ?_ left right
    exact List.not_mem_append spec.space_not_mem_mark hspace

/-- The least integer, which has no absolute value among the others, and a negative one in
digits of its bits. -/
theorem integers_read_back_least :
    let grouped : Spec := ⟨.next, ⟨false, false, true, false, true, true⟩, some 30, none, .decimal⟩
    let marked : Spec := ⟨.next, ⟨true, true, false, false, false, false⟩, some 22, none, .hex true⟩
    grouped.conversion = .decimal ∧ marked.conversion.base? = some 16 ∧
      (∃ text, grouped.apply (some (.integer Int64.minValue)) = .ok text ∧
        integerOf? (plainDecimal text) = some (-9223372036854775808)) ∧
      ∃ text digits, marked.apply (some (.integer (-2))) = .ok text ∧
        trimSpaces text = "0X".toList ++ digits ∧
        naturalOf? 16 digits = some 18446744073709551614 := by
  intro grouped marked
  exact ⟨rfl, rfl, (integers_read_back grouped Int64.minValue).1 rfl,
    (integers_read_back marked (-2)).2 16 rfl⟩

end Format

end MailMerge
