import MailMerge.Number.Digits
import Mathlib.Algebra.Ring.Nat
import Mathlib.Data.List.DropRight
import Mathlib.Order.Monotone.Basic

/-!
# The order of texts

Texts are compared character by character, and a text that is used up comes
first. What is said here about that order is what it takes to see numbers in it.
Texts put together are compared part by part, as long as the parts in front are
of one length (`compare_append`), or end where it makes no difference
(`compare_append_of_ends`). Of two numbers with so many digits the greater one is
the greater text (`compare_padZeros`). And digits of a fraction are still in
order when the zeros at their ends are gone (`compare_rdropWhile_zeros`), because
no digit is below zero.

Counting in steps of different widths gives an order of the same kind, first by
the step and then within it (`compare_steps`). Digits are one case of it.
-/

namespace MailMerge

/-- What is compared second counts only after a tie. -/
theorem then_congr {o a b : Ordering} (h : o = .eq → a = b) : o.then a = o.then b := by
  cases o with
  | eq => exact congrArg (Ordering.eq.then ·) (h rfl)
  | lt => rfl
  | gt => rfl

/-- Two comparisons of whatever elements have one answer if they agree on what is
less, either way. -/
theorem compare_congr {α β : Type} [Ord α] [LT α] [LE α] [Std.LawfulOrderOrd α]
    [Std.LawfulOrderLT α] [Ord β] [LT β] [LE β] [Std.LawfulOrderOrd β] [Std.LawfulOrderLT β]
    {a b : α} {c d : β} (hlt : a < b ↔ c < d) (hgt : b < a ↔ d < c) :
    compare a b = compare c d := by
  cases hright : compare c d with
  | lt => exact Std.compare_eq_lt.mpr (hlt.mpr (Std.compare_eq_lt.mp hright))
  | gt => exact Std.compare_eq_gt.mpr (hgt.mpr (Std.compare_eq_gt.mp hright))
  | eq =>
      cases hleft : compare a b with
      | eq => rfl
      | lt =>
          rw [Std.compare_eq_lt.mpr (hlt.mp (Std.compare_eq_lt.mp hleft))] at hright
          cases hright
      | gt =>
          rw [Std.compare_eq_gt.mpr (hgt.mp (Std.compare_eq_gt.mp hleft))] at hright
          cases hright

/-! ## Texts put together -/

section

variable {α : Type} [Ord α]

theorem compare_append {f g : List α} (h : f.length = g.length) (s t : List α) :
    compare (f ++ s) (g ++ t) = (compare f g).then (compare s t) := by
  induction f generalizing g with
  | nil =>
      cases g with
      | nil => rfl
      | cons y g => cases h
  | cons x f ih =>
      cases g with
      | nil => cases h
      | cons y g =>
          rw [List.cons_append, List.cons_append, List.compare_cons_cons,
            ih (Nat.succ.inj h), List.compare_cons_cons, Ordering.then_assoc]

/-- Parts in front may differ in length if what follows the shorter one is less
than the rest of the longer one. -/
theorem compare_append_of_ends [Std.LawfulEqOrd α] {f g s t : List α}
    (hleft : ∀ c r, g = f ++ c :: r → compare s (c :: r ++ t) = .lt)
    (hright : ∀ c r, f = g ++ c :: r → compare (c :: r ++ s) t = .gt) :
    compare (f ++ s) (g ++ t) = (compare f g).then (compare s t) := by
  induction f generalizing g with
  | nil =>
      cases g with
      | nil => rfl
      | cons y g => rw [List.compare_nil_cons]; exact hleft y g rfl
  | cons x f ih =>
      cases g with
      | nil => rw [List.compare_cons_nil]; exact hright x f rfl
      | cons y g =>
          rw [List.cons_append, List.cons_append, List.compare_cons_cons,
            List.compare_cons_cons, Ordering.then_assoc]
          -- As long as the characters tie, both parts in front go on.
          refine then_congr fun hxy => ?_
          obtain rfl := Std.LawfulEqOrd.eq_of_compare hxy
          apply ih
          · rintro c r rfl; exact hleft c r rfl
          · rintro c r rfl; exact hright c r rfl

end

/-! ## Counting in steps -/

theorem add_lt_of_lt_step {f width : Nat → Nat} (hf : ∀ n, f (n + 1) = f n + width n)
    {m n r : Nat} (hr : r < width m) (h : m < n) : f m + r < f n := by
  have hmono : Monotone f := monotone_nat_of_le_succ fun k => by rw [hf]; omega
  have hnext : f (m + 1) ≤ f n := hmono h
  rw [hf] at hnext
  omega

/-- Numbers counted in steps are ordered by the step, and in one step by what
goes beyond its start. -/
theorem compare_steps {f width : Nat → Nat} (hf : ∀ n, f (n + 1) = f n + width n)
    {m n r s : Nat} (hr : r < width m) (hs : s < width n) :
    compare (f m + r) (f n + s) = (compare m n).then (compare r s) := by
  rcases Nat.lt_trichotomy m n with hlt | rfl | hgt
  · have hstep := add_lt_of_lt_step hf hr hlt
    rw [Nat.compare_eq_lt.mpr hlt, Nat.compare_eq_lt.mpr (by omega)]
    rfl
  · rw [Std.ReflOrd.compare_self, Ordering.eq_then]
    exact compare_congr (by omega) (by omega)
  · have hstep := add_lt_of_lt_step hf hs hgt
    rw [Nat.compare_eq_gt.mpr hgt, Nat.compare_eq_gt.mpr (by omega)]
    rfl

theorem compare_units {unit m n r s : Nat} (hr : r < unit) (hs : s < unit) :
    compare (m * unit + r) (n * unit + s) = (compare m n).then (compare r s) :=
  compare_steps (f := fun n => n * unit) (fun n => Nat.succ_mul n unit) hr hs

/-! ## Numbers in digits -/

theorem compare_char (c d : Char) : compare c d = compare c.toNat d.toNat := by
  show compareOfLessAndEq c d = compareOfLessAndEq c.toNat d.toNat
  unfold compareOfLessAndEq
  have hlt : c < d ↔ c.toNat < d.toNat := Iff.rfl
  simp only [hlt, ← Char.toNat_inj]

def digitValue (c : Char) : Nat :=
  c.toNat - '0'.toNat

theorem digit_bounds {c : Char} (h : c.isDigit = true) :
    '0'.toNat ≤ c.toNat ∧ c.toNat ≤ '9'.toNat := by
  simp only [Char.isDigit, ge_iff_le, Bool.and_eq_true, decide_eq_true_eq] at h
  exact h

theorem digitValue_lt {c : Char} (h : c.isDigit = true) : digitValue c < 10 := by
  have hbounds : _ ∧ c.toNat ≤ 57 := digit_bounds h
  have hzero : '0'.toNat = 48 := rfl
  unfold digitValue
  omega

theorem compare_digitValue {c d : Char} (hc : c.isDigit = true) (hd : d.isDigit = true) :
    compare (digitValue c) (digitValue d) = compare c d := by
  have hc := (digit_bounds hc).1
  have hd := (digit_bounds hd).1
  rw [compare_char]
  unfold digitValue
  exact compare_congr (by omega) (by omega)

theorem valueOfDigits_cons (c : Char) (digits : List Char) :
    valueOfDigits (c :: digits)
      = digitValue c * 10 ^ digits.length + valueOfDigits digits := by
  unfold valueOfDigits digitValue
  rw [Nat.ofDigitChars_cons, Nat.mul_zero, Nat.zero_add, Nat.ofDigitChars_eq_ofDigitChars_zero,
    Nat.mul_comm]

theorem valueOfDigits_lt {digits : List Char} (h : ∀ c ∈ digits, c.isDigit = true) :
    valueOfDigits digits < 10 ^ digits.length := by
  induction digits with
  | nil => exact Nat.one_pos
  | cons c digits ih =>
      have hrest := ih fun d hd => h d (List.mem_cons_of_mem c hd)
      have hdigit := digitValue_lt (h c (List.mem_cons_self ..))
      have htop : (digitValue c + 1) * 10 ^ digits.length ≤ 10 * 10 ^ digits.length :=
        Nat.mul_le_mul_right _ hdigit
      rw [valueOfDigits_cons, List.length_cons, Nat.pow_succ]
      rw [Nat.add_mul, Nat.one_mul] at htop
      omega

/-- Of two numbers with equally many digits the greater one has the greater text. -/
theorem compare_valueOfDigits {x y : List Char} (hlength : x.length = y.length)
    (hx : ∀ c ∈ x, c.isDigit = true) (hy : ∀ c ∈ y, c.isDigit = true) :
    compare (valueOfDigits x) (valueOfDigits y) = compare x y := by
  induction x generalizing y with
  | nil =>
      cases y with
      | nil => rfl
      | cons d y => cases hlength
  | cons c x ih =>
      cases y with
      | nil => cases hlength
      | cons d y =>
          have hlength' : x.length = y.length := Nat.succ.inj hlength
          have hx' : ∀ e ∈ x, e.isDigit = true := fun e he => hx e (List.mem_cons_of_mem c he)
          have hy' : ∀ e ∈ y, e.isDigit = true := fun e he => hy e (List.mem_cons_of_mem d he)
          rw [valueOfDigits_cons, valueOfDigits_cons, hlength',
            compare_units (hlength' ▸ valueOfDigits_lt hx') (valueOfDigits_lt hy'),
            ih hlength' hx' hy',
            compare_digitValue (hx c (List.mem_cons_self ..)) (hy d (List.mem_cons_self ..)),
            List.compare_cons_cons]

theorem length_padZeros {count n : Nat} (hcount : 0 < count) (hn : n < 10 ^ count) :
    (padZeros count (digitsOf n)).length = count := by
  have hlength : (digitsOf n).length ≤ count :=
    (Nat.length_toDigits_le_iff (by decide) hcount).mpr hn
  unfold padZeros
  rw [List.length_append, List.length_replicate]
  omega

theorem isDigit_of_mem_padZeros {count n : Nat} {c : Char}
    (h : c ∈ padZeros count (digitsOf n)) : c.isDigit = true := by
  rcases List.mem_append.mp h with h | h
  · rw [(List.mem_replicate.mp h).2]
    rfl
  · exact isDigit_of_mem_digitsOf h

theorem compare_padZeros {count m n : Nat} (hcount : 0 < count) (hm : m < 10 ^ count)
    (hn : n < 10 ^ count) :
    compare (padZeros count (digitsOf m)) (padZeros count (digitsOf n)) = compare m n := by
  rw [← compare_valueOfDigits
      ((length_padZeros hcount hm).trans (length_padZeros hcount hn).symm)
      (fun _ => isDigit_of_mem_padZeros) (fun _ => isDigit_of_mem_padZeros),
    valueOfDigits_padZeros, valueOfDigits_padZeros, valueOfDigits_digitsOf,
    valueOfDigits_digitsOf]

/-! ## Zeros at the end -/

theorem rdropWhile_cons {α : Type} (p : α → Bool) (x : α) (l : List α) :
    (x :: l).rdropWhile p
      = if l.rdropWhile p = [] ∧ p x = true then [] else x :: l.rdropWhile p := by
  unfold List.rdropWhile
  rw [List.reverse_cons, List.dropWhile_append]
  cases hdrop : l.reverse.dropWhile p with
  | nil =>
      cases hx : p x with
      | true => simp [hx]
      | false => simp [hx]
  | cons y rest => simp

theorem compare_zero_of_isDigit {c : Char} (h : c.isDigit = true) (hne : c ≠ '0') :
    compare '0' c = .lt := by
  have hbound := (digit_bounds h).1
  have hne' : c.toNat ≠ '0'.toNat := fun heq => hne (Char.toNat_inj.mp heq)
  rw [compare_char]
  exact Nat.compare_eq_lt.mpr (by omega)

/-- What begins with a digit above zero, or goes on, is above a lone zero. -/
theorem compare_zero_then {d : Char} {rest : List Char} (hd : d.isDigit = true)
    (h : ¬(rest = [] ∧ d = '0')) : (compare '0' d).then (compare [] rest) = .lt := by
  by_cases hzero : d = '0'
  · subst hzero
    cases rest with
    | nil => exact absurd ⟨rfl, rfl⟩ h
    | cons e rest => rw [Std.ReflOrd.compare_self, Ordering.eq_then, List.compare_nil_cons]
  · rw [compare_zero_of_isDigit hd hzero]
    rfl

/-- A digit in front keeps the order; as a lone zero it may be left out. -/
theorem compare_ite_zero {c d : Char} {x y : List Char} (hc : c.isDigit = true)
    (hd : d.isDigit = true) :
    compare (if x = [] ∧ c = '0' then [] else c :: x) (if y = [] ∧ d = '0' then [] else d :: y)
      = (compare c d).then (compare x y) := by
  by_cases hleft : x = [] ∧ c = '0'
  · rw [if_pos hleft]
    obtain ⟨rfl, rfl⟩ := hleft
    by_cases hright : y = [] ∧ d = '0'
    · rw [if_pos hright]
      obtain ⟨rfl, rfl⟩ := hright
      rfl
    · rw [if_neg hright, List.compare_nil_cons, compare_zero_then hd hright]
  · rw [if_neg hleft]
    by_cases hright : y = [] ∧ d = '0'
    · rw [if_pos hright]
      obtain ⟨rfl, rfl⟩ := hright
      rw [List.compare_cons_nil, Std.OrientedOrd.eq_swap (a := c),
        Std.OrientedOrd.eq_swap (a := x), ← Ordering.swap_then, compare_zero_then hc hleft]
      rfl
    · rw [if_neg hright, List.compare_cons_cons]

/-- Digits are in order without the zeros at their ends as they are with them. -/
theorem compare_rdropWhile_zeros {x y : List Char} (hlength : x.length = y.length)
    (hx : ∀ c ∈ x, c.isDigit = true) (hy : ∀ c ∈ y, c.isDigit = true) :
    compare (x.rdropWhile (· = '0')) (y.rdropWhile (· = '0')) = compare x y := by
  induction x generalizing y with
  | nil =>
      cases y with
      | nil => rfl
      | cons d y => cases hlength
  | cons c x ih =>
      cases y with
      | nil => cases hlength
      | cons d y =>
          have hrest := ih (Nat.succ.inj hlength)
            (fun e he => hx e (List.mem_cons_of_mem c he))
            fun e he => hy e (List.mem_cons_of_mem d he)
          rw [rdropWhile_cons, rdropWhile_cons, List.compare_cons_cons, ← hrest]
          simp only [decide_eq_true_eq]
          exact compare_ite_zero (hx c (List.mem_cons_self ..)) (hy d (List.mem_cons_self ..))

end MailMerge
