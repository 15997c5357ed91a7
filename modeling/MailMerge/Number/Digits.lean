/-!
# Decimal digits

Numbers as digit strings: reading them, counting them, and setting them in
groups of three.
-/

namespace MailMerge

/-- The decimal digits of a number, most significant first. -/
def digitsOf (n : Nat) : List Char :=
  Nat.toDigits 10 n

/-- The number that a string of decimal digits stands for. -/
def valueOfDigits (digits : List Char) : Nat :=
  Nat.ofDigitChars 10 digits 0

/-- The number of decimal digits of a number; zero has none. -/
def digitCount (n : Nat) : Nat :=
  if n = 0 then 0 else (digitsOf n).length

/-- Digits with a comma after every one that has a positive multiple of three
digits to its right. -/
def groupThousands : List Char → List Char
  | [] => []
  | digit :: rest =>
    if rest ≠ [] ∧ rest.length % 3 = 0 then digit :: ',' :: groupThousands rest
    else digit :: groupThousands rest

/-- Digits filled up with zeros in front until there are `count` of them. -/
def padZeros (count : Nat) (digits : List Char) : List Char :=
  List.replicate (count - digits.length) '0' ++ digits

/-- The largest power of ten that is at most a positive quotient. Below one it
is the number of zeros that have to be added before the quotient reaches one. -/
def floorLog10 (num den : Nat) : Int :=
  if den ≤ num then (digitCount (num / den) : Int) - 1
  else -(digitCount ((den - 1) / num) : Int)

theorem valueOfDigits_digitsOf (n : Nat) : valueOfDigits (digitsOf n) = n :=
  Nat.ofDigitChars_ten_toDigits

theorem isDigit_of_mem_digitsOf {n : Nat} {c : Char} (h : c ∈ digitsOf n) : c.isDigit = true :=
  Nat.isDigit_of_mem_toDigits (by decide) (by decide) h

theorem digitsOf_ne_nil (n : Nat) : digitsOf n ≠ [] :=
  Nat.toDigits_ne_nil

/-- A number that is not zero has no zero in front. -/
theorem head?_digitsOf {n : Nat} (h : 0 < n) : (digitsOf n).head? ≠ some '0' := by
  have hdigit : ∀ d < 10, 0 < d → Nat.digitChar d ≠ '0' := by decide
  induction n using Nat.strongRecOn with
  | ind n ih =>
    unfold digitsOf
    by_cases hlt : n < 10
    · rw [Nat.toDigits_of_lt_base hlt]
      intro heq
      exact hdigit n hlt h (Option.some.inj heq)
    · have hrest := ih (n / 10) (by omega) (by omega)
      obtain ⟨d, digits, hdigits⟩ := List.exists_cons_of_ne_nil (digitsOf_ne_nil (n / 10))
      rw [Nat.toDigits_of_base_le (by decide) (by omega), List.head?_append]
      change (digitsOf (n / 10)).head?.or _ ≠ some '0'
      rw [hdigits] at hrest ⊢
      exact hrest

theorem valueOfDigits_padZeros (count : Nat) (digits : List Char) :
    valueOfDigits (padZeros count digits) = valueOfDigits digits := by
  rw [valueOfDigits, padZeros, Nat.ofDigitChars_append, Nat.ofDigitChars_replicate_zero]
  simp [valueOfDigits]

theorem filter_groupThousands (digits : List Char) (h : ',' ∉ digits) :
    (groupThousands digits).filter (· ≠ ',') = digits := by
  induction digits with
  | nil => rfl
  | cons digit rest ih =>
    have hd : digit ≠ ',' := fun e => h (e ▸ List.mem_cons_self)
    have hr : ',' ∉ rest := fun m => h (List.mem_cons_of_mem _ m)
    unfold groupThousands
    split <;> simp_all

end MailMerge
