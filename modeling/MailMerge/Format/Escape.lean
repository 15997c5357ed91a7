/-!
# Text that stands for itself

Text put into a format string may have percent signs that are meant as such.
Written twice, each of them is a specifier for a percent sign, and the text
stands for itself.
-/

namespace MailMerge.Format

/-- A text with every percent sign written twice. -/
def escape : List Char → List Char
  | [] => []
  | c :: rest => if c = '%' then '%' :: '%' :: escape rest else c :: escape rest

/-- A format string that stands for a text. -/
def escaped (text : String) : String :=
  String.ofList (escape text.toList)

@[simp] theorem escape_nil : escape [] = [] := rfl

@[simp] theorem escape_percent (rest : List Char) :
    escape ('%' :: rest) = '%' :: '%' :: escape rest := by
  rw [escape, if_pos rfl]

theorem escape_cons {c : Char} (h : c ≠ '%') (rest : List Char) :
    escape (c :: rest) = c :: escape rest := by
  rw [escape, if_neg h]

@[simp] theorem escape_append (a b : List Char) : escape (a ++ b) = escape a ++ escape b := by
  induction a with
  | nil => rfl
  | cons c a ih =>
    by_cases h : c = '%'
    · subst h
      rw [List.cons_append, escape_percent, escape_percent, ih]
      rfl
    · rw [List.cons_append, escape_cons h, escape_cons h, ih]
      rfl

theorem escape_flatMap {α : Type} (f : α → List Char) (pieces : List α) :
    escape (pieces.flatMap f) = pieces.flatMap fun piece => escape (f piece) := by
  induction pieces with
  | nil => rfl
  | cons piece pieces ih => rw [List.flatMap_cons, List.flatMap_cons, escape_append, ih]

theorem escape_of_not_mem {text : List Char} (h : '%' ∉ text) : escape text = text := by
  induction text with
  | nil => rfl
  | cons c text ih =>
    have hc : c ≠ '%' := fun heq => h (heq ▸ List.mem_cons_self)
    rw [escape_cons hc, ih fun hmem => h (List.mem_cons_of_mem c hmem)]

/-- A text begins as it did. -/
theorem head?_escape (text : List Char) : (escape text).head? = text.head? := by
  cases text with
  | nil => rfl
  | cons c text =>
    by_cases h : c = '%'
    · subst h
      rw [escape_percent]
      rfl
    · rw [escape_cons h]
      rfl

/-- Two percent signs in a row are on the same side of every cut. -/
theorem takeWhile_escape (p : Char → Bool) (text : List Char) :
    (escape text).takeWhile p = escape (text.takeWhile p) := by
  induction text with
  | nil => rfl
  | cons c text ih =>
    by_cases h : c = '%'
    · subst h
      cases hp : p '%' <;> simp [hp, ih]
    · cases hp : p c <;> simp [escape_cons h, hp, ih]

theorem dropWhile_escape (p : Char → Bool) (text : List Char) :
    (escape text).dropWhile p = escape (text.dropWhile p) := by
  induction text with
  | nil => rfl
  | cons c text ih =>
    by_cases h : c = '%'
    · subst h
      cases hp : p '%' <;> simp [hp, ih]
    · cases hp : p c <;> simp [escape_cons h, hp, ih]

end MailMerge.Format
