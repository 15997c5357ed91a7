/-!
# Where a run of characters ends

A reader that takes characters as long as they have some property stops at the
first one that does not. If a text is put together of a run of such characters
and a rest that begins otherwise, the reader finds the cut again; so there is
only one such cut.
-/

namespace MailMerge

variable {p : Char → Bool} {a b : List Char}

theorem takeWhile_append_of_head? (ha : ∀ c ∈ a, p c = true)
    (hb : ∀ c ∈ b.head?, p c = false) : (a ++ b).takeWhile p = a := by
  rw [List.takeWhile_append_of_pos ha]
  cases b with
  | nil => exact List.append_nil a
  | cons c b =>
      rw [List.takeWhile_cons_of_neg (by simp [hb c rfl]), List.append_nil]

theorem dropWhile_append_of_head? (ha : ∀ c ∈ a, p c = true)
    (hb : ∀ c ∈ b.head?, p c = false) : (a ++ b).dropWhile p = b := by
  rw [List.dropWhile_append_of_pos ha]
  cases b with
  | nil => rfl
  | cons c b => rw [List.dropWhile_cons_of_neg (by simp [hb c rfl])]

/-- Two texts that are cut where the same property ends are cut in one place. -/
theorem append_inj_of_head? {a' b' : List Char} (ha : ∀ c ∈ a, p c = true)
    (ha' : ∀ c ∈ a', p c = true) (hb : ∀ c ∈ b.head?, p c = false)
    (hb' : ∀ c ∈ b'.head?, p c = false) (h : a ++ b = a' ++ b') : a = a' ∧ b = b' := by
  constructor
  · rw [← takeWhile_append_of_head? ha hb, h, takeWhile_append_of_head? ha' hb']
  · rw [← dropWhile_append_of_head? ha hb, h, dropWhile_append_of_head? ha' hb']

theorem not_head?_dropWhile (p : Char → Bool) (text : List Char) :
    ∀ c ∈ (text.dropWhile p).head?, p c = false := by
  intro c hc
  have hhead := List.head?_dropWhile_not p text
  rw [Option.mem_def.mp hc] at hhead
  exact hhead

theorem all_takeWhile (p : Char → Bool) (text : List Char) :
    ∀ c ∈ text.takeWhile p, p c = true :=
  List.all_eq_true.mp List.all_takeWhile

end MailMerge
