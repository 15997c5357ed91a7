import MailMerge.Text.Span

/-!
# Bytes and characters

A text takes up at least one byte for each of its characters. What it takes beyond
that is how far a place counted in bytes is from the same place counted in
characters; it is nothing exactly if all the characters are ASCII.
-/

namespace MailMerge

/-- Every character is one of the 128 that take a single byte. -/
def IsAscii (text : List Char) : Prop :=
  ∀ c ∈ text, c.val ≤ 127

instance (text : List Char) : Decidable (IsAscii text) :=
  decidable_of_iff (text.all (fun c => decide (c.val ≤ 127)) = true) (by simp [IsAscii])

/-- The bytes of a text beyond one for each character. -/
def extraBytes (text : List Char) : Nat :=
  byteLength text - text.length

theorem length_add_extraBytes (text : List Char) :
    text.length + extraBytes text = byteLength text := by
  have hle : text.length ≤ byteLength text := by
    induction text with
    | nil => exact Nat.le_refl 0
    | cons c text ih =>
        have := c.utf8Size_pos
        rw [List.length_cons, byteLength_cons]
        omega
  unfold extraBytes
  omega

theorem extraBytes_cons (c : Char) (text : List Char) :
    extraBytes (c :: text) = (c.utf8Size - 1) + extraBytes text := by
  have hall := length_add_extraBytes (c :: text)
  have htext := length_add_extraBytes text
  have := c.utf8Size_pos
  rw [List.length_cons, byteLength_cons] at hall
  omega

theorem extraBytes_eq_zero_iff {text : List Char} : extraBytes text = 0 ↔ IsAscii text := by
  unfold IsAscii
  induction text with
  | nil => exact ⟨nofun, fun _ => rfl⟩
  | cons c text ih =>
      have := c.utf8Size_pos
      rw [extraBytes_cons, List.forall_mem_cons, ← ih, ← Char.utf8Size_eq_one_iff]
      omega

theorem IsAscii.byteLength_eq {text : List Char} (h : IsAscii text) :
    byteLength text = text.length := by
  rw [← length_add_extraBytes, extraBytes_eq_zero_iff.mpr h, Nat.add_zero]

theorem IsAscii.append {a b : List Char} (ha : IsAscii a) (hb : IsAscii b) :
    IsAscii (a ++ b) := by
  intro c hc
  rcases List.mem_append.mp hc with hc | hc
  · exact ha c hc
  · exact hb c hc

end MailMerge
