import MailMerge.Text.Span

/-!
# What a slice of a text is

`dropBytes?` and `takeBytes?` walk a text byte count in hand and give up inside
a character. Nobody who reasons about places wants to follow that walk, so it
is followed once here. The outcome is `slice?_eq_some_iff`: a span holds a piece
of a text exactly when the text falls into three parts, the middle one of which
is the piece, and the span is where the byte lengths of the parts put it.

The second half says the same of `layOut`. The pieces of a text that are laid
out from its beginning stand where the byte lengths of their predecessors put
them, one behind the other.
-/

namespace MailMerge

theorem byteLength_pos {text : List Char} (h : text ≠ []) : 0 < byteLength text := by
  cases text with
  | nil => exact absurd rfl h
  | cons c rest =>
      have := c.utf8Size_pos
      rw [byteLength_cons]
      omega

/-! ## Walking over a text

Both walks take a step over a character when they have bytes enough for it.
The number of bytes is never zero there, because no character is without
bytes. -/

theorem dropBytes?_zero (text : List Char) : dropBytes? 0 text = some text := by
  rw [dropBytes?]

theorem takeBytes?_zero (text : List Char) : takeBytes? 0 text = some [] := by
  rw [takeBytes?]

theorem dropBytes?_cons {c : Char} {rest : List Char} {offset : Nat}
    (h : c.utf8Size ≤ offset) :
    dropBytes? offset (c :: rest) = dropBytes? (offset - c.utf8Size) rest := by
  have hc := c.utf8Size_pos
  obtain ⟨n, rfl⟩ : ∃ n, offset = n + 1 := ⟨offset - 1, by omega⟩
  rw [dropBytes?, if_pos h]

theorem takeBytes?_cons {c : Char} {rest : List Char} {offset : Nat}
    (h : c.utf8Size ≤ offset) :
    takeBytes? offset (c :: rest)
      = (takeBytes? (offset - c.utf8Size) rest).map (c :: ·) := by
  have hc := c.utf8Size_pos
  obtain ⟨n, rfl⟩ : ∃ n, offset = n + 1 := ⟨offset - 1, by omega⟩
  rw [takeBytes?, if_pos h]

@[simp] theorem dropBytes?_append (before rest : List Char) :
    dropBytes? (byteLength before) (before ++ rest) = some rest := by
  induction before with
  | nil => exact dropBytes?_zero rest
  | cons c before ih =>
      rw [List.cons_append, byteLength_cons, dropBytes?_cons (by omega),
        Nat.add_sub_cancel_left]
      exact ih

@[simp] theorem takeBytes?_append (piece rest : List Char) :
    takeBytes? (byteLength piece) (piece ++ rest) = some piece := by
  induction piece with
  | nil => exact takeBytes?_zero rest
  | cons c piece ih =>
      rw [List.cons_append, byteLength_cons, takeBytes?_cons (by omega),
        Nat.add_sub_cancel_left, ih]
      rfl

theorem exists_of_dropBytes? {offset : Nat} {text rest : List Char}
    (h : dropBytes? offset text = some rest) :
    ∃ before, text = before ++ rest ∧ byteLength before = offset := by
  fun_induction dropBytes? offset text with
  | case1 text => exact ⟨[], by simpa using h, rfl⟩
  | case2 => cases h
  | case3 offset c text hc ih =>
      obtain ⟨before, rfl, hlen⟩ := ih h
      exact ⟨c :: before, rfl, by rw [byteLength_cons, hlen]; omega⟩
  | case4 => cases h

theorem exists_of_takeBytes? {offset : Nat} {text piece : List Char}
    (h : takeBytes? offset text = some piece) :
    ∃ rest, text = piece ++ rest ∧ byteLength piece = offset := by
  fun_induction takeBytes? offset text generalizing piece with
  | case1 text => cases h; exact ⟨text, rfl, rfl⟩
  | case2 => cases h
  | case3 offset c text hc ih =>
      obtain ⟨tail, htail, rfl⟩ := Option.map_eq_some_iff.mp h
      obtain ⟨rest, rfl, hlen⟩ := ih htail
      exact ⟨rest, rfl, by rw [byteLength_cons, hlen]; omega⟩
  | case4 => cases h

/-- A span holds a piece of a text when the piece is what the text has between
the two offsets, counted in bytes. -/
theorem slice?_eq_some_iff {span : Span} {text piece : List Char} :
    span.slice? text = some piece ↔
      ∃ before after, text = before ++ piece ++ after ∧
        span.start = byteLength before ∧
        span.stop = byteLength before + byteLength piece := by
  unfold Span.slice?
  constructor
  · intro h
    split at h
    · next hle =>
        obtain ⟨rest, hdrop, htake⟩ := Option.bind_eq_some_iff.mp h
        obtain ⟨before, rfl, hbefore⟩ := exists_of_dropBytes? hdrop
        obtain ⟨after, rfl, hpiece⟩ := exists_of_takeBytes? htake
        exact ⟨before, after, by rw [List.append_assoc], hbefore.symm, by omega⟩
    · cases h
  · rintro ⟨before, after, rfl, hstart, hstop⟩
    rw [if_pos (by omega), hstart, List.append_assoc, dropBytes?_append,
      Option.bind_some, hstop, Nat.add_sub_cancel_left]
    exact takeBytes?_append piece after

/-- The first bytes of a text hold what it begins with. -/
theorem slice?_front (front back : List Char) :
    Span.slice? ⟨0, byteLength front⟩ (front ++ back) = some front :=
  slice?_eq_some_iff.mpr ⟨[], back, rfl, rfl, (Nat.zero_add _).symm⟩

/-! ## Pieces laid end to end -/

section

variable {α : Type} {raw : α → List Char}

/-- The bytes before a place among pieces are those of the pieces before it. -/
theorem layOut_append (start : Nat) (front back : List α) :
    layOut (fun piece => byteLength (raw piece)) start (front ++ back)
      = layOut (fun piece => byteLength (raw piece)) start front
        ++ layOut (fun piece => byteLength (raw piece))
            (start + byteLength (front.flatMap raw)) back := by
  induction front generalizing start with
  | nil => rfl
  | cons piece front ih =>
      rw [List.cons_append, layOut, ih, layOut, List.flatMap_cons,
        byteLength_append, ← Nat.add_assoc]
      rfl

theorem getElem?_layOut (start : Nat) (front : List α) (piece : α) (back : List α) :
    (layOut (fun piece => byteLength (raw piece)) start (front ++ piece :: back))[front.length]?
      = some (⟨start + byteLength (front.flatMap raw),
          start + byteLength (front.flatMap raw) + byteLength (raw piece)⟩, piece) := by
  have hlength : (layOut (fun piece => byteLength (raw piece)) start front).length
      = front.length := by
    rw [← List.length_map Prod.snd, map_snd_layOut]
  rw [layOut_append, ← hlength, List.getElem?_append_right (Nat.le_refl _), Nat.sub_self]
  rfl

theorem mem_layOut_iff {start : Nat} {pieces : List α} {span : Span} {piece : α} :
    (span, piece) ∈ layOut (fun piece => byteLength (raw piece)) start pieces ↔
      ∃ front back, pieces = front ++ piece :: back ∧
        span.start = start + byteLength (front.flatMap raw) ∧
        span.stop = span.start + byteLength (raw piece) := by
  constructor
  · intro h
    induction pieces generalizing start with
    | nil => cases h
    | cons first rest ih =>
        rcases List.mem_cons.mp h with heq | hmem
        · obtain ⟨rfl, rfl⟩ := Prod.mk.inj heq
          exact ⟨[], rest, rfl, rfl, rfl⟩
        · obtain ⟨front, back, rfl, hstart, hstop⟩ := ih hmem
          refine ⟨first :: front, back, rfl, ?_, hstop⟩
          rw [hstart, List.flatMap_cons, byteLength_append, Nat.add_assoc]
  · rintro ⟨front, back, rfl, hstart, hstop⟩
    obtain ⟨s, t⟩ := span
    simp only at hstart hstop
    rw [layOut_append, List.mem_append, layOut, hstop, hstart]
    exact .inr (List.mem_cons_self ..)

/-- A piece is found again at its place in the text that the pieces make up. -/
theorem slice?_of_mem_layOut {pieces : List α} {span : Span} {piece : α}
    (h : (span, piece) ∈ layOut (fun piece => byteLength (raw piece)) 0 pieces) :
    piece ∈ pieces ∧ span.slice? (pieces.flatMap raw) = some (raw piece) := by
  obtain ⟨front, back, rfl, hstart, hstop⟩ := mem_layOut_iff.mp h
  rw [Nat.zero_add] at hstart
  refine ⟨List.mem_append_right front (List.mem_cons_self ..), ?_⟩
  refine slice?_eq_some_iff.mpr ⟨front.flatMap raw, back.flatMap raw, ?_, hstart, ?_⟩
  · rw [List.flatMap_append, List.flatMap_cons, List.append_assoc]
  · rw [hstop, hstart]

theorem start_le_of_mem_layOut {width : α → Nat} {start : Nat} {pieces : List α}
    {entry : Span × α} (h : entry ∈ layOut width start pieces) :
    start ≤ entry.1.start := by
  induction pieces generalizing start with
  | nil => cases h
  | cons piece rest ih =>
      rcases List.mem_cons.mp h with rfl | hmem
      · exact Nat.le_refl start
      · have := ih hmem
        omega

/-- No piece reaches into a later one. -/
theorem layOut_pairwise (width : α → Nat) (start : Nat) (pieces : List α) :
    (layOut width start pieces).Pairwise fun p q => p.1.stop ≤ q.1.start := by
  induction pieces generalizing start with
  | nil => exact List.Pairwise.nil
  | cons piece rest ih =>
      rw [layOut]
      exact List.Pairwise.cons (fun _ h => start_le_of_mem_layOut h) (ih _)

end

end MailMerge
