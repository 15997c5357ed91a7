import MailMerge.Proofs.Chunks
import MailMerge.Proofs.Substitution

/-!
# Templates put together

Cutting into tokens does not commute with putting texts together: an unfinished
placeholder in front of a seam, a lone dollar sign or a run of text goes on into
what stands behind it, and the tokens around the seam come out differently. What
they come to does not, as `ComesTo.append` says, unless a placeholder lies across
the seam. Here that condition is said of the placeholders that are found in the
whole, by their places (`Straddled.exists_across`).

For the end of a line it is enough to look at one character. Behind its dollar
sign a placeholder has a brace, a name and another brace; so a line's end that
begins with anything else completes nothing, whatever the template before it is
(`Straddled.goesOn`), and a list writes every element's text and then the line's
end.
-/

namespace MailMerge.Template

/-- An unfinished placeholder can go on with this character. -/
def GoesOn (c : Char) : Prop :=
  c = '{' ∨ c = '}' ∨ NameCharacter c

/-- A placeholder begins before an offset and ends behind it. -/
def Placeholder.Across (offset : Nat) (p : Placeholder) : Prop :=
  p.span.start < offset ∧ offset < p.span.stop

/-! ## Where a seam cuts a placeholder -/

section

variable {first second : List Char}

/-- A placeholder across a seam falls into what the first text ends in and what
the second one begins with, and neither is empty. -/
theorem Straddled.exists_cut (h : Straddled first second) :
    ∃ before inside outside after, first = before ++ inside ∧ second = outside ++ after ∧
      IsPlaceholder (inside ++ outside) ∧ inside ≠ [] ∧ outside ≠ [] := by
  obtain ⟨before, piece, after, hsplit, hshape, hbefore, hpiece⟩ := h
  rw [List.append_assoc] at hsplit
  rcases List.append_eq_append_iff.mp hsplit with ⟨gap, rfl, -⟩ | ⟨inside, rfl, hrest⟩
  · rw [List.length_append] at hbefore
    omega
  · rw [List.length_append] at hbefore hpiece
    rcases List.append_eq_append_iff.mp hrest with ⟨gap, rfl, -⟩ | ⟨outside, rfl, rfl⟩
    · rw [List.length_append] at hpiece
      omega
    · rw [List.length_append] at hpiece
      refine ⟨before, inside, outside, after, rfl, rfl, hshape, ?_, ?_⟩
      · exact List.ne_nil_of_length_pos (by omega)
      · exact List.ne_nil_of_length_pos (by omega)

theorem IsPlaceholder.goesOn_of_mem_tail {text : List Char} (h : IsPlaceholder text) {c : Char}
    (hc : c ∈ text.tail) : GoesOn c := by
  obtain ⟨name, rfl, hname⟩ := h
  have hmem : c = '{' ∨ c ∈ name ∨ c = '}' := by simpa using hc
  rcases hmem with hopening | hmem | hclosing
  · exact .inl hopening
  · exact .inr (.inr (hname c hmem))
  · exact .inr (.inl hclosing)

/-- Behind the seam a placeholder goes on. -/
theorem Straddled.goesOn (h : Straddled first second) : ∃ c ∈ second.head?, GoesOn c := by
  obtain ⟨before, inside, outside, after, rfl, rfl, hshape, hinside, houtside⟩ := h.exists_cut
  obtain ⟨d, inside, rfl⟩ := List.exists_cons_of_ne_nil hinside
  obtain ⟨c, outside, rfl⟩ := List.exists_cons_of_ne_nil houtside
  refine ⟨c, rfl, hshape.goesOn_of_mem_tail ?_⟩
  show c ∈ inside ++ c :: outside
  simp

end

/-- A placeholder across a seam is one of those that are found. -/
theorem Straddled.exists_across {first second : String}
    (h : Straddled first.toList second.toList) :
    ∃ p ∈ placeholders (first ++ second), p.Across (byteLength first.toList) := by
  obtain ⟨before, inside, outside, after, hfirst, hsecond, hshape, hinside, houtside⟩ :=
    h.exists_cut
  have hinside := byteLength_pos hinside
  have houtside := byteLength_pos houtside
  obtain ⟨name, hraw, hname⟩ := hshape
  let p : Placeholder :=
    ⟨⟨byteLength before, byteLength before + byteLength (inside ++ outside)⟩, String.ofList name⟩
  refine ⟨p, mem_placeholders_iff.mpr ⟨?_, ?_⟩, ?_, ?_⟩
  · rw [slice?_eq_some_iff]
    have hp : p.raw = inside ++ outside := by
      rw [hraw, Placeholder.raw, String.toList_ofList, Token.raw]
    refine ⟨before, after, ?_, rfl, by rw [hp]⟩
    rw [String.toList_append, hfirst, hsecond, hp]
    simp
  · rw [String.toList_ofList]
    exact hname
  · show byteLength before < byteLength first.toList
    rw [hfirst, byteLength_append]
    omega
  · show byteLength first.toList < byteLength before + byteLength (inside ++ outside)
    rw [hfirst, byteLength_append, byteLength_append]
    omega

/-! ## Filling in on both sides of a seam -/

theorem text_rendering_append {first second : String}
    (hseam : ¬Straddled first.toList second.toList) (object : Fields) :
    (rendering object (first ++ second)).text
      = (rendering object first).text ++ (rendering object second).text := by
  have hwhole := comesTo_rendering object (first ++ second)
  have hsecond := comesTo_scan object second.toList (0 + byteLength first.toList)
  rw [← text_rendering] at hsecond
  rw [String.toList_append] at hwhole
  exact (hwhole.unique ((comesTo_rendering object first).append hsecond hseam)).1

theorem lineChunks_of_terminator {style : ListStyle}
    (h : ∀ c ∈ style.terminator.toList.head?, ¬GoesOn c) (objects : List Fields)
    (template : String) :
    lineChunks objects (style.template template)
      = objects.map fun object =>
          utf8Bytes (render object template ++ render object style.terminator).toList := by
  have hseam : ¬Straddled template.toList style.terminator.toList := by
    intro hlies
    obtain ⟨c, hc, hgoes⟩ := hlies.goesOn
    exact h c hc hgoes
  refine List.map_congr_left fun object _ => ?_
  rw [ListStyle.template, text_rendering_append hseam, render, render, String.toList_append,
    String.toList_ofList, String.toList_ofList]

/-- Filling in goes apart at every seam that no placeholder lies across: of two
texts put together each comes to what it comes to alone. A line's end that is
empty, or begins with a character that no placeholder can go on with, is such a
seam behind every template. So a list writes, for each element, the text that the
template comes to and then the one that the line's end comes to, as one chunk,
and nothing else. -/
theorem render_append_exact :
    (∀ (object : Fields) (first second : String),
      (∀ p ∈ placeholders (first ++ second), ¬p.Across (byteLength first.toList)) →
        render object (first ++ second) = render object first ++ render object second) ∧
    ∀ (objects : List Fields) (template : String) (style : ListStyle),
      (∀ c ∈ style.terminator.toList.head?, ¬GoesOn c) →
        WritesInTurn (writeList objects template style)
          (objects.map fun object =>
            utf8Bytes (render object template ++ render object style.terminator).toList) := by
  constructor
  · intro object first second hnone
    have hseam : ¬Straddled first.toList second.toList := by
      intro hlies
      obtain ⟨p, hmem, hacross⟩ := hlies.exists_across
      exact hnone p hmem hacross
    rw [render, text_rendering_append hseam, String.ofList_append]
    rfl
  · intro objects template style hend
    rw [← lineChunks_of_terminator hend]
    exact writesInTurn_writeList objects template style

/-- An unfinished placeholder in front of a blank or of a line's end. -/
theorem render_append_unfinished :
    let object := Fields.ofEntries [("n", some "$\x7bm\x7d")]
    ((∀ p ∈ placeholders ("${n}$\x7bm" ++ " \x7d${n}"), ¬p.Across 7) ∧
      render object ("${n}$\x7bm" ++ " \x7d${n}")
        = render object "${n}$\x7bm" ++ render object " \x7d${n}") ∧
    (∀ c ∈ ListStyle.lines.terminator.toList.head?, ¬GoesOn c) ∧
      WritesInTurn (writeList [object] "${n}$\x7bm" .lines)
        [utf8Bytes (render object "${n}$\x7bm" ++ render object "\n").toList] := by
  intro object
  have hnone : ∀ p ∈ placeholders ("${n}$\x7bm" ++ " \x7d${n}"), ¬p.Across 7 := by
    unfold Placeholder.Across
    decide +kernel
  have hend : ∀ c ∈ ListStyle.lines.terminator.toList.head?, ¬GoesOn c := by
    intro c hc
    obtain rfl : '\n' = c := Option.some.inj hc
    unfold GoesOn NameCharacter
    decide
  exact ⟨⟨hnone, render_append_exact.1 object _ _ hnone⟩,
    hend, render_append_exact.2 [object] "${n}$\x7bm" .lines hend⟩

end MailMerge.Template
