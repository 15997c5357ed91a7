import MailMerge.Proofs.ByteCounts
import MailMerge.Proofs.FirstFault
import MailMerge.Proofs.Occurrences
import MailMerge.Report.Basic
import Mathlib.Data.List.Forall2

/-!
# Where remarks are drawn

Errors and placeholders know their places in bytes, and a report hands them to
the drawing as they are. The drawing counts characters. So a remark begins as
many characters behind its piece of the text as there are bytes in front of the
piece beyond one for each character; it is not too long or too short, because
specifiers and placeholders themselves are ASCII.

`Report.Label.Displaced` says this of one remark, `displaced_of_span` shows it
for every remark whose place is that of an ASCII piece, and
`report_labels_displaced` says that the remarks of both kinds of reports are of
this sort. A remark is on its own piece, then, exactly if everything in front of
that is ASCII, and `report_labels_beside_pieces` is what comes of a single letter
that is not.
-/

namespace MailMerge

/-! ## How the drawing reads places -/

/-- The characters of a line have the numbers that they have in the text, from
the line's first one on. -/
theorem getElem?_of_mem_layOut_length {lines : List (List Char)} {line : Span × List Char}
    {before : List Char} (h : line ∈ layOut List.length before.length lines) {column : Nat}
    (hcolumn : column < line.2.length) :
    (before ++ lines.flatten)[line.1.start + column]? = line.2[column]? := by
  induction lines generalizing before with
  | nil => cases h
  | cons first rest ih =>
      rw [List.flatten_cons, ← List.append_assoc]
      rcases List.mem_cons.mp h with rfl | hmem
      · simp only [] at hcolumn ⊢
        rw [List.getElem?_append_left (by rw [List.length_append]; omega),
          List.getElem?_append_right (Nat.le_add_right ..), Nat.add_sub_cancel_left]
      · rw [← List.length_append] at hmem
        exact ih hmem

theorem getElem?_of_mem_numberedLines {text : List Char} {line : Span × List Char}
    (h : line ∈ numberedLines text) {column : Nat} (hcolumn : column < line.2.length) :
    text[line.1.start + column]? = line.2[column]? := by
  have hline := @getElem?_of_mem_layOut_length _ _ [] h _ hcolumn
  rwa [List.nil_append, flatten_splitLines] at hline

namespace Report

/-- A remark is on the character of a text that has this number. -/
def Label.IsOn (label : Label) (number : Nat) : Prop :=
  label.span.start ≤ number ∧ number < label.span.stop

/-- A column of a line is coloured if a remark that lies on the line is on the
character there. -/
theorem covered_of_iff {line : Span × List Char} {labels : List Label} {column : Nat} :
    (MarkedLine.of line labels).covered column = true ↔
      ∃ label ∈ labels, line.1.start ≤ label.span.start ∧ label.span.stop ≤ line.1.stop ∧
        label.IsOn (line.1.start + column) := by
  unfold MarkedLine.covered MarkedLine.of Label.IsOn
  simp only [List.any_eq_true, List.mem_mergeSort, List.mem_map, List.mem_filter,
    Bool.and_eq_true, decide_eq_true_eq]
  constructor
  · rintro ⟨_, ⟨label, ⟨hmem, hline⟩, rfl⟩, hon⟩
    exact ⟨label, hmem, hline.1, hline.2, hon⟩
  · rintro ⟨label, hmem, hstart, hstop, hon⟩
    exact ⟨_, ⟨label, ⟨hmem, hstart, hstop⟩, rfl⟩, hon⟩

/-! ## Remarks whose places are counted in bytes -/

/-- A remark is on the characters of a piece of a text and on no others; the
piece is told by what stands in front of it. -/
def Label.PointsAt (label : Label) (before piece : List Char) : Prop :=
  ∀ number, label.IsOn number ↔
    before.length ≤ number ∧ number < before.length + piece.length

/-- How a remark stands to the piece of a text at some bytes: it is on as many
characters as the piece has, but behind it by the extra bytes in front of the
piece; on the piece itself exactly if there are none. -/
def Label.Displaced (label : Label) (place : Span) (text piece : List Char) : Prop :=
  ∃ before after, text = before ++ piece ++ after ∧
    place = ⟨byteLength before, byteLength before + byteLength piece⟩ ∧
    (∀ number, label.IsOn number ↔ before.length + extraBytes before ≤ number ∧
      number < before.length + extraBytes before + piece.length) ∧
    (label.PointsAt before piece ↔ IsAscii before)

/-- A remark with the place of an ASCII piece. -/
theorem Label.displaced_of_span {label : Label} {text piece : List Char}
    (hslice : label.span.slice? text = some piece) (hascii : IsAscii piece)
    (hpiece : piece ≠ []) : label.Displaced label.span text piece := by
  obtain ⟨before, after, htext, hstart, hstop⟩ := slice?_eq_some_iff.mp hslice
  have hlength := List.length_pos_iff.mpr hpiece
  have hon : ∀ number, label.IsOn number ↔ before.length + extraBytes before ≤ number ∧
      number < before.length + extraBytes before + piece.length := by
    intro number
    unfold Label.IsOn
    rw [hstart, hstop, hascii.byteLength_eq, length_add_extraBytes]
  have hplace : label.span = ⟨label.span.start, label.span.stop⟩ := rfl
  rw [hstart, hstop] at hplace
  refine ⟨before, after, htext, hplace, hon, ?_⟩
  rw [← extraBytes_eq_zero_iff]
  unfold Label.PointsAt
  constructor
  · intro hpoints
    have hfirst := (hpoints before.length).mpr (by omega)
    rw [hon] at hfirst
    omega
  · intro hzero number
    rw [hon, hzero, Nat.add_zero]

end Report

/-! ## What reports are about is ASCII -/

namespace Format

/-- A token that comes to no text is no text, so it is made of ASCII characters. -/
theorem isAscii_raw_of_error {arguments : List Argument} {progress : Progress} {token : Token}
    {failure : Failure Fault} (hcomplete : token.Complete)
    (h : fillToken arguments progress token = .error failure) : IsAscii token.raw := by
  cases token with
  | text content => cases h
  | invalid modifiers => exact isAscii_modifiers hcomplete
  | specifier modifiers closing => exact isAscii_specifier hcomplete

/-- The piece that an error is about: where it is, and that it is ASCII. -/
theorem specifier_of_fill_error {format : String} {arguments : List Argument} {error : Error}
    (h : fill format arguments = .error (.returned error)) :
    error.span.slice? format.toList = some error.specifier.toList ∧
      IsAscii error.specifier.toList ∧ error.specifier.toList ≠ [] := by
  obtain ⟨front, token, back, fault, hscan, ⟨_, _, _, hstop⟩, rfl⟩ :=
    fill_eq_returned_iff.mp h
  have hscannable := scannable_scan format.toList
  rw [hscan] at hscannable
  have hcomplete : token.Complete := hscannable.of_append_right.1
  rw [errorAt_zero, String.toList_ofList]
  refine ⟨slice?_eq_some_iff.mpr ⟨_, _, flatMap_raw_of_scan hscan, rfl, rfl⟩,
    isAscii_raw_of_error hcomplete hstop, ?_⟩
  cases token with
  | text content => exact hcomplete.1
  | invalid modifiers => exact List.cons_ne_nil _ _
  | specifier modifiers closing => exact List.cons_ne_nil _ _

end Format

namespace Template

theorem NameCharacter.val_le {c : Char} (h : NameCharacter c) : c.val ≤ 127 := by
  rcases h with h | h | h | rfl | rfl
  · exact UInt32.le_trans h.2 (by decide)
  · exact UInt32.le_trans h.2 (by decide)
  · exact UInt32.le_trans h.2 (by decide)
  · decide
  · decide

theorem isAscii_raw_of_mem_placeholders {template : String} {p : Placeholder}
    (h : p ∈ placeholders template) : IsAscii p.raw := by
  have hname := (mem_placeholders_iff.mp h).2
  have hopening : IsAscii ['$', '{'] := extraBytes_eq_zero_iff.mp (by decide)
  have hclosing : IsAscii ['}'] := extraBytes_eq_zero_iff.mp (by decide)
  have hbody : IsAscii p.name.toList := fun c hc => (hname c hc).val_le
  exact (hopening.append hbody).append hclosing

end Template

/-! ## The remarks of reports -/

open Report Template in
/-- The drawing finds the characters of a remark by their numbers in the text.
The remark of an error, and that of every placeholder that stays, has instead
the numbers of the bytes of its piece. So it is on as many characters as the
piece has, but behind the piece if there is anything in front of it that is not
ASCII. -/
theorem report_labels_displaced (format : String) (arguments : List Format.Argument)
    (object : Fields) (template : String) :
    (∀ text, ∀ line ∈ numberedLines text, ∀ column < line.2.length,
      text[line.1.start + column]? = line.2[column]?) ∧
    (∀ (line : Span × List Char) labels column,
      (MarkedLine.of line labels).covered column = true ↔
        ∃ label ∈ labels, line.1.start ≤ label.span.start ∧ label.span.stop ≤ line.1.stop ∧
          label.IsOn (line.1.start + column)) ∧
    (∀ error, Format.fill format arguments = .error (.returned error) →
      ∃ label, error.report.labels = [label] ∧
        label.Displaced error.span format.toList error.specifier.toList) ∧
    ∀ first, List.Forall₂ (fun p label => label.Displaced p.span template.toList p.raw)
      (unresolved object template)
      (stayingReport first (unresolved object template)).labels := by
  refine ⟨?_, ?_, ?_, ?_⟩
  · exact fun text line hline column hcolumn => getElem?_of_mem_numberedLines hline hcolumn
  · exact fun line labels column => covered_of_iff
  · intro error h
    obtain ⟨hslice, hascii, hpiece⟩ := Format.specifier_of_fill_error h
    exact ⟨⟨error.span, error.fault.hint⟩, rfl, Label.displaced_of_span hslice hascii hpiece⟩
  · intro first
    unfold stayingReport
    rw [List.forall₂_map_right_iff, List.forall₂_same]
    intro p hp
    have hmem : p ∈ placeholders template := (List.mem_filter.mp hp).1
    exact Label.displaced_of_span (mem_placeholders_iff.mp hmem).1
      (isAscii_raw_of_mem_placeholders hmem) (List.cons_ne_nil _ _)

open Report Template in
/-- Behind one letter of two bytes, the remark about a specifier is on its second
character and the one after it, and the remark about a placeholder begins inside
of it and ends behind it. -/
theorem report_labels_beside_pieces :
    let error : Format.Error := ⟨.missingArgument, "%d", ⟨2, 4⟩⟩
    let p : Placeholder := ⟨⟨2, 6⟩, "x"⟩
    (Format.fill "é%d!" [] = .error (.returned error) ∧
      "é%d!".toList = ['é'] ++ error.specifier.toList ++ ['!'] ∧
      ∀ label ∈ error.report.labels,
        ¬label.PointsAt ['é'] error.specifier.toList ∧
          ∀ number, label.IsOn number ↔ number = 2 ∨ number = 3) ∧
    (unresolved (.ofEntries []) "é${x}!" = [p] ∧
      "é${x}!".toList = ['é'] ++ p.raw ++ ['!'] ∧
      ∀ label ∈ (stayingReport p [p]).labels, ¬label.PointsAt ['é'] p.raw) ∧
    ¬∀ format arguments error, Format.fill format arguments = .error (.returned error) →
      ∀ before after, format.toList = before ++ error.specifier.toList ++ after →
        error.span.start = byteLength before →
          ∀ label ∈ error.report.labels, label.PointsAt before error.specifier.toList := by
  intro error p
  have hscan : Format.scan "é%d!".toList
      = [.text ['é']] ++ .specifier [] 'd' :: [.text ['!']] := by decide +kernel
  have hstop : Format.StopsAt [] .start [.text ['é']] (.specifier [] 'd')
      (.returned .missingArgument) :=
    ⟨_, _, .cons rfl (.nil _), rfl⟩
  have hfill : Format.fill "é%d!" [] = .error (.returned ⟨.missingArgument, "%d", ⟨2, 4⟩⟩) :=
    Format.fill_of_stopsAt hscan hstop
  have hformat : "é%d!".toList = ['é'] ++ "%d".toList ++ ['!'] := by decide +kernel
  have hspecifier : ¬Label.PointsAt ⟨⟨2, 4⟩, Format.Fault.missingArgument.hint⟩ ['é']
      "%d".toList := by
    intro hpoints
    exact absurd ((hpoints 3).mp ⟨by decide, by decide⟩).2 (by decide)
  refine ⟨⟨hfill, hformat, ?_⟩, ⟨by decide +kernel, by decide +kernel, ?_⟩, ?_⟩
  · intro label hlabel
    cases List.mem_singleton.mp hlabel
    refine ⟨hspecifier, fun number => ?_⟩
    show 2 ≤ number ∧ number < 4 ↔ _
    omega
  · intro label hlabel hpoints
    cases List.mem_singleton.mp hlabel
    exact absurd ((hpoints 5).mp ⟨by decide, by decide⟩).2 (by decide)
  · intro hall
    exact hspecifier (hall _ _ _ hfill ['é'] ['!'] hformat rfl _ (List.mem_singleton_self _))

end MailMerge
