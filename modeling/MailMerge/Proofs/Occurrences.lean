import MailMerge.Proofs.Runs
import MailMerge.Proofs.Slicing
import MailMerge.Template.Placeholder

/-!
# Every placeholder is found, and nothing else is

The scanner cuts a template into tokens from the left, and a token that turns
out not to be a placeholder may end anywhere: at the next dollar sign, or at the
character that spoilt a name. So it has to be shown that no such token swallows
the dollar sign of a placeholder behind it.

The reason is one fact about single tokens, `dollar_not_mem_tail_raw`: whatever
kind of token it is, only its first character can be a dollar sign. A
placeholder that begins behind the beginning of a token therefore begins behind
its end, and `scan_occurrence` follows that along the scan until the placeholder
is next. From there the two directions meet in `mem_placeholders_iff`, which
speaks of spans and slices alone.
-/

namespace MailMerge.Template

/-- The characters of a name: the letters and digits of ASCII, the underscore
and the point. -/
def NameCharacter (c : Char) : Prop :=
  ('A' ≤ c ∧ c ≤ 'Z') ∨ ('a' ≤ c ∧ c ≤ 'z') ∨ ('0' ≤ c ∧ c ≤ '9') ∨ c = '_' ∨ c = '.'

/-- What a placeholder looks like, read as a text. -/
def IsPlaceholder (text : List Char) : Prop :=
  ∃ name, text = '$' :: '{' :: name ++ ['}'] ∧ ∀ c ∈ name, NameCharacter c

theorem isNameChar_iff {c : Char} : isNameChar c = true ↔ NameCharacter c := by
  unfold isNameChar NameCharacter Char.isAlphanum Char.isAlpha Char.isUpper
    Char.isLower Char.isDigit
  simp only [Bool.or_eq_true, Bool.and_eq_true, decide_eq_true_eq, beq_iff_eq,
    or_assoc]
  rfl

theorem not_isNameChar_dollar : isNameChar '$' = false := by decide

theorem not_isNameChar_closing : isNameChar '}' = false := by decide

/-! ## Single tokens -/

theorem dollar_not_mem_of_all {name : List Char}
    (h : ∀ c ∈ name, isNameChar c = true) : '$' ∉ name := by
  intro hmem
  have := h '$' hmem
  rw [not_isNameChar_dollar] at this
  cases this

/-- A dollar sign is only ever the first character of a token. -/
theorem dollar_not_mem_tail_raw (c : Char) (rest : List Char) :
    '$' ∉ (firstToken c rest).1.raw.tail := by
  unfold firstToken
  split
  · split
    · next inner =>
        have hname := dollar_not_mem_of_all (all_takeWhile isNameChar inner)
        split
        · simpa [Token.raw] using hname
        · simpa [Token.raw] using hname
    · simp [Token.raw]
  · intro hmem
    exact of_decide_eq_true (all_takeWhile (fun d => decide (d ≠ '$')) rest '$' hmem) rfl

/-- A placeholder that a text begins with is its first token. -/
theorem firstToken_placeholder {name after : List Char}
    (hname : ∀ c ∈ name, isNameChar c = true) :
    firstToken '$' ('{' :: (name ++ '}' :: after)) = (.placeholder name, after) := by
  have hstop : ∀ c ∈ ('}' :: after).head?, isNameChar c = false := by
    intro c hc
    cases hc
    exact not_isNameChar_closing
  unfold firstToken
  simp only [↓reduceIte, dropWhile_append_of_head? hname hstop,
    takeWhile_append_of_head? hname hstop]

theorem all_of_firstToken {c : Char} {rest name : List Char}
    (h : (firstToken c rest).1 = .placeholder name) :
    ∀ d ∈ name, isNameChar d = true := by
  unfold firstToken at h
  split at h
  · split at h
    · split at h
      · cases h; exact all_takeWhile isNameChar _
      · cases h
    · cases h
  · cases h

/-! ## The whole scan -/

/-- A token ends at the latest where the next dollar sign behind its first
character stands. -/
theorem firstToken_ends_before_dollar {c b : Char} {rest before tail : List Char}
    (h : c :: rest = b :: before ++ '$' :: tail) :
    ∃ gap, b :: before = (firstToken c rest).1.raw ++ gap ∧
      (firstToken c rest).2 = gap ++ '$' :: tail := by
  rw [← raw_firstToken_append c rest] at h
  rcases List.append_eq_append_iff.mp h with hin | ⟨beyond, hraw, htail⟩
  · exact hin
  · cases beyond with
    | nil =>
        rw [List.append_nil] at hraw
        exact ⟨[], by rw [List.append_nil, hraw], htail.symm⟩
    | cons d beyond =>
        obtain ⟨rfl, _⟩ := List.cons.inj htail
        have hmem := dollar_not_mem_tail_raw c rest
        rw [hraw] at hmem
        exact absurd (List.mem_append_right before (List.mem_cons_self ..)) hmem

/-- A placeholder of a text is a token of it, whatever stands around it. -/
theorem scan_occurrence {template before name after : List Char}
    (hname : ∀ c ∈ name, isNameChar c = true)
    (h : template = before ++ '$' :: '{' :: (name ++ '}' :: after)) :
    ∃ front back, scan template = front ++ .placeholder name :: back ∧
      front.flatMap Token.raw = before := by
  fun_induction scan template generalizing before with
  | case1 => simp at h
  | case2 c rest ih =>
      cases before with
      | nil =>
          obtain ⟨rfl, rfl⟩ := List.cons.inj h
          rw [firstToken_placeholder hname]
          exact ⟨[], scan after, rfl, rfl⟩
      | cons b before =>
          obtain ⟨gap, hbefore, hgap⟩ := firstToken_ends_before_dollar h
          obtain ⟨front, back, hscan, hfront⟩ := ih hgap
          refine ⟨(firstToken c rest).1 :: front, back, ?_, ?_⟩
          · rw [hscan, List.cons_append]
          · rw [List.flatMap_cons, hfront, hbefore]

theorem all_of_mem_scan {template name : List Char}
    (h : .placeholder name ∈ scan template) : ∀ c ∈ name, isNameChar c = true := by
  fun_induction scan template with
  | case1 => cases h
  | case2 c rest ih =>
      rcases List.mem_cons.mp h with heq | hmem
      · exact all_of_firstToken heq.symm
      · exact ih hmem

/-! ## Placeholders and their places -/

theorem ofToken?_eq_some_iff {entry : Span × Token} {p : Placeholder} :
    Placeholder.ofToken? entry = some p ↔
      entry = (p.span, .placeholder p.name.toList) := by
  obtain ⟨span, token⟩ := entry
  cases token with
  | placeholder name =>
      constructor
      · intro h
        cases h
        rw [String.toList_ofList]
      · intro h
        cases h
        rw [Placeholder.ofToken?, String.ofList_toList]
  | dollar => simp [Placeholder.ofToken?]
  | text => simp [Placeholder.ofToken?]

theorem mem_placeholders_iff_mem_tokens {template : String} {p : Placeholder} :
    p ∈ placeholders template ↔
      (p.span, Token.placeholder p.name.toList) ∈ tokens template := by
  unfold placeholders
  rw [List.mem_filterMap]
  constructor
  · rintro ⟨entry, hmem, hp⟩
    rw [ofToken?_eq_some_iff] at hp
    exact hp ▸ hmem
  · intro hmem
    exact ⟨_, hmem, ofToken?_eq_some_iff.mpr rfl⟩

theorem exists_placeholder_of_mem_scan {template : String} {name : List Char}
    (h : .placeholder name ∈ scan template.toList) :
    ∃ p ∈ placeholders template, p.name = String.ofList name := by
  rw [← map_snd_layOut (fun token => byteLength (Token.raw token)) 0 (scan template.toList)]
    at h
  obtain ⟨⟨span, _⟩, hmem, rfl⟩ := List.mem_map.mp h
  refine ⟨⟨span, String.ofList name⟩, mem_placeholders_iff_mem_tokens.mpr ?_, rfl⟩
  rw [String.toList_ofList]
  exact hmem

/-- A placeholder is reported exactly when its name is one and its span holds
what the name makes a placeholder. -/
theorem mem_placeholders_iff {template : String} {p : Placeholder} :
    p ∈ placeholders template ↔
      p.span.slice? template.toList = some p.raw ∧
        ∀ c ∈ p.name.toList, NameCharacter c := by
  rw [mem_placeholders_iff_mem_tokens, tokens]
  constructor
  · intro h
    obtain ⟨hmem, hslice⟩ := slice?_of_mem_layOut h
    rw [flatMap_raw_scan] at hslice
    exact ⟨hslice, fun c hc => isNameChar_iff.mp (all_of_mem_scan hmem c hc)⟩
  · rw [mem_layOut_iff, slice?_eq_some_iff]
    rintro ⟨⟨before, after, htemplate, hstart, hstop⟩, hname⟩
    have hname' : ∀ c ∈ p.name.toList, isNameChar c = true :=
      fun c hc => isNameChar_iff.mpr (hname c hc)
    have hsplit : template.toList
        = before ++ '$' :: '{' :: (p.name.toList ++ '}' :: after) := by
      simpa [Placeholder.raw, Token.raw] using htemplate
    obtain ⟨front, back, hscan, hfront⟩ := scan_occurrence hname' hsplit
    refine ⟨front, back, hscan, ?_, ?_⟩
    · rw [hfront, hstart, Nat.zero_add]
    · rw [hstop, hstart]
      rfl

theorem placeholders_pairwise (template : String) :
    (placeholders template).Pairwise fun p q => p.span.stop ≤ q.span.start := by
  unfold placeholders tokens
  rw [List.pairwise_filterMap]
  refine (layOut_pairwise _ 0 (scan template.toList)).imp ?_
  intro entry entry' hle p hp q hq
  rw [ofToken?_eq_some_iff] at hp hq
  rw [hp, hq] at hle
  exact hle

theorem start_lt_stop_of_mem {template : String} {p : Placeholder}
    (h : p ∈ placeholders template) : p.span.start < p.span.stop := by
  obtain ⟨_, _, _, hstart, hstop⟩ := slice?_eq_some_iff.mp (mem_placeholders_iff.mp h).1
  have hpos : 0 < byteLength p.raw := byteLength_pos (by simp [Placeholder.raw, Token.raw])
  omega

/-- The placeholders of a template are its occurrences of a dollar sign and a
name in braces: one for every such occurrence, whatever stands around it, and
none besides. They come in order, do not overlap, and carry the text and the
name that the template has there. -/
theorem placeholders_exact (template : String) :
    (∀ span : Span, (∃ p ∈ placeholders template, p.span = span) ↔
      ∃ text, span.slice? template.toList = some text ∧ IsPlaceholder text) ∧
    (placeholders template).Pairwise (fun p q =>
      p.span.start < q.span.start ∧ p.span.stop ≤ q.span.start) ∧
    ∀ p ∈ placeholders template,
      p.span.slice? template.toList = some p.raw ∧
        p.raw = '$' :: '{' :: p.name.toList ++ ['}'] := by
  refine ⟨?_, ?_, ?_⟩
  · intro span
    constructor
    · rintro ⟨p, hmem, rfl⟩
      obtain ⟨hslice, hname⟩ := mem_placeholders_iff.mp hmem
      exact ⟨p.raw, hslice, p.name.toList, rfl, hname⟩
    · rintro ⟨_, hslice, name, rfl, hname⟩
      refine ⟨⟨span, String.ofList name⟩, mem_placeholders_iff.mpr ⟨?_, ?_⟩, rfl⟩
      · rw [hslice, Placeholder.raw, String.toList_ofList]
        rfl
      · rw [String.toList_ofList]
        exact hname
  · refine (placeholders_pairwise template).imp_of_mem ?_
    intro p q hp _ hle
    exact ⟨Nat.lt_of_lt_of_le (start_lt_stop_of_mem hp) hle, hle⟩
  · intro p hmem
    exact ⟨(mem_placeholders_iff.mp hmem).1, rfl⟩

end MailMerge.Template
