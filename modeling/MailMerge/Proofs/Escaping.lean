import MailMerge.Format.Escape
import MailMerge.Proofs.Filling
import MailMerge.Proofs.Splicing
import MailMerge.Proofs.Writers

/-!
# Percent signs written twice

A template whose result goes on to be filled with arguments is read twice, by
two scanners that know nothing of each other. Writing each percent sign twice
protects the template from the second one, whatever stands around the percent
signs, and the first one does not notice.

The first scanner takes two percent signs in a row for what it takes one for:
they are ordinary text to it, and no part of a name. So the tokens of an escaped
template are those of the template with their text escaped (`scan_escape`), and
filling it in gives the escaped result, as long as what is put in has no percent
sign. The second scanner begins a specifier at every other percent sign and
finds it closed at once by the next one. So an escaped text is filled to the
text itself, with any arguments (`fill_escaped`).
-/

namespace MailMerge

open Format (escape escaped)

/-! ## Templates -/

namespace Template

/-- A token as it stands in an escaped template. -/
def Token.escape : Token → Token
  | .text content => .text (Format.escape content)
  | token => token

theorem percent_not_mem_of_all {name : List Char} (h : ∀ c ∈ name, isNameChar c = true) :
    '%' ∉ name :=
  fun hmem => absurd (h '%' hmem) (by decide)

theorem firstToken_dollar {rest : List Char} (h : rest.head? ≠ some '{') :
    firstToken '$' rest = (.dollar, rest) := by
  cases rest with
  | nil => rfl
  | cons d rest =>
      have hd : d ≠ '{' := fun heq => h (heq ▸ rfl)
      simp [firstToken, hd]

theorem firstToken_unclosed {inner : List Char}
    (h : (inner.dropWhile isNameChar).head? ≠ some '}') :
    firstToken '$' ('{' :: inner)
      = (.text ('$' :: '{' :: inner.takeWhile isNameChar), inner.dropWhile isNameChar) := by
  unfold firstToken
  rw [if_pos rfl]
  simp only []
  split
  · next after hdrop =>
      rw [hdrop] at h
      exact absurd rfl h
  · rfl

/-- The first token of an escaped template, unless a percent sign begins it. -/
theorem firstToken_escape {c : Char} (hc : c ≠ '%') (rest : List Char) :
    firstToken c (Format.escape rest)
      = ((firstToken c rest).1.escape, Format.escape (firstToken c rest).2) := by
  by_cases hdollar : c = '$'
  · subst hdollar
    by_cases hbrace : rest.head? = some '{'
    · obtain ⟨inner, rfl⟩ := List.head?_eq_some_iff.mp hbrace
      have hall := all_takeWhile isNameChar inner
      have hname := Format.escape_of_not_mem (percent_not_mem_of_all hall)
      rw [Format.escape_cons (by decide)]
      by_cases hclosed : (inner.dropWhile isNameChar).head? = some '}'
      · obtain ⟨after, hafter⟩ := List.head?_eq_some_iff.mp hclosed
        have hinner : inner = inner.takeWhile isNameChar ++ '}' :: after := by
          rw [← hafter, List.takeWhile_append_dropWhile]
        rw [hinner, Format.escape_append, hname, Format.escape_cons (by decide),
          firstToken_placeholder hall, firstToken_placeholder hall]
        rfl
      · rw [firstToken_unclosed hclosed, firstToken_unclosed, Format.takeWhile_escape,
          Format.dropWhile_escape, Token.escape, Format.escape_cons (by decide),
          Format.escape_cons (by decide)]
        rwa [Format.dropWhile_escape, Format.head?_escape]
    · rw [firstToken_dollar hbrace, firstToken_dollar (by rwa [Format.head?_escape])]
      rfl
  · unfold firstToken
    rw [if_neg hdollar, if_neg hdollar, Format.takeWhile_escape, Format.dropWhile_escape,
      Token.escape, Format.escape_cons hc]

theorem scan_escape (template : List Char) :
    scan (Format.escape template) = (scan template).map Token.escape := by
  fun_induction scan template with
  | case1 => rw [Format.escape_nil, scan]; rfl
  | case2 c rest ih =>
      rw [List.map_cons, ← ih]
      by_cases hc : c = '%'
      · -- The second percent sign is text like the first one.
        subst hc
        rw [Format.escape_percent, scan]
        simp [firstToken, Token.escape, Format.takeWhile_escape, Format.dropWhile_escape]
      · rw [Format.escape_cons hc, scan, firstToken_escape hc]

/-- Nothing that an object puts into a template has a percent sign. -/
def PutsNoPercent (object : Fields) (template : String) : Prop :=
  ∀ p ∈ placeholders template, ∀ value, object.value? p.name = some value →
    '%' ∉ value.toList

/-- What comes of a placeholder has no percent sign, whether it is filled in or
stays. -/
theorem PutsNoPercent.not_mem_text {object : Fields} {template : String}
    (h : PutsNoPercent object template) {name : List Char}
    (hmem : .placeholder name ∈ scan template.toList) :
    '%' ∉ (renderToken object (.placeholder name)).text := by
  rw [text_renderToken]
  unfold Token.filled
  cases hfield : object.value? (String.ofList name) with
  | some value =>
      obtain ⟨p, hp, hname⟩ := exists_placeholder_of_mem_scan hmem
      simp only [hfield]
      exact h p hp value (hname ▸ hfield)
  | none => simp [hfield, Token.raw, percent_not_mem_of_all (all_of_mem_scan hmem)]

theorem renderToken_escape {object : Fields} {token : Token}
    (h : ∀ name, token = .placeholder name → '%' ∉ (renderToken object token).text) :
    renderToken object token.escape
      = ⟨Format.escape (renderToken object token).text, (renderToken object token).events⟩ := by
  cases token with
  | text content => rfl
  | dollar => rfl
  | placeholder name =>
      rw [Format.escape_of_not_mem (h name rfl)]
      rfl

/-- An escaped template is filled in to the escaped result, and the same misses
are noted. -/
theorem PutsNoPercent.rendering_escaped {object : Fields} {template : String}
    (h : PutsNoPercent object template) :
    rendering object (escaped template)
      = ⟨Format.escape (rendering object template).text,
          (rendering object template).events⟩ := by
  have htokens : (scan (escaped template).toList).map (renderToken object)
      = (scan template.toList).map fun token =>
          ⟨Format.escape (renderToken object token).text, (renderToken object token).events⟩ := by
    rw [escaped, String.toList_ofList, scan_escape, List.map_map]
    refine List.map_congr_left fun token hmem => ?_
    refine renderToken_escape ?_
    rintro name rfl
    exact h.not_mem_text hmem
  unfold rendering
  simp only [htokens, List.flatMap_map, Format.escape_flatMap]

end Template

/-! ## Format strings -/

namespace Format

theorem firstToken_percent (rest : List Char) :
    firstToken '%' ('%' :: rest) = (.specifier [] '%', rest) := by
  rfl

theorem firstToken_text {c : Char} (hc : c ≠ '%') (rest : List Char) :
    firstToken c (escape rest)
      = (.text (c :: rest.takeWhile (· ≠ '%')), escape (rest.dropWhile (· ≠ '%'))) := by
  have hrun : '%' ∉ rest.takeWhile (· ≠ '%') := by
    intro hmem
    exact of_decide_eq_true (all_takeWhile (fun d => decide (d ≠ '%')) rest '%' hmem) rfl
  unfold firstToken
  rw [if_neg hc, takeWhile_escape, dropWhile_escape, escape_of_not_mem hrun]

theorem fillToken_percent (arguments : List Argument) (progress : Progress) :
    fillToken arguments progress (.specifier [] '%') = .ok (['%'], progress) := rfl

theorem fillToken_text {arguments : List Argument} {progress : Progress} (content : List Char) :
    fillToken arguments progress (.text content) = .ok (content, progress) := rfl

/-- The tokens of an escaped text fill in to the text, and use no argument. -/
theorem fills_escape (arguments : List Argument) (progress : Progress) (text : List Char) :
    Fills arguments progress (scan (escape text)) text progress := by
  match text with
  | [] =>
      rw [escape_nil, scan]
      exact .nil progress
  | c :: rest =>
      by_cases hc : c = '%'
      · subst hc
        rw [escape_percent, scan, firstToken_percent]
        exact .cons (fillToken_percent ..) (fills_escape arguments progress rest)
      · have hrest := fills_escape arguments progress (rest.dropWhile (· ≠ '%'))
        have hrun := Fills.cons (fillToken_text (c :: rest.takeWhile (· ≠ '%'))) hrest
        rw [List.cons_append, List.takeWhile_append_dropWhile] at hrun
        rwa [escape_cons hc, scan, firstToken_text hc]
termination_by text.length
decreasing_by
  · exact Nat.lt_succ_self _
  · exact Nat.lt_succ_of_le (List.dropWhile_sublist _).length_le

/-- An escaped text stands for itself, whatever the arguments are. -/
theorem fill_escaped (text : String) (arguments : List Argument) :
    fill (escaped text) arguments = .ok text := by
  have hrun := fills_escape arguments .start text.toList
  rw [fill_eq_ok_iff, escaped, String.toList_ofList]
  exact ⟨_, hrun⟩

end Format

/-! ## Writing what was filled in and filled -/

open Template Format in
/-- A template may have every percent sign written twice before its result is
filled with arguments. If the object puts no percent sign into it, the text that
comes out is that of the template itself, whatever the arguments are: the
filling succeeds, and the same misses are noted and the same bytes are written
as when the template is filled in and nothing else. -/
theorem writeFilled_escaped {object : Fields} {template : String}
    (h : PutsNoPercent object template) (arguments : List Argument) :
    fill (render object (escaped template)) arguments = .ok (render object template) ∧
    (∀ sink, writeFilled object (escaped template) arguments sink
      = writeObject object template sink) ∧
    Writes (writeFilled object (escaped template) arguments)
      (utf8Bytes (render object template).toList) := by
  have hrendering := h.rendering_escaped
  have hfill : fill (render object (escaped template)) arguments
      = .ok (render object template) := by
    have hrender : render object (escaped template) = escaped (render object template) := by
      rw [render, render, hrendering, escaped, String.toList_ofList]
    rw [hrender, fill_escaped]
  have hwriter : writeFilled object (escaped template) arguments
      = writeObject object template := by
    rw [render, render, hrendering] at hfill
    unfold writeFilled writeObject
    simp only [hrendering, hfill, String.toList_ofList]
  refine ⟨hfill, fun sink => congrFun hwriter sink, ?_⟩
  rw [hwriter, render, String.toList_ofList]
  exact writes_writeObject object template

open Template Format in
/-- Digits, a letter and a placeholder right behind percent signs, one that stays
among them. -/
theorem writeFilled_percent_signs :
    let object := Fields.ofEntries [("n", some "5")]
    PutsNoPercent object "%%5d%${n}%<s%${m}" ∧
      fill (render object (escaped "%%5d%${n}%<s%${m}")) []
        = .ok (render object "%%5d%${n}%<s%${m}") := by
  intro object
  have hputs : PutsNoPercent object "%%5d%${n}%<s%${m}" := by
    unfold PutsNoPercent
    decide +kernel
  exact ⟨hputs, (writeFilled_escaped hputs []).1⟩

end MailMerge
