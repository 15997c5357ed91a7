import MailMerge.Format.Token
import MailMerge.Proofs.ByteCounts
import MailMerge.Proofs.Runs

/-!
# What stands behind a token

A scan cuts a format string from the left, and where it cuts depends on what
stands behind the cut: a text goes on to the next percent sign, and a percent
sign that nothing closes goes on as long as there are modifiers. A specifier
alone is closed by its own last character, whatever follows it.

This file says of each kind of token what may stand behind it
(`Token.EndsBefore`), and of a list of tokens that each of them may stand in
front of the next ones (`Scannable`). Scans are just these lists:
`scannable_scan` is one direction and `scan_flatMap_raw` the other. So to know
how a text is scanned that was cut off, extended or rewritten, it is enough to
look at the places where its tokens meet.
-/

namespace MailMerge.Format

/-- A token has the characters that its kind asks for. -/
def Token.Complete : Token → Prop
  | .specifier modifiers closing =>
    (∀ c ∈ modifiers, isModifier c = true) ∧ isClosing closing = true
  | .text content => content ≠ [] ∧ '%' ∉ content
  | .invalid modifiers => ∀ c ∈ modifiers, isModifier c = true

/-- A token ends where a text begins, because it cannot go on with it. -/
def Token.EndsBefore (rest : List Char) : Token → Prop
  | .specifier _ _ => True
  | .text _ => ∀ c ∈ rest.head?, c = '%'
  | .invalid _ => ∀ c ∈ rest.head?, isModifier c = false ∧ isClosing c = false

/-- Complete tokens, each of which ends where the next one begins. -/
def Scannable : List Token → Prop
  | [] => True
  | token :: rest =>
    token.Complete ∧ token.EndsBefore (rest.flatMap Token.raw) ∧ Scannable rest

/-! ## One token -/

theorem isModifier_of_isDigit {c : Char} (h : c.isDigit = true) : isModifier c = true := by
  unfold isModifier
  rw [h, Bool.true_or]

theorem not_isAlpha_of_isDigit {c : Char} (h : c.isDigit = true) : c.isAlpha = false := by
  rw [Bool.eq_false_iff]
  intro halpha
  unfold Char.isDigit at h
  unfold Char.isAlpha Char.isUpper Char.isLower at halpha
  simp only [Bool.or_eq_true, Bool.and_eq_true, decide_eq_true_eq] at h halpha
  rcases halpha with hupper | hlower
  · exact absurd (UInt32.le_trans hupper.1 h.2) (by decide)
  · exact absurd (UInt32.le_trans hlower.1 h.2) (by decide)

theorem not_isModifier_of_isClosing {c : Char} (h : isClosing c = true) :
    isModifier c = false := by
  have hclosing : c.isAlpha = true ∨ c = '%' := by simpa [isClosing] using h
  rcases hclosing with halpha | rfl
  · rw [Bool.eq_false_iff]
    intro hmodifier
    rcases Bool.or_eq_true_iff.mp hmodifier with hdigit | hmem
    · rw [not_isAlpha_of_isDigit hdigit] at halpha
      cases halpha
    · have hsigns : ("-#+ ,<$.".toList.all fun d => !d.isAlpha) = true := by decide
      have hsign := List.all_eq_true.mp hsigns c (List.contains_iff_mem.mp hmem)
      rw [halpha] at hsign
      cases hsign
  · rfl

theorem val_le_of_isModifier {c : Char} (h : isModifier c = true) : c.val ≤ 127 := by
  rcases Bool.or_eq_true_iff.mp h with hdigit | hsign
  · unfold Char.isDigit at hdigit
    rw [Bool.and_eq_true, decide_eq_true_eq, decide_eq_true_eq] at hdigit
    exact UInt32.le_trans hdigit.2 (by decide)
  · have hsigns : ("-#+ ,<$.".toList.all fun d => decide (d.val ≤ 127)) = true := by decide
    exact of_decide_eq_true (List.all_eq_true.mp hsigns c (List.contains_iff_mem.mp hsign))

theorem val_le_of_isClosing {c : Char} (h : isClosing c = true) : c.val ≤ 127 := by
  have hclosing : c.isAlpha = true ∨ c = '%' := by simpa [isClosing] using h
  rcases hclosing with halpha | rfl
  · unfold Char.isAlpha Char.isUpper Char.isLower at halpha
    simp only [Bool.or_eq_true, Bool.and_eq_true, decide_eq_true_eq] at halpha
    rcases halpha with hupper | hlower
    · exact UInt32.le_trans hupper.2 (by decide)
    · exact UInt32.le_trans hlower.2 (by decide)
  · decide

theorem isAscii_modifiers {modifiers : List Char} (h : ∀ c ∈ modifiers, isModifier c = true) :
    IsAscii ('%' :: modifiers) := by
  intro c hc
  rcases List.mem_cons.mp hc with rfl | hc
  · decide
  · exact val_le_of_isModifier (h c hc)

theorem isAscii_specifier {modifiers : List Char} {closing : Char}
    (h : (Token.specifier modifiers closing).Complete) :
    IsAscii ('%' :: modifiers ++ [closing]) := by
  refine (isAscii_modifiers h.1).append ?_
  intro c hc
  cases List.mem_singleton.mp hc
  exact val_le_of_isClosing h.2

theorem firstToken_specifier_append {modifiers : List Char} {closing : Char}
    (hmodifiers : ∀ c ∈ modifiers, isModifier c = true) (hclosing : isClosing closing = true)
    (rest : List Char) :
    firstToken '%' (modifiers ++ closing :: rest) = (.specifier modifiers closing, rest) := by
  have hstop : ∀ c ∈ (closing :: rest).head?, isModifier c = false := by
    intro c hc
    cases hc
    exact not_isModifier_of_isClosing hclosing
  rw [firstToken, if_pos rfl, takeWhile_append_of_head? hmodifiers hstop,
    dropWhile_append_of_head? hmodifiers hstop]
  exact if_pos hclosing

theorem firstToken_invalid_append {modifiers rest : List Char}
    (hmodifiers : ∀ c ∈ modifiers, isModifier c = true)
    (hrest : ∀ c ∈ rest.head?, isModifier c = false ∧ isClosing c = false) :
    firstToken '%' (modifiers ++ rest) = (.invalid modifiers, rest) := by
  have hstop : ∀ c ∈ rest.head?, isModifier c = false := fun c hc => (hrest c hc).1
  rw [firstToken, if_pos rfl, takeWhile_append_of_head? hmodifiers hstop,
    dropWhile_append_of_head? hmodifiers hstop]
  cases rest with
  | nil => rfl
  | cons c rest => exact if_neg (by rw [(hrest c rfl).2]; exact Bool.false_ne_true)

theorem firstToken_text_append {c : Char} {run rest : List Char} (hc : c ≠ '%')
    (hrun : '%' ∉ run) (hrest : ∀ d ∈ rest.head?, d = '%') :
    firstToken c (run ++ rest) = (.text (c :: run), rest) := by
  have hordinary : ∀ d ∈ run, decide (d ≠ '%') = true := by
    intro d hd
    exact decide_eq_true fun heq => hrun (heq ▸ hd)
  have hstop : ∀ d ∈ rest.head?, decide (d ≠ '%') = false := by
    intro d hd
    exact decide_eq_false fun hne => hne (hrest d hd)
  rw [firstToken, if_neg hc, takeWhile_append_of_head? hordinary hstop,
    dropWhile_append_of_head? hordinary hstop]

/-- A complete token is scanned off a text whose rest it ends before. -/
theorem scan_raw_append {token : Token} {rest : List Char} (hcomplete : token.Complete)
    (hends : token.EndsBefore rest) : scan (token.raw ++ rest) = token :: scan rest := by
  cases token with
  | specifier modifiers closing =>
      rw [Token.raw, List.append_assoc, List.cons_append, List.singleton_append, scan,
        firstToken_specifier_append hcomplete.1 hcomplete.2]
  | text content =>
      obtain ⟨c, run, rfl⟩ := List.exists_cons_of_ne_nil hcomplete.1
      have hc : c ≠ '%' := fun heq => hcomplete.2 (heq ▸ List.mem_cons_self)
      have hrun : '%' ∉ run := fun hmem => hcomplete.2 (List.mem_cons_of_mem c hmem)
      rw [Token.raw, List.cons_append, scan, firstToken_text_append hc hrun hends]
  | invalid modifiers =>
      rw [Token.raw, List.cons_append, scan, firstToken_invalid_append hcomplete hends]

/-- The first token of a text is complete and ends before what is left of it. -/
theorem complete_firstToken (c : Char) (rest : List Char) :
    (firstToken c rest).1.Complete ∧ (firstToken c rest).1.EndsBefore (firstToken c rest).2 := by
  have hmodifiers := all_takeWhile isModifier rest
  have hstop := not_head?_dropWhile isModifier rest
  unfold firstToken
  split
  · simp only []
    split
    · refine ⟨hmodifiers, ?_⟩
      intro d hd
      cases hd
    · next d after hdrop =>
        split
        · next hclosing => exact ⟨⟨hmodifiers, hclosing⟩, trivial⟩
        · next hclosing =>
            rw [hdrop] at hstop
            refine ⟨hmodifiers, ?_⟩
            intro e he
            cases he
            exact ⟨hstop d rfl, Bool.eq_false_iff.mpr hclosing⟩
  · next hc =>
      have hrun := all_takeWhile (fun d => decide (d ≠ '%')) rest
      have hrest := not_head?_dropWhile (fun d => decide (d ≠ '%')) rest
      refine ⟨⟨List.cons_ne_nil _ _, ?_⟩, ?_⟩
      · intro hmem
        rcases List.mem_cons.mp hmem with heq | hmem
        · exact hc heq.symm
        · exact of_decide_eq_true (hrun '%' hmem) rfl
      · intro d hd
        exact Classical.not_not.mp (of_decide_eq_false (hrest d hd))

/-! ## Lists of tokens -/

theorem scan_flatMap_raw {pieces : List Token} (h : Scannable pieces) :
    scan (pieces.flatMap Token.raw) = pieces := by
  induction pieces with
  | nil => rw [List.flatMap_nil, scan]
  | cons token pieces ih =>
      obtain ⟨hcomplete, hends, hrest⟩ := h
      rw [List.flatMap_cons, scan_raw_append hcomplete hends, ih hrest]

theorem scannable_scan (format : List Char) : Scannable (scan format) := by
  fun_induction scan format with
  | case1 => trivial
  | case2 c rest ih =>
      obtain ⟨hcomplete, hends⟩ := complete_firstToken c rest
      rw [← flatMap_raw_scan (firstToken c rest).2] at hends
      exact ⟨hcomplete, hends, ih⟩

theorem Token.EndsBefore.mono {token : Token} {rest rest' : List Char}
    (h : token.EndsBefore rest) (hhead : ∀ c ∈ rest'.head?, c ∈ rest.head?) :
    token.EndsBefore rest' := by
  cases token with
  | specifier modifiers closing => trivial
  | text content => exact fun c hc => h c (hhead c hc)
  | invalid modifiers => exact fun c hc => h c (hhead c hc)

/-- What stands behind tokens may be cut off, or something else put in its place
that begins with the same character. -/
theorem Scannable.append_mono {front back back' : List Token} (h : Scannable (front ++ back))
    (hback : Scannable back')
    (hhead : ∀ c ∈ (back'.flatMap Token.raw).head?, c ∈ (back.flatMap Token.raw).head?) :
    Scannable (front ++ back') := by
  induction front with
  | nil => exact hback
  | cons token front ih =>
      obtain ⟨hcomplete, hends, hrest⟩ := h
      refine ⟨hcomplete, hends.mono ?_, ih hrest⟩
      intro c hc
      change c ∈ ((front ++ back').flatMap Token.raw).head? at hc
      change c ∈ ((front ++ back).flatMap Token.raw).head?
      rw [List.flatMap_append, List.head?_append] at hc ⊢
      cases hfront : (front.flatMap Token.raw).head? with
      | none =>
          rw [hfront] at hc
          exact hhead c hc
      | some d => rwa [hfront] at hc

theorem Scannable.of_append_left {front back : List Token} (h : Scannable (front ++ back)) :
    Scannable front := by
  have hfront : Scannable (front ++ []) := h.append_mono trivial nofun
  rwa [List.append_nil] at hfront

theorem Scannable.of_append_right {front back : List Token} (h : Scannable (front ++ back)) :
    Scannable back := by
  induction front with
  | nil => exact h
  | cons token front ih => exact ih h.2.2

theorem Scannable.complete {pieces : List Token} (h : Scannable pieces) {token : Token}
    (hmem : token ∈ pieces) : token.Complete := by
  obtain ⟨front, back, rfl⟩ := List.append_of_mem hmem
  exact h.of_append_right.1

end MailMerge.Format
