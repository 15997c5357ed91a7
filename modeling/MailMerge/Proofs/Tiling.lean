import MailMerge.Proofs.Occurrences
import MailMerge.Proofs.Scanning

/-!
# Tokens cover their text

Both scanners lay their tokens out from the first byte on, so that the places of
the tokens are contiguous is no more than a fact about `layOut`. What has to be
shown of a scanner is that no token is empty, that the tokens make up the text,
and that each of them is of its kind, which is a matter of what stands behind it
as well: a run of text must not end early, and a piece that was given up must
have been given up where nothing could go on with it.

`FallsInto` puts the four together for any kind of pieces, and `fallsInto_layOut`
gets the ones about places from the others. For format strings the kinds are
`Token.Complete` and `Token.EndsBefore`, read as classes of characters; for
templates they are found out here, by the cases of `Template.firstToken`.
-/

namespace MailMerge

/-- Spans that follow one another as far as `stop`, none of them empty; the first
one begins at the given offset. -/
def Tiles (stop : Nat) : Nat → List Span → Prop
  | start, [] => start = stop
  | start, span :: rest => span.start = start ∧ start < span.stop ∧ Tiles stop span.stop rest

/-- A text falls into pieces with their places. What kind of piece may stand in
front of what is given by `kind`. -/
structure FallsInto {α : Type} (raw : α → List Char) (kind : List Char → α → Prop)
    (text : List Char) (pieces : List (Span × α)) : Prop where
  tiles : Tiles (byteLength text) 0 (pieces.map Prod.fst)
  slices : ∀ piece ∈ pieces, piece.1.slice? text = some (raw piece.2)
  whole : pieces.flatMap (fun piece => raw piece.2) = text
  kinds : ∀ piece ∈ pieces, ∃ behind, dropBytes? piece.1.stop text = some behind ∧
    kind behind piece.2

/-! ## Pieces laid end to end -/

section

variable {α : Type} {raw : α → List Char} {kind : List Char → α → Prop} {pieces : List α}

theorem tiles_layOut (h : ∀ piece ∈ pieces, raw piece ≠ []) (start : Nat) :
    Tiles (start + byteLength (pieces.flatMap raw)) start
      ((layOut (fun piece => byteLength (raw piece)) start pieces).map Prod.fst) := by
  induction pieces generalizing start with
  | nil => rfl
  | cons piece rest ih =>
      have hpos := byteLength_pos (h piece List.mem_cons_self)
      have hrest := ih (fun p hp => h p (List.mem_cons_of_mem _ hp))
        (start + byteLength (raw piece))
      rw [List.flatMap_cons, byteLength_append, ← Nat.add_assoc]
      exact ⟨rfl, by show start < start + byteLength (raw piece); omega, hrest⟩

/-- Pieces that are not empty and of their kinds, laid end to end, are what the
text that they make up falls into. -/
theorem fallsInto_layOut (hne : ∀ piece ∈ pieces, raw piece ≠ [])
    (hkind : ∀ front piece back, pieces = front ++ piece :: back →
      kind (back.flatMap raw) piece) :
    FallsInto raw kind (pieces.flatMap raw)
      (layOut (fun piece => byteLength (raw piece)) 0 pieces) where
  tiles := by simpa using tiles_layOut hne 0
  slices piece hmem := (slice?_of_mem_layOut hmem).2
  whole := by
    rw [← List.flatMap_map, map_snd_layOut]
  kinds := by
    intro piece hmem
    obtain ⟨front, back, hpieces, hstart, hstop⟩ := mem_layOut_iff.mp hmem
    refine ⟨back.flatMap raw, ?_, hkind front piece.2 back hpieces⟩
    have hbytes : piece.1.stop = byteLength (front.flatMap raw ++ raw piece.2) := by
      rw [hstop, hstart, byteLength_append]
      omega
    rw [hbytes, hpieces, List.flatMap_append, List.flatMap_cons, ← List.append_assoc]
    exact dropBytes?_append ..

end

/-! ## Format strings -/

namespace Format

/-- The characters `-#+ 0-9,<$.`. -/
def ModifierCharacter (c : Char) : Prop :=
  ('0' ≤ c ∧ c ≤ '9') ∨ c ∈ ['-', '#', '+', ' ', ',', '<', '$', '.']

/-- The letters of ASCII, and the percent sign. -/
def ClosingCharacter (c : Char) : Prop :=
  ('A' ≤ c ∧ c ≤ 'Z') ∨ ('a' ≤ c ∧ c ≤ 'z') ∨ c = '%'

/-- A token is of its kind: a text goes on to the next percent sign, a specifier
is `%[-#+ 0-9,<$.]*[a-zA-Z%]`, and an invalid token has all the modifiers that
there are behind its percent sign, and nothing that would close it. -/
def Token.OfKind (behind : List Char) : Token → Prop
  | .specifier modifiers closing =>
    (∀ c ∈ modifiers, ModifierCharacter c) ∧ ClosingCharacter closing
  | .text content => '%' ∉ content ∧ ∀ c ∈ behind.head?, c = '%'
  | .invalid modifiers =>
    (∀ c ∈ modifiers, ModifierCharacter c) ∧
      ∀ c ∈ behind.head?, ¬ModifierCharacter c ∧ ¬ClosingCharacter c

theorem isModifier_iff {c : Char} : isModifier c = true ↔ ModifierCharacter c := by
  have hsigns : "-#+ ,<$.".toList = ['-', '#', '+', ' ', ',', '<', '$', '.'] := by decide
  unfold isModifier ModifierCharacter Char.isDigit
  rw [hsigns, Bool.or_eq_true, Bool.and_eq_true, decide_eq_true_eq, decide_eq_true_eq,
    List.contains_iff_mem]
  rfl

theorem isClosing_iff {c : Char} : isClosing c = true ↔ ClosingCharacter c := by
  unfold isClosing ClosingCharacter Char.isAlpha Char.isUpper Char.isLower
  simp only [Bool.or_eq_true, Bool.and_eq_true, decide_eq_true_eq, beq_iff_eq, or_assoc]
  rfl

theorem Token.raw_ne_nil {token : Token} (h : token.Complete) : token.raw ≠ [] := by
  cases token with
  | text content => exact h.1
  | specifier modifiers closing => exact List.cons_ne_nil _ _
  | invalid modifiers => exact List.cons_ne_nil _ _

theorem Token.ofKind {token : Token} {behind : List Char} (h : token.Complete)
    (hends : token.EndsBefore behind) : token.OfKind behind := by
  cases token with
  | specifier modifiers closing =>
      exact ⟨fun c hc => isModifier_iff.mp (h.1 c hc), isClosing_iff.mp h.2⟩
  | text content => exact ⟨h.2, hends⟩
  | invalid modifiers =>
      refine ⟨fun c hc => isModifier_iff.mp (h c hc), ?_⟩
      intro c hc
      obtain ⟨hmodifier, hclosing⟩ := hends c hc
      rw [← isModifier_iff, ← isClosing_iff, hmodifier, hclosing]
      simp

end Format

/-! ## Templates -/

namespace Template

/-- A token is of its kind: a placeholder has a name, no brace stands behind a
dollar sign, and a text goes on to the next dollar sign, unless it is an
unfinished placeholder, which has all the characters of a name that there are and
is not closed. -/
def Token.OfKind (behind : List Char) : Token → Prop
  | .placeholder name => ∀ c ∈ name, NameCharacter c
  | .dollar => behind.head? ≠ some '{'
  | .text content =>
    ('$' ∉ content ∧ ∀ c ∈ behind.head?, c = '$') ∨
      ∃ name, content = '$' :: '{' :: name ∧ (∀ c ∈ name, NameCharacter c) ∧
        ∀ c ∈ behind.head?, ¬NameCharacter c ∧ c ≠ '}'

theorem ofKind_firstToken (c : Char) (rest : List Char) :
    (firstToken c rest).1.OfKind (firstToken c rest).2 := by
  unfold firstToken
  split
  · split
    · next inner =>
        have hname : ∀ d ∈ inner.takeWhile isNameChar, NameCharacter d :=
          fun d hd => isNameChar_iff.mp (all_takeWhile isNameChar inner d hd)
        have hstop := not_head?_dropWhile isNameChar inner
        split
        · exact hname
        · next hopen =>
            have hunclosed : (inner.dropWhile isNameChar).head? ≠ some '}' := by
              intro hhead
              obtain ⟨after, hdrop⟩ := List.head?_eq_some_iff.mp hhead
              exact hopen after hdrop
            refine .inr ⟨_, rfl, hname, ?_⟩
            intro d hd
            constructor
            · rw [← isNameChar_iff, hstop d hd]
              simp
            · intro hclosing
              exact hunclosed (hclosing ▸ hd)
    · next hbrace =>
        intro hhead
        obtain ⟨inner, rfl⟩ := List.head?_eq_some_iff.mp hhead
        exact hbrace inner rfl
  · next hc =>
      left
      refine ⟨?_, ?_⟩
      · intro hmem
        rcases List.mem_cons.mp hmem with heq | hmem
        · exact hc heq.symm
        · exact of_decide_eq_true (all_takeWhile (fun d => decide (d ≠ '$')) rest _ hmem) rfl
      · intro d hd
        exact Classical.not_not.mp
          (of_decide_eq_false (not_head?_dropWhile (fun d => decide (d ≠ '$')) rest d hd))

theorem ofKind_scan {template : List Char} {front back : List Token} {token : Token}
    (h : scan template = front ++ token :: back) :
    token.raw ≠ [] ∧ token.OfKind (back.flatMap Token.raw) := by
  fun_induction scan template generalizing front with
  | case1 => simp at h
  | case2 c rest ih =>
      cases front with
      | nil =>
          obtain ⟨rfl, rfl⟩ := List.cons.inj h
          rw [flatMap_raw_scan]
          exact ⟨raw_firstToken_ne_nil c rest, ofKind_firstToken c rest⟩
      | cons first front => exact ih (List.cons.inj h).2

end Template

/-- Both scanners cut every text into tokens that cover it: from the first byte to
the last, one behind the other, none of them empty, and each one the characters
that the text has at its place. So nothing of the text is lost, and nothing is cut
in the middle of a character. And each token is of its kind, with regard to what
the text has behind it. -/
theorem tokens_tile :
    (∀ template : String, FallsInto Template.Token.raw Template.Token.OfKind template.toList
      (Template.tokens template)) ∧
    ∀ format : String, FallsInto Format.Token.raw Format.Token.OfKind format.toList
      (Format.tokens format) := by
  constructor
  · intro template
    have hne : ∀ token ∈ Template.scan template.toList, token.raw ≠ [] := by
      intro token hmem
      obtain ⟨front, back, hscan⟩ := List.append_of_mem hmem
      exact (Template.ofKind_scan hscan).1
    have hfalls := fallsInto_layOut hne fun _ _ _ hscan => (Template.ofKind_scan hscan).2
    rwa [Template.flatMap_raw_scan] at hfalls
  · intro format
    have hscannable := Format.scannable_scan format.toList
    have hne : ∀ token ∈ Format.scan format.toList, token.raw ≠ [] := by
      intro token hmem
      obtain ⟨front, back, hscan⟩ := List.append_of_mem hmem
      rw [hscan] at hscannable
      exact Format.Token.raw_ne_nil hscannable.of_append_right.1
    have hkind : ∀ front token back, Format.scan format.toList = front ++ token :: back →
        token.OfKind (back.flatMap Format.Token.raw) := by
      intro front token back hscan
      rw [hscan] at hscannable
      obtain ⟨hcomplete, hends, -⟩ := hscannable.of_append_right
      exact Format.Token.ofKind hcomplete hends
    have hfalls := fallsInto_layOut hne hkind
    rwa [Format.flatMap_raw_scan] at hfalls

end MailMerge
