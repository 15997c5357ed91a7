import MailMerge.Proofs.Occurrences
import MailMerge.Template.InPlace

/-!
# Editing in place is filling in token by token

The places of placeholders are found in the template once and for all, and the
edits go on in a copy that has changed in front of them. What keeps the two
together is told by `editedCopy`. When the edits have come as far as some token
of the template, the copy is what the tokens in front of it have become,
followed by the rest of the template as it was, and the count of lost bytes is
the difference between where the token stood and where it stands now. So a
corrected place is always the place of the token in the copy, whatever the
replacements were, and what was put in lies in front of every edit to come.

`fill?_editedCopy` is that step, `foldlM_fill?` the run, and
`renderInPlace_exact` what it comes to for a whole template.
-/

namespace MailMerge.Template

/-- The copy when the edits have come to a place of the template: the tokens in
front of it have become `before`, and `rest` is still as it was. -/
def editedCopy (start : Nat) (before : List Char) (rest : List Token)
    (events : List Event) : WorkingCopy :=
  ⟨before ++ rest.flatMap Token.raw, start - byteLength before, events⟩

/-- What a token comes to: a placeholder that the object has a text for gives
the text, and every other token itself. -/
def Token.filled (object : Fields) : Token → List Char
  | .placeholder name =>
    match object.value? (String.ofList name) with
    | some value => value.toList
    | none => (Token.placeholder name).raw
  | token => token.raw

theorem text_renderToken (object : Fields) (token : Token) :
    (renderToken object token).text = token.filled object := by
  cases token with
  | placeholder name =>
      simp only [renderToken, Token.filled, Fields.resolve]
      cases object.value? (String.ofList name) <;> rfl
  | dollar => rfl
  | text => rfl

theorem text_rendering (object : Fields) (template : String) :
    (rendering object template).text
      = (scan template.toList).flatMap (Token.filled object) := by
  unfold rendering
  simp only []
  rw [List.flatMap_map, funext (text_renderToken object)]

/-! ## One edit -/

/-- A token that stays as it is may be counted with what is done. -/
theorem editedCopy_cons_raw (start : Nat) (before : List Char) (token : Token)
    (rest : List Token) (events : List Event) :
    editedCopy start before (token :: rest) events
      = editedCopy (start + byteLength token.raw) (before ++ token.raw) rest events := by
  unfold editedCopy
  rw [List.flatMap_cons, ← List.append_assoc, byteLength_append]
  congr 1
  omega

theorem replaceSpan?_append (before middle after replacement : List Char) :
    replaceSpan? (before ++ (middle ++ after))
        ⟨byteLength before, byteLength before + byteLength middle⟩ replacement
      = some (before ++ replacement ++ after) := by
  have hslice : Span.slice? ⟨byteLength before, byteLength before + byteLength middle⟩
      (before ++ (middle ++ after)) = some middle :=
    slice?_eq_some_iff.mpr ⟨before, after, (List.append_assoc ..).symm, rfl, rfl⟩
  unfold replaceSpan?
  rw [hslice, takeBytes?_append, ← List.append_assoc, ← byteLength_append,
    dropBytes?_append]
  rfl

/-- A place of the template, corrected, is the place behind what the tokens in
front of it have become. -/
theorem moved?_editedCopy {start length : Nat} {before : List Char}
    {rest : List Token} {events : List Event} :
    (editedCopy start before rest events).moved? ⟨start, start + length⟩
      = some ⟨byteLength before, byteLength before + length⟩ := by
  unfold WorkingCopy.moved? editedCopy
  simp only []
  rw [if_pos (by omega)]
  congr 2 <;> omega

theorem slice?_editedCopy {start : Nat} {before : List Char} {token : Token}
    {rest : List Token} {events : List Event} :
    Span.slice? ⟨byteLength before, byteLength before + byteLength token.raw⟩
        (editedCopy start before (token :: rest) events).text
      = some token.raw := by
  rw [slice?_eq_some_iff]
  refine ⟨before, rest.flatMap Token.raw, ?_, rfl, rfl⟩
  rw [List.append_assoc]
  rfl

theorem replace?_editedCopy {start : Nat} {before value name : List Char}
    {p : Placeholder} {rest : List Token} {events : List Event}
    (hraw : p.raw = (Token.placeholder name).raw)
    (hspan : p.span = ⟨start, start + byteLength (Token.placeholder name).raw⟩) :
    (editedCopy start before (.placeholder name :: rest) events).replace? p value
      = some (editedCopy (start + byteLength (Token.placeholder name).raw)
          (before ++ value) rest events) := by
  have hreplace : replaceSpan?
      (editedCopy start before (.placeholder name :: rest) events).text
      ⟨byteLength before, byteLength before + byteLength (Token.placeholder name).raw⟩ value
      = some (before ++ value ++ rest.flatMap Token.raw) := replaceSpan?_append ..
  -- The count of lost bytes is again the way from the old place to the new one.
  have hshrunk : (start : Int) - byteLength before + byteLength p.raw - byteLength value
      = ((start + byteLength (Token.placeholder name).raw : Nat) : Int)
        - byteLength (before ++ value) := by
    rw [byteLength_append, hraw]
    omega
  unfold WorkingCopy.replace?
  rw [hspan, moved?_editedCopy]
  simp only [Option.bind_eq_bind, Option.bind_some, hreplace]
  exact congrArg (fun shrunk =>
    some (WorkingCopy.mk (before ++ value ++ rest.flatMap Token.raw) shrunk events)) hshrunk

/-- One edit takes the copy from one token of the template to the next. -/
theorem fill?_editedCopy (object : Fields) {start : Nat} {before name : List Char}
    {p : Placeholder} {rest : List Token} {events : List Event}
    (hname : p.name = String.ofList name)
    (hspan : p.span = ⟨start, start + byteLength (Token.placeholder name).raw⟩) :
    (editedCopy start before (.placeholder name :: rest) events).fill? object p
      = some (editedCopy (start + byteLength (Token.placeholder name).raw)
          (before ++ (Token.placeholder name).filled object) rest
          (events ++ (renderToken object (.placeholder name)).events)) := by
  have hraw : p.raw = (Token.placeholder name).raw := by
    rw [Placeholder.raw, hname, String.toList_ofList]
  simp only [WorkingCopy.fill?, renderToken, Token.filled, Fields.resolve, hname]
  cases object.value? (String.ofList name) with
  | some value => exact replace?_editedCopy hraw hspan
  | none => exact congrArg some (editedCopy_cons_raw ..)

/-! ## The run -/

/-- The placeholders among tokens that are laid out from a place. -/
def placeholdersFrom (start : Nat) (pieces : List Token) : List Placeholder :=
  (layOut (fun token => byteLength token.raw) start pieces).filterMap Placeholder.ofToken?

theorem placeholdersFrom_placeholder (start : Nat) (name : List Char)
    (pieces : List Token) :
    placeholdersFrom start (.placeholder name :: pieces)
      = ⟨⟨start, start + byteLength (Token.placeholder name).raw⟩, String.ofList name⟩
        :: placeholdersFrom (start + byteLength (Token.placeholder name).raw) pieces := rfl

/-- The edits for the first tokens of a template, with the others behind them. -/
theorem foldlM_fill? (object : Fields) (front rest : List Token) :
    ∀ (start : Nat) (before : List Char) (events : List Event),
      (placeholdersFrom start front).foldlM (WorkingCopy.fill? object)
          (editedCopy start before (front ++ rest) events)
        = some (editedCopy (start + byteLength (front.flatMap Token.raw))
            (before ++ front.flatMap (Token.filled object)) rest
            (events ++ (front.map (renderToken object)).flatMap Rendering.events)) := by
  induction front with
  | nil =>
      intro start before events
      simp [placeholdersFrom, layOut]
  | cons token front ih =>
      intro start before events
      rw [List.flatMap_cons, List.flatMap_cons, List.map_cons, List.flatMap_cons,
        byteLength_append, ← List.append_assoc, ← List.append_assoc, ← Nat.add_assoc]
      cases token with
      | placeholder name =>
          rw [placeholdersFrom_placeholder, List.foldlM_cons, List.cons_append,
            fill?_editedCopy object rfl rfl]
          exact ih ..
      | dollar | text =>
          rw [List.cons_append, editedCopy_cons_raw]
          simp only [renderToken, List.append_nil]
          exact ih ..

/-- A placeholder of a template is one of its tokens: the placeholders in front
of it are those of the tokens in front. -/
theorem exists_of_placeholdersFrom_eq_append {start : Nat} {pieces : List Token}
    {front back : List Placeholder} {p : Placeholder}
    (h : placeholdersFrom start pieces = front ++ p :: back) :
    ∃ done name rest, pieces = done ++ .placeholder name :: rest ∧
      placeholdersFrom start done = front ∧ p.name = String.ofList name ∧
      p.span = ⟨start + byteLength (done.flatMap Token.raw),
        start + byteLength (done.flatMap Token.raw)
          + byteLength (Token.placeholder name).raw⟩ := by
  induction pieces generalizing start front with
  | nil => exact absurd h.symm (by simp [placeholdersFrom, layOut])
  | cons token pieces ih =>
      cases token with
      | placeholder name =>
          rw [placeholdersFrom_placeholder] at h
          cases front with
          | nil =>
              obtain ⟨rfl, _⟩ := List.cons.inj h
              exact ⟨[], name, pieces, rfl, rfl, rfl, rfl⟩
          | cons q front =>
              obtain ⟨rfl, htail⟩ := List.cons.inj h
              obtain ⟨done, name', rest, rfl, rfl, hname, hspan⟩ := ih htail
              refine ⟨.placeholder name :: done, name', rest, rfl, rfl, hname, ?_⟩
              rw [hspan, List.flatMap_cons, byteLength_append, Nat.add_assoc start]
      | dollar | text =>
          obtain ⟨done, name, rest, rfl, rfl, hname, hspan⟩ := ih h
          refine ⟨_ :: done, name, rest, rfl, rfl, hname, ?_⟩
          rw [hspan, List.flatMap_cons, byteLength_append, Nat.add_assoc start]

/-- Editing a copy of the template in place comes to what filling it in token by
token comes to, and what is put in is never looked at again. When the turn of a
placeholder comes, its corrected place is a place of the copy, on character
boundaries, and the copy has there just the placeholder. -/
theorem renderInPlace_exact (object : Fields) (template : String) :
    renderInPlace? object template = some (rendering object template) ∧
    (render object template).toList
      = (scan template.toList).flatMap (Token.filled object) ∧
    ∀ front p back, placeholders template = front ++ p :: back →
      ∃ copy span,
        front.foldlM (WorkingCopy.fill? object) (.ofTemplate template) = some copy ∧
        copy.moved? p.span = some span ∧ span.slice? copy.text = some p.raw := by
  have hstart : WorkingCopy.ofTemplate template
      = editedCopy 0 [] (scan template.toList) [] := by
    unfold WorkingCopy.ofTemplate editedCopy
    rw [flatMap_raw_scan]
    rfl
  refine ⟨?_, ?_, ?_⟩
  · have hrun := foldlM_fill? object (scan template.toList) [] 0 [] []
    rw [List.append_nil, ← hstart] at hrun
    unfold renderInPlace?
    rw [show placeholders template = placeholdersFrom 0 (scan template.toList) from rfl,
      hrun]
    refine congrArg some (congrArg (Rendering.mk · _) ?_)
    rw [← text_rendering]
    exact List.append_nil _
  · unfold render
    rw [String.toList_ofList, text_rendering]
  · intro front p back hsplit
    obtain ⟨done, name, rest, hscan, rfl, hname, hspan⟩ :=
      exists_of_placeholdersFrom_eq_append hsplit
    have hraw : p.raw = (Token.placeholder name).raw := by
      rw [Placeholder.raw, hname, String.toList_ofList]
    have hrun := foldlM_fill? object done (.placeholder name :: rest) 0 [] []
    rw [← hscan, ← hstart] at hrun
    rw [hspan, hraw]
    exact ⟨_, _, hrun, moved?_editedCopy, slice?_editedCopy⟩

end MailMerge.Template
