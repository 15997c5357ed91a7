import MailMerge.Proofs.Splicing

/-!
# What a template comes to

`ComesTo` reads a template without cutting it into tokens first. From the left,
a placeholder gives the object's text or stays, and a character that begins no
placeholder stands for itself. Next to the text that comes out, it tells the
placeholders that stay, with their places in the template.

A template comes to one thing only (`ComesTo.unique`), and of two templates put
together each comes to what it comes to alone, unless a placeholder arises
across the seam (`ComesTo.append`). Of the scanner neither is obvious, because
what stands behind a seam may go on with a token in front of it.

The scanner enters once. Only the first character of a token can be a dollar
sign, so no placeholder begins inside of a token, and `comesTo_rendering` follows:
filling in comes to this text, and the placeholders found to have no text are
those that stay. The log has nothing to do with the text that comes out, but its
entries are made at the same tokens, so it tells the same placeholders once more
(`events_rendering`).
-/

namespace MailMerge.Template

/-- No placeholder stands at the beginning of a text. -/
def NoneAhead (text : List Char) : Prop :=
  ∀ front back, text = front ++ back → ¬IsPlaceholder front

/-- What a template comes to, from the byte `start` of a longer one on: its text,
and the placeholders in it that stay. -/
inductive ComesTo (object : Fields) :
    Nat → List Char → List Char → List Placeholder → Prop
  | nothing (start : Nat) : ComesTo object start [] [] []
  | replaced {start : Nat} {p : Placeholder} {value : String} {rest text : List Char}
      {staying : List Placeholder} (shape : IsPlaceholder p.raw)
      (place : p.span = ⟨start, start + byteLength p.raw⟩)
      (found : object.value? p.name = some value)
      (tail : ComesTo object (start + byteLength p.raw) rest text staying) :
      ComesTo object start (p.raw ++ rest) (value.toList ++ text) staying
  | stays {start : Nat} {p : Placeholder} {rest text : List Char}
      {staying : List Placeholder} (shape : IsPlaceholder p.raw)
      (place : p.span = ⟨start, start + byteLength p.raw⟩)
      (missed : object.value? p.name = none)
      (tail : ComesTo object (start + byteLength p.raw) rest text staying) :
      ComesTo object start (p.raw ++ rest) (p.raw ++ text) (p :: staying)
  | character {start : Nat} {c : Char} {rest text : List Char} {staying : List Placeholder}
      (ordinary : NoneAhead (c :: rest))
      (tail : ComesTo object (start + c.utf8Size) rest text staying) :
      ComesTo object start (c :: rest) (c :: text) staying

variable {object : Fields} {start : Nat} {template rest text : List Char}
  {staying : List Placeholder}

/-! ## Placeholders at the beginning of a text -/

theorem IsPlaceholder.ne_nil {text : List Char} (h : IsPlaceholder text) : text ≠ [] := by
  obtain ⟨name, rfl, -⟩ := h
  exact List.cons_ne_nil _ _

/-- A text begins with one placeholder at most. -/
theorem IsPlaceholder.append_inj {a a' b b' : List Char} (h : IsPlaceholder a)
    (h' : IsPlaceholder a') (heq : a ++ b = a' ++ b') : a = a' ∧ b = b' := by
  obtain ⟨name, rfl, hname⟩ := h
  obtain ⟨name', rfl, hname'⟩ := h'
  have hstop : ∀ {after : List Char}, ∀ c ∈ ('}' :: after).head?, isNameChar c = false := by
    intro after c hc
    cases hc
    exact not_isNameChar_closing
  simp only [List.cons_append, List.append_assoc, List.cons.injEq, true_and, List.nil_append]
    at heq
  obtain ⟨rfl, hrest⟩ := append_inj_of_head? (fun c hc => isNameChar_iff.mpr (hname c hc))
    (fun c hc => isNameChar_iff.mpr (hname' c hc)) hstop hstop heq
  exact ⟨rfl, (List.cons.inj hrest).2⟩

/-- A placeholder is known by its text and its place. -/
theorem Placeholder.eq_of_raw_eq {p q : Placeholder} (hraw : p.raw = q.raw)
    (hspan : p.span = q.span) : p = q := by
  obtain ⟨span, name⟩ := p
  obtain ⟨span', name'⟩ := q
  simp only [Placeholder.raw, Token.raw, List.cons.injEq, true_and, List.cons_append,
    List.append_cancel_right_eq] at hraw
  rw [String.ext hraw, show span = span' from hspan]

theorem noneAhead_of_ne_dollar {c : Char} (hc : c ≠ '$') : NoneAhead (c :: rest) := by
  rintro front back hsplit ⟨name, rfl, -⟩
  exact hc (List.cons.inj hsplit).1

/-- What begins a token that is no placeholder begins no placeholder. -/
theorem noneAhead_of_firstToken {c : Char}
    (h : ∀ name, (firstToken c rest).1 ≠ .placeholder name) : NoneAhead (c :: rest) := by
  rintro front back hsplit ⟨name, rfl, hname⟩
  simp only [List.cons_append, List.append_assoc, List.nil_append] at hsplit
  obtain ⟨rfl, rfl⟩ := List.cons.inj hsplit
  have hfirst : firstToken '$' ('{' :: (name ++ '}' :: back)) = (.placeholder name, back) :=
    firstToken_placeholder fun c hc => isNameChar_iff.mpr (hname c hc)
  exact h name (congrArg Prod.fst hfirst)

/-! ## A template comes to one thing -/

theorem ComesTo.of_nil (h : ComesTo object start [] text staying) :
    text = [] ∧ staying = [] := by
  generalize htemplate : ([] : List Char) = template at h
  cases h with
  | nothing => exact ⟨rfl, rfl⟩
  | replaced shape => exact absurd (List.append_eq_nil_iff.mp htemplate.symm).1 shape.ne_nil
  | stays shape => exact absurd (List.append_eq_nil_iff.mp htemplate.symm).1 shape.ne_nil
  | character => cases htemplate

/-- What comes of a template that begins with a placeholder. -/
theorem ComesTo.of_placeholder {p : Placeholder} (hshape : IsPlaceholder p.raw)
    (hplace : p.span = ⟨start, start + byteLength p.raw⟩)
    (h : ComesTo object start (p.raw ++ rest) text staying) :
    (∃ value others, object.value? p.name = some value ∧ text = value.toList ++ others ∧
      ComesTo object (start + byteLength p.raw) rest others staying) ∨
    ∃ others more, object.value? p.name = none ∧ text = p.raw ++ others ∧
      staying = p :: more ∧ ComesTo object (start + byteLength p.raw) rest others more := by
  generalize htemplate : p.raw ++ rest = template at h
  cases h with
  | nothing => exact absurd (List.append_eq_nil_iff.mp htemplate).1 hshape.ne_nil
  | @replaced q _ _ _ _ _ shape place found tail =>
      obtain ⟨hraw, rfl⟩ := hshape.append_inj shape htemplate
      obtain rfl := Placeholder.eq_of_raw_eq hraw (by rw [hplace, place, hraw])
      exact .inl ⟨_, _, found, rfl, tail⟩
  | stays shape place missed tail =>
      obtain ⟨hraw, rfl⟩ := hshape.append_inj shape htemplate
      obtain rfl := Placeholder.eq_of_raw_eq hraw (by rw [hplace, place, hraw])
      exact .inr ⟨_, _, missed, rfl, rfl, tail⟩
  | character ordinary => exact absurd hshape (ordinary _ _ htemplate.symm)

theorem ComesTo.of_character {c : Char} (hordinary : NoneAhead (c :: rest))
    (h : ComesTo object start (c :: rest) text staying) :
    ∃ others, text = c :: others ∧
      ComesTo object (start + c.utf8Size) rest others staying := by
  generalize htemplate : c :: rest = template at h
  cases h with
  | nothing => cases htemplate
  | replaced shape => exact absurd shape (hordinary _ _ htemplate)
  | stays shape => exact absurd shape (hordinary _ _ htemplate)
  | character ordinary tail =>
      obtain ⟨rfl, rfl⟩ := List.cons.inj htemplate
      exact ⟨_, rfl, tail⟩

theorem ComesTo.unique {text' : List Char} {staying' : List Placeholder}
    (h : ComesTo object start template text staying)
    (h' : ComesTo object start template text' staying') :
    text = text' ∧ staying = staying' := by
  induction h generalizing text' staying' with
  | nothing start =>
      obtain ⟨rfl, rfl⟩ := h'.of_nil
      exact ⟨rfl, rfl⟩
  | replaced shape place found tail ih =>
      rcases h'.of_placeholder shape place with
        ⟨value, others, found', rfl, tail'⟩ | ⟨_, _, missed, _⟩
      · rw [found] at found'
        cases found'
        obtain ⟨rfl, rfl⟩ := ih tail'
        exact ⟨rfl, rfl⟩
      · rw [found] at missed
        cases missed
  | stays shape place missed tail ih =>
      rcases h'.of_placeholder shape place with
        ⟨_, _, found, _⟩ | ⟨others, more, _, rfl, rfl, tail'⟩
      · rw [missed] at found
        cases found
      · obtain ⟨rfl, rfl⟩ := ih tail'
        exact ⟨rfl, rfl⟩
  | character ordinary tail ih =>
      obtain ⟨others, rfl, tail'⟩ := h'.of_character ordinary
      obtain ⟨rfl, rfl⟩ := ih tail'
      exact ⟨rfl, rfl⟩

/-! ## Templates put together -/

/-- A placeholder of two templates put together begins in the first one and ends
in the second one. -/
def Straddled (first second : List Char) : Prop :=
  ∃ before piece after, first ++ second = before ++ piece ++ after ∧ IsPlaceholder piece ∧
    before.length < first.length ∧ first.length < before.length + piece.length

theorem Straddled.append_left {first second : List Char} (h : Straddled first second)
    (front : List Char) : Straddled (front ++ first) second := by
  obtain ⟨before, piece, after, hsplit, hshape, hbefore, hpiece⟩ := h
  refine ⟨front ++ before, piece, after, ?_, hshape, ?_, ?_⟩
  · rw [List.append_assoc front, hsplit, List.append_assoc, List.append_assoc,
      List.append_assoc]
  · rw [List.length_append, List.length_append]
    omega
  · rw [List.length_append, List.length_append]
    omega

/-- A placeholder across a seam has its closing brace behind it. -/
theorem Straddled.closing_mem {first second : List Char} (h : Straddled first second) :
    '}' ∈ second := by
  obtain ⟨before, piece, after, hsplit, ⟨name, rfl, -⟩, -, hpiece⟩ := h
  have hcut : first ++ second = (before ++ '$' :: '{' :: name) ++ '}' :: after := by
    simpa using hsplit
  -- The cut in front of the brace is not behind the seam.
  rcases List.append_eq_append_iff.mp hcut with ⟨beyond, -, rfl⟩ | ⟨between, hfirst, hsecond⟩
  · exact List.mem_append_right _ (List.mem_cons_self ..)
  · cases between with
    | nil =>
        rw [List.nil_append] at hsecond
        exact hsecond ▸ List.mem_cons_self ..
    | cons c between =>
        simp only [hfirst, List.length_append, List.length_cons, List.length_nil] at hpiece
        omega

/-- What stands behind a seam completes no placeholder, if none lies across. -/
theorem NoneAhead.append {c : Char} {second : List Char} (h : NoneAhead (c :: rest))
    (hseam : ¬Straddled (c :: rest) second) : NoneAhead (c :: rest ++ second) := by
  intro front back hsplit hshape
  rcases List.append_eq_append_iff.mp hsplit with ⟨beyond, hfront, -⟩ | ⟨between, hfirst, -⟩
  · cases beyond with
    | nil =>
        rw [List.append_nil] at hfront
        exact h front [] (by rw [List.append_nil, hfront]) hshape
    | cons d beyond =>
        refine hseam ⟨[], front, back, hsplit, hshape, Nat.succ_pos _, ?_⟩
        simp only [hfront, List.length_append, List.length_cons, List.length_nil]
        omega
  · exact h front between hfirst hshape

/-- Two templates put together come to what they come to each, if no placeholder
lies across the seam. -/
theorem ComesTo.append {first second text' : List Char} {staying' : List Placeholder}
    (h : ComesTo object start first text staying)
    (h' : ComesTo object (start + byteLength first) second text' staying')
    (hseam : ¬Straddled first second) :
    ComesTo object start (first ++ second) (text ++ text') (staying ++ staying') := by
  induction h with
  | nothing start => exact h'
  | replaced shape place found tail ih =>
      rw [byteLength_append, ← Nat.add_assoc] at h'
      rw [List.append_assoc, List.append_assoc]
      exact .replaced shape place found (ih h' fun hlies => hseam (hlies.append_left _))
  | stays shape place missed tail ih =>
      rw [byteLength_append, ← Nat.add_assoc] at h'
      rw [List.append_assoc, List.append_assoc, List.cons_append]
      exact .stays shape place missed (ih h' fun hlies => hseam (hlies.append_left _))
  | @character _ c _ _ _ ordinary tail ih =>
      rw [byteLength_cons, ← Nat.add_assoc] at h'
      exact .character (ordinary.append hseam)
        (ih h' fun hlies => hseam (hlies.append_left [c]))

/-! ## Filling in -/

/-- A run of characters without a dollar sign stands for itself. -/
theorem ComesTo.run {run : List Char} (hrun : '$' ∉ run)
    (h : ComesTo object (start + byteLength run) rest text staying) :
    ComesTo object start (run ++ rest) (run ++ text) staying := by
  induction run generalizing start with
  | nil => exact h
  | cons c run ih =>
      have hc : c ≠ '$' := (List.ne_of_not_mem_cons hrun).symm
      rw [byteLength_cons, ← Nat.add_assoc] at h
      exact .character (noneAhead_of_ne_dollar hc) (ih (List.not_mem_of_not_mem_cons hrun) h)

/-- A token at the beginning of a text that is no placeholder stands for
itself. -/
theorem ComesTo.of_firstToken {c : Char} {after : List Char}
    (hplain : ∀ name, (firstToken c rest).1 ≠ .placeholder name)
    (h : ComesTo object (start + byteLength (firstToken c rest).1.raw) (firstToken c rest).2
      after staying) :
    ComesTo object start (c :: rest) ((firstToken c rest).1.raw ++ after) staying := by
  have hnone := noneAhead_of_firstToken hplain
  have hsplit := raw_firstToken_append c rest
  have hne := raw_firstToken_ne_nil c rest
  have htail := dollar_not_mem_tail_raw c rest
  clear hplain
  generalize firstToken c rest = first at *
  cases hraw : first.1.raw with
  | nil => exact absurd hraw hne
  | cons d run =>
      -- Only the first character can be a dollar sign; the others are a run.
      rw [hraw] at hsplit htail h
      obtain ⟨rfl, rfl⟩ := List.cons.inj hsplit
      rw [byteLength_cons, ← Nat.add_assoc] at h
      exact .character hnone (h.run htail)

/-- A placeholder at the beginning of a text is replaced or stays. -/
theorem ComesTo.of_name {name : List Char} (hname : ∀ c ∈ name, isNameChar c = true)
    (h : ComesTo object (start + byteLength (Token.placeholder name).raw) rest text staying) :
    ComesTo object start ((Token.placeholder name).raw ++ rest)
      ((Token.placeholder name).filled object ++ text)
      (([⟨⟨start, start + byteLength (Token.placeholder name).raw⟩, String.ofList name⟩].filter
        fun p => (object.value? p.name).isNone) ++ staying) := by
  generalize hp : Placeholder.mk ⟨start, start + byteLength (Token.placeholder name).raw⟩
    (String.ofList name) = p
  have hraw : (Token.placeholder name).raw = p.raw := by
    rw [← hp, Placeholder.raw, String.toList_ofList]
  have hshape : IsPlaceholder p.raw :=
    hraw ▸ ⟨name, rfl, fun c hc => isNameChar_iff.mp (hname c hc)⟩
  have hplace : p.span = ⟨start, start + byteLength p.raw⟩ := by rw [← hraw, ← hp]
  have hlookup : object.value? (String.ofList name) = object.value? p.name := by rw [← hp]
  unfold Token.filled
  simp only [hlookup, hraw] at h ⊢
  cases hvalue : object.value? p.name with
  | some value =>
      rw [List.filter_cons_of_neg (by simp [hvalue])]
      exact .replaced hshape hplace hvalue h
  | none =>
      rw [List.filter_cons_of_pos (by simp [hvalue])]
      exact .stays hshape hplace hvalue h

/-- A text comes to what its tokens come to, and the placeholders among them that
the object has no text for stay. -/
theorem comesTo_scan (object : Fields) (template : List Char) (start : Nat) :
    ComesTo object start template ((scan template).flatMap (Token.filled object))
      ((placeholdersFrom start (scan template)).filter fun p =>
        (object.value? p.name).isNone) := by
  fun_induction scan template generalizing start with
  | case1 => exact .nothing start
  | case2 c rest ih =>
      have hsplit := raw_firstToken_append c rest
      have hrest := ih (start + byteLength (firstToken c rest).1.raw)
      rw [List.flatMap_cons]
      cases htoken : (firstToken c rest).1 with
      | placeholder name =>
          have hfirst := ComesTo.of_name (all_of_firstToken htoken) (htoken ▸ hrest)
          rw [← htoken, hsplit, htoken, ← List.filter_append] at hfirst
          exact hfirst
      | dollar | text =>
          have hplain : ∀ name, (firstToken c rest).1 ≠ .placeholder name := by
            intro name hname
            rw [htoken] at hname
            cases hname
          have hfirst := ComesTo.of_firstToken hplain hrest
          rw [htoken] at hfirst
          exact hfirst

/-- Filling in a template gives what it comes to, and the placeholders that are
found to have no text are those that stay. -/
theorem comesTo_rendering (object : Fields) (template : String) :
    ComesTo object 0 template.toList (rendering object template).text
      (unresolved object template) := by
  rw [text_rendering]
  exact comesTo_scan object template.toList 0

/-! ## What is noted -/

theorem placeholdersFrom_cons (start : Nat) (token : Token) (pieces : List Token) :
    placeholdersFrom start (token :: pieces)
      = placeholdersFrom start [token]
        ++ placeholdersFrom (start + byteLength token.raw) pieces := by
  unfold placeholdersFrom
  simp only [layOut]
  rw [← List.filterMap_append]
  rfl

theorem events_renderToken (object : Fields) (start : Nat) (token : Token) :
    (renderToken object token).events
      = ((placeholdersFrom start [token]).filter fun p => (object.value? p.name).isNone).map
          fun p => .noValue p.name object.names := by
  cases token with
  | dollar | text => rfl
  | placeholder name =>
      simp only [renderToken, Fields.resolve, placeholdersFrom_placeholder]
      cases hvalue : object.value? (String.ofList name) with
      | some value => simp [hvalue, placeholdersFrom, layOut]
      | none => simp [hvalue, placeholdersFrom, layOut]

theorem events_renderTokens (object : Fields) (start : Nat) (pieces : List Token) :
    (pieces.map (renderToken object)).flatMap Rendering.events
      = ((placeholdersFrom start pieces).filter fun p => (object.value? p.name).isNone).map
          fun p => .noValue p.name object.names := by
  induction pieces generalizing start with
  | nil => rfl
  | cons token pieces ih =>
      rw [List.map_cons, List.flatMap_cons, placeholdersFrom_cons, List.filter_append,
        List.map_append, events_renderToken object start, ih]

/-- Filling in notes the placeholders that stay, one after the other. -/
theorem events_rendering (object : Fields) (template : String) :
    (rendering object template).events
      = (unresolved object template).map fun p => .noValue p.name object.names :=
  events_renderTokens object 0 (scan template.toList)

/-- The three views of a miss are one. The placeholders that are found to have no
text are those that stay when the template is filled in, in order and as often as
they occur, and all others are replaced. The log has an entry for each of them,
in the same order and by its name. -/
theorem misses_exact (object : Fields) (template : String) :
    (∀ text staying, ComesTo object 0 template.toList text staying ↔
      text = (render object template).toList ∧ staying = unresolved object template) ∧
    (rendering object template).events
      = (unresolved object template).map fun p => .noValue p.name object.names := by
  refine ⟨?_, events_rendering object template⟩
  intro text staying
  have hrendering := comesTo_rendering object template
  rw [render, String.toList_ofList]
  constructor
  · intro h
    exact h.unique hrendering
  · intro h
    obtain ⟨rfl, rfl⟩ := h
    exact hrendering

end MailMerge.Template
