import MailMerge.Format.Numbering
import MailMerge.Proofs.Filling
import MailMerge.Proofs.Scanning
import MailMerge.Proofs.SpecReading

/-!
# Numbers say the same

A format string and the one with its arguments' numbers are filled side by
side. What the first remembers between two specifiers, its progress, is just
what the numbering remembers: how many arguments were taken in order, and which
one was taken last. That is `Tracks`, and it holds after every token that both
come through (`Tracks.fillToken`). The second one remembers things too, but it
does not need them any more.

A number in a specifier has 64 bits at most, so a format string with more
specifiers than that could not be numbered. Before that happens the arguments
have run out, for there are not as many of them in any memory, and both format
strings stop with a missing argument.
-/

namespace MailMerge.Format

/-! ## A specifier with a number -/

theorem Token.takes?_of_read {modifiers : List Char} {closing : Char} {spec : Spec}
    (h : Spec.read modifiers closing = .ok spec) :
    (Token.specifier modifiers closing).takes?
      = if spec.conversion.takesArgument then some spec.index else none := by
  simp only [Token.takes?, h]

theorem Token.exists_of_takes? {token : Token} {index : ArgumentIndex}
    (h : token.takes? = some index) : ∃ modifiers closing spec,
      token = .specifier modifiers closing ∧ Spec.read modifiers closing = .ok spec ∧
        spec.conversion.takesArgument = true ∧ spec.index = index := by
  cases token with
  | text content | invalid modifiers => cases h
  | specifier modifiers closing =>
      cases hread : Spec.read modifiers closing with
      | error fault =>
          simp only [Token.takes?, hread] at h
          cases h
      | ok spec =>
          rw [Token.takes?_of_read hread] at h
          split at h
          · next htakes =>
              cases h
              exact ⟨modifiers, closing, spec, rfl, hread, htakes, rfl⟩
          · cases h

/-- Only a number stands in front of its own parts in another way than an index. -/
theorem readIndex_afterPrevious {modifiers rest : List Char} {index : ArgumentIndex}
    (h : Spec.readIndex modifiers = .ok (index, rest))
    (hindex : ∀ number, index ≠ .explicit number) : rest = afterPrevious modifiers := by
  rcases index_cases modifiers with ⟨after, rfl⟩ | ⟨digits, after, rfl, hne, hdigits⟩ | hnext
  · cases h
    rfl
  · rw [readIndex_number hne hdigits] at h
    split at h
    · cases h
    · cases h
      exact absurd rfl (hindex _)
  · rw [hnext] at h
    cases h
    unfold afterPrevious
    split
    · cases hnext
    · rfl

theorem readIndex_digitsOf (number : Nat) (rest : List Char) :
    Spec.readIndex (digitsOf number ++ '$' :: rest)
      = if number = 0 ∨ indexBound ≤ number then .error .missingArgument
        else .ok (.explicit number, rest) := by
  rw [readIndex_number (digitsOf_ne_nil number) fun c hc => isDigit_of_mem_digitsOf hc,
    valueOfDigits_digitsOf]

/-- A number in place of another index leaves the other parts of a specifier as
they are. -/
theorem read_numbered {modifiers : List Char} {closing : Char} {spec : Spec} (number : Nat)
    (h : Spec.read modifiers closing = .ok spec)
    (hindex : ∀ number, spec.index ≠ .explicit number) :
    Spec.read (digitsOf number ++ '$' :: afterPrevious modifiers) closing
      = if number = 0 ∨ indexBound ≤ number then .error .missingArgument
        else .ok { spec with index := .explicit number } := by
  obtain ⟨afterIndex, afterWidth, hread, hparts⟩ := read_eq_ok_iff.mp h
  obtain rfl := readIndex_afterPrevious hread hindex
  have hnumber := readIndex_digitsOf number (afterPrevious modifiers)
  split
  · next hrange =>
      rw [if_pos hrange] at hnumber
      exact read_eq_missingArgument_iff.mpr hnumber
  · next hrange =>
      rw [if_neg hrange] at hnumber
      exact read_eq_ok_iff.mpr ⟨_, afterWidth, hnumber, hparts⟩

/-! ## One token -/

theorem Spec.apply_withIndex (spec : Spec) (index : ArgumentIndex)
    (argument : Option Argument) :
    ({ spec with index } : Spec).apply argument = spec.apply argument := rfl

theorem Progress.previous_advance (progress : Progress) (index : ArgumentIndex) (place : Nat) :
    (progress.advance index place).previous = some place := by
  cases index <;> rfl

theorem fillToken_of_takes?_eq_none {token : Token} (h : token.takes? = none)
    (arguments : List Argument) :
    (∃ failure, ∀ progress, fillToken arguments progress token = .error failure) ∨
      ∃ text, ∀ progress, fillToken arguments progress token = .ok (text, progress) := by
  cases token with
  | text content => exact .inr ⟨content, fun _ => rfl⟩
  | invalid modifiers => exact .inl ⟨.returned .unknownConversion, fun _ => rfl⟩
  | specifier modifiers closing =>
      cases hread : Spec.read modifiers closing with
      | error fault => exact .inl ⟨.returned fault, fun _ => fillToken_of_read_error hread⟩
      | ok spec =>
          have htakes : spec.conversion.takesArgument = false := by
            rw [Token.takes?_of_read hread] at h
            simpa using h
          have hfill : ∀ progress, fillToken arguments progress (.specifier modifiers closing)
              = (spec.apply none).map fun text => (text, progress) := fun _ =>
            fillToken_of_select hread (select_of_takesArgument_eq_false htakes)
          cases happly : spec.apply none with
          | error failure =>
              refine .inl ⟨failure, fun progress => ?_⟩
              rw [hfill, happly]
              rfl
          | ok text =>
              refine .inr ⟨text, fun progress => ?_⟩
              rw [hfill, happly]
              rfl

section

variable {arguments : List Argument} {numbering : Numbering} {progress progress' : Progress}

/-- The numbering knows what a run remembers, and the run of the numbered tokens
at its side has taken the same argument last. -/
structure Tracks (arguments : List Argument) (numbering : Numbering)
    (progress progress' : Progress) : Prop where
  next : progress.next = numbering.inOrder
  previous : progress.previous = numbering.last.map (· - 1)
  same : progress'.previous = progress.previous
  last_le : ∀ number ∈ numbering.last, 1 ≤ number ∧ number ≤ arguments.length

/-- Two fillings of a token come to the same text or the same failure, and the
numbering knows what they remember then. -/
def Agree (arguments : List Argument) (numbering : Numbering)
    (filled filled' : Except (Failure Fault) (List Char × Progress)) : Prop :=
  (∃ failure, filled = .error failure ∧ filled' = .error failure) ∨
    ∃ text last last', filled = .ok (text, last) ∧ filled' = .ok (text, last') ∧
      Tracks arguments numbering last last'

/-- Specifiers that differ in their indexes agree if both mean the same place. -/
theorem agree_of_read {modifiers modifiers' : List Char} {closing : Char} {spec : Spec}
    {number : Nat} (hread : Spec.read modifiers closing = .ok spec)
    (hread' : Spec.read modifiers' closing = .ok { spec with index := .explicit number })
    (htakes : spec.conversion.takesArgument = true) (hnumber : 1 ≤ number)
    (hplace : progress.place? spec.index = some (number - 1))
    (hnext : (progress.advance spec.index (number - 1)).next = numbering.inOrder)
    (hlast : numbering.last = some number) :
    Agree arguments numbering (fillToken arguments progress (.specifier modifiers closing))
      (fillToken arguments progress' (.specifier modifiers' closing)) := by
  have hplace' : progress'.place? (.explicit number) = some (number - 1) := rfl
  cases hargument : arguments[number - 1]? with
  | none =>
      refine .inl ⟨.returned .missingArgument, ?_, ?_⟩
      · refine fillToken_of_select_error hread (select_of_no_argument htakes ?_)
        intro place hp
        rw [hplace] at hp
        cases hp
        exact hargument
      · refine fillToken_of_select_error hread' (select_of_no_argument htakes ?_)
        intro place hp
        cases hp
        exact hargument
  | some argument =>
      have hlt := (List.getElem?_eq_some_iff.mp hargument).1
      rw [fillToken_of_select hread (select_of_argument htakes hplace hargument),
        fillToken_of_select hread' (select_of_argument htakes hplace' hargument),
        Spec.apply_withIndex spec (.explicit number)]
      cases spec.apply (some argument) with
      | error failure => exact .inl ⟨failure, rfl, rfl⟩
      | ok text =>
          refine .inr ⟨text, _, _, rfl, rfl, hnext, ?_, ?_, ?_⟩
          · rw [Progress.previous_advance, hlast]
            rfl
          · rw [Progress.previous_advance, Progress.previous_advance]
          · intro m hm
            rw [hlast] at hm
            cases hm
            omega

theorem agree_of_missing {token token' : Token}
    (h : fillToken arguments progress token = .error (.returned .missingArgument))
    (h' : fillToken arguments progress' token' = .error (.returned .missingArgument)) :
    Agree arguments numbering (fillToken arguments progress token)
      (fillToken arguments progress' token') :=
  .inl ⟨.returned .missingArgument, h, h'⟩

section

variable {modifiers : List Char} {closing : Char} {spec : Spec}

theorem Tracks.fillToken_next (h : Tracks arguments numbering progress progress')
    (hlength : arguments.length < UInt64.size) (hread : Spec.read modifiers closing = .ok spec)
    (htakes : spec.conversion.takesArgument = true) (hindex : spec.index = .next) :
    Agree arguments ⟨numbering.inOrder + 1, some (numbering.inOrder + 1)⟩
      (fillToken arguments progress (.specifier modifiers closing))
      (fillToken arguments progress'
        ((Token.specifier modifiers closing).numbered (numbering.inOrder + 1))) := by
  have hplace : progress.place? spec.index = some (numbering.inOrder + 1 - 1) := by
    rw [hindex, ← h.next]
    rfl
  have hread' := read_numbered (numbering.inOrder + 1) hread (by rw [hindex]; nofun)
  by_cases hrange : numbering.inOrder + 1 = 0 ∨ indexBound ≤ numbering.inOrder + 1
  · -- The number does not fit, and no list of arguments is that long.
    rw [if_pos hrange] at hread'
    refine agree_of_missing ?_ (fillToken_of_read_error hread')
    refine fillToken_of_select_error hread (select_of_no_argument htakes ?_)
    intro place hp
    rw [hplace] at hp
    cases hp
    unfold indexBound at hrange
    exact List.getElem?_eq_none (by omega)
  · rw [if_neg hrange] at hread'
    refine agree_of_read hread hread' htakes (by omega) hplace ?_ rfl
    rw [hindex, ← h.next]
    rfl

theorem Tracks.fillToken_previous (h : Tracks arguments numbering progress progress')
    (hlength : arguments.length < UInt64.size) (hread : Spec.read modifiers closing = .ok spec)
    (htakes : spec.conversion.takesArgument = true) (hindex : spec.index = .previous)
    {number : Nat} (hlast : numbering.last = some number) :
    Agree arguments numbering
      (fillToken arguments progress (.specifier modifiers closing))
      (fillToken arguments progress' ((Token.specifier modifiers closing).numbered number)) := by
  obtain ⟨hpos, hle⟩ := h.last_le number hlast
  have hread' := read_numbered number hread (by rw [hindex]; nofun)
  have hrange : ¬(number = 0 ∨ indexBound ≤ number) := by
    unfold indexBound
    omega
  rw [if_neg hrange] at hread'
  refine agree_of_read hread hread' htakes hpos ?_ ?_ hlast
  · rw [hindex, Progress.place?, h.previous, hlast]
    rfl
  · rw [hindex]
    exact h.next

/-- Where nothing was taken before, `<` stays, and it means nothing in either run. -/
theorem Tracks.fillToken_nothing_taken (h : Tracks arguments numbering progress progress')
    (hread : Spec.read modifiers closing = .ok spec)
    (htakes : spec.conversion.takesArgument = true) (hindex : spec.index = .previous)
    (hlast : numbering.last = none) :
    Agree arguments numbering
      (fillToken arguments progress (.specifier modifiers closing))
      (fillToken arguments progress' (.specifier modifiers closing)) := by
  have hnone : progress.previous = none := by
    rw [h.previous, hlast]
    rfl
  have hmissing : ∀ run : Progress, run.previous = none →
      fillToken arguments run (.specifier modifiers closing)
        = .error (.returned .missingArgument) := by
    intro run hrun
    refine fillToken_of_select_error hread (select_of_no_argument htakes ?_)
    intro place hp
    rw [hindex, Progress.place?, hrun] at hp
    cases hp
  exact agree_of_missing (hmissing progress hnone) (hmissing progress' (h.same.trans hnone))

theorem Tracks.fillToken_explicit (h : Tracks arguments numbering progress progress')
    (hread : Spec.read modifiers closing = .ok spec)
    (htakes : spec.conversion.takesArgument = true) {number : Nat}
    (hindex : spec.index = .explicit number) :
    Agree arguments ⟨numbering.inOrder, some number⟩
      (fillToken arguments progress (.specifier modifiers closing))
      (fillToken arguments progress' (.specifier modifiers closing)) := by
  have hsame : ({ spec with index := .explicit number } : Spec) = spec := by rw [← hindex]
  refine agree_of_read hread (hsame ▸ hread) htakes (explicit_of_read hread hindex).1 ?_ ?_ rfl
  · rw [hindex]
    rfl
  · rw [hindex]
    exact h.next

end

/-- A token and the numbered one agree, as long as the numbering tracks the runs. -/
theorem Tracks.fillToken (h : Tracks arguments numbering progress progress')
    (hlength : arguments.length < UInt64.size) (token : Token) :
    Agree arguments (numbering.after token) (fillToken arguments progress token)
      (fillToken arguments progress' (numbering.token token)) := by
  unfold Numbering.after Numbering.token
  cases htakes? : token.takes? with
  | none =>
      rcases fillToken_of_takes?_eq_none htakes? arguments with
        ⟨failure, hfill⟩ | ⟨text, hfill⟩
      · exact .inl ⟨failure, hfill progress, hfill progress'⟩
      · exact .inr ⟨text, progress, progress', hfill progress, hfill progress', h⟩
  | some index =>
      obtain ⟨modifiers, closing, spec, rfl, hread, htakes, hindex⟩ :=
        Token.exists_of_takes? htakes?
      cases index with
      | next => exact h.fillToken_next hlength hread htakes hindex
      | previous =>
          cases hlast : numbering.last with
          | none => exact h.fillToken_nothing_taken hread htakes hindex hlast
          | some number => exact h.fillToken_previous hlength hread htakes hindex hlast
      | explicit number => exact h.fillToken_explicit hread htakes hindex

/-! ## Runs -/

theorem tracks_start (arguments : List Argument) :
    Tracks arguments .start .start .start :=
  ⟨rfl, rfl, rfl, nofun⟩

theorem Tracks.fills (h : Tracks arguments numbering progress progress')
    (hlength : arguments.length < UInt64.size) {pieces : List Token} {text : List Char}
    {last : Progress} (hrun : Fills arguments progress pieces text last) :
    ∃ last', Fills arguments progress' (numberTokens numbering pieces) text last' ∧
      Tracks arguments (pieces.foldl Numbering.after numbering) last last' := by
  induction hrun generalizing numbering progress' with
  | nil progress => exact ⟨progress', .nil progress', h⟩
  | @cons progress middle last token rest text others first run ih =>
      rcases h.fillToken hlength token with ⟨_, hfailure, -⟩ | ⟨done, next, next', hok, hok', h'⟩
      · rw [first] at hfailure
        cases hfailure
      · rw [first] at hok
        cases hok
        obtain ⟨last', hrun', hlast⟩ := ih h'
        exact ⟨last', .cons hok' hrun', hlast⟩

theorem Tracks.stopsAt (h : Tracks arguments numbering progress progress')
    (hlength : arguments.length < UInt64.size) {front : List Token} {token : Token}
    {failure : Failure Fault} (hstop : StopsAt arguments progress front token failure) :
    StopsAt arguments progress' (numberTokens numbering front)
      ((front.foldl Numbering.after numbering).token token) failure := by
  obtain ⟨text, last, hrun, hfailure⟩ := hstop
  obtain ⟨last', hrun', hlast⟩ := h.fills hlength hrun
  rcases hlast.fillToken hlength token with ⟨_, hfailure', hstop'⟩ | ⟨_, _, _, hok, -⟩
  · rw [hfailure] at hfailure'
    cases hfailure'
    exact ⟨text, last', hrun', hstop'⟩
  · rw [hfailure] at hok
    cases hok

end

/-! ## The text of a numbered format string

Numbering keeps the kind of a token and its first character, so its neighbours
do not notice. -/

theorem Token.Complete.numbered {token : Token} (h : token.Complete) (number : Nat) :
    (token.numbered number).Complete := by
  cases token with
  | text content | invalid modifiers => exact h
  | specifier modifiers closing =>
      refine ⟨?_, h.2⟩
      intro c hc
      rcases List.mem_append.mp hc with hdigit | hc
      · exact isModifier_of_isDigit (isDigit_of_mem_digitsOf hdigit)
      rcases List.mem_cons.mp hc with rfl | hc
      · rfl
      · refine h.1 c ?_
        unfold afterPrevious at hc
        split at hc
        · exact List.mem_cons_of_mem _ hc
        · exact hc

theorem Token.EndsBefore.numbered {token : Token} {rest : List Char}
    (h : token.EndsBefore rest) (number : Nat) : (token.numbered number).EndsBefore rest := by
  cases token with
  | text content | invalid modifiers => exact h
  | specifier modifiers closing => trivial

theorem Token.head?_raw_numbered (token : Token) (number : Nat) :
    (token.numbered number).raw.head? = token.raw.head? := by
  cases token <;> rfl

theorem Numbering.token_eq (numbering : Numbering) (token : Token) :
    numbering.token token = token ∨ ∃ number, numbering.token token = token.numbered number := by
  unfold Numbering.token
  split
  · exact .inr ⟨_, rfl⟩
  · split
    · exact .inr ⟨_, rfl⟩
    · exact .inl rfl
  · exact .inl rfl
  · exact .inl rfl

theorem head?_flatMap_raw_numberTokens (numbering : Numbering) (pieces : List Token) :
    ((numberTokens numbering pieces).flatMap Token.raw).head?
      = (pieces.flatMap Token.raw).head? := by
  induction pieces generalizing numbering with
  | nil => rfl
  | cons token rest ih =>
      have hhead : (numbering.token token).raw.head? = token.raw.head? := by
        rcases numbering.token_eq token with heq | ⟨number, heq⟩
        · rw [heq]
        · rw [heq, Token.head?_raw_numbered]
      rw [numberTokens_cons, List.flatMap_cons, List.flatMap_cons, List.head?_append,
        List.head?_append, ih, hhead]

theorem Scannable.numberTokens {pieces : List Token} (h : Scannable pieces)
    (numbering : Numbering) : Scannable (numberTokens numbering pieces) := by
  induction pieces generalizing numbering with
  | nil => trivial
  | cons token rest ih =>
      obtain ⟨hcomplete, hends, hrest⟩ := h
      have hends' : token.EndsBefore
          ((MailMerge.Format.numberTokens (numbering.after token) rest).flatMap Token.raw) := by
        refine hends.mono fun c hc => ?_
        rwa [← head?_flatMap_raw_numberTokens (numbering.after token) rest]
      rw [numberTokens_cons]
      rcases numbering.token_eq token with heq | ⟨number, heq⟩
      · rw [heq]
        exact ⟨hcomplete, hends', ih hrest _⟩
      · rw [heq]
        exact ⟨hcomplete.numbered number, hends'.numbered number, ih hrest _⟩

theorem scan_numbered (format : String) :
    scan (numbered format).toList = numberTokens .start (scan format.toList) := by
  rw [numbered, String.toList_ofList]
  exact scan_flatMap_raw ((scannable_scan format.toList).numberTokens .start)

/-! ## Only numbers are left -/

theorem Token.takes?_numbered {token : Token} {index : ArgumentIndex}
    (h : token.takes? = some index) (hindex : ∀ number, index ≠ .explicit number)
    {number : Nat} {index' : ArgumentIndex} (h' : (token.numbered number).takes? = some index') :
    index' = .explicit number := by
  obtain ⟨modifiers, closing, spec, rfl, hread, htakes, rfl⟩ := Token.exists_of_takes? h
  have hread' := read_numbered number hread hindex
  split at hread'
  · rw [Token.numbered] at h'
    simp only [Token.takes?, hread'] at h'
    cases h'
  · rw [Token.numbered, Token.takes?_of_read hread', if_pos htakes] at h'
    exact (Option.some.inj h').symm

/-- If the first specifier that takes an argument does not begin with `<`, every
one that takes an argument is given a number. -/
theorem explicit_of_mem_numberTokens {pieces : List Token} {numbering : Numbering}
    (h : numbering.last = none → (pieces.filterMap Token.takes?).head? ≠ some .previous)
    {token : Token} (hmem : token ∈ numberTokens numbering pieces) {index : ArgumentIndex}
    (htakes : token.takes? = some index) : ∃ number, index = .explicit number := by
  induction pieces generalizing numbering with
  | nil => cases hmem
  | cons first rest ih =>
      cases hfirst : first.takes? with
      | none =>
          rw [List.filterMap_cons_none hfirst] at h
          rw [numberTokens_cons, Numbering.token, Numbering.after, hfirst] at hmem
          rcases List.mem_cons.mp hmem with rfl | hmem
          · rw [hfirst] at htakes
            cases htakes
          · exact ih h hmem
      | some taken =>
          rw [List.filterMap_cons_some hfirst, List.head?_cons] at h
          rw [numberTokens_cons, Numbering.token, Numbering.after, hfirst] at hmem
          cases taken with
          | next =>
              rcases List.mem_cons.mp hmem with rfl | hmem
              · exact ⟨_, Token.takes?_numbered hfirst nofun htakes⟩
              · exact ih (by nofun) hmem
          | explicit number =>
              rcases List.mem_cons.mp hmem with rfl | hmem
              · rw [hfirst] at htakes
                cases htakes
                exact ⟨number, rfl⟩
              · exact ih (by nofun) hmem
          | previous =>
              cases hlast : numbering.last with
              | none => exact absurd rfl (h hlast)
              | some number =>
                  simp only [hlast] at hmem
                  rcases List.mem_cons.mp hmem with rfl | hmem
                  · exact ⟨_, Token.takes?_numbered hfirst nofun htakes⟩
                  · exact ih (fun hnone => absurd (hlast.symm.trans hnone) nofun) hmem

/-! ## Numbered format strings -/

/-- Two format strings have the same fault, and at the same of their tokens,
counted from the left. -/
def SameFault (format format' : String) (error error' : Error) : Prop :=
  error'.fault = error.fault ∧ ∃ (place : Nat) (token token' : Token),
    (tokens format)[place]? = some (error.span, token) ∧
      (tokens format')[place]? = some (error'.span, token')

/-- Two format strings have the same fault at the same token, or both break off. -/
inductive SameFailure (format format' : String) : Failure Error → Failure Error → Prop
  | returned {error error' : Error} (same : SameFault format format' error error') :
      SameFailure format format' (.returned error) (.returned error')
  | tooManyPlaces : SameFailure format format' .tooManyPlaces .tooManyPlaces

theorem fill_numbered_of_ok {arguments : List Argument} (h : arguments.length < UInt64.size)
    {format text : String} (hfill : fill format arguments = .ok text) :
    fill (numbered format) arguments = .ok text := by
  obtain ⟨last, hrun⟩ := fill_eq_ok_iff.mp hfill
  obtain ⟨last', hrun', -⟩ := (tracks_start arguments).fills h hrun
  rw [← scan_numbered] at hrun'
  exact fill_eq_ok_iff.mpr ⟨last', hrun'⟩

theorem fill_numbered_of_error {arguments : List Argument} (h : arguments.length < UInt64.size)
    {format : String} {failure : Failure Error} (hfill : fill format arguments = .error failure) :
    ∃ failure', fill (numbered format) arguments = .error failure' ∧
      SameFailure format (numbered format) failure failure' := by
  obtain ⟨front, token, back, reason, hscan, hstop, rfl⟩ := fill_eq_error_iff.mp hfill
  let token' := (front.foldl Numbering.after .start).token token
  have hstop' : StopsAt arguments .start (numberTokens .start front) token' reason :=
    (tracks_start arguments).stopsAt h hstop
  have hscan' := scan_numbered format
  rw [hscan, numberTokens_append, numberTokens_cons] at hscan'
  refine ⟨_, fill_of_stopsAt hscan' hstop', ?_⟩
  cases reason with
  | tooManyPlaces => exact .tooManyPlaces
  | returned fault =>
      refine .returned ⟨rfl, front.length, token, token', ?_, ?_⟩
      · rw [tokens, hscan]
        exact getElem?_layOut ..
      · rw [tokens, hscan', ← length_numberTokens .start front]
        exact getElem?_layOut ..

/-- A format string and the one with its arguments' numbers are filled alike:
both come to the same text, or both stop at the same token with the same fault, or
both break off.
The tokens of the numbered one are the numbered tokens; and unless `<` comes
before anything that it could stand for, every specifier that takes an argument
names it by a number then. The arguments are as many as fit into a memory. -/
theorem fill_numbered {arguments : List Argument} (h : arguments.length < UInt64.size)
    (format : String) :
    (∀ text, fill (numbered format) arguments = .ok text ↔ fill format arguments = .ok text) ∧
    (∀ failure, fill format arguments = .error failure → ∃ failure',
      fill (numbered format) arguments = .error failure' ∧
        SameFailure format (numbered format) failure failure') ∧
    scan (numbered format).toList = numberTokens .start (scan format.toList) ∧
    (((scan format.toList).filterMap Token.takes?).head? ≠ some .previous →
      ∀ token ∈ scan (numbered format).toList, ∀ index, token.takes? = some index →
        ∃ number, index = .explicit number) := by
  refine ⟨fun text => ⟨fun hfill => ?_, fill_numbered_of_ok h⟩,
    fun failure => fill_numbered_of_error h, scan_numbered format, ?_⟩
  · cases hresult : fill format arguments with
    | ok other =>
        rw [fill_numbered_of_ok h hresult] at hfill
        exact hfill
    | error failure =>
        obtain ⟨failure', hfill', -⟩ := fill_numbered_of_error h hresult
        rw [hfill'] at hfill
        cases hfill
  · intro hfirst token hmem index htakes
    rw [scan_numbered] at hmem
    exact explicit_of_mem_numberTokens (fun _ => hfirst) hmem htakes

/-- Two arguments and a third specifier in order, with the other indexes between. -/
theorem fill_numbered_mixed :
    [Argument.text "a", Argument.text "b"].length < UInt64.size ∧
      numbered "%s%<5s%2$s%%%s%s" = "%1$s%1$5s%2$s%%%2$s%3$s" ∧
      ∃ error error', fill "%s%<5s%2$s%%%s%s" [.text "a", .text "b"] = .error (.returned error) ∧
        fill (numbered "%s%<5s%2$s%%%s%s") [.text "a", .text "b"] = .error (.returned error') ∧
        SameFault "%s%<5s%2$s%%%s%s" (numbered "%s%<5s%2$s%%%s%s") error error' := by
  have hlength : [Argument.text "a", Argument.text "b"].length < UInt64.size := by decide
  have hnumbered : numbered "%s%<5s%2$s%%%s%s" = "%1$s%1$5s%2$s%%%2$s%3$s" := by
    decide +kernel
  let front : List Token := [.specifier [] 's', .specifier ['<', '5'] 's',
    .specifier ['2', '$'] 's', .specifier [] '%', .specifier [] 's']
  have hscan : scan "%s%<5s%2$s%%%s%s".toList = front ++ [.specifier [] 's'] := by
    decide +kernel
  have hstop : StopsAt [.text "a", .text "b"] .start front (.specifier [] 's')
      (.returned .missingArgument) :=
    ⟨_, _, .cons rfl (.cons rfl (.cons rfl (.cons rfl (.cons rfl (.nil _))))), rfl⟩
  have hfill := fill_of_stopsAt hscan hstop
  obtain ⟨failure', hfill', hsame⟩ := (fill_numbered hlength "%s%<5s%2$s%%%s%s").2.1 _ hfill
  cases hsame with
  | returned hsame => exact ⟨hlength, hnumbered, _, _, hfill, hfill', hsame⟩

end MailMerge.Format
