import MailMerge.Format.Fill
import MailMerge.Proofs.Slicing

/-!
# Filling as a run

Filling a format string goes through its tokens from left to right and hands
the progress on from one to the next. `Fills` is that run, without the places
of the tokens and with the progress at its end, so that runs can be put one
behind the other. Either the run goes through all the tokens, and the text is
what they come to (`fill_eq_ok_iff`), or it goes as far as some token that comes to
no text (`fill_eq_error_iff`). If that token has a fault, the error tells the token
and its place (`fill_eq_returned_iff`); else the run breaks off, and nothing is told.
Nothing else about `fillTokens` is needed elsewhere.
-/

namespace MailMerge.Format

variable {arguments : List Argument} {progress last : Progress}

/-! ## One token -/

section

variable {spec : Spec} {modifiers : List Char} {closing : Char}

theorem select_of_argument {place : Nat} {argument : Argument}
    (htakes : spec.conversion.takesArgument = true)
    (hplace : progress.place? spec.index = some place)
    (hargument : arguments[place]? = some argument) :
    select arguments progress spec
      = .ok (some argument, progress.advance spec.index place) := by
  rw [select, if_pos htakes]
  simp only [hplace, hargument]

theorem select_of_no_argument (htakes : spec.conversion.takesArgument = true)
    (hnone : ∀ place, progress.place? spec.index = some place → arguments[place]? = none) :
    select arguments progress spec = .error .missingArgument := by
  rw [select, if_pos htakes]
  cases hplace : progress.place? spec.index with
  | none => rfl
  | some place => simp only [hnone place hplace]

theorem select_of_takesArgument_eq_false (htakes : spec.conversion.takesArgument = false) :
    select arguments progress spec = .ok (none, progress) := by
  rw [select, htakes]
  rfl

theorem fillToken_of_read_error {fault : Fault} (h : Spec.read modifiers closing = .error fault) :
    fillToken arguments progress (.specifier modifiers closing) = .error (.returned fault) := by
  rw [fillToken, h]
  rfl

theorem fillToken_of_select_error {fault : Fault} (h : Spec.read modifiers closing = .ok spec)
    (hselect : select arguments progress spec = .error fault) :
    fillToken arguments progress (.specifier modifiers closing) = .error (.returned fault) := by
  rw [fillToken, h]
  simp only [returning, bind, Except.bind, hselect]

theorem fillToken_of_select {argument : Option Argument} {middle : Progress}
    (h : Spec.read modifiers closing = .ok spec)
    (hselect : select arguments progress spec = .ok (argument, middle)) :
    fillToken arguments progress (.specifier modifiers closing)
      = (spec.apply argument).map fun text => (text, middle) := by
  rw [fillToken, h]
  simp only [returning, bind, Except.bind, hselect]
  cases spec.apply argument <;> rfl

end

/-! ## Runs -/

/-- Tokens that are filled one after the other: with the progress before them,
what they come to, and the progress behind them. -/
inductive Fills (arguments : List Argument) :
    Progress → List Token → List Char → Progress → Prop
  | nil (progress : Progress) : Fills arguments progress [] [] progress
  | cons {progress middle last : Progress} {token : Token} {rest : List Token}
      {text others : List Char}
      (first : fillToken arguments progress token = .ok (text, middle))
      (run : Fills arguments middle rest others last) :
      Fills arguments progress (token :: rest) (text ++ others) last

/-- The run comes through the tokens `front` and stops at the next one. -/
def StopsAt (arguments : List Argument) (progress : Progress) (front : List Token)
    (token : Token) (failure : Failure Fault) : Prop :=
  ∃ text last, Fills arguments progress front text last ∧
    fillToken arguments last token = .error failure

theorem StopsAt.cons {middle : Progress} {first token : Token} {front : List Token}
    {text : List Char} {failure : Failure Fault}
    (hfirst : fillToken arguments progress first = .ok (text, middle))
    (h : StopsAt arguments middle front token failure) :
    StopsAt arguments progress (first :: front) token failure := by
  obtain ⟨others, last, hrun, hstop⟩ := h
  exact ⟨text ++ others, last, .cons hfirst hrun, hstop⟩

/-! ## Tokens with their places -/

section

variable {span : Span} {token : Token} {rest : List (Span × Token)}

theorem fillTokens_cons_of_ok {text : List Char} {middle : Progress}
    (h : fillToken arguments progress token = .ok (text, middle)) :
    fillTokens arguments progress ((span, token) :: rest)
      = (fillTokens arguments middle rest).map (text ++ ·) := by
  rw [fillTokens]
  simp only [h, located, bind, Except.bind]
  cases fillTokens arguments middle rest with
  | ok others => rfl
  | error error => rfl

theorem fillTokens_cons_of_error {failure : Failure Fault}
    (h : fillToken arguments progress token = .error failure) :
    fillTokens arguments progress ((span, token) :: rest)
      = .error (failure.map fun fault => ⟨fault, String.ofList token.raw, span⟩) := by
  rw [fillTokens]
  simp only [h, located, bind, Except.bind]

end

/-- The error at a token behind other ones, which begin at `start`. -/
def errorAt (start : Nat) (front : List Token) (token : Token) (fault : Fault) : Error :=
  ⟨fault, String.ofList token.raw,
    ⟨start + byteLength (front.flatMap Token.raw),
      start + byteLength (front.flatMap Token.raw) + byteLength token.raw⟩⟩

theorem errorAt_zero (front : List Token) (token : Token) (fault : Fault) :
    errorAt 0 front token fault
      = ⟨fault, String.ofList token.raw,
          ⟨byteLength (front.flatMap Token.raw),
            byteLength (front.flatMap Token.raw) + byteLength token.raw⟩⟩ := by
  rw [errorAt, Nat.zero_add]

theorem errorAt_cons (start : Nat) (first : Token) (front : List Token) (token : Token)
    (fault : Fault) :
    errorAt (start + byteLength first.raw) front token fault
      = errorAt start (first :: front) token fault := by
  unfold errorAt
  rw [List.flatMap_cons, byteLength_append, Nat.add_assoc start]

/-- What a run comes to that stops at a token behind other ones. -/
def failureAt (start : Nat) (front : List Token) (token : Token) (failure : Failure Fault) :
    Failure Error :=
  failure.map (errorAt start front token)

theorem failureAt_cons (start : Nat) (first : Token) (front : List Token) (token : Token)
    (failure : Failure Fault) :
    failureAt (start + byteLength first.raw) front token failure
      = failureAt start (first :: front) token failure :=
  congrArg failure.map (funext (errorAt_cons start first front token))

theorem fillTokens_eq_ok_of_fills {pieces : List Token} {text : List Char}
    (h : Fills arguments progress pieces text last) (start : Nat) :
    fillTokens arguments progress (layOut (fun token => byteLength token.raw) start pieces)
      = .ok text := by
  induction h generalizing start with
  | nil progress => rfl
  | cons first run ih =>
      rw [layOut, fillTokens_cons_of_ok first, ih]
      rfl

theorem fillTokens_eq_error_of_stopsAt {front back : List Token} {token : Token}
    {failure : Failure Fault} (h : StopsAt arguments progress front token failure)
    (start : Nat) :
    fillTokens arguments progress
        (layOut (fun token => byteLength token.raw) start (front ++ token :: back))
      = .error (failureAt start front token failure) := by
  obtain ⟨text, last, hrun, hstop⟩ := h
  induction hrun generalizing start with
  | nil progress =>
      rw [List.nil_append, layOut, fillTokens_cons_of_error hstop]
      cases failure <;> rfl
  | cons first run ih =>
      rw [List.cons_append, layOut, fillTokens_cons_of_ok first, ih _ hstop, ← failureAt_cons]
      rfl

/-- Tokens are filled to the end, or one of them stops the run. -/
theorem fills_or_stopsAt (arguments : List Argument) (progress : Progress)
    (pieces : List Token) :
    (∃ text last, Fills arguments progress pieces text last) ∨
      ∃ front token back failure, pieces = front ++ token :: back ∧
        StopsAt arguments progress front token failure := by
  induction pieces generalizing progress with
  | nil => exact .inl ⟨[], progress, .nil progress⟩
  | cons token rest ih =>
      cases hfirst : fillToken arguments progress token with
      | error failure =>
          exact .inr ⟨[], token, rest, failure, rfl, [], progress, .nil progress, hfirst⟩
      | ok done =>
          obtain ⟨text, middle⟩ := done
          rcases ih middle with ⟨others, last, hrun⟩ | ⟨front, stop, back, failure, rfl, hstop⟩
          · exact .inl ⟨text ++ others, last, .cons hfirst hrun⟩
          · exact .inr ⟨token :: front, stop, back, failure, rfl, hstop.cons hfirst⟩

/-! ## Format strings -/

theorem fill_of_fills {format : String} {text : List Char}
    (h : Fills arguments .start (scan format.toList) text last) :
    fill format arguments = .ok (String.ofList text) := by
  rw [fill, tokens, fillTokens_eq_ok_of_fills h]
  rfl

theorem fill_of_stopsAt {format : String} {front back : List Token} {token : Token}
    {failure : Failure Fault} (hscan : scan format.toList = front ++ token :: back)
    (h : StopsAt arguments .start front token failure) :
    fill format arguments = .error (failureAt 0 front token failure) := by
  rw [fill, tokens, hscan, fillTokens_eq_error_of_stopsAt h]
  rfl

theorem fill_eq_ok_iff {format text : String} :
    fill format arguments = .ok text ↔
      ∃ last, Fills arguments .start (scan format.toList) text.toList last := by
  constructor
  · intro h
    rcases fills_or_stopsAt arguments .start (scan format.toList) with
      ⟨done, last, hrun⟩ | ⟨front, token, back, failure, hscan, hstop⟩
    · rw [fill_of_fills hrun] at h
      cases h
      exact ⟨last, by rwa [String.toList_ofList]⟩
    · rw [fill_of_stopsAt hscan hstop] at h
      cases h
  · rintro ⟨last, hrun⟩
    rw [fill_of_fills hrun, String.ofList_toList]

theorem fill_eq_error_iff {format : String} {failure : Failure Error} :
    fill format arguments = .error failure ↔
      ∃ front token back reason, scan format.toList = front ++ token :: back ∧
        StopsAt arguments .start front token reason ∧
        failure = failureAt 0 front token reason := by
  constructor
  · intro h
    rcases fills_or_stopsAt arguments .start (scan format.toList) with
      ⟨done, last, hrun⟩ | ⟨front, token, back, reason, hscan, hstop⟩
    · rw [fill_of_fills hrun] at h
      cases h
    · rw [fill_of_stopsAt hscan hstop] at h
      cases h
      exact ⟨front, token, back, reason, hscan, hstop, rfl⟩
  · rintro ⟨front, token, back, reason, hscan, hstop, rfl⟩
    exact fill_of_stopsAt hscan hstop

/-- An error is returned of the first token that has a fault. -/
theorem fill_eq_returned_iff {format : String} {error : Error} :
    fill format arguments = .error (.returned error) ↔
      ∃ front token back fault, scan format.toList = front ++ token :: back ∧
        StopsAt arguments .start front token (.returned fault) ∧
        error = errorAt 0 front token fault := by
  rw [fill_eq_error_iff]
  constructor
  · rintro ⟨front, token, back, reason, hscan, hstop, hreason⟩
    cases reason with
    | returned fault =>
        exact ⟨front, token, back, fault, hscan, hstop, Failure.returned.inj hreason⟩
    | tooManyPlaces => cases hreason
  · rintro ⟨front, token, back, fault, hscan, hstop, rfl⟩
    exact ⟨front, token, back, .returned fault, hscan, hstop, rfl⟩

end MailMerge.Format
