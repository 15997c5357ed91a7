import MailMerge.Proofs.Selecting

/-!
# Arguments that are not asked for

A format string does nothing with its arguments but look some of them up. So two
lists of arguments come to the same if the second one has whatever the first one
was found to have (`Supplies`), wherever the format string selects one. This is
less than agreeing at the selected places: where the first list has nothing the
second may have anything. What it takes in return is that the first run has missed
no argument. Then every look-up that it made has found something, and the second
run finds the same; a run that stops for another reason stops there as well, and
what the specifiers behind would have selected does not matter.

Arguments put behind the others supply what was there, and so do arguments that
were exchanged at places nobody selects.
-/

namespace MailMerge.Format

variable {arguments others : List Argument} {progress : Progress} {front : List ArgumentIndex}

/-- Whatever the selections find among the arguments, they find among the others. -/
def Supplies (others arguments : List Argument) (selected : List Selection) : Prop :=
  ∀ selection ∈ selected, ∀ place argument, selection.place = some place →
    arguments[place]? = some argument → others[place]? = some argument

theorem supplies_append (arguments extra : List Argument) (selected : List Selection) :
    Supplies (arguments ++ extra) arguments selected := by
  intro selection _ place argument _ hargument
  obtain ⟨hlt, -⟩ := List.getElem?_eq_some_iff.mp hargument
  rw [List.getElem?_append_left hlt, hargument]

theorem supplies_of_same {selected : List Selection}
    (h : ∀ selection ∈ selected, ∀ place, selection.place = some place →
      others[place]? = arguments[place]?) :
    Supplies others arguments selected := by
  intro selection hmem place argument hplace hargument
  rw [h selection hmem place hplace, hargument]

/-! ## One token -/

theorem Token.exists_of_taker? {token : Token} {spec : Spec} (h : token.taker? = some spec) :
    ∃ modifiers closing, token = .specifier modifiers closing ∧
      Spec.read modifiers closing = .ok spec ∧ spec.conversion.takesArgument = true := by
  cases token with
  | text content => cases h
  | invalid modifiers => cases h
  | specifier modifiers closing =>
      cases hread : Spec.read modifiers closing with
      | error fault => simp [Token.taker?, hread] at h
      | ok read =>
          simp only [Token.taker?, hread] at h
          split at h
          · next htakes =>
              cases h
              exact ⟨modifiers, closing, rfl, hread, htakes⟩
          · cases h

theorem fillToken_of_taker?_eq_none {token : Token} (h : token.taker? = none) :
    fillToken others progress token = fillToken arguments progress token := by
  cases token with
  | text content => rfl
  | invalid modifiers => rfl
  | specifier modifiers closing =>
      cases hread : Spec.read modifiers closing with
      | error fault => rw [fillToken_of_read_error hread, fillToken_of_read_error hread]
      | ok spec =>
          have htakes : spec.conversion.takesArgument = false := by
            simpa [Token.taker?, hread] using h
          rw [fillToken_of_select hread (select_of_takesArgument_eq_false htakes),
            fillToken_of_select hread (select_of_takesArgument_eq_false htakes)]

/-- A specifier that has found its argument does with it what it does. -/
theorem fillToken_of_taker?_eq_some {token : Token} {spec : Spec} (h : token.taker? = some spec)
    (hsupplied : ∀ place argument, progress.place? spec.index = some place →
      arguments[place]? = some argument → others[place]? = some argument)
    (hfound : fillToken arguments progress token ≠ .error (.returned .missingArgument)) :
    fillToken others progress token = fillToken arguments progress token := by
  obtain ⟨modifiers, closing, rfl, hread, htakes⟩ := Token.exists_of_taker? h
  rcases progress.finds_or_misses arguments spec.index with
    ⟨place, argument, hplace, hargument⟩ | hnone
  · have hother := hsupplied place argument hplace hargument
    rw [fillToken_of_select hread (select_of_argument htakes hplace hargument),
      fillToken_of_select hread (select_of_argument htakes hplace hother)]
  · exact absurd (fillToken_of_select_error hread (select_of_no_argument htakes hnone)) hfound

/-- The progress behind a token follows from the indexes in front and its own. -/
theorem Progress.Follows.fillToken (h : progress.Follows front) {token : Token}
    {text : List Char} {middle : Progress}
    (hfill : fillToken arguments progress token = .ok (text, middle)) :
    middle.Follows ((token.taker?.map Spec.index).toList ++ front) := by
  rcases token.fillToken_cases with ⟨-, hfailures⟩ | ⟨-, hnone, done, hdone⟩ |
    ⟨modifiers, closing, spec, rfl, hread, htakes, htaker⟩
  · obtain ⟨failure, hfailure⟩ := hfailures arguments progress
    rw [hfailure] at hfill
    cases hfill
  · rw [hdone] at hfill
    cases hfill
    rwa [hnone]
  · obtain ⟨place, argument, hplace, -, -, rfl⟩ := (fillToken_eq_ok_iff hread htakes).mp hfill
    rw [htaker]
    exact h.advance hplace

/-! ## Runs -/

theorem fillTokens_of_supplies (h : progress.Follows front) {pieces : List (Span × Token)}
    (hsupplies : Supplies others arguments
      (selectionsBehind front ((pieces.map Prod.snd).filterMap Token.taker?)))
    (hfound : ∀ error, fillTokens arguments progress pieces = .error (.returned error) →
      error.fault ≠ .missingArgument) :
    fillTokens others progress pieces = fillTokens arguments progress pieces := by
  induction pieces generalizing front progress with
  | nil => rfl
  | cons piece rest ih =>
      obtain ⟨span, token⟩ := piece
      have hhere : fillToken arguments progress token ≠ .error (.returned .missingArgument) := by
        intro hmissing
        exact hfound _ (fillTokens_cons_of_error hmissing) rfl
      have hfirst : fillToken others progress token = fillToken arguments progress token := by
        cases htaker : token.taker? with
        | none => exact fillToken_of_taker?_eq_none htaker
        | some spec =>
            rw [List.map_cons, List.filterMap_cons_some htaker, selectionsBehind] at hsupplies
            refine fillToken_of_taker?_eq_some htaker ?_ hhere
            intro place argument hplace hargument
            exact hsupplies _ List.mem_cons_self place argument ((h spec.index).symm.trans hplace)
              hargument
      cases hfill : fillToken arguments progress token with
      | error failure =>
          rw [hfill] at hfirst
          rw [fillTokens_cons_of_error hfirst, fillTokens_cons_of_error hfill]
      | ok done =>
          obtain ⟨text, middle⟩ := done
          rw [hfill] at hfirst
          rw [fillTokens_cons_of_ok hfill] at hfound
          rw [fillTokens_cons_of_ok hfirst, fillTokens_cons_of_ok hfill]
          refine congrArg _ (ih (h.fillToken hfill) ?_ ?_)
          · cases htaker : token.taker? with
            | none =>
                rw [List.map_cons, List.filterMap_cons_none htaker] at hsupplies
                exact hsupplies
            | some spec =>
                rw [List.map_cons, List.filterMap_cons_some htaker, selectionsBehind] at hsupplies
                exact fun selection hmem => hsupplies selection (List.mem_cons_of_mem _ hmem)
          · intro error herror
            exact hfound error (by rw [herror]; rfl)

theorem fill_of_supplies {format : String}
    (hsupplies : Supplies others arguments (selections format))
    (hfound : ∀ error, fill format arguments = .error (.returned error) →
      error.fault ≠ .missingArgument) :
    fill format others = fill format arguments := by
  have htokens : (tokens format).map Prod.snd = scan format.toList := map_snd_layOut ..
  unfold fill at hfound ⊢
  rw [fillTokens_of_supplies Progress.follows_start]
  · rwa [htokens]
  · intro error herror
    exact hfound error (by rw [herror]; rfl)

/-- Unless an argument is missing, arguments put behind the others change nothing, be
it the text, the error or that there is neither. And if a format string can be filled,
it comes to the same with other arguments, as long as they are the same at the places
that it selects. -/
theorem fill_frame (format : String) (arguments : List Argument) :
    ((∀ error, fill format arguments = .error (.returned error) →
        error.fault ≠ .missingArgument) →
      ∀ extra, fill format (arguments ++ extra) = fill format arguments) ∧
    ∀ text, fill format arguments = .ok text →
      ∀ others : List Argument,
        (∀ selection ∈ selections format, ∀ place, selection.place = some place →
          others[place]? = arguments[place]?) →
        fill format others = .ok text := by
  constructor
  · intro hfound extra
    exact fill_of_supplies (supplies_append arguments extra _) hfound
  · intro text hfill others hsame
    rw [fill_of_supplies (supplies_of_same hsame), hfill]
    intro error herror
    rw [hfill] at herror
    cases herror

/-- An argument that only a specifier behind the fault would take, and one that no
specifier takes. -/
theorem fill_frame_reordered :
    let fault : Error := ⟨.unknownConversion, "%q", ⟨2, 4⟩⟩
    let arguments := [Argument.integer 7, .text "left out", .text "ab"]
    let others := [Argument.integer 7, .null, .text "ab", .boolean true]
    fill "%d%q%d" [.integer 1] = .error (.returned fault) ∧
      fill "%d%q%d" ([.integer 1] ++ [.text "two"]) = .error (.returned fault) ∧
      fill "%3$s %<S|%-4d" arguments = .ok "ab AB|7   " ∧
      fill "%3$s %<S|%-4d" others = .ok "ab AB|7   " := by
  intro fault arguments others
  have hfaulty : scan "%d%q%d".toList
      = [.specifier [] 'd'] ++ .specifier [] 'q' :: [.specifier [] 'd'] := by
    decide +kernel
  have hstop : StopsAt [.integer 1] .start [.specifier [] 'd'] (.specifier [] 'q')
      (.returned .unknownConversion) :=
    ⟨_, _, .cons rfl (.nil _), rfl⟩
  have hfault : fill "%d%q%d" [.integer 1] = .error (.returned fault) :=
    fill_of_stopsAt hfaulty hstop
  have hscan : scan "%3$s %<S|%-4d".toList
      = [.specifier ['3', '$'] 's', .text [' '], .specifier ['<'] 'S', .text ['|'],
        .specifier ['-', '4'] 'd'] := by
    decide +kernel
  have hfill : fill "%3$s %<S|%-4d" arguments = .ok "ab AB|7   " := by
    have htext : "ab AB|7   ".toList
        = ['a', 'b'] ++ ([' '] ++ (['A', 'B'] ++ (['|'] ++ (['7', ' ', ' ', ' '] ++ [])))) := by
      decide
    rw [fill_eq_ok_iff, hscan, htext]
    exact ⟨_, .cons rfl (.cons rfl (.cons rfl (.cons rfl (.cons rfl (.nil _)))))⟩
  have hselections : selections "%3$s %<S|%-4d"
      = [⟨some 2, .string false, none⟩, ⟨some 2, .string true, none⟩,
        ⟨some 0, .decimal, none⟩] := by
    decide +kernel
  refine ⟨hfault, ?_, hfill, (fill_frame _ arguments).2 _ hfill others ?_⟩
  · rw [(fill_frame "%d%q%d" [.integer 1]).1, hfault]
    intro error herror
    rw [hfault] at herror
    cases herror
    decide
  · rw [hselections]
    simp only [List.forall_mem_cons]
    refine ⟨?_, ?_, ?_, nofun⟩
    · rintro place ⟨⟩
      rfl
    · rintro place ⟨⟩
      rfl
    · rintro place ⟨⟩
      rfl

end MailMerge.Format
