import MailMerge.Format.Selection
import MailMerge.Proofs.Filling

/-!
# When a format string can be filled

A run hands its progress on from one specifier to the next, and whether the next
one finds its argument depends on that progress. `Progress.Follows` says where it
comes from: as long as nothing has failed, an index means under the progress what
it means behind the indexes in front (`ArgumentIndex.placeBehind`), which can be
read off the format string alone. An argument that was found takes this from one
specifier to the next (`Progress.Follows.advance`); so a run comes through
exactly if every selection is served and none of them asks for too many places, and
there is no other way for it to stop than a specifier that is no good in itself.

A run that is served, but asked for too many places, ends without a text and without
an error (`exists_fills_or_breaksOff`). Apart from that, of a specifier only its index
and its conversion matter. Its flags, its width and its precision shape the text and
cannot make it fail.
-/

namespace MailMerge.Format

variable {arguments : List Argument} {progress : Progress} {front : List ArgumentIndex}
  {spec : Spec}

/-! ## What a conversion applies to -/

theorem Spec.exists_floatBody_iff (value : Binary64) :
    (∃ body, spec.floatBody value = .ok body) ↔
      ¬((value.isNaN = false ∧ value.isInfinite = false) ∧
        maxPlaces < placesFor spec.precision) := by
  by_cases hfinite : value.isNaN = false ∧ value.isInfinite = false
  · rw [Spec.floatBody_of_finite hfinite.1 hfinite.2, Spec.floatDigits]
    split <;> simp [Except.map, *]
  · obtain ⟨content, hbody⟩ := spec.exists_floatBody_of_not_finite hfinite
    exact iff_of_true ⟨_, hbody⟩ fun h => hfinite h.1

theorem Spec.exists_body_iff (h : spec.conversion.takesArgument = true) (argument : Argument) :
    (∃ body, spec.body argument = .ok body) ↔
      spec.conversion.Accepts argument ∧ ¬spec.TooManyPlaces argument := by
  unfold Spec.body Spec.TooManyPlaces
  cases hconversion : spec.conversion with
  | percent | newline =>
      rw [hconversion] at h
      cases h
  | character upper =>
      cases argument with
      | integer value =>
          have hscalar : (scalar? value.toInt).isSome ↔ IsScalarValue value.toInt :=
            isSome_scalar?_iff
          cases hcode : scalar? value.toInt <;>
            simp_all [Conversion.Accepts, Conversion.WritesPlaces, Spec.illegal]
      | _ => simp [Conversion.Accepts, Conversion.WritesPlaces, Spec.illegal]
  | fixed | scientific _ =>
      cases argument with
      | float value => exact (Spec.exists_floatBody_iff value).trans (and_iff_right trivial).symm
      | _ => simp [Conversion.Accepts, Conversion.WritesPlaces, Spec.illegal]
  | _ => cases argument <;> simp [Conversion.Accepts, Conversion.WritesPlaces, Spec.illegal]

theorem Spec.exists_apply_iff (h : spec.conversion.takesArgument = true) (argument : Argument) :
    (∃ text, spec.apply (some argument) = .ok text) ↔
      spec.conversion.Accepts argument ∧ ¬spec.TooManyPlaces argument := by
  have hline : spec.conversion ≠ .newline := by
    intro hconversion
    rw [hconversion] at h
    cases h
  rw [← Spec.exists_body_iff h, Spec.apply, Option.getD_some, if_neg hline]
  cases spec.body argument <;> simp [Except.map]

/-- What takes no argument never fails. -/
theorem Spec.exists_apply_none (h : spec.conversion.takesArgument = false) :
    ∃ text, spec.apply none = .ok text := by
  unfold Spec.apply Spec.body
  cases hconversion : spec.conversion with
  | percent => exact ⟨_, rfl⟩
  | newline => exact ⟨_, rfl⟩
  | _ =>
      rw [hconversion] at h
      cases h

/-! ## What has been used so far -/

/-- An index means under the progress what it means behind those in front. -/
def Progress.Follows (front : List ArgumentIndex) (progress : Progress) : Prop :=
  ∀ index, progress.place? index = index.placeBehind front

theorem Progress.follows_start : Progress.Follows [] .start := by
  intro index
  cases index <;> rfl

theorem Progress.Follows.advance (h : progress.Follows front) {index : ArgumentIndex}
    {place : Nat} (hplace : progress.place? index = some place) :
    (progress.advance index place).Follows (index :: front) := by
  have hlast : index.placeBehind front = some place := (h index).symm.trans hplace
  have hnext : some progress.next = some (front.count .next) :=
    (h .next).trans (ArgumentIndex.placeBehind_next front)
  intro other
  cases other with
  | explicit number => rw [ArgumentIndex.placeBehind_explicit]; rfl
  | previous =>
      rw [ArgumentIndex.placeBehind_previous, hlast]
      cases index <;> rfl
  | next =>
      rw [ArgumentIndex.placeBehind_next]
      cases index <;> simpa [Progress.advance, Progress.place?] using hnext

/-! ## One token -/

/-- A token is no good, or needs no argument, or is a specifier that takes one. -/
theorem Token.fillToken_cases (token : Token) :
    (¬token.Sound ∧ ∀ arguments progress, ∃ failure,
      fillToken arguments progress token = .error failure) ∨
    (token.Sound ∧ token.taker? = none ∧ ∃ text, ∀ arguments progress,
      fillToken arguments progress token = .ok (text, progress)) ∨
    ∃ modifiers closing spec, token = .specifier modifiers closing ∧
      Spec.read modifiers closing = .ok spec ∧ spec.conversion.takesArgument = true ∧
      token.taker? = some spec := by
  cases token with
  | text content => exact .inr (.inl ⟨trivial, rfl, content, fun _ _ => rfl⟩)
  | invalid modifiers => exact .inl ⟨id, fun _ _ => ⟨_, rfl⟩⟩
  | specifier modifiers closing =>
      cases hread : Spec.read modifiers closing with
      | error fault =>
          refine .inl ⟨?_, fun _ _ => ⟨.returned fault, fillToken_of_read_error hread⟩⟩
          intro hsound
          obtain ⟨spec, hspec⟩ := hsound
          rw [hread] at hspec
          cases hspec
      | ok spec =>
          cases htakes : spec.conversion.takesArgument with
          | true =>
              refine .inr (.inr ⟨modifiers, closing, spec, rfl, hread, htakes, ?_⟩)
              simp [Token.taker?, hread, htakes]
          | false =>
              obtain ⟨text, htext⟩ := Spec.exists_apply_none htakes
              refine .inr (.inl ⟨⟨spec, hread⟩, by simp [Token.taker?, hread, htakes], text, ?_⟩)
              intro arguments progress
              rw [fillToken_of_select hread (select_of_takesArgument_eq_false htakes), htext]
              rfl

theorem Progress.finds_or_misses (arguments : List Argument) (progress : Progress)
    (index : ArgumentIndex) :
    (∃ place argument, progress.place? index = some place ∧ arguments[place]? = some argument) ∨
      ∀ place, progress.place? index = some place → arguments[place]? = none := by
  cases progress.place? index with
  | none => exact .inr nofun
  | some place =>
      cases hargument : arguments[place]? with
      | none => exact .inr fun _ hplace => Option.some.inj hplace ▸ hargument
      | some argument => exact .inl ⟨place, argument, rfl, hargument⟩

/-- A specifier that takes an argument is filled if it finds one that its conversion
accepts, and then it has used that one. -/
theorem fillToken_eq_ok_iff {modifiers : List Char} {closing : Char} {spec : Spec}
    (hread : Spec.read modifiers closing = .ok spec)
    (htakes : spec.conversion.takesArgument = true) {text : List Char} {middle : Progress} :
    fillToken arguments progress (.specifier modifiers closing) = .ok (text, middle) ↔
      ∃ place argument, progress.place? spec.index = some place ∧
        arguments[place]? = some argument ∧ spec.apply (some argument) = .ok text ∧
        middle = progress.advance spec.index place := by
  constructor
  · intro hfill
    rcases progress.finds_or_misses arguments spec.index with
      ⟨place, argument, hplace, hargument⟩ | hnone
    · rw [fillToken_of_select hread (select_of_argument htakes hplace hargument)] at hfill
      cases happly : spec.apply (some argument) with
      | error failure =>
          rw [happly] at hfill
          cases hfill
      | ok done =>
          rw [happly] at hfill
          cases hfill
          exact ⟨place, argument, hplace, hargument, happly, rfl⟩
    · rw [fillToken_of_select_error hread (select_of_no_argument htakes hnone)] at hfill
      cases hfill
  · intro h
    obtain ⟨place, argument, hplace, hargument, happly, rfl⟩ := h
    rw [fillToken_of_select hread (select_of_argument htakes hplace hargument), happly]
    rfl

/-! ## Runs -/

theorem exists_fills_cons_iff {token : Token} {rest : List Token} :
    (∃ text last, Fills arguments progress (token :: rest) text last) ↔
      ∃ text middle, fillToken arguments progress token = .ok (text, middle) ∧
        ∃ others last, Fills arguments middle rest others last := by
  constructor
  · intro h
    obtain ⟨_, last, hrun⟩ := h
    cases hrun with
    | cons first run => exact ⟨_, _, first, _, _, run⟩
  · intro h
    obtain ⟨text, middle, hfirst, others, last, hrun⟩ := h
    exact ⟨text ++ others, last, .cons hfirst hrun⟩

/-- A selection that comes to a text has an argument to be written. -/
theorem Selection.served_and_not_overlong_iff {selection : Selection} :
    (selection.Served arguments ∧ ¬selection.Overlong arguments) ↔
      ∃ place argument, selection.place = some place ∧ arguments[place]? = some argument ∧
        selection.conversion.Accepts argument ∧
        ¬(selection.conversion.WritesPlaces argument ∧
          maxPlaces < placesFor selection.precision) := by
  constructor
  · intro h
    obtain ⟨⟨place, argument, hplace, hargument, haccepts⟩, hfits⟩ := h
    exact ⟨place, argument, hplace, hargument, haccepts,
      fun hover => hfits ⟨place, argument, hplace, hargument, hover⟩⟩
  · intro h
    obtain ⟨place, argument, hplace, hargument, haccepts, hfits⟩ := h
    refine ⟨⟨place, argument, hplace, hargument, haccepts⟩, fun hover => ?_⟩
    obtain ⟨_, _, hplace', hargument', hover⟩ := hover
    cases hplace.symm.trans hplace'
    cases hargument.symm.trans hargument'
    exact hfits hover

theorem exists_fills_iff (h : progress.Follows front) (pieces : List Token) :
    (∃ text last, Fills arguments progress pieces text last) ↔
      (∀ token ∈ pieces, token.Sound) ∧
        ∀ selection ∈ selectionsBehind front (pieces.filterMap Token.taker?),
          selection.Served arguments ∧ ¬selection.Overlong arguments := by
  induction pieces generalizing front progress with
  | nil => exact ⟨fun _ => ⟨nofun, nofun⟩, fun _ => ⟨[], progress, .nil progress⟩⟩
  | cons token rest ih =>
      rw [exists_fills_cons_iff, List.forall_mem_cons]
      rcases token.fillToken_cases with ⟨hunsound, hfailures⟩ | ⟨hsound, hnone, text, hfill⟩ |
        ⟨modifiers, closing, spec, rfl, hread, htakes, htaker⟩
      · obtain ⟨failure, hfailure⟩ := hfailures arguments progress
        simp [hfailure, hunsound]
      · rw [List.filterMap_cons_none hnone]
        constructor
        · intro hrun
          obtain ⟨_, middle, hfirst, hrest⟩ := hrun
          rw [hfill] at hfirst
          cases hfirst
          obtain ⟨hall, hserved⟩ := (ih h).mp hrest
          exact ⟨⟨hsound, hall⟩, hserved⟩
        · intro hgood
          obtain ⟨⟨-, hall⟩, hserved⟩ := hgood
          exact ⟨text, progress, hfill arguments progress, (ih h).mpr ⟨hall, hserved⟩⟩
      · rw [List.filterMap_cons_some htaker, selectionsBehind, List.forall_mem_cons,
          Selection.served_and_not_overlong_iff]
        constructor
        · intro hrun
          obtain ⟨text, middle, hfirst, hrest⟩ := hrun
          obtain ⟨place, argument, hplace, hargument, happly, rfl⟩ :=
            (fillToken_eq_ok_iff hread htakes).mp hfirst
          obtain ⟨hall, hserved⟩ := (ih (h.advance hplace)).mp hrest
          refine ⟨⟨⟨spec, hread⟩, hall⟩, ⟨place, argument, ?_, hargument, ?_⟩, hserved⟩
          · exact (h spec.index).symm.trans hplace
          · exact (Spec.exists_apply_iff htakes argument).mp ⟨text, happly⟩
        · intro hgood
          obtain ⟨⟨-, hall⟩, ⟨place, argument, hplace, hargument, hwritten⟩, hserved⟩ := hgood
          obtain ⟨text, happly⟩ := (Spec.exists_apply_iff htakes argument).mpr hwritten
          have hplace : progress.place? spec.index = some place := (h spec.index).trans hplace
          refine ⟨text, _, (fillToken_eq_ok_iff hread htakes).mpr
            ⟨place, argument, hplace, hargument, happly, rfl⟩, ?_⟩
          exact (ih (h.advance hplace)).mpr ⟨hall, hserved⟩

theorem exists_fill_iff {format : String} :
    (∃ text, fill format arguments = .ok text) ↔
      WellFormed format ∧ ∀ selection ∈ selections format,
        selection.Served arguments ∧ ¬selection.Overlong arguments := by
  rw [WellFormed, selections, ← exists_fills_iff Progress.follows_start]
  constructor
  · intro h
    obtain ⟨text, hfill⟩ := h
    exact ⟨text.toList, fill_eq_ok_iff.mp hfill⟩
  · intro h
    obtain ⟨text, last, hrun⟩ := h
    exact ⟨_, fill_of_fills hrun⟩

/-! ## Runs without a fault -/

/-- The tokens are filled to the end, or as far as one that asks for too many places. -/
def RunsWithoutFault (arguments : List Argument) (progress : Progress) (pieces : List Token) :
    Prop :=
  (∃ text last, Fills arguments progress pieces text last) ∨
    ∃ front token back, pieces = front ++ token :: back ∧
      StopsAt arguments progress front token .tooManyPlaces

theorem RunsWithoutFault.cons {token : Token} {rest : List Token} {text : List Char}
    {middle : Progress} (hfirst : fillToken arguments progress token = .ok (text, middle))
    (h : RunsWithoutFault arguments middle rest) :
    RunsWithoutFault arguments progress (token :: rest) := by
  rcases h with ⟨others, last, hrun⟩ | ⟨front, stop, back, rfl, hstop⟩
  · exact .inl ⟨text ++ others, last, .cons hfirst hrun⟩
  · exact .inr ⟨token :: front, stop, back, rfl, hstop.cons hfirst⟩

theorem runsWithoutFault_of_served (h : progress.Follows front) {pieces : List Token}
    (hsound : ∀ token ∈ pieces, token.Sound)
    (hserved : ∀ selection ∈ selectionsBehind front (pieces.filterMap Token.taker?),
      selection.Served arguments) :
    RunsWithoutFault arguments progress pieces := by
  induction pieces generalizing front progress with
  | nil => exact .inl ⟨[], progress, .nil progress⟩
  | cons token rest ih =>
      obtain ⟨hfirst, hrest⟩ := List.forall_mem_cons.mp hsound
      rcases token.fillToken_cases with ⟨hunsound, -⟩ | ⟨-, hnone, text, hfill⟩ |
        ⟨modifiers, closing, spec, rfl, hread, htakes, htaker⟩
      · exact absurd hfirst hunsound
      · rw [List.filterMap_cons_none hnone] at hserved
        exact .cons (hfill arguments progress) (ih h hrest hserved)
      · rw [List.filterMap_cons_some htaker, selectionsBehind, List.forall_mem_cons] at hserved
        obtain ⟨⟨place, argument, hplace, hargument, haccepts⟩, hserved⟩ := hserved
        have hplace : progress.place? spec.index = some place := (h spec.index).trans hplace
        by_cases hplaces : spec.TooManyPlaces argument
        · refine .inr ⟨[], _, rest, rfl, [], progress, .nil progress, ?_⟩
          rw [fillToken_of_select hread (select_of_argument htakes hplace hargument),
            Spec.apply_of_tooManyPlaces hplaces]
          rfl
        · obtain ⟨text, happly⟩ := (Spec.exists_apply_iff htakes argument).mpr ⟨haccepts, hplaces⟩
          exact .cons ((fillToken_eq_ok_iff hread htakes).mpr
            ⟨place, argument, hplace, hargument, happly, rfl⟩) (ih (h.advance hplace) hrest hserved)

/-- With nothing wrong in itself and all its arguments there, a format string comes to a
text, or it breaks off. -/
theorem fill_of_served {format : String} (hformed : WellFormed format)
    (hserved : ∀ selection ∈ selections format, selection.Served arguments) :
    (∃ text, fill format arguments = .ok text) ∨
      fill format arguments = .error .tooManyPlaces := by
  rcases runsWithoutFault_of_served Progress.follows_start hformed hserved with
    ⟨text, last, hrun⟩ | ⟨front, token, back, hscan, hstop⟩
  · exact .inl ⟨_, fill_of_fills hrun⟩
  · exact .inr (fill_of_stopsAt hscan hstop)

/-! ## One place too many -/

theorem scan_largest_precision : scan "%.65536f".toList
    = [] ++ [.specifier ['.', '6', '5', '5', '3', '6'] 'f'] := by
  decide +kernel

theorem selections_largest_precision :
    selections "%.65536f" = [⟨some 0, .fixed, some 65536⟩] := by
  decide +kernel

/-- Under the largest precision there is nothing wrong with the format string, and a
number is of the right kind. -/
theorem served_largest_precision (value : Binary64) (rest : List Argument) :
    WellFormed "%.65536f" ∧
      ∀ selection ∈ selections "%.65536f", selection.Served (.float value :: rest) := by
  rw [WellFormed, scan_largest_precision, selections_largest_precision]
  simp only [List.nil_append, List.forall_mem_cons]
  exact ⟨⟨⟨_, rfl⟩, nofun⟩, ⟨0, _, rfl, rfl, trivial⟩, nofun⟩

/-! ## Other arguments -/

section

variable {arguments' : List Argument} {selection selection' : Selection}

theorem Selection.Served.of_same_or_null (h : selection.Served arguments)
    (hmatches : selection.Matches selection')
    (hsame : ∀ place, selection.place = some place →
      arguments'[place]? = arguments[place]? ∨ arguments'[place]? = some .null) :
    selection'.Served arguments' := by
  obtain ⟨place, argument, hplace, hargument, haccepts⟩ := h
  have hplace' : selection'.place = some place := hmatches.place.trans hplace
  rcases hsame place hplace with hthere | hnull
  · exact ⟨place, argument, hplace', hthere.trans hargument, hmatches.conversion ▸ haccepts⟩
  · exact ⟨place, .null, hplace', hnull, selection'.conversion.accepts_null⟩

theorem Conversion.not_writesPlaces_null (conversion : Conversion) :
    ¬conversion.WritesPlaces .null := by
  cases conversion <;> exact id

theorem Selection.Overlong.of_same_or_null (h : selection'.Overlong arguments')
    (hmatches : selection.Matches selection')
    (hsame : ∀ place, selection.place = some place →
      arguments'[place]? = arguments[place]? ∨ arguments'[place]? = some .null) :
    selection.Overlong arguments := by
  obtain ⟨place, argument, hplace, hargument, hwrites, hlt⟩ := h
  have hplace' : selection.place = some place := hmatches.place ▸ hplace
  have hle := hmatches.places
  rcases hsame place hplace' with hthere | hnull
  · exact ⟨place, argument, hplace', hthere ▸ hargument, hmatches.conversion ▸ hwrites, by omega⟩
  · cases hargument.symm.trans hnull
    exact absurd hwrites (Conversion.not_writesPlaces_null _)

end

/-! ## Success -/

/-- A format string can be filled exactly if there is nothing wrong with it in
itself, every argument that it selects is there and of a kind that the conversion
accepts, and no number is asked for with more places than numbers can be written with.
If that last condition alone does not hold, then there is neither a text nor an error:
the run breaks off. Nothing else matters: another format string that selects only the
same arguments for the same conversions, whatever its flags and widths, and with
precisions that are no greater than those or than numbers can be written with, can be
filled as well, and with other arguments that are the same at the selected places, or
null there. -/
theorem fill_succeeds_iff (format : String) (arguments : List Argument) :
    ((∃ text, fill format arguments = .ok text) ↔
      WellFormed format ∧ ∀ selection ∈ selections format,
        selection.Served arguments ∧ ¬selection.Overlong arguments) ∧
    (WellFormed format → (∀ selection ∈ selections format, selection.Served arguments) →
      (∃ selection ∈ selections format, selection.Overlong arguments) →
      fill format arguments = .error .tooManyPlaces) ∧
    ∀ (format' : String) (arguments' : List Argument),
      (∃ text, fill format arguments = .ok text) → WellFormed format' →
      (∀ selection' ∈ selections format', ∃ selection ∈ selections format,
        selection.Matches selection') →
      (∀ selection ∈ selections format, ∀ place, selection.place = some place →
        arguments'[place]? = arguments[place]? ∨ arguments'[place]? = some .null) →
      ∃ text, fill format' arguments' = .ok text := by
  refine ⟨exists_fill_iff, ?_, ?_⟩
  · intro hformed hserved hover
    obtain ⟨selection, hmem, hover⟩ := hover
    refine (fill_of_served hformed hserved).resolve_left fun hfill => ?_
    exact ((exists_fill_iff.mp hfill).2 selection hmem).2 hover
  · intro format' arguments' hfill hformed hmatches hsame
    obtain ⟨-, hgood⟩ := exists_fill_iff.mp hfill
    refine exists_fill_iff.mpr ⟨hformed, fun selection' hmem' => ?_⟩
    obtain ⟨selection, hmem, hmatch⟩ := hmatches selection' hmem'
    obtain ⟨hserved, hfits⟩ := hgood selection hmem
    have hsame := hsame selection hmem
    exact ⟨hserved.of_same_or_null hmatch hsame,
      fun hover => hfits (hover.of_same_or_null hmatch hsame)⟩

/-- A number with as many places as there can be, and null in place of a text; and one
place too many. -/
theorem fill_succeeds_most_places :
    let arguments := [Argument.float ⟨0x3FF8000000000000⟩, .text "a"]
    let others := [Argument.float ⟨0x3FF8000000000000⟩, .null]
    ((∃ text, fill "%2$-8s%+.1f" arguments = .ok text) ∧ WellFormed "%.65535f|%2$s" ∧
      (∀ selection' ∈ selections "%.65535f|%2$s", ∃ selection ∈ selections "%2$-8s%+.1f",
        selection.Matches selection') ∧
      ∃ text, fill "%.65535f|%2$s" others = .ok text) ∧
    WellFormed "%.65536f" ∧
      (∀ selection ∈ selections "%.65536f", selection.Served arguments) ∧
      (∃ selection ∈ selections "%.65536f", selection.Overlong arguments) ∧
      fill "%.65536f" arguments = .error .tooManyPlaces := by
  intro arguments others
  have hscan : scan "%2$-8s%+.1f".toList
      = [.specifier ['2', '$', '-', '8'] 's', .specifier ['+', '.', '1'] 'f'] := by
    decide +kernel
  have hscan' : scan "%.65535f|%2$s".toList
      = [.specifier ['.', '6', '5', '5', '3', '5'] 'f', .text ['|'],
        .specifier ['2', '$'] 's'] := by
    decide +kernel
  have hformed : WellFormed "%2$-8s%+.1f" := by
    rw [WellFormed, hscan]
    simp only [List.forall_mem_cons]
    exact ⟨⟨_, rfl⟩, ⟨_, rfl⟩, nofun⟩
  have hformed' : WellFormed "%.65535f|%2$s" := by
    rw [WellFormed, hscan']
    simp only [List.forall_mem_cons]
    exact ⟨⟨_, rfl⟩, trivial, ⟨_, rfl⟩, nofun⟩
  have hselections : selections "%2$-8s%+.1f"
      = [⟨some 1, .string false, none⟩, ⟨some 0, .fixed, some 1⟩] := by
    decide +kernel
  have hselections' : selections "%.65535f|%2$s"
      = [⟨some 0, .fixed, some 65535⟩, ⟨some 1, .string false, none⟩] := by
    decide +kernel
  have hfill := (fill_succeeds_iff "%2$-8s%+.1f" arguments).1.mpr ⟨hformed, by
    rw [hselections]
    simp only [List.forall_mem_cons, Selection.served_and_not_overlong_iff]
    exact ⟨⟨1, _, rfl, rfl, trivial, fun h => h.1⟩,
      ⟨0, _, rfl, rfl, trivial, fun h => absurd h.2 (by decide)⟩, nofun⟩⟩
  have hmatches : ∀ selection' ∈ selections "%.65535f|%2$s",
      ∃ selection ∈ selections "%2$-8s%+.1f", selection.Matches selection' := by
    rw [hselections, hselections']
    simp only [List.forall_mem_cons]
    exact ⟨⟨_, .tail _ (.head _), ⟨rfl, rfl, by decide⟩⟩,
      ⟨_, .head _, ⟨rfl, rfl, by decide⟩⟩, nofun⟩
  obtain ⟨hformedOver, hserved⟩ := served_largest_precision ⟨0x3FF8000000000000⟩ [.text "a"]
  have hover : ∃ selection ∈ selections "%.65536f", selection.Overlong arguments := by
    rw [selections_largest_precision]
    exact ⟨_, .head _, 0, _, rfl, rfl, ⟨by decide, by decide⟩, by decide⟩
  refine ⟨⟨hfill, hformed', hmatches,
      (fill_succeeds_iff "%2$-8s%+.1f" arguments).2.2 _ others hfill hformed' hmatches ?_⟩,
    hformedOver, hserved, hover,
    (fill_succeeds_iff "%.65536f" arguments).2.1 hformedOver hserved hover⟩
  rw [hselections]
  simp only [List.forall_mem_cons]
  refine ⟨?_, ?_, nofun⟩
  · intro place hplace
    cases hplace
    exact .inr rfl
  · intro place hplace
    cases hplace
    exact .inl rfl

/-- One, with the largest precision that a specifier may have: there is nothing wrong with
the format string and the argument is of the right kind, but there is no text. -/
theorem fill_breaks_off :
    let one := Argument.float ⟨0x3FF0000000000000⟩
    (WellFormed "%.65536f" ∧
      ∀ selection ∈ selections "%.65536f", selection.Served [one]) ∧
      fill "%.65536f" [one] = .error .tooManyPlaces ∧
      ¬∀ format arguments, (∃ text, fill format arguments = .ok text) ↔
        WellFormed format ∧ ∀ selection ∈ selections format, selection.Served arguments := by
  intro one
  have hgood := served_largest_precision ⟨0x3FF0000000000000⟩ []
  have hstop : StopsAt [one] .start [] (.specifier ['.', '6', '5', '5', '3', '6'] 'f')
      .tooManyPlaces :=
    ⟨_, _, .nil _, rfl⟩
  have hfill : fill "%.65536f" [one] = .error .tooManyPlaces :=
    fill_of_stopsAt scan_largest_precision hstop
  refine ⟨hgood, hfill, fun hall => ?_⟩
  obtain ⟨text, htext⟩ := (hall _ _).mpr hgood
  cases hfill.symm.trans htext

end MailMerge.Format
