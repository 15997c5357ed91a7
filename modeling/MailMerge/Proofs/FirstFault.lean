import MailMerge.Proofs.Filling
import MailMerge.Proofs.Scanning

/-!
# The first fault

Filling stops at the first token with a fault, and the error has the place of
that token. Cutting the format string off there changes nothing about the
tokens in front of it, because what they end before is then the end; so the part
in front can be filled. A specifier that is closed stays the token it is,
whatever is put behind it, and so does everything in front of it; so the error
does not depend on the rest of the format string.

Percent signs that nothing closes are another matter: what is put behind one may
close it.
-/

namespace MailMerge.Format

/-! ## Tokens and their texts -/

theorem Token.endsBefore_nil (token : Token) : token.EndsBefore [] := by
  cases token with
  | specifier modifiers closing => trivial
  | text content => nofun
  | invalid modifiers => nofun

/-- A complete token can be told from its text. -/
theorem Token.Complete.eq_of_raw_eq {token other : Token} (h : token.Complete)
    (hother : other.Complete) (hraw : token.raw = other.raw) : token = other := by
  have hscan := scan_raw_append h token.endsBefore_nil
  rw [hraw, scan_raw_append hother other.endsBefore_nil] at hscan
  exact (List.cons.inj hscan).1.symm

/-- At every place of a format string there is one token at most. -/
theorem eq_of_mem_tokens {format : String} {span : Span} {token other : Token}
    (h : (span, token) ∈ tokens format) (hother : (span, other) ∈ tokens format) :
    token = other := by
  obtain ⟨hmem, hslice⟩ := slice?_of_mem_layOut h
  obtain ⟨hmem', hslice'⟩ := slice?_of_mem_layOut hother
  rw [hslice] at hslice'
  have hscan := scannable_scan format.toList
  exact (hscan.complete hmem).eq_of_raw_eq (hscan.complete hmem') (Option.some.inj hslice')

/-! ## A format string that is cut off at a token, or goes on otherwise -/

section

variable {format : List Char} {front back : List Token}

theorem flatMap_raw_of_scan {token : Token} (h : scan format = front ++ token :: back) :
    format = front.flatMap Token.raw ++ token.raw ++ back.flatMap Token.raw := by
  rw [← flatMap_raw_scan format, h, List.flatMap_append, List.flatMap_cons, List.append_assoc]

theorem scan_front (h : scan format = front ++ back) :
    scan (front.flatMap Token.raw) = front := by
  have hscannable := scannable_scan format
  rw [h] at hscannable
  exact scan_flatMap_raw hscannable.of_append_left

/-- A specifier and the tokens in front of it are scanned as they were, whatever
stands behind it. -/
theorem scan_front_specifier {modifiers : List Char} {closing : Char}
    (h : scan format = front ++ .specifier modifiers closing :: back) (after : List Char) :
    scan (front.flatMap Token.raw ++ (Token.specifier modifiers closing).raw ++ after)
      = front ++ .specifier modifiers closing :: scan after := by
  have hscannable := scannable_scan format
  rw [h] at hscannable
  have hback : Scannable (.specifier modifiers closing :: scan after) :=
    ⟨hscannable.of_append_right.1, trivial, scannable_scan after⟩
  have hfront := hscannable.append_mono hback (by rintro c ⟨⟩; rfl)
  rw [← scan_flatMap_raw hfront, List.flatMap_append, List.flatMap_cons, flatMap_raw_scan,
    List.append_assoc]

end

/-- An error names a piece of the format string and its place, and it is the
leftmost one: the format string can be filled as far as that place. If the piece
is a specifier, the same error comes of every format string that goes as far
as the specifier does and then on in any way. -/
theorem fill_error_leftmost {format : String} {arguments : List Argument} {error : Error}
    (h : fill format arguments = .error (.returned error)) :
    error.span.slice? format.toList = some error.specifier.toList ∧
    (∃ before text, Span.slice? ⟨0, error.span.start⟩ format.toList = some before ∧
      fill (String.ofList before) arguments = .ok text) ∧
    ∀ modifiers closing, (error.span, .specifier modifiers closing) ∈ tokens format →
      ∃ upTo, Span.slice? ⟨0, error.span.stop⟩ format.toList = some upTo ∧
        ∀ after : String,
          fill (String.ofList upTo ++ after) arguments = .error (.returned error) := by
  obtain ⟨front, token, back, fault, hscan, hstop, rfl⟩ := fill_eq_returned_iff.mp h
  have hformat := flatMap_raw_of_scan hscan
  have hplace : (errorAt 0 front token fault).span
      = ⟨byteLength (front.flatMap Token.raw),
          byteLength (front.flatMap Token.raw ++ token.raw)⟩ := by
    rw [errorAt_zero, byteLength_append]
  refine ⟨?_, ?_, ?_⟩
  · rw [errorAt_zero, String.toList_ofList]
    exact slice?_eq_some_iff.mpr ⟨_, _, hformat, rfl, rfl⟩
  · obtain ⟨text, last, hrun, -⟩ := hstop
    refine ⟨front.flatMap Token.raw, String.ofList text, ?_, ?_⟩
    · rw [hplace, hformat, List.append_assoc]
      exact slice?_front ..
    · have hrun' : Fills arguments .start
          (scan (String.ofList (front.flatMap Token.raw)).toList) text last := by
        rwa [String.toList_ofList, scan_front hscan]
      exact fill_of_fills hrun'
  · intro modifiers closing hmem
    have hhere : ((errorAt 0 front token fault).span, token) ∈ tokens format :=
      mem_layOut_iff.mpr ⟨front, back, hscan, rfl, rfl⟩
    obtain rfl := eq_of_mem_tokens hhere hmem
    let upTo := front.flatMap Token.raw ++ (Token.specifier modifiers closing).raw
    refine ⟨upTo, ?_, ?_⟩
    · rw [hplace, hformat]
      exact slice?_front ..
    · intro after
      have hafter : scan (String.ofList upTo ++ after).toList
          = front ++ .specifier modifiers closing :: scan after.toList := by
        rw [String.toList_append, String.toList_ofList]
        exact scan_front_specifier hscan after.toList
      exact fill_of_stopsAt hafter hstop

/-- The second of two specifiers finds no argument, behind a letter of two bytes,
and no other text behind it helps. -/
theorem fill_error_leftmost_second :
    let error : Error := ⟨.missingArgument, "%d", ⟨6, 8⟩⟩
    fill "%sé: %d!" [.text "one"] = .error (.returned error) ∧
      (∃ before text, Span.slice? ⟨0, 6⟩ "%sé: %d!".toList = some before ∧
        fill (String.ofList before) [.text "one"] = .ok text) ∧
      (error.span, .specifier [] 'd') ∈ tokens "%sé: %d!" ∧
      ∃ upTo, Span.slice? ⟨0, 8⟩ "%sé: %d!".toList = some upTo ∧
        ∀ after : String,
          fill (String.ofList upTo ++ after) [.text "one"] = .error (.returned error) := by
  intro error
  let front : List Token := [.specifier [] 's', .text ['é', ':', ' ']]
  have hscan : scan "%sé: %d!".toList = front ++ .specifier [] 'd' :: [.text ['!']] := by
    decide +kernel
  have hstop : StopsAt [.text "one"] .start front (.specifier [] 'd')
      (.returned .missingArgument) :=
    ⟨_, _, .cons rfl (.cons rfl (.nil _)), rfl⟩
  have hfill : fill "%sé: %d!" [.text "one"] = .error (.returned error) :=
    fill_of_stopsAt hscan hstop
  have hmem : (error.span, .specifier [] 'd') ∈ tokens "%sé: %d!" :=
    mem_layOut_iff.mpr ⟨front, [.text ['!']], hscan, rfl, rfl⟩
  obtain ⟨-, hbefore, hupTo⟩ := fill_error_leftmost hfill
  exact ⟨hfill, hbefore, hmem, hupTo [] 'd' hmem⟩

end MailMerge.Format
