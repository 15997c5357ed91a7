import MailMerge.Proofs.Widening

/-!
# A text cut short

A precision cuts a text before it is put into capitals, not after. For small letters it
makes no difference, and the precision is the greatest length that a text can have. In
capitals a text may be longer than it was: a German sharp s that was left as the only
letter becomes two. So in capitals the precision limits what is taken of the argument,
and the length only as far as capital forms are single characters (`precision_cuts`).

No text gets shorter in capitals. That is why a precision which the whole text in its
capitals keeps within does not change anything, though the cut comes first.
-/

namespace MailMerge

/-! ## Capitals and length -/

theorem length_capitalForm (c : Char) :
    1 ≤ (capitalForm c).length ∧ (capitalForm c).length ≤ 3 := by
  have hsequences : capitalSequences.all
      (fun entry => decide (1 ≤ entry.2.length ∧ entry.2.length ≤ 3)) = true := by
    decide
  have hone : ∀ c : Char, 1 ≤ [c].length ∧ [c].length ≤ 3 := fun _ => ⟨Nat.le_refl 1, by simp⟩
  unfold capitalForm
  split
  · exact hone _
  · split
    · next entry hentry =>
        rw [List.length_map]
        have hmem := List.mem_of_find?_eq_some hentry
        exact of_decide_eq_true (List.all_eq_true.mp hsequences entry hmem)
    · split <;> exact hone _

theorem length_capitals_bounds (text : List Char) :
    text.length ≤ (capitals text).length ∧ (capitals text).length ≤ 3 * text.length := by
  induction text with
  | nil => exact ⟨Nat.le_refl 0, Nat.le_refl 0⟩
  | cons c text ih =>
      have hform := length_capitalForm c
      have hcons : capitals (c :: text) = capitalForm c ++ capitals text := rfl
      rw [hcons, List.length_append, List.length_cons]
      omega

theorem length_capitals_of_single {text : List Char}
    (h : ∀ c ∈ text, (capitalForm c).length = 1) : (capitals text).length = text.length := by
  induction text with
  | nil => rfl
  | cons c text ih =>
      obtain ⟨hc, htext⟩ := List.forall_mem_cons.mp h
      have hcons : capitals (c :: text) = capitalForm c ++ capitals text := rfl
      rw [hcons, List.length_append, hc, ih htext, List.length_cons, Nat.add_comm]

namespace Format

variable {spec : Spec} {precision : Nat}

/-! ## What is cut -/

/-- The conversions whose texts a precision cuts. -/
inductive Conversion.WritesText : Conversion → Prop
  | string (upper : Bool) : WritesText (.string upper)
  | boolean (upper : Bool) : WritesText (.boolean upper)

/-- The text that is made of an argument, in full and in its own letters. -/
def Conversion.fullText : Conversion → Argument → List Char
  | .boolean _, argument => (Argument.boolean (Spec.truth argument)).plain
  | _, argument => argument.plain

theorem Conversion.WritesText.body (h : spec.conversion.WritesText) (argument : Argument) :
    spec.body argument = .ok (.text (spec.truncate (spec.conversion.fullText argument))) := by
  unfold Spec.body
  generalize spec.conversion = conversion at h ⊢
  cases h <;> rfl

theorem Conversion.WritesText.apply (h : spec.conversion.WritesText) (hwidth : spec.width = none)
    (argument : Option Argument) :
    spec.apply argument
      = .ok (spec.inCase (spec.truncate (spec.conversion.fullText (argument.getD .null)))) := by
  have hline : spec.conversion ≠ .newline := by
    intro hconversion
    rw [hconversion] at h
    cases h
  exact Spec.apply_of_no_width hwidth hline argument (h.body _)

theorem isAscii_fullText_boolean (upper : Bool) (argument : Argument) :
    IsAscii (Conversion.fullText (.boolean upper) argument) := by
  show IsAscii (Argument.boolean (Spec.truth argument)).plain
  cases Spec.truth argument <;> decide

def Spec.withPrecision (spec : Spec) (precision : Option Nat) : Spec :=
  { spec with precision }

theorem Spec.length_inCase_bounds (spec : Spec) (text : List Char) :
    text.length ≤ (spec.inCase text).length ∧ (spec.inCase text).length ≤ 3 * text.length := by
  unfold Spec.inCase
  split
  · exact length_capitals_bounds text
  · omega

/-- What is written of a text has as many characters, unless capitals add some; they add
none to truth values. -/
theorem Conversion.WritesText.length_inCase (h : spec.conversion.WritesText) (argument : Argument)
    (hsingle : spec.conversion = .string true →
      ∀ c ∈ (spec.conversion.fullText argument).take precision, (capitalForm c).length = 1) :
    (spec.inCase ((spec.conversion.fullText argument).take precision)).length
      = ((spec.conversion.fullText argument).take precision).length := by
  generalize hconversion : spec.conversion = conversion at h hsingle ⊢
  cases h with
  | boolean upper =>
      apply Spec.length_inCase
      exact fun c hc => isAscii_fullText_boolean upper argument c (List.mem_of_mem_take hc)
  | string upper =>
      cases upper with
      | false => rw [Spec.inCase_of_not_upper (by rw [hconversion]; rfl)]
      | true =>
          have hupper : spec.conversion.isUpper = true := by rw [hconversion]; rfl
          rw [Spec.inCase, if_pos hupper, length_capitals_of_single (hsingle rfl)]

/-- Without a width, a precision leaves so many characters of the text that is made of an
argument, and that is what is written, in capitals if the conversion asks for them. The
text has no more characters than that, unless one of those that are left has a capital
form of several; in any case it has no more than three times as many. And nothing is
changed if the text is not longer without the precision. -/
theorem precision_cuts (h : spec.conversion.WritesText) (hwidth : spec.width = none)
    (hprecision : spec.precision = some precision) (argument : Option Argument) :
    let full := spec.conversion.fullText (argument.getD .null)
    ∃ text uncut, spec.apply argument = .ok text ∧
      (spec.withPrecision none).apply argument = .ok uncut ∧
      text = spec.inCase (full.take precision) ∧
      ((spec.conversion = .string true →
        ∀ c ∈ full.take precision, (capitalForm c).length = 1) → text.length ≤ precision) ∧
      text.length ≤ 3 * precision ∧
      (uncut.length ≤ precision → text = uncut) := by
  intro full
  have huncut : (spec.withPrecision none).conversion.WritesText := h
  have htruncate : spec.truncate full = full.take precision := by
    rw [Spec.truncate, hprecision]
  have htext := h.apply hwidth argument
  change spec.apply argument = .ok (spec.inCase (spec.truncate full)) at htext
  rw [htruncate] at htext
  have htake := List.length_take_le precision full
  refine ⟨_, _, htext, huncut.apply hwidth argument, rfl, fun hsingle => ?_, ?_, fun hle => ?_⟩
  · rw [h.length_inCase _ hsingle]
    exact htake
  · have hbounds := spec.length_inCase_bounds (full.take precision)
    omega
  · -- What is longer in capitals was not shorter before, so nothing was cut.
    have hbounds := spec.length_inCase_bounds full
    rw [List.take_of_length_le (Nat.le_trans hbounds.1 hle)]
    rfl

/-- A single sharp s, of which a precision of one leaves two letters. -/
theorem precision_exceeded_by_capitals :
    let spec : Spec := ⟨.next, ⟨false, false, false, false, false, false⟩, none, some 1, .string true⟩
    spec.conversion.WritesText ∧ spec.apply (some (.text "ß")) = .ok "SS".toList ∧
      ¬∀ (spec : Spec) (precision : Nat) (argument : Argument), spec.conversion.WritesText →
        spec.width = none → spec.precision = some precision →
          ∃ text, spec.apply (some argument) = .ok text ∧ text.length ≤ precision := by
  intro spec
  have htext : spec.apply (some (.text "ß")) = .ok "SS".toList := by rfl
  refine ⟨.string true, htext, fun hall => ?_⟩
  obtain ⟨text, happly, hlength⟩ := hall spec 1 (.text "ß") (.string true) rfl rfl
  cases htext.symm.trans happly
  exact absurd hlength (by decide)

/-- A ligature behind the cut, and one that a precision leaves alone. -/
theorem precision_cuts_ligatures :
    let spec : Spec := ⟨.next, ⟨false, false, false, false, false, false⟩, none, some 3, .string true⟩
    (spec.conversion.WritesText ∧ spec.width = none ∧ spec.precision = some 3) ∧
      (∃ text, spec.apply (some (.text "cliﬀ")) = .ok text ∧ text = "CLI".toList ∧
        text.length ≤ 3) ∧
      ∃ text uncut, spec.apply (some (.text "oﬀ")) = .ok text ∧
        (spec.withPrecision none).apply (some (.text "oﬀ")) = .ok uncut ∧
        uncut = "OFF".toList ∧ text = uncut := by
  intro spec
  have hwrites : spec.conversion.WritesText := .string true
  obtain ⟨cliff, _, hcliff, -, hcapitals, hsingle, -⟩ :=
    precision_cuts hwrites rfl rfl (some (.text "cliﬀ"))
  obtain ⟨off, uncut, hoff, huncut, -, -, -, hsame⟩ :=
    precision_cuts hwrites rfl rfl (some (.text "oﬀ"))
  have hfull : uncut = "OFF".toList := by
    have htext : (spec.withPrecision none).apply (some (.text "oﬀ")) = .ok "OFF".toList := by rfl
    exact Except.ok.inj (huncut.symm.trans htext)
  have hcut : ("cliﬀ".toList.take 3).all (fun c => decide ((capitalForm c).length = 1)) = true := by
    decide
  refine ⟨⟨hwrites, rfl, rfl⟩, ⟨cliff, hcliff, hcapitals.trans (by decide), ?_⟩,
    off, uncut, hoff, huncut, hfull, hsame ?_⟩
  · exact hsingle fun _ c hc => of_decide_eq_true (List.all_eq_true.mp hcut c hc)
  · rw [hfull]
    decide

end Format

end MailMerge
