import MailMerge.Proofs.Numerals
import MailMerge.Proofs.Runs

/-!
# How a text is widened

A width is looked at twice, when zeros are put into a numeral and when spaces are
put around whatever there is. The two never meet. Zeros are counted before capitals
are made, but a numeral is ASCII and keeps its length; so once it was filled up with
zeros it is as wide as it should be, and no space is added. And where no zeros are
put in, the spaces are put around the very text that comes without a width.

`Spec.Widens` says what a text becomes, and `apply_widens` that it does. Which of the
three ways is taken can be told from the flags, the conversion and the argument.
-/

namespace MailMerge.Format

variable {spec : Spec} {width : Nat} {argument : Argument}

def Spec.withoutWidth (spec : Spec) : Spec :=
  { spec with width := none }

/-- A text is a sign, the mark that the specifier asks for, and what begins with a
digit. There is only one way to cut it like this. It is as long in bytes as it is in
characters. -/
structure Spec.Cuts (spec : Spec) (text sign mark digits : List Char) : Prop where
  text_eq : text = sign ++ mark ++ digits
  sign_mem : sign ∈ signs
  mark_eq : mark = spec.mark
  first : ∃ c ∈ digits.head?, Toml.isDigitOf 16 c = true
  bytes : byteLength text = text.length

/-- What a text becomes that should be so wide. -/
structure Spec.Widens (spec : Spec) (argument : Argument) (width : Nat)
    (text widened : List Char) : Prop where
  /-- A text that is wide enough stays. -/
  wide : width ≤ text.length → widened = text
  length : text.length < width → widened.length = width
  left : text.length < width → spec.flags.leftAlign = true →
    widened = text ++ List.replicate (width - text.length) ' '
  /-- Zeros go between the mark and the digits. -/
  zeros : text.length < width → spec.flags.leftAlign = false → spec.flags.zeroPad = true →
    spec.conversion.MakesNumeral argument →
    ∃ sign mark digits, spec.Cuts text sign mark digits ∧
      widened = sign ++ mark ++ List.replicate (width - text.length) '0' ++ digits
  right : text.length < width → spec.flags.leftAlign = false →
    ¬(spec.flags.zeroPad = true ∧ spec.conversion.MakesNumeral argument) →
    widened = List.replicate (width - text.length) ' ' ++ text

theorem Spec.Cuts.isDigitOf_head {text sign mark digits : List Char}
    (h : spec.Cuts text sign mark digits) :
    ∀ c ∈ (mark ++ digits).head?, Toml.isDigitOf 16 c = true := by
  intro c hc
  rw [List.head?_append] at hc
  cases hmark : mark.head? with
  | none =>
      obtain ⟨d, hd, hfirst⟩ := h.first
      rw [hmark, Option.none_or] at hc
      rwa [Option.mem_unique hc hd]
  | some d =>
      rw [hmark] at hc
      cases hc
      rw [h.mark_eq] at hmark
      exact Spec.isDigitOf_head_mark hmark

theorem Spec.Cuts.unique {text sign sign' mark mark' digits digits' : List Char}
    (h : spec.Cuts text sign mark digits) (h' : spec.Cuts text sign' mark' digits') :
    sign = sign' ∧ mark = mark' ∧ digits = digits' := by
  have htext := h.text_eq.symm.trans h'.text_eq
  rw [List.append_assoc, List.append_assoc] at htext
  obtain ⟨hsign, hrest⟩ := append_inj_of_head? (p := fun c => !Toml.isDigitOf 16 c)
    (not_isDigitOf_of_mem_signs h.sign_mem) (not_isDigitOf_of_mem_signs h'.sign_mem)
    (fun c hc => by rw [h.isDigitOf_head c hc]; rfl)
    (fun c hc => by rw [h'.isDigitOf_head c hc]; rfl) htext
  have hmark : mark = mark' := h.mark_eq.trans h'.mark_eq.symm
  rw [hmark] at hrest
  exact ⟨hsign, hmark, List.append_cancel_left hrest⟩

/-! ## Spaces -/

theorem Spec.pad_of_leftAlign (hwidth : spec.width = some width)
    (hleft : spec.flags.leftAlign = true) (text : List Char) :
    spec.pad text = text ++ List.replicate (width - text.length) ' ' := by
  rw [Spec.pad, hwidth]
  exact if_pos hleft

theorem Spec.pad_of_rightAlign (hwidth : spec.width = some width)
    (hleft : spec.flags.leftAlign = false) (text : List Char) :
    spec.pad text = List.replicate (width - text.length) ' ' ++ text := by
  rw [Spec.pad, hwidth]
  exact if_neg (by simp [hleft])

theorem Spec.pad_of_le (hwidth : spec.width = some width) {text : List Char}
    (h : width ≤ text.length) : spec.pad text = text := by
  have hzero : width - text.length = 0 := by omega
  cases hleft : spec.flags.leftAlign with
  | true => rw [Spec.pad_of_leftAlign hwidth hleft, hzero, List.replicate_zero, List.append_nil]
  | false => rw [Spec.pad_of_rightAlign hwidth hleft, hzero, List.replicate_zero, List.nil_append]

theorem Spec.length_pad (hwidth : spec.width = some width) {text : List Char}
    (h : text.length < width) : (spec.pad text).length = width := by
  cases hleft : spec.flags.leftAlign with
  | true =>
      rw [Spec.pad_of_leftAlign hwidth hleft, List.length_append, List.length_replicate]
      omega
  | false =>
      rw [Spec.pad_of_rightAlign hwidth hleft, List.length_append, List.length_replicate]
      omega

theorem Spec.pad_of_no_width (hwidth : spec.width = none) (text : List Char) :
    spec.pad text = text := by
  rw [Spec.pad, hwidth]

/-- A text comes out as wide as it should be, or as it was. -/
theorem Spec.length_pad_eq_max (spec : Spec) (text : List Char) :
    (spec.pad text).length = max (spec.width.getD 0) text.length := by
  cases hwidth : spec.width with
  | none => rw [Spec.pad_of_no_width hwidth, Option.getD_none, Nat.zero_max]
  | some width =>
      rw [Option.getD_some]
      by_cases hlt : text.length < width
      · rw [Spec.length_pad hwidth hlt]
        omega
      · rw [Spec.pad_of_le hwidth (by omega)]
        omega

/-- Where no zeros are put in, spaces do it. -/
theorem Spec.widens_pad (hwidth : spec.width = some width)
    (h : ¬(spec.flags.leftAlign = false ∧ spec.flags.zeroPad = true ∧
      spec.conversion.MakesNumeral argument)) (text : List Char) :
    spec.Widens argument width text (spec.pad text) where
  wide := Spec.pad_of_le hwidth
  length := Spec.length_pad hwidth
  left _ hleft := Spec.pad_of_leftAlign hwidth hleft text
  zeros _ hleft hzero hnumeral := absurd ⟨hleft, hzero, hnumeral⟩ h
  right _ hleft _ := Spec.pad_of_rightAlign hwidth hleft text

/-! ## Zeros -/

theorem Spec.zeros_of_zeroPad (hwidth : spec.width = some width)
    (hleft : spec.flags.leftAlign = false) (hzero : spec.flags.zeroPad = true) (length : Nat) :
    spec.zeros length = List.replicate (width - length) '0' := by
  rw [Spec.zeros, hwidth]
  exact if_pos (by rw [hleft, hzero]; rfl)

theorem Spec.zeros_eq_nil (h : ¬(spec.flags.leftAlign = false ∧ spec.flags.zeroPad = true))
    (length : Nat) : spec.zeros length = [] := by
  unfold Spec.zeros
  split
  · refine if_neg ?_
    simpa [and_comm] using h
  · rfl

theorem Spec.zeros_of_no_width (hwidth : spec.width = none) (length : Nat) :
    spec.zeros length = [] := by
  rw [Spec.zeros, hwidth]

@[simp] theorem Spec.zeros_withoutWidth (spec : Spec) (length : Nat) :
    spec.withoutWidth.zeros length = [] := rfl

theorem Spec.widens_zeros (width : Nat) (hleft : spec.flags.leftAlign = false)
    (hzero : spec.flags.zeroPad = true) (hnumeral : spec.conversion.MakesNumeral argument)
    {text sign mark digits : List Char} (h : spec.Cuts text sign mark digits) :
    spec.Widens argument width text
      (sign ++ mark ++ List.replicate (width - text.length) '0' ++ digits) where
  wide hle := by
    rw [Nat.sub_eq_zero_of_le hle, List.replicate_zero, List.append_nil, h.text_eq]
  length hlt := by
    have hlength := congrArg List.length h.text_eq
    simp only [List.length_append, List.length_replicate] at hlength ⊢
    omega
  left _ hright := absurd hright (by simp [hleft])
  zeros _ _ _ _ := ⟨sign, mark, digits, h, rfl⟩
  right _ _ hnot := absurd ⟨hzero, hnumeral⟩ hnot

/-! ## Numerals -/

theorem Spec.first_inCase {digits : List Char} (h : IsNumeral digits) :
    ∃ c ∈ (spec.inCase digits).head?, Toml.isDigitOf 16 c = true := by
  obtain ⟨d, hd, hfirst⟩ := h.first
  obtain ⟨rest, rfl⟩ := List.head?_eq_some_iff.mp hfirst
  obtain ⟨hsmall, hcapital⟩ := isDigitOf_digitChar hd
  rw [Spec.inCase_of_isAscii h.ascii]
  split
  · exact ⟨_, rfl, hcapital⟩
  · exact ⟨_, rfl, hsmall⟩

/-- A numeral in its capitals, with zeros in front of its digits. -/
theorem Spec.Parted.inCase_eq {sign mark digits : List Char} (h : spec.Parted sign mark digits)
    (count : Nat) :
    spec.inCase (sign ++ mark ++ List.replicate count '0' ++ digits)
      = sign ++ spec.mark ++ List.replicate count '0' ++ spec.inCase digits := by
  rw [Spec.inCase_append, Spec.inCase_append, Spec.inCase_append, Spec.inCase_sign h.sign_mem,
    h.mark_eq, Spec.inCase_zeros]

theorem Spec.Parted.cuts {sign mark digits : List Char} (h : spec.Parted sign mark digits) :
    spec.Cuts (spec.inCase (sign ++ mark ++ digits)) sign spec.mark (spec.inCase digits) := by
  have hsign : IsAscii sign := ascii_of_mem_signs h.sign_mem
  have hascii : IsAscii (spec.inCase (sign ++ mark ++ digits)) :=
    Spec.isAscii_inCase ((hsign.append h.mark_ascii).append h.isNumeral.ascii)
  have htext := h.inCase_eq 0
  rw [List.replicate_zero, List.append_nil, List.append_nil] at htext
  exact ⟨htext, h.sign_mem, rfl, Spec.first_inCase h.isNumeral, hascii.byteLength_eq⟩

/-- A numeral is as long before capitals are made as after. -/
theorem Spec.Parted.length_inCase {sign mark digits : List Char}
    (h : spec.Parted sign mark digits) :
    (spec.inCase (sign ++ mark ++ digits)).length
      = sign.length + mark.length + digits.length := by
  have hsign : IsAscii sign := ascii_of_mem_signs h.sign_mem
  rw [Spec.length_inCase ((hsign.append h.mark_ascii).append h.isNumeral.ascii),
    List.length_append, List.length_append]

/-! ## Specifiers -/

theorem Spec.bodyText_numeral (spec : Spec) (sign mark digits : List Char) :
    spec.bodyText (.numeral sign mark digits)
      = sign ++ mark ++ spec.zeros (sign.length + mark.length + digits.length) ++ digits := rfl

theorem Spec.apply_eq_ok (spec : Spec) (hline : spec.conversion ≠ .newline)
    (argument : Option Argument) {body : Body}
    (h : spec.body (argument.getD .null) = .ok body) :
    spec.apply argument = .ok (spec.pad (spec.inCase (spec.bodyText body))) := by
  rw [Spec.apply, if_neg hline, h]
  rfl

theorem Spec.apply_eq_error (spec : Spec) (hline : spec.conversion ≠ .newline)
    (argument : Option Argument) {failure : Failure Fault}
    (h : spec.body (argument.getD .null) = .error failure) :
    spec.apply argument = .error failure := by
  rw [Spec.apply, if_neg hline, h]
  rfl

theorem Spec.apply_of_no_width (hwidth : spec.width = none) (hline : spec.conversion ≠ .newline)
    (argument : Option Argument) {body : Body}
    (h : spec.body (argument.getD .null) = .ok body) :
    spec.apply argument = .ok (spec.inCase (spec.bodyText body)) := by
  rw [spec.apply_eq_ok hline argument h, Spec.pad_of_no_width hwidth]

theorem Spec.bodyText_of_no_width (hwidth : spec.width = none) (sign mark digits : List Char) :
    spec.bodyText (.numeral sign mark digits) = sign ++ mark ++ digits := by
  rw [Spec.bodyText_numeral, Spec.zeros_of_no_width hwidth, List.append_nil]

/-- Without a width a body is put into capitals, and that is all. -/
theorem Spec.apply_withoutWidth (spec : Spec) (hline : spec.conversion ≠ .newline)
    (argument : Option Argument) {body : Body}
    (h : spec.body (argument.getD .null) = .ok body) :
    spec.withoutWidth.apply argument = .ok (spec.inCase (spec.withoutWidth.bodyText body)) :=
  spec.withoutWidth.apply_eq_ok hline argument h

theorem Spec.widens_numeral (hwidth : spec.width = some width)
    (hnumeral : spec.conversion.MakesNumeral argument) {sign mark digits : List Char}
    (h : spec.Parted sign mark digits) :
    spec.Widens argument width (spec.inCase (sign ++ mark ++ digits))
      (spec.pad (spec.inCase (spec.bodyText (.numeral sign mark digits)))) := by
  rw [Spec.bodyText_numeral]
  by_cases hzeros : spec.flags.leftAlign = false ∧ spec.flags.zeroPad = true
  · obtain ⟨hleft, hzero⟩ := hzeros
    have hwidens := Spec.widens_zeros width hleft hzero hnumeral h.cuts
    rw [Spec.zeros_of_zeroPad hwidth hleft hzero, ← h.length_inCase, h.inCase_eq,
      Spec.pad_of_le hwidth]
    · exact hwidens
    · by_cases hlt : (spec.inCase (sign ++ mark ++ digits)).length < width
      · exact Nat.le_of_eq (hwidens.length hlt).symm
      · rw [hwidens.wide (by omega)]
        omega
  · rw [Spec.zeros_eq_nil hzeros, List.append_nil]
    exact Spec.widens_pad hwidth (fun hall => hzeros ⟨hall.1, hall.2.1⟩) _

/-- Zeros and spaces never make a numeral wider than it should be. -/
theorem Spec.length_pad_numeral (hnumeral : spec.conversion.MakesNumeral argument)
    {sign mark digits : List Char} (h : spec.Parted sign mark digits) :
    (spec.pad (spec.inCase (spec.bodyText (.numeral sign mark digits)))).length
      = max (spec.width.getD 0) (sign.length + mark.length + digits.length) := by
  rw [← h.length_inCase]
  cases hwidth : spec.width with
  | none =>
      rw [Spec.bodyText_numeral, Spec.zeros_of_no_width hwidth, List.append_nil,
        Spec.length_pad_eq_max, hwidth]
  | some width =>
      have hwidens := Spec.widens_numeral hwidth hnumeral h
      rw [Option.getD_some]
      by_cases hlt : (spec.inCase (sign ++ mark ++ digits)).length < width
      · rw [hwidens.length hlt]
        omega
      · rw [hwidens.wide (by omega)]
        omega

/-- What a specifier with a width makes of an argument it accepts is what it makes of
it without the width, widened; and it accepts the same ones. -/
theorem apply_widens (hwidth : spec.width = some width) (hline : spec.conversion ≠ .newline)
    (argument : Option Argument) :
    (∀ failure, spec.apply argument = .error failure ↔
      spec.withoutWidth.apply argument = .error failure) ∧
    ∀ text, spec.withoutWidth.apply argument = .ok text →
      ∃ widened, spec.apply argument = .ok widened ∧
        spec.Widens (argument.getD .null) width text widened := by
  have hline' : spec.withoutWidth.conversion ≠ .newline := hline
  cases hbody : spec.body (argument.getD .null) with
  | error failure =>
      have hbare : spec.withoutWidth.body (argument.getD .null) = .error failure := hbody
      rw [spec.apply_eq_error hline argument hbody,
        spec.withoutWidth.apply_eq_error hline' argument hbare]
      exact ⟨fun _ => Iff.rfl, nofun⟩
  | ok body =>
      rw [spec.apply_eq_ok hline argument hbody, spec.apply_withoutWidth hline argument hbody]
      refine ⟨fun _ => ⟨nofun, nofun⟩, ?_⟩
      intro text htext
      cases htext
      refine ⟨_, rfl, ?_⟩
      by_cases hnumeral : spec.conversion.MakesNumeral (argument.getD .null)
      · obtain ⟨sign, mark, digits, rfl, hparted⟩ := Spec.exists_numeral hnumeral hbody
        have hbare : spec.withoutWidth.bodyText (.numeral sign mark digits)
            = sign ++ mark ++ digits := by
          rw [Spec.bodyText_numeral, Spec.zeros_withoutWidth, List.append_nil]
        rw [hbare]
        exact Spec.widens_numeral hwidth hnumeral hparted
      · obtain ⟨content, rfl⟩ := Spec.exists_text hnumeral hbody
        exact Spec.widens_pad hwidth (fun hall => hnumeral hall.2.2) _

/-- Zeros in a number that has a mark, all of it in capitals. -/
theorem apply_widens_capitals :
    let spec : Spec := ⟨.next, ⟨false, true, false, false, true, false⟩, some 12, none, .hex true⟩
    let text := "0XBEEF".toList
    let widened := "0X000000BEEF".toList
    spec.width = some 12 ∧ spec.conversion ≠ .newline ∧
      spec.withoutWidth.apply (some (.integer 48879)) = .ok text ∧
      spec.apply (some (.integer 48879)) = .ok widened ∧
      spec.Widens (.integer 48879) 12 text widened := by
  intro spec text widened
  have hline : spec.conversion ≠ .newline := by decide
  have htext : spec.withoutWidth.apply (some (.integer 48879)) = .ok text := rfl
  have hwidened : spec.apply (some (.integer 48879)) = .ok widened := rfl
  have hwidth : spec.width = some 12 := rfl
  obtain ⟨result, hresult, hwidens⟩ :=
    (apply_widens hwidth hline (some (.integer 48879))).2 text htext
  obtain rfl := Except.ok.inj (hwidened.symm.trans hresult)
  exact ⟨hwidth, hline, htext, hwidened, hwidens⟩

end MailMerge.Format
