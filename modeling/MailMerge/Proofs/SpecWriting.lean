import MailMerge.Proofs.Scanning
import MailMerge.Proofs.SpecReading

/-!
# A specifier that was written is read back

The scanner decides how far a specifier goes, and the reader takes what it was
given apart; the two describe the syntax once each. They agree on everything
that can be written. What stands in front of the closing character of a written
specifier are modifiers only (`Parts.Valid.isModifier`), and the closing
character is none, so the scanner stops where the writer did, whatever follows.
And a width that is not zero begins with another digit than zero, so that the
parts of a specifier as they are written are valid parts
(`Spec.Writable.valid_parts`), which are read back in one way.
-/

namespace MailMerge.Format

/-! ## The scanner stops where the writer did -/

theorem isModifier_of_isFlag {c : Char} (h : Flags.isFlag c = true) : isModifier c = true := by
  have hflags : ['-', '#', '+', ' ', '0', ','].all isModifier = true := by decide
  exact List.all_eq_true.mp hflags c (isFlag_iff.mp h)

theorem isClosing_closing (conversion : Conversion) :
    isClosing conversion.closing = true := by
  cases conversion with
  | string upper | hex upper | scientific upper | character upper | boolean upper =>
      cases upper <;> rfl
  | decimal | octal | fixed | percent | newline => rfl

namespace Parts

variable {parts : Parts}

theorem isModifier_index {index : IndexText} (h : index.Valid) :
    ∀ c ∈ index.chars, isModifier c = true := by
  intro c hc
  cases index with
  | absent => cases hc
  | previous =>
      rw [List.mem_singleton.mp hc]
      rfl
  | number digits =>
      rcases List.mem_append.mp hc with hdigit | hdollar
      · exact isModifier_of_isDigit (h.2.1 c hdigit)
      · rw [List.mem_singleton.mp hdollar]
        rfl

theorem Valid.isModifier_precision (h : parts.Valid) :
    ∀ c ∈ precisionChars parts.precision, isModifier c = true := by
  intro c hc
  cases hprecision : parts.precision with
  | none =>
      rw [hprecision] at hc
      cases hc
  | some digits =>
      rw [hprecision] at hc
      rcases List.mem_cons.mp hc with rfl | hdigit
      · rfl
      · exact isModifier_of_isDigit (h.isDigit_precision hprecision c hdigit)

theorem Valid.isModifier (h : parts.Valid) : ∀ c ∈ parts.modifiers, isModifier c = true := by
  intro c hc
  rcases List.mem_append.mp hc with hindex | hc
  · exact isModifier_index h.index c hindex
  rcases List.mem_append.mp hc with hflag | hc
  · exact isModifier_of_isFlag (h.isFlag c hflag)
  rcases List.mem_append.mp hc with hwidth | hprecision
  · exact isModifier_of_isDigit (h.width_digits c hwidth)
  · exact h.isModifier_precision c hprecision

/-- The token that valid parts are written as. -/
def token (parts : Parts) : Token :=
  .specifier parts.modifiers parts.conversion.closing

theorem Valid.complete_token (h : parts.Valid) : parts.token.Complete :=
  ⟨h.isModifier, isClosing_closing parts.conversion⟩

end Parts

/-! ## The parts of a specifier -/

namespace Spec

/-- The specifiers that can be written: an argument's number is at least one and
has 64 bits, the width and the precision are not too large, the width is not
zero, and the conversion may have the precision. -/
structure Writable (spec : Spec) : Prop where
  index : ∀ number, spec.index = .explicit number → 1 ≤ number ∧ number < UInt64.size
  width : ∀ width, spec.width = some width → 1 ≤ width ∧ width ≤ 65536
  precision : ∀ precision, spec.precision = some precision →
    precision ≤ 65536 ∧ spec.conversion.acceptsPrecision = true

def indexText : ArgumentIndex → IndexText
  | .next => .absent
  | .previous => .previous
  | .explicit number => .number (digitsOf number)

/-- The parts of a specifier as it is written. -/
def parts (spec : Spec) : Parts where
  index := indexText spec.index
  flags := spec.flags.toChars
  width := match spec.width with
    | some width => digitsOf width
    | none => []
  precision := spec.precision.map digitsOf
  conversion := spec.conversion

theorem isDigits_digitsOf (n : Nat) : IsDigits (digitsOf n) :=
  fun _ hc => isDigit_of_mem_digitsOf hc

theorem chars_indexText (index : ArgumentIndex) :
    (indexText index).chars = indexChars index := by
  cases index <;> rfl

theorem index_indexText (index : ArgumentIndex) : (indexText index).index = index := by
  cases index with
  | next | previous => rfl
  | explicit number =>
      show ArgumentIndex.explicit (valueOfDigits (digitsOf number)) = .explicit number
      rw [valueOfDigits_digitsOf]

theorem modifiers_parts (spec : Spec) : spec.parts.modifiers = spec.modifiers := by
  unfold Parts.modifiers modifiers
  rw [List.append_assoc, List.append_assoc, ← chars_indexText]
  unfold parts
  cases spec.precision <;> rfl

theorem spec_parts (spec : Spec) : spec.parts.spec = spec := by
  obtain ⟨index, flags, width, precision, conversion⟩ := spec
  have hwidth : Parts.widthOf? (match width with
      | some width => digitsOf width
      | none => []) = width := by
    cases width with
    | none => rfl
    | some width =>
        show Parts.widthOf? (digitsOf width) = some width
        rw [Parts.widthOf?, if_neg (digitsOf_ne_nil width), valueOfDigits_digitsOf]
  have hprecision : (precision.map digitsOf).map valueOfDigits = precision := by
    cases precision with
    | none => rfl
    | some precision =>
        show some (valueOfDigits (digitsOf precision)) = some precision
        rw [valueOfDigits_digitsOf]
  unfold Parts.spec parts
  simp only [index_indexText, Flags.ofChars_toChars, hwidth, hprecision]

theorem mem_flags_of_mem_toChars (flags : Flags) :
    ∀ c ∈ flags.toChars, c ∈ ['-', '#', '+', ' ', '0', ','] := by
  have hsign : ∀ {set : Bool} {sign c : Char}, c ∈ (if set then [sign] else []) → c = sign := by
    intro set sign c hc
    cases set with
    | false => cases hc
    | true => exact List.mem_singleton.mp hc
  intro c hc
  simp only [Flags.toChars, List.mem_append] at hc
  rcases hc with ((((hc | hc) | hc) | hc) | hc) | hc
  all_goals
    rw [hsign hc]
    decide

theorem Writable.valid_parts {spec : Spec} (h : spec.Writable) : spec.parts.Valid := by
  obtain ⟨index, flags, width, precision, conversion⟩ := spec
  refine ⟨?_, ?_, ?_, ?_, ?_, ?_⟩
  · cases index with
    | next | previous => trivial
    | explicit number =>
        obtain ⟨hpos, hlt⟩ := h.index number rfl
        refine ⟨digitsOf_ne_nil number, isDigits_digitsOf number, ?_, ?_⟩
        · rwa [valueOfDigits_digitsOf]
        · rwa [valueOfDigits_digitsOf]
  · exact mem_flags_of_mem_toChars flags
  · cases width with
    | none => nofun
    | some width => exact isDigits_digitsOf width
  · cases width with
    | none => nofun
    | some width => exact head?_digitsOf (h.width width rfl).1
  · cases width with
    | none => exact Nat.zero_le 65536
    | some width =>
        show valueOfDigits (digitsOf width) ≤ 65536
        rw [valueOfDigits_digitsOf]
        exact (h.width width rfl).2
  · intro digits hdigits
    obtain ⟨places, hplaces, rfl⟩ := Option.map_eq_some_iff.mp hdigits
    obtain ⟨hle, haccepts⟩ := h.precision places hplaces
    refine ⟨digitsOf_ne_nil places, isDigits_digitsOf places, ?_, acceptsPrecision_iff.mp haccepts⟩
    rwa [valueOfDigits_digitsOf]

end Spec

/-! ## Written specifiers in a format string -/

theorem raw_token_parts (spec : Spec) : spec.parts.token.raw = spec.raw := by
  show '%' :: spec.parts.modifiers ++ [spec.conversion.closing] = spec.raw
  rw [Spec.modifiers_parts]
  rfl

/-- The text in front of a percent sign is one token, if there is any. -/
theorem scan_append_of_not_mem {before rest : List Char} (hbefore : '%' ∉ before)
    (hrest : ∀ c ∈ rest.head?, c = '%') :
    ∃ front, scan (before ++ rest) = front ++ scan rest ∧ front.flatMap Token.raw = before := by
  cases before with
  | nil => exact ⟨[], rfl, rfl⟩
  | cons c run =>
      have hcomplete : (Token.text (c :: run)).Complete := ⟨List.cons_ne_nil c run, hbefore⟩
      refine ⟨[.text (c :: run)], scan_raw_append hcomplete hrest, ?_⟩
      rw [List.flatMap_singleton]
      rfl

/-- A specifier that was written into a format string, behind a text without
percent signs and in front of anything, is scanned as one token that takes up
just the place of what was written, and is read as the specifier that it was. -/
theorem Spec.read_written {spec : Spec} (h : spec.Writable) {before : String}
    (hbefore : '%' ∉ before.toList) (after : String) :
    ∃ span modifiers closing,
      (span, .specifier modifiers closing)
        ∈ tokens (before ++ String.ofList spec.raw ++ after) ∧
      span = ⟨byteLength before.toList, byteLength before.toList + byteLength spec.raw⟩ ∧
      (Token.specifier modifiers closing).raw = spec.raw ∧
      Spec.read modifiers closing = .ok spec := by
  have hvalid := h.valid_parts
  have hraw := raw_token_parts spec
  have hscan : scan (spec.raw ++ after.toList) = spec.parts.token :: scan after.toList := by
    rw [← hraw]
    exact scan_raw_append hvalid.complete_token trivial
  have hhead : ∀ c ∈ (spec.raw ++ after.toList).head?, c = '%' := by
    intro c hc
    cases hc
    rfl
  obtain ⟨front, hfront, hbytes⟩ := scan_append_of_not_mem hbefore hhead
  refine ⟨_, spec.parts.modifiers, spec.parts.conversion.closing, ?_, rfl, hraw, ?_⟩
  · rw [tokens, mem_layOut_iff]
    refine ⟨front, scan after.toList, ?_, ?_, ?_⟩
    · rw [String.toList_append, String.toList_append, String.toList_ofList, List.append_assoc,
        hfront, hscan]
      rfl
    · rw [hbytes, Nat.zero_add]
    · rw [← hraw]
      rfl
  · rw [hvalid.read_eq, spec_parts]

/-- The largest index, every flag, the largest width and no places, between a
letter of two bytes and text that looks like more of a specifier. -/
theorem Spec.read_written_widest :
    let spec : Spec := ⟨.explicit 18446744073709551615, ⟨true, true, true, true, true, true⟩,
      some 65536, some 0, .fixed⟩
    spec.Writable ∧ '%' ∉ "é".toList ∧
      ∃ span modifiers closing,
        (span, .specifier modifiers closing)
          ∈ tokens ("é" ++ String.ofList spec.raw ++ "5$.%d") ∧
        span = ⟨2, 38⟩ ∧ Spec.read modifiers closing = .ok spec := by
  intro spec
  have hwritable : spec.Writable := by
    refine ⟨?_, ?_, ?_⟩
    · intro number h
      cases h
      decide
    · intro number h
      cases h
      decide
    · intro number h
      cases h
      decide
  have hbefore : '%' ∉ "é".toList := by decide
  have hlength : byteLength spec.raw = 36 := by decide +kernel
  obtain ⟨span, modifiers, closing, hmem, hspan, -, hread⟩ :=
    Spec.read_written hwritable hbefore "5$.%d"
  refine ⟨hwritable, hbefore, span, modifiers, closing, hmem, ?_, hread⟩
  rw [hspan, hlength]
  rfl

end MailMerge.Format
