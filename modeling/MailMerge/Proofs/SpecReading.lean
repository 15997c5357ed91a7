import MailMerge.Format.Fill
import MailMerge.Format.Grammar
import MailMerge.Proofs.Runs
import MailMerge.Proofs.Slicing
import MailMerge.Proofs.Steps

/-!
# Reading a specifier

Each part of a specifier ends where a character stands that the part cannot go
on with, so a text can be cut into the parts of a specifier in one way at most
(`Parts.Valid.eq_of_raw_eq`), and reading from left to right finds that way. For
every part there are two lemmas here: what is written is read back, whatever
follows it, and what is read was written.

Two places need care. Digits at the beginning may be an index, a flag and a
width; only a dollar sign behind them tells, and there is none in any other
part. And a zero between the flags and the width belongs to the flags.
-/

namespace MailMerge.Format

theorem isDigits_takeWhile (text : List Char) : IsDigits (text.takeWhile Char.isDigit) :=
  all_takeWhile Char.isDigit text

/-! ## The index -/

/-- Parts behind the index have neither of its two signs. -/
structure NoIndex (text : List Char) : Prop where
  previous : '<' ∉ text
  dollar : '$' ∉ text

theorem readIndex_of_noIndex {rest : List Char} (h : NoIndex rest) :
    Spec.readIndex rest = .ok (.next, rest) := by
  unfold Spec.readIndex
  split
  · exact absurd (List.mem_cons_self ..) h.previous
  · split
    · next hdrop =>
        have hmem := (List.dropWhile_sublist Char.isDigit).subset (hdrop ▸ List.mem_cons_self ..)
        exact absurd hmem h.dollar
    · rfl

theorem readIndex_number {digits rest : List Char} (hne : digits ≠ [])
    (hdigits : IsDigits digits) :
    Spec.readIndex (digits ++ '$' :: rest)
      = if valueOfDigits digits = 0 ∨ indexBound ≤ valueOfDigits digits then
          .error .missingArgument
        else .ok (.explicit (valueOfDigits digits), rest) := by
  have htake : (digits ++ '$' :: rest).takeWhile Char.isDigit = digits :=
    takeWhile_append_of_head? hdigits (by simp)
  have hdrop : (digits ++ '$' :: rest).dropWhile Char.isDigit = '$' :: rest :=
    dropWhile_append_of_head? hdigits (by simp)
  obtain ⟨d, ds, rfl⟩ := List.exists_cons_of_ne_nil hne
  unfold Spec.readIndex
  split
  · next heq =>
      obtain ⟨rfl, -⟩ := List.cons.inj heq
      exact absurd (hdigits '<' (List.mem_cons_self ..)) (by decide)
  · rw [htake, hdrop]
    rfl

/-- A text begins with `<`, with a number and a dollar sign, or with no index. -/
theorem index_cases (modifiers : List Char) :
    (∃ rest, modifiers = '<' :: rest) ∨
    (∃ digits rest, modifiers = digits ++ '$' :: rest ∧ digits ≠ [] ∧ IsDigits digits) ∨
    Spec.readIndex modifiers = .ok (.next, modifiers) := by
  unfold Spec.readIndex
  split
  · next rest => exact .inl ⟨rest, rfl⟩
  · split
    · next d ds rest htake hdrop =>
        have hdigits := isDigits_takeWhile modifiers
        have hsplit := List.takeWhile_append_dropWhile (p := Char.isDigit) (l := modifiers)
        rw [htake] at hdigits
        rw [htake, hdrop] at hsplit
        exact .inr (.inl ⟨d :: ds, rest, hsplit.symm, List.cons_ne_nil d ds, hdigits⟩)
    · exact .inr (.inr rfl)

/-- Neither a `<` nor a number with a dollar sign behind it: there is no index. -/
theorem readIndex_of_no_sign {modifiers : List Char} (hprevious : modifiers.head? ≠ some '<')
    (hdollar : modifiers.takeWhile Char.isDigit = [] ∨
      (modifiers.dropWhile Char.isDigit).head? ≠ some '$') :
    Spec.readIndex modifiers = .ok (.next, modifiers) := by
  rcases index_cases modifiers with ⟨rest, rfl⟩ | ⟨digits, rest, rfl, hne, hdigits⟩ | hnext
  · exact absurd rfl hprevious
  · have hstop : ∀ c ∈ ('$' :: rest).head?, c.isDigit = false := by simp
    rw [takeWhile_append_of_head? hdigits hstop, dropWhile_append_of_head? hdigits hstop] at hdollar
    rcases hdollar with hnil | hsign
    · exact absurd hnil hne
    · exact absurd rfl hsign
  · exact hnext

theorem readIndex_chars {index : IndexText} {rest : List Char} (hindex : index.Valid)
    (hrest : NoIndex rest) :
    Spec.readIndex (index.chars ++ rest) = .ok (index.index, rest) := by
  cases index with
  | absent => exact readIndex_of_noIndex hrest
  | previous => rfl
  | number digits =>
      obtain ⟨hne, hdigits, hpos, hlt⟩ := hindex
      have hrange : ¬(valueOfDigits digits = 0 ∨ indexBound ≤ valueOfDigits digits) := by
        unfold indexBound
        omega
      rw [IndexText.chars, List.append_assoc, List.singleton_append,
        readIndex_number hne hdigits, if_neg hrange]
      rfl

theorem exists_of_readIndex {modifiers rest : List Char} {index : ArgumentIndex}
    (h : Spec.readIndex modifiers = .ok (index, rest)) :
    ∃ written : IndexText, written.Valid ∧ written.index = index ∧
      modifiers = written.chars ++ rest := by
  rcases index_cases modifiers with ⟨after, rfl⟩ | ⟨digits, after, rfl, hne, hdigits⟩ | hnext
  · cases h
    exact ⟨.previous, trivial, rfl, rfl⟩
  · rw [readIndex_number hne hdigits] at h
    split at h
    · cases h
    · next hrange =>
        cases h
        unfold indexBound at hrange
        refine ⟨.number digits, ⟨hne, hdigits, by omega, by omega⟩, rfl, ?_⟩
        rw [IndexText.chars, List.append_assoc]
        rfl
  · rw [hnext] at h
    cases h
    exact ⟨.absent, trivial, rfl, rfl⟩

/-- The only index that is refused is a number that is zero or has more than 64
bits. -/
theorem readIndex_eq_error_iff {modifiers : List Char} {fault : Fault} :
    Spec.readIndex modifiers = .error fault ↔
      fault = .missingArgument ∧ ∃ digits rest, modifiers = digits ++ '$' :: rest ∧
        digits ≠ [] ∧ IsDigits digits ∧
        (valueOfDigits digits = 0 ∨ UInt64.size ≤ valueOfDigits digits) := by
  constructor
  · intro h
    rcases index_cases modifiers with ⟨after, rfl⟩ | ⟨digits, after, rfl, hne, hdigits⟩ | hnext
    · cases h
    · rw [readIndex_number hne hdigits] at h
      split at h
      · next hrange =>
          cases h
          exact ⟨rfl, digits, after, rfl, hne, hdigits, hrange⟩
      · cases h
    · rw [hnext] at h
      cases h
  · rintro ⟨rfl, digits, rest, rfl, hne, hdigits, hrange⟩
    rw [readIndex_number hne hdigits]
    exact if_pos hrange

/-! ## The width and the precision -/

theorem readWidth_eq (modifiers : List Char) :
    Spec.readWidth modifiers =
      if modifiers.takeWhile Char.isDigit = [] then .ok (none, modifiers)
      else if valueOfDigits (modifiers.takeWhile Char.isDigit) ≤ maxWidth then
        .ok (some (valueOfDigits (modifiers.takeWhile Char.isDigit)),
          modifiers.dropWhile Char.isDigit)
      else .error .unknownConversion := by
  unfold Spec.readWidth
  split
  · next hnone => rw [if_pos hnone]
  · next hsome => rw [if_neg hsome]

theorem readWidth_append {digits rest : List Char} (hdigits : IsDigits digits)
    (hle : valueOfDigits digits ≤ 65536) (hrest : ∀ c ∈ rest.head?, c.isDigit = false) :
    Spec.readWidth (digits ++ rest) = .ok (Parts.widthOf? digits, rest) := by
  have htake := takeWhile_append_of_head? hdigits hrest
  have hdrop := dropWhile_append_of_head? hdigits hrest
  unfold Spec.readWidth
  split
  · next hnil =>
      rw [htake] at hnil
      subst hnil
      rfl
  · next hne =>
      rw [htake, hdrop, if_pos (show valueOfDigits digits ≤ maxWidth from hle),
        Parts.widthOf?, if_neg (htake ▸ hne)]

theorem exists_of_readWidth {modifiers rest : List Char} {width : Option Nat}
    (h : Spec.readWidth modifiers = .ok (width, rest)) :
    ∃ digits, modifiers = digits ++ rest ∧ IsDigits digits ∧ valueOfDigits digits ≤ 65536 ∧
      Parts.widthOf? digits = width := by
  have hdigits := isDigits_takeWhile modifiers
  have hsplit := List.takeWhile_append_dropWhile (p := Char.isDigit) (l := modifiers)
  unfold Spec.readWidth at h
  split at h
  · cases h
    exact ⟨[], rfl, by simp [IsDigits], by decide, rfl⟩
  · next hne =>
      split at h
      · next hle =>
          cases h
          exact ⟨_, hsplit.symm, hdigits, hle, if_neg hne⟩
      · cases h

theorem readPrecision_chars {precision : Option (List Char)}
    (h : ∀ digits, precision = some digits →
      digits ≠ [] ∧ IsDigits digits ∧ valueOfDigits digits ≤ 65536) :
    Spec.readPrecision (Parts.precisionChars precision)
      = .ok (precision.map valueOfDigits, []) := by
  cases precision with
  | none => rfl
  | some digits =>
      obtain ⟨hne, hdigits, hle⟩ := h digits rfl
      have htake : digits.takeWhile Char.isDigit = digits := by
        simpa using takeWhile_append_of_head? (b := []) hdigits (by simp)
      have hdrop : digits.dropWhile Char.isDigit = [] := by
        simpa using dropWhile_append_of_head? (b := []) hdigits (by simp)
      unfold Spec.readPrecision Parts.precisionChars
      simp only [htake, hdrop]
      exact if_pos ⟨hne, hle⟩

theorem exists_of_readPrecision {modifiers : List Char} {places : Option Nat}
    (h : Spec.readPrecision modifiers = .ok (places, [])) :
    ∃ precision, modifiers = Parts.precisionChars precision ∧
      precision.map valueOfDigits = places ∧
      ∀ digits, precision = some digits →
        digits ≠ [] ∧ IsDigits digits ∧ valueOfDigits digits ≤ 65536 := by
  unfold Spec.readPrecision at h
  split at h
  · next rest =>
      simp only [] at h
      split at h
      · next hdigits =>
          injection h with hpair
          obtain ⟨hplaces, hrest⟩ := Prod.mk.inj hpair
          have hsplit := List.takeWhile_append_dropWhile (p := Char.isDigit) (l := rest)
          rw [hrest, List.append_nil] at hsplit
          refine ⟨some rest, rfl, ?_, ?_⟩
          · rw [← hplaces, hsplit]
            rfl
          · rintro _ ⟨⟩
            rw [hsplit] at hdigits
            exact ⟨hdigits.1, hsplit ▸ isDigits_takeWhile rest, hdigits.2⟩
      · cases h
  · cases h
    exact ⟨none, rfl, rfl, by rintro _ ⟨⟩⟩

/-! ## The whole specifier -/

/-- What it takes for the stages of reading to come through one after the other. -/
theorem read_eq_ok_iff {modifiers : List Char} {closing : Char} {spec : Spec} :
    Spec.read modifiers closing = .ok spec ↔ ∃ afterIndex afterWidth,
      Spec.readIndex modifiers = .ok (spec.index, afterIndex) ∧
      Flags.ofChars (afterIndex.takeWhile Flags.isFlag) = spec.flags ∧
      Spec.readWidth (afterIndex.dropWhile Flags.isFlag) = .ok (spec.width, afterWidth) ∧
      Spec.readPrecision afterWidth = .ok (spec.precision, []) ∧
      Conversion.ofClosing? closing = some spec.conversion ∧
      (spec.precision.isSome → spec.conversion.acceptsPrecision) := by
  unfold Spec.read
  constructor
  · intro h
    obtain ⟨⟨index, afterIndex⟩, hindex, h⟩ := bind_eq_ok_iff.mp h
    obtain ⟨⟨width, afterWidth⟩, hwidth, h⟩ := bind_eq_ok_iff.mp h
    obtain ⟨⟨precision, rest⟩, hprecision, h⟩ := bind_eq_ok_iff.mp h
    simp only [] at h hprecision
    split at h
    · cases h
    · next hrest =>
        rw [Classical.not_not.mp hrest] at hprecision
        split at h
        · next conversion hclosing =>
            split at h
            · cases h
            · next haccepts =>
                cases h
                exact ⟨afterIndex, afterWidth, hindex, rfl, hwidth, hprecision, hclosing,
                  by simpa using haccepts⟩
        · cases h
  · rintro ⟨afterIndex, afterWidth, hindex, hflags, hwidth, hprecision, hclosing, haccepts⟩
    have hlegal : (spec.precision.isSome && !spec.conversion.acceptsPrecision) = false := by
      simpa using haccepts
    simp only [hindex, hwidth, hprecision, hclosing, hflags, hlegal, bind, Except.bind]
    rfl

theorem eq_of_readWidth_error {modifiers : List Char} {fault : Fault}
    (h : Spec.readWidth modifiers = .error fault) : fault = .unknownConversion := by
  unfold Spec.readWidth at h
  split at h
  · cases h
  · split at h
    · cases h
    · cases h
      rfl

theorem eq_of_readPrecision_error {modifiers : List Char} {fault : Fault}
    (h : Spec.readPrecision modifiers = .error fault) : fault = .illegalPrecision := by
  unfold Spec.readPrecision at h
  split at h
  · simp only [] at h
    split at h
    · cases h
    · cases h
      rfl
  · cases h

/-- The stages behind the index have faults of their own. -/
theorem read_eq_missingArgument_iff {modifiers : List Char} {closing : Char} :
    Spec.read modifiers closing = .error .missingArgument ↔
      Spec.readIndex modifiers = .error .missingArgument := by
  constructor
  · intro h
    unfold Spec.read at h
    rcases bind_eq_error_iff.mp h with hindex | ⟨⟨index, afterIndex⟩, -, h⟩
    · exact hindex
    rcases bind_eq_error_iff.mp h with hwidth | ⟨⟨width, afterWidth⟩, -, h⟩
    · cases eq_of_readWidth_error hwidth
    rcases bind_eq_error_iff.mp h with hprecision | ⟨⟨precision, rest⟩, -, h⟩
    · cases eq_of_readPrecision_error hprecision
    simp only [] at h
    split at h
    · cases h
    · split at h
      · split at h <;> cases h
      · cases h
  · intro h
    unfold Spec.read
    rw [h]
    rfl

/-! ## What the parts look like from their left -/

theorem isFlag_iff {c : Char} :
    Flags.isFlag c = true ↔ c ∈ ['-', '#', '+', ' ', '0', ','] :=
  List.contains_iff_mem

theorem not_isFlag_of_isDigit {c : Char} (hdigit : c.isDigit = true) (hzero : c ≠ '0') :
    Flags.isFlag c = false := by
  rw [Bool.eq_false_iff, Ne, isFlag_iff]
  intro hmem
  simp only [List.mem_cons, List.not_mem_nil, or_false] at hmem
  rcases hmem with rfl | rfl | rfl | rfl | rfl | rfl <;> revert hdigit hzero <;> decide

theorem not_isDigit_head_precisionChars (precision : Option (List Char)) :
    ∀ c ∈ (Parts.precisionChars precision).head?, c.isDigit = false := by
  cases precision with
  | none => rintro c ⟨⟩
  | some digits => rintro c ⟨⟩; rfl

theorem ofClosing?_eq_some_iff {c : Char} {conversion : Conversion} :
    Conversion.ofClosing? c = some conversion ↔ c = conversion.closing := by
  constructor
  · intro h
    unfold Conversion.ofClosing? at h
    split at h <;> cases h <;> rfl
  · rintro rfl
    exact Conversion.ofClosing?_closing conversion

theorem acceptsPrecision_iff {conversion : Conversion} :
    conversion.acceptsPrecision = true ↔
      conversion.closing ∈ ['s', 'S', 'b', 'B', 'f', 'e', 'E'] := by
  cases conversion with
  | string upper | hex upper | scientific upper | character upper | boolean upper =>
      cases upper <;> decide
  | decimal | octal | fixed | percent | newline => decide

theorem IndexText.chars_injective {index other : IndexText} (h : index.chars = other.chars) :
    index = other := by
  have hlast := congrArg List.getLast? h
  cases index with
  | absent => cases other <;> simp_all [IndexText.chars]
  | previous =>
      cases other with
      | number digits => simp [IndexText.chars] at hlast
      | _ => simp_all [IndexText.chars]
  | number digits =>
      cases other with
      | previous => simp [IndexText.chars] at hlast
      | _ => simp_all [IndexText.chars]

theorem precisionChars_injective {precision other : Option (List Char)}
    (h : Parts.precisionChars precision = Parts.precisionChars other) : precision = other := by
  cases precision <;> cases other <;> simp_all [Parts.precisionChars]

namespace Parts

variable {parts : Parts}

/-- What stands behind the index. -/
def afterIndex (parts : Parts) : List Char :=
  parts.flags ++ (parts.width ++ precisionChars parts.precision)

theorem Valid.isFlag (h : parts.Valid) : ∀ c ∈ parts.flags, Flags.isFlag c = true :=
  fun c hc => isFlag_iff.mpr (h.flags c hc)

theorem Valid.isDigit_precision (h : parts.Valid) {digits : List Char}
    (hdigits : parts.precision = some digits) : IsDigits digits :=
  (h.precision digits hdigits).2.1

theorem Valid.noIndex (h : parts.Valid) : NoIndex parts.afterIndex := by
  have hchars : ∀ c ∈ parts.afterIndex, Flags.isFlag c = true ∨ c.isDigit = true ∨ c = '.' := by
    intro c hc
    rcases List.mem_append.mp hc with hflag | hc
    · exact .inl (h.isFlag c hflag)
    · rcases List.mem_append.mp hc with hdigit | hc
      · exact .inr (.inl (h.width_digits c hdigit))
      · cases hprecision : parts.precision with
        | none => rw [hprecision] at hc; cases hc
        | some digits =>
            rw [hprecision] at hc
            rcases List.mem_cons.mp hc with rfl | hdigit
            · exact .inr (.inr rfl)
            · exact .inr (.inl (h.isDigit_precision hprecision c hdigit))
  exact ⟨fun hmem => absurd (hchars '<' hmem) (by decide),
    fun hmem => absurd (hchars '$' hmem) (by decide)⟩

/-- A zero at the beginning of the width would be a flag. -/
theorem Valid.not_isFlag_head (h : parts.Valid) :
    ∀ c ∈ (parts.width ++ precisionChars parts.precision).head?, Flags.isFlag c = false := by
  intro c hc
  cases hwidth : parts.width with
  | nil =>
      rw [hwidth, List.nil_append] at hc
      cases hprecision : parts.precision with
      | none => rw [hprecision] at hc; cases hc
      | some digits => rw [hprecision] at hc; cases hc; rfl
  | cons _ digits =>
      rw [hwidth] at hc
      cases hc
      have hdigit := h.width_digits c (hwidth ▸ List.mem_cons_self ..)
      exact not_isFlag_of_isDigit hdigit fun heq => h.width_head (by rw [hwidth, heq]; rfl)

/-- Parts that are written are read back. -/
theorem Valid.read_eq (h : parts.Valid) :
    Spec.read parts.modifiers parts.conversion.closing = .ok parts.spec := by
  have htake : parts.afterIndex.takeWhile Flags.isFlag = parts.flags :=
    takeWhile_append_of_head? h.isFlag h.not_isFlag_head
  have hdrop : parts.afterIndex.dropWhile Flags.isFlag
      = parts.width ++ precisionChars parts.precision :=
    dropWhile_append_of_head? h.isFlag h.not_isFlag_head
  rw [read_eq_ok_iff]
  refine ⟨parts.afterIndex, precisionChars parts.precision, ?_, ?_, ?_, ?_, ?_, ?_⟩
  · exact readIndex_chars h.index h.noIndex
  · rw [htake]
    rfl
  · rw [hdrop]
    exact readWidth_append h.width_digits h.width_le
      (not_isDigit_head_precisionChars parts.precision)
  · refine readPrecision_chars fun digits hdigits => ?_
    obtain ⟨hne, hall, hle, -⟩ := h.precision digits hdigits
    exact ⟨hne, hall, hle⟩
  · exact Conversion.ofClosing?_closing parts.conversion
  · intro hsome
    obtain ⟨digits, hdigits⟩ := Option.isSome_iff_exists.mp (Option.isSome_map ▸ hsome)
    exact acceptsPrecision_iff.mpr (h.precision digits hdigits).2.2.2

/-- What is read was written in parts. -/
theorem exists_of_read {modifiers : List Char} {closing : Char} {spec : Spec}
    (h : Spec.read modifiers closing = .ok spec) :
    ∃ parts : Parts, parts.Valid ∧ parts.modifiers = modifiers ∧
      parts.conversion.closing = closing ∧ parts.spec = spec := by
  obtain ⟨afterIndex, afterWidth, hindex, hflags, hwidth, hprecision, hclosing, haccepts⟩ :=
    read_eq_ok_iff.mp h
  obtain ⟨index, hvalid, hmeaning, rfl⟩ := exists_of_readIndex hindex
  obtain ⟨digits, hsplit, hdigits, hle, hvalue⟩ := exists_of_readWidth hwidth
  obtain ⟨precision, rfl, hplaces, hlegal⟩ := exists_of_readPrecision hprecision
  refine ⟨⟨index, afterIndex.takeWhile Flags.isFlag, digits, precision, spec.conversion⟩,
    ⟨hvalid, ?_, hdigits, ?_, hle, ?_⟩, ?_, ?_, ?_⟩
  · intro c hc
    exact isFlag_iff.mp (all_takeWhile Flags.isFlag afterIndex c hc)
  · intro hzero
    have hhead := not_head?_dropWhile Flags.isFlag afterIndex
    rw [hsplit, List.head?_append, hzero] at hhead
    exact absurd (hhead '0' rfl) (by decide)
  · intro places hsome
    change precision = some places at hsome
    obtain ⟨hne, hall, hle⟩ := hlegal places hsome
    refine ⟨hne, hall, hle, acceptsPrecision_iff.mp (haccepts ?_)⟩
    rw [← hplaces, hsome]
    rfl
  · unfold modifiers
    simp only []
    rw [← hsplit, List.takeWhile_append_dropWhile]
  · exact (ofClosing?_eq_some_iff.mp hclosing).symm
  · unfold Parts.spec
    simp only [hmeaning, hflags, hvalue, hplaces]

/-- A text falls into the parts of a specifier in one way at most. -/
theorem Valid.eq_of_raw_eq {other : Parts} (h : parts.Valid) (hother : other.Valid)
    (hraw : parts.raw = other.raw) : parts = other := by
  obtain ⟨hmodifiers, hlast⟩ := List.append_inj' hraw rfl
  have hmodifiers : parts.index.chars ++ parts.afterIndex
      = other.index.chars ++ other.afterIndex :=
    (List.cons.inj hmodifiers).2
  have hconversion : parts.conversion = other.conversion := by
    rw [← Option.some.injEq, ← Conversion.ofClosing?_closing, (List.cons.inj hlast).1,
      Conversion.ofClosing?_closing]
  have hafter : parts.afterIndex = other.afterIndex := by
    have hread := readIndex_chars h.index h.noIndex
    rw [hmodifiers, readIndex_chars hother.index hother.noIndex] at hread
    injection hread with hpair
    exact (Prod.mk.inj hpair).2.symm
  have hindex : parts.index = other.index := by
    rw [hafter] at hmodifiers
    exact IndexText.chars_injective (List.append_cancel_right hmodifiers)
  obtain ⟨hflags, hnumbers⟩ :=
    append_inj_of_head? h.isFlag hother.isFlag h.not_isFlag_head hother.not_isFlag_head hafter
  obtain ⟨hwidth, hprecision⟩ :=
    append_inj_of_head? h.width_digits hother.width_digits
      (not_isDigit_head_precisionChars parts.precision)
      (not_isDigit_head_precisionChars other.precision) hnumbers
  have hpoint := precisionChars_injective hprecision
  cases parts
  cases other
  exact (Parts.mk.injEq ..).mpr ⟨hindex, hflags, hwidth, hpoint, hconversion⟩

end Parts

/-- A number that is an index counts from one, and has 64 bits. -/
theorem explicit_of_read {modifiers : List Char} {closing : Char} {spec : Spec} {number : Nat}
    (h : Spec.read modifiers closing = .ok spec) (hindex : spec.index = .explicit number) :
    1 ≤ number ∧ number < UInt64.size := by
  obtain ⟨parts, hvalid, -, -, rfl⟩ := Parts.exists_of_read h
  have hnumber := hvalid.index
  have hmeaning : parts.index.index = .explicit number := hindex
  cases hparts : parts.index with
  | absent | previous =>
      rw [hparts] at hmeaning
      cases hmeaning
  | number digits =>
      rw [hparts] at hmeaning hnumber
      cases hmeaning
      exact hnumber.2.2

/-! ## Specifiers in a format string -/

theorem firstToken_specifier {c : Char} {rest modifiers : List Char} {closing : Char}
    (h : (firstToken c rest).1 = .specifier modifiers closing) : isClosing closing = true := by
  unfold firstToken at h
  split at h
  · split at h
    · cases h
    · split at h
      · next hclosing => cases h; exact hclosing
      · cases h
  · cases h

theorem isClosing_of_mem_scan {format modifiers : List Char} {closing : Char}
    (h : .specifier modifiers closing ∈ scan format) : isClosing closing = true := by
  fun_induction scan format with
  | case1 => cases h
  | case2 c rest ih =>
      rcases List.mem_cons.mp h with hfirst | hmem
      · exact firstToken_specifier hfirst.symm
      · exact ih hmem

/-- A token of a format string stands at its span. -/
theorem slice?_of_mem_tokens {format : String} {span : Span} {token : Token}
    (h : (span, token) ∈ tokens format) :
    token ∈ scan format.toList ∧ span.slice? format.toList = some token.raw := by
  obtain ⟨hmem, hslice⟩ := slice?_of_mem_layOut h
  rw [flatMap_raw_scan] at hslice
  exact ⟨hmem, hslice⟩

theorem read_eq_missingArgument_iff_raw {modifiers : List Char} {closing : Char}
    (hclosing : isClosing closing = true) :
    Spec.read modifiers closing = .error .missingArgument ↔
      ∃ digits rest, '%' :: modifiers ++ [closing] = '%' :: digits ++ '$' :: rest ∧
        digits ≠ [] ∧ IsDigits digits ∧
        (valueOfDigits digits = 0 ∨ UInt64.size ≤ valueOfDigits digits) := by
  rw [read_eq_missingArgument_iff, readIndex_eq_error_iff]
  constructor
  · rintro ⟨-, digits, rest, rfl, hnumber⟩
    exact ⟨digits, rest ++ [closing], by simp, hnumber⟩
  · rintro ⟨digits, rest, hraw, hnumber⟩
    refine ⟨rfl, digits, ?_⟩
    have htext : modifiers ++ [closing] = digits ++ '$' :: rest := (List.cons.inj hraw).2
    -- The dollar sign does not close the specifier, so it stands among the modifiers.
    rcases List.eq_nil_or_concat rest with rfl | ⟨rest, last, rfl⟩
    · obtain ⟨-, hlast⟩ := List.append_inj' htext rfl
      rw [(List.cons.inj hlast).1] at hclosing
      exact absurd hclosing (by decide)
    · rw [List.concat_eq_append, ← List.cons_append, ← List.append_assoc] at htext
      exact ⟨rest, (List.append_inj' htext rfl).1, hnumber⟩

/-- A specifier of a format string is read successfully exactly if its text falls
into the parts of a specifier, and what is read is what the parts say; there
are no two ways to take the text apart. A fault ends the filling with an
error that has the text and its place. The fault is a missing argument
exactly if the text begins with a number and a dollar sign, and the number is
zero or has more than 64 bits. -/
theorem Spec.read_exact {format : String} {span : Span} {modifiers : List Char} {closing : Char}
    (h : (span, .specifier modifiers closing) ∈ tokens format) :
    ∃ raw, raw = '%' :: modifiers ++ [closing] ∧ span.slice? format.toList = some raw ∧
      (∀ spec, Spec.read modifiers closing = .ok spec ↔
        ∃ parts : Parts, parts.Valid ∧ parts.raw = raw ∧ parts.spec = spec) ∧
      (∀ parts other : Parts, parts.Valid → other.Valid →
        parts.raw = raw → other.raw = raw → parts = other) ∧
      (∀ fault, Spec.read modifiers closing = .error fault → ∀ arguments progress,
        located (span, .specifier modifiers closing)
            (fillToken arguments progress (.specifier modifiers closing))
          = .error (.returned ⟨fault, String.ofList raw, span⟩)) ∧
      (Spec.read modifiers closing = .error .missingArgument ↔
        ∃ digits rest, raw = '%' :: digits ++ '$' :: rest ∧ digits ≠ [] ∧ IsDigits digits ∧
          (valueOfDigits digits = 0 ∨ UInt64.size ≤ valueOfDigits digits)) := by
  obtain ⟨hmem, hslice⟩ := slice?_of_mem_tokens h
  refine ⟨'%' :: modifiers ++ [closing], rfl, hslice, ?_, ?_, ?_, ?_⟩
  · intro spec
    constructor
    · intro hread
      obtain ⟨parts, hvalid, rfl, rfl, hspec⟩ := Parts.exists_of_read hread
      exact ⟨parts, hvalid, rfl, hspec⟩
    · rintro ⟨parts, hvalid, hraw, rfl⟩
      obtain ⟨hmodifiers, hlast⟩ := List.append_inj' hraw rfl
      rw [← (List.cons.inj hmodifiers).2, ← (List.cons.inj hlast).1]
      exact hvalid.read_eq
  · intro parts other hvalid hother hraw hraw'
    exact hvalid.eq_of_raw_eq hother (hraw.trans hraw'.symm)
  · intro fault hread arguments progress
    rw [fillToken, hread]
    rfl
  · exact read_eq_missingArgument_iff_raw (isClosing_of_mem_scan hmem)

/-- An index, two flags, a width and a precision. -/
theorem Spec.read_all_parts :
    (⟨0, 9⟩, .specifier ['2', '$', '-', '0', '8', '.', '3'] 'f') ∈ tokens "%2$-08.3f!" ∧
      ∃ parts : Parts, parts.Valid ∧ parts.raw = "%2$-08.3f".toList ∧
        parts.spec = ⟨.explicit 2, ⟨true, false, false, false, true, false⟩, some 8, some 3,
          .fixed⟩ := by
  have hmem : (⟨0, 9⟩, .specifier ['2', '$', '-', '0', '8', '.', '3'] 'f')
      ∈ tokens "%2$-08.3f!" := by
    decide +kernel
  obtain ⟨raw, rfl, -, hread, -⟩ := Spec.read_exact hmem
  exact ⟨hmem, (hread _).mp rfl⟩

end MailMerge.Format
