import MailMerge.Proofs.SignColumn

/-!
# Digits in groups of three

The commas are put in from the left, but where they belong is counted from the right:
counted from the end of the digits, every fourth character is a comma, and the very
first character is not (`Thousands`). This is an invariant of the recursion, because the
digits that were not yet looked at are in front, where they change no place that was
counted so far.

In a floating-point number the digits end at the point, and what stands behind it has no
commas. So taking all the commas out gives the text back that comes without the flag,
and `grouping_law` says where in the text they were.
-/

namespace MailMerge

/-- Counted from the end every fourth character is a comma, and the first character is
none; all the others are digits. -/
structure Thousands (whole : List Char) : Prop where
  characters : ∀ c ∈ whole, c = ',' ∨ c.isDigit = true
  places : ∀ place, whole.reverse[place]? = some ',' ↔ place < whole.length ∧ place % 4 = 3
  first : whole.head? ≠ some ','

theorem length_groupThousands (digits : List Char) :
    (groupThousands digits).length = digits.length + (digits.length - 1) / 3 := by
  induction digits with
  | nil => rfl
  | cons digit rest ih =>
      unfold groupThousands
      split
      · next h =>
          have hpos : 0 < rest.length := List.length_pos_iff.mpr h.1
          simp only [List.length_cons, ih]
          omega
      · next h =>
          have hmod : rest.length = 0 ∨ rest.length % 3 ≠ 0 := by
            rw [← List.length_pos_iff] at h
            omega
          simp only [List.length_cons, ih]
          omega

theorem getElem?_reverse_cons_eq_some {first c : Char} {text : List Char} {place : Nat} :
    (first :: text).reverse[place]? = some c ↔
      text.reverse[place]? = some c ∨ (place = text.length ∧ first = c) := by
  rw [List.reverse_cons, List.getElem?_append, List.length_reverse]
  split
  · next hlt =>
      refine ⟨.inl, fun h => h.resolve_right fun heq => ?_⟩
      omega
  · next hge =>
      have hnone : text.reverse[place]? = none :=
        List.getElem?_eq_none (by rw [List.length_reverse]; omega)
      rw [hnone, List.getElem?_singleton]
      constructor
      · intro h
        split at h
        · exact .inr ⟨by omega, Option.some.inj h⟩
        · cases h
      · rintro (h | ⟨rfl, rfl⟩)
        · cases h
        · simp

theorem getElem?_reverse_groupThousands {digits : List Char} (h : ',' ∉ digits) (place : Nat) :
    (groupThousands digits).reverse[place]? = some ',' ↔
      place < (groupThousands digits).length ∧ place % 4 = 3 := by
  induction digits with
  | nil => simp [groupThousands]
  | cons digit rest ih =>
      rw [List.mem_cons, not_or] at h
      have hdigit : digit ≠ ',' := Ne.symm h.1
      have hlength := length_groupThousands rest
      unfold groupThousands
      split
      · next hcomma =>
          have hpos : 0 < rest.length := List.length_pos_iff.mpr hcomma.1
          rw [getElem?_reverse_cons_eq_some, getElem?_reverse_cons_eq_some, ih h.2]
          simp only [List.length_cons, hdigit, and_false, or_false, and_true]
          omega
      · next hcomma =>
          have hmod : rest.length = 0 ∨ rest.length % 3 ≠ 0 := by
            rw [← List.length_pos_iff] at hcomma
            omega
          rw [getElem?_reverse_cons_eq_some, ih h.2]
          simp only [List.length_cons, hdigit, and_false, or_false]
          omega

theorem thousands_groupThousands {digits : List Char} (h : ∀ c ∈ digits, c.isDigit = true) :
    Thousands (groupThousands digits) := by
  have hcomma : ',' ∉ digits := fun hmem => absurd (h ',' hmem) (by decide)
  refine ⟨?_, getElem?_reverse_groupThousands hcomma, ?_⟩
  · intro c hc
    exact (mem_groupThousands hc).imp_right (h c)
  · rw [head?_groupThousands]
    exact fun hhead => hcomma (List.mem_of_mem_head? hhead)

theorem AreDigits.isDigit {text : List Char} (h : AreDigits 10 text) :
    ∀ c ∈ text, c.isDigit = true := by
  intro c hc
  obtain ⟨d, hd, rfl⟩ := h c hc
  rw [Nat.isDigit_digitChar]
  exact decide_eq_true hd

namespace Format

variable {spec : Spec} {number : Argument}

/-- The specifier with the flag for commas, or without it. -/
def Spec.withGrouping (spec : Spec) (grouping : Bool) : Spec :=
  { spec with flags := { spec.flags with grouping } }

/-- The point of a number and what comes behind it. -/
def pointed (n : PlacedDigits) : List Char :=
  if n.fraction = [] then [] else '.' :: n.fraction

theorem text_eq_pointed (n : PlacedDigits) : n.text = n.whole ++ pointed n := by
  unfold PlacedDigits.text pointed
  split
  · exact (List.append_nil _).symm
  · rfl

/-- Digits that the flag puts commas into, and what stands behind them. -/
structure Spec.Parts (spec : Spec) (number : Argument) (digits rest : List Char) : Prop where
  behind_eq : ∀ grouping, (spec.withGrouping grouping).behind number
    = (if grouping then groupThousands digits else digits) ++ rest
  isDigit : ∀ c ∈ digits, c.isDigit = true
  comma_not_mem : ',' ∉ rest
  point : spec.conversion.MakesNumeral number → digits ≠ [] ∧
    (rest = [] ∨ ∃ fraction, rest = '.' :: fraction ∧ ∀ c ∈ fraction, c.isDigit = true)

theorem Spec.parts_integer (spec : Spec) (value : Int64) :
    spec.Parts (.integer value) (digitsOf value.toInt.natAbs) [] where
  behind_eq _ := (List.append_nil _).symm
  isDigit _ := isDigit_of_mem_digitsOf
  comma_not_mem := List.not_mem_nil
  point _ := ⟨digitsOf_ne_nil _, .inl rfl⟩

theorem Spec.parts_of_not_finite {value : Binary64} (hfixed : spec.conversion = .fixed)
    (h : ¬(value.isNaN = false ∧ value.isInfinite = false)) :
    spec.Parts (.float value) [] (if value.isNaN then "NaN".toList else "Infinity".toList) where
  behind_eq grouping := by
    rw [Spec.behind_of_not_finite h]
    cases grouping <;> rfl
  isDigit := nofun
  comma_not_mem := by split <;> decide
  point hnumeral := by
    rw [hfixed] at hnumeral
    exact absurd hnumeral h

theorem Spec.parts_of_finite {value : Binary64} (hfixed : spec.conversion = .fixed)
    (hnan : value.isNaN = false) (hinfinite : value.isInfinite = false) :
    ∃ digits rest, spec.Parts (.float value) digits rest := by
  let places := placesFor spec.precision
  let units := roundHalfEven (value.magnitude.1 * Nat.pow 10 places) value.magnitude.2
  have hfraction : ∀ c ∈ (PlacedDigits.of units places).fraction, c.isDigit = true :=
    (areDigits_fraction units places).isDigit
  have hpointed : pointed (.of units places) = [] ∨ ∃ fraction,
      pointed (.of units places) = '.' :: fraction ∧ ∀ c ∈ fraction, c.isDigit = true := by
    unfold pointed
    split
    · exact .inl rfl
    · exact .inr ⟨_, rfl, hfraction⟩
  refine ⟨(PlacedDigits.of units places).whole, pointed (.of units places), ?_, ?_, ?_, ?_⟩
  · intro grouping
    have hconversion : (spec.withGrouping grouping).conversion = .fixed := hfixed
    rw [Spec.behind_of_finite hnan hinfinite, Spec.digitsOfFloat, hconversion]
    exact text_eq_pointed _
  · exact (areDigits_whole units places).isDigit
  · intro hmem
    rcases hpointed with hnil | ⟨fraction, hcons, hdigits⟩
    · rw [hnil] at hmem
      cases hmem
    · rw [hcons, List.mem_cons] at hmem
      rcases hmem with hpoint | hmem
      · exact absurd hpoint (by decide)
      · exact absurd (hdigits ',' hmem) (by decide)
  · exact fun _ => ⟨whole_ne_nil units places, hpointed⟩

/-- The conversions that the flag for commas is for. -/
inductive Conversion.Groups : Conversion → Argument → Prop
  | decimal (value : Int64) : Groups .decimal (.integer value)
  | fixed (value : Binary64) : Groups .fixed (.float value)

theorem Conversion.Groups.signs (h : spec.conversion.Groups number) :
    spec.conversion.Signs number := by
  generalize spec.conversion = conversion at h
  cases h with
  | decimal value => exact .decimal value
  | fixed value => exact .fixed value

theorem Conversion.Groups.not_upper (h : spec.conversion.Groups number) :
    spec.conversion.isUpper = false := by
  generalize spec.conversion = conversion at h
  cases h <;> rfl

theorem Conversion.Groups.exists_parts (h : spec.conversion.Groups number) :
    ∃ digits rest, spec.Parts number digits rest := by
  generalize hconversion : spec.conversion = conversion at h
  cases h with
  | decimal value => exact ⟨_, _, spec.parts_integer value⟩
  | fixed value =>
      by_cases hfinite : value.isNaN = false ∧ value.isInfinite = false
      · exact Spec.parts_of_finite hconversion hfinite.1 hfinite.2
      · exact ⟨_, _, Spec.parts_of_not_finite hconversion hfinite⟩

theorem comma_not_mem_front (spec : Spec) (number : Argument) : ',' ∉ spec.front number := by
  rcases eq_of_mem_signs (spec.front_mem number) with h | h | h | h <;> rw [h] <;> decide

/-- Without a width, the text with commas is the text without them and commas after every
third digit of the integer part, counted from its end, where another digit is in front;
and there are no commas in what stands before and behind that part. With more places
than numbers can be written with, there is no text with commas and none without. -/
theorem grouping_law (hwidth : spec.width = none) (hgroups : spec.conversion.Groups number) :
    (spec.TooManyPlaces number → ∀ grouping,
      (spec.withGrouping grouping).apply (some number) = .error .tooManyPlaces) ∧
    (¬spec.TooManyPlaces number →
      ∃ plain text, (spec.withGrouping false).apply (some number) = .ok plain ∧
        (spec.withGrouping true).apply (some number) = .ok text ∧
        text.filter (· ≠ ',') = plain ∧
        ∃ sign whole rest, text = sign ++ whole ++ rest ∧ sign ∈ signs ∧ Thousands whole ∧
          ',' ∉ rest ∧
          (spec.conversion.MakesNumeral number → whole ≠ [] ∧
            (rest = [] ∨ ∃ fraction, rest = '.' :: fraction ∧
              ∀ c ∈ fraction, c.isDigit = true))) := by
  refine ⟨fun hplaces grouping => ?_, fun hplaces => ?_⟩
  · have hplaces' : (spec.withGrouping grouping).TooManyPlaces number := hplaces
    exact Spec.apply_of_tooManyPlaces hplaces'
  obtain ⟨digits, rest, hparts⟩ := hgroups.exists_parts
  have hcomma : ',' ∉ digits := fun hmem => absurd (hparts.isDigit ',' hmem) (by decide)
  have happly : ∀ grouping, (spec.withGrouping grouping).apply (some number)
      = .ok (spec.front number
          ++ (if grouping then groupThousands digits else digits) ++ rest) := by
    intro grouping
    have hsigns : (spec.withGrouping grouping).conversion.Signs number := hgroups.signs
    have hupper : (spec.withGrouping grouping).conversion.isUpper = false := hgroups.not_upper
    rw [hsigns.apply_of_no_width hplaces hwidth, Spec.inCase_of_not_upper hupper,
      hparts.behind_eq, List.append_assoc]
    rfl
  refine ⟨_, _, happly false, happly true, ?_, _, _, _, rfl, spec.front_mem number,
    thousands_groupThousands hparts.isDigit, hparts.comma_not_mem, fun hnumeral => ?_⟩
  · have hkept : ∀ {text : List Char}, ',' ∉ text → text.filter (· ≠ ',') = text := by
      intro text hnot
      rw [List.filter_eq_self]
      exact fun c hc => decide_eq_true fun heq => hnot (heq ▸ hc)
    rw [List.filter_append, List.filter_append, hkept (comma_not_mem_front spec number),
      hkept hparts.comma_not_mem]
    simp only [Bool.false_eq_true, if_false, if_true, filter_groupThousands digits hcomma]
  · obtain ⟨hne, hpoint⟩ := hparts.point hnumeral
    refine ⟨fun hnil => hne ?_, hpoint⟩
    rw [← List.head?_eq_none_iff, ← head?_groupThousands]
    exact congrArg List.head? hnil

/-- So many places, and a sign in front of every number. -/
def placed (places : Nat) : Spec :=
  ⟨.next, ⟨false, false, true, false, false, false⟩, none, some places, .fixed⟩

/-- A million and something, rounded to one place, and with one place too many. -/
theorem grouping_law_million :
    let number : Argument := .float ⟨0x4132D687E3D70A3D⟩
    let tenths := placed 1
    let text := "+1,234,567.9".toList
    (tenths.width = none ∧ tenths.conversion.Groups number ∧ ¬tenths.TooManyPlaces number ∧
      (tenths.withGrouping false).apply (some number) = .ok "+1234567.9".toList ∧
      (tenths.withGrouping true).apply (some number) = .ok text ∧
      text.filter (· ≠ ',') = "+1234567.9".toList ∧
      ∃ sign whole rest, text = sign ++ whole ++ rest ∧ sign ∈ signs ∧ Thousands whole ∧
        ',' ∉ rest ∧ whole ≠ []) ∧
    (placed 65536).TooManyPlaces number ∧
      ∀ grouping, ((placed 65536).withGrouping grouping).apply (some number)
        = .error .tooManyPlaces := by
  intro number tenths text
  have hplain : ((placed 1).withGrouping false).apply (some (.float ⟨0x4132D687E3D70A3D⟩))
      = .ok "+1234567.9".toList := rfl
  have htext : ((placed 1).withGrouping true).apply (some (.float ⟨0x4132D687E3D70A3D⟩))
      = .ok "+1,234,567.9".toList := rfl
  have hgroups : ∀ places, (placed places).conversion.Groups number := fun _ => .fixed _
  have hfits : ¬tenths.TooManyPlaces number := fun h => absurd h.2 (by decide)
  have hplaces : (placed 65536).TooManyPlaces number := ⟨⟨by decide, by decide⟩, by decide⟩
  obtain ⟨_, _, hplain', htext', hfilter, sign, whole, rest, heq, hsign, hwhole, hrest, hpoint⟩ :=
    (grouping_law rfl (hgroups 1)).2 hfits
  cases hplain.symm.trans hplain'
  cases htext.symm.trans htext'
  exact ⟨⟨rfl, hgroups 1, hfits, hplain, htext, hfilter, sign, whole, rest, heq, hsign, hwhole,
    hrest, (hpoint ⟨by decide, by decide⟩).1⟩, hplaces, (grouping_law rfl (hgroups _)).1 hplaces⟩

end Format

end MailMerge
