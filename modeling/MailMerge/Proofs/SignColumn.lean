import MailMerge.Proofs.IntegerRounding
import MailMerge.Proofs.Widening

/-!
# The column of the sign

The flags for a plus sign and for a space keep a column free for the sign, so that
positive and negative numbers stand below one another. A number and its negative have
the same digits, and whatever is put in the column is one character, a minus sign or
the one that the flag asks for; so their texts are equally long, with or without a
width.

The one number that the column is forgotten for is positive infinity under the space
flag: infinities have a rule of their own for the sign, and it does not know spaces.
Its text is a character shorter than that of negative infinity, unless a width makes up
for it. `sign_column` says all of this; what stands in the column, and what behind
it, are `Spec.front` and `Spec.behind`.
-/

namespace MailMerge

/-! ## Negative numbers -/

namespace Binary64

/-- The number with the other sign. Zero and what is no number have both signs, too. -/
def negated (x : Binary64) : Binary64 :=
  ofUnsignedBits (!x.isNegative) x.unsignedBits

theorem unsignedBits_lt (x : Binary64) : x.unsignedBits < signUnit :=
  Nat.mod_lt _ (by decide)

@[simp] theorem isNegative_negated (x : Binary64) : x.negated.isNegative = !x.isNegative :=
  isNegative_ofUnsignedBits x.unsignedBits_lt

@[simp] theorem unsignedBits_negated (x : Binary64) : x.negated.unsignedBits = x.unsignedBits :=
  unsignedBits_ofUnsignedBits x.unsignedBits_lt

@[simp] theorem exponentField_negated (x : Binary64) :
    x.negated.exponentField = x.exponentField := by
  rw [exponentField, unsignedBits_negated, exponentField]

@[simp] theorem fraction_negated (x : Binary64) : x.negated.fraction = x.fraction := by
  rw [fraction, unsignedBits_negated, fraction]

@[simp] theorem isNaN_negated (x : Binary64) : x.negated.isNaN = x.isNaN := by
  simp only [isNaN, exponentField_negated, fraction_negated]

@[simp] theorem isInfinite_negated (x : Binary64) : x.negated.isInfinite = x.isInfinite := by
  simp only [isInfinite, exponentField_negated, fraction_negated]

@[simp] theorem magnitude_negated (x : Binary64) : x.negated.magnitude = x.magnitude := by
  simp only [magnitude, significand, scale, exponentField_negated, fraction_negated]

theorem isNaN_of_isInfinite {x : Binary64} (h : x.isInfinite = true) : x.isNaN = false := by
  simp only [isInfinite, isNaN, Bool.and_eq_true, beq_iff_eq] at h ⊢
  simp [h.2]

end Binary64

theorem toInt_neg_of_ne {value : Int64} (h : value ≠ Int64.minValue) :
    (-value).toInt = -value.toInt :=
  BitVec.toInt_neg_of_ne_intMin fun heq => h (Int64.toBitVec_inj.mp heq)

namespace Format

/-- The negative of a number. The least integer has none. -/
def Argument.negative? : Argument → Option Argument
  | .integer value => if value = Int64.minValue then none else some (.integer (-value))
  | .float value => some (.float value.negated)
  | _ => none

/-- Numbers above zero, infinity among them. -/
def Argument.IsPositive : Argument → Prop
  | .integer value => 0 < value.toInt
  | .float value => value.isNaN = false ∧ value.isNegative = false ∧ value.isZero = false
  | _ => False

def Argument.isInfinite : Argument → Bool
  | .float value => value.isInfinite
  | _ => false

/-- The conversions that write a number with its sign. -/
inductive Conversion.Signs : Conversion → Argument → Prop
  | decimal (value : Int64) : Signs .decimal (.integer value)
  | fixed (value : Binary64) : Signs .fixed (.float value)
  | scientific (upper : Bool) (value : Binary64) : Signs (.scientific upper) (.float value)

theorem Argument.negative?_integer {value : Int64} {negative : Argument}
    (h : (Argument.integer value).negative? = some negative) :
    value ≠ Int64.minValue ∧ negative = .integer (-value) := by
  simp only [Argument.negative?] at h
  split at h
  · cases h
  · next hmin => exact ⟨hmin, (Option.some.inj h).symm⟩

variable {spec : Spec} {number opposite : Argument}

/-! ## The column and what is behind it -/

/-- What the flags put in the place of a minus sign. -/
def Spec.columnMark (spec : Spec) : Char :=
  if spec.flags.plus then '+' else ' '

/-- What stands in front of a number. -/
def Spec.front (spec : Spec) : Argument → List Char
  | .integer value => spec.sign (decide (value.toInt < 0))
  | .float value =>
    if value.isNaN then []
    else if value.isInfinite then
      if value.isNegative then ['-'] else if spec.flags.plus then ['+'] else []
    else spec.sign (value.isNegative && !value.isZero)
  | _ => []

/-- A number without its sign. -/
def Spec.behind (spec : Spec) : Argument → List Char
  | .integer value => spec.grouped (digitsOf value.toInt.natAbs)
  | .float value =>
    if value.isNaN then "NaN".toList
    else if value.isInfinite then "Infinity".toList
    else spec.digitsOfFloat value
  | _ => []

/-- Infinity where the flag for a space should keep the column free for a sign. -/
def Spec.ForgetsColumn (spec : Spec) (number : Argument) : Prop :=
  number.isInfinite = true ∧ spec.flags.plus = false

theorem Spec.behind_of_finite {value : Binary64} (hnan : value.isNaN = false)
    (hinfinite : value.isInfinite = false) :
    spec.behind (.float value) = spec.digitsOfFloat value := by
  simp [Spec.behind, hnan, hinfinite]

theorem Spec.behind_of_not_finite {value : Binary64}
    (h : ¬(value.isNaN = false ∧ value.isInfinite = false)) :
    spec.behind (.float value) = if value.isNaN then "NaN".toList else "Infinity".toList := by
  rw [Spec.behind]
  split
  · rfl
  · next hnan => rw [if_pos (by simp_all)]

theorem Spec.behind_opposite (h : number.negative? = some opposite) :
    spec.behind opposite = spec.behind number := by
  cases number with
  | integer value =>
      obtain ⟨hmin, rfl⟩ := Argument.negative?_integer h
      rw [Spec.behind, toInt_neg_of_ne hmin, Int.natAbs_neg, Spec.behind]
  | float value =>
      cases h
      simp only [Spec.behind, Binary64.isNaN_negated, Binary64.isInfinite_negated,
        Spec.digitsOfFloat, Binary64.magnitude_negated]
  | _ => cases h

theorem Spec.floatBody_of_not_finite {value : Binary64}
    (h : ¬(value.isNaN = false ∧ value.isInfinite = false)) :
    spec.floatBody value
      = .ok (.text (spec.front (.float value) ++ spec.behind (.float value))) := by
  simp only [Spec.floatBody, Spec.front, Spec.behind]
  cases hnan : value.isNaN with
  | true => rfl
  | false =>
      cases hinfinite : value.isInfinite with
      | true => rfl
      | false => exact absurd ⟨hnan, hinfinite⟩ h

/-- A number and its negative are written with the same places. -/
theorem Spec.tooManyPlaces_opposite (spec : Spec) (h : number.negative? = some opposite) :
    spec.TooManyPlaces opposite ↔ spec.TooManyPlaces number := by
  have hwrites : spec.conversion.WritesPlaces opposite ↔ spec.conversion.WritesPlaces number := by
    cases number with
    | integer value =>
        obtain ⟨-, rfl⟩ := Argument.negative?_integer h
        cases spec.conversion <;> exact Iff.rfl
    | float value =>
        cases h
        cases spec.conversion <;> simp [Conversion.WritesPlaces]
    | _ => cases h
  exact and_congr_left fun _ => hwrites

theorem Conversion.Signs.mark_eq (h : spec.conversion.Signs number) : spec.mark = [] := by
  generalize hconversion : spec.conversion = conversion at h
  cases h <;> simp [Spec.mark, hconversion]

theorem Conversion.Signs.of_opposite (h : spec.conversion.Signs number)
    (hopposite : number.negative? = some opposite) : spec.conversion.Signs opposite := by
  generalize spec.conversion = conversion at h ⊢
  cases h with
  | decimal value =>
      obtain ⟨-, rfl⟩ := Argument.negative?_integer hopposite
      exact .decimal _
  | fixed value =>
      cases hopposite
      exact .fixed _
  | scientific upper value =>
      cases hopposite
      exact .scientific upper _

theorem Conversion.Signs.ne_newline (h : spec.conversion.Signs number) :
    spec.conversion ≠ .newline := by
  rintro hconversion
  rw [hconversion] at h
  cases h

theorem Spec.front_mem (spec : Spec) (number : Argument) : spec.front number ∈ signs := by
  unfold Spec.front
  split
  · exact spec.sign_mem _
  · split
    · decide
    · split
      · split
        · decide
        · split <;> decide
      · exact spec.sign_mem _
  · decide

theorem Spec.body_float
    (h : spec.conversion = .fixed ∨ ∃ upper, spec.conversion = .scientific upper)
    (value : Binary64) : spec.body (.float value) = spec.floatBody value := by
  unfold Spec.body
  rcases h with hconversion | ⟨upper, hconversion⟩ <;> rw [hconversion]

/-- A number is written as a numeral, or as an ASCII text if it has no digits. -/
theorem Conversion.Signs.body (h : spec.conversion.Signs number)
    (hplaces : ¬spec.TooManyPlaces number) :
    (spec.conversion.MakesNumeral number ∧
      spec.body number = .ok (.numeral (spec.front number) [] (spec.behind number)) ∧
      spec.Parted (spec.front number) [] (spec.behind number)) ∨
    (spec.body number = .ok (.text (spec.front number ++ spec.behind number)) ∧
      IsAscii (spec.behind number)) := by
  have hmark := h.mark_eq
  unfold Spec.TooManyPlaces at hplaces
  generalize hconversion : spec.conversion = conversion at h hplaces
  cases h with
  | decimal value =>
      refine .inl ⟨trivial, ?_, Spec.parted_decimal hconversion value⟩
      unfold Spec.body
      rw [hconversion]
      rfl
  | fixed value | scientific upper value =>
      rw [Spec.body_float (by simp [hconversion])]
      by_cases hdigits : value.isNaN = false ∧ value.isInfinite = false
      · have hle : placesFor spec.precision ≤ maxPlaces :=
          Nat.not_lt.mp fun hlt => hplaces ⟨hdigits, hlt⟩
        have hfront : spec.front (.float value)
            = spec.sign (value.isNegative && !value.isZero) := by
          simp [Spec.front, hdigits]
        refine .inl ⟨hdigits, ?_, ?_⟩
        · rw [Spec.floatBody_of_finite hdigits.1 hdigits.2, Spec.floatDigits_of_le hle, hfront,
            Spec.behind_of_finite hdigits.1 hdigits.2]
          rfl
        · rw [hfront, Spec.behind_of_finite hdigits.1 hdigits.2]
          exact Spec.parted_float hmark value
      · refine .inr ⟨Spec.floatBody_of_not_finite hdigits, ?_⟩
        rw [Spec.behind_of_not_finite hdigits]
        split <;> decide

/-- A text is as wide as it should be, or else it is the column and what is behind it. -/
theorem Conversion.Signs.exists_apply (h : spec.conversion.Signs number)
    (hplaces : ¬spec.TooManyPlaces number) :
    ∃ text, spec.apply (some number) = .ok text ∧
      text.length
        = max (spec.width.getD 0) ((spec.front number).length + (spec.behind number).length) := by
  rcases h.body hplaces with ⟨hnumeral, hbody, hparted⟩ | ⟨hbody, hascii⟩
  · refine ⟨_, spec.apply_eq_ok h.ne_newline (some number) hbody, ?_⟩
    rw [Spec.length_pad_numeral hnumeral hparted, List.length_nil, Nat.add_zero]
  · refine ⟨_, spec.apply_eq_ok h.ne_newline (some number) hbody, ?_⟩
    have hfront := ascii_of_mem_signs (spec.front_mem number)
    rw [Spec.length_pad_eq_max, Spec.bodyText, Spec.length_inCase (hfront.append hascii),
      List.length_append]

theorem Conversion.Signs.apply_of_no_width (h : spec.conversion.Signs number)
    (hplaces : ¬spec.TooManyPlaces number) (hwidth : spec.width = none) :
    spec.apply (some number) = .ok (spec.front number ++ spec.inCase (spec.behind number)) := by
  have hcase : spec.inCase (spec.front number ++ spec.behind number)
      = spec.front number ++ spec.inCase (spec.behind number) := by
    rw [Spec.inCase_append, Spec.inCase_sign (spec.front_mem number)]
  rcases h.body hplaces with ⟨-, hbody, -⟩ | ⟨hbody, -⟩
  · rw [Spec.apply_of_no_width hwidth h.ne_newline (some number) hbody,
      Spec.bodyText_of_no_width hwidth, List.append_nil, hcase]
  · rw [Spec.apply_of_no_width hwidth h.ne_newline (some number) hbody, Spec.bodyText, hcase]

/-! ## One character for each sign -/

theorem Spec.length_sign (hflag : spec.flags.plus = true ∨ spec.flags.space = true)
    (negative : Bool) : (spec.sign negative).length = 1 := by
  unfold Spec.sign
  split
  · rfl
  · split
    · rfl
    · next hplus => rw [if_pos (hflag.resolve_left hplus)]; rfl

theorem Spec.sign_of_positive (hflag : spec.flags.plus = true ∨ spec.flags.space = true) :
    spec.sign false = [spec.columnMark] := by
  unfold Spec.sign Spec.columnMark
  rw [if_neg (by decide)]
  split
  · rfl
  · next hplus => rw [if_pos (hflag.resolve_left hplus)]

theorem Spec.plus_of_isInfinite {value : Binary64} (hinfinite : value.isInfinite = true)
    (hkept : ¬spec.ForgetsColumn (.float value)) : spec.flags.plus = true :=
  Bool.of_not_eq_false fun hplus => hkept ⟨hinfinite, hplus⟩

/-- A number and its opposite take as much room for their signs. -/
theorem Spec.length_front_opposite (hflag : spec.flags.plus = true ∨ spec.flags.space = true)
    (hopposite : number.negative? = some opposite) (hkept : ¬spec.ForgetsColumn number) :
    (spec.front opposite).length = (spec.front number).length := by
  cases number with
  | integer value =>
      obtain ⟨-, rfl⟩ := Argument.negative?_integer hopposite
      rw [Spec.front, Spec.front, Spec.length_sign hflag, Spec.length_sign hflag]
  | float value =>
      cases hopposite
      simp only [Spec.front, Binary64.isNaN_negated, Binary64.isInfinite_negated]
      split
      · rfl
      · split
        · next hinfinite =>
            rw [Spec.plus_of_isInfinite hinfinite hkept]
            cases value.isNegative <;> cases value.negated.isNegative <;> rfl
        · rw [Spec.length_sign hflag, Spec.length_sign hflag]
  | _ => cases hopposite

theorem Spec.front_of_isPositive (hflag : spec.flags.plus = true ∨ spec.flags.space = true)
    (hpositive : number.IsPositive) (hkept : ¬spec.ForgetsColumn number) :
    spec.front number = [spec.columnMark] := by
  cases number with
  | integer value =>
      have hlt : ¬value.toInt < 0 := Int.not_lt.mpr (Int.le_of_lt hpositive)
      rw [Spec.front, decide_eq_false hlt, Spec.sign_of_positive hflag]
  | float value =>
      obtain ⟨hnan, hsign, -⟩ := hpositive
      simp only [Spec.front, hnan, hsign, Bool.false_and, Spec.sign_of_positive hflag]
      split
      · contradiction
      · split
        · next hinfinite =>
            simp [Spec.columnMark, Spec.plus_of_isInfinite hinfinite hkept]
        · rfl
  | _ => cases hpositive

/-! ## The column that is forgotten -/

/-- Of the signs of infinity only the minus sign is written. -/
theorem Spec.ForgetsColumn.exists_parts (h : spec.ForgetsColumn number) :
    ∃ value, number = .float value ∧ spec.behind number = "Infinity".toList ∧
      spec.front number = if value.isNegative then ['-'] else [] := by
  obtain ⟨hinfinite, hplus⟩ := h
  cases number with
  | float value =>
      replace hinfinite : value.isInfinite = true := hinfinite
      have hnan := Binary64.isNaN_of_isInfinite hinfinite
      exact ⟨value, rfl, by simp [Spec.behind, hnan, hinfinite],
        by simp [Spec.front, hnan, hinfinite, hplus]⟩
  | _ => exact absurd hinfinite Bool.false_ne_true

theorem Spec.ForgetsColumn.lengths (h : spec.ForgetsColumn number)
    (hopposite : number.negative? = some opposite) :
    (spec.behind number).length = 8 ∧
      (spec.front opposite).length + (spec.front number).length = 1 := by
  obtain ⟨value, rfl, hbehind, hfront⟩ := h.exists_parts
  cases hopposite
  have hnegated : spec.ForgetsColumn (.float value.negated) :=
    ⟨value.isInfinite_negated.trans h.1, h.2⟩
  obtain ⟨_, heq, -, hfront'⟩ := hnegated.exists_parts
  cases heq
  rw [hbehind, hfront, hfront', Binary64.isNegative_negated]
  cases value.isNegative <;> exact ⟨rfl, rfl⟩

/-- Infinity begins with its first letter. -/
theorem Spec.ForgetsColumn.head?_ne (h : spec.ForgetsColumn number)
    (hpositive : number.IsPositive) :
    (spec.front number ++ spec.inCase (spec.behind number)).head? ≠ some spec.columnMark := by
  obtain ⟨value, rfl, hbehind, hfront⟩ := h.exists_parts
  have hhead : (spec.inCase "Infinity".toList).head? = some 'I' := by
    unfold Spec.inCase
    split <;> rfl
  rw [hbehind, hfront, hpositive.2.1, if_neg Bool.false_ne_true, List.nil_append, hhead]
  unfold Spec.columnMark
  split <;> decide

/-- With a flag for the column of the sign, a number and its opposite come out equally
long, and a positive number begins with the character that the flag asks for, a plus
sign before a space; but not infinity with no flag for a plus sign: it begins with its
first letter, and it is as long as its opposite only if a width has made it so. With
more places than numbers can be written with, neither the number nor its opposite is
written. -/
theorem sign_column (hflag : spec.flags.plus = true ∨ spec.flags.space = true)
    (hnumber : spec.conversion.Signs number) (hopposite : number.negative? = some opposite) :
    (spec.TooManyPlaces number → spec.apply (some number) = .error .tooManyPlaces ∧
      spec.apply (some opposite) = .error .tooManyPlaces) ∧
    (¬spec.TooManyPlaces number →
      (∃ text text', spec.apply (some number) = .ok text ∧
        spec.apply (some opposite) = .ok text' ∧
        (text.length = text'.length ↔ (spec.ForgetsColumn number → 8 < spec.width.getD 0))) ∧
      (number.IsPositive → ∃ bare, spec.withoutWidth.apply (some number) = .ok bare ∧
        (bare.head? = some spec.columnMark ↔ ¬spec.ForgetsColumn number))) := by
  have hsame := spec.tooManyPlaces_opposite hopposite
  refine ⟨fun hplaces => ⟨Spec.apply_of_tooManyPlaces hplaces,
    Spec.apply_of_tooManyPlaces (hsame.mpr hplaces)⟩, fun hplaces => ⟨?_, ?_⟩⟩
  · obtain ⟨text, htext, hlength⟩ := hnumber.exists_apply hplaces
    obtain ⟨text', htext', hlength'⟩ :=
      (hnumber.of_opposite hopposite).exists_apply (mt hsame.mp hplaces)
    refine ⟨text, text', htext, htext', ?_⟩
    rw [hlength, hlength', Spec.behind_opposite hopposite]
    by_cases hforgets : spec.ForgetsColumn number
    · obtain ⟨hbehind, hfronts⟩ := hforgets.lengths hopposite
      simp only [hforgets, true_implies, hbehind]
      omega
    · rw [Spec.length_front_opposite hflag hopposite hforgets]
      simp only [hforgets, false_implies]
  · intro hpositive
    have hbare : spec.withoutWidth.conversion.Signs number := hnumber
    refine ⟨spec.front number ++ spec.inCase (spec.behind number),
      hbare.apply_of_no_width hplaces rfl, ?_⟩
    by_cases hforgets : spec.ForgetsColumn number
    · exact iff_of_false (hforgets.head?_ne hpositive) (not_not_intro hforgets)
    · rw [Spec.front_of_isPositive hflag hpositive hforgets]
      exact iff_of_true rfl hforgets

/-- Under the flag for a space infinity is shorter than its negative, and there is no
space in front of it. -/
theorem infinity_without_space :
    let spec : Spec := ⟨.next, ⟨false, false, false, true, false, false⟩, none, none, .fixed⟩
    let infinity : Argument := .float (.infinity false)
    let opposite : Argument := .float (.infinity true)
    (infinity.negative? = some opposite ∧ spec.conversion.Signs infinity ∧ infinity.IsPositive) ∧
      spec.apply (some infinity) = .ok "Infinity".toList ∧
      spec.apply (some opposite) = .ok "-Infinity".toList ∧
      (¬∀ (spec : Spec) (number opposite : Argument), spec.flags.space = true →
        spec.conversion.Signs number → number.negative? = some opposite →
          ∃ text text', spec.apply (some number) = .ok text ∧
            spec.apply (some opposite) = .ok text' ∧ text.length = text'.length) ∧
      ¬∀ (spec : Spec) (number : Argument), spec.flags.space = true → spec.flags.plus = false →
        spec.conversion.Signs number → number.IsPositive →
          ∃ text, spec.withoutWidth.apply (some number) = .ok text ∧ text.head? = some ' ' := by
  intro spec infinity opposite
  have hnegative : infinity.negative? = some opposite := by decide +kernel
  have hsigns : spec.conversion.Signs infinity := .fixed _
  have hpositive : infinity.IsPositive := by
    exact ⟨by decide, by decide, by decide⟩
  have htext : spec.apply (some infinity) = .ok "Infinity".toList := rfl
  have htext' : spec.apply (some opposite) = .ok "-Infinity".toList := rfl
  refine ⟨⟨hnegative, hsigns, hpositive⟩, htext, htext', fun hall => ?_, fun hall => ?_⟩
  · obtain ⟨text, text', h, h', hlength⟩ := hall spec infinity opposite rfl hsigns hnegative
    cases htext.symm.trans h
    cases htext'.symm.trans h'
    exact absurd hlength (by decide)
  · obtain ⟨text, h, hhead⟩ := hall spec infinity rfl rfl hsigns hpositive
    cases htext.symm.trans h
    exact absurd hhead (by decide)

/-- A number that rounds to zero, and infinity in a width that makes up for the space; and
the number with one place too many. -/
theorem sign_column_small_number :
    let small : Argument := .float ⟨0x3E112E0BE826D695⟩
    let infinity : Argument := .float (.infinity false)
    let spec : Spec := ⟨.next, ⟨false, false, false, true, false, false⟩, some 9, none, .fixed⟩
    let precise : Spec := { spec with precision := some 65536 }
    (spec.flags.space = true ∧ spec.conversion.Signs small ∧
      small.negative? = some (.float ⟨0xBE112E0BE826D695⟩) ∧ small.IsPositive ∧
      ¬spec.TooManyPlaces small ∧ ¬spec.TooManyPlaces infinity ∧ precise.TooManyPlaces small) ∧
    (∃ text text', spec.apply (some small) = .ok text ∧
      spec.apply (some (.float ⟨0xBE112E0BE826D695⟩)) = .ok text' ∧ text.length = text'.length) ∧
    (∃ bare, spec.withoutWidth.apply (some small) = .ok bare ∧ bare.head? = some ' ') ∧
    (∃ text text', spec.apply (some infinity) = .ok text ∧
      spec.apply (some (.float (.infinity true))) = .ok text' ∧ text.length = text'.length) ∧
    precise.apply (some small) = .error .tooManyPlaces := by
  intro small infinity spec precise
  have hflag : spec.flags.plus = true ∨ spec.flags.space = true := .inr rfl
  have hflag' : precise.flags.plus = true ∨ precise.flags.space = true := .inr rfl
  have hsmall : small.negative? = some (.float ⟨0xBE112E0BE826D695⟩) := by decide +kernel
  have hpositive : small.IsPositive := ⟨by decide, by decide, by decide⟩
  have hinfinity : infinity.negative? = some (.float (.infinity true)) := by decide +kernel
  have hkept : ¬spec.ForgetsColumn small := fun h => absurd h.1 (by decide)
  have hfits : ∀ number, ¬spec.TooManyPlaces number := fun _ h => absurd h.2 (by decide)
  have hplaces : precise.TooManyPlaces small := ⟨⟨by decide, by decide⟩, by decide⟩
  obtain ⟨⟨text, text', h, h', hlength⟩, hbare⟩ :=
    (sign_column hflag (.fixed _) hsmall).2 (hfits small)
  obtain ⟨bare, hbare, hhead⟩ := hbare hpositive
  obtain ⟨⟨wide, wide', hw, hw', hwide⟩, -⟩ :=
    (sign_column hflag (.fixed _) hinfinity).2 (hfits infinity)
  refine ⟨⟨rfl, .fixed _, hsmall, hpositive, hfits small, hfits infinity, hplaces⟩,
    ⟨text, text', h, h', ?_⟩, ⟨bare, hbare, hhead.mpr hkept⟩,
    ⟨wide, wide', hw, hw', hwide.mpr fun _ => by decide⟩,
    ((sign_column hflag' (.fixed _) hsmall).1 hplaces).1⟩
  exact hlength.mpr fun hforgets => absurd hforgets hkept

end Format

end MailMerge
