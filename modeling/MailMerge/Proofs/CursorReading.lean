import MailMerge.Format.Cursor
import MailMerge.Proofs.Scanning
import MailMerge.Proofs.SpecReading

/-!
# A cursor stays within its specifier

`Spec.readByCursor` looks at bytes by their places and asks nowhere whether they
are there. It relies on the shape of its text, which the scan has made sure of:
all characters are ASCII, so that every place is one between characters, and the
last one closes the specifier, so it is none of the signs that the cursor goes on
behind.

What ties it to the reading of characters is `Ahead`. When the one has some
characters left, the cursor of the other stands in front of the same characters,
with the closing one behind them. Each part moves the cursor by as many places as
characters are taken off (`Reading.Matches`), so it comes to the closing
character at most, and a look at the place where a part ends is a look at what is
left or at the closing character. `Reading.Gives` keeps both together, what a
reading comes to and that it has not left the text, and `gives_readByCursor` says
it of the whole.
-/

namespace MailMerge.Format

/-- An access that keeps to the places up to the last one; a slice, moreover, begins
and ends where characters of the text do. -/
def Access.Within (text : List Char) (last : Nat) : Access → Prop
  | .look place | .move place => place ≤ last
  | .slice span => span.stop ≤ last ∧ ∃ piece, span.slice? text = some piece

/-! ## Bytes of ASCII -/

theorem map_ofUInt8_utf8Bytes {text : List Char} (h : IsAscii text) :
    (utf8Bytes text).map Char.ofUInt8 = text := by
  induction text with
  | nil => rfl
  | cons c text ih =>
      obtain ⟨hc, htext⟩ := List.forall_mem_cons.mp h
      have hbyte : String.utf8EncodeChar c = [c.val.toUInt8] :=
        String.utf8EncodeChar_eq_singleton (Char.utf8Size_eq_one_iff.mpr hc)
      have hchar : Char.ofUInt8 c.val.toUInt8 = c := by
        have hle : c.val.toNat ≤ 127 := UInt32.le_iff_toNat_le.mp hc
        apply Char.ext
        apply UInt32.toNat_inj.mp
        show c.val.toUInt8.toUInt32.toNat = c.val.toNat
        simp only [UInt8.toNat_toUInt32, UInt32.toNat_toUInt8]
        omega
      rw [show utf8Bytes (c :: text) = String.utf8EncodeChar c ++ utf8Bytes text from rfl,
        hbyte, List.map_append, ih htext, List.map_singleton, hchar]
      rfl

/-! ## Readings that stay within their text -/

/-- A reading comes to this result, and has kept within the text. -/
structure Reading.Gives {α : Type} (text : List Char) (last : Nat) (reading : Reading α)
    (result : Except ReadStop α) : Prop where
  result_eq : reading.result = result
  within : ∀ access ∈ reading.accesses, access.Within text last

/-- In a text of ASCII, the cursor at this place has these characters in front of it,
and then the closing one, which is at the last place. -/
structure Ahead (text : List Char) (closing : Char) (last place : Nat) (rest : List Char) :
    Prop where
  ascii : IsAscii text
  closes : isClosing closing = true
  drop_eq : text.drop place = rest ++ [closing]
  last_eq : place + rest.length = last

/-- A reading of one part with a cursor has the same outcome as taking the part off
the characters, and the cursor stands in front of what is left of them then. -/
inductive Reading.Matches {α : Type} (text : List Char) (closing : Char) (last : Nat)
    (reading : Reading (α × Nat)) : Except Fault (α × List Char) → Prop
  | ok {value : α} {place : Nat} {rest : List Char} (ahead : Ahead text closing last place rest)
      (gives : reading.Gives text last (.ok (value, place))) :
      Matches text closing last reading (.ok (value, rest))
  | error {fault : Fault} (gives : reading.Gives text last (.error (.fault fault))) :
      Matches text closing last reading (.error fault)

open Reading

section

variable {α β : Type} {text : List Char} {closing : Char} {last place : Nat} {rest : List Char}

theorem gives_pure (value : α) : (pure value : Reading α).Gives text last (.ok value) :=
  ⟨rfl, nofun⟩

theorem gives_fault (f : Fault) : (fault f : Reading α).Gives text last (.error (.fault f)) :=
  ⟨rfl, nofun⟩

theorem gives_access {access : Access} {value : Option α} {v : α} (hvalue : value = some v)
    (hwithin : access.Within text last) :
    (Reading.access access value).Gives text last (.ok v) := by
  subst hvalue
  exact ⟨rfl, fun _ ha => List.mem_singleton.mp ha ▸ hwithin⟩

theorem gives_move (h : place ≤ last) : (move place).Gives text last (.ok ()) :=
  ⟨rfl, fun _ ha => List.mem_singleton.mp ha ▸ h⟩

theorem Reading.Gives.bind {reading : Reading α} {next : α → Reading β} {value : α}
    {result : Except ReadStop β} (h : reading.Gives text last (.ok value))
    (hnext : (next value).Gives text last result) :
    (reading >>= next).Gives text last result := by
  rw [bind_of_ok h.result_eq]
  refine ⟨hnext.result_eq, fun access hmem => ?_⟩
  rcases List.mem_append.mp hmem with hmem | hmem
  · exact h.within access hmem
  · exact hnext.within access hmem

theorem Reading.Gives.bind_error {reading : Reading α} {next : α → Reading β} {stop : ReadStop}
    (h : reading.Gives text last (.error stop)) :
    (reading >>= next).Gives text last (.error stop) := by
  rw [bind_of_error h.result_eq]
  exact ⟨rfl, h.within⟩

/-- What comes before a part does not matter to it, if it has gone well. -/
theorem Reading.Gives.bind_matches {reading : Reading α} {next : α → Reading (β × Nat)}
    {value : α} {expected : Except Fault (β × List Char)}
    (h : reading.Gives text last (.ok value))
    (hnext : (next value).Matches text closing last expected) :
    (reading >>= next).Matches text closing last expected := by
  cases hnext with
  | ok ahead gives => exact .ok ahead (h.bind gives)
  | error gives => exact .error (h.bind gives)

/-- Readings that match part by part match as a whole. -/
theorem Reading.Matches.bind {reading : Reading (α × Nat)} {next : α × Nat → Reading β}
    {expected : Except Fault (α × List Char)} {next' : α × List Char → Except Fault β}
    (h : reading.Matches text closing last expected)
    (hnext : ∀ value place rest, Ahead text closing last place rest →
      (next (value, place)).Gives text last ((next' (value, rest)).mapError .fault)) :
    (reading >>= next).Gives text last ((expected >>= next').mapError .fault) := by
  cases h with
  | ok ahead gives => exact gives.bind (hnext _ _ _ ahead)
  | error gives => exact gives.bind_error

/-! ## Where the cursor stands -/

namespace Ahead

theorem le_last (h : Ahead text closing last place rest) : place ≤ last := by
  have := h.last_eq
  omega

theorem lt_last_iff (h : Ahead text closing last place rest) : place < last ↔ rest ≠ [] := by
  have := h.last_eq
  rw [Ne, ← List.length_eq_zero_iff]
  omega

/-- The cursor goes over characters. -/
theorem skip {run rest : List Char} (h : Ahead text closing last place (run ++ rest)) :
    Ahead text closing last (place + run.length) rest where
  ascii := h.ascii
  closes := h.closes
  drop_eq := by
    rw [← List.drop_drop, h.drop_eq, List.append_assoc, List.drop_left]
  last_eq := by
    rw [← h.last_eq, List.length_append, Nat.add_assoc]

theorem step {c : Char} (h : Ahead text closing last place (c :: rest)) :
    Ahead text closing last (place + 1) rest := by
  have hrun : Ahead text closing last place ([c] ++ rest) := h
  exact hrun.skip

/-- What the cursor looks at: the next character, or the closing one if there is none. -/
theorem gives_look (h : Ahead text closing last place rest) :
    (look text place).Gives text last (.ok (rest.head?.getD closing)) := by
  refine gives_access ?_ h.le_last
  have hhead : (rest ++ [closing]).head? = some (rest.head?.getD closing) := by
    cases rest <;> rfl
  rw [← List.getElem?_map, map_ofUInt8_utf8Bytes h.ascii, ← List.head?_drop, h.drop_eq, hhead]

theorem gives_look_cons {c : Char} (h : Ahead text closing last place (c :: rest)) :
    (look text place).Gives text last (.ok c) :=
  h.gives_look

/-- A sign is not the closing character, so one that is seen is the next character. -/
theorem head?_eq_iff {sign : Char} (h : Ahead text closing last place rest)
    (hsign : isClosing sign = false) :
    rest.head?.getD closing = sign ↔ rest.head? = some sign := by
  cases rest with
  | nil =>
      have hne : closing ≠ sign := fun heq => by
        rw [← heq, h.closes] at hsign
        cases hsign
      simpa using hne
  | cons c rest => simp

theorem gives_slice {run rest : List Char}
    (h : Ahead text closing last place (run ++ rest)) :
    (slice text ⟨place, place + run.length⟩).Gives text last (.ok run) := by
  have hsplit : text = text.take place ++ run ++ (rest ++ [closing]) := by
    rw [List.append_assoc, ← List.append_assoc run, ← h.drop_eq, List.take_append_drop]
  have hfront : (text.take place).length = place := by
    have hlength := congrArg List.length h.drop_eq
    simp only [List.length_drop, List.length_append, List.length_singleton] at hlength
    rw [List.length_take]
    omega
  have hbytes : ∀ piece : List Char, (∀ c ∈ piece, c ∈ text) → byteLength piece = piece.length :=
    fun piece hpiece => IsAscii.byteLength_eq fun c hc => h.ascii c (hpiece c hc)
  have hslice : Span.slice? ⟨place, place + run.length⟩ text = some run := by
    refine slice?_eq_some_iff.mpr ⟨text.take place, rest ++ [closing], hsplit, ?_, ?_⟩
    · rw [hbytes _ fun c hc => List.mem_of_mem_take hc, hfront]
    · rw [hbytes _ fun c hc => List.mem_of_mem_take hc, hfront, hbytes run fun c hc => ?_]
      rw [hsplit]
      exact List.mem_append_left _ (List.mem_append_right _ hc)
  exact gives_access hslice ⟨h.skip.le_last, run, hslice⟩

/-- The digits that the cursor goes over are the next characters that are digits. -/
theorem gives_skipDigits (h : Ahead text closing last place rest) :
    (skipDigits text last place).Gives text last
      (.ok (place + (rest.takeWhile Char.isDigit).length)) := by
  induction rest generalizing place with
  | nil =>
      rw [skipDigits]
      refine (gives_move h.le_last).bind ?_
      rw [if_neg (by simp [h.lt_last_iff])]
      exact gives_pure place
  | cons c rest ih =>
      rw [skipDigits]
      refine (gives_move h.le_last).bind ?_
      rw [if_pos (by simp [h.lt_last_iff])]
      refine h.gives_look_cons.bind ?_
      by_cases hdigit : c.isDigit = true
      · have hplace : place + ((rest.takeWhile Char.isDigit).length + 1)
            = place + 1 + (rest.takeWhile Char.isDigit).length := by omega
        rw [if_pos hdigit, List.takeWhile_cons_of_pos hdigit, List.length_cons, hplace]
        exact ih h.step
      · rw [if_neg hdigit, List.takeWhile_cons_of_neg hdigit]
        exact gives_pure place

end Ahead

/-! ## The parts -/

theorem withoutPlus_of_isDigits {digits : List Char} (h : IsDigits digits) :
    withoutPlus digits = digits := by
  unfold withoutPlus
  split
  · exact absurd (h '+' List.mem_cons_self) (by decide)
  · rfl

theorem natural?_of_isDigits {digits : List Char} (h : IsDigits digits) :
    natural? digits = if digits ≠ [] ∧ valueOfDigits digits < indexBound then
      some (valueOfDigits digits) else none := by
  have hall : digits.all Char.isDigit = true := List.all_eq_true.mpr h
  unfold natural?
  simp only [withoutPlus_of_isDigits h, hall, true_and]

/-- A number of more than 64 bits is above the bound for widths anyway. -/
theorem filter_natural?_of_isDigits {digits : List Char} (h : IsDigits digits) :
    (natural? digits).filter (· ≤ maxWidth)
      = if digits ≠ [] ∧ valueOfDigits digits ≤ maxWidth then some (valueOfDigits digits)
        else none := by
  have hbound : maxWidth < indexBound := by decide
  rw [natural?_of_isDigits h]
  by_cases hle : valueOfDigits digits ≤ maxWidth
  · have hlt : valueOfDigits digits < indexBound := by omega
    simp only [hlt, hle, and_true]
    split
    · simp [hle]
    · rfl
  · simp only [hle, and_false, if_false]
    split
    · simpa using hle
    · rfl

theorem Ahead.matches_extentAt {digits back : List Char}
    (h : Ahead text closing last place (digits ++ back)) (otherwise : Fault)
    (hdigits : IsDigits digits) :
    (extentAt text ⟨place, place + digits.length⟩ otherwise).Matches text closing last
      (if digits ≠ [] ∧ valueOfDigits digits ≤ maxWidth then
        .ok (some (valueOfDigits digits), back) else .error otherwise) := by
  unfold extentAt
  refine h.gives_slice.bind_matches ?_
  rw [filter_natural?_of_isDigits hdigits]
  by_cases hrange : digits ≠ [] ∧ valueOfDigits digits ≤ maxWidth
  · rw [if_pos hrange, if_pos hrange]
    exact .ok h.skip ((gives_move h.skip.le_last).bind (gives_pure (_, place + digits.length)))
  · rw [if_neg hrange, if_neg hrange]
    exact .error (gives_fault otherwise)

theorem Ahead.matches_numberAt {digits after : List Char}
    (h : Ahead text closing last place (digits ++ '$' :: after)) (hne : digits ≠ [])
    (hdigits : IsDigits digits) :
    (numberAt text ⟨place, place + digits.length⟩).Matches text closing last
      (Spec.readIndex (digits ++ '$' :: after)) := by
  have hnext := h.skip.step
  have hnumber : (natural? digits).getD 0
      = if valueOfDigits digits < indexBound then valueOfDigits digits else 0 := by
    rw [natural?_of_isDigits hdigits]
    by_cases hlt : valueOfDigits digits < indexBound
    · rw [if_pos ⟨hne, hlt⟩, if_pos hlt, Option.getD_some]
    · rw [if_neg fun hboth => hlt hboth.2, if_neg hlt, Option.getD_none]
  unfold numberAt
  refine h.gives_slice.bind_matches ?_
  rw [readIndex_number hne hdigits]
  by_cases hrange : valueOfDigits digits = 0 ∨ indexBound ≤ valueOfDigits digits
  · have hzero : (natural? digits).getD 0 = 0 := by
      rw [hnumber]
      split <;> omega
    rw [if_pos hrange, if_pos hzero]
    exact .error (gives_fault .missingArgument)
  · have hvalue : (natural? digits).getD 0 = valueOfDigits digits := by
      rw [hnumber, if_pos (by omega)]
    rw [if_neg hrange, hvalue, if_neg (by omega)]
    exact .ok hnext ((gives_move hnext.le_last).bind
      (gives_pure (ArgumentIndex.explicit (valueOfDigits digits), place + digits.length + 1)))

theorem Ahead.matches_indexAt (h : Ahead text closing last place rest) :
    (indexAt text last place).Matches text closing last (Spec.readIndex rest) := by
  unfold indexAt
  refine h.gives_look.bind_matches ?_
  by_cases hprevious : rest.head? = some '<'
  · obtain ⟨after, rfl⟩ := List.head?_eq_some_iff.mp hprevious
    exact .ok h.step ((gives_move h.step.le_last).bind
      (gives_pure (ArgumentIndex.previous, place + 1)))
  rw [if_neg (mt (h.head?_eq_iff rfl).mp hprevious)]
  refine h.gives_skipDigits.bind_matches ?_
  have hsplit := List.takeWhile_append_dropWhile (p := Char.isDigit) (l := rest)
  by_cases hnone : rest.takeWhile Char.isDigit = []
  · rw [readIndex_of_no_sign hprevious (.inl hnone), hnone, if_neg (by simp)]
    exact .ok h (gives_pure (ArgumentIndex.next, place))
  have hdigits : Ahead text closing last (place + (rest.takeWhile Char.isDigit).length)
      (rest.dropWhile Char.isDigit) := Ahead.skip (hsplit.symm ▸ h)
  rw [if_pos (by have := List.length_pos_iff.mpr hnone; omega)]
  -- No digit is left to look at here, but what is left may be the closing character.
  refine hdigits.gives_look.bind_matches ?_
  by_cases hdollar : (rest.dropWhile Char.isDigit).head? = some '$'
  · obtain ⟨after, hafter⟩ := List.head?_eq_some_iff.mp hdollar
    rw [if_pos ((hdigits.head?_eq_iff rfl).mpr hdollar)]
    rw [hafter] at hsplit
    rw [← hsplit] at h
    have hnumber := h.matches_numberAt hnone (isDigits_takeWhile rest)
    rwa [hsplit] at hnumber
  · rw [readIndex_of_no_sign hprevious (.inr hdollar),
      if_neg (mt (hdigits.head?_eq_iff rfl).mp hdollar)]
    exact .ok h (gives_pure (ArgumentIndex.next, place))

/-- A flag that is set is one that has been passed. -/
theorem Flags.set?_ofChars (passed : List Char) (c : Char) :
    (Flags.ofChars passed).set? c
      = if Flags.isFlag c then some (Flags.ofChars (passed ++ [c])) else none := by
  by_cases hflag : Flags.isFlag c = true
  · rw [if_pos hflag]
    have hmem := isFlag_iff.mp hflag
    simp only [List.mem_cons, List.not_mem_nil, or_false] at hmem
    rcases hmem with rfl | rfl | rfl | rfl | rfl | rfl <;>
      simp [Flags.set?, Flags.ofChars]
  · rw [if_neg hflag]
    unfold Flags.set?
    split
    any_goals exact absurd rfl hflag
    rfl

theorem Ahead.matches_flagsAt (h : Ahead text closing last place rest) (passed : List Char) :
    (flagsAt text last (Flags.ofChars passed) place).Matches text closing last
      (.ok (Flags.ofChars (passed ++ rest.takeWhile Flags.isFlag),
        rest.dropWhile Flags.isFlag)) := by
  induction rest generalizing place passed with
  | nil =>
      rw [flagsAt, if_neg (by simp [h.lt_last_iff]), List.takeWhile_nil, List.append_nil]
      exact .ok h (gives_pure _)
  | cons c rest ih =>
      rw [flagsAt, if_pos (h.lt_last_iff.mpr (List.cons_ne_nil c rest))]
      refine h.gives_look_cons.bind_matches ?_
      rw [Flags.set?_ofChars]
      by_cases hflag : Flags.isFlag c = true
      · rw [if_pos hflag, List.takeWhile_cons_of_pos hflag, List.dropWhile_cons_of_pos hflag,
          List.append_cons passed c (rest.takeWhile Flags.isFlag)]
        exact (gives_move h.step.le_last).bind_matches (ih h.step (passed ++ [c]))
      · rw [if_neg hflag, List.takeWhile_cons_of_neg hflag, List.dropWhile_cons_of_neg hflag,
          List.append_nil]
        exact .ok h (gives_pure _)

theorem Ahead.matches_widthAt (h : Ahead text closing last place rest) :
    (widthAt text last place).Matches text closing last (Spec.readWidth rest) := by
  unfold widthAt
  refine h.gives_skipDigits.bind_matches ?_
  have hsplit := List.takeWhile_append_dropWhile (p := Char.isDigit) (l := rest)
  rw [readWidth_eq]
  by_cases hnone : rest.takeWhile Char.isDigit = []
  · rw [if_pos hnone, hnone, if_neg (by simp)]
    exact .ok h (gives_pure (none, place))
  · rw [if_neg hnone, if_pos (by have := List.length_pos_iff.mpr hnone; omega)]
    rw [← hsplit] at h
    have hextent := h.matches_extentAt .unknownConversion (isDigits_takeWhile rest)
    simpa only [ne_eq, hnone, not_false_eq_true, true_and] using hextent

theorem Ahead.matches_precisionAt (h : Ahead text closing last place rest) :
    (precisionAt text last place).Matches text closing last (Spec.readPrecision rest) := by
  unfold precisionAt
  by_cases hpoint : rest.head? = some '.'
  · obtain ⟨after, rfl⟩ := List.head?_eq_some_iff.mp hpoint
    have hnext := h.step
    have hsplit := List.takeWhile_append_dropWhile (p := Char.isDigit) (l := after)
    rw [if_pos (h.lt_last_iff.mpr (List.cons_ne_nil _ _))]
    refine h.gives_look.bind_matches ?_
    rw [if_pos ((h.head?_eq_iff rfl).mpr hpoint)]
    refine hnext.gives_skipDigits.bind_matches ?_
    rw [← hsplit] at hnext
    exact hnext.matches_extentAt .illegalPrecision (isDigits_takeWhile after)
  · have hnothing : Spec.readPrecision rest = .ok (none, rest) := by
      unfold Spec.readPrecision
      split
      · exact absurd rfl hpoint
      · rfl
    rw [hnothing]
    by_cases hrest : rest = []
    · rw [if_neg (by simp [h.lt_last_iff, hrest])]
      exact .ok h (gives_pure (none, place))
    · rw [if_pos (h.lt_last_iff.mpr hrest)]
      refine h.gives_look.bind_matches ?_
      rw [if_neg (mt (h.head?_eq_iff rfl).mp hpoint)]
      exact .ok h (gives_pure (none, place))

/-! ## The whole specifier -/

section

variable {modifiers : List Char}

theorem byteLength_specifier (h : IsAscii ('%' :: modifiers ++ [closing])) :
    byteLength ('%' :: modifiers ++ [closing]) = modifiers.length + 1 + 1 := by
  rw [h.byteLength_eq, List.length_append]
  rfl

theorem gives_lastPlace (h : IsAscii ('%' :: modifiers ++ [closing])) :
    (lastPlace ('%' :: modifiers ++ [closing])).Gives ('%' :: modifiers ++ [closing])
      (modifiers.length + 1) (.ok (modifiers.length + 1)) := by
  unfold lastPlace
  rw [byteLength_specifier h]
  exact gives_pure _

/-- The cursor starts behind the percent sign. -/
theorem ahead_start (h : IsAscii ('%' :: modifiers ++ [closing]))
    (hclosing : isClosing closing = true) :
    Ahead ('%' :: modifiers ++ [closing]) closing (modifiers.length + 1) 1 modifiers :=
  ⟨h, hclosing, rfl, Nat.add_comm ..⟩

theorem gives_readByCursor (hascii : IsAscii ('%' :: modifiers ++ [closing]))
    (hclosing : isClosing closing = true) :
    (Spec.readByCursor ('%' :: modifiers ++ [closing])).Gives ('%' :: modifiers ++ [closing])
      (modifiers.length + 1) ((Spec.read modifiers closing).mapError .fault) := by
  have hlast := gives_lastPlace hascii
  have hstart := ahead_start hascii hclosing
  -- From here on only the cursor's place in the text matters, not how the text is made up.
  generalize '%' :: modifiers ++ [closing] = text at *
  unfold Spec.readByCursor Spec.read
  refine hlast.bind ((gives_move hstart.le_last).bind ?_)
  refine hstart.matches_indexAt.bind fun index place rest h => ?_
  cases h.matches_flagsAt [] with
  | ok h gives =>
      refine gives.bind ?_
      refine h.matches_widthAt.bind fun width place rest h => ?_
      refine h.matches_precisionAt.bind fun precision place rest h => ?_
      simp only []
      by_cases hrest : rest = []
      · have hplace : place = modifiers.length + 1 := by simpa [hrest] using h.last_eq
        have hlook := h.gives_look
        rw [hrest, hplace, List.head?_nil, Option.getD_none] at hlook
        rw [if_neg (not_not_intro hplace), if_neg (not_not_intro hrest)]
        refine hlook.bind ?_
        cases Conversion.ofClosing? closing with
        | none => exact gives_fault .unknownConversion
        | some conversion =>
            simp only []
            split
            · exact gives_fault .illegalPrecision
            · exact gives_pure _
      · have hplace : place ≠ modifiers.length + 1 := by
          have := h.lt_last_iff.mpr hrest
          omega
        rw [if_pos hplace, if_pos hrest]
        exact gives_fault .unknownConversion

end

end

/-- One less than a number that counts from one is reached without wrapping around. -/
theorem toNat_ofNat_sub_one {number : Nat} (hpos : 1 ≤ number) (hlt : number < UInt64.size) :
    (UInt64.ofNat number - 1).toNat = number - 1 := by
  have hnumber : (UInt64.ofNat number).toNat = number := UInt64.toNat_ofNat_of_lt hlt
  have hle : (1 : UInt64) ≤ UInt64.ofNat number := by
    rw [UInt64.le_iff_toNat_le, hnumber]
    exact hpos
  rw [UInt64.toNat_sub_of_le _ _ hle, hnumber]
  rfl

/-- Reading a specifier of a format string with a cursor comes to what reading its
characters comes to, so it is refused nothing. On the way it keeps to the places up
to that of the closing character, which is the last one: no cursor goes behind it
and no byte behind it is looked at, and what is sliced lies in front of it and
begins and ends where characters do. A number that is an index is at least one, so
taking one off does not wrap around, and gives the place of the argument. -/
theorem Spec.readByCursor_within {format : String} {span : Span} {modifiers : List Char}
    {closing : Char} (h : (span, .specifier modifiers closing) ∈ tokens format) :
    ∃ raw last, raw = '%' :: modifiers ++ [closing] ∧ span.slice? format.toList = some raw ∧
      last + 1 = byteLength raw ∧ Span.slice? ⟨last, last + 1⟩ raw = some [closing] ∧
      (Spec.readByCursor raw).result = (Spec.read modifiers closing).mapError .fault ∧
      (∀ access ∈ (Spec.readByCursor raw).accesses, access.Within raw last) ∧
      ∀ spec number, (Spec.readByCursor raw).result = .ok spec →
        spec.index = .explicit number → 1 ≤ number ∧ number < UInt64.size ∧
          ∀ progress : Progress,
            progress.place? spec.index = some (UInt64.ofNat number - 1).toNat := by
  obtain ⟨hmem, hslice⟩ := slice?_of_mem_tokens h
  have hcomplete : (Token.specifier modifiers closing).Complete :=
    (scannable_scan format.toList).complete hmem
  have hascii := isAscii_specifier hcomplete
  have hfront : byteLength ('%' :: modifiers) = modifiers.length + 1 :=
    (isAscii_modifiers hcomplete.1).byteLength_eq
  have hlength := byteLength_specifier hascii
  have hgives := gives_readByCursor hascii hcomplete.2
  refine ⟨_, modifiers.length + 1, rfl, hslice, hlength.symm, ?_, hgives.result_eq,
    hgives.within, ?_⟩
  · refine slice?_eq_some_iff.mpr ⟨'%' :: modifiers, [], (List.append_nil _).symm, hfront.symm, ?_⟩
    rw [← byteLength_append, hlength]
  · intro spec number hspec hindex
    rw [hgives.result_eq] at hspec
    have hread : Spec.read modifiers closing = .ok spec := by
      cases hread : Spec.read modifiers closing with
      | error fault => rw [hread] at hspec; cases hspec
      | ok read => rw [hread] at hspec; cases hspec; rfl
    obtain ⟨hpos, hlt⟩ := explicit_of_read hread hindex
    refine ⟨hpos, hlt, fun progress => ?_⟩
    rw [hindex, toNat_ofNat_sub_one hpos hlt]
    rfl

/-- The tenth argument, behind a character of two bytes. -/
theorem Spec.readByCursor_tenth :
    (⟨2, 9⟩, .specifier ['1', '0', '$', '.', '3'] 's') ∈ tokens "é%10$.3s" ∧
      ∃ raw, raw = "%10$.3s".toList ∧
        (Spec.readByCursor raw).result
          = .ok ⟨.explicit 10, .unset, none, some 3, .string false⟩ ∧
        (∀ access ∈ (Spec.readByCursor raw).accesses, access.Within raw 6) ∧
        ∀ progress : Progress,
          progress.place? (.explicit 10) = some (UInt64.ofNat 10 - 1).toNat := by
  have hmem : (⟨2, 9⟩, .specifier ['1', '0', '$', '.', '3'] 's') ∈ tokens "é%10$.3s" := by
    decide +kernel
  obtain ⟨_, last, rfl, -, hlast, -, hresult, hwithin, hindex⟩ := Spec.readByCursor_within hmem
  obtain rfl : last = 6 := Nat.succ.inj hlast
  exact ⟨hmem, _, rfl, hresult, hwithin, (hindex _ 10 hresult rfl).2.2⟩

/-- Without modifiers the closing character is looked at twice, and nothing else. -/
example : (Spec.readByCursor "%d".toList).accesses
    = [.move 1, .look 1, .move 1, .move 1, .look 1] := by
  decide +kernel

/-- It takes a closing character to keep the cursor in: this text ends at place 1. -/
example : (Spec.readByCursor "%<".toList).accesses
    = [.move 1, .look 1, .move 2, .move 2] := by
  decide +kernel

end MailMerge.Format
