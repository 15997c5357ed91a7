import MailMerge.Job.Record
import MailMerge.Proofs.TextOrder
import MailMerge.Toml.Calendar

/-!
# Dates and times in the order of their texts

Dates and times are compared by their texts, and their texts are in the order of
their numbers: each number but the last has its own places, filled up with zeros,
so a text is compared number by number. The fraction of a second is written
without the zeros at its end, and takes up as many places as it needs. In a local
time it is the end of the text, and the order is the right one all the same.

Where something follows the fraction, what follows is compared with the digits
of a longer fraction. It has to be less than any digit then, and less than a
point (`EndsEarly`). A sign is; the mark of universal time is not.
-/

namespace MailMerge

open Toml

/-! ## Numbers in a text -/

theorem compare_cons_self (c : Char) (s t : List Char) :
    compare (c :: s) (c :: t) = compare s t := by
  rw [List.compare_cons_cons, Std.ReflOrd.compare_self, Ordering.eq_then]

theorem compare_padZeros_append {count m n : Nat} (hcount : 0 < count) (hm : m < 10 ^ count)
    (hn : n < 10 ^ count) (s t : List Char) :
    compare (padZeros count (digitsOf m) ++ s) (padZeros count (digitsOf n) ++ t)
      = (compare m n).then (compare s t) := by
  rw [compare_append ((length_padZeros hcount hm).trans (length_padZeros hcount hn).symm),
    compare_padZeros hcount hm hn]

theorem compare_twoDigits_append {m n : Nat} (hm : m < 100) (hn : n < 100) (s t : List Char) :
    compare (twoDigits m ++ s) (twoDigits n ++ t) = (compare m n).then (compare s t) :=
  compare_padZeros_append (by decide) hm hn s t

/-! ## Fractions of a second -/

theorem compare_fractionText {m n : Nat} (hm : m < 1000000000) (hn : n < 1000000000) :
    compare (fractionText m) (fractionText n) = compare m n := by
  unfold fractionText
  by_cases hm0 : m = 0
  · by_cases hn0 : n = 0
    · rw [if_pos hm0, if_pos hn0, hm0, hn0, Std.ReflOrd.compare_self, Std.ReflOrd.compare_self]
    · rw [if_pos hm0, if_neg hn0, List.compare_nil_cons, Nat.compare_eq_lt.mpr (by omega)]
  · by_cases hn0 : n = 0
    · rw [if_neg hm0, if_pos hn0, List.compare_cons_nil, Nat.compare_eq_gt.mpr (by omega)]
    · have hlength := (length_padZeros (show 0 < 9 by decide) hm).trans
        (length_padZeros (by decide) hn).symm
      rw [if_neg hm0, if_neg hn0, compare_cons_self, ← List.rdropWhile, ← List.rdropWhile,
        compare_rdropWhile_zeros hlength (fun _ => isDigit_of_mem_padZeros)
          (fun _ => isDigit_of_mem_padZeros),
        compare_padZeros (by decide) hm hn]

theorem le_of_mem_fractionText {c : Char} {n : Nat} (h : c ∈ fractionText n) :
    '.'.toNat ≤ c.toNat := by
  unfold fractionText at h
  split at h
  · exact absurd h List.not_mem_nil
  · rcases List.mem_cons.mp h with rfl | h
    · exact Nat.le_refl _
    · have hmem := (List.dropWhile_sublist _).subset (List.mem_reverse.mp h)
      exact Nat.le_trans (by decide)
        (digit_bounds (isDigit_of_mem_padZeros (List.mem_reverse.mp hmem))).1

/-- A text that begins with something less than what fractions are written in, if
it does not end at once. -/
def EndsEarly (text : List Char) : Prop :=
  ∀ c ∈ text.head?, c.toNat < '.'.toNat

theorem EndsEarly.compare_lt {s : List Char} (h : EndsEarly s) {c : Char}
    (hc : '.'.toNat ≤ c.toNat) (r : List Char) : compare s (c :: r) = .lt := by
  cases s with
  | nil => rfl
  | cons d s =>
      have hd : d.toNat < '.'.toNat := h d rfl
      rw [List.compare_cons_cons, compare_char, Nat.compare_eq_lt.mpr (by omega)]
      rfl

/-- Two fractions that something follows are compared first, and then what follows
them. If one is the beginning of the other, the one that is shorter has to end
early. -/
theorem compare_fractionText_append {m n : Nat} (hm : m < 1000000000) (hn : n < 1000000000)
    {s t : List Char}
    (hs : fractionText m <+: fractionText n → m ≠ n → EndsEarly s)
    (ht : fractionText n <+: fractionText m → n ≠ m → EndsEarly t) :
    compare (fractionText m ++ s) (fractionText n ++ t)
      = (compare m n).then (compare s t) := by
  rw [← compare_fractionText hm hn]
  refine compare_append_of_ends ?_ ?_
  · intro c r hlonger
    have hne : m ≠ n := by
      rintro rfl
      simp at hlonger
    have hc : '.'.toNat ≤ c.toNat := le_of_mem_fractionText (n := n) (by simp [hlonger])
    exact (hs ⟨c :: r, hlonger.symm⟩ hne).compare_lt hc _
  · intro c r hlonger
    have hne : n ≠ m := by
      rintro rfl
      simp at hlonger
    have hc : '.'.toNat ≤ c.toNat := le_of_mem_fractionText (n := m) (by simp [hlonger])
    rw [Std.OrientedOrd.eq_swap, List.cons_append,
      (ht ⟨c :: r, hlonger.symm⟩ hne).compare_lt hc _]
    rfl

/-! ## Dates and times -/

theorem daysInMonth_le (year month : Nat) : daysInMonth year month ≤ 31 := by
  unfold daysInMonth
  split
  · split <;> omega
  · split <;> omega

/-- Two dates that something follows are compared first, number by number, and then
what follows them. -/
theorem Toml.Date.compare_text_append {a b : Date} (ha : a.Writable) (hb : b.Writable)
    (s t : List Char) :
    compare (a.text ++ s) (b.text ++ t) = (compare a.parts b.parts).then (compare s t) := by
  have hya := ha.year_le
  have hyb := hb.year_le
  obtain ⟨-, hma, -, hda⟩ := ha.isValid
  obtain ⟨-, hmb, -, hdb⟩ := hb.isValid
  have hda' := daysInMonth_le a.year a.month
  have hdb' := daysInMonth_le b.year b.month
  simp only [Date.text, List.append_assoc, List.cons_append]
  rw [compare_padZeros_append (by decide) (by omega) (by omega), compare_cons_self,
    compare_twoDigits_append (by omega) (by omega), compare_cons_self,
    compare_twoDigits_append (by omega) (by omega)]
  simp only [Date.parts, List.compare_cons_cons, Std.ReflOrd.compare_self, Ordering.then_eq,
    Ordering.then_assoc]

/-- Both times are in one second, and the fraction of the first one, with no more
digits behind it, is where that of the second one begins. -/
def Toml.Time.StopsShortOf (a b : Time) : Prop :=
  { a with nanosecond := 0 } = { b with nanosecond := 0 } ∧
    fractionText a.nanosecond <+: fractionText b.nanosecond ∧ a.nanosecond ≠ b.nanosecond

/-- Two times that something follows are compared first, number by number, and then
what follows them. -/
theorem Toml.Time.compare_text_append {a b : Time} (ha : a.Writable) (hb : b.Writable)
    {s t : List Char} (hs : a.StopsShortOf b → EndsEarly s)
    (ht : b.StopsShortOf a → EndsEarly t) :
    compare (a.text ++ s) (b.text ++ t) = (compare a.parts b.parts).then (compare s t) := by
  obtain ⟨hha, hma, hsa, hna⟩ := ha
  obtain ⟨hhb, hmb, hsb, hnb⟩ := hb
  simp only [Time.text, List.append_assoc, List.cons_append]
  rw [compare_twoDigits_append (by omega) (by omega), compare_cons_self,
    compare_twoDigits_append (by omega) (by omega), compare_cons_self,
    compare_twoDigits_append (by omega) (by omega)]
  simp only [Time.parts, List.compare_cons_cons, Std.ReflOrd.compare_self, Ordering.then_eq,
    Ordering.then_assoc]
  -- The fractions only matter in one and the same second.
  refine then_congr fun hhour => then_congr fun hminute => then_congr fun hsecond => ?_
  have hh : a.hour = b.hour := Nat.compare_eq_eq.mp hhour
  have hm : a.minute = b.minute := Nat.compare_eq_eq.mp hminute
  have hsec : a.second = b.second := Nat.compare_eq_eq.mp hsecond
  refine compare_fractionText_append hna hnb ?_ ?_
  · intro hprefix hne
    exact hs ⟨by rw [hh, hm, hsec], hprefix, hne⟩
  · intro hprefix hne
    exact ht ⟨by rw [hh, hm, hsec], hprefix, hne⟩

theorem compare_of_append_nil {x y : List Char} {o : Ordering}
    (h : compare (x ++ []) (y ++ []) = o.then (compare ([] : List Char) [])) :
    compare x y = o := by
  rwa [List.append_nil, List.append_nil, Std.ReflOrd.compare_self, Ordering.then_eq] at h

theorem Toml.Time.compare_text {a b : Time} (ha : a.Writable) (hb : b.Writable) :
    compare a.text b.text = compare a.parts b.parts := by
  have hend : EndsEarly [] := fun c hc => by cases hc
  exact compare_of_append_nil (Time.compare_text_append ha hb (fun _ => hend) fun _ => hend)

/-- Without an offset the text of a date or time is in the order of its numbers. -/
theorem Toml.DateTime.BothLocal.compare_text {a b : DateTime} (h : a.BothLocal b)
    (ha : a.Writable) (hb : b.Writable) : compare a.text b.text = compare a.parts b.parts := by
  cases h with
  | dateTimes date date' time time' =>
      have hparts : date.parts.length = date'.parts.length := rfl
      rw [DateTime.text, DateTime.text, Date.compare_text_append ha.1 hb.1, compare_cons_self,
        Time.compare_text ha.2 hb.2, ← compare_append hparts]
      rfl
  | dates date date' => exact compare_of_append_nil (Date.compare_text_append ha hb [] [])
  | times time time' => exact Time.compare_text ha hb

/-! ## The first number that differs -/

/-- Where two rows of numbers first differ, the first one has the smaller number. -/
def FirstLess (a b : List Nat) : Prop :=
  ∃ front m n rest rest', a = front ++ m :: rest ∧ b = front ++ n :: rest' ∧ m < n

theorem compare_eq_lt_iff {a b : List Nat} (hlength : a.length = b.length) :
    compare a b = .lt ↔ FirstLess a b := by
  induction a generalizing b with
  | nil =>
      cases b with
      | nil =>
          refine ⟨fun h => (by cases h), ?_⟩
          rintro ⟨front, m, n, rest, rest', ha, -⟩
          simp at ha
      | cons n b => cases hlength
  | cons m a ih =>
      cases b with
      | nil => cases hlength
      | cons n b =>
          rw [List.compare_cons_cons, Ordering.then_eq_lt, Nat.compare_eq_lt, Nat.compare_eq_eq,
            ih (Nat.succ.inj hlength)]
          constructor
          · rintro (hlt | ⟨rfl, front, i, j, rest, rest', rfl, rfl, hij⟩)
            · exact ⟨[], m, n, a, b, rfl, rfl, hlt⟩
            · exact ⟨m :: front, i, j, rest, rest', rfl, rfl, hij⟩
          · rintro ⟨front, i, j, rest, rest', ha, hb, hij⟩
            cases front with
            | nil =>
                cases ha
                cases hb
                exact .inl hij
            | cons k front =>
                cases ha
                cases hb
                exact .inr ⟨rfl, front, i, j, rest, rest', rfl, rfl, hij⟩

theorem Toml.DateTime.BothLocal.length_parts {a b : DateTime} (h : a.BothLocal b) :
    a.parts.length = b.parts.length := by
  cases h <;> rfl

theorem Toml.DateTime.BothLocal.eq_of_parts {a b : DateTime} (h : a.BothLocal b)
    (hparts : a.parts = b.parts) : a = b := by
  cases h with
  | dateTimes date date' time time' =>
      cases date; cases date'; cases time; cases time'
      cases hparts
      rfl
  | dates date date' =>
      cases date; cases date'
      cases hparts
      rfl
  | times time time' =>
      cases time; cases time'
      cases hparts
      rfl

/-- Two dates, two times, or two dates with times, without offsets, are compared by
their numbers, from the year or the hour down to the nanosecond: they are equal if
all of these are, and otherwise the first number that differs decides. -/
theorem Toml.Value.compare?_bothLocal {a b : DateTime} (h : a.BothLocal b) (ha : a.Writable)
    (hb : b.Writable) :
    Value.compare? (.dateTime a) (.dateTime b) = some (compare a.parts b.parts) ∧
    (Value.compare? (.dateTime a) (.dateTime b) = some .eq ↔ a = b) ∧
    (Value.compare? (.dateTime a) (.dateTime b) = some .lt ↔ FirstLess a.parts b.parts) ∧
    (Value.compare? (.dateTime a) (.dateTime b) = some .gt ↔ FirstLess b.parts a.parts) := by
  have hvalue : Value.compare? (.dateTime a) (.dateTime b) = some (compare a.parts b.parts) :=
    congrArg some (h.compare_text ha hb)
  rw [hvalue]
  refine ⟨rfl, ?_, ?_, ?_⟩
  · rw [Option.some_inj, Std.LawfulEqOrd.compare_eq_iff_eq]
    exact ⟨h.eq_of_parts, congrArg DateTime.parts⟩
  · rw [Option.some_inj, compare_eq_lt_iff h.length_parts]
  · rw [Option.some_inj, Std.OrientedOrd.eq_swap, Ordering.swap_eq_gt,
      compare_eq_lt_iff h.length_parts.symm]

/-- A fraction of one place is less than one that goes on behind it with a digit
nine places down. -/
theorem Toml.Value.compare?_nanosecond_later :
    let earlier : DateTime := .localDateTime ⟨2024, 2, 29⟩ ⟨23, 59, 60, 500000000⟩
    let later : DateTime := .localDateTime ⟨2024, 2, 29⟩ ⟨23, 59, 60, 500000001⟩
    earlier.BothLocal later ∧ earlier.Writable ∧ later.Writable ∧
      Value.compare? (.dateTime earlier) (.dateTime later) = some .lt := by
  intro earlier later
  have hform : earlier.BothLocal later := .dateTimes ..
  have hearlier : earlier.Writable := by decide
  have hlater : later.Writable := by decide
  refine ⟨hform, hearlier, hlater, ?_⟩
  rw [(Value.compare?_bothLocal hform hearlier hlater).2.2.1]
  exact ⟨[2024, 2, 29, 23, 59, 60], 500000000, 500000001, [], [], rfl, rfl, by decide⟩

end MailMerge
