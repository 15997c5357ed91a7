import MailMerge.Proofs.LocalOrder
import MailMerge.Proofs.Reordering

/-!
# Dates and times with an offset

Two dates and times that have offsets are compared by their texts, and so by what
their own clocks show; the offsets come last and are compared as texts. Where the
clocks are equally far ahead of universal time that is the order of the instants:
days are counted without gaps (`Toml.Date.compare_dayNumber`), and the minutes of
both are ahead by the same number.

It is not the order of the instants between clocks that differ, and the last part
has three records that a sort brings into the opposite order. One step of it is
of another kind. The mark of universal time is greater than any digit and than a
point, so behind a fraction it counts for more than the digits that another
fraction of the same second goes on with (`Toml.DateTime.CutShort`). A sort goes by
the texts, which are always in some order, so such a pair does no harm to what is
known of the others.
-/

namespace MailMerge

open Toml

/-! ## Days and minutes -/

theorem compare_sub_one {m n : Nat} (hm : 1 ≤ m) (hn : 1 ≤ n) :
    compare (m - 1) (n - 1) = compare m n :=
  compare_congr (by omega) (by omega)

theorem compare_sub_right (m n : Nat) (e : Int) :
    compare ((m : Int) - e) ((n : Int) - e) = compare m n :=
  compare_congr (by omega) (by omega)

theorem compare_add_left (k m n : Int) : compare (k + m) (k + n) = compare m n :=
  compare_congr (by omega) (by omega)

namespace Toml

theorem Date.day_lt {date : Date} (h : date.IsValid) :
    date.day - 1 < daysInMonth date.year (date.month - 1 + 1) := by
  obtain ⟨hmonth, -, hday, hle⟩ := h
  rw [Nat.sub_add_cancel hmonth]
  omega

theorem Date.dayOfYear_lt {date : Date} (h : date.IsValid) :
    daysBeforeMonth date.year (date.month - 1) + (date.day - 1) < daysInYear date.year := by
  have hmonth := h.2.1
  exact add_lt_of_lt_step (f := daysBeforeMonth date.year) (fun _ => rfl) (Date.day_lt h)
    (by omega)

theorem Date.compare_dayNumber {a b : Date} (ha : a.IsValid) (hb : b.IsValid) :
    compare a.dayNumber b.dayNumber = compare a.parts b.parts := by
  have hmonths : ∀ year, ∀ n, daysBeforeMonth year (n + 1)
      = daysBeforeMonth year n + daysInMonth year (n + 1) := fun _ _ => rfl
  unfold dayNumber
  rw [compare_steps (fun _ => rfl) (dayOfYear_lt ha) (dayOfYear_lt hb), Date.parts, Date.parts,
    List.compare_cons_cons]
  -- How many days come before a month depends on the year, which is the same one here.
  refine then_congr fun hyear => ?_
  have hday := day_lt ha
  rw [Nat.compare_eq_eq.mp hyear] at hday ⊢
  rw [compare_steps (hmonths b.year) hday (day_lt hb), compare_sub_one ha.1 hb.1,
    compare_sub_one ha.2.2.1 hb.2.2.1, List.compare_cons_cons, List.compare_cons_cons,
    Std.ReflOrd.compare_self, Ordering.then_eq]

theorem compare_localMinute {date date' : Date} {time time' : Time} (hdate : date.Writable)
    (hdate' : date'.Writable) (htime : time.Writable) (htime' : time'.Writable) :
    compare (localMinute date time) (localMinute date' time')
      = (compare date.parts date'.parts).then
          ((compare time.hour time'.hour).then (compare time.minute time'.minute)) := by
  have hhour := htime.hour_le
  have hhour' := htime'.hour_le
  have hminute := htime.minute_le
  have hminute' := htime'.minute_le
  unfold localMinute
  rw [compare_units (by omega) (by omega), compare_units (by omega) (by omega),
    Date.compare_dayNumber hdate.isValid hdate'.isValid, Ordering.then_assoc]

/-! ## Instants -/

theorem compare_instant (i j : Instant) :
    compare i j = (compare i.minute j.minute).then
      ((compare i.second j.second).then (compare i.nanosecond j.nanosecond)) :=
  rfl

instance : Std.TransOrd Instant :=
  inferInstanceAs <| Std.TransCmp <| compareLex (compareOn Instant.minute) <|
    compareLex (compareOn Instant.second) (compareOn Instant.nanosecond)

instance : Std.LawfulEqOrd Instant where
  eq_of_compare {i j} h := by
    rw [compare_instant, Ordering.then_eq_eq, Ordering.then_eq_eq,
      Std.LawfulEqOrd.compare_eq_iff_eq, Std.LawfulEqOrd.compare_eq_iff_eq,
      Std.LawfulEqOrd.compare_eq_iff_eq] at h
    cases i
    cases j
    simpa using h

/-- On clocks that are equally far ahead, instants are in the order of what the
clocks show. -/
theorem compare_instantAt {date date' : Date} {time time' : Time} {offset offset' : Offset}
    (hdate : date.Writable) (hdate' : date'.Writable) (htime : time.Writable)
    (htime' : time'.Writable) (heast : offset.east = offset'.east) :
    compare (instantAt date time offset) (instantAt date' time' offset')
      = compare (date.parts ++ time.parts) (date'.parts ++ time'.parts) := by
  have hparts : date.parts.length = date'.parts.length := rfl
  unfold instantAt
  rw [compare_instant, heast, compare_sub_right, compare_localMinute hdate hdate' htime htime',
    compare_append hparts]
  simp only [Time.parts, List.compare_cons_cons, Std.ReflOrd.compare_self, Ordering.then_eq,
    Ordering.then_assoc]

/-- Instants on one date are in the same order on any other date. -/
theorem compare_instantAt_same_date (date date' : Date) (time time' : Time)
    (offset offset' : Offset) :
    compare (instantAt date time offset) (instantAt date time' offset')
      = compare (instantAt date' time offset) (instantAt date' time' offset') := by
  have hminutes : ∀ (date : Date) (time : Time),
      (localMinute date time : Int) = date.dayNumber * 1440 + (time.hour * 60 + time.minute) := by
    intro date time
    unfold localMinute
    omega
  unfold instantAt
  rw [compare_instant, compare_instant]
  simp only [hminutes, Int.add_sub_assoc, compare_add_left]

/-! ## Texts with an offset -/

theorem Offset.endsEarly_text {offset : Offset} (h : offset ≠ .universal) :
    EndsEarly offset.text := by
  cases offset with
  | universal => exact absurd rfl h
  | minutes east =>
      intro c hc
      have hsign : (if east < 0 then '-' else '+') = c := Option.some.inj hc
      subst hsign
      split <;> decide

/-- The first of two dates and times is one of universal time, and the second one,
in what its clock shows, is in the same second and goes on with the fraction where
that of the first one ends. -/
def DateTime.CutShort (a b : DateTime) : Prop :=
  ∃ date time time' offset, a = .offsetDateTime date time .universal ∧
    b = .offsetDateTime date time' offset ∧ time.StopsShortOf time'

theorem DateTime.not_cutShort_of_minutes {a b : DateTime} {east : Int}
    (h : a.offset? = some (.minutes east)) : ¬a.CutShort b := by
  rintro ⟨_, _, _, _, rfl, -⟩
  cases h

/-- Texts with an offset are in the order of what the clocks show, and then of the
texts of the offsets. -/
theorem DateTime.compare_text_offset {date date' : Date} {time time' : Time}
    {offset offset' : Offset} (hdate : date.Writable) (hdate' : date'.Writable)
    (htime : time.Writable) (htime' : time'.Writable)
    (h : ¬CutShort (.offsetDateTime date time offset) (.offsetDateTime date' time' offset'))
    (h' : ¬CutShort (.offsetDateTime date' time' offset') (.offsetDateTime date time offset)) :
    compare (DateTime.text (.offsetDateTime date time offset))
        (DateTime.text (.offsetDateTime date' time' offset'))
      = (compare (date.parts ++ time.parts) (date'.parts ++ time'.parts)).then
          (compare offset.text offset'.text) := by
  have hparts : date.parts.length = date'.parts.length := rfl
  simp only [DateTime.text, List.append_assoc, List.cons_append]
  rw [Date.compare_text_append hdate hdate', compare_cons_self, compare_append hparts,
    Ordering.then_assoc]
  refine then_congr fun hsame => ?_
  have hday : date = date' := by
    have hequal := Std.LawfulEqOrd.eq_of_compare hsame
    cases date
    cases date'
    simpa [Date.parts] using hequal
  subst hday
  -- On one day, a fraction that ends within the other one has a sign behind it.
  refine Time.compare_text_append htime htime' ?_ ?_
  · intro hshort
    refine Offset.endsEarly_text ?_
    rintro rfl
    exact h ⟨date, time, time', offset', rfl, rfl, hshort⟩
  · intro hshort
    refine Offset.endsEarly_text ?_
    rintro rfl
    exact h' ⟨date, time', time, offset, rfl, rfl, hshort⟩

/-- Two dates and times that texts can name, on clocks that are so far ahead, neither
of them cut short by the other. -/
structure DateTime.OnClocks (a b : DateTime) (offset offset' : Offset) : Prop where
  writable : a.Writable ∧ b.Writable
  offset_left : a.offset? = some offset
  offset_right : b.offset? = some offset'
  not_cutShort : ¬a.CutShort b ∧ ¬b.CutShort a

section

variable {a b : DateTime} {offset offset' : Offset}

/-- Dates and times on clocks are compared by what the clocks show, then by the
texts of the offsets. -/
theorem DateTime.OnClocks.compare?_eq (h : a.OnClocks b offset offset') :
    Value.compare? (.dateTime a) (.dateTime b)
      = some ((compare a.parts b.parts).then (compare offset.text offset'.text)) := by
  obtain ⟨⟨ha, hb⟩, hleft, hright, hab, hba⟩ := h
  cases a with
  | offsetDateTime date time =>
      cases b with
      | offsetDateTime date' time' =>
          cases hleft
          cases hright
          exact congrArg some (compare_text_offset ha.1 hb.1 ha.2.1 hb.2.1 hab hba)
      | _ => cases hright
  | _ => cases hleft

/-- On clocks that are equally far ahead, what they show is in the order of the
instants. -/
theorem DateTime.OnClocks.compare_parts (h : a.OnClocks b offset offset')
    (heast : offset.east = offset'.east) :
    ∃ i j, a.instant? = some i ∧ b.instant? = some j ∧
      compare a.parts b.parts = compare i j := by
  obtain ⟨⟨ha, hb⟩, hleft, hright, -⟩ := h
  cases a with
  | offsetDateTime date time =>
      cases b with
      | offsetDateTime date' time' =>
          cases hleft
          cases hright
          exact ⟨_, _, rfl, rfl, (compare_instantAt ha.1 hb.1 ha.2.1 hb.2.1 heast).symm⟩
      | _ => cases hright
  | _ => cases hleft

end

end Toml

/-! ## Records on one clock -/

/-- The date or time that a record has under a key. -/
def Record.moment? (key : String) (record : Record) : Option DateTime :=
  match record.lookup key with
  | some (.dateTime moment) => some moment
  | _ => none

/-- Two records have dates and times with an offset under a key, the first one not
later than the second. -/
def Record.NotLater (key : String) (a b : Record) : Prop :=
  ∃ i j, (a.moment? key).bind DateTime.instant? = some i ∧
    (b.moment? key).bind DateTime.instant? = some j ∧ (compare i j).isLE = true

/-- Two records have dates and times under a key, and one of these cuts the other one
short. -/
def Record.CutShort (key : String) (a b : Record) : Prop :=
  ∃ m n, a.moment? key = some m ∧ b.moment? key = some n ∧ (m.CutShort n ∨ n.CutShort m)

/-- Two records have dates and times under a key, the text of the first one not greater
than that of the second. -/
def Record.TextNotGreater (key : String) (a b : Record) : Prop :=
  ∃ m n, a.moment? key = some m ∧ b.moment? key = some n ∧
    (compare m.text n.text).isLE = true

/-- All records have dates and times under a key that texts can name, on clocks that
are equally far ahead. -/
def OnOneClock (key : String) (east : Int) (records : List Record) : Prop :=
  ∀ record ∈ records, ∃ moment offset, record.moment? key = some moment ∧
    moment.Writable ∧ moment.offset? = some offset ∧ offset.east = east

theorem Record.lookup_of_moment? {key : String} {record : Record} {moment : DateTime}
    (h : record.moment? key = some moment) : record.lookup key = some (.dateTime moment) := by
  unfold Record.moment? at h
  split at h
  · next value hvalue =>
      cases h
      exact hvalue
  · cases h

theorem Record.compareBy?_of_moments {key : String} {r s : Record} {a b : DateTime}
    (ha : r.moment? key = some a) (hb : s.moment? key = some b) :
    Record.compareBy? key r s = some (compare a.text b.text) := by
  unfold Record.compareBy? SortKey.compare?
  rw [Record.lookup_of_moment? ha, Record.lookup_of_moment? hb]
  rfl

theorem Record.TextNotGreater.trans {key : String} {r s t : Record}
    (hrs : TextNotGreater key r s) (hst : TextNotGreater key s t) : TextNotGreater key r t := by
  obtain ⟨a, b, ha, hb, hab⟩ := hrs
  obtain ⟨b', c, hb', hc, hbc⟩ := hst
  cases hb.symm.trans hb'
  exact ⟨a, c, ha, hc, Std.TransCmp.isLE_trans hab hbc⟩

theorem isLE_left_of_isLE_then {a b : Ordering} (h : (a.then b).isLE = true) :
    a.isLE = true := by
  cases a with
  | gt => cases h
  | _ => rfl

section

variable {key : String} {east : Int} {records : List Record}

theorem OnOneClock.agrees (h : OnOneClock key east records) {x y : Record × Nat}
    (hx : x.1 ∈ records) (hy : y.1 ∈ records) :
    Agrees (Record.compareBy? key) (fun x y => Record.TextNotGreater key x.1 y.1) x y := by
  obtain ⟨a, -, ha, -⟩ := h x.1 hx
  obtain ⟨b, -, hb, -⟩ := h y.1 hy
  rw [Agrees, Record.compareBy?_of_moments hb ha]
  constructor
  · intro hlt
    refine ⟨b, a, hb, ha, ?_⟩
    rw [Option.some.inj hlt]
    rfl
  · intro o ho hne
    refine ⟨a, b, ha, hb, ?_⟩
    rw [Std.OrientedOrd.eq_swap, Option.some.inj ho]
    cases o with
    | lt => exact absurd rfl hne
    | _ => rfl

theorem OnOneClock.exists_sorted (h : OnOneClock key east records) :
    ∃ order, stableSort (Record.compareBy? key) records = .ok order := by
  refine Comparable.exists_ok fun i j r s _ hr hs => ?_
  obtain ⟨a, -, ha, -⟩ := h r (List.mem_of_getElem? hr)
  obtain ⟨b, -, hb, -⟩ := h s (List.mem_of_getElem? hs)
  rw [Record.compareBy?_of_moments ha hb]
  rfl

theorem OnOneClock.pairwise_textNotGreater (h : OnOneClock key east records)
    {order : List Record} (hok : stableSort (Record.compareBy? key) records = .ok order) :
    order.Pairwise (Record.TextNotGreater key) := by
  obtain ⟨run, hsort, rfl⟩ := exists_of_stableSort_ok hok
  rw [List.pairwise_map]
  refine hsort.pairwise ?_ ?_
  · intro x _ y _ z _
    exact Record.TextNotGreater.trans
  · refine List.Pairwise.imp_of_mem ?_ (zipIdx_pairwise_snd_lt records)
    intro x y hx hy _
    exact h.agrees (mem_of_mem_zipIdx hx) (mem_of_mem_zipIdx hy)

/-- On one clock, what does not have the greater text is not later, unless one of the two
cuts the other one short. -/
theorem OnOneClock.notLater_or_cutShort (h : OnOneClock key east records) {r s : Record}
    (hr : r ∈ records) (hs : s ∈ records) (htext : Record.TextNotGreater key r s) :
    Record.NotLater key r s ∨ Record.CutShort key r s := by
  obtain ⟨a, offset, ha, hawritable, haoffset, haeast⟩ := h r hr
  obtain ⟨b, offset', hb, hbwritable, hboffset, hbeast⟩ := h s hs
  obtain ⟨a', b', ha', hb', hle⟩ := htext
  cases ha.symm.trans ha'
  cases hb.symm.trans hb'
  by_cases hcut : a.CutShort b ∨ b.CutShort a
  · exact .inr ⟨a, b, ha, hb, hcut⟩
  have hclocks : a.OnClocks b offset offset' :=
    ⟨⟨hawritable, hbwritable⟩, haoffset, hboffset, not_or.mp hcut⟩
  obtain ⟨i, j, hi, hj, hparts⟩ := hclocks.compare_parts (haeast.trans hbeast.symm)
  have htexts : compare a.text b.text
      = (compare i j).then (compare offset.text offset'.text) := by
    rw [← hparts]
    exact Option.some.inj hclocks.compare?_eq
  rw [htexts] at hle
  refine .inl ⟨i, j, ?_, ?_, isLE_left_of_isLE_then hle⟩
  · rw [ha, Option.bind_some, hi]
  · rw [hb, Option.bind_some, hj]

theorem OnOneClock.pairwise (h : OnOneClock key east records) {order : List Record}
    (hok : stableSort (Record.compareBy? key) records = .ok order) :
    order.Pairwise fun r s => Record.NotLater key r s ∨ Record.CutShort key r s := by
  have hperm := perm_of_stableSort_ok hok
  refine List.Pairwise.imp_of_mem ?_ (h.pairwise_textNotGreater hok)
  intro r s hr hs
  exact h.notLater_or_cutShort (hperm.mem_iff.mp hr) (hperm.mem_iff.mp hs)

end

/-! ## What the order of texts comes to -/

/-- Dates and times with offsets are compared by what their clocks show, and then by
the texts of their offsets. On clocks that are equally far ahead the first part of
this is the order of the instants, and with one offset for both it is all of it. So
a job that sorts its records by such a field writes them in the order of time, if
they are all on one clock. Two that are in one second, one of them in universal
time with a fraction that the other one goes on from, are left out of this; of the
other pairs of the same job it holds. -/
theorem offsetDateTimes_by_clock :
    (∀ (a b : DateTime) (offset offset' : Offset), a.OnClocks b offset offset' →
      Value.compare? (.dateTime a) (.dateTime b)
        = some ((compare a.parts b.parts).then (compare offset.text offset'.text)) ∧
      (offset.east = offset'.east → ∃ i j, a.instant? = some i ∧ b.instant? = some j ∧
        Value.compare? (.dateTime a) (.dateTime b)
          = some ((compare i j).then (compare offset.text offset'.text)) ∧
        (offset = offset' → Value.compare? (.dateTime a) (.dateTime b) = some (compare i j)) ∧
        (compare i j = .eq ↔ i = j))) ∧
    ∀ (job : Job) (key : String) (east : Int) (style : ListStyle), job.sortBy = some key →
      OnOneClock key east job.records →
        ∃ order : List Record, order.Perm job.records ∧
          job.run style = (job.inOrder order).run style ∧
          order.Pairwise fun r s => Record.NotLater key r s ∨ Record.CutShort key r s := by
  constructor
  · intro a b offset offset' h
    refine ⟨h.compare?_eq, fun heast => ?_⟩
    obtain ⟨i, j, hi, hj, hparts⟩ := h.compare_parts heast
    have hvalue := h.compare?_eq
    rw [hparts] at hvalue
    refine ⟨i, j, hi, hj, hvalue, ?_, Std.LawfulEqOrd.compare_eq_iff_eq⟩
    rintro rfl
    rwa [Std.ReflOrd.compare_self, Ordering.then_eq] at hvalue
  · intro job key east style hkey h
    obtain ⟨order, hok⟩ := h.exists_sorted
    exact ⟨order, perm_of_stableSort_ok hok, Job.run_of_order hkey hok style,
      h.pairwise hok⟩

/-- A clock two hours ahead, so many nanoseconds past eight. -/
def aheadAt (nanosecond : Nat) : DateTime :=
  .offsetDateTime ⟨2024, 1, 1⟩ ⟨8, 0, 0, nanosecond⟩ (.minutes 120)

/-- A clock of universal time, so many nanoseconds past seven. -/
def universalAt (nanosecond : Nat) : DateTime :=
  .offsetDateTime ⟨2024, 1, 1⟩ ⟨7, 0, 0, nanosecond⟩ .universal

/-- Three records on one clock, each later than the next one. The first one goes on with
the fraction of the second one. -/
def clockJob : Job :=
  ⟨"${n}", some "k",
    [[("k", .dateTime (universalAt 550000000)), ("n", .string "C")],
      [("k", .dateTime (universalAt 500000000)), ("n", .string "B")],
      [("k", .dateTime (.offsetDateTime ⟨2023, 12, 31⟩ ⟨7, 0, 0, 0⟩ .universal)),
        ("n", .string "A")]]⟩

/-- Half a second on a clock ahead, and a job that writes a record of the year before in
front of two that are half a second past seven, and these two the later one first. -/
theorem offsetDateTimes_half_second :
    (aheadAt 0).OnClocks (aheadAt 500000000) (.minutes 120) (.minutes 120) ∧
      Value.compare? (.dateTime (aheadAt 0)) (.dateTime (aheadAt 500000000)) = some .lt ∧
      clockJob.sortBy = some "k" ∧ OnOneClock "k" 0 clockJob.records ∧
      (∃ order : List Record, order.Perm clockJob.records ∧
        clockJob.run ⟨""⟩ = (clockJob.inOrder order).run ⟨""⟩ ∧
        order.Pairwise fun r s => Record.NotLater "k" r s ∨ Record.CutShort "k" r s) ∧
      (clockJob.run ⟨""⟩ .unlimited).sink.taken = utf8Bytes ['A', 'C', 'B'] := by
  have hnot : ∀ nanosecond b, ¬(aheadAt nanosecond).CutShort b :=
    fun _ _ => DateTime.not_cutShort_of_minutes rfl
  have hclocks : (aheadAt 0).OnClocks (aheadAt 500000000) (.minutes 120) (.minutes 120) :=
    ⟨by decide, rfl, rfl, hnot _ _, hnot _ _⟩
  have hone : OnOneClock "k" 0 clockJob.records := by
    unfold OnOneClock clockJob
    simp only [List.forall_mem_cons]
    exact ⟨⟨_, _, rfl, by decide, rfl, rfl⟩, ⟨_, _, rfl, by decide, rfl, rfl⟩,
      ⟨_, _, rfl, by decide, rfl, rfl⟩, nofun⟩
  refine ⟨hclocks, ?_, rfl, hone, offsetDateTimes_by_clock.2 clockJob "k" 0 ⟨""⟩ rfl hone,
    by decide +kernel⟩
  rw [(offsetDateTimes_by_clock.1 _ _ _ _ hclocks).1]
  decide +kernel

/-- Three records, in the order of the instants that they name, and in the opposite
order of the texts. -/
def clocksJob : Job :=
  ⟨"${n}", some "k",
    [[("k", .dateTime (aheadAt 0)), ("n", .string "A")],
      [("k", .dateTime (universalAt 0)), ("n", .string "B")],
      [("k", .dateTime (universalAt 500000000)), ("n", .string "C")]]⟩

/-- Dates and times with offsets are not compared as the instants that they name. Six
o'clock in universal time is eight o'clock on a clock two hours ahead, and counts as
later than seven o'clock; half a second past seven o'clock counts as earlier. A job
that sorts such records writes them in the wrong order. -/
theorem offsetDateTimes_not_by_instant :
    ¬(∀ (a b : DateTime) (i j : Instant), a.Writable → b.Writable → a.instant? = some i →
        b.instant? = some j → Value.compare? (.dateTime a) (.dateTime b) = some (compare i j)) ∧
      clocksJob.records.Pairwise (Record.NotLater "k") ∧
      (clocksJob.run ⟨""⟩ .unlimited).result = .ok () ∧
      (clocksJob.run ⟨""⟩ .unlimited).sink.taken = utf8Bytes ['C', 'B', 'A'] := by
  have hday := fun time time' => compare_instantAt_same_date ⟨2024, 1, 1⟩ ⟨0, 1, 1⟩ time time'
  refine ⟨fun h => ?_, ?_, by decide +kernel, by decide +kernel⟩
  · have hanswer := h (aheadAt 0) (universalAt 0) _ _ (by decide) (by decide) rfl rfl
    rw [hday] at hanswer
    exact absurd hanswer (by decide +kernel)
  · refine List.pairwise_cons.mpr ⟨fun s hs => ?_, List.pairwise_pair.mpr ?_⟩
    · rcases List.mem_pair.mp hs with rfl | rfl
      · exact ⟨_, _, rfl, rfl, by rw [hday]; decide⟩
      · exact ⟨_, _, rfl, rfl, by rw [hday]; decide⟩
    · exact ⟨_, _, rfl, rfl, by rw [hday]; decide⟩

end MailMerge
