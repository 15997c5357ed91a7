import MailMerge.Proofs.Neighbours
import MailMerge.Proofs.OrderKinds

/-!
# Records in order, up to rounding

Two integers are compared exactly, an integer and a floating-point number after
rounding. Different integers may round to the same number, which then is equal
to both, and that is all that is wrong with the comparison: once every integer
is taken for the number it rounds to, "at most" is transitive, and it follows
from "at most" of the values as they are (`Toml.Value.atMost_widened`). So the
records of a sorted job are in order up to rounding, each one with all that come
after it.

Whether they are really in order is decided between integers that round to the
same number. Neighbours are in order without rounding (`Dual.isChain_atMost`),
and between integers that is transitive. So a smaller integer can only come
after a larger one if a floating-point number stands between the two. This does
happen: the last part has a job with two integers in the wrong order.
-/

namespace MailMerge

open Toml

/-! ## Floating-point numbers -/

namespace Binary64

variable {x y z : Binary64}

theorem compare?_eq_some_iff {o : Ordering} :
    x.compare? y = some o ↔
      x.isNaN = false ∧ y.isNaN = false ∧ compare x.orderKey y.orderKey = o := by
  unfold compare?
  cases x.isNaN <;> cases y.isNaN <;> simp

theorem dual_compare? : Dual compare? := by
  intro x y
  unfold compare?
  rw [Bool.or_comm]
  split
  · rfl
  · exact congrArg some Std.OrientedCmp.eq_swap

theorem atMost_iff :
    AtMost compare? x y ↔ x.isNaN = false ∧ y.isNaN = false ∧ x.orderKey ≤ y.orderKey := by
  unfold AtMost
  rw [compare?_eq_some_iff, compare?_eq_some_iff, Int.compare_eq_lt, Int.compare_eq_eq,
    Int.le_iff_lt_or_eq, ← and_or_left, ← and_or_left]

theorem atMost_trans (hxy : AtMost compare? x y) (hyz : AtMost compare? y z) :
    AtMost compare? x z := by
  obtain ⟨hx, -, hle⟩ := atMost_iff.mp hxy
  obtain ⟨-, hz, hle'⟩ := atMost_iff.mp hyz
  exact atMost_iff.mpr ⟨hx, hz, Int.le_trans hle hle'⟩

theorem eq_of_atMost (hxy : AtMost compare? x y) (hyx : AtMost compare? y x) :
    x.compare? y = some .eq := by
  obtain ⟨hx, hy, hle⟩ := atMost_iff.mp hxy
  obtain ⟨-, -, hge⟩ := atMost_iff.mp hyx
  exact compare?_eq_some_iff.mpr ⟨hx, hy, Int.compare_eq_eq.mpr (Int.le_antisymm hle hge)⟩

theorem atMost_ofInt {m n : Int64} (h : m ≤ n) :
    AtMost compare? (ofInt m.toInt) (ofInt n.toInt) :=
  atMost_iff.mpr ⟨isNaN_ofInt _, isNaN_ofInt _,
    orderKey_ofInt_mono (Int64.le_iff_toInt_le.mp h)⟩

end Binary64

/-! ## Values -/

namespace Toml.Value

theorem dual_compare? : Dual Value.compare? := by
  intro v w
  cases v <;> cases w <;> first
    | rfl
    | exact congrArg some Std.OrientedCmp.eq_swap
    | exact Binary64.dual_compare? ..

/-- The value with an integer taken for the floating-point number it rounds to. -/
def widened : Value → Value
  | .integer value => .float (.ofInt value.toInt)
  | value => value

/-- Rounding makes no difference except between two integers. -/
theorem compare?_widened (v w : Value) :
    (∃ m n : Int64, v = .integer m ∧ w = .integer n) ∨
      v.widened.compare? w.widened = v.compare? w := by
  cases v <;> cases w <;> first
    | exact .inr rfl
    | exact .inl ⟨_, _, rfl, rfl⟩

theorem atMost_integer_iff {m n : Int64} :
    AtMost Value.compare? (.integer m) (.integer n) ↔ m ≤ n := by
  simp only [AtMost, Value.compare?, Option.some.injEq, ← Ordering.isLE_iff_eq_lt_or_eq_eq]
  exact Std.isLE_compare

theorem atMost_widened {v w : Value} (h : AtMost Value.compare? v w) :
    AtMost Value.compare? v.widened w.widened := by
  rcases compare?_widened v w with ⟨m, n, rfl, rfl⟩ | heq
  · exact Binary64.atMost_ofInt (atMost_integer_iff.mp h)
  · unfold AtMost
    rw [heq]
    exact h

theorem atMost_compare_trans {β : Type} [Ord β] [Std.TransOrd β] {a b c : β}
    (hab : AtMost (fun x y => some (compare x y)) a b)
    (hbc : AtMost (fun x y => some (compare x y)) b c) :
    AtMost (fun x y => some (compare x y)) a c := by
  simp only [AtMost, Option.some.injEq, ← Ordering.isLE_iff_eq_lt_or_eq_eq] at *
  exact Std.TransCmp.isLE_trans hab hbc

theorem widened_trans {u v w : Value} (huv : AtMost Value.compare? u.widened v.widened)
    (hvw : AtMost Value.compare? v.widened w.widened) :
    AtMost Value.compare? u.widened w.widened := by
  -- Values of different kinds have no order; numbers are left in four pairs.
  cases u <;> cases v <;> (try (rcases huv with h | h <;> cases h)) <;> cases w <;>
    (try (rcases hvw with h | h <;> cases h)) <;> first
      | exact Binary64.atMost_trans huv hvw
      | exact atMost_compare_trans huv hvw

/-- What is less than a value, and at least that value up to rounding, is an
integer, like the value. -/
theorem exists_integers_of_lt {v w : Value} (hlt : w.compare? v = some .lt)
    (hle : AtMost Value.compare? v.widened w.widened) :
    ∃ m n : Int64, v = .integer m ∧ w = .integer n := by
  rcases compare?_widened v w with hboth | heq
  · exact hboth
  · have hgt : v.compare? w = some .gt := by
      rw [dual_compare? w v, hlt]
      rfl
    unfold AtMost at hle
    rw [heq, hgt] at hle
    rcases hle with h | h <;> cases h

/-- A value between two integers is a number. -/
theorem integer_or_float_of_atMost {m : Int64} {v : Value}
    (h : AtMost Value.compare? (Value.widened (.integer m)) v.widened) :
    (∃ n, v = .integer n) ∨ ∃ x, v = .float x := by
  cases v with
  | integer n => exact .inl ⟨n, rfl⟩
  | float x => exact .inr ⟨x, rfl⟩
  | _ => rcases h with h | h <;> cases h

end Toml.Value

/-! ## Records -/

namespace SortKey

/-- The value that a record is compared by. -/
def value? (sortKey : SortKey) : Option Value :=
  sortKey.record.lookup sortKey.key

theorem compare?_eq_some_iff {a b : SortKey} {o : Ordering} :
    SortKey.compare? a b = some o ↔
      ∃ v w, a.value? = some v ∧ b.value? = some w ∧ v.compare? w = some o := by
  unfold SortKey.compare? value?
  cases a.record.lookup a.key with
  | none => simp
  | some v =>
      cases b.record.lookup b.key with
      | none => simp
      | some w => simp

theorem dual_compare? : Dual SortKey.compare? := by
  intro a b
  unfold SortKey.compare?
  cases a.record.lookup a.key with
  | none => cases b.record.lookup b.key <;> rfl
  | some v =>
      cases b.record.lookup b.key with
      | none => rfl
      | some w => exact Value.dual_compare? v w

/-- The value of one record is at most that of another one. -/
theorem atMost_iff {a b : SortKey} :
    AtMost SortKey.compare? a b ↔
      ∃ v w, a.value? = some v ∧ b.value? = some w ∧ AtMost Value.compare? v w := by
  constructor
  · rintro (h | h)
    · obtain ⟨v, w, ha, hb, hlt⟩ := compare?_eq_some_iff.mp h
      exact ⟨v, w, ha, hb, .inl hlt⟩
    · obtain ⟨v, w, ha, hb, heq⟩ := compare?_eq_some_iff.mp h
      exact ⟨v, w, ha, hb, .inr heq⟩
  · rintro ⟨v, w, ha, hb, h | h⟩
    · exact .inl (compare?_eq_some_iff.mpr ⟨v, w, ha, hb, h⟩)
    · exact .inr (compare?_eq_some_iff.mpr ⟨v, w, ha, hb, h⟩)

/-- Up to rounding, the value of one record is at most that of another one. -/
def AtMostWidened (a b : SortKey) : Prop :=
  ∃ v w, a.value? = some v ∧ b.value? = some w ∧
    AtMost Value.compare? v.widened w.widened

theorem AtMostWidened.of_value? {a b : SortKey} {v w : Value} (h : AtMostWidened a b)
    (ha : a.value? = some v) (hb : b.value? = some w) :
    AtMost Value.compare? v.widened w.widened := by
  obtain ⟨v', w', ha', hb', hle⟩ := h
  rw [ha] at ha'
  rw [hb] at hb'
  cases ha'
  cases hb'
  exact hle

theorem AtMostWidened.of_atMost {a b : SortKey} (h : AtMost SortKey.compare? a b) :
    AtMostWidened a b := by
  obtain ⟨v, w, ha, hb, hle⟩ := atMost_iff.mp h
  exact ⟨v, w, ha, hb, Value.atMost_widened hle⟩

theorem AtMostWidened.trans {a b c : SortKey} (hab : AtMostWidened a b)
    (hbc : AtMostWidened b c) : AtMostWidened a c := by
  obtain ⟨u, v, ha, hb, huv⟩ := hab
  obtain ⟨v', w, hb', hc, hvw⟩ := hbc
  rw [hb] at hb'
  cases hb'
  exact ⟨u, w, ha, hc, Value.widened_trans huv hvw⟩

/-- A sorted list is in order up to rounding. -/
theorem pairwise_atMostWidened {items sorted : List SortKey}
    (hok : stableSort SortKey.compare? items = .ok sorted) :
    sorted.Pairwise AtMostWidened :=
  dual_compare?.pairwise (fun _ _ => .of_atMost) (fun _ _ _ => .trans) hok

/-! ## Integers in a row -/

/-- Two records have integers for values, the first one at most the second. -/
def IntegerAtMost (a b : SortKey) : Prop :=
  ∃ m n : Int64, a.value? = some (.integer m) ∧ b.value? = some (.integer n) ∧ m ≤ n

instance : Trans IntegerAtMost IntegerAtMost IntegerAtMost where
  trans := by
    rintro a b c ⟨l, m, ha, hb, hlm⟩ ⟨m', n, hb', hc, hmn⟩
    rw [hb] at hb'
    cases hb'
    exact ⟨l, n, ha, hc, Int64.le_trans hlm hmn⟩

theorem integerAtMost_of_atMost {a b : SortKey} {m n : Int64}
    (ha : a.value? = some (.integer m)) (hb : b.value? = some (.integer n))
    (h : AtMost SortKey.compare? a b) : IntegerAtMost a b := by
  obtain ⟨v, w, hv, hw, hle⟩ := atMost_iff.mp h
  rw [ha] at hv
  rw [hb] at hw
  cases hv
  cases hw
  exact ⟨m, n, ha, hb, Value.atMost_integer_iff.mp hle⟩

/-- Neighbours in order are all in order if they are integers. -/
theorem integerAtMost_of_isChain {r s : SortKey} {between : List SortKey}
    (hchain : (r :: (between ++ [s])).IsChain (AtMost SortKey.compare?))
    (hint : ∀ t ∈ r :: (between ++ [s]), ∃ i : Int64, t.value? = some (.integer i)) :
    IntegerAtMost r s := by
  have hrow : (r :: (between ++ [s])).IsChain IntegerAtMost := by
    refine hchain.imp_of_mem_imp ?_
    intro a b ha hb hle
    obtain ⟨m, hm⟩ := hint a ha
    obtain ⟨n, hn⟩ := hint b hb
    exact integerAtMost_of_atMost hm hn hle
  exact hrow.rel_cons (List.mem_append_right between (List.mem_singleton_self s))

theorem not_integerAtMost_of_lt {r s : SortKey} (hlt : SortKey.compare? s r = some .lt) :
    ¬IntegerAtMost r s := by
  rintro ⟨m, n, hm, hn, hle⟩
  obtain ⟨w, v, hw, hv, hless⟩ := compare?_eq_some_iff.mp hlt
  rw [hm] at hv
  rw [hn] at hw
  cases hv
  cases hw
  exact absurd hle (Int64.not_le.mpr (Std.compare_eq_lt.mp (Option.some.inj hless)))

/-- What an integer is at most, up to rounding, is an integer if it is no
floating-point number. -/
theorem exists_integer_of_atMostWidened {r t : SortKey} {m : Int64}
    (hr : r.value? = some (.integer m)) (h : AtMostWidened r t)
    (hfloat : ¬∃ x, t.value? = some (.float x)) :
    ∃ i : Int64, t.value? = some (.integer i) := by
  obtain ⟨_, u, _, ht, _⟩ := id h
  rcases Value.integer_or_float_of_atMost (h.of_value? hr ht) with ⟨i, rfl⟩ | ⟨x, rfl⟩
  · exact ⟨i, ht⟩
  · exact absurd ⟨x, ht⟩ hfloat

/-- If a smaller record comes after a larger one in a sorted list, both have
integers for values, and between them is a record with a floating-point number
that is equal to both. -/
theorem exists_float_of_lt {items written front between back : List SortKey} {r s : SortKey}
    (hok : stableSort SortKey.compare? items = .ok written)
    (hsplit : written = front ++ r :: (between ++ s :: back))
    (hlt : SortKey.compare? s r = some .lt) :
    ∃ m n : Int64, r.value? = some (.integer m) ∧ s.value? = some (.integer n) ∧
      ∃ t ∈ between, (∃ x, t.value? = some (.float x)) ∧
        SortKey.compare? r t = some .eq ∧ SortKey.compare? t s = some .eq := by
  have hpairs := pairwise_atMostWidened hok
  have hchain := dual_compare?.isChain_atMost hok
  rw [hsplit] at hpairs hchain
  obtain ⟨-, hpairs, -⟩ := List.pairwise_append.mp hpairs
  obtain ⟨hr, hpairs⟩ := List.pairwise_cons.mp hpairs
  obtain ⟨-, -, hs⟩ := List.pairwise_append.mp hpairs
  obtain ⟨w, v, hw, hv, hless⟩ := compare?_eq_some_iff.mp hlt
  have hrs : AtMostWidened r s := hr s (by simp)
  obtain ⟨m, n, rfl, rfl⟩ := Value.exists_integers_of_lt hless (hrs.of_value? hv hw)
  refine ⟨m, n, hv, hw, ?_⟩
  by_cases hfloat : ∃ t ∈ between, ∃ x, t.value? = some (.float x)
  · obtain ⟨t, ht, x, hx⟩ := hfloat
    have hrt : AtMostWidened r t := hr t (by simp [ht])
    have hts : AtMostWidened t s := hs t ht s (List.mem_cons_self ..)
    -- The numbers stand in a circle, so they are all equal.
    have hmx : AtMost Binary64.compare? (.ofInt m.toInt) x := hrt.of_value? hv hx
    have hxn : AtMost Binary64.compare? x (.ofInt n.toInt) := hts.of_value? hx hw
    have hnm : AtMost Binary64.compare? (.ofInt n.toInt) (.ofInt m.toInt) :=
      Binary64.atMost_ofInt (Value.atMost_integer_iff.mp (.inl hless))
    refine ⟨t, ht, ⟨x, hx⟩, ?_, ?_⟩
    · exact compare?_eq_some_iff.mpr ⟨_, _, hv, hx,
        Binary64.eq_of_atMost hmx (Binary64.atMost_trans hxn hnm)⟩
    · exact compare?_eq_some_iff.mpr ⟨_, _, hx, hw,
        Binary64.eq_of_atMost hxn (Binary64.atMost_trans hnm hmx)⟩
  · have hint : ∀ t ∈ r :: (between ++ [s]), ∃ i : Int64, t.value? = some (.integer i) := by
      intro t ht
      rcases List.mem_cons.mp ht with rfl | ht
      · exact ⟨m, hv⟩
      rcases List.mem_append.mp ht with ht | ht
      · exact exists_integer_of_atMostWidened hv (hr t (by simp [ht]))
          fun hx => hfloat ⟨t, ht, hx⟩
      · cases List.mem_singleton.mp ht
        exact ⟨n, hw⟩
    have hrow : (r :: (between ++ [s])).IsChain (AtMost SortKey.compare?) :=
      hchain.infix ⟨front, back, by simp⟩
    exact absurd (integerAtMost_of_isChain hrow hint) (not_integerAtMost_of_lt hlt)

end SortKey

/-! ## Jobs -/

/-- A job that sorts its records writes them in the order of a sorted list. If a
record in it is less than one written before, both have integers under the key
that are not told apart after rounding, and between the two a record was written
with a floating-point number that is equal to both. Without such a number the
records are in order, each one with all that come after it. -/
theorem Job.sorted_unless_float_between {job : Job} {key : String}
    (hkey : job.sortBy = some key) {style : ListStyle} {sink : Sink}
    (hrun : (job.run style sink).result = .ok ()) :
    ∃ written, stableSort SortKey.compare? (sortKeys key job.records) = .ok written ∧
      job.run style = writeList (written.map SortKey.fields) job.template style ∧
      ∀ front r between s back, written = front ++ r :: (between ++ s :: back) →
        SortKey.compare? s r = some .lt →
        ∃ m n : Int64, r.value? = some (.integer m) ∧ s.value? = some (.integer n) ∧
          ∃ t ∈ between, (∃ x, t.value? = some (.float x)) ∧
            SortKey.compare? r t = some .eq ∧ SortKey.compare? t s = some .eq := by
  cases hsort : stableSort SortKey.compare? (sortKeys key job.records) with
  | error places =>
      rw [job.run_of_sortBy hkey, writeSorted_of_error hsort] at hrun
      cases hrun
  | ok written =>
      refine ⟨written, rfl, ?_, ?_⟩
      · rw [job.run_of_sortBy hkey, writeSorted_of_ok hsort]
      · intro front r between s back hsplit hlt
        exact SortKey.exists_float_of_lt hsort hsplit hlt

/-- The integers `2 ^ 53 + 1` and `2 ^ 53`, which round to the same number, and
that number between them. Only the integers are written. -/
def crossedJob : Job :=
  ⟨"${n}", some "k",
    [[("k", .integer 9007199254740993), ("n", .string "B")],
      [("k", .float ⟨0x4340000000000000⟩), ("n", .string "")],
      [("k", .integer 9007199254740992), ("n", .string "A")]]⟩

/-- Three elements stay where they are if each one is equal to the next. -/
theorem stableSort_of_eq {α : Type} {compare? : α → α → Option Ordering} {a b c : α}
    (hab : compare? b a = some .eq) (hbc : compare? c b = some .eq) :
    stableSort compare? [a, b, c] = .ok [a, b, c] := by
  simp [stableSort, sortRun, mergeRuns, hab, hbc, Except.bind, Except.map]

theorem stableSort_crossedJob :
    stableSort SortKey.compare? (sortKeys "k" crossedJob.records)
      = .ok (sortKeys "k" crossedJob.records) :=
  stableSort_of_eq (by decide +kernel) (by decide +kernel)

/-- The integers of `crossedJob` are both equal to the number between them, so the
larger one, which comes first, is written first. -/
theorem Job.run_larger_integer_first :
    (crossedJob.run ⟨""⟩ .unlimited).result = .ok () ∧
      (crossedJob.run ⟨""⟩ .unlimited).sink.taken = utf8Bytes ['B', 'A'] ∧
      stableSort SortKey.compare? (sortKeys "k" crossedJob.records)
        = .ok (sortKeys "k" crossedJob.records) ∧
      ¬(sortKeys "k" crossedJob.records).Pairwise
        fun r s => SortKey.compare? s r ≠ some .lt :=
  ⟨by decide +kernel, by decide +kernel, stableSort_crossedJob, by decide +kernel⟩

theorem Job.sorted_crossedJob :
    crossedJob.sortBy = some "k" ∧ (crossedJob.run ⟨""⟩ .unlimited).result = .ok () ∧
      crossedJob.run ⟨""⟩
        = writeList ((sortKeys "k" crossedJob.records).map SortKey.fields)
            crossedJob.template ⟨""⟩ ∧
      ∃ t ∈ [SortKey.mk "k" crossedJob.records[1]], ∃ x, t.value? = some (.float x) := by
  have hrun : (crossedJob.run ⟨""⟩ .unlimited).result = .ok () := by decide +kernel
  obtain ⟨written, hok, hlist, hbetween⟩ :=
    @Job.sorted_unless_float_between crossedJob "k" rfl ⟨""⟩ .unlimited hrun
  rw [stableSort_crossedJob] at hok
  cases hok
  obtain ⟨_, _, _, _, t, ht, hfloat, _⟩ :=
    hbetween [] ⟨"k", crossedJob.records[0]⟩ [⟨"k", crossedJob.records[1]⟩]
      ⟨"k", crossedJob.records[2]⟩ [] rfl (by decide +kernel)
  exact ⟨rfl, hrun, hlist, t, ht, hfloat⟩

end MailMerge
