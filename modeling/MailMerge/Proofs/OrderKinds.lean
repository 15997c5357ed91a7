import MailMerge.Job.Basic
import MailMerge.Proofs.IntegerRounding
import MailMerge.Proofs.NaturalOrder
import Mathlib.Logic.Basic

/-!
# Which records have an order

The comparison that records are sorted by is not that of a partial order: two
different integers may both be equal to one floating-point number. So it is not
lawful, and what was said of lawful comparisons does not apply. But it does have
an answer for two values exactly if they are of one kind, and being of one kind
is transitive. That is all that `SortsTo.pairwise` asks of a relation, and so a
sort that comes through has seen records of a single kind only
(`AnswersWithin.ok_iff`), whatever the answers were.
-/

namespace MailMerge

open Toml

/-! ## Comparisons that answer within kinds -/

section

variable {α κ : Type} {compare? : α → α → Option Ordering} {kind? : α → Option κ}
  {items : List α}

/-- Two elements are of one kind. An element need not have a kind; then it is of
one kind with nothing, not even with itself. -/
def SameKind (kind? : α → Option κ) (a b : α) : Prop :=
  ∃ kind, kind? a = some kind ∧ kind? b = some kind

theorem SameKind.symm {a b : α} (h : SameKind kind? a b) : SameKind kind? b a := by
  obtain ⟨kind, ha, hb⟩ := h
  exact ⟨kind, hb, ha⟩

theorem SameKind.trans {a b c : α} (hab : SameKind kind? a b) (hbc : SameKind kind? b c) :
    SameKind kind? a c := by
  obtain ⟨kind, ha, hb⟩ := hab
  obtain ⟨kind', hb', hc⟩ := hbc
  rw [hb] at hb'
  cases hb'
  exact ⟨kind, ha, hc⟩

/-- The comparison has an answer for two elements exactly if they are of one
kind. -/
def AnswersWithin (compare? : α → α → Option Ordering) (kind? : α → Option κ) : Prop :=
  ∀ a b, (compare? a b).isSome ↔ SameKind kind? a b

theorem AnswersWithin.sameKind (h : AnswersWithin compare? kind?) {a b : α} {o : Ordering}
    (ho : compare? a b = some o) : SameKind kind? a b := by
  rw [← h a b, ho]
  rfl

theorem AnswersWithin.pairwise (h : AnswersWithin compare? kind?) {run : List (α × Nat)}
    (hsort : SortsTo compare? items.zipIdx run) :
    run.Pairwise fun x y => SameKind kind? x.1 y.1 := by
  refine hsort.pairwise ?_ ?_
  · intro x _ y _ z _ hxy hyz
    exact hxy.trans hyz
  · refine List.Pairwise.imp_of_mem ?_ (zipIdx_pairwise_snd_lt items)
    intro x y _ _ _
    exact ⟨fun hlt => h.sameKind hlt, fun o ho _ => (h.sameKind ho).symm⟩

/-- A sort comes through exactly if its elements are all of one kind. -/
theorem AnswersWithin.ok_iff (h : AnswersWithin compare? kind?) :
    (∃ sorted, stableSort compare? items = .ok sorted) ↔
      items.Pairwise (SameKind kind?) := by
  constructor
  · rintro ⟨sorted, hok⟩
    obtain ⟨run, hsort, -⟩ := exists_of_stableSort_ok hok
    exact (hsort.perm_fst.pairwise_iff SameKind.symm).mp
      (List.pairwise_map.mpr (h.pairwise hsort))
  · intro hitems
    cases hsort : stableSort compare? items with
    | ok sorted => exact ⟨sorted, rfl⟩
    | error places =>
        obtain ⟨hlt, a, b, ha, hb, hnone⟩ := exists_of_stableSort_error hsort
        obtain ⟨hleft, rfl⟩ := List.getElem?_eq_some_iff.mp ha
        obtain ⟨hright, rfl⟩ := List.getElem?_eq_some_iff.mp hb
        have hsame := List.pairwise_iff_getElem.mp hitems _ _ hleft hright hlt
        have hsome := (h _ _).mpr hsame.symm
        rw [hnone] at hsome
        cases hsome

end

/-! ## Kinds of values -/

/-- The kinds of values that have an order among themselves. -/
inductive OrderKind
  | text
  | number
  | truth
  | moment
  deriving Repr, DecidableEq

/-- The kind of a value. Integers and floating-point numbers are of one kind;
what is no number has none, and neither have arrays and tables. -/
def Toml.Value.orderKind? : Value → Option OrderKind
  | .string _ => some .text
  | .integer _ => some .number
  | .float value => if value.isNaN then none else some .number
  | .boolean _ => some .truth
  | .dateTime _ => some .moment
  | .array _ | .table _ => none

theorem Toml.Value.answersWithin : AnswersWithin Value.compare? Value.orderKind? := by
  intro v w
  unfold SameKind
  cases v <;> cases w <;>
    simp [Value.compare?, Value.orderKind?, Binary64.compare?_isSome_iff,
      Binary64.isNaN_ofInt]

/-- The kind of the value that a record has under a key, if it has one. -/
def Record.orderKind? (key : String) (record : Record) : Option OrderKind :=
  (record.lookup key).bind Value.orderKind?

/-- Two records have an order under a key if both have values of one kind. -/
def HaveOrder (key : String) : Record → Record → Prop :=
  SameKind (Record.orderKind? key)

/-- The kind of the value that a record is compared by. -/
def SortKey.orderKind? (sortKey : SortKey) : Option OrderKind :=
  sortKey.record.orderKind? sortKey.key

theorem SortKey.answersWithin : AnswersWithin SortKey.compare? SortKey.orderKind? := by
  intro a b
  unfold SortKey.compare? SameKind SortKey.orderKind? Record.orderKind?
  cases a.record.lookup a.key with
  | none => simp
  | some v =>
      cases b.record.lookup b.key with
      | none => simp
      | some w => exact Value.answersWithin v w

/-- Two records at different places have no order under a key. -/
def SomeUnordered (key : String) (records : List Record) : Prop :=
  ∃ (i j : Nat) (a b : Record), i ≠ j ∧ records[i]? = some a ∧ records[j]? = some b ∧
    ¬HaveOrder key a b

theorem not_someUnordered_iff {key : String} {records : List Record} :
    ¬SomeUnordered key records ↔ records.Pairwise (HaveOrder key) := by
  rw [List.pairwise_iff_getElem]
  constructor
  · intro h i j hi hj hlt
    refine Classical.byContradiction fun hnot => h ?_
    exact ⟨i, j, records[i], records[j], Nat.ne_of_lt hlt, List.getElem?_eq_getElem hi,
      List.getElem?_eq_getElem hj, hnot⟩
  · rintro h ⟨i, j, a, b, hne, ha, hb, hnot⟩
    obtain ⟨hi, rfl⟩ := List.getElem?_eq_some_iff.mp ha
    obtain ⟨hj, rfl⟩ := List.getElem?_eq_some_iff.mp hb
    rcases Nat.lt_or_gt_of_ne hne with hlt | hgt
    · exact hnot (h i j hi hj hlt)
    · exact hnot (h j i hj hi hgt).symm

theorem someUnordered_congr {key : String} {records records' : List Record}
    (h : records.Perm records') :
    SomeUnordered key records ↔ SomeUnordered key records' := by
  rw [← not_iff_not, not_someUnordered_iff, not_someUnordered_iff]
  exact h.pairwise_iff SameKind.symm

/-! ## Jobs that sort their records -/

/-- Records, each with the key that it is compared by. -/
def sortKeys (key : String) (records : List Record) : List SortKey :=
  records.map fun record => ⟨key, record⟩

theorem stableSort_sortKeys_ok_iff {key : String} {records : List Record} :
    (∃ sorted, stableSort SortKey.compare? (sortKeys key records) = .ok sorted) ↔
      ¬SomeUnordered key records := by
  rw [SortKey.answersWithin.ok_iff, not_someUnordered_iff, sortKeys, List.pairwise_map]
  rfl

theorem getElem?_sortKeys_eq_some {key : String} {records : List Record} {i : Nat}
    {sortKey : SortKey} (h : (sortKeys key records)[i]? = some sortKey) :
    ∃ record, records[i]? = some record ∧ sortKey = ⟨key, record⟩ := by
  unfold sortKeys at h
  rw [List.getElem?_map] at h
  obtain ⟨record, hrecord, rfl⟩ := Option.map_eq_some_iff.mp h
  exact ⟨record, hrecord, rfl⟩

section

variable {job : Job} {key : String}

theorem Job.run_of_sortBy (hkey : job.sortBy = some key) (style : ListStyle) :
    job.run style
      = writeSorted SortKey.compare? SortKey.fields (sortKeys key job.records)
          job.template style := by
  unfold Job.run
  rw [hkey]
  rfl

/-- A sink without a bound stops no run, so only the sort can fail. -/
theorem Job.run_eq_ok_iff (hkey : job.sortBy = some key) (style : ListStyle)
    (taken : List UInt8) :
    (job.run style ⟨none, taken⟩).result = .ok () ↔ ¬SomeUnordered key job.records := by
  rw [← stableSort_sortKeys_ok_iff, job.run_of_sortBy hkey]
  cases hsort : stableSort SortKey.compare? (sortKeys key job.records) with
  | ok sorted =>
      rw [writeSorted_of_ok hsort]
      exact ⟨fun _ => ⟨sorted, rfl⟩,
        fun _ => (writes_writeList (sorted.map SortKey.fields) job.template style _).2⟩
  | error places =>
      rw [writeSorted_of_error hsort]
      constructor
      · intro hresult; cases hresult
      · rintro ⟨_, hok⟩; cases hok

/-- A run that fails in its sort names two records without an order, and the
sink stays as it was. -/
theorem Job.run_of_someUnordered (hkey : job.sortBy = some key) (style : ListStyle)
    (h : SomeUnordered key job.records) :
    ∃ places a b, places.left < places.right ∧
      job.records[places.left]? = some a ∧ job.records[places.right]? = some b ∧
      ¬HaveOrder key a b ∧
      ∀ sink, job.run style sink = ⟨sink, [], .error (.incomparable places)⟩ := by
  cases hsort : stableSort SortKey.compare? (sortKeys key job.records) with
  | ok sorted => exact absurd h (stableSort_sortKeys_ok_iff.mp ⟨sorted, hsort⟩)
  | error places =>
      obtain ⟨hlt, x, y, hx, hy, hnone⟩ := exists_of_stableSort_error hsort
      obtain ⟨a, ha, rfl⟩ := getElem?_sortKeys_eq_some hx
      obtain ⟨b, hb, rfl⟩ := getElem?_sortKeys_eq_some hy
      refine ⟨places, a, b, hlt, ha, hb, ?_, fun sink => ?_⟩
      · intro horder
        have hsome := (SortKey.answersWithin ⟨key, b⟩ ⟨key, a⟩).mpr horder.symm
        rw [hnone] at hsome
        cases hsome
      · rw [job.run_of_sortBy hkey, writeSorted_of_error hsort]

/-- A job that sorts its records fails exactly if two of them, at different
places, have no order: if one has no value under the key, or they have values
that are not of one kind. The failure names the places of two such records and
leaves the sink as it was. The order of the records makes no difference to
whether the job fails, and fewer than two records cannot make it fail. -/
theorem Job.run_sorted_fails_iff (hkey : job.sortBy = some key) (style : ListStyle) :
    (∀ a b, HaveOrder key a b ↔ (SortKey.compare? ⟨key, a⟩ ⟨key, b⟩).isSome) ∧
    (∀ taken, (job.run style ⟨none, taken⟩).result ≠ .ok () ↔
      SomeUnordered key job.records) ∧
    (SomeUnordered key job.records → ∃ places a b, places.left < places.right ∧
      job.records[places.left]? = some a ∧ job.records[places.right]? = some b ∧
      ¬HaveOrder key a b ∧
      ∀ sink, job.run style sink = ⟨sink, [], .error (.incomparable places)⟩) ∧
    (∀ (records : List Record) (taken : List UInt8), records.Perm job.records →
      ((({ job with records } : Job).run style ⟨none, taken⟩).result = .ok () ↔
        (job.run style ⟨none, taken⟩).result = .ok ())) ∧
    (job.records.length < 2 → ∀ taken, (job.run style ⟨none, taken⟩).result = .ok ()) := by
  refine ⟨?_, ?_, job.run_of_someUnordered hkey style, ?_, ?_⟩
  · exact fun a b => (SortKey.answersWithin ⟨key, a⟩ ⟨key, b⟩).symm
  · intro taken
    rw [Ne, job.run_eq_ok_iff hkey, not_not]
  · intro records taken hperm
    have hkey' : ({ job with records } : Job).sortBy = some key := hkey
    rw [Job.run_eq_ok_iff hkey', Job.run_eq_ok_iff hkey, someUnordered_congr hperm]
  · intro hfew taken
    rw [job.run_eq_ok_iff hkey]
    rintro ⟨i, j, a, b, hne, ha, hb, -⟩
    have hi := (List.getElem?_eq_some_iff.mp ha).1
    have hj := (List.getElem?_eq_some_iff.mp hb).1
    omega

end

/-- A number, a text and another number. -/
theorem Job.run_numbers_and_text :
    let job : Job := ⟨"${id}", some "id",
      [[("id", .integer 1)], [("id", .string "two")], [("id", .float (.ofInt 3))]]⟩
    job.sortBy = some "id" ∧ SomeUnordered "id" job.records ∧
      ∃ places, ∀ sink, job.run .lines sink = ⟨sink, [], .error (.incomparable places)⟩ := by
  intro job
  have hunordered : SomeUnordered "id" job.records := by
    refine ⟨0, 1, [("id", .integer 1)], [("id", .string "two")], by decide, rfl, rfl, ?_⟩
    rintro ⟨kind, hnumber, htext⟩
    simp only [Record.orderKind?, List.lookup_cons_self, Option.bind_some,
      Value.orderKind?, Option.some.injEq] at hnumber htext
    subst hnumber
    cases htext
  obtain ⟨places, _, _, _, _, _, _, hstop⟩ :=
    (@Job.run_sorted_fails_iff job "id" rfl .lines).2.2.1 hunordered
  exact ⟨rfl, hunordered, places, hstop⟩

end MailMerge
