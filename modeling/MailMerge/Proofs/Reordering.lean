import MailMerge.Proofs.Chunks
import MailMerge.Proofs.OrderKinds
import MailMerge.Proofs.PlaceRefine
import MailMerge.Proofs.SortedViews
import Mathlib.Data.List.Perm.Basic

/-!
# A sorted run is a run in another order

A job that sorts its records and one that does not take different ways to the
sink. The first one wraps every record in a sort key, sorts the places of the
wrapped records, takes them out of their slots and writes what is in the
wrappers; the second one writes the records as they come. Nothing on the first
way depends on the comparison being transitive, so it ends with the records it
began with, each as often as it was there, and `Job.run_eq_run_inOrder` says that
the run is from there on the other one, with the records in their new order.

What a record is written as is a chunk (`Job.chunk`) that depends on no other
record. So the chunks of the two runs are the same ones, and since the chunks can
be told from a run, `Job.run_sorted_reorders` can say so of the runs themselves.
-/

namespace MailMerge

/-- How two records compare by a key. -/
def Record.compareBy? (key : String) (a b : Record) : Option Ordering :=
  SortKey.compare? ⟨key, a⟩ ⟨key, b⟩

/-- What a job writes for a record. -/
def Job.chunk (job : Job) (style : ListStyle) (record : Record) : List UInt8 :=
  utf8Bytes (Template.rendering record.fields (style.template job.template)).text

/-- A job that writes records in the order that they are given in. -/
def Job.inOrder (job : Job) (records : List Record) : Job :=
  { job with sortBy := none, records }

/-- The keys are sorted as the records in them. -/
theorem stableSort_sortKeys (key : String) (records : List Record) :
    stableSort SortKey.compare? (sortKeys key records)
      = (stableSort (Record.compareBy? key) records).map (sortKeys key) :=
  stableSort_map fun _ _ _ _ => rfl

theorem map_fields_sortKeys (key : String) (records : List Record) :
    (sortKeys key records).map SortKey.fields = records.map Record.fields := by
  rw [sortKeys, List.map_map]
  rfl

section

variable {job : Job} {key : String} {style : ListStyle} {sink : Sink} {order : List Record}

theorem Job.run_inOrder (job : Job) (order : List Record) (style : ListStyle) :
    (job.inOrder order).run style
      = writeList (order.map Record.fields) job.template style := rfl

theorem Job.run_of_unsorted (hkey : job.sortBy = none) (style : ListStyle) :
    job.run style = (job.inOrder job.records).run style := by
  unfold Job.run
  rw [hkey]
  rfl

/-- Records without an order leave the sink as it was. -/
theorem Job.run_of_no_order {places : Incomparable} (hkey : job.sortBy = some key)
    (hsort : stableSort (Record.compareBy? key) job.records = .error places)
    (style : ListStyle) (sink : Sink) :
    job.run style sink = ⟨sink, [], .error (.incomparable places)⟩ := by
  have hkeys := stableSort_sortKeys key job.records
  rw [hsort] at hkeys
  rw [job.run_of_sortBy hkey, writeSorted_of_error hkeys]

/-- A run that succeeds has found an order for its records. -/
theorem Job.exists_order_of_run_ok (hkey : job.sortBy = some key)
    (hrun : (job.run style sink).result = .ok ()) :
    ∃ order, stableSort (Record.compareBy? key) job.records = .ok order := by
  cases hsort : stableSort (Record.compareBy? key) job.records with
  | ok order => exact ⟨order, rfl⟩
  | error places =>
      rw [Job.run_of_no_order hkey hsort] at hrun
      cases hrun

theorem Job.run_of_order (hkey : job.sortBy = some key)
    (hsort : stableSort (Record.compareBy? key) job.records = .ok order) (style : ListStyle) :
    job.run style = (job.inOrder order).run style := by
  have hkeys := stableSort_sortKeys key job.records
  rw [hsort] at hkeys
  rw [job.run_of_sortBy hkey, writeSorted_of_ok hkeys, map_fields_sortKeys, run_inOrder]

/-- A run that succeeds writes its records in some order. -/
theorem Job.run_eq_run_inOrder (hrun : (job.run style sink).result = .ok ()) :
    ∃ order, order.Perm job.records ∧ job.run style = (job.inOrder order).run style := by
  cases hkey : job.sortBy with
  | none => exact ⟨job.records, .refl _, Job.run_of_unsorted hkey style⟩
  | some key =>
      obtain ⟨order, hsort⟩ := Job.exists_order_of_run_ok hkey hrun
      exact ⟨order, perm_of_stableSort_ok hsort, Job.run_of_order hkey hsort style⟩

/-- Records that are not sorted are written as their chunks, in their order. -/
theorem Job.writesInTurn_inOrder (job : Job) (order : List Record) (style : ListStyle) :
    WritesInTurn ((job.inOrder order).run style) (order.map (job.chunk style)) := by
  have hchunks : lineChunks (order.map Record.fields) (style.template job.template)
      = order.map (job.chunk style) := by
    rw [lineChunks, List.map_map]
    rfl
  rw [run_inOrder, ← hchunks]
  exact writesInTurn_writeList ..

/-- A sorted run that succeeds writes the chunks of the run that does not sort, in
another order, and each of them as often as that one. It is the run of the
records in that order, to which they are brought by sorting their places and
emptying their slots. No promise of the comparison is needed. -/
theorem Job.run_sorted_reorders (hrun : ((job.withSortBy key).run style sink).result = .ok ()) :
    (∃ order : List Record, order.Perm job.records ∧
      sortByPlaces SortKey.compare? (sortKeys key job.records) = .ok (sortKeys key order) ∧
      (job.withSortBy key).run style = (job.inOrder order).run style ∧
      WritesInTurn ((job.withSortBy key).run style) (order.map (job.chunk style))) ∧
    WritesInTurn (({ job with sortBy := none } : Job).run style)
      (job.records.map (job.chunk style)) ∧
    ∀ sorted unsorted, WritesInTurn ((job.withSortBy key).run style) sorted →
      WritesInTurn (({ job with sortBy := none } : Job).run style) unsorted →
        sorted.Perm unsorted := by
  have hkey : (job.withSortBy key).sortBy = some key := rfl
  obtain ⟨order, hsort⟩ := Job.exists_order_of_run_ok hkey hrun
  have hperm : order.Perm job.records := perm_of_stableSort_ok hsort
  have hsame : (job.withSortBy key).run style = (job.inOrder order).run style :=
    Job.run_of_order hkey hsort style
  have hchunks : WritesInTurn ((job.withSortBy key).run style) (order.map (job.chunk style)) :=
    hsame ▸ job.writesInTurn_inOrder order style
  have hchunks' : WritesInTurn (({ job with sortBy := none } : Job).run style)
      (job.records.map (job.chunk style)) := job.writesInTurn_inOrder job.records style
  refine ⟨⟨order, hperm, ?_, hsame, hchunks⟩, hchunks', fun sorted unsorted h h' => ?_⟩
  · rw [sortByPlaces_eq, stableSort_sortKeys]
    exact congrArg (fun sorted => (Except.map (sortKeys key) sorted).mapError _) hsort
  · rw [h.unique hchunks, h'.unique hchunks']
    exact hperm.map _

end

/-- Two records, which a sort by number brings into the other order. -/
theorem Job.run_sorted_two_records :
    let job : Job := ⟨"${n}", none,
      [[("k", .integer 2), ("n", .string "B")], [("k", .float (.ofInt 1)), ("n", .string "A")]]⟩
    ((job.withSortBy "k").run .lines .unlimited).result = .ok () ∧
      ∃ sorted unsorted : List (List UInt8),
        WritesInTurn ((job.withSortBy "k").run .lines) sorted ∧
        WritesInTurn (job.run .lines) unsorted ∧
        sorted.Perm unsorted ∧ sorted ≠ unsorted := by
  intro job
  have hrun : ((job.withSortBy "k").run .lines .unlimited).result = .ok () := by
    decide +kernel
  obtain ⟨⟨order, _, _, _, hsorted⟩, hunsorted, hperm⟩ := Job.run_sorted_reorders hrun
  refine ⟨hrun, _, _, hsorted, hunsorted, hperm _ _ hsorted hunsorted, fun hequal => ?_⟩
  have hbytes := (hsorted.writes .unlimited).1
  rw [hequal, ← (hunsorted.writes .unlimited).1] at hbytes
  exact absurd (congrArg Sink.taken hbytes) (by decide +kernel)

end MailMerge
