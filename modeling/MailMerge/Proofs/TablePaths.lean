import MailMerge.Proofs.Lookups
import MailMerge.Toml.Document

/-!
# Paths into tables under construction

A path goes on behind a key in one table, whether that table is under the key, or new
because there is nothing, or the last one of a list. `Table.enter?` gives this table
and `Table.put` puts another one in its place, and with these two every change along a
path is a step and the same change along the rest (`Table.modifyAt?_cons`).

So it takes one fact about a step, that a path finds again what was put in its way, to
know what a path leads to after a change at its end.
-/

namespace MailMerge.Toml.Table

variable {table inner result : Table} {dotted : Bool} {change other : Table → Option Table}
  {key : String} {node : Node} {path : List String}

/-! ## Under a key -/

theorem find?_push_self (h : table.find? key = none) :
    (table.push key node).find? key = some node :=
  lookup_concat_self h

theorem find?_replace_self (h : (table.find? key).isSome) :
    (table.replace key node).find? key = some node := by
  have hentries : (table.replace key node).entries
      = table.entries.map fun entry => if entry.1 == key then (key, node) else entry := rfl
  unfold find? at h ⊢
  rw [hentries]
  generalize table.entries = entries at h
  induction entries with
  | nil => cases h
  | cons entry rest ih =>
      rw [List.map_cons]
      by_cases hentry : entry.1 = key
      · simp [hentry]
      · have hne : (key == entry.1) = false := beq_eq_false_iff_ne.mpr (Ne.symm hentry)
        rw [List.lookup_cons, hne] at h
        rw [if_neg (by simpa using hentry), List.lookup_cons, hne]
        exact ih h

theorem find?_erase_self : (table.erase key).find? key = none := by
  refine List.lookup_eq_none_iff.mpr fun entry hentry => ?_
  have hkept := (List.mem_filter.mp hentry).2
  exact bne_iff_ne.mpr (Ne.symm (bne_iff_ne.mp hkept))

/-! ## Along a path -/

/-- The table that a path goes on in behind a key: a new one if there is nothing, and the
last one of a list. -/
def enter? (dotted : Bool) (key : String) (table : Table) : Option Table :=
  match table.find? key with
  | none => some (step dotted)
  | some (.value _) => none
  | some (.table inner) => if dotted && !inner.implicit then none else some inner
  | some (.elements first others) => some (others.getLast?.getD first)

/-- The table with another one in place of that which a path goes on in. -/
def put (key : String) (table inner : Table) : Table :=
  match table.find? key with
  | none => table.push key (.table inner)
  | some (.elements first others) =>
    table.replace key
      (if others = [] then .elements inner [] else .elements first (others.dropLast ++ [inner]))
  | some _ => table.replace key (.table inner)

theorem follow?_cons :
    table.follow? (key :: path) = (table.enter? false key).bind (follow? path) := by
  rw [follow?, enter?]
  cases table.find? key with
  | none => rfl
  | some node => cases node <;> rfl

theorem modifyAt?_cons : table.modifyAt? dotted change (key :: path)
    = (table.enter? dotted key).bind fun inner =>
        (inner.modifyAt? dotted change path).map (table.put key) := by
  unfold enter? put
  rw [modifyAt?]
  simp only [bind_pure_comp, Option.map_eq_map]
  cases table.find? key with
  | none => rfl
  | some node =>
      cases node with
      | value value => rfl
      | table inner =>
          dsimp only
          split <;> rfl
      | elements first others =>
          rcases List.eq_nil_or_concat others with rfl | ⟨init, last, rfl⟩ <;> simp

/-- A path goes on in the table that was put in the way of it. -/
theorem enter?_put (h : (table.enter? false key).isSome) :
    (table.put key inner).enter? false key = some inner := by
  unfold enter? at h
  unfold put
  cases hfind : table.find? key with
  | none => simp [enter?, find?_push_self hfind]
  | some node =>
      have hsome : (table.find? key).isSome := by simp [hfind]
      rw [hfind] at h
      cases node with
      | value value => cases h
      | table old => simp [enter?, find?_replace_self hsome]
      | elements first others =>
          by_cases hothers : others = [] <;> simp [enter?, find?_replace_self hsome, hothers]

/-- Only what is done to the table at the end of a path matters. -/
theorem modifyAt?_congr (h : ∀ last, table.follow? path = some last → change last = other last) :
    table.modifyAt? false change path = table.modifyAt? false other path := by
  induction path generalizing table with
  | nil => exact h table rfl
  | cons key path ih =>
      rw [follow?_cons] at h
      rw [modifyAt?_cons, modifyAt?_cons]
      cases hinner : table.enter? false key with
      | none => rfl
      | some inner =>
          rw [hinner] at h
          exact congrArg (Option.map (table.put key)) (ih h)

/-- What is at the end of a path after the table there has been changed. -/
theorem follow?_of_modifyAt? (h : table.modifyAt? false change path = some result) :
    ∃ last changed, change last = some changed ∧ result.follow? path = some changed := by
  induction path generalizing table result with
  | nil => exact ⟨table, result, h, rfl⟩
  | cons key path ih =>
      rw [modifyAt?_cons] at h
      obtain ⟨inner, hinner, hmap⟩ := Option.bind_eq_some_iff.mp h
      obtain ⟨changedInner, hchanged, rfl⟩ := Option.map_eq_some_iff.mp hmap
      obtain ⟨last, changed, hchange, hfollow⟩ := ih hchanged
      refine ⟨last, changed, hchange, ?_⟩
      rw [follow?_cons, enter?_put (by simp [hinner]), Option.bind_some, hfollow]

/-! ## Opening a table -/

/-- A table is opened out of its parent, which does not have its key from then on. -/
theorem open?_cases (h : table.open? key = some (inner, result)) :
    result.find? key = none ∧
      (inner = empty ∧ result = table ∨
        ∃ old, table.find? key = some (.table old) ∧ inner = old.opened ∧
          result = table.erase key) := by
  unfold Table.open? at h
  split at h
  · next hfind =>
      cases h
      exact ⟨hfind, .inl ⟨rfl, rfl⟩⟩
  · next old hfind =>
      split at h
      · cases h
        exact ⟨find?_erase_self, .inr ⟨old, hfind, rfl, rfl⟩⟩
      · cases h
  · cases h

end MailMerge.Toml.Table
