import MailMerge.Order.PlaceSort
import MailMerge.Proofs.Merging

/-!
# Sorting places is sorting elements

The sort of places and the sort of elements with their places take the same
steps. A run of the one is a run of the other without its elements, and since
every place in it is a place of the list, each lookup finds the element that
the other sort carries along. What the buffer holds before a merge makes no
difference, because it is emptied first; what it holds afterwards is the merged
run, so it is as long as the run it is copied over. At the end every place
occurs once, and no slot is found empty.

So none of the mistakes that `SortStop` knows of is ever made, and
`sortByPlaces_eq` leaves nothing but two elements without an order for a sort to
stop at.
-/

namespace MailMerge

section

variable {α : Type} {compare? : α → α → Option Ordering}

/-- The places of a run are places of the list, and the elements are there. -/
def PlacedIn (items : List α) (run : List (α × Nat)) : Prop :=
  ∀ x ∈ run, items[x.2]? = some x.1

theorem PlacedIn.perm {items : List α} {run run' : List (α × Nat)}
    (h : PlacedIn items run) (hperm : run'.Perm run) : PlacedIn items run' :=
  fun x hx => h x (hperm.mem_iff.mp hx)

theorem placedIn_zipIdx (items : List α) : PlacedIn items items.zipIdx :=
  fun _ hx => List.mem_zipIdx_iff_getElem?.mp hx

/-! ## One merge -/

/-- When one run is used up, the buffer gets what is left of the other. -/
theorem mergePlaces_done {items : List α} {left right : List (α × Nat)} {i j : Nat}
    {buffer : List Nat} (h : ¬(i < left.length ∧ j < right.length)) :
    mergePlaces compare? items (left.map Prod.snd) (right.map Prod.snd) i j buffer
      = ((mergeRuns compare? (left.drop i) (right.drop j)).map
          fun merged => buffer ++ merged.map Prod.snd).mapError .incomparable := by
  rw [mergePlaces, dif_neg (by simpa using h), List.append_assoc, ← List.map_drop,
    ← List.map_drop]
  by_cases hi : i < left.length
  · rw [List.drop_eq_nil_of_le (show right.length ≤ j by omega), mergeRuns_nil_right,
      List.map_nil, List.append_nil]
    rfl
  · rw [List.drop_eq_nil_of_le (show left.length ≤ i by omega), mergeRuns_nil_left]
    rfl

/-- A merge of places, from the places at `i` and `j` on, fills the buffer with
the places of what is left of the runs, merged. -/
theorem mergePlaces_eq {items : List α} {left right : List (α × Nat)}
    (hleft : PlacedIn items left) (hright : PlacedIn items right) :
    ∀ (n i j : Nat) (buffer : List Nat), (left.length - i) + (right.length - j) ≤ n →
      mergePlaces compare? items (left.map Prod.snd) (right.map Prod.snd) i j buffer
        = ((mergeRuns compare? (left.drop i) (right.drop j)).map
            fun merged => buffer ++ merged.map Prod.snd).mapError .incomparable := by
  intro n
  induction n with
  | zero =>
      intro i j buffer hn
      exact mergePlaces_done (by omega)
  | succ n ih =>
      intro i j buffer hn
      by_cases hin : i < left.length ∧ j < right.length
      · obtain ⟨hi, hj⟩ := hin
        have ha := hleft left[i] (List.getElem_mem hi)
        have hb := hright right[j] (List.getElem_mem hj)
        rw [mergePlaces, dif_pos (by simpa using And.intro hi hj)]
        simp only [List.getElem_map, ha, hb]
        rw [List.drop_eq_getElem_cons hi, List.drop_eq_getElem_cons hj, mergeRuns,
          ← List.drop_eq_getElem_cons hi, ← List.drop_eq_getElem_cons hj]
        cases compare? right[j].1 left[i].1 with
        | none => rfl
        | some o =>
            cases o with
            | lt =>
                simp only []
                rw [ih i (j + 1) _ (by omega)]
                cases mergeRuns compare? (left.drop i) (right.drop (j + 1)) with
                | error places => rfl
                | ok merged =>
                    exact congrArg Except.ok (List.append_assoc buffer [right[j].2] _)
            | eq | gt =>
                simp only []
                rw [ih (i + 1) j _ (by omega)]
                cases mergeRuns compare? (left.drop (i + 1)) (right.drop j) with
                | error places => rfl
                | ok merged =>
                    exact congrArg Except.ok (List.append_assoc buffer [left[i].2] _)
      · exact mergePlaces_done hin

/-! ## The sort -/

theorem exists_of_map_fst_eq_ok {ε β γ : Type} {x : Except ε (β × γ)} {b : β}
    (h : x.map Prod.fst = .ok b) : ∃ c, x = .ok (b, c) := by
  cases x with
  | error e => cases h
  | ok pair => cases h; exact ⟨pair.2, rfl⟩

theorem eq_error_of_map_fst {ε β γ : Type} {x : Except ε (β × γ)} {e : ε}
    (h : x.map Prod.fst = .error e) : x = .error e := by
  cases x with
  | error e' => cases h; rfl
  | ok pair => cases h

/-- Whatever the buffer holds, the sort of the places of a run leaves the places
of the sorted run. -/
theorem sortPlaces_eq {items : List α} {run : List (α × Nat)}
    (hrun : PlacedIn items run) (buffer : List Nat) :
    (sortPlaces compare? items (run.map Prod.snd) buffer).map Prod.fst
      = ((sortRun compare? run).map (·.map Prod.snd)).mapError .incomparable := by
  fun_induction sortRun compare? run generalizing buffer with
  | case1 run hshort =>
      rw [sortPlaces, if_pos (by simpa using hshort)]
      rfl
  | case2 run hlong ihFront ihBack =>
      have hfrontPlaced : PlacedIn items (run.take (run.length / 2)) :=
        fun x hx => hrun x (List.mem_of_mem_take hx)
      have hbackPlaced : PlacedIn items (run.drop (run.length / 2)) :=
        fun x hx => hrun x (List.mem_of_mem_drop hx)
      rw [sortPlaces, if_neg (by simpa using hlong), List.length_map, ← List.map_take,
        ← List.map_drop]
      have hfrontPlaces := ihFront hfrontPlaced buffer
      cases hfront : sortRun compare? (run.take (run.length / 2)) with
      | error places =>
          rw [hfront] at hfrontPlaces
          rw [eq_error_of_map_fst hfrontPlaces]
          rfl
      | ok left =>
          rw [hfront] at hfrontPlaces
          obtain ⟨buffer', hbuffer'⟩ := exists_of_map_fst_eq_ok hfrontPlaces
          rw [hbuffer']
          simp only [Except.bind]
          have hbackPlaces := ihBack hbackPlaced buffer'
          cases hback : sortRun compare? (run.drop (run.length / 2)) with
          | error places =>
              rw [hback] at hbackPlaces
              rw [eq_error_of_map_fst hbackPlaces]
              rfl
          | ok right =>
              rw [hback] at hbackPlaces
              obtain ⟨buffer'', hbuffer''⟩ := exists_of_map_fst_eq_ok hbackPlaces
              rw [hbuffer'']
              simp only []
              have hl := (sortsTo_of_sortRun hfront).perm
              have hr := (sortsTo_of_sortRun hback).perm
              rw [mergePlaces_eq (hfrontPlaced.perm hl) (hbackPlaced.perm hr) _ 0 0 []
                (Nat.le_refl _), List.drop_zero, List.drop_zero]
              cases hmerge : mergeRuns compare? left right with
              | error places => rfl
              | ok merged =>
                  -- The buffer has come to be as long as the run.
                  have hlength : (merged.map Prod.snd).length = run.length := by
                    rw [List.length_map, (mergesTo_of_mergeRuns hmerge).perm.length_eq,
                      List.length_append, hl.length_eq, hr.length_eq,
                      ← List.length_append, List.take_append_drop]
                  show Except.map Prod.fst (if (merged.map Prod.snd).length = run.length then _
                    else _) = _
                  rw [if_pos hlength]
                  rfl

theorem map_snd_zipIdx (items : List α) :
    items.zipIdx.map Prod.snd = List.range items.length := by
  rw [List.zipIdx_map_snd, List.range_eq_range']

/-- The places of all elements are left as those of the sorted elements. -/
theorem sortPlaces_range (items : List α) :
    (sortPlaces compare? items (List.range items.length) []).map Prod.fst
      = ((sortRun compare? items.zipIdx).map (·.map Prod.snd)).mapError .incomparable := by
  rw [← map_snd_zipIdx items]
  exact sortPlaces_eq (placedIn_zipIdx items) []

/-! ## The slots -/

theorem takeSlots_eq {run : List (α × Nat)} :
    ∀ {slots : List (Option α)}, (∀ x ∈ run, slots[x.2]? = some (some x.1)) →
      (run.map Prod.snd).Nodup →
      takeSlots slots (run.map Prod.snd) = .ok (run.map Prod.fst) := by
  induction run with
  | nil => intro slots _ _; rfl
  | cons x run ih =>
      intro slots hslots hnodup
      obtain ⟨hfresh, hnodup⟩ := List.nodup_cons.mp hnodup
      have hrest : ∀ y ∈ run, (slots.set x.2 none)[y.2]? = some (some y.1) := by
        intro y hy
        have hne : x.2 ≠ y.2 := by
          intro heq
          exact hfresh (heq ▸ List.mem_map_of_mem hy)
        rw [List.getElem?_set_ne hne]
        exact hslots y (List.mem_cons_of_mem x hy)
      rw [List.map_cons, takeSlots, hslots x (List.mem_cons_self ..)]
      simp only []
      rw [ih hrest hnodup]
      rfl

/-- The sort of places comes to what the sort of elements comes to. It never
looks for an element where there is none, and its buffer always fits. -/
theorem sortByPlaces_eq (items : List α) :
    sortByPlaces compare? items = (stableSort compare? items).mapError .incomparable := by
  have hplaced := placedIn_zipIdx items
  have hsort := @sortPlaces_range α compare? items
  unfold sortByPlaces stableSort
  cases hrun : sortRun compare? items.zipIdx with
  | error places =>
      rw [hrun] at hsort
      rw [eq_error_of_map_fst hsort]
      rfl
  | ok run =>
      rw [hrun] at hsort
      obtain ⟨buffer, hbuffer⟩ := exists_of_map_fst_eq_ok hsort
      have hperm := (sortsTo_of_sortRun hrun).perm
      have hnodup : (run.map Prod.snd).Nodup := by
        rw [(hperm.map Prod.snd).nodup_iff, map_snd_zipIdx]
        exact List.nodup_range
      have hslots : ∀ x ∈ run, (items.map some)[x.2]? = some (some x.1) := by
        intro x hx
        rw [List.getElem?_map, hplaced.perm hperm x hx]
        rfl
      rw [hbuffer]
      exact takeSlots_eq hslots hnodup

end

end MailMerge
