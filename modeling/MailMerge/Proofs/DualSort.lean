import MailMerge.Proofs.Neighbours
import MailMerge.Proofs.PlaceRefine

/-!
# Sorting by a dual comparison

A comparison may answer in circles, as long as it is dual. Then a sort still
comes to one of two ends. Either it has met two elements without an order, or it
has brought every element to one place of the result, where neighbours have an
order and the later one of them is not less.

How it gets there is a matter of the places that are moved. At each level of the
sort a run of places is given, and all that is known about it is that they are
places of the list. That is enough: the buffer holds each place of the two runs
once when they are merged (`mergePlaces_ends`), so it has the length of the run
that it is copied over (`sortPlaces_ends`), whatever it held before.
-/

namespace MailMerge

section

variable {α : Type} {compare? : α → α → Option Ordering} {items : List α}

/-! ## Runs of places -/

/-- The places of a run are places of the list. -/
def PlacesOf (items : List α) (run : List Nat) : Prop :=
  ∀ place ∈ run, place < items.length

/-- The elements at the places of a run can be carried along with them. -/
theorem PlacesOf.exists_placedIn {run : List Nat} (h : PlacesOf items run) :
    ∃ elements, PlacedIn items elements ∧ elements.map Prod.snd = run := by
  induction run with
  | nil => exact ⟨[], fun _ hx => absurd hx List.not_mem_nil, rfl⟩
  | cons place run ih =>
      obtain ⟨elements, hplaced, hrun⟩ := ih fun p hp => h p (List.mem_cons_of_mem place hp)
      have hplace : place < items.length := h place (List.mem_cons_self ..)
      refine ⟨(items[place], place) :: elements, fun x hx => ?_, ?_⟩
      · rcases List.mem_cons.mp hx with rfl | hx
        · exact List.getElem?_eq_getElem hplace
        · exact hplaced x hx
      · rw [List.map_cons, hrun]

/-- A merge stops at two elements without an order or fills the buffer with the
places of both runs. -/
theorem mergePlaces_ends {left right : List Nat} (hleft : PlacesOf items left)
    (hright : PlacesOf items right) :
    (∃ places, mergePlaces compare? items left right 0 0 [] = .error (.incomparable places)) ∨
      ∃ buffer, mergePlaces compare? items left right 0 0 [] = .ok buffer ∧
        buffer.Perm (left ++ right) := by
  obtain ⟨front, hfront, rfl⟩ := hleft.exists_placedIn
  obtain ⟨back, hback, rfl⟩ := hright.exists_placedIn
  rw [mergePlaces_eq hfront hback _ 0 0 [] (Nat.le_refl _), List.drop_zero, List.drop_zero]
  cases hmerge : mergeRuns compare? front back with
  | error places => exact .inl ⟨places, rfl⟩
  | ok merged =>
      refine .inr ⟨merged.map Prod.snd, rfl, ?_⟩
      rw [← List.map_append]
      exact (mergesTo_of_mergeRuns hmerge).perm.map Prod.snd

/-- After the last merge of a run the buffer holds what was copied over the run. -/
theorem buffer_of_sortPlaces_ok {run buffer sorted left : List Nat} (hlong : ¬run.length < 2)
    (h : sortPlaces compare? items run buffer = .ok (sorted, left)) : left = sorted := by
  rw [sortPlaces, if_neg hlong] at h
  cases hfront : sortPlaces compare? items (run.take (run.length / 2)) buffer with
  | error stop => rw [hfront] at h; cases h
  | ok front =>
      cases hback : sortPlaces compare? items (run.drop (run.length / 2)) front.2 with
      | error stop => rw [hfront] at h; simp only [Except.bind, hback] at h; cases h
      | ok back =>
          cases hmerge : mergePlaces compare? items front.1 back.1 0 0 [] with
          | error stop =>
              rw [hfront] at h
              simp only [Except.bind, hback, hmerge] at h
              cases h
          | ok merged =>
              rw [hfront] at h
              simp only [Except.bind, hback, hmerge] at h
              split at h
              · cases h
                rfl
              · cases h

/-- At any level of a sort, the run of places is left in another order, or two
elements without an order have been met. Nothing else stops the sort, and the
buffer is left as long as the run if there was something to merge. -/
theorem sortPlaces_ends {run : List Nat} (hrun : PlacesOf items run) (buffer : List Nat) :
    (∃ places, sortPlaces compare? items run buffer = .error (.incomparable places)) ∨
      ∃ sorted left, sortPlaces compare? items run buffer = .ok (sorted, left) ∧
        sorted.Perm run ∧ (¬run.length < 2 → left.length = run.length) := by
  -- With the elements beside their places this is the sort of a run of elements.
  obtain ⟨elements, hplaced, rfl⟩ := hrun.exists_placedIn
  have hsort := @sortPlaces_eq α compare? items elements hplaced buffer
  cases hrun : sortRun compare? elements with
  | error places =>
      rw [hrun] at hsort
      exact .inl ⟨places, eq_error_of_map_fst hsort⟩
  | ok sorted =>
      rw [hrun] at hsort
      obtain ⟨left, hleft⟩ := exists_of_map_fst_eq_ok hsort
      have hperm := (sortsTo_of_sortRun hrun).perm.map Prod.snd
      refine .inr ⟨sorted.map Prod.snd, left, hleft, hperm, fun hlong => ?_⟩
      rw [buffer_of_sortPlaces_ok hlong hleft, hperm.length_eq]

/-! ## The result -/

/-- The result of a sort has the element of every place once. -/
theorem SortsTo.exists_order {run : List (α × Nat)} (h : SortsTo compare? items.zipIdx run) :
    ∃ order : List Nat, order.Perm (List.range items.length) ∧
      order.map (items[·]?) = (run.map Prod.fst).map some := by
  refine ⟨run.map Prod.snd, ?_, ?_⟩
  · rw [← map_snd_zipIdx items]
    exact h.perm.map Prod.snd
  · rw [List.map_map, List.map_map]
    exact List.map_congr_left ((placedIn_zipIdx items).perm h.perm)

/-- What is at most another element has an order with it, and the other one is
not less. -/
theorem Dual.in_order_of_atMost (h : Dual compare?) {a b : α} (hab : AtMost compare? a b) :
    (compare? a b).isSome ∧ compare? b a ≠ some .lt := by
  refine ⟨hab.isSome, fun hlt => ?_⟩
  rw [h a b] at hlt
  rcases hab with hab | hab
  · rw [hab] at hlt; cases hlt
  · rw [hab] at hlt; cases hlt

/-- A sort by a comparison that is dual, and need not be transitive, fails only
with the places of two elements that have no order. Otherwise it brings the
element of every place to one place of the result, where any two neighbours have
an order and the later one is not less. On the way each merge fills the buffer
with the places of its two runs, and at every level the buffer is as long as the
run of places that it is copied over. -/
theorem sortByPlaces_dual (h : Dual compare?) (items : List α) :
    ((∃ places a b, stableSort compare? items = .error places ∧
        sortByPlaces compare? items = .error (.incomparable places) ∧
        places.left < places.right ∧ places.right < items.length ∧
        items[places.left]? = some a ∧ items[places.right]? = some b ∧
        compare? a b = none ∧ compare? b a = none) ∨
      ∃ (order : List Nat) (sorted : List α), stableSort compare? items = .ok sorted ∧
        sortByPlaces compare? items = .ok sorted ∧
        order.Perm (List.range items.length) ∧ order.map (items[·]?) = sorted.map some ∧
        sorted.Perm items ∧
        sorted.IsChain fun a b => (compare? a b).isSome ∧ compare? b a ≠ some .lt) ∧
    (∀ left right, PlacesOf items left → PlacesOf items right →
      (∃ places, mergePlaces compare? items left right 0 0 [] = .error (.incomparable places)) ∨
      ∃ buffer, mergePlaces compare? items left right 0 0 [] = .ok buffer ∧
        buffer.Perm (left ++ right)) ∧
    ∀ run buffer, PlacesOf items run →
      (∃ places, sortPlaces compare? items run buffer = .error (.incomparable places)) ∨
      ∃ sorted left, sortPlaces compare? items run buffer = .ok (sorted, left) ∧
        sorted.Perm run ∧ (¬run.length < 2 → left.length = run.length) := by
  refine ⟨?_, fun left right => mergePlaces_ends, fun run buffer hrun =>
    sortPlaces_ends hrun buffer⟩
  rw [sortByPlaces_eq]
  cases hsort : stableSort compare? items with
  | error places =>
      obtain ⟨hlt, a, b, ha, hb, hnone⟩ := exists_of_stableSort_error hsort
      have hab : compare? a b = none := by
        rw [h b a, hnone]
        rfl
      exact .inl ⟨places, a, b, rfl, rfl, hlt, (List.getElem?_eq_some_iff.mp hb).1, ha, hb,
        hab, hnone⟩
  | ok sorted =>
      obtain ⟨run, hrun, rfl⟩ := exists_of_stableSort_ok hsort
      obtain ⟨order, horder, helements⟩ := hrun.exists_order
      refine .inr ⟨order, _, rfl, rfl, horder, helements, hrun.perm_fst, ?_⟩
      exact (h.isChain_atMost hsort).imp fun _ _ => h.in_order_of_atMost

/-- Three things in a circle, each of which beats the one before it. -/
def circleOrder (a b : Fin 3) : Option Ordering :=
  if a = b then some .eq else if b = a + 1 then some .lt else some .gt

/-- A list of the three has no order in which all of it would be sorted, but
neighbours are in order in what the sort makes of it. -/
theorem sortByPlaces_circle :
    Dual circleOrder ∧
      (circleOrder 0 1 = some .lt ∧ circleOrder 1 2 = some .lt ∧ circleOrder 2 0 = some .lt) ∧
      ∃ sorted, sortByPlaces circleOrder [2, 1, 0, 1] = .ok sorted ∧
        sorted.IsChain fun a b => (circleOrder a b).isSome ∧ circleOrder b a ≠ some .lt := by
  have hdual : Dual circleOrder := by
    unfold Dual
    decide
  refine ⟨hdual, by decide, ?_⟩
  rcases (sortByPlaces_dual hdual [2, 1, 0, 1]).1 with h | h
  · obtain ⟨_, a, b, _, _, _, _, _, _, hnone, _⟩ := h
    have hsome : ∀ a b, circleOrder a b ≠ none := by decide
    exact absurd hnone (hsome a b)
  · obtain ⟨_, sorted, _, hok, _, _, _, hchain⟩ := h
    exact ⟨sorted, hok, hchain⟩

end

end MailMerge
