import MailMerge.Proofs.PlaceRefine

/-!
# Sorting elements by what they look like

A sort knows its elements only through the answers of the comparison. If every
element of a list is replaced by one that compares like it, the sort takes the
same steps, and either ends with the replacements in the same order or stops at
the same two places.

The induction follows the merges. It asks for equal answers about the elements of
a run only, because that is where comparisons of two different kinds of elements
can be expected to agree.
-/

namespace MailMerge

section

variable {α β : Type} {compare? : α → α → Option Ordering}
  {compareView? : β → β → Option Ordering} {view : α → β}

/-- An element of a run in another view, at the same place. -/
def viewed (view : α → β) (x : α × Nat) : β × Nat :=
  (view x.1, x.2)

theorem mergeRuns_map {left right : List (α × Nat)}
    (h : ∀ a ∈ left, ∀ b ∈ right, compareView? (view b.1) (view a.1) = compare? b.1 a.1) :
    mergeRuns compareView? (left.map (viewed view)) (right.map (viewed view))
      = (mergeRuns compare? left right).map (List.map (viewed view)) := by
  fun_induction mergeRuns compare? left right with
  | case1 right => exact mergeRuns_nil_left _
  | case2 left => exact mergeRuns_nil_right _
  | case3 a left b right answer ih =>
      have hhead := h a (List.mem_cons_self ..) b (List.mem_cons_self ..)
      have htail := ih fun x hx y hy => h x hx y (List.mem_cons_of_mem b hy)
      rw [List.map_cons] at htail
      rw [List.map_cons, List.map_cons, mergeRuns]
      simp only [viewed, hhead, answer] at htail ⊢
      rw [htail]
      cases mergeRuns compare? (a :: left) right <;> rfl
  | case4 a left b right o notLess answer ih =>
      have hhead := h a (List.mem_cons_self ..) b (List.mem_cons_self ..)
      have htail := ih fun x hx y hy => h x (List.mem_cons_of_mem a hx) y hy
      rw [List.map_cons] at htail
      rw [List.map_cons, List.map_cons, mergeRuns]
      simp only [viewed, hhead, answer] at htail ⊢
      rw [htail]
      cases mergeRuns compare? left (b :: right) <;> rfl
  | case5 a left b right answer =>
      have hhead := h a (List.mem_cons_self ..) b (List.mem_cons_self ..)
      rw [List.map_cons, List.map_cons, mergeRuns]
      simp only [viewed, hhead, answer]
      rfl

theorem sortRun_map {run : List (α × Nat)}
    (h : ∀ a ∈ run, ∀ b ∈ run, compareView? (view b.1) (view a.1) = compare? b.1 a.1) :
    sortRun compareView? (run.map (viewed view))
      = (sortRun compare? run).map (List.map (viewed view)) := by
  fun_induction sortRun compare? run with
  | case1 run hshort =>
      rw [sortRun, List.length_map, if_pos hshort]
      rfl
  | case2 run hlong ihFront ihBack =>
      have hfront := ihFront fun a ha b hb =>
        h a (List.mem_of_mem_take ha) b (List.mem_of_mem_take hb)
      have hback := ihBack fun a ha b hb =>
        h a (List.mem_of_mem_drop ha) b (List.mem_of_mem_drop hb)
      rw [sortRun, List.length_map, if_neg hlong, ← List.map_take, ← List.map_drop, hfront,
        hback]
      cases hleft : sortRun compare? (run.take (run.length / 2)) with
      | error places => rfl
      | ok left =>
          cases hright : sortRun compare? (run.drop (run.length / 2)) with
          | error places => rfl
          | ok right =>
              -- The halves have the elements of the run that they were cut from.
              refine mergeRuns_map fun a ha b hb => h a ?_ b ?_
              · exact List.mem_of_mem_take ((sortsTo_of_sortRun hleft).perm.mem_iff.mp ha)
              · exact List.mem_of_mem_drop ((sortsTo_of_sortRun hright).perm.mem_iff.mp hb)

theorem sortRun_zipIdx_map {items : List α}
    (h : ∀ a ∈ items, ∀ b ∈ items, compareView? (view a) (view b) = compare? a b) :
    sortRun compareView? (items.map view).zipIdx
      = (sortRun compare? items.zipIdx).map (List.map (viewed view)) := by
  have hrun : (items.map view).zipIdx = items.zipIdx.map (viewed view) := by
    rw [List.zipIdx_map]
    rfl
  rw [hrun]
  exact sortRun_map fun a ha b hb => h b.1 (mem_of_mem_zipIdx hb) a.1 (mem_of_mem_zipIdx ha)

/-- Elements that compare like other ones are sorted like them, and the sort
stops at the same places. -/
theorem stableSort_map {items : List α}
    (h : ∀ a ∈ items, ∀ b ∈ items, compareView? (view a) (view b) = compare? a b) :
    stableSort compareView? (items.map view)
      = (stableSort compare? items).map (List.map view) := by
  unfold stableSort
  rw [sortRun_zipIdx_map h]
  cases sortRun compare? items.zipIdx with
  | error places => rfl
  | ok run => simp [Except.map, viewed]

/-- The places of elements that compare like other ones come into the same
order. -/
theorem sortPlaces_map {items : List α}
    (h : ∀ a ∈ items, ∀ b ∈ items, compareView? (view a) (view b) = compare? a b) :
    (sortPlaces compareView? (items.map view) (List.range (items.map view).length) []).map
        Prod.fst
      = (sortPlaces compare? items (List.range items.length) []).map Prod.fst := by
  rw [sortPlaces_range, sortPlaces_range, sortRun_zipIdx_map h]
  cases sortRun compare? items.zipIdx with
  | error places => rfl
  | ok run =>
      simp only [Except.map, List.map_map]
      rfl

end

end MailMerge
