import MailMerge.Order.StableSort

/-!
# What a merge has seen

A merge that ends well has asked the comparison about some pairs of heads, and
its result says which way every answer went. `MergesTo` writes that down: one
step for each way of taking a head, with the answer that led to it. `SortsTo`
puts such merges together the way the sort does. Everything there is to prove of
a sort that succeeds is an induction over these two, and no proof after
`sortsTo_of_sortRun` looks at the program again.

Two things come out at once. A sort permutes its run. And a relation that every
answer of the comparison agrees with, and that is transitive on the run, holds
between all elements of the result, the earlier and the later one, although only
some pairs of them were ever compared (`SortsTo.pairwise`). Which relation that
is differs from theorem to theorem; the argument does not.

A sort that fails has met two elements without an order, the first one in front
of the second, and names their places (`sublist_of_sortRun_error`).
-/

namespace MailMerge

section

variable {α : Type} {compare? : α → α → Option Ordering}

theorem mergeRuns_nil_left (right : List (α × Nat)) :
    mergeRuns compare? [] right = .ok right := by
  rw [mergeRuns]

theorem mergeRuns_nil_right (left : List (α × Nat)) :
    mergeRuns compare? left [] = .ok left := by
  cases left with
  | nil => rw [mergeRuns]
  | cons a left => rw [mergeRuns]; simp

/-- A merge that ended well, by the answers that it got. -/
inductive MergesTo (compare? : α → α → Option Ordering) :
    List (α × Nat) → List (α × Nat) → List (α × Nat) → Prop
  | leftDone (right : List (α × Nat)) : MergesTo compare? [] right right
  | rightDone (left : List (α × Nat)) : MergesTo compare? left [] left
  | takeLeft {a b : α × Nat} {left right merged : List (α × Nat)} {o : Ordering}
      (answer : compare? b.1 a.1 = some o) (notLess : o ≠ .lt)
      (tail : MergesTo compare? left (b :: right) merged) :
      MergesTo compare? (a :: left) (b :: right) (a :: merged)
  | takeRight {a b : α × Nat} {left right merged : List (α × Nat)}
      (answer : compare? b.1 a.1 = some .lt)
      (tail : MergesTo compare? (a :: left) right merged) :
      MergesTo compare? (a :: left) (b :: right) (b :: merged)

/-- A sort that ended well, by its merges. -/
inductive SortsTo (compare? : α → α → Option Ordering) :
    List (α × Nat) → List (α × Nat) → Prop
  | short {run : List (α × Nat)} (h : run.length < 2) : SortsTo compare? run run
  | halves {front back left right merged : List (α × Nat)}
      (sortFront : SortsTo compare? front left) (sortBack : SortsTo compare? back right)
      (merge : MergesTo compare? left right merged) :
      SortsTo compare? (front ++ back) merged

theorem mergesTo_of_mergeRuns {left right merged : List (α × Nat)}
    (h : mergeRuns compare? left right = .ok merged) :
    MergesTo compare? left right merged := by
  fun_induction mergeRuns compare? left right generalizing merged with
  | case1 right => cases h; exact .leftDone right
  | case2 left => cases h; exact .rightDone left
  | case3 a left b right answer ih =>
      cases htail : mergeRuns compare? (a :: left) right with
      | error places => rw [htail] at h; cases h
      | ok tail =>
          rw [htail] at h
          cases h
          exact .takeRight answer (ih htail)
  | case4 a left b right o notLess answer ih =>
      cases htail : mergeRuns compare? left (b :: right) with
      | error places => rw [htail] at h; cases h
      | ok tail =>
          rw [htail] at h
          cases h
          exact .takeLeft answer notLess (ih htail)
  | case5 => cases h

theorem sortsTo_of_sortRun {run sorted : List (α × Nat)}
    (h : sortRun compare? run = .ok sorted) : SortsTo compare? run sorted := by
  fun_induction sortRun compare? run generalizing sorted with
  | case1 run hshort => cases h; exact .short hshort
  | case2 run hlong ihFront ihBack =>
      cases hfront : sortRun compare? (run.take (run.length / 2)) with
      | error places => rw [hfront] at h; cases h
      | ok left =>
          cases hback : sortRun compare? (run.drop (run.length / 2)) with
          | error places => rw [hfront, hback] at h; cases h
          | ok right =>
              rw [hfront, hback] at h
              rw [← List.take_append_drop (run.length / 2) run]
              exact .halves (ihFront hfront) (ihBack hback) (mergesTo_of_mergeRuns h)

/-! ## Nothing is lost -/

theorem MergesTo.perm {left right merged : List (α × Nat)}
    (h : MergesTo compare? left right merged) : merged.Perm (left ++ right) := by
  induction h with
  | leftDone right => exact .refl right
  | rightDone left => rw [List.append_nil]
  | takeLeft _ _ _ ih => exact ih.cons _
  | takeRight _ _ ih => exact (ih.cons _).trans List.perm_middle.symm

theorem SortsTo.perm {run sorted : List (α × Nat)}
    (h : SortsTo compare? run sorted) : sorted.Perm run := by
  induction h with
  | short => exact .refl _
  | halves _ _ merge ihFront ihBack => exact merge.perm.trans (ihFront.append ihBack)

/-! ## What every answer agrees with holds throughout -/

/-- A relation agrees with the answer about two heads, `a` of the left run and
`b` of the right one, if it holds in the order in which the two are taken. -/
def Agrees (compare? : α → α → Option Ordering) (R : α × Nat → α × Nat → Prop)
    (a b : α × Nat) : Prop :=
  (compare? b.1 a.1 = some .lt → R b a) ∧
    ∀ o, compare? b.1 a.1 = some o → o ≠ .lt → R a b

/-- A relation is transitive on the elements of a run. -/
def TransOn (R : α × Nat → α × Nat → Prop) (run : List (α × Nat)) : Prop :=
  ∀ x ∈ run, ∀ y ∈ run, ∀ z ∈ run, R x y → R y z → R x z

theorem TransOn.mono {R : α × Nat → α × Nat → Prop} {run run' : List (α × Nat)}
    (h : TransOn R run) (hsub : run' ⊆ run) : TransOn R run' :=
  fun x hx y hy z hz => h x (hsub hx) y (hsub hy) z (hsub hz)

theorem MergesTo.pairwise {R : α × Nat → α × Nat → Prop}
    {left right merged : List (α × Nat)} (h : MergesTo compare? left right merged)
    (htrans : TransOn R (left ++ right))
    (hagrees : ∀ a ∈ left, ∀ b ∈ right, Agrees compare? R a b)
    (hleft : left.Pairwise R) (hright : right.Pairwise R) : merged.Pairwise R := by
  induction h with
  | leftDone => exact hright
  | rightDone => exact hleft
  | @takeLeft a b left right merged o answer notLess tail ih =>
      obtain ⟨ha, hrest⟩ := List.pairwise_cons.mp hleft
      have hab : R a b :=
        (hagrees a (List.mem_cons_self ..) b (List.mem_cons_self ..)).2 o answer notLess
      refine List.Pairwise.cons ?_ (ih ?_ ?_ hrest hright)
      · intro z hz
        rcases List.mem_append.mp (tail.perm.mem_iff.mp hz) with hz | hz
        · exact ha z hz
        · rcases List.mem_cons.mp hz with rfl | hz
          · exact hab
          · exact htrans a (by simp) b (by simp) z (by simp [hz]) hab
              (List.rel_of_pairwise_cons hright hz)
      · exact htrans.mono (by simp)
      · exact fun x hx y hy => hagrees x (List.mem_cons_of_mem a hx) y hy
  | @takeRight a b left right merged answer tail ih =>
      obtain ⟨hb, hrest⟩ := List.pairwise_cons.mp hright
      have hba : R b a :=
        (hagrees a (List.mem_cons_self ..) b (List.mem_cons_self ..)).1 answer
      refine List.Pairwise.cons ?_ (ih ?_ ?_ hleft hrest)
      · intro z hz
        rcases List.mem_append.mp (tail.perm.mem_iff.mp hz) with hz | hz
        · rcases List.mem_cons.mp hz with rfl | hz
          · exact hba
          · exact htrans b (by simp) a (by simp) z (by simp [hz]) hba
              (List.rel_of_pairwise_cons hleft hz)
        · exact hb z hz
      · refine htrans.mono ?_
        intro x hx
        rcases List.mem_append.mp hx with hx | hx
        · exact List.mem_append_left _ hx
        · exact List.mem_append_right _ (List.mem_cons_of_mem b hx)
      · exact fun x hx y hy => hagrees x hx y (List.mem_cons_of_mem b hy)

/-- If every answer about an element and a later one agrees with a relation that
is transitive on the run, the relation holds between each element of the result
and all that come after it. -/
theorem SortsTo.pairwise {R : α × Nat → α × Nat → Prop} {run sorted : List (α × Nat)}
    (h : SortsTo compare? run sorted) (htrans : TransOn R run)
    (hagrees : run.Pairwise (Agrees compare? R)) : sorted.Pairwise R := by
  induction h with
  | @short run hshort =>
      match run, hshort with
      | [], _ => exact .nil
      | [x], _ => exact List.pairwise_singleton R x
  | @halves front back left right merged sortFront sortBack merge ihFront ihBack =>
      obtain ⟨hfront, hback, hcross⟩ := List.pairwise_append.mp hagrees
      refine merge.pairwise ?_ ?_ (ihFront ?_ hfront) (ihBack ?_ hback)
      · exact htrans.mono (sortFront.perm.append sortBack.perm).subset
      · intro a ha b hb
        exact hcross a (sortFront.perm.mem_iff.mp ha) b (sortBack.perm.mem_iff.mp hb)
      · exact htrans.mono (List.subset_append_left ..)
      · exact htrans.mono (List.subset_append_right ..)

/-! ## A sort that fails -/

theorem exists_of_mergeRuns_error {left right : List (α × Nat)} {places : Incomparable}
    (h : mergeRuns compare? left right = .error places) :
    ∃ a ∈ left, ∃ b ∈ right, compare? b.1 a.1 = none ∧
      places = ⟨min a.2 b.2, max a.2 b.2⟩ := by
  fun_induction mergeRuns compare? left right with
  | case1 => cases h
  | case2 => cases h
  | case3 a left b right answer ih =>
      cases htail : mergeRuns compare? (a :: left) right with
      | error places =>
          rw [htail] at h
          cases h
          obtain ⟨x, hx, y, hy, hnone⟩ := ih htail
          exact ⟨x, hx, y, List.mem_cons_of_mem b hy, hnone⟩
      | ok tail => rw [htail] at h; cases h
  | case4 a left b right o notLess answer ih =>
      cases htail : mergeRuns compare? left (b :: right) with
      | error places =>
          rw [htail] at h
          cases h
          obtain ⟨x, hx, y, hy, hnone⟩ := ih htail
          exact ⟨x, List.mem_cons_of_mem a hx, y, hy, hnone⟩
      | ok tail => rw [htail] at h; cases h
  | case5 a left b right answer =>
      cases h
      exact ⟨a, List.mem_cons_self .., b, List.mem_cons_self .., answer, rfl⟩

/-- Two elements that the sort found no order for stand in the run one behind
the other, and the error has their places. -/
theorem sublist_of_sortRun_error {run : List (α × Nat)} {places : Incomparable}
    (h : sortRun compare? run = .error places) :
    ∃ a b, [a, b].Sublist run ∧ compare? b.1 a.1 = none ∧
      places = ⟨min a.2 b.2, max a.2 b.2⟩ := by
  fun_induction sortRun compare? run with
  | case1 => cases h
  | case2 run hlong ihFront ihBack =>
      cases hfront : sortRun compare? (run.take (run.length / 2)) with
      | error places =>
          rw [hfront] at h
          cases h
          obtain ⟨a, b, hsub, hnone⟩ := ihFront hfront
          exact ⟨a, b, hsub.trans (List.take_sublist ..), hnone⟩
      | ok left =>
          cases hback : sortRun compare? (run.drop (run.length / 2)) with
          | error places =>
              rw [hfront, hback] at h
              cases h
              obtain ⟨a, b, hsub, hnone⟩ := ihBack hback
              exact ⟨a, b, hsub.trans (List.drop_sublist ..), hnone⟩
          | ok right =>
              rw [hfront, hback] at h
              obtain ⟨a, ha, b, hb, hnone⟩ := exists_of_mergeRuns_error h
              refine ⟨a, b, ?_, hnone⟩
              rw [← List.take_append_drop (run.length / 2) run]
              have ha' := (sortsTo_of_sortRun hfront).perm.mem_iff.mp ha
              have hb' := (sortsTo_of_sortRun hback).perm.mem_iff.mp hb
              exact (List.singleton_sublist.mpr ha').append (List.singleton_sublist.mpr hb')

/-! ## The sort of a list -/

theorem exists_of_stableSort_ok {items sorted : List α}
    (h : stableSort compare? items = .ok sorted) :
    ∃ run, SortsTo compare? items.zipIdx run ∧ sorted = run.map Prod.fst := by
  unfold stableSort at h
  cases hrun : sortRun compare? items.zipIdx with
  | error places => rw [hrun] at h; cases h
  | ok run =>
      rw [hrun] at h
      cases h
      exact ⟨run, sortsTo_of_sortRun hrun, rfl⟩

theorem SortsTo.perm_fst {items : List α} {run : List (α × Nat)}
    (h : SortsTo compare? items.zipIdx run) : (run.map Prod.fst).Perm items := by
  have hperm := h.perm.map Prod.fst
  rwa [List.zipIdx_map_fst] at hperm

theorem perm_of_stableSort_ok {items sorted : List α}
    (h : stableSort compare? items = .ok sorted) : sorted.Perm items := by
  obtain ⟨run, hsort, rfl⟩ := exists_of_stableSort_ok h
  exact hsort.perm_fst

theorem mem_of_mem_zipIdx {items : List α} {x : α × Nat} (h : x ∈ items.zipIdx) :
    x.1 ∈ items :=
  List.mem_of_getElem? (List.mem_zipIdx_iff_getElem?.mp h)

theorem zipIdx_pairwise_snd_lt (items : List α) :
    items.zipIdx.Pairwise fun x y => x.2 < y.2 := by
  have h : (items.zipIdx.map Prod.snd).Pairwise (· < ·) := by
    rw [List.zipIdx_map_snd]
    exact List.pairwise_lt_range'
  exact List.pairwise_map.mp h

/-- The places of a failure are places of the list, the smaller one first, and
the elements there have no order. -/
theorem exists_of_stableSort_error {items : List α} {places : Incomparable}
    (h : stableSort compare? items = .error places) :
    places.left < places.right ∧ ∃ a b, items[places.left]? = some a ∧
      items[places.right]? = some b ∧ compare? b a = none := by
  unfold stableSort at h
  cases hrun : sortRun compare? items.zipIdx with
  | ok run => rw [hrun] at h; cases h
  | error places =>
      rw [hrun] at h
      cases h
      obtain ⟨a, b, hsub, hnone, rfl⟩ := sublist_of_sortRun_error hrun
      have hlt : a.2 < b.2 :=
        List.rel_of_pairwise_cons ((zipIdx_pairwise_snd_lt items).sublist hsub)
          (List.mem_singleton_self b)
      rw [Nat.min_eq_left (Nat.le_of_lt hlt), Nat.max_eq_right (Nat.le_of_lt hlt)]
      have ha : a ∈ items.zipIdx := hsub.subset (by simp)
      have hb : b ∈ items.zipIdx := hsub.subset (by simp)
      exact ⟨hlt, a.1, b.1, List.mem_zipIdx_iff_getElem?.mp ha,
        List.mem_zipIdx_iff_getElem?.mp hb, hnone⟩

end

end MailMerge
