import MailMerge.Proofs.NaturalOrder
import Mathlib.Data.List.Chain

/-!
# Neighbours in a sorted list

Where the comparison is not transitive, the answers of a merge say nothing about
elements far apart. About neighbours they always do. Two neighbours in a merged
run were neighbours in one of the two runs, or they stood at the heads of the
runs together when the first one was taken, and then there was an answer about
them. So a relation that every answer agrees with holds all along the result
(`SortsTo.isChain`), whether it is transitive or not.

The relation of interest is "at most", and all that it takes is a comparison
that is dual: asked in the other order it gives the opposite answer.
-/

namespace MailMerge

section

variable {α : Type} {compare? : α → α → Option Ordering} {items : List α}

/-! ## Merges keep chains -/

/-- The first element of a merged run is the first one of one of the two. -/
theorem MergesTo.head?_eq {left right merged : List (α × Nat)}
    (h : MergesTo compare? left right merged) :
    merged.head? = left.head? ∨ merged.head? = right.head? := by
  cases h with
  | leftDone => exact .inr rfl
  | rightDone => exact .inl rfl
  | takeLeft => exact .inl rfl
  | takeRight => exact .inr rfl

theorem MergesTo.isChain {R : α × Nat → α × Nat → Prop}
    {left right merged : List (α × Nat)} (h : MergesTo compare? left right merged)
    (hagrees : ∀ a ∈ left, ∀ b ∈ right, Agrees compare? R a b)
    (hleft : left.IsChain R) (hright : right.IsChain R) : merged.IsChain R := by
  induction h with
  | leftDone => exact hright
  | rightDone => exact hleft
  | @takeLeft a b left right merged o answer notLess tail ih =>
      have hab : R a b :=
        (hagrees a (List.mem_cons_self ..) b (List.mem_cons_self ..)).2 o answer notLess
      obtain ⟨hnext, hrest⟩ := List.isChain_cons.mp hleft
      refine (ih ?_ hrest hright).cons ?_
      · exact fun x hx y hy => hagrees x (List.mem_cons_of_mem a hx) y hy
      · intro y hy
        rcases tail.head?_eq with heq | heq
        · exact hnext y (heq ▸ hy)
        · rw [heq] at hy
          cases hy
          exact hab
  | @takeRight a b left right merged answer tail ih =>
      have hba : R b a :=
        (hagrees a (List.mem_cons_self ..) b (List.mem_cons_self ..)).1 answer
      obtain ⟨hnext, hrest⟩ := List.isChain_cons.mp hright
      refine (ih ?_ hleft hrest).cons ?_
      · exact fun x hx y hy => hagrees x hx y (List.mem_cons_of_mem b hy)
      · intro y hy
        rcases tail.head?_eq with heq | heq
        · rw [heq] at hy
          cases hy
          exact hba
        · exact hnext y (heq ▸ hy)

/-- If every answer about an element and a later one agrees with a relation, the
relation holds between any two neighbours of the result. -/
theorem SortsTo.isChain {R : α × Nat → α × Nat → Prop} {run sorted : List (α × Nat)}
    (h : SortsTo compare? run sorted) (hagrees : run.Pairwise (Agrees compare? R)) :
    sorted.IsChain R := by
  induction h with
  | @short run hshort =>
      match run, hshort with
      | [], _ => exact .nil
      | [x], _ => exact .singleton x
  | @halves front back left right merged sortFront sortBack merge ihFront ihBack =>
      obtain ⟨hfront, hback, hcross⟩ := List.pairwise_append.mp hagrees
      refine merge.isChain ?_ (ihFront hfront) (ihBack hback)
      intro a ha b hb
      exact hcross a (sortFront.perm.mem_iff.mp ha) b (sortBack.perm.mem_iff.mp hb)

/-! ## Dual comparisons -/

/-- Asked in the other order the comparison gives the opposite answer. -/
def Dual (compare? : α → α → Option Ordering) : Prop :=
  ∀ a b, compare? b a = (compare? a b).map Ordering.swap

theorem Dual.agrees (h : Dual compare?) {R : α × Nat → α × Nat → Prop}
    (hR : ∀ x y, AtMost compare? x.1 y.1 → R x y) (a b : α × Nat) :
    Agrees compare? R a b := by
  refine ⟨fun hlt => hR b a (.inl hlt), fun o ho hne => hR a b ?_⟩
  exact atMost_of_answer (h b.1 a.1) ho hne

/-- An element of a sorted list is at most its right neighbour. -/
theorem Dual.isChain_atMost (h : Dual compare?) {sorted : List α}
    (hok : stableSort compare? items = .ok sorted) :
    sorted.IsChain (AtMost compare?) := by
  obtain ⟨run, hsort, rfl⟩ := exists_of_stableSort_ok hok
  rw [List.isChain_map]
  exact hsort.isChain (List.pairwise_of_forall (h.agrees fun _ _ => id))

/-- What follows from "at most" and is transitive holds between each element of
a sorted list and all that come after it. -/
theorem Dual.pairwise (h : Dual compare?) {R : α → α → Prop}
    (hR : ∀ a b, AtMost compare? a b → R a b) (htrans : ∀ a b c, R a b → R b c → R a c)
    {sorted : List α} (hok : stableSort compare? items = .ok sorted) :
    sorted.Pairwise R := by
  obtain ⟨run, hsort, rfl⟩ := exists_of_stableSort_ok hok
  rw [List.pairwise_map]
  refine hsort.pairwise ?_ (List.pairwise_of_forall (h.agrees fun x y => hR x.1 y.1))
  exact fun x _ y _ z _ => htrans x.1 y.1 z.1

end

end MailMerge
