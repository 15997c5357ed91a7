import MailMerge.Proofs.NaturalOrder
import MailMerge.Proofs.PlaceRefine

/-!
# The stable sort

Where the comparison has an answer for any two elements of a list, a sort of the
list comes through, and there is only one list that it can come to. That list is
said here without a word about merging: it has the elements, no element is less
than one in front of it, and the elements equal to some element stand as they
stood.

That the result of the sort is such a list is one more case of
`SortsTo.pairwise`, with "less, or equal and from an earlier place" for the
relation. That there is no other one is an induction along two such lists: their
heads are tied, so both are the first of the elements that they are tied with.
-/

namespace MailMerge

section

variable {α : Type} {compare? : α → α → Option Ordering} {items : List α}

/-- The comparison has an answer for any two elements of a list. -/
def TotalOn (compare? : α → α → Option Ordering) (items : List α) : Prop :=
  ∀ a ∈ items, ∀ b ∈ items, (compare? a b).isSome

/-- The comparison finds the two elements equal. -/
def isTied (compare? : α → α → Option Ordering) (a b : α) : Bool :=
  compare? a b == some .eq

theorem isTied_iff {a b : α} : isTied compare? a b = true ↔ compare? a b = some .eq :=
  beq_iff_eq

/-- A list in order: no element is less than one in front of it, and those that
compare equal to one of them stand as they stood. -/
structure IsStableSort (compare? : α → α → Option Ordering) (items sorted : List α) :
    Prop where
  perm : sorted.Perm items
  ordered : sorted.Pairwise fun a b => compare? b a ≠ some .lt
  stable : ∀ a ∈ items, sorted.filter (isTied compare? a) = items.filter (isTied compare? a)

/-! ## The sort is stable -/

/-- Less, or equal and from an earlier place. -/
def Before (compare? : α → α → Option Ordering) (x y : α × Nat) : Prop :=
  compare? x.1 y.1 = some .lt ∨ (compare? x.1 y.1 = some .eq ∧ x.2 < y.2)

theorem Before.atMost {x y : α × Nat} (h : Before compare? x y) :
    AtMost compare? x.1 y.1 := by
  rcases h with h | ⟨h, _⟩
  · exact .inl h
  · exact .inr h

theorem LawfulOn.before_trans (h : LawfulOn compare? items) {x y z : α × Nat}
    (hx : x.1 ∈ items) (hy : y.1 ∈ items) (hz : z.1 ∈ items) (hxy : Before compare? x y)
    (hyz : Before compare? y z) : Before compare? x z := by
  have hlt := h.lt_of_atMost hx hy hz hxy.atMost hyz.atMost
  rcases hxy with hxy | ⟨hxy, hplace⟩
  · exact .inl (hlt (.inl hxy))
  · rcases hyz with hyz | ⟨hyz, hplace'⟩
    · exact .inl (hlt (.inr hyz))
    · exact .inr ⟨h.eq_trans hx hy hz hxy hyz, Nat.lt_trans hplace hplace'⟩

theorem LawfulOn.pairwise_before (h : LawfulOn compare? items) {run : List (α × Nat)}
    (hsort : SortsTo compare? items.zipIdx run) : run.Pairwise (Before compare?) := by
  refine hsort.pairwise ?_ ?_
  · intro x hx y hy z hz
    exact h.before_trans (mem_of_mem_zipIdx hx) (mem_of_mem_zipIdx hy) (mem_of_mem_zipIdx hz)
  · refine List.Pairwise.imp_of_mem ?_ (zipIdx_pairwise_snd_lt items)
    intro a b ha hb hplace
    refine ⟨fun hlt => .inl hlt, fun o ho hne => ?_⟩
    rcases h.atMost_of_answer (mem_of_mem_zipIdx ha) (mem_of_mem_zipIdx hb) ho hne
      with hab | hab
    · exact .inl hab
    · exact .inr ⟨hab, hplace⟩

/-- Among the elements of a sorted run that are equal to a given one, the places
increase. -/
theorem LawfulOn.pairwise_snd_lt_of_tied (h : LawfulOn compare? items)
    {run : List (α × Nat)} (hsort : SortsTo compare? items.zipIdx run) {a : α}
    (ha : a ∈ items) :
    (run.filter (isTied compare? a ∘ Prod.fst)).Pairwise fun x y => x.2 < y.2 := by
  refine List.Pairwise.imp_of_mem ?_ ((h.pairwise_before hsort).filter _)
  intro x y hx hy hxy
  obtain ⟨hx, hax⟩ := List.mem_filter.mp hx
  obtain ⟨hy, hay⟩ := List.mem_filter.mp hy
  have hx' := hsort.fst_mem hx
  have hxa : compare? x.1 a = some .eq := h.eq_swap ha hx' (isTied_iff.mp hax)
  have heq := h.eq_trans hx' ha (hsort.fst_mem hy) hxa (isTied_iff.mp hay)
  rcases hxy with hlt | ⟨_, hplace⟩
  · rw [heq] at hlt; cases hlt
  · exact hplace

theorem LawfulOn.isStableSort (h : LawfulOn compare? items) {run : List (α × Nat)}
    (hsort : SortsTo compare? items.zipIdx run) :
    IsStableSort compare? items (run.map Prod.fst) where
  perm := hsort.perm_fst
  ordered := by
    refine List.pairwise_map.mpr (List.Pairwise.imp_of_mem ?_ (h.pairwise_before hsort))
    intro x y hx hy hxy hlt
    exact h.not_atMost_of_lt (hsort.fst_mem hy) (hsort.fst_mem hx) hlt hxy.atMost
  stable := by
    intro a ha
    -- Both sides have the same elements with their places, by increasing place.
    have hfilter : run.filter (isTied compare? a ∘ Prod.fst)
        = items.zipIdx.filter (isTied compare? a ∘ Prod.fst) := by
      refine List.Perm.eq_of_pairwise (fun x y _ _ hxy hyx => ?_)
        (h.pairwise_snd_lt_of_tied hsort ha) ((zipIdx_pairwise_snd_lt items).filter _)
        (hsort.perm.filter _)
      exact absurd hxy (Nat.lt_asymm hyx)
    rw [List.filter_map, hfilter, ← List.filter_map, List.zipIdx_map_fst]

/-! ## There is only one stable sort -/

theorem LawfulOn.eq_self (h : LawfulOn compare? items) (htotal : TotalOn compare? items)
    {a : α} (ha : a ∈ items) : compare? a a = some .eq := by
  obtain ⟨o, ho⟩ := Option.isSome_iff_exists.mp (htotal a ha a ha)
  have hswap := h.eq_swap ha ha ho
  rw [ho] at hswap
  cases o with
  | eq => exact ho
  | lt => cases hswap
  | gt => cases hswap

/-- The first element of a list in order is not preceded by any of it. -/
theorem LawfulOn.not_lt_head (h : LawfulOn compare? items) {x : α} {l : List α}
    (hordered : (x :: l).Pairwise fun a b => compare? b a ≠ some .lt) (hx : x ∈ items)
    {y : α} (hy : y ∈ x :: l) : compare? y x ≠ some .lt := by
  rcases List.mem_cons.mp hy with rfl | hy
  · intro hlt
    exact h.not_atMost_of_lt hx hx hlt (.inl hlt)
  · exact List.rel_of_pairwise_cons hordered hy

/-- Two lists of the same elements that are in order, with equal elements in the
same order, are the same list. -/
theorem LawfulOn.eq_of_ordered (h : LawfulOn compare? items)
    (htotal : TotalOn compare? items) {l l' : List α} (hperm : l.Perm l')
    (hmem : ∀ a ∈ l, a ∈ items)
    (hl : l.Pairwise fun a b => compare? b a ≠ some .lt)
    (hl' : l'.Pairwise fun a b => compare? b a ≠ some .lt)
    (hties : ∀ a ∈ items, l.filter (isTied compare? a) = l'.filter (isTied compare? a)) :
    l = l' := by
  induction l generalizing l' with
  | nil => exact hperm.nil_eq
  | cons x l ih =>
      cases l' with
      | nil => exact hperm.eq_nil
      | cons y l' =>
          have hx : x ∈ items := hmem x (List.mem_cons_self ..)
          have hyl : y ∈ x :: l := hperm.mem_iff.mpr (List.mem_cons_self ..)
          have hy : y ∈ items := hmem y hyl
          have hxl' : x ∈ y :: l' := hperm.mem_iff.mp (List.mem_cons_self ..)
          -- Neither head is less than the other one, so they are equal.
          have hxy : compare? x y = some .eq := by
            obtain ⟨o, ho⟩ := Option.isSome_iff_exists.mp (htotal x hx y hy)
            have hswap := h.eq_swap hx hy ho
            cases o with
            | eq => exact ho
            | lt => exact absurd ho (h.not_lt_head hl' hy hxl')
            | gt => exact absurd hswap (h.not_lt_head hl hx hyl)
          have hhead := hties x hx
          rw [List.filter_cons_of_pos (isTied_iff.mpr (h.eq_self htotal hx)),
            List.filter_cons_of_pos (isTied_iff.mpr hxy)] at hhead
          obtain ⟨rfl, _⟩ := List.cons.inj hhead
          congr 1
          refine ih hperm.cons_inv (fun a ha => hmem a (List.mem_cons_of_mem x ha))
            hl.of_cons hl'.of_cons ?_
          intro a ha
          have hrest := hties a ha
          by_cases htie : isTied compare? a x = true
          · rw [List.filter_cons_of_pos htie, List.filter_cons_of_pos htie] at hrest
            exact (List.cons.inj hrest).2
          · rw [List.filter_cons_of_neg htie, List.filter_cons_of_neg htie] at hrest
            exact hrest

theorem IsStableSort.unique {sorted other : List α} (h : LawfulOn compare? items)
    (htotal : TotalOn compare? items) (hother : IsStableSort compare? items other)
    (hsorted : IsStableSort compare? items sorted) : other = sorted := by
  refine h.eq_of_ordered htotal (hother.perm.trans hsorted.perm.symm) ?_ hother.ordered
    hsorted.ordered ?_
  · exact fun a ha => hother.perm.mem_iff.mp ha
  · intro a ha
    rw [hother.stable a ha, hsorted.stable a ha]

theorem TotalOn.comparable (h : TotalOn compare? items) : Comparable compare? items :=
  fun _ _ a b _ ha hb => h a (List.mem_of_getElem? ha) b (List.mem_of_getElem? hb)

/-- With an order for any two elements a list is sorted. The result is the
stable sort, of which there is one, also when places are sorted, and a writer
writes the lines of the elements in that order. -/
theorem stableSort_exact (h : LawfulOn compare? items) (htotal : TotalOn compare? items) :
    ∃ sorted, stableSort compare? items = .ok sorted ∧
      sortByPlaces compare? items = .ok sorted ∧
      (∀ other, IsStableSort compare? items other ↔ other = sorted) ∧
      ∀ (view : α → Fields) (template : String) (style : ListStyle),
        Writes (writeSorted compare? view items template style)
          (lineBytes (sorted.map view) (style.template template)) := by
  obtain ⟨sorted, hok⟩ := htotal.comparable.exists_ok
  obtain ⟨run, hsort, hrun⟩ := exists_of_stableSort_ok hok
  have hstable : IsStableSort compare? items sorted := hrun ▸ h.isStableSort hsort
  refine ⟨sorted, hok, ?_, ?_, ?_⟩
  · rw [sortByPlaces_eq, hok]
    rfl
  · intro other
    constructor
    · intro hother
      exact hother.unique h htotal hstable
    · rintro rfl
      exact hstable
  · intro view template style
    have hwriter : writeSorted compare? view items template style
        = writeList (sorted.map view) template style := by
      unfold writeSorted
      rw [hok]
    rw [hwriter]
    exact writes_writeList (sorted.map view) template style

/-- Numbered letters in the order of their numbers. -/
theorem stableSort_letters :
    let byNumber := fun a b : Nat × Char => some (compare a.1 b.1)
    let letters := [(2, 'a'), (1, 'b'), (2, 'c'), (1, 'd')]
    LawfulOn byNumber letters ∧ TotalOn byNumber letters ∧
      stableSort byNumber letters = .ok [(1, 'b'), (1, 'd'), (2, 'a'), (2, 'c')] := by
  intro byNumber letters
  have hlaw : LawfulOn byNumber letters := ⟨by decide, by unfold AtMost; decide⟩
  have htotal : TotalOn byNumber letters := fun _ _ _ _ => rfl
  have hstable : IsStableSort byNumber letters [(1, 'b'), (1, 'd'), (2, 'a'), (2, 'c')] :=
    ⟨by decide, by decide, by decide⟩
  obtain ⟨sorted, hok, _, hiff, _⟩ := stableSort_exact hlaw htotal
  refine ⟨hlaw, htotal, ?_⟩
  rw [hok, (hiff _).mp hstable]

end

end MailMerge
