import MailMerge.Proofs.Merging
import MailMerge.Proofs.Writers

/-!
# Lists in natural order

What a sorted list comes to depends on what the comparison promises. The
promises looked at here are about the elements of the list alone. A lawful
comparison gives two elements the opposite answer when they are asked in the
other order, and its "at most" is transitive; it may still have no answer for
some pairs.

A sort asks about few of the pairs, so it might seem that it could come through
without meeting two elements that have no order. It cannot: by `SortsTo.pairwise`
with "at most" for the relation, any two elements of a result have been found in
order, if not by the comparison itself then by transitivity.
-/

namespace MailMerge

section

variable {α : Type} {compare? : α → α → Option Ordering} {items : List α}

/-- The comparison finds the first element at most the second one. -/
def AtMost (compare? : α → α → Option Ordering) (a b : α) : Prop :=
  compare? a b = some .lt ∨ compare? a b = some .eq

/-- What a comparison promises about the elements of a list, if it is one of a
partial order with ties. -/
structure LawfulOn (compare? : α → α → Option Ordering) (items : List α) : Prop where
  dual : ∀ a ∈ items, ∀ b ∈ items, compare? b a = (compare? a b).map Ordering.swap
  trans : ∀ a ∈ items, ∀ b ∈ items, ∀ c ∈ items,
    AtMost compare? a b → AtMost compare? b c → AtMost compare? a c

/-- Any two elements of a list at different places have an order. -/
def Comparable (compare? : α → α → Option Ordering) (items : List α) : Prop :=
  ∀ (i j : Nat) (a b : α), i ≠ j → items[i]? = some a → items[j]? = some b →
    (compare? a b).isSome

theorem AtMost.isSome {a b : α} (h : AtMost compare? a b) : (compare? a b).isSome := by
  rcases h with h | h
  · rw [h]; rfl
  · rw [h]; rfl

/-- What is not less than an element is at least that element, if the comparison
gives opposite answers about the two. -/
theorem atMost_of_answer {a b : α} (hdual : compare? a b = (compare? b a).map Ordering.swap)
    {o : Ordering} (ho : compare? b a = some o) (hne : o ≠ .lt) : AtMost compare? a b := by
  rw [ho] at hdual
  cases o with
  | lt => exact absurd rfl hne
  | eq => exact .inr hdual
  | gt => exact .inl hdual

/-! ## Lawful comparisons -/

theorem LawfulOn.eq_swap (h : LawfulOn compare? items) {a b : α} (ha : a ∈ items)
    (hb : b ∈ items) {o : Ordering} (ho : compare? a b = some o) :
    compare? b a = some o.swap := by
  rw [h.dual a ha b hb, ho]
  rfl

theorem LawfulOn.atMost_of_answer (h : LawfulOn compare? items) {a b : α} (ha : a ∈ items)
    (hb : b ∈ items) {o : Ordering} (ho : compare? b a = some o) (hne : o ≠ .lt) :
    AtMost compare? a b :=
  MailMerge.atMost_of_answer (h.dual b hb a ha) ho hne

theorem LawfulOn.not_atMost_of_lt (h : LawfulOn compare? items) {a b : α} (ha : a ∈ items)
    (hb : b ∈ items) (hlt : compare? a b = some .lt) : ¬AtMost compare? b a := by
  have hba := h.eq_swap ha hb hlt
  rintro (hle | hle)
  · rw [hba] at hle; cases hle
  · rw [hba] at hle; cases hle

/-- What is at most another element without being its equal is less. -/
theorem LawfulOn.lt_of_atMost (h : LawfulOn compare? items) {a b c : α} (ha : a ∈ items)
    (hb : b ∈ items) (hc : c ∈ items) (hab : AtMost compare? a b)
    (hbc : AtMost compare? b c)
    (hlt : compare? a b = some .lt ∨ compare? b c = some .lt) :
    compare? a c = some .lt := by
  rcases h.trans a ha b hb c hc hab hbc with hac | hac
  · exact hac
  · -- Were they equal, neither step could have been a proper one.
    have hca : AtMost compare? c a := .inr (h.eq_swap ha hc hac)
    rcases hlt with hlt | hlt
    · exact absurd (h.trans b hb c hc a ha hbc hca) (h.not_atMost_of_lt ha hb hlt)
    · exact absurd (h.trans c hc a ha b hb hca hab) (h.not_atMost_of_lt hb hc hlt)

theorem LawfulOn.eq_trans (h : LawfulOn compare? items) {a b c : α} (ha : a ∈ items)
    (hb : b ∈ items) (hc : c ∈ items) (hab : compare? a b = some .eq)
    (hbc : compare? b c = some .eq) : compare? a c = some .eq := by
  rcases h.trans a ha b hb c hc (.inr hab) (.inr hbc) with hac | hac
  · have hcb : AtMost compare? c b := .inr (h.eq_swap hb hc hbc)
    have hba : AtMost compare? b a := .inr (h.eq_swap ha hb hab)
    exact absurd (h.trans c hc b hb a ha hcb hba) (h.not_atMost_of_lt ha hc hac)
  · exact hac

/-! ## No missing order goes unnoticed -/

theorem rel_or_rel_of_pairwise {β : Type} {R : β → β → Prop} {l : List β}
    (h : l.Pairwise R) {x y : β} (hx : x ∈ l) (hy : y ∈ l) (hne : x ≠ y) :
    R x y ∨ R y x := by
  have hor : l.Pairwise fun x y => x ≠ y → R x y ∨ R y x := h.imp fun hxy _ => .inl hxy
  have hflip : l.Pairwise (flip fun x y => x ≠ y → R x y ∨ R y x) :=
    h.imp fun hxy _ => .inr hxy
  exact List.Pairwise.forall_of_forall_of_flip (fun x _ hne => absurd rfl hne) hor hflip
    hx hy hne

theorem SortsTo.fst_mem {run : List (α × Nat)} (h : SortsTo compare? items.zipIdx run)
    {x : α × Nat} (hx : x ∈ run) : x.1 ∈ items :=
  mem_of_mem_zipIdx (h.perm.mem_iff.mp hx)

/-- The earlier elements of a sorted run are at most the later ones. -/
theorem LawfulOn.pairwise_atMost (h : LawfulOn compare? items) {run : List (α × Nat)}
    (hsort : SortsTo compare? items.zipIdx run) :
    run.Pairwise fun x y => AtMost compare? x.1 y.1 := by
  refine hsort.pairwise ?_ ?_
  · intro x hx y hy z hz
    exact h.trans x.1 (mem_of_mem_zipIdx hx) y.1 (mem_of_mem_zipIdx hy) z.1
      (mem_of_mem_zipIdx hz)
  · refine List.Pairwise.imp_of_mem ?_ (zipIdx_pairwise_snd_lt items)
    intro a b ha hb _
    refine ⟨fun hlt => .inl hlt, fun o ho hne => ?_⟩
    exact h.atMost_of_answer (mem_of_mem_zipIdx ha) (mem_of_mem_zipIdx hb) ho hne

theorem LawfulOn.comparable_of_ok (h : LawfulOn compare? items) {sorted : List α}
    (hok : stableSort compare? items = .ok sorted) : Comparable compare? items := by
  obtain ⟨run, hsort, rfl⟩ := exists_of_stableSort_ok hok
  intro i j a b hij ha hb
  have hmem : ∀ {k : Nat} {c : α}, items[k]? = some c → (c, k) ∈ run :=
    fun hc => hsort.perm.mem_iff.mpr (List.mem_zipIdx_iff_getElem?.mpr hc)
  have hne : (a, i) ≠ (b, j) := fun heq => hij (Prod.mk.inj heq).2
  rcases rel_or_rel_of_pairwise (h.pairwise_atMost hsort) (hmem ha) (hmem hb) hne
    with hle | hle
  · exact hle.isSome
  · have hba := hle.isSome
    rw [h.dual a (List.mem_of_getElem? ha) b (List.mem_of_getElem? hb),
      Option.isSome_map] at hba
    exact hba

theorem Comparable.exists_ok (h : Comparable compare? items) :
    ∃ sorted, stableSort compare? items = .ok sorted := by
  cases hsort : stableSort compare? items with
  | ok sorted => exact ⟨sorted, rfl⟩
  | error places =>
      obtain ⟨hlt, a, b, ha, hb, hnone⟩ := exists_of_stableSort_error hsort
      have hba := h _ _ b a (Nat.ne_of_gt hlt) hb ha
      rw [hnone] at hba
      cases hba

/-- A list is sorted exactly if any two of its elements have an order. If two
have none, the error names the places of two such elements, the earlier one
first, and the sink is left as it was. -/
theorem writeSorted_comparable_iff (h : LawfulOn compare? items) (view : α → Fields)
    (template : String) (style : ListStyle) :
    ((∃ sorted, stableSort compare? items = .ok sorted) ↔ Comparable compare? items) ∧
    ((writeSorted compare? view items template style .unlimited).result = .ok () ↔
      Comparable compare? items) ∧
    (¬Comparable compare? items → ∃ places a b,
      places.left < places.right ∧ places.right < items.length ∧
      items[places.left]? = some a ∧ items[places.right]? = some b ∧
      compare? a b = none ∧ compare? b a = none ∧
      ∀ sink, writeSorted compare? view items template style sink
        = ⟨sink, [], .error (.incomparable places)⟩) := by
  have hiff : (∃ sorted, stableSort compare? items = .ok sorted) ↔
      Comparable compare? items :=
    ⟨fun ⟨_, hok⟩ => h.comparable_of_ok hok, Comparable.exists_ok⟩
  refine ⟨hiff, ?_, ?_⟩
  · rw [← hiff]
    unfold writeSorted
    cases hsort : stableSort compare? items with
    | ok sorted =>
        refine ⟨fun _ => ⟨sorted, rfl⟩, fun _ => ?_⟩
        exact (writes_writeList (sorted.map view) template style .unlimited).2
    | error places =>
        constructor
        · intro hresult; cases hresult
        · rintro ⟨_, hok⟩; cases hok
  · intro hnot
    cases hsort : stableSort compare? items with
    | ok sorted => exact absurd (hiff.mp ⟨sorted, hsort⟩) hnot
    | error places =>
        obtain ⟨hlt, a, b, ha, hb, hnone⟩ := exists_of_stableSort_error hsort
        have hab : compare? a b = none := by
          rw [h.dual b (List.mem_of_getElem? hb) a (List.mem_of_getElem? ha), hnone]
          rfl
        refine ⟨places, a, b, hlt, ?_, ha, hb, hab, hnone, ?_⟩
        · exact (List.getElem?_eq_some_iff.mp hb).1
        · intro sink
          unfold writeSorted
          rw [hsort]
          rfl

/-- Numbers ordered by division. -/
def divisionOrder (m n : Nat) : Option Ordering :=
  if m = n then some .eq
  else if m ∣ n then some .lt
  else if n ∣ m then some .gt
  else none

theorem lawfulOn_divisionOrder : LawfulOn divisionOrder [4, 6, 2] where
  dual := by decide
  trans := by
    unfold AtMost
    decide

/-- Two divides both four and six, of which neither divides the other. -/
theorem writeSorted_division :
    LawfulOn divisionOrder [4, 6, 2] ∧ ¬Comparable divisionOrder [4, 6, 2] ∧
      ∃ places, ∀ sink,
        writeSorted divisionOrder (fun _ => .ofEntries []) [4, 6, 2] "-" .lines sink
          = ⟨sink, [], .error (.incomparable places)⟩ := by
  have hnot : ¬Comparable divisionOrder [4, 6, 2] := by
    intro h
    exact absurd (h 0 1 4 6 (by decide) rfl rfl) (by decide)
  obtain ⟨places, _, _, _, _, _, _, _, _, hstop⟩ :=
    (writeSorted_comparable_iff lawfulOn_divisionOrder (fun _ => .ofEntries []) "-"
      .lines).2.2 hnot
  exact ⟨lawfulOn_divisionOrder, hnot, places, hstop⟩

end

end MailMerge
