import MailMerge.Proofs.MixedNumbers

/-!
# The strict order of values

"Equal" is not transitive among integers and floating-point numbers, but "less"
is. Suppose that `u < v < w` and that `u` is not less than `w`. All three are of
one kind, so `w` is at most `u`, and up to rounding they stand in a circle, each
at most the next one. A step of the circle that was a proper one before rounding
is then one between two integers (`Toml.Value.exists_integers_of_lt`). Both
steps were proper, so all three are integers, and those are compared exactly.
-/

namespace MailMerge

open Toml

/-- What a comparison with a strict order in it promises about any elements,
those included that have no order. -/
structure StrictlyOrders {α : Type} (compare? : α → α → Option Ordering) : Prop where
  dual : Dual compare?
  irrefl : ∀ a, compare? a a ≠ some .lt
  trans : ∀ a b c, compare? a b = some .lt → compare? b c = some .lt → compare? a c = some .lt
  comparable_trans : ∀ a b c, (compare? a b).isSome → (compare? b c).isSome →
    (compare? a c).isSome

section

variable {α κ : Type} {compare? : α → α → Option Ordering} {kind? : α → Option κ}

theorem Dual.not_lt_self (h : Dual compare?) (a : α) : compare? a a ≠ some .lt := by
  intro hlt
  have hswap := h a a
  rw [hlt] at hswap
  cases hswap

theorem Dual.atMost_of_not_lt (h : Dual compare?) {a b : α} (hsome : (compare? a b).isSome)
    (hnot : compare? a b ≠ some .lt) : AtMost compare? b a := by
  obtain ⟨o, ho⟩ := Option.isSome_iff_exists.mp hsome
  refine atMost_of_answer (h a b) ho ?_
  rintro rfl
  exact hnot ho

theorem AnswersWithin.isSome_trans (h : AnswersWithin compare? kind?) {a b c : α}
    (hab : (compare? a b).isSome) (hbc : (compare? b c).isSome) : (compare? a c).isSome :=
  (h a c).mpr (((h a b).mp hab).trans ((h b c).mp hbc))

end

/-! ## Values -/

namespace Toml.Value

theorem integer_lt_trans {l m n : Int64}
    (hlm : Value.compare? (.integer l) (.integer m) = some .lt)
    (hmn : Value.compare? (.integer m) (.integer n) = some .lt) :
    Value.compare? (.integer l) (.integer n) = some .lt := by
  have hlm' : compare l m = .lt := Option.some.inj hlm
  have hmn' : compare m n = .lt := Option.some.inj hmn
  exact congrArg some (Std.TransCmp.lt_trans hlm' hmn')

theorem lt_trans {u v w : Value} (huv : u.compare? v = some .lt)
    (hvw : v.compare? w = some .lt) : u.compare? w = some .lt := by
  by_contra hnot
  have hsome : (u.compare? w).isSome :=
    answersWithin.isSome_trans (AtMost.isSome (.inl huv)) (AtMost.isSome (.inl hvw))
  -- Up to rounding the three stand in a circle.
  have huv' : AtMost Value.compare? u.widened v.widened := atMost_widened (.inl huv)
  have hvw' : AtMost Value.compare? v.widened w.widened := atMost_widened (.inl hvw)
  have hwu' : AtMost Value.compare? w.widened u.widened :=
    atMost_widened (dual_compare?.atMost_of_not_lt hsome hnot)
  obtain ⟨m, l, rfl, rfl⟩ := exists_integers_of_lt huv (widened_trans hvw' hwu')
  obtain ⟨n, m', rfl, hm⟩ := exists_integers_of_lt hvw (widened_trans hwu' huv')
  cases hm
  exact hnot (integer_lt_trans huv hvw)

theorem strictlyOrders : StrictlyOrders Value.compare? where
  dual := dual_compare?
  irrefl := dual_compare?.not_lt_self
  trans _ _ _ := lt_trans
  comparable_trans _ _ _ := answersWithin.isSome_trans

end Toml.Value

/-! ## Records -/

namespace SortKey

theorem lt_trans {a b c : SortKey} (hab : SortKey.compare? a b = some .lt)
    (hbc : SortKey.compare? b c = some .lt) : SortKey.compare? a c = some .lt := by
  obtain ⟨u, v, hu, hv, huv⟩ := compare?_eq_some_iff.mp hab
  obtain ⟨v', w, hv', hw, hvw⟩ := compare?_eq_some_iff.mp hbc
  rw [hv] at hv'
  cases hv'
  exact compare?_eq_some_iff.mpr ⟨u, w, hu, hw, Value.lt_trans huv hvw⟩

/-- Records that are compared by their keys, whether by the same one or not, have
a strict order, and so have any values that they are compared by: numbers of both
kinds, infinities, and values that have no order. -/
theorem compare?_strictlyOrders :
    StrictlyOrders SortKey.compare? ∧ StrictlyOrders Value.compare? := by
  refine ⟨⟨dual_compare?, dual_compare?.not_lt_self, ?_, ?_⟩, Value.strictlyOrders⟩
  · intro a b c
    exact lt_trans
  · intro a b c
    exact answersWithin.isSome_trans

end SortKey

end MailMerge
