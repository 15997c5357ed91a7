/-!
# Steps that may fail

If several steps are taken one after the other and the last one is reached, all of
them went well. That is said here once, for steps whose failures have a reason and for
those that just fail.
-/

namespace MailMerge

section

variable {ε α β : Type} {x : Except ε α} {b : β}

theorem bind_eq_ok_iff {f : α → Except ε β} :
    x >>= f = .ok b ↔ ∃ a, x = .ok a ∧ f a = .ok b := by
  cases x with
  | error reason => simp [bind, Except.bind]
  | ok a => simp [bind, Except.bind]

theorem bind_eq_error_iff {f : α → Except ε β} {reason : ε} :
    x >>= f = .error reason ↔ x = .error reason ∨ ∃ a, x = .ok a ∧ f a = .error reason := by
  cases x with
  | error reason => simp [bind, Except.bind]
  | ok a => simp [bind, Except.bind]

theorem map_eq_ok_iff {f : α → β} : x.map f = .ok b ↔ ∃ a, x = .ok a ∧ f a = b := by
  cases x with
  | error reason => simp [Except.map]
  | ok a => simp [Except.map]

theorem exists_ok_of_any {p : β → Bool} {x : Except ε β} (h : x.toOption.any p = true) :
    ∃ b, x = .ok b ∧ p b = true := by
  cases x with
  | error reason => cases h
  | ok b => exact ⟨b, rfl, h⟩

theorem exists_foldlM_ok {step : β → α → Except ε β} {steps : List α}
    (hstep : ∀ a ∈ steps, ∀ b, ∃ b', step b a = .ok b') (first : β) :
    ∃ last, steps.foldlM step first = .ok last := by
  induction steps generalizing first with
  | nil => exact ⟨first, rfl⟩
  | cons a steps ih =>
      obtain ⟨hfirst, hrest⟩ := List.forall_mem_cons.mp hstep
      obtain ⟨next, hnext⟩ := hfirst first
      obtain ⟨last, hlast⟩ := ih hrest next
      exact ⟨last, bind_eq_ok_iff.mpr ⟨next, hnext, hlast⟩⟩

end

/-- What every step keeps is kept by all of them. -/
theorem foldlM_invariant {α β : Type} {step : β → α → Option β} {P : β → Prop} {steps : List α}
    {first last : β} (hstep : ∀ a ∈ steps, ∀ b b', P b → step b a = some b' → P b')
    (h : P first) (hfold : steps.foldlM step first = some last) : P last := by
  induction steps generalizing first with
  | nil =>
      cases hfold
      exact h
  | cons a steps ih =>
      obtain ⟨hfirst, hrest⟩ := List.forall_mem_cons.mp hstep
      rw [List.foldlM_cons] at hfold
      obtain ⟨next, hnext, hfold⟩ := Option.bind_eq_some_iff.mp hfold
      exact ih hrest (hfirst first next h hnext) hfold

end MailMerge
