/-!
# Sorting by an order that may fail

The sort takes a comparison that need not have an answer for every two
elements. It merges ever longer runs; when it meets two elements that have no
order relative to each other it gives up and tells their places. Of elements
that compare equal the one that came first stays first.
-/

namespace MailMerge

/-- Two places of a list whose elements have no order. -/
structure Incomparable where
  left : Nat
  right : Nat
  deriving Repr, DecidableEq

section

variable {α : Type} (compare? : α → α → Option Ordering)

/-- Merges two runs of elements with their places. Only a smaller element of
the right run goes before the first one of the left run. -/
def mergeRuns : List (α × Nat) → List (α × Nat) → Except Incomparable (List (α × Nat))
  | [], right => .ok right
  | left, [] => .ok left
  | a :: left, b :: right =>
    match compare? b.1 a.1 with
    | some .lt => (mergeRuns (a :: left) right).map (b :: ·)
    | some _ => (mergeRuns left (b :: right)).map (a :: ·)
    | none => .error ⟨min a.2 b.2, max a.2 b.2⟩
termination_by left right => left.length + right.length

/-- Sorts a run: its first half, then its second half, then both together. -/
def sortRun (run : List (α × Nat)) : Except Incomparable (List (α × Nat)) :=
  if run.length < 2 then .ok run
  else
    (sortRun (run.take (run.length / 2))).bind fun left =>
      (sortRun (run.drop (run.length / 2))).bind fun right =>
        mergeRuns compare? left right
termination_by run.length
decreasing_by
  · rw [List.length_take]; omega
  · rw [List.length_drop]; omega

/-- The elements in their order, or two of them that have none. -/
def stableSort (items : List α) : Except Incomparable (List α) :=
  (sortRun compare? items.zipIdx).map (·.map Prod.fst)

end

end MailMerge
