import MailMerge.Order.StableSort

/-!
# Sorting places

Another way to sort is to leave the elements where they are and to sort their
places. The runs are slices of one list of places, and every merge goes through
one buffer, which is emptied before the merge and copied over the run after it.
The elements move once, at the end, out of slots that are emptied on the way.

An element that is looked up where there is none, and a buffer that is not as
long as the run it is copied over, would be mistakes, and the sort would stop
there. It never does: its outcome is that of the sort that carries the elements
along.
-/

namespace MailMerge

/-- Why a sort of places stops. -/
inductive SortStop
  /-- Two elements have no order. -/
  | incomparable (places : Incomparable)
  /-- There is no element at this place. -/
  | noElement (place : Nat)
  /-- The buffer is not as long as the run that it is copied over. -/
  | misfit (buffer run : Nat)
  deriving Repr, DecidableEq

section

variable {α : Type} (compare? : α → α → Option Ordering)

/-- Merges two runs of places into the buffer, from the places at `i` and `j`
on. -/
def mergePlaces (items : List α) (left right : List Nat) (i j : Nat) (buffer : List Nat) :
    Except SortStop (List Nat) :=
  if h : i < left.length ∧ j < right.length then
    let a := left[i]
    let b := right[j]
    match items[b]?, items[a]? with
    | some y, some x =>
      match compare? y x with
      | some .lt => mergePlaces items left right i (j + 1) (buffer ++ [b])
      | some _ => mergePlaces items left right (i + 1) j (buffer ++ [a])
      | none => .error (.incomparable ⟨min a b, max a b⟩)
    | none, _ => .error (.noElement b)
    | _, none => .error (.noElement a)
  else .ok (buffer ++ left.drop i ++ right.drop j)
termination_by (left.length - i) + (right.length - j)

/-- Sorts a run of places; tells the run and the buffer as they are left. -/
def sortPlaces (items : List α) (run buffer : List Nat) :
    Except SortStop (List Nat × List Nat) :=
  if run.length < 2 then .ok (run, buffer)
  else
    (sortPlaces items (run.take (run.length / 2)) buffer).bind fun left =>
      (sortPlaces items (run.drop (run.length / 2)) left.2).bind fun right =>
        (mergePlaces compare? items left.1 right.1 0 0 []).bind fun merged =>
          if merged.length = run.length then .ok (merged, merged)
          else .error (.misfit merged.length run.length)
termination_by run.length
decreasing_by
  · rw [List.length_take]; omega
  · rw [List.length_drop]; omega

/-- Takes elements out of their slots. A slot that is empty gives nothing. -/
def takeSlots (slots : List (Option α)) : List Nat → Except SortStop (List α)
  | [] => .ok []
  | place :: rest =>
    match slots[place]? with
    | some slot => (takeSlots (slots.set place none) rest).map (slot.toList ++ ·)
    | none => .error (.noElement place)

/-- The elements in their order, moved there once all places are in order. -/
def sortByPlaces (items : List α) : Except SortStop (List α) :=
  (sortPlaces compare? items (List.range items.length) []).bind fun done =>
    takeSlots (items.map some) done.1

end

end MailMerge
