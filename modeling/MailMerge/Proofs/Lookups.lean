import MailMerge.Toml.Value
import Mathlib.Data.List.Forall2
import Mathlib.Data.List.Nodup
import Mathlib.Data.String.Basic

/-!
# Entries under their keys

A list of entries is looked into by key, and what is found is the first entry with the
key. As long as no key comes twice, the order of the entries does not matter, and what
is under each key is all there is to know about entries in the order of their keys.
-/

namespace MailMerge.Toml

variable {α β : Type} {entries others : List (String × α)} {key : String} {value : α}

theorem lookup_eq_none_iff_not_mem :
    entries.lookup key = none ↔ key ∉ entries.map Prod.fst := by
  rw [List.lookup_eq_none_iff, List.mem_map]
  constructor
  · rintro h ⟨entry, hentry, rfl⟩
    exact bne_iff_ne.mp (h entry hentry) rfl
  · exact fun h entry hentry => bne_iff_ne.mpr fun heq => h ⟨entry, hentry, heq.symm⟩

theorem lookup_concat_self (h : entries.lookup key = none) :
    (entries ++ [(key, value)]).lookup key = some value := by
  rw [List.lookup_append, h, Option.none_or, List.lookup_cons_self]

theorem lookup_concat_of_ne {name : String} (h : name ≠ key) :
    (entries ++ [(key, value)]).lookup name = entries.lookup name := by
  rw [List.lookup_append, List.lookup_cons, beq_eq_false_iff_ne.mpr h]
  exact Option.or_none

theorem mem_iff_lookup (h : (entries.map Prod.fst).Nodup) :
    (key, value) ∈ entries ↔ entries.lookup key = some value := by
  induction entries with
  | nil => simp
  | cons entry rest ih =>
      obtain ⟨hentry, hrest⟩ := List.nodup_cons.mp h
      rw [List.mem_cons, ih hrest, List.lookup_cons]
      by_cases hkey : key = entry.1
      · rw [hkey, lookup_eq_none_iff_not_mem.mpr hentry, beq_self_eq_true]
        simp [Prod.ext_iff, eq_comm]
      · rw [beq_eq_false_iff_ne.mpr hkey]
        simp [Prod.ext_iff, hkey]

theorem lookup_eq_of_perm (h : (entries.map Prod.fst).Nodup) (hperm : others.Perm entries)
    (key : String) : others.lookup key = entries.lookup key := by
  have hothers : (others.map Prod.fst).Nodup := (hperm.map Prod.fst).nodup_iff.mpr h
  refine Option.ext fun value => ?_
  rw [← mem_iff_lookup hothers, ← mem_iff_lookup h, hperm.mem_iff]

/-! ## Keys in their order -/

/-- Keys that follow each other in their order, so none comes twice. -/
def KeysAscend (entries : List (String × α)) : Prop :=
  (entries.map Prod.fst).Pairwise (· < ·)

theorem KeysAscend.nodup (h : KeysAscend entries) : (entries.map Prod.fst).Nodup :=
  h.imp ne_of_lt

/-- Entries whose keys ascend are known by what is under each key. -/
theorem KeysAscend.eq_of_lookup (h : KeysAscend entries) (hothers : KeysAscend others)
    (hlookup : ∀ key, entries.lookup key = others.lookup key) : entries = others := by
  have hperm : entries.Perm others := by
    refine (List.perm_ext_iff_of_nodup (List.Nodup.of_map _ h.nodup)
      (List.Nodup.of_map _ hothers.nodup)).mpr fun ⟨key, value⟩ => ?_
    rw [mem_iff_lookup h.nodup, mem_iff_lookup hothers.nodup, hlookup]
  refine hperm.eq_of_pairwise (fun a b _ _ hlt hgt => ?_)
    (List.pairwise_map.mp h) (List.pairwise_map.mp hothers)
  exact absurd hgt (lt_asymm hlt)

theorem keysAscend_sortEntries (h : (entries.map Prod.fst).Nodup) :
    KeysAscend (sortEntries entries) := by
  have hnodup : ((sortEntries entries).map Prod.fst).Nodup :=
    ((List.mergeSort_perm entries _).map Prod.fst).nodup_iff.mpr h
  have hsorted : (sortEntries entries).Pairwise fun a b => decide (a.1 ≤ b.1) = true := by
    refine List.pairwise_mergeSort (fun a b c hab hbc => ?_) (fun a b => ?_) entries
    · exact decide_eq_true (le_trans (of_decide_eq_true hab) (of_decide_eq_true hbc))
    · rw [Bool.or_eq_true, decide_eq_true_eq, decide_eq_true_eq]
      exact le_total a.1 b.1
  have hboth := hsorted.and (List.pairwise_map.mp hnodup)
  exact List.pairwise_map.mpr
    (hboth.imp fun ⟨hle, hne⟩ => lt_of_le_of_ne (of_decide_eq_true hle) hne)

/-! ## Entries and their images -/

variable {r : α → β → Prop} {images : List (String × β)}

theorem keys_eq_of_forall₂
    (h : List.Forall₂ (fun entry image => entry.1 = image.1 ∧ r entry.2 image.2) entries images) :
    entries.map Prod.fst = images.map Prod.fst := by
  induction h with
  | nil => rfl
  | cons hentry _ ih => rw [List.map_cons, List.map_cons, hentry.1, ih]

theorem lookup_rel
    (h : List.Forall₂ (fun entry image => entry.1 = image.1 ∧ r entry.2 image.2) entries images)
    (key : String) : Option.Rel r (entries.lookup key) (images.lookup key) := by
  induction h with
  | nil => exact .none
  | @cons entry image entries images hentry _ ih =>
      rw [List.lookup_cons, List.lookup_cons, ← hentry.1]
      cases key == entry.1 with
      | true => exact .some hentry.2
      | false => exact ih

theorem exists_of_forall₂ {l : List α} {images : List β}
    (h : List.Forall₂ r l images) {x : α} (hx : x ∈ l) : ∃ image, r x image := by
  induction h with
  | nil => cases hx
  | cons hfirst _ ih =>
      rcases List.mem_cons.mp hx with rfl | hrest
      · exact ⟨_, hfirst⟩
      · exact ih hrest

theorem eq_of_forall₂ {l : List α} {bs cs : List β}
    (unique : ∀ x ∈ l, ∀ b c, r x b → r x c → b = c) (hb : List.Forall₂ r l bs)
    (hc : List.Forall₂ r l cs) : bs = cs := by
  have hright : Relator.RightUnique fun x b => (∀ b c, r x b → r x c → b = c) ∧ r x b :=
    fun _ b c hb hc => hb.1 b c hb.2 hc.2
  exact List.right_unique_forall₂' hright ((List.forall₂_and_left _ _).mpr ⟨unique, hb⟩)
    ((List.forall₂_and_left _ _).mpr ⟨unique, hc⟩)

theorem eq_of_optionRel {o : Option α} {b c : Option β}
    (unique : ∀ x, o = some x → ∀ b c, r x b → r x c → b = c) (hb : Option.Rel r o b)
    (hc : Option.Rel r o c) : b = c := by
  cases hb with
  | none =>
      cases hc
      rfl
  | some hb =>
      cases hc with
      | some hc => exact congrArg some (unique _ rfl _ _ hb hc)

end MailMerge.Toml
