import MailMerge.Proofs.KeysOnce
import MailMerge.Toml.DateTimeKey

/-!
# What values of a document are loaded as

Loading a table puts its entries in the order of their keys, and it takes a table for a
date or time if its first key is the one reserved for them. Apart from that it keeps
everything, and `Value.LoadsAs` says so without a word about how it is done: a loaded
table has under every key what the document has there, loaded. Since its keys ascend,
it is the only one that has (`Value.LoadsAs.unique`).

Not everything can be loaded. A table in front of which something else stands under the
reserved key is refused, wherever in a value it is (`Value.Loadable`). Which texts are a
date or time there is up to the reader, and all of this holds for every one.
-/

namespace MailMerge.Toml

section

variable (reader : DateTime.Reader)

/-- A value in which every table with the reserved key in front has the text of a date or
time there. What else is in such a table does not matter. -/
inductive Value.Loadable : Value → Prop
  | string (content : String) : Loadable (.string content)
  | integer (value : Int64) : Loadable (.integer value)
  | float (value : Binary64) : Loadable (.float value)
  | boolean (value : Bool) : Loadable (.boolean value)
  | dateTime (value : DateTime) : Loadable (.dateTime value)
  | array {elements : List Value} (each : ∀ value ∈ elements, Loadable value) :
      Loadable (.array elements)
  | table {entries : Entries} (plain : reserved? entries = none)
      (each : ∀ entry ∈ entries, Loadable entry.2) : Loadable (.table entries)
  | reserved {text : String} {value : DateTime} {rest : Entries}
      (spells : reader text.toList = some value) :
      Loadable (.table ((dateTimeKey, .string text) :: rest))

/-- What a value of a document is loaded as. It is the same but for the order of keys, and
but for the tables that stand for a date or time. -/
inductive Value.LoadsAs : Value → Value → Prop
  | string (content : String) : LoadsAs (.string content) (.string content)
  | integer (value : Int64) : LoadsAs (.integer value) (.integer value)
  | float (value : Binary64) : LoadsAs (.float value) (.float value)
  | boolean (value : Bool) : LoadsAs (.boolean value) (.boolean value)
  | dateTime (value : DateTime) : LoadsAs (.dateTime value) (.dateTime value)
  | array {elements loaded : List Value} (each : List.Forall₂ LoadsAs elements loaded) :
      LoadsAs (.array elements) (.array loaded)
  | table {entries loaded : Entries} (plain : reserved? entries = none)
      (under : ∀ key, Option.Rel LoadsAs (entries.lookup key) (loaded.lookup key))
      (ascend : KeysAscend loaded) : LoadsAs (.table entries) (.table loaded)
  | reserved {text : String} {value : DateTime} {rest : Entries}
      (spells : reader text.toList = some value) :
      LoadsAs (.table ((dateTimeKey, .string text) :: rest)) (.dateTime value)

/-- What the entries of a document's table are loaded as: the same keys in their order,
and under each the same as in the document. -/
structure Entries.LoadAs (entries loaded : Entries) : Prop where
  under : ∀ key, Option.Rel (Value.LoadsAs reader) (entries.lookup key) (loaded.lookup key)
  ascend : KeysAscend loaded

end

variable {reader : DateTime.Reader} {value decoded a b : Value}
  {entries decodedEntries loaded : Entries} {elements decodedElements : List Value}

theorem reserved?_eq_some_iff : reserved? entries = some value
    ↔ ∃ rest, entries = (dateTimeKey, value) :: rest := by
  cases entries with
  | nil => simp [reserved?]
  | cons entry rest =>
      obtain ⟨key, first⟩ := entry
      by_cases hkey : key = dateTimeKey <;> simp [reserved?, hkey]

/-- What relates every element to what it decodes to, once that is sorted, relates so the
elements of a list. -/
theorem forall₂_of_decodeElements? {r : Value → Value → Prop}
    (each : ∀ value ∈ elements, ∀ decoded, value.decode? reader = some decoded →
      r value decoded.sorted)
    (h : decodeElements? reader elements = some decodedElements) :
    List.Forall₂ r elements (sortedElements decodedElements) := by
  induction elements generalizing decodedElements with
  | nil =>
      cases h
      exact .nil
  | cons value rest ih =>
      obtain ⟨hvalue, hrest⟩ := List.forall_mem_cons.mp each
      obtain ⟨decoded, hdecoded, h⟩ := Option.bind_eq_some_iff.mp h
      obtain ⟨decodedRest, hdecodedRest, heq⟩ := Option.bind_eq_some_iff.mp h
      cases heq
      exact .cons (hvalue decoded hdecoded) (ih hrest hdecodedRest)

theorem forall₂_of_decodeEntries? {r : Value → Value → Prop}
    (each : ∀ entry ∈ entries, ∀ decoded, entry.2.decode? reader = some decoded →
      r entry.2 decoded.sorted)
    (h : decodeEntries? reader entries = some decodedEntries) :
    List.Forall₂ (fun entry image => entry.1 = image.1 ∧ r entry.2 image.2) entries
      (sortedEntries decodedEntries) := by
  induction entries generalizing decodedEntries with
  | nil =>
      cases h
      exact .nil
  | cons entry rest ih =>
      obtain ⟨hentry, hrest⟩ := List.forall_mem_cons.mp each
      obtain ⟨decoded, hdecoded, h⟩ := Option.bind_eq_some_iff.mp h
      obtain ⟨decodedRest, hdecodedRest, heq⟩ := Option.bind_eq_some_iff.mp h
      cases heq
      exact .cons ⟨rfl, hentry decoded hdecoded⟩ (ih hrest hdecodedRest)

/-- Entries whose values load load themselves, once decoded and put in order. -/
theorem Entries.LoadAs.of_decodeEntries? (once : (entries.map Prod.fst).Nodup)
    (each : ∀ entry ∈ entries, ∀ decoded, entry.2.decode? reader = some decoded →
      entry.2.LoadsAs reader decoded.sorted)
    (h : decodeEntries? reader entries = some decodedEntries) :
    Entries.LoadAs reader entries (sortEntries (sortedEntries decodedEntries)) := by
  have himages := forall₂_of_decodeEntries? each h
  have hnodup : ((sortedEntries decodedEntries).map Prod.fst).Nodup :=
    keys_eq_of_forall₂ himages ▸ once
  refine ⟨fun key => ?_, keysAscend_sortEntries hnodup⟩
  have hperm : (sortEntries (sortedEntries decodedEntries)).Perm (sortedEntries decodedEntries) :=
    List.mergeSort_perm ..
  rw [lookup_eq_of_perm hnodup hperm]
  exact lookup_rel himages key

/-- A value that decodes loads as what it decodes to, with the tables in order. -/
theorem Value.LoadsAs.of_decode? (h : value.KeysOnce)
    (hdecode : value.decode? reader = some decoded) : value.LoadsAs reader decoded.sorted := by
  induction h generalizing decoded with
  | array each ih =>
      obtain ⟨decodedElements, helements, rfl⟩ := Option.map_eq_some_iff.mp hdecode
      exact .array (forall₂_of_decodeElements? (fun value hvalue _ => ih value hvalue) helements)
  | @table entries once each ih =>
      unfold Value.decode? at hdecode
      split at hdecode
      · next text hreserved =>
          obtain ⟨rest, rfl⟩ := reserved?_eq_some_iff.mp hreserved
          obtain ⟨moment, hmoment, rfl⟩ := Option.map_eq_some_iff.mp hdecode
          exact .reserved hmoment
      · cases hdecode
      · next hplain =>
          obtain ⟨decodedEntries, hentries, rfl⟩ := Option.map_eq_some_iff.mp hdecode
          have hload := Entries.LoadAs.of_decodeEntries? once
            (fun entry hentry _ => ih entry hentry) hentries
          exact .table hplain hload.under hload.ascend
  | string content => cases hdecode; exact .string content
  | integer number => cases hdecode; exact .integer number
  | float number => cases hdecode; exact .float number
  | boolean truth => cases hdecode; exact .boolean truth
  | dateTime moment => cases hdecode; exact .dateTime moment

theorem exists_decodeElements?
    (h : ∀ value ∈ elements, ∃ decoded, value.decode? reader = some decoded) :
    ∃ decoded, decodeElements? reader elements = some decoded := by
  induction elements with
  | nil => exact ⟨[], rfl⟩
  | cons value rest ih =>
      obtain ⟨⟨decoded, hdecoded⟩, hrest⟩ := List.forall_mem_cons.mp h
      obtain ⟨decodedRest, hdecodedRest⟩ := ih hrest
      exact ⟨decoded :: decodedRest, by simp [decodeElements?, hdecoded, hdecodedRest]⟩

theorem exists_decodeEntries?
    (h : ∀ entry ∈ entries, ∃ decoded, entry.2.decode? reader = some decoded) :
    ∃ decoded, decodeEntries? reader entries = some decoded := by
  induction entries with
  | nil => exact ⟨[], rfl⟩
  | cons entry rest ih =>
      obtain ⟨⟨decoded, hdecoded⟩, hrest⟩ := List.forall_mem_cons.mp h
      obtain ⟨decodedRest, hdecodedRest⟩ := ih hrest
      exact ⟨(entry.1, decoded) :: decodedRest, by simp [decodeEntries?, hdecoded, hdecodedRest]⟩

theorem Value.Loadable.exists_decode? (h : value.Loadable reader) :
    ∃ decoded, value.decode? reader = some decoded := by
  induction h with
  | array each ih =>
      obtain ⟨decoded, hdecoded⟩ := exists_decodeElements? ih
      exact ⟨.array decoded, by rw [Value.decode?, hdecoded]; rfl⟩
  | table plain each ih =>
      obtain ⟨decoded, hdecoded⟩ := exists_decodeEntries? ih
      exact ⟨.table decoded, by rw [Value.decode?, plain, hdecoded]; rfl⟩
  | @reserved text moment rest spells =>
      have hreserved : reserved? ((dateTimeKey, .string text) :: rest) = some (.string text) :=
        reserved?_eq_some_iff.mpr ⟨rest, rfl⟩
      refine ⟨.dateTime moment, ?_⟩
      rw [Value.decode?, hreserved]
      exact congrArg (Option.map Value.dateTime) spells
  | _ => exact ⟨_, rfl⟩

theorem Entries.LoadAs.exists_loadsAs {entry : String × Value} (h : entries.LoadAs reader loaded)
    (once : (entries.map Prod.fst).Nodup) (hentry : entry ∈ entries) :
    ∃ image, entry.2.LoadsAs reader image := by
  have hunder := h.under entry.1
  rw [(mem_iff_lookup once).mp hentry] at hunder
  generalize loaded.lookup entry.1 = image at hunder
  cases hunder with
  | some hload => exact ⟨_, hload⟩

theorem Entries.LoadAs.unique_of {other : Entries} (once : (entries.map Prod.fst).Nodup)
    (unique : ∀ entry ∈ entries, ∀ a b,
      entry.2.LoadsAs reader a → entry.2.LoadsAs reader b → a = b)
    (h : entries.LoadAs reader loaded) (hother : entries.LoadAs reader other) : loaded = other := by
  refine h.ascend.eq_of_lookup hother.ascend fun key => ?_
  exact eq_of_optionRel (fun value hvalue => unique (key, value) ((mem_iff_lookup once).mpr hvalue))
    (h.under key) (hother.under key)

theorem Value.LoadsAs.loadable (hkeys : value.KeysOnce) (h : value.LoadsAs reader a) :
    value.Loadable reader := by
  induction hkeys generalizing a with
  | array each ih =>
      cases h with
      | array hloaded =>
          refine .array fun value hvalue => ?_
          obtain ⟨image, hload⟩ := exists_of_forall₂ hloaded hvalue
          exact ih value hvalue hload
  | table once each ih =>
      cases h with
      | table plain under ascend =>
          refine .table plain fun entry hentry => ?_
          obtain ⟨image, hload⟩ := Entries.LoadAs.exists_loadsAs ⟨under, ascend⟩ once hentry
          exact ih entry hentry hload
      | reserved spells => exact .reserved spells
  | string content => exact .string content
  | integer number => exact .integer number
  | float number => exact .float number
  | boolean truth => exact .boolean truth
  | dateTime moment => exact .dateTime moment

/-- A value loads as one value only. -/
theorem Value.LoadsAs.unique (hkeys : value.KeysOnce) (ha : value.LoadsAs reader a)
    (hb : value.LoadsAs reader b) : a = b := by
  induction hkeys generalizing a b with
  | array each ih =>
      cases ha with
      | array ha =>
          cases hb with
          | array hb => exact congrArg Value.array (eq_of_forall₂ (fun x hx _ _ => ih x hx) ha hb)
  | @table entries once each ih =>
      cases ha with
      | table plain underA ascendA =>
          cases hb with
          | table _ underB ascendB =>
              exact congrArg Value.table (Entries.LoadAs.unique_of once
                (fun entry hentry _ _ => ih entry hentry) ⟨underA, ascendA⟩ ⟨underB, ascendB⟩)
          | reserved => cases plain
      | reserved spellsA =>
          cases hb with
          | table plain => cases plain
          | reserved spellsB =>
              exact congrArg Value.dateTime (Option.some.inj (spellsA.symm.trans spellsB))
  | _ => cases ha; cases hb; rfl

end MailMerge.Toml
