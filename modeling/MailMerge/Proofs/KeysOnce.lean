import MailMerge.Proofs.Steps
import MailMerge.Proofs.TablePaths

/-!
# No key twice

Whatever a document says, no table that is made of it has two entries under one key.
For dotted keys, and for headers of list elements, that is looked after when they are
put into a table. The table of a header of its own is another matter: it is taken out
of its parent while it gets its assignments, and it is put back without a second look
at the parent. So an invariant is needed of a document under construction, that the
place is still vacant then (`Draft.KeysOnce`), and that in turn comes from what is at
the end of a path after the table there has been changed (`Table.follow?_of_modifyAt?`).
-/

namespace MailMerge.Toml

/-- No table in a value has two entries under one key. -/
inductive Value.KeysOnce : Value → Prop
  | string (content : String) : KeysOnce (.string content)
  | integer (value : Int64) : KeysOnce (.integer value)
  | float (value : Binary64) : KeysOnce (.float value)
  | boolean (value : Bool) : KeysOnce (.boolean value)
  | dateTime (value : DateTime) : KeysOnce (.dateTime value)
  | array {elements : List Value} (each : ∀ value ∈ elements, KeysOnce value) :
      KeysOnce (.array elements)
  | table {entries : Entries} (once : (entries.map Prod.fst).Nodup)
      (each : ∀ entry ∈ entries, KeysOnce entry.2) : KeysOnce (.table entries)

theorem Value.KeysOnce.nodup {entries : Entries} (h : (Value.table entries).KeysOnce) :
    (entries.map Prod.fst).Nodup := by
  cases h with
  | table once each => exact once

theorem Value.KeysOnce.of_lookup {entries : Entries} {key : String} {value : Value}
    (h : (Value.table entries).KeysOnce) (hlookup : entries.lookup key = some value) :
    value.KeysOnce := by
  cases h with
  | table once each => exact each _ ((mem_iff_lookup once).mpr hlookup)

theorem Value.KeysOnce.of_mem {elements : List Value} (h : (Value.array elements).KeysOnce) :
    ∀ value ∈ elements, value.KeysOnce := by
  cases h with
  | array each => exact each

/-! ## Tables under construction -/

theorem tableValues_eq_map : ∀ tables, tableValues tables = tables.map Table.value
  | [] => rfl
  | table :: rest => congrArg (table.value :: ·) (tableValues_eq_map rest)

theorem entryValues_eq_map : ∀ entries,
    entryValues entries = entries.map fun entry => (entry.1, entry.2.finished)
  | [] => rfl
  | (key, node) :: rest => congrArg ((key, node.finished) :: ·) (entryValues_eq_map rest)

theorem keys_entryValues (entries : List (String × Node)) :
    (entryValues entries).map Prod.fst = entries.map Prod.fst := by
  rw [entryValues_eq_map, List.map_map]
  rfl

namespace Table

variable {table : Table} {key : String} {node : Node}

def KeysOnce (table : Table) : Prop :=
  table.value.KeysOnce

theorem value_eq (table : Table) : table.value = .table (entryValues table.entries) := by
  cases table
  rfl

theorem keysOnce_iff : table.KeysOnce ↔
    (table.entries.map Prod.fst).Nodup ∧ ∀ entry ∈ table.entries, entry.2.finished.KeysOnce := by
  unfold KeysOnce
  rw [value_eq]
  constructor
  · intro h
    cases h with
    | table once each =>
        rw [keys_entryValues] at once
        rw [entryValues_eq_map] at each
        exact ⟨once, fun entry hentry => each _ (List.mem_map_of_mem hentry)⟩
  · rintro ⟨once, each⟩
    refine .table ((keys_entryValues table.entries).symm ▸ once) fun entry hentry => ?_
    rw [entryValues_eq_map] at hentry
    obtain ⟨source, hsource, rfl⟩ := List.mem_map.mp hentry
    exact each source hsource

theorem keysOnce_congr {other : Table} (h : table.entries = other.entries) :
    table.KeysOnce ↔ other.KeysOnce := by
  rw [keysOnce_iff, keysOnce_iff, h]

theorem keysOnce_of_entries_nil (h : table.entries = []) : table.KeysOnce := by
  rw [keysOnce_iff, h]
  exact ⟨List.nodup_nil, fun _ hentry => nomatch hentry⟩

theorem KeysOnce.of_find? (h : table.KeysOnce) (hfind : table.find? key = some node) :
    node.finished.KeysOnce := by
  obtain ⟨before, after, hentries, -⟩ := List.lookup_eq_some_iff.mp hfind
  refine (keysOnce_iff.mp h).2 (key, node) ?_
  rw [hentries]
  exact List.mem_append_right _ (List.mem_cons_self ..)

theorem KeysOnce.push (h : table.KeysOnce) (hkey : table.find? key = none)
    (hnode : node.finished.KeysOnce) : (table.push key node).KeysOnce := by
  obtain ⟨once, each⟩ := keysOnce_iff.mp h
  have hentries : (table.push key node).entries = table.entries ++ [(key, node)] := rfl
  have hkeys : (table.push key node).entries.map Prod.fst
      = table.entries.map Prod.fst ++ [key] := List.map_append
  rw [keysOnce_iff, hkeys, hentries]
  constructor
  · refine List.nodup_append.mpr ⟨once, List.pairwise_singleton .., ?_⟩
    rintro name hname _ hnew rfl
    rw [List.mem_singleton.mp hnew] at hname
    exact lookup_eq_none_iff_not_mem.mp hkey hname
  · intro entry hentry
    rcases List.mem_append.mp hentry with hold | hnew
    · exact each entry hold
    · rw [List.mem_singleton.mp hnew]
      exact hnode

theorem KeysOnce.replace (h : table.KeysOnce) (hnode : node.finished.KeysOnce) :
    (table.replace key node).KeysOnce := by
  obtain ⟨once, each⟩ := keysOnce_iff.mp h
  have hentries : (table.replace key node).entries
      = table.entries.map fun entry => if entry.1 == key then (key, node) else entry := rfl
  have hkeys : (table.replace key node).entries.map Prod.fst = table.entries.map Prod.fst := by
    rw [hentries, List.map_map]
    refine List.map_congr_left fun entry _ => ?_
    by_cases hentry : entry.1 = key <;> simp [hentry]
  refine keysOnce_iff.mpr ⟨hkeys.symm ▸ once, fun entry hentry => ?_⟩
  rw [hentries] at hentry
  obtain ⟨old, hold, rfl⟩ := List.mem_map.mp hentry
  split
  · exact hnode
  · exact each old hold

theorem KeysOnce.erase (h : table.KeysOnce) : (table.erase key).KeysOnce := by
  obtain ⟨once, each⟩ := keysOnce_iff.mp h
  have hsublist : (table.erase key).entries.Sublist table.entries := List.filter_sublist
  exact keysOnce_iff.mpr
    ⟨(hsublist.map Prod.fst).nodup once, fun entry hentry => each entry (hsublist.mem hentry)⟩

end Table

theorem Node.keysOnce_elements {first : Table} {others : List Table} :
    (Node.elements first others).finished.KeysOnce
      ↔ first.KeysOnce ∧ ∀ table ∈ others, table.KeysOnce := by
  have hfinished : (Node.elements first others).finished
      = .array ((first :: others).map Table.value) := by
    rw [← tableValues_eq_map]
    rfl
  rw [hfinished]
  constructor
  · intro h
    cases h with
    | array each =>
        have htables : ∀ table ∈ first :: others, table.KeysOnce :=
          fun table htable => each _ (List.mem_map_of_mem htable)
        exact List.forall_mem_cons.mp htables
  · intro h
    refine .array fun value hvalue => ?_
    obtain ⟨table, htable, rfl⟩ := List.mem_map.mp hvalue
    exact List.forall_mem_cons.mpr h table htable

/-! ## Changes of tables -/

namespace Table

variable {table inner result : Table} {dotted : Bool} {change : Table → Option Table}
  {key : String} {path : List String}

theorem KeysOnce.enter? (h : table.KeysOnce) (henter : table.enter? dotted key = some inner) :
    inner.KeysOnce := by
  unfold Table.enter? at henter
  split at henter
  · cases henter
    exact keysOnce_of_entries_nil rfl
  · cases henter
  · next hfind =>
      split at henter
      · cases henter
      · cases henter
        exact h.of_find? hfind
  · next first others hfind =>
      obtain ⟨hfirst, hothers⟩ := Node.keysOnce_elements.mp (h.of_find? hfind)
      cases henter
      cases hlast : others.getLast? with
      | none => exact hfirst
      | some last => exact hothers last (List.mem_of_getLast? hlast)

theorem KeysOnce.put (h : table.KeysOnce) (hinner : inner.KeysOnce) :
    (table.put key inner).KeysOnce := by
  unfold Table.put
  split
  · next hfind => exact h.push hfind hinner
  · next first others hfind =>
      obtain ⟨hfirst, hothers⟩ := Node.keysOnce_elements.mp (h.of_find? hfind)
      refine h.replace ?_
      split
      · exact Node.keysOnce_elements.mpr ⟨hinner, fun _ htable => nomatch htable⟩
      · refine Node.keysOnce_elements.mpr ⟨hfirst, fun table htable => ?_⟩
        rcases List.mem_append.mp htable with hinit | hnew
        · exact hothers table (List.dropLast_subset _ hinit)
        · rw [List.mem_singleton.mp hnew]
          exact hinner
  · exact h.replace hinner

theorem KeysOnce.modifyAt? (h : table.KeysOnce)
    (hchange : ∀ {last changed}, last.KeysOnce → change last = some changed → changed.KeysOnce)
    (hmodify : table.modifyAt? dotted change path = some result) : result.KeysOnce := by
  induction path generalizing table result with
  | nil => exact hchange h hmodify
  | cons key path ih =>
      rw [modifyAt?_cons] at hmodify
      obtain ⟨inner, hinner, hmap⟩ := Option.bind_eq_some_iff.mp hmodify
      obtain ⟨changed, hchanged, rfl⟩ := Option.map_eq_some_iff.mp hmap
      exact h.put (ih (h.enter? hinner) hchanged)

theorem KeysOnce.assign? {path : KeyPath} {value : Value} (h : table.KeysOnce)
    (hvalue : value.KeysOnce) (hassign : table.assign? path value = some result) :
    result.KeysOnce := by
  refine h.modifyAt? (fun hlast hchange => ?_) hassign
  split at hchange
  · cases hchange
  · split at hchange
    · cases hchange
    · next hfree =>
        cases hchange
        exact hlast.push (Option.not_isSome_iff_eq_none.mp hfree) hvalue

theorem KeysOnce.follow? (h : table.KeysOnce) (hfollow : table.follow? path = some inner) :
    inner.KeysOnce := by
  induction path generalizing table with
  | nil =>
      cases hfollow
      exact h
  | cons key path ih =>
      rw [follow?_cons] at hfollow
      obtain ⟨next, hnext, hfollow⟩ := Option.bind_eq_some_iff.mp hfollow
      exact ih (h.enter? hnext) hfollow

theorem KeysOnce.open? (h : table.KeysOnce) (hopen : table.open? key = some (inner, result)) :
    inner.KeysOnce ∧ result.KeysOnce := by
  obtain ⟨-, ⟨rfl, rfl⟩ | ⟨old, hfind, rfl, rfl⟩⟩ := open?_cases hopen
  · exact ⟨keysOnce_of_entries_nil rfl, h⟩
  · have hentries : old.opened.entries = old.entries := rfl
    exact ⟨(keysOnce_congr hentries).mpr (h.of_find? hfind), h.erase⟩

end Table

/-! ## Values from text -/

variable {text rest : List Char} {value : Value}

theorem keysOnce_of_tableOfAssignments? {assignments : List (KeyPath × Value)}
    (h : ∀ assignment ∈ assignments, assignment.2.KeysOnce)
    (htable : tableOfAssignments? assignments = some value) : value.KeysOnce := by
  obtain ⟨table, hfold, rfl⟩ := Option.map_eq_some_iff.mp htable
  have hkeys : table.KeysOnce := foldlM_invariant
    (fun assignment hmem table next htable hnext =>
      Table.KeysOnce.assign? htable (h assignment hmem) hnext)
    (Table.keysOnce_of_entries_nil rfl : Table.empty.KeysOnce) hfold
  exact hkeys

/-- The values that a reader reads have no key twice in a table. -/
def Reader.ReadsKeysOnce (reader : Reader Value) : Prop :=
  ∀ ⦃text value rest⦄, reader text = some (value, rest) → value.KeysOnce

variable {reader : Reader Value}

theorem Reader.ReadsKeysOnce.elements (h : reader.ReadsKeysOnce) {fuel : Nat}
    {elements : List Value} (hread : readElements? reader fuel text = some (elements, rest)) :
    ∀ element ∈ elements, element.KeysOnce := by
  induction fuel generalizing text elements rest with
  | zero => cases hread
  | succ fuel ih =>
      unfold readElements? at hread
      split at hread
      · cases hread
        exact fun _ helement => nomatch helement
      · obtain ⟨⟨value, rest⟩, hvalue, hread⟩ := Option.bind_eq_some_iff.mp hread
        dsimp only at hread
        split at hread
        · obtain ⟨⟨values, rest⟩, hvalues, heq⟩ := Option.bind_eq_some_iff.mp hread
          cases heq
          exact List.forall_mem_cons.mpr ⟨h hvalue, ih hvalues⟩
        · cases hread
          exact List.forall_mem_singleton.mpr (h hvalue)
        · cases hread

theorem Reader.ReadsKeysOnce.assignment (h : reader.ReadsKeysOnce) {assignment : KeyPath × Value}
    (hread : readAssignment? reader text = some (assignment, rest)) : assignment.2.KeysOnce := by
  obtain ⟨⟨path, after⟩, -, hread⟩ := Option.bind_eq_some_iff.mp hread
  dsimp only at hread
  split at hread
  · obtain ⟨⟨value, after⟩, hvalue, heq⟩ := Option.bind_eq_some_iff.mp hread
    cases heq
    exact h hvalue
  · cases hread

theorem Reader.ReadsKeysOnce.assignments (h : reader.ReadsKeysOnce) {fuel : Nat}
    {assignments : List (KeyPath × Value)}
    (hread : readAssignments? reader fuel text = some (assignments, rest)) :
    ∀ assignment ∈ assignments, assignment.2.KeysOnce := by
  induction fuel generalizing text assignments rest with
  | zero => cases hread
  | succ fuel ih =>
      obtain ⟨⟨assignment, after⟩, hassignment, hread⟩ := Option.bind_eq_some_iff.mp hread
      have hfirst := h.assignment hassignment
      dsimp only at hread
      split at hread
      · obtain ⟨⟨others, after⟩, hothers, heq⟩ := Option.bind_eq_some_iff.mp hread
        cases heq
        exact List.forall_mem_cons.mpr ⟨hfirst, ih hothers⟩
      · cases hread
        exact List.forall_mem_singleton.mpr hfirst
      · cases hread

theorem Reader.ReadsKeysOnce.inlineTable (h : reader.ReadsKeysOnce) :
    Reader.ReadsKeysOnce (readInlineTable? reader) := by
  intro text value rest hread
  unfold readInlineTable? at hread
  split at hread
  · cases hread
    exact .table List.nodup_nil fun _ hentry => nomatch hentry
  · obtain ⟨⟨assignments, after⟩, hassignments, hread⟩ := Option.bind_eq_some_iff.mp hread
    obtain ⟨table, htable, heq⟩ := Option.bind_eq_some_iff.mp hread
    cases heq
    exact keysOnce_of_tableOfAssignments? (h.assignments hassignments) htable

theorem readNumeral?_keysOnce : Reader.ReadsKeysOnce readNumeral? := by
  intro text value rest hread
  unfold readNumeral? at hread
  split at hread
  · cases hread
    exact .dateTime _
  · split at hread
    · cases hread
      exact .float _
    · split at hread
      · cases hread
        exact .float _
      · obtain ⟨⟨number, after⟩, -, heq⟩ := Option.map_eq_some_iff.mp hread
        cases heq
        exact .integer _

theorem readValue?_keysOnce (depth : Nat) : Reader.ReadsKeysOnce (readValue? depth) := by
  induction depth using Nat.strongRecOn with
  | ind depth ih =>
      intro text value rest hread
      unfold readValue? at hread
      split at hread
      · obtain ⟨⟨content, after⟩, -, heq⟩ := Option.map_eq_some_iff.mp hread
        cases heq
        exact .string _
      · obtain ⟨⟨content, after⟩, -, heq⟩ := Option.map_eq_some_iff.mp hread
        cases heq
        exact .string _
      · split at hread
        · cases hread
        · next inner =>
            obtain ⟨⟨elements, after⟩, helements, heq⟩ := Option.map_eq_some_iff.mp hread
            cases heq
            exact .array ((ih inner (Nat.lt_succ_self inner)).elements helements)
      · split at hread
        · cases hread
        · next inner => exact (ih inner (Nat.lt_succ_self inner)).inlineTable hread
      · cases hread
        exact .boolean _
      · cases hread
        exact .boolean _
      · exact readNumeral?_keysOnce hread

/-! ## Documents -/

/-- The value that a statement gives to a key, if it is an assignment, has no key twice. -/
def Statement.KeysOnce : Statement → Prop
  | .assignment _ value => value.KeysOnce
  | _ => True

theorem readStatement?_keysOnce {statement : Statement}
    (h : readStatement? text = some (statement, rest)) : statement.KeysOnce := by
  unfold readStatement? at h
  split at h
  · obtain ⟨⟨path, after⟩, -, h⟩ := Option.bind_eq_some_iff.mp h
    dsimp only at h
    split at h
    · obtain ⟨_, -, heq⟩ := Option.bind_eq_some_iff.mp h
      cases heq
      trivial
    · cases h
  · obtain ⟨⟨path, after⟩, -, h⟩ := Option.bind_eq_some_iff.mp h
    dsimp only at h
    split at h
    · obtain ⟨_, -, heq⟩ := Option.bind_eq_some_iff.mp h
      cases heq
      trivial
    · cases h
  · obtain ⟨⟨⟨path, value⟩, after⟩, hassignment, h⟩ := Option.bind_eq_some_iff.mp h
    obtain ⟨_, -, heq⟩ := Option.bind_eq_some_iff.mp h
    cases heq
    exact (readValue?_keysOnce depthBound).assignment hassignment

theorem readStatements?_keysOnce {fuel : Nat} {statements : List Statement}
    (h : readStatements? fuel text = some statements) :
    ∀ statement ∈ statements, statement.KeysOnce := by
  induction fuel generalizing text statements with
  | zero => cases h
  | succ fuel ih =>
      unfold readStatements? at h
      split at h
      · cases h
        exact fun _ hstatement => nomatch hstatement
      · obtain ⟨⟨statement, after⟩, hstatement, h⟩ := Option.bind_eq_some_iff.mp h
        obtain ⟨others, hothers, heq⟩ := Option.bind_eq_some_iff.mp h
        cases heq
        exact List.forall_mem_cons.mpr ⟨readStatement?_keysOnce hstatement, ih hothers⟩

/-- No table of a document under construction has a key twice, and where the table of
the last header will be put there is nothing yet. -/
structure Draft.KeysOnce (draft : Draft) : Prop where
  root : draft.root.KeysOnce
  current : draft.current.KeysOnce
  vacant : ∀ path, draft.header = .table path →
    ∀ parent, draft.root.follow? path.parents = some parent → parent.find? path.key = none

namespace Draft

variable {draft next : Draft} {statement : Statement}

theorem keysOnce_start : start.KeysOnce where
  root := Table.keysOnce_of_entries_nil rfl
  current := Table.keysOnce_of_entries_nil rfl
  vacant _ hheader := nomatch hheader

theorem KeysOnce.close? {root : Table} (h : draft.KeysOnce) (hclose : draft.close? = some root) :
    root.KeysOnce := by
  unfold Draft.close? at hclose
  split at hclose
  · cases hclose
    exact h.current
  · next path hheader =>
      -- At the end of the path the key is free, so a look at it would not change anything.
      have hguarded : draft.root.modifyAt? false
          (fun parent => some (parent.push path.key (.table draft.current))) path.parents
          = draft.root.modifyAt? false (fun parent =>
              if parent.find? path.key = none then
                some (parent.push path.key (.table draft.current))
              else none) path.parents :=
        Table.modifyAt?_congr fun parent hparent =>
          (if_pos (h.vacant path hheader parent hparent)).symm
      rw [hguarded] at hclose
      refine h.root.modifyAt? (fun hparent hchange => ?_) hclose
      obtain ⟨hfree, heq⟩ := Option.ite_none_right_eq_some.mp hchange
      cases heq
      exact hparent.push hfree h.current
  · next path hheader =>
      refine h.root.modifyAt? (fun hparent hchange => ?_) hclose
      split at hchange
      · next hfree =>
          cases hchange
          refine hparent.push hfree (Node.keysOnce_elements.mpr ⟨h.current, ?_⟩)
          exact fun _ htable => nomatch htable
      · next first others hfind =>
          cases hchange
          obtain ⟨hfirst, hothers⟩ := Node.keysOnce_elements.mp (hparent.of_find? hfind)
          refine hparent.replace (Node.keysOnce_elements.mpr ⟨hfirst, fun table htable => ?_⟩)
          rcases List.mem_append.mp htable with hold | hnew
          · exact hothers table hold
          · rw [List.mem_singleton.mp hnew]
            exact h.current
      · cases hchange

theorem KeysOnce.add? (h : draft.KeysOnce) (hstatement : statement.KeysOnce)
    (hadd : draft.add? statement = some next) : next.KeysOnce := by
  cases statement with
  | assignment path value =>
      obtain ⟨current, hcurrent, heq⟩ := Option.bind_eq_some_iff.mp hadd
      cases heq
      exact ⟨h.root, h.current.assign? hstatement hcurrent, h.vacant⟩
  | elementHeader path =>
      obtain ⟨root, hroot, heq⟩ := Option.bind_eq_some_iff.mp hadd
      cases heq
      exact ⟨h.close? hroot, Table.keysOnce_of_entries_nil rfl, fun _ hheader => nomatch hheader⟩
  | tableHeader path =>
      obtain ⟨closed, hclosed, hadd⟩ := Option.bind_eq_some_iff.mp hadd
      obtain ⟨parent, hparent, hadd⟩ := Option.bind_eq_some_iff.mp hadd
      obtain ⟨⟨current, without⟩, hopen, hadd⟩ := Option.bind_eq_some_iff.mp hadd
      obtain ⟨root, hroot, heq⟩ := Option.bind_eq_some_iff.mp hadd
      cases heq
      refine ⟨(h.close? hclosed).modifyAt? (fun hlast hchange => ?_) hroot,
        (((h.close? hclosed).follow? hparent).open? hopen).1, ?_⟩
      · obtain ⟨⟨opened, rest⟩, hopen, rfl⟩ := Option.map_eq_some_iff.mp hchange
        exact (hlast.open? hopen).2
      · rintro _ ⟨⟩ last hlast
        obtain ⟨_, changed, hchange, hfollow⟩ := Table.follow?_of_modifyAt? hroot
        obtain ⟨⟨opened, rest⟩, hopen, rfl⟩ := Option.map_eq_some_iff.mp hchange
        cases hlast.symm.trans hfollow
        exact (Table.open?_cases hopen).1

end Draft

/-- No table of a document has a key twice, the document itself included. -/
theorem parse?_keysOnce {document : String} {entries : Entries}
    (h : parse? document = some entries) : (Value.table entries).KeysOnce := by
  obtain ⟨statements, hstatements, h⟩ := Option.bind_eq_some_iff.mp h
  obtain ⟨draft, hdraft, h⟩ := Option.bind_eq_some_iff.mp h
  obtain ⟨root, hroot, heq⟩ := Option.bind_eq_some_iff.mp h
  cases heq
  rw [← Table.value_eq]
  have hkeys : draft.KeysOnce := foldlM_invariant
    (fun statement hmem draft next hdraft hnext =>
      hdraft.add? (readStatements?_keysOnce hstatements statement hmem) hnext)
    Draft.keysOnce_start hdraft
  exact hkeys.close? hroot

end MailMerge.Toml
