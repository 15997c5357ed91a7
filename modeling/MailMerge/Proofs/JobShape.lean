import MailMerge.Job.Loading
import MailMerge.Proofs.LoadedValues

/-!
# Which documents are jobs

A job is a document with three keys that matter: there is a template, perhaps the name
of a field, and perhaps an array of tables, the records. That is not quite what is
accepted. A date or time presents itself to the loader as the table with its text under
the reserved key, so it is taken for a record; and a table in front of which that key
stands is taken for a date or time inside a record, so it is refused if its text is
none (`JobShape`, for the kind of elements that records are made of).

Which texts are a date or time under that key is up to the reader (`DateTime.Reader`);
what is said of documents here holds for every one.

The entries of the document are gone through one by one. The parts found so far are
those of the entries seen so far (`JobParts.FoundIn`); for that no key may come a second
time, since the later entry would take the place of the first.
-/

namespace MailMerge

open Toml

/-! ## The shape of a job -/

/-- A table, whatever its values are. -/
def Toml.Value.IsTable (value : Value) : Prop :=
  ∃ entries, value = .table entries

section

variable (reader : DateTime.Reader)

/-- What is taken for a record: a table of values that can be loaded, and a date or time. -/
inductive Toml.Value.IsRecord : Value → Prop
  | table {entries : Entries} (each : ∀ entry ∈ entries, entry.2.Loadable reader) :
      IsRecord (.table entries)
  | dateTime (value : DateTime) : IsRecord (.dateTime value)

/-- The record that an element is loaded as. The reserved key does not count in front of
a record. -/
inductive Toml.Value.LoadsAsRecord : Value → Record → Prop
  | table {entries record : Entries} (load : entries.LoadAs reader record) :
      LoadsAsRecord (.table entries) record
  | dateTime (value : DateTime) :
      LoadsAsRecord (.dateTime value) [(dateTimeKey, .string (String.ofList value.text))]

/-- A document that has a template, no other `sort_by` than a name, and no other `records`
than an array of elements of a certain kind. -/
structure JobShape (IsElement : Value → Prop) (entries : Entries) : Prop where
  template : ∃ template, entries.lookup "format" = some (.string template)
  sortBy : ∀ value, entries.lookup "sort_by" = some value → ∃ field, value = .string field
  records : ∀ value, entries.lookup "records" = some value →
    ∃ elements, value = .array elements ∧ ∀ element ∈ elements, IsElement element

/-- A job with the template, the field and, in their order, the records of a document. -/
structure Job.LoadedFrom (job : Job) (entries : Entries) : Prop where
  template : entries.lookup "format" = some (.string job.template)
  sortBy : entries.lookup "sort_by" = job.sortBy.map .string
  records : entries.lookup "records" = none ∧ job.records = [] ∨
    ∃ elements, entries.lookup "records" = some (.array elements) ∧
      List.Forall₂ (Value.LoadsAsRecord reader) elements job.records

end

/-! ## Records from elements -/

section

variable {reader : DateTime.Reader} {value : Value} {elements : List Value} {record : Record}
  {records : List Record}

theorem loadsAsRecord_of_recordOf (hkeys : value.KeysOnce)
    (h : recordOf reader value = .ok record) : value.LoadsAsRecord reader record := by
  unfold recordOf at h
  split at h
  · next entries =>
      split at h
      · next hentries =>
          cases h
          obtain ⟨decoded, hdecoded, rfl⟩ := Option.map_eq_some_iff.mp hentries
          cases hkeys with
          | table once each =>
              exact .table (.of_decodeEntries? once
                (fun entry hentry _ hdecode => .of_decode? (each entry hentry) hdecode) hdecoded)
      · cases h
  · cases h
    exact .dateTime _
  · cases h

theorem forall₂_of_recordsOf (hkeys : ∀ value ∈ elements, value.KeysOnce)
    (h : recordsOf reader elements = .ok records) :
    List.Forall₂ (Value.LoadsAsRecord reader) elements records := by
  induction elements generalizing records with
  | nil =>
      cases h
      exact .nil
  | cons value rest ih =>
      obtain ⟨hvalue, hrest⟩ := List.forall_mem_cons.mp hkeys
      obtain ⟨record, hrecord, h⟩ := bind_eq_ok_iff.mp h
      obtain ⟨others, hothers, heq⟩ := bind_eq_ok_iff.mp h
      cases heq
      exact .cons (loadsAsRecord_of_recordOf hvalue hrecord) (ih hrest hothers)

theorem Toml.Value.IsRecord.exists_recordOf (h : value.IsRecord reader) :
    ∃ record, recordOf reader value = .ok record := by
  cases h with
  | table each =>
      obtain ⟨decoded, hdecoded⟩ := exists_decodeEntries? fun entry hentry =>
        (each entry hentry).exists_decode?
      exact ⟨_, by rw [recordOf, Record.ofEntries?, hdecoded]; rfl⟩
  | dateTime value => exact ⟨value.asTable, rfl⟩

theorem exists_recordsOf (h : ∀ value ∈ elements, value.IsRecord reader) :
    ∃ records, recordsOf reader elements = .ok records := by
  induction elements with
  | nil => exact ⟨[], rfl⟩
  | cons value rest ih =>
      obtain ⟨hvalue, hrest⟩ := List.forall_mem_cons.mp h
      obtain ⟨record, hrecord⟩ := hvalue.exists_recordOf
      obtain ⟨records, hrecords⟩ := ih hrest
      exact ⟨record :: records, by rw [recordsOf, hrecord, hrecords]; rfl⟩

theorem Toml.Value.LoadsAsRecord.isRecord (h : value.LoadsAsRecord reader record)
    (hkeys : value.KeysOnce) : value.IsRecord reader := by
  cases h with
  | table load =>
      cases hkeys with
      | table once each =>
          refine .table fun entry hentry => ?_
          obtain ⟨image, hload⟩ := load.exists_loadsAs once hentry
          exact hload.loadable (each entry hentry)
  | dateTime value => exact .dateTime value

theorem Toml.Value.LoadsAsRecord.unique {other : Record} (h : value.LoadsAsRecord reader record)
    (hkeys : value.KeysOnce) (hother : value.LoadsAsRecord reader other) : record = other := by
  cases h with
  | table load =>
      cases hother with
      | table loadOther =>
          cases hkeys with
          | table once each =>
              refine Entries.LoadAs.unique_of once (fun entry hentry _ _ ha hb => ?_) load loadOther
              exact ha.unique (each entry hentry) hb
  | dateTime =>
      cases hother
      rfl

end

/-! ## Parts from entries -/

/-- What was found of a job among some entries. -/
structure JobParts.FoundIn (reader : DateTime.Reader) (parts : JobParts) (seen : Entries) :
    Prop where
  template : seen.lookup "format" = parts.template.map .string
  sortBy : seen.lookup "sort_by" = parts.sortBy.map .string
  records : Option.Rel
    (fun value records =>
      ∃ elements, value = .array elements ∧ recordsOf reader elements = .ok records)
    (seen.lookup "records") parts.records

section

variable {reader : DateTime.Reader} {parts next : JobParts} {entries seen rest : Entries}
  {entry : String × Value} {job : Job}

theorem JobParts.FoundIn.start : FoundIn reader ⟨none, none, none⟩ [] :=
  ⟨rfl, rfl, .none⟩

/-- What an entry that is taken adds to the parts found so far. -/
inductive JobParts.Adds (reader : DateTime.Reader) (parts : JobParts) :
    String × Value → JobParts → Prop
  | template (template : String) :
      Adds reader parts ("format", .string template) { parts with template := some template }
  | sortBy (field : String) :
      Adds reader parts ("sort_by", .string field) { parts with sortBy := some field }
  | records {elements : List Value} {records : List Record}
      (load : recordsOf reader elements = .ok records) :
      Adds reader parts ("records", .array elements) { parts with records := some records }
  | other {entry : String × Value} (noTemplate : entry.1 ≠ "format")
      (noSortBy : entry.1 ≠ "sort_by") (noRecords : entry.1 ≠ "records") :
      Adds reader parts entry parts

theorem JobParts.add_eq_ok_iff :
    parts.add reader entry = .ok next ↔ parts.Adds reader entry next := by
  constructor
  · intro h
    obtain ⟨key, value⟩ := entry
    unfold JobParts.add at h
    dsimp only at h
    split at h
    · next hkey =>
        subst hkey
        split at h
        · cases h
          exact .template _
        · cases h
    · next noTemplate =>
        split at h
        · next hkey =>
            subst hkey
            split at h
            · cases h
              exact .sortBy _
            · cases h
        · next noSortBy =>
            split at h
            · next hkey =>
                subst hkey
                split at h
                · obtain ⟨records, load, rfl⟩ := map_eq_ok_iff.mp h
                  exact .records load
                · cases h
            · next noRecords =>
                cases h
                exact .other noTemplate noSortBy noRecords
  · intro h
    cases h with
    | template template => rfl
    | sortBy field => rfl
    | records load => exact map_eq_ok_iff.mpr ⟨_, load, rfl⟩
    | other noTemplate noSortBy noRecords =>
        rw [JobParts.add, if_neg noTemplate, if_neg noSortBy, if_neg noRecords]

/-- An entry that comes next and is taken is found besides what was found before. -/
theorem JobParts.FoundIn.add (h : parts.FoundIn reader seen) (hnew : entry.1 ∉ seen.map Prod.fst)
    (hadd : parts.Adds reader entry next) : next.FoundIn reader (seen ++ [entry]) := by
  obtain ⟨key, value⟩ := entry
  have hself : (seen ++ [(key, value)]).lookup key = some value :=
    lookup_concat_self (lookup_eq_none_iff_not_mem.mpr hnew)
  have hother : ∀ name, name ≠ key → (seen ++ [(key, value)]).lookup name = seen.lookup name :=
    fun _ => lookup_concat_of_ne
  cases hadd with
  | template template =>
      exact ⟨hself, (hother "sort_by" (by decide)).trans h.sortBy,
        (hother "records" (by decide)).symm ▸ h.records⟩
  | sortBy field =>
      exact ⟨(hother "format" (by decide)).trans h.template, hself,
        (hother "records" (by decide)).symm ▸ h.records⟩
  | records load =>
      exact ⟨(hother "format" (by decide)).trans h.template,
        (hother "sort_by" (by decide)).trans h.sortBy, hself.symm ▸ .some ⟨_, rfl, load⟩⟩
  | other noTemplate noSortBy noRecords =>
      exact ⟨(hother "format" noTemplate.symm).trans h.template,
        (hother "sort_by" noSortBy.symm).trans h.sortBy,
        (hother "records" noRecords.symm).symm ▸ h.records⟩

theorem JobParts.FoundIn.foldlM {final : JobParts} (h : parts.FoundIn reader seen)
    (once : ((seen ++ rest).map Prod.fst).Nodup)
    (hfold : rest.foldlM (JobParts.add reader) parts = .ok final) :
    final.FoundIn reader (seen ++ rest) := by
  induction rest generalizing parts seen with
  | nil =>
      cases hfold
      rw [List.append_nil]
      exact h
  | cons entry rest ih =>
      obtain ⟨next, hnext, hfold⟩ := bind_eq_ok_iff.mp hfold
      have hnew : entry.1 ∉ seen.map Prod.fst := by
        rw [List.map_append, List.map_cons] at once
        exact fun hmem => (List.nodup_append.mp once).2.2 _ hmem _ (List.mem_cons_self ..) rfl
      rw [List.append_cons] at once ⊢
      exact ih (h.add hnew (JobParts.add_eq_ok_iff.mp hnext)) once hfold

/-- Of a document with the shape of a job every entry is taken. -/
theorem JobShape.exists_add (h : JobShape (Value.IsRecord reader) entries)
    (hentry : entries.lookup entry.1 = some entry.2) (parts : JobParts) :
    ∃ next, parts.add reader entry = .ok next := by
  obtain ⟨key, value⟩ := entry
  simp only [JobParts.add_eq_ok_iff]
  by_cases hformat : key = "format"
  · obtain ⟨template, htemplate⟩ := h.template
    subst hformat
    cases htemplate.symm.trans hentry
    exact ⟨_, .template template⟩
  by_cases hsortBy : key = "sort_by"
  · subst hsortBy
    obtain ⟨field, rfl⟩ := h.sortBy value hentry
    exact ⟨_, .sortBy field⟩
  by_cases hrecords : key = "records"
  · subst hrecords
    obtain ⟨elements, rfl, hrecord⟩ := h.records value hentry
    obtain ⟨records, load⟩ := exists_recordsOf hrecord
    exact ⟨_, .records load⟩
  · exact ⟨parts, .other hformat hsortBy hrecords⟩

/-! ## Jobs from entries -/

theorem Job.LoadedFrom.of_ofEntries (hkeys : (Value.table entries).KeysOnce)
    (h : Job.ofEntries reader entries = .ok job) : job.LoadedFrom reader entries := by
  obtain ⟨⟨template?, sortBy, records?⟩, hparts, h⟩ := bind_eq_ok_iff.mp h
  obtain ⟨htemplate, hsortBy, hrecords⟩ := JobParts.FoundIn.start.foldlM hkeys.nodup hparts
  rw [List.nil_append] at htemplate hsortBy hrecords
  cases template? with
  | none => cases h
  | some template =>
      cases h
      refine ⟨htemplate, hsortBy, ?_⟩
      cases hlookup : entries.lookup "records" with
      | none =>
          rw [hlookup] at hrecords
          cases hrecords
          exact .inl ⟨rfl, rfl⟩
      | some value =>
          rw [hlookup] at hrecords
          cases hrecords with
          | some hload =>
              obtain ⟨elements, rfl, hload⟩ := hload
              have heach := (hkeys.of_lookup hlookup).of_mem
              exact .inr ⟨elements, rfl, forall₂_of_recordsOf heach hload⟩

theorem JobShape.exists_ofEntries (h : JobShape (Value.IsRecord reader) entries)
    (once : (entries.map Prod.fst).Nodup) : ∃ job, Job.ofEntries reader entries = .ok job := by
  obtain ⟨⟨template?, sortBy, records?⟩, hparts⟩ := exists_foldlM_ok
    (fun entry hentry => h.exists_add ((mem_iff_lookup once).mp hentry)) ⟨none, none, none⟩
  have hfound := (JobParts.FoundIn.start.foldlM once hparts).template
  obtain ⟨template, htemplate⟩ := h.template
  rw [List.nil_append, htemplate] at hfound
  cases template? with
  | none => cases hfound
  | some template => exact ⟨_, bind_eq_ok_iff.mpr ⟨_, hparts, rfl⟩⟩

theorem Job.LoadedFrom.jobShape (h : job.LoadedFrom reader entries)
    (hkeys : (Value.table entries).KeysOnce) : JobShape (Value.IsRecord reader) entries where
  template := ⟨job.template, h.template⟩
  sortBy value hvalue := by
    rw [h.sortBy] at hvalue
    obtain ⟨field, -, heq⟩ := Option.map_eq_some_iff.mp hvalue
    exact ⟨field, heq.symm⟩
  records value hvalue := by
    rcases h.records with ⟨hnone, -⟩ | ⟨elements, helements, hload⟩
    · cases hnone.symm.trans hvalue
    · cases helements.symm.trans hvalue
      refine ⟨elements, rfl, fun element helement => ?_⟩
      obtain ⟨record, hrecord⟩ := exists_of_forall₂ hload helement
      exact hrecord.isRecord ((hkeys.of_lookup hvalue).of_mem element helement)

theorem Job.LoadedFrom.unique {other : Job} (h : job.LoadedFrom reader entries)
    (hother : other.LoadedFrom reader entries) (hkeys : (Value.table entries).KeysOnce) :
    job = other := by
  obtain ⟨template, sortBy, records⟩ := job
  obtain ⟨template', sortBy', records'⟩ := other
  have htemplate : template = template' :=
    Value.string.inj (Option.some.inj (h.template.symm.trans hother.template))
  have hsortBy : sortBy = sortBy' :=
    Option.map_injective (fun _ _ => Value.string.inj) (h.sortBy.symm.trans hother.sortBy)
  have hrecords : records = records' := by
    rcases h.records with ⟨hnone, hnil⟩ | ⟨elements, helements, hload⟩ <;>
      rcases hother.records with ⟨hnone', hnil'⟩ | ⟨elements', helements', hload'⟩
    · exact hnil.trans hnil'.symm
    · cases hnone.symm.trans helements'
    · cases hnone'.symm.trans helements
    · cases helements.symm.trans helements'
      have heach := (hkeys.of_lookup helements).of_mem
      exact eq_of_forall₂ (fun value hvalue _ _ hr hs => hr.unique (heach value hvalue) hs)
        hload hload'
  rw [htemplate, hsortBy, hrecords]

/-- Whatever reads the texts under the reserved key: a well-formed document is a job exactly
if it has the shape of one, where elements that are a date or time count as records and
tables that cannot be loaded do not, and the job is exactly what the document has under its
three keys. No other key matters. -/
theorem Job.parseBy_ok_iff (reader : DateTime.Reader) {text : String} {entries : Entries}
    (h : Toml.parse? text = some entries) :
    ((∃ job, Job.parseBy reader text = .ok job) ↔ JobShape (Value.IsRecord reader) entries) ∧
      ∀ job, Job.parseBy reader text = .ok job ↔ job.LoadedFrom reader entries := by
  have hkeys := parse?_keysOnce h
  have hparse : ∀ job,
      Job.parseBy reader text = .ok job ↔ Job.ofEntries reader entries = .ok job := by
    intro job
    rw [Job.parseBy, h]
    show (Job.ofEntries reader entries).mapError LoadError.shape = .ok job ↔ _
    cases Job.ofEntries reader entries <;> simp [Except.mapError]
  simp only [hparse]
  refine ⟨⟨fun ⟨job, hjob⟩ => ?_, fun hshape => hshape.exists_ofEntries hkeys.nodup⟩,
    fun job => ⟨.of_ofEntries hkeys, fun hjob => ?_⟩⟩
  · exact (Job.LoadedFrom.of_ofEntries hkeys hjob).jobShape hkeys
  · obtain ⟨loaded, hloaded⟩ := (hjob.jobShape hkeys).exists_ofEntries hkeys.nodup
    rw [hloaded, hjob.unique (.of_ofEntries hkeys hloaded) hkeys]

end

-- All records are tables here, but one has a table in it that should spell a date.
example : (Job.parse ("format = \"\"\n[[records]]\n[records.day]\n" ++
    "\"$__toml_private_datetime\" = \"soon\"\n")).toOption.isSome = false := by
  decide +kernel

def Toml.Value.isDateTime : Value → Bool
  | .dateTime _ => true
  | _ => false

/-- The elements of an array; other values have none. -/
def Toml.Value.elements : Value → List Value
  | .array elements => elements
  | _ => []

/-- A day of the calendar among the records, which ought to be tables. -/
theorem Job.parse_accepts_date :
    let text := "format = \"\"\nrecords = [1979-05-27]\n"
    (∃ job, Job.parse text = .ok job ∧
      job.records.map (fun record => record.fields.value? dateTimeKey) = [some "1979-05-27"]) ∧
      ¬∀ text entries, Toml.parse? text = some entries →
        ((∃ job, Job.parse text = .ok job) ↔ JobShape Value.IsTable entries) := by
  intro text
  have hjob : (Job.parse text).toOption.any (fun job => decide
      (job.records.map (fun record => record.fields.value? dateTimeKey) = [some "1979-05-27"]))
      = true := by decide +kernel
  have hdate : (Toml.parse? text).any (fun entries =>
      (entries.lookup "records").any fun value => value.elements.any Value.isDateTime)
      = true := by decide +kernel
  obtain ⟨job, hparse, hrecord⟩ := exists_ok_of_any hjob
  refine ⟨⟨job, hparse, of_decide_eq_true hrecord⟩, fun hall => ?_⟩
  obtain ⟨entries, hentries, hdate⟩ := (Option.any_eq_true _ _).mp hdate
  obtain ⟨value, hvalue, hdate⟩ := (Option.any_eq_true _ _).mp hdate
  obtain ⟨element, helement, hdate⟩ := List.any_eq_true.mp hdate
  have hshape := (hall text entries hentries).mp ⟨job, hparse⟩
  obtain ⟨elements, rfl, htable⟩ := hshape.records value hvalue
  obtain ⟨inner, rfl⟩ := htable element helement
  cases hdate

/-- A key that does not matter, a field to sort by, and two records, which stay in the
order of the document. -/
theorem Job.parse_two_records :
    let text := "extra = 7\nformat = \"a\"\nsort_by = \"x\"\n" ++
      "[[records]]\nx = 2\n[[records]]\nx = 1\n"
    ∃ entries job, Toml.parse? text = some entries ∧ Job.parse text = .ok job ∧
      JobShape (Value.IsRecord DateTime.ofText?) entries ∧
      job.LoadedFrom DateTime.ofText? entries ∧
      job.template = "a" ∧ job.sortBy = some "x" ∧
      job.records.map (fun record => record.fields.value? "x") = [some "2", some "1"] := by
  intro text
  have hjob : (Job.parse text).toOption.any (fun job => decide
      (job.template = "a" ∧ job.sortBy = some "x" ∧
        job.records.map (fun record => record.fields.value? "x") = [some "2", some "1"]))
      = true := by decide +kernel
  have hdocument : (Toml.parse? text).isSome = true := by decide +kernel
  obtain ⟨entries, hentries⟩ := Option.isSome_iff_exists.mp hdocument
  obtain ⟨job, hparse, hparts⟩ := exists_ok_of_any hjob
  obtain ⟨hshape, hloaded⟩ := Job.parseBy_ok_iff DateTime.ofText? hentries
  exact ⟨entries, job, hentries, hparse, hshape.mp ⟨job, hparse⟩, (hloaded job).mp hparse,
    of_decide_eq_true hparts⟩

end MailMerge
