import MailMerge.Proofs.Occurrences
import MailMerge.Proofs.Reordering
import Mathlib.Data.List.Forall2

/-!
# What a run reads of its records

A run of a job looks up two sorts of names in a record: those of the placeholders
in the template of a line, and the key that it sorts by. Records that have the
same under these names are the same to it, whatever else is in them.

The two runs go side by side. Their records are put together in pairs, and a
comparison of pairs can read either side of them, so one sort of the pairs is the
sort of both lists at once (`stableSort_agree`). From there on both runs write
elements that agree one by one; `Outcome.Alike` says of what they leave that it is
the same but for one thing, the names that a record is noted to know when it was
asked for another one in vain.
-/

namespace MailMerge

/-! ## Records and names -/

/-- Two records have the same under some names: both nothing, or one value. -/
def AgreeOn (names : List String) (a b : Record) : Prop :=
  ∀ name ∈ names, a.lookup name = b.lookup name

theorem AgreeOn.mono {names fewer : List String} {a b : Record} (h : AgreeOn names a b)
    (hfewer : ∀ name ∈ fewer, name ∈ names) : AgreeOn fewer a b :=
  fun name hname => h name (hfewer name hname)

theorem Record.value?_fields_congr {a b : Record} {name : String}
    (h : a.lookup name = b.lookup name) : a.fields.value? name = b.fields.value? name :=
  congrArg (Option.map _) h

/-- The names of a template's placeholders. -/
def Template.namesIn (template : String) : List String :=
  (Template.placeholders template).map Template.Placeholder.name

/-- The names that a run of a job looks up in its records. -/
def Job.namesRead (job : Job) (style : ListStyle) : List String :=
  Template.namesIn (style.template job.template) ++ job.sortBy.toList

/-! ## What is left behind -/

/-- What is noted, without the names that a record is said to know. -/
def Event.withoutKnown : Event → Event
  | .noValue field _ => .noValue field []
  | .writingElement index => .writingElement index

/-- Two outcomes that are the same but for the names that records are noted to
know. -/
structure Outcome.Alike (a b : Outcome) : Prop where
  sink : a.sink = b.sink
  result : a.result = b.result
  events : a.events.map Event.withoutKnown = b.events.map Event.withoutKnown

/-- Two writers that leave every sink alike. -/
def Writer.Alike (writer writer' : Writer) : Prop :=
  ∀ sink, (writer sink).Alike (writer' sink)

theorem Writer.Alike.refl (writer : Writer) : writer.Alike writer :=
  fun _ => ⟨rfl, rfl, rfl⟩

theorem Writer.Alike.note {events events' : List Event}
    (h : events.map Event.withoutKnown = events'.map Event.withoutKnown) :
    (Writer.note events).Alike (Writer.note events') :=
  fun _ => ⟨rfl, rfl, h⟩

theorem Writer.Alike.andThen {first first' second second' : Writer}
    (hfirst : first.Alike first') (hsecond : second.Alike second') :
    (first.andThen second).Alike (first'.andThen second') := by
  intro sink
  obtain ⟨hsink, hresult, hevents⟩ := hfirst sink
  unfold Writer.andThen
  simp only []
  rw [← hresult]
  cases (first sink).result with
  | error error => exact ⟨hsink, hresult, hevents⟩
  | ok =>
      obtain ⟨hsink', hresult', hevents'⟩ := hsecond (first sink).sink
      rw [← hsink]
      refine ⟨hsink', hresult', ?_⟩
      rw [List.map_append, List.map_append, hevents, hevents']

/-! ## Filling in -/

namespace Template

variable {a b : Record}

theorem renderToken_agree {token : Token}
    (h : ∀ name, token = .placeholder name →
      a.lookup (String.ofList name) = b.lookup (String.ofList name)) :
    (renderToken a.fields token).text = (renderToken b.fields token).text ∧
      (renderToken a.fields token).events.map Event.withoutKnown
        = (renderToken b.fields token).events.map Event.withoutKnown := by
  cases token with
  | dollar | text => exact ⟨rfl, rfl⟩
  | placeholder name =>
      have hvalue := Record.value?_fields_congr (h name rfl)
      simp only [renderToken, Fields.resolve, ← hvalue]
      cases a.fields.value? (String.ofList name) <;> exact ⟨rfl, rfl⟩

/-- A template is filled in alike for records that agree on the names in it. -/
theorem rendering_agree {template : String} (h : AgreeOn (namesIn template) a b) :
    (rendering a.fields template).text = (rendering b.fields template).text ∧
      (rendering a.fields template).events.map Event.withoutKnown
        = (rendering b.fields template).events.map Event.withoutKnown := by
  have htokens : ∀ token ∈ scan template.toList, ∀ name, token = .placeholder name →
      a.lookup (String.ofList name) = b.lookup (String.ofList name) := by
    rintro _ hmem name rfl
    obtain ⟨p, hp, hname⟩ := exists_placeholder_of_mem_scan hmem
    exact hname ▸ h p.name (List.mem_map_of_mem hp)
  unfold rendering
  simp only [List.flatMap_map, List.map_flatMap]
  constructor
  · exact List.flatMap_congr fun token hmem => (renderToken_agree (htokens token hmem)).1
  · exact List.flatMap_congr fun token hmem => (renderToken_agree (htokens token hmem)).2

end Template

theorem writeObject_agree {a b : Record} {template : String}
    (h : AgreeOn (Template.namesIn template) a b) :
    (writeObject a.fields template).Alike (writeObject b.fields template) := by
  obtain ⟨htext, hevents⟩ := Template.rendering_agree h
  unfold writeObject
  simp only []
  rw [htext]
  exact (Writer.Alike.note hevents).andThen (.refl _)

/-- Elements that agree one by one are written alike. -/
theorem writeElements_agree {line : String} {records others : List Record}
    (h : List.Forall₂ (AgreeOn (Template.namesIn line)) records others) (index : Nat) :
    (writeElements line index (records.map Record.fields)).Alike
      (writeElements line index (others.map Record.fields)) := by
  induction h generalizing index with
  | nil => exact .refl _
  | cons hhead _ ih =>
      exact (Writer.Alike.refl _).andThen ((writeObject_agree hhead).andThen (ih (index + 1)))

/-! ## Sorting -/

section

variable {names : List String} {key : String} {records others : List Record}

theorem Record.compareBy?_congr {a a' b b' : Record} (ha : a.lookup key = a'.lookup key)
    (hb : b.lookup key = b'.lookup key) :
    Record.compareBy? key a b = Record.compareBy? key a' b' := by
  unfold Record.compareBy? SortKey.compare?
  simp only [ha, hb]

/-- Records that agree one by one are the two sides of a list of pairs. -/
theorem exists_pairs_of_forall₂ (h : List.Forall₂ (AgreeOn names) records others) :
    ∃ pairs : List (Record × Record), records = pairs.map Prod.fst ∧
      others = pairs.map Prod.snd ∧ ∀ pair ∈ pairs, AgreeOn names pair.1 pair.2 := by
  obtain ⟨hlength, hagree⟩ := List.forall₂_iff_zip.mp h
  refine ⟨records.zip others, ?_, ?_, fun _ hpair => hagree hpair⟩
  · rw [List.map_fst_zip (Nat.le_of_eq hlength)]
  · rw [List.map_snd_zip (Nat.le_of_eq hlength.symm)]

/-- How two pairs of records compare, by what is on the left of them. -/
def comparePairs? (key : String) (p q : Record × Record) : Option Ordering :=
  Record.compareBy? key p.1 q.1

theorem comparePairs?_snd {pairs : List (Record × Record)} (hkey : key ∈ names)
    (h : ∀ pair ∈ pairs, AgreeOn names pair.1 pair.2) :
    ∀ p ∈ pairs, ∀ q ∈ pairs, Record.compareBy? key p.2 q.2 = comparePairs? key p q :=
  fun p hp q hq => (Record.compareBy?_congr (h p hp key hkey) (h q hq key hkey)).symm

/-- Records that agree on the key come into the same order, or have none at the
same places. -/
theorem stableSort_agree (hkey : key ∈ names)
    (h : List.Forall₂ (AgreeOn names) records others) :
    (∃ places, stableSort (Record.compareBy? key) records = .error places ∧
      stableSort (Record.compareBy? key) others = .error places) ∨
    ∃ order order', stableSort (Record.compareBy? key) records = .ok order ∧
      stableSort (Record.compareBy? key) others = .ok order' ∧
      List.Forall₂ (AgreeOn names) order order' := by
  obtain ⟨pairs, rfl, rfl, hagree⟩ := exists_pairs_of_forall₂ h
  have hleft : stableSort (Record.compareBy? key) (pairs.map Prod.fst)
      = (stableSort (comparePairs? key) pairs).map (List.map Prod.fst) :=
    stableSort_map fun _ _ _ _ => rfl
  -- The pairs are compared by their left sides; the right ones give the same answers.
  have hright : stableSort (Record.compareBy? key) (pairs.map Prod.snd)
      = (stableSort (comparePairs? key) pairs).map (List.map Prod.snd) :=
    stableSort_map (comparePairs?_snd hkey hagree)
  rw [hleft, hright]
  cases hsort : stableSort (comparePairs? key) pairs with
  | error places => exact .inl ⟨places, rfl, rfl⟩
  | ok sorted =>
      refine .inr ⟨_, _, rfl, rfl, ?_⟩
      rw [List.forall₂_map_left_iff, List.forall₂_map_right_iff, List.forall₂_same]
      exact fun pair hpair => hagree pair ((perm_of_stableSort_ok hsort).mem_iff.mp hpair)

/-- The sort of the places goes the same way for both lists. -/
theorem sortPlaces_agree (hkey : key ∈ names)
    (h : List.Forall₂ (AgreeOn names) records others) :
    (sortPlaces SortKey.compare? (sortKeys key records) (List.range records.length) []).map
        Prod.fst
      = (sortPlaces SortKey.compare? (sortKeys key others) (List.range others.length) []).map
        Prod.fst := by
  obtain ⟨pairs, rfl, rfl, hagree⟩ := exists_pairs_of_forall₂ h
  have hside : ∀ side : Record × Record → Record,
      (∀ p ∈ pairs, ∀ q ∈ pairs,
        Record.compareBy? key (side p) (side q) = comparePairs? key p q) →
      (sortPlaces SortKey.compare? (sortKeys key (pairs.map side))
          (List.range (pairs.map side).length) []).map Prod.fst
        = (sortPlaces (comparePairs? key) pairs (List.range pairs.length) []).map
          Prod.fst := by
    intro side hcompare
    have hplaces := @sortPlaces_map _ _ (comparePairs? key) SortKey.compare?
      (fun pair => ⟨key, side pair⟩) pairs hcompare
    rw [sortKeys, List.map_map, List.length_map]
    rwa [List.length_map] at hplaces
  rw [hside Prod.fst fun _ _ _ _ => rfl, hside Prod.snd (comparePairs?_snd hkey hagree)]

end

/-! ## Runs -/

section

variable {job other : Job} {style : ListStyle}

theorem Job.run_inOrder_agree {order order' : List Record}
    (htemplate : other.template = job.template)
    (h : List.Forall₂ (AgreeOn (job.namesRead style)) order order') :
    ((job.inOrder order).run style).Alike ((other.inOrder order').run style) := by
  rw [Job.run_inOrder, Job.run_inOrder, htemplate]
  refine writeElements_agree (h.imp fun _ _ hagree => hagree.mono ?_) 0
  exact fun name hname => List.mem_append_left _ hname

/-- Two jobs that differ only in what their records have under names that the
runs do not look up sort their places alike, leave every sink alike, and end
alike, with an order or without one. -/
theorem Job.run_agree (htemplate : other.template = job.template)
    (hsortBy : other.sortBy = job.sortBy)
    (hrecords : List.Forall₂ (AgreeOn (job.namesRead style)) job.records other.records) :
    (∀ key, job.sortBy = some key →
      (sortPlaces SortKey.compare? (sortKeys key job.records)
          (List.range job.records.length) []).map Prod.fst
        = (sortPlaces SortKey.compare? (sortKeys key other.records)
          (List.range other.records.length) []).map Prod.fst) ∧
    ∀ sink, (job.run style sink).Alike (other.run style sink) := by
  have hread : ∀ key, job.sortBy = some key → key ∈ job.namesRead style := fun key hkey =>
    List.mem_append_right _ (Option.mem_toList.mpr hkey)
  refine ⟨fun key hkey => sortPlaces_agree (hread key hkey) hrecords, ?_⟩
  cases hkey : job.sortBy with
  | none =>
      rw [Job.run_of_unsorted hkey, Job.run_of_unsorted (hsortBy.trans hkey)]
      exact Job.run_inOrder_agree htemplate hrecords
  | some key =>
      rcases stableSort_agree (hread key hkey) hrecords with
        ⟨places, hsort, hsort'⟩ | ⟨order, order', hsort, hsort', horder⟩
      · intro sink
        rw [Job.run_of_no_order hkey hsort, Job.run_of_no_order (hsortBy.trans hkey) hsort']
        exact ⟨rfl, rfl, rfl⟩
      · rw [Job.run_of_order hkey hsort, Job.run_of_order (hsortBy.trans hkey) hsort']
        exact Job.run_inOrder_agree htemplate horder

end

/-- The records of two jobs, of which one has a number and the other one a text
under a name that neither job looks up. -/
theorem Job.run_agree_two_records :
    let job : Job := ⟨"${n}", some "k",
      [[("k", .integer 2), ("n", .string "B"), ("x", .integer 5)],
        [("k", .integer 1), ("n", .string "A")]]⟩
    let other : Job := ⟨"${n}", some "k",
      [[("k", .integer 2), ("n", .string "B")],
        [("k", .integer 1), ("n", .string "A"), ("x", .string "y")]]⟩
    other.template = job.template ∧ other.sortBy = job.sortBy ∧
      List.Forall₂ (AgreeOn (job.namesRead .lines)) job.records other.records ∧
      (job.run .lines .unlimited).Alike (other.run .lines .unlimited) ∧
      (other.run .lines .unlimited).sink.taken = utf8Bytes "A\nB\n".toList := by
  intro job other
  have hnames : job.namesRead .lines = ["n", "k"] := by decide +kernel
  have hrecords :
      List.Forall₂ (AgreeOn (job.namesRead .lines)) job.records other.records := by
    rw [hnames]
    refine .cons ?_ (.cons ?_ .nil) <;>
    · intro name hname
      simp only [List.mem_cons, List.not_mem_nil, or_false] at hname
      rcases hname with rfl | rfl <;> rfl
  exact ⟨rfl, rfl, hrecords, (@Job.run_agree job other .lines rfl rfl hrecords).2 .unlimited,
    by decide +kernel⟩

end MailMerge
