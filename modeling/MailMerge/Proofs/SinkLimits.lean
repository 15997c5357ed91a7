import MailMerge.Job.Basic
import MailMerge.Proofs.Writers

/-!
# Sinks that fill up

How much a sink has room for decides how much of a text it takes, and nothing
else. A writer never asks: it either has a text and writes it, chunk by chunk
until one is refused (`Writes`), or it finds out that it has none before it
writes anything (`Refuses`). For both kinds of writers it is known from their
run on a sink without a bound what they do on any other one
(`AllOrPrefix`), wherever the bound cuts the text: inside a chunk, inside a
character, between two chunks, or in front of empty ones.

So what has to be shown of the writers is only that each of them is of one of
the two kinds.
-/

namespace MailMerge

/-- What a writer leaves in a sink of limited room, told by what it leaves in a
sink without a limit: the first bytes of that, with success if they are all of
it; or the same error, and nothing. -/
structure AllOrPrefix (writer : Writer) : Prop where
  taken : (writer .unlimited).result = .ok () → ∀ room,
    (writer (.limited room)).sink.taken = (writer .unlimited).sink.taken.take room
  ok_iff : (writer .unlimited).result = .ok () → ∀ room,
    (writer (.limited room)).result = .ok ()
      ↔ (writer .unlimited).sink.taken.length ≤ room
  full : (writer .unlimited).result = .ok () → ∀ room,
    (writer (.limited room)).result ≠ .ok () →
      ∃ reason, (writer (.limited room)).result = .error (.output reason)
  /-- A sink without a limit refuses nothing. -/
  cause : ∀ reason, (writer .unlimited).result ≠ .error (.output reason)
  error : ∀ error, (writer .unlimited).result = .error error → ∀ room,
    (writer (.limited room)).result = .error error ∧
      (writer (.limited room)).sink.taken = []

/-- A writer that fails before it writes anything, with an error that is not the
sink's. -/
structure Refuses (writer : Writer) (error : PrintError) : Prop where
  cause : ∀ reason, error ≠ .output reason
  sink : ∀ sink, (writer sink).sink = sink
  result : ∀ sink, (writer sink).result = .error error

variable {writer : Writer}

theorem Writes.allOrPrefix {bytes : List UInt8} (h : Writes writer bytes) :
    AllOrPrefix writer := by
  obtain ⟨hsink, hresult⟩ := h .unlimited
  have htaken : (writer .unlimited).sink.taken = bytes := by
    rw [hsink]
    rfl
  have hok : (writer .unlimited).result = .ok () := hresult
  have hlimited : ∀ room, (writer (.limited room)).result
      = if bytes.length ≤ room then .ok () else .error sinkFull := by
    intro room
    rw [(h (.limited room)).2]
    simp only [Sink.fits, Sink.limited, decide_eq_true_eq]
  refine ⟨?_, ?_, ?_, ?_, ?_⟩
  · intro _ room
    rw [(h (.limited room)).1, htaken]
    rfl
  · intro _ room
    rw [htaken, hlimited]
    split
    · next hle => exact ⟨fun _ => hle, fun _ => rfl⟩
    · next hgt =>
        refine ⟨?_, fun hle => absurd hle hgt⟩
        intro hok
        cases hok
  · intro _ room hne
    rw [hlimited] at hne ⊢
    split at hne
    · exact absurd rfl hne
    · next hgt => exact ⟨"sink full", if_neg hgt⟩
  · intro reason herror
    rw [hok] at herror
    cases herror
  · intro error herror
    rw [hok] at herror
    cases herror

theorem Refuses.allOrPrefix {error : PrintError} (h : Refuses writer error) :
    AllOrPrefix writer := by
  have herror := h.result .unlimited
  refine ⟨?_, ?_, ?_, ?_, ?_⟩
  · intro hok
    rw [herror] at hok
    cases hok
  · intro hok
    rw [herror] at hok
    cases hok
  · intro hok
    rw [herror] at hok
    cases hok
  · intro reason heq
    rw [herror] at heq
    exact h.cause reason (Except.error.inj heq)
  · intro other heq room
    rw [herror] at heq
    cases heq
    refine ⟨h.result _, ?_⟩
    rw [h.sink]
    rfl

theorem refuses_fail (events : List Event) (error : PrintError)
    (h : ∀ reason, error ≠ .output reason) :
    Refuses ((Writer.note events).andThen (Writer.fail error)) error :=
  ⟨h, fun _ => rfl, fun _ => rfl⟩

/-! ## The writers -/

theorem writeObject_allOrPrefix (object : Fields) (template : String) :
    AllOrPrefix (writeObject object template) :=
  (writes_writeObject object template).allOrPrefix

/-- The format string is filled as a whole before the first byte is written. -/
theorem writeFilled_allOrPrefix (object : Fields) (template : String)
    (arguments : List Format.Argument) :
    AllOrPrefix (writeFilled object template arguments) := by
  have hnote := writes_note (Template.rendering object template).events
  unfold writeFilled
  cases hfill : Format.fill (String.ofList (Template.rendering object template).text)
      arguments with
  | ok text =>
      simp only [hfill]
      exact (hnote.andThen (writes_chunk text.toList)).allOrPrefix
  | error failure =>
      cases failure with
      | returned error =>
          simp only [hfill]
          exact (refuses_fail _ (.format error) nofun).allOrPrefix
      | tooManyPlaces =>
          simp only [hfill]
          exact (refuses_fail _ .brokenOff nofun).allOrPrefix

theorem writeList_allOrPrefix (objects : List Fields) (template : String) (style : ListStyle) :
    AllOrPrefix (writeList objects template style) :=
  (writes_writeList objects template style).allOrPrefix

/-- The elements are sorted before the first of them is written. -/
theorem writeSorted_allOrPrefix {α : Type} (compare? : α → α → Option Ordering)
    (view : α → Fields) (items : List α) (template : String) (style : ListStyle) :
    AllOrPrefix (writeSorted compare? view items template style) := by
  unfold writeSorted
  cases stableSort compare? items with
  | ok sorted => exact writeList_allOrPrefix (sorted.map view) template style
  | error places =>
      have hrefuses : Refuses (Writer.fail (.incomparable places)) (.incomparable places) :=
        ⟨nofun, fun _ => rfl, fun _ => rfl⟩
      exact hrefuses.allOrPrefix

theorem Job.run_allOrPrefix (job : Job) (style : ListStyle) : AllOrPrefix (job.run style) := by
  unfold Job.run
  cases job.sortBy with
  | some key => exact writeSorted_allOrPrefix ..
  | none => exact writeList_allOrPrefix ..

/-- Whatever is written, a sink that fills up has the first bytes of it, as many
as it has room for. The writer succeeds exactly if these are all, and else fails
with the sink's error. If there is nothing to be written, because a format
string cannot be filled or elements have no order, then the error is the same
for every sink, and the sink stays empty. -/
theorem writers_allOrPrefix :
    (∀ object template, AllOrPrefix (writeObject object template)) ∧
    (∀ object template arguments, AllOrPrefix (writeFilled object template arguments)) ∧
    (∀ objects template style, AllOrPrefix (writeList objects template style)) ∧
    (∀ (α : Type) (compare? : α → α → Option Ordering) (view : α → Fields) items template style,
      AllOrPrefix (writeSorted compare? view items template style)) ∧
    ∀ (job : Job) style, AllOrPrefix (job.run style) :=
  ⟨writeObject_allOrPrefix, writeFilled_allOrPrefix, writeList_allOrPrefix,
    fun _ => writeSorted_allOrPrefix, Job.run_allOrPrefix⟩

end MailMerge
