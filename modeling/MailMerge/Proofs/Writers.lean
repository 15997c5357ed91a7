import MailMerge.Writing

/-!
# What a writer leaves in a sink

A sink that fills up in the middle of a chunk takes the first bytes of it, and a
writer that was refused a chunk stops. Together this means that it makes no
difference how a text was cut into chunks: `Writes` says of a writer that on
every sink it leaves what the sink takes of one single text, and that it ends
well exactly if the sink takes all of it. Writers one after the other write one
text after the other (`Writes.andThen`), and so a list writes its lines.
-/

namespace MailMerge

/-! ## Sinks -/

theorem Sink.take_append (sink : Sink) (a b : List UInt8) :
    sink.take (a ++ b) = (sink.take a).take b := by
  obtain ⟨room, taken⟩ := sink
  cases room with
  | none => simp only [Sink.take, List.append_assoc]
  | some room =>
      simp only [Sink.take, List.length_append, List.take_append, List.append_assoc,
        Nat.sub_sub]

theorem Sink.fits_append (sink : Sink) (a b : List UInt8) :
    sink.fits (a ++ b).length = (sink.fits a.length && (sink.take a).fits b.length) := by
  obtain ⟨room, taken⟩ := sink
  cases room with
  | none => rfl
  | some room =>
      simp only [Sink.fits, Sink.take, List.length_append]
      rw [Bool.eq_iff_iff, Bool.and_eq_true, decide_eq_true_iff, decide_eq_true_iff,
        decide_eq_true_iff]
      omega

theorem Sink.fits_zero (sink : Sink) : sink.fits 0 = true := by
  obtain ⟨_ | room, taken⟩ := sink <;> simp [Sink.fits]

/-- Behind a chunk that was too long for a sink nothing more goes in. -/
theorem Sink.take_append_of_not_fits {sink : Sink} {a : List UInt8} (b : List UInt8)
    (h : sink.fits a.length = false) : sink.take (a ++ b) = sink.take a := by
  obtain ⟨room, taken⟩ := sink
  cases room with
  | none => cases h
  | some room =>
      have hlt : room < a.length := by simpa [Sink.fits] using h
      simp only [Sink.take, List.length_append]
      rw [List.take_append_of_le_length (Nat.le_of_lt hlt)]
      congr 2
      omega

/-! ## Writers -/

/-- A writer writes a text, given by its bytes: every sink takes of the writer
what it takes of the text, and the writer ends well if that is all of it. -/
def Writes (writer : Writer) (bytes : List UInt8) : Prop :=
  ∀ sink, (writer sink).sink = sink.take bytes ∧
    (writer sink).result = if sink.fits bytes.length then .ok () else .error sinkFull

theorem writes_nothing : Writes .nothing [] := by
  intro sink
  rw [Sink.take_nil, List.length_nil, Sink.fits_zero]
  exact ⟨rfl, rfl⟩

theorem writes_note (events : List Event) : Writes (.note events) [] := by
  intro sink
  rw [Sink.take_nil, List.length_nil, Sink.fits_zero]
  exact ⟨rfl, rfl⟩

theorem writes_chunk (text : List Char) : Writes (.chunk text) (utf8Bytes text) :=
  fun _ => ⟨rfl, rfl⟩

theorem Writes.andThen {first second : Writer} {a b : List UInt8}
    (hfirst : Writes first a) (hsecond : Writes second b) :
    Writes (first.andThen second) (a ++ b) := by
  intro sink
  obtain ⟨hsink, hresult⟩ := hfirst sink
  unfold Writer.andThen
  simp only []
  cases hfits : sink.fits a.length with
  | true =>
      obtain ⟨hsink', hresult'⟩ := hsecond (sink.take a)
      rw [hfits, if_pos rfl] at hresult
      rw [hresult, hsink, Sink.take_append, Sink.fits_append, hfits, Bool.true_and]
      exact ⟨hsink', hresult'⟩
  | false =>
      rw [hfits, if_neg (by simp)] at hresult
      rw [hresult, Sink.take_append_of_not_fits b hfits, Sink.fits_append, hfits,
        Bool.false_and, if_neg (by simp)]
      exact ⟨hsink, hresult⟩

theorem writes_writeObject (object : Fields) (template : String) :
    Writes (writeObject object template)
      (utf8Bytes (Template.rendering object template).text) :=
  (writes_note _).andThen (writes_chunk _)

/-- The bytes of the lines that a list writes. -/
def lineBytes (objects : List Fields) (line : String) : List UInt8 :=
  objects.flatMap fun object => utf8Bytes (Template.rendering object line).text

theorem writes_writeElements (line : String) (objects : List Fields) :
    ∀ index, Writes (writeElements line index objects) (lineBytes objects line) := by
  induction objects with
  | nil => exact fun _ => writes_nothing
  | cons object rest ih =>
      intro index
      exact (writes_note _).andThen ((writes_writeObject object line).andThen (ih (index + 1)))

theorem writes_writeList (objects : List Fields) (template : String) (style : ListStyle) :
    Writes (writeList objects template style)
      (lineBytes objects (style.template template)) :=
  writes_writeElements _ objects 0

/-! ## Sorted lists

A sort that comes through leaves a list to be written, and one that does not
leaves the sink alone. -/

section

variable {α : Type} {compare? : α → α → Option Ordering} {items : List α}

theorem writeSorted_of_ok {sorted : List α} (h : stableSort compare? items = .ok sorted)
    (view : α → Fields) (template : String) (style : ListStyle) :
    writeSorted compare? view items template style
      = writeList (sorted.map view) template style := by
  unfold writeSorted
  rw [h]

theorem writeSorted_of_error {places : Incomparable}
    (h : stableSort compare? items = .error places)
    (view : α → Fields) (template : String) (style : ListStyle) (sink : Sink) :
    writeSorted compare? view items template style sink
      = ⟨sink, [], .error (.incomparable places)⟩ := by
  unfold writeSorted
  rw [h]
  rfl

end

end MailMerge
