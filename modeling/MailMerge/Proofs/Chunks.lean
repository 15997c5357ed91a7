import MailMerge.Proofs.Writers

/-!
# The chunks of a run

What a run leaves in a sink does not show where one chunk ended and the next one
began. What it notes does: it announces every element before it writes it, and
after a chunk that did not fit it announces nothing more. So the number of
announcements on a sink that fills up tells how many chunks the sink was offered.

`WritesInTurn` puts the two together, and this is all there is to know of the
chunks, because a run can have been made of one list of chunks only
(`WritesInTurn.unique`). A list writes one chunk for each of its elements, in
their order (`writesInTurn_writeList`).
-/

namespace MailMerge

/-- How many chunks a sink is offered, the first one that it has no room for
included. -/
def Sink.offered : Sink → List (List UInt8) → Nat
  | _, [] => 0
  | sink, chunk :: rest =>
    if sink.fits chunk.length then (sink.take chunk).offered rest + 1 else 1

/-- Whether an element is announced. -/
def Event.isAnnouncement : Event → Bool
  | .writingElement _ => true
  | .noValue .. => false

/-- A writer writes chunks one after the other, and announces each one by its
number. -/
structure WritesInTurn (writer : Writer) (chunks : List (List UInt8)) : Prop where
  writes : Writes writer chunks.flatten
  announced : ∀ sink, (writer sink).events.filter Event.isAnnouncement
    = (List.range (sink.offered chunks)).map Event.writingElement

/-! ## Runs have one list of chunks -/

/-- What a sink has taken makes no difference to what it still has room for. -/
theorem Sink.offered_congr {sink sink' : Sink} (h : sink.room = sink'.room)
    (chunks : List (List UInt8)) : sink.offered chunks = sink'.offered chunks := by
  induction chunks generalizing sink sink' with
  | nil => rfl
  | cons chunk rest ih =>
      obtain ⟨room, taken⟩ := sink
      obtain ⟨room', taken'⟩ := sink'
      obtain rfl : room = room' := h
      have hfits : Sink.fits ⟨room, taken⟩ chunk.length = Sink.fits ⟨room, taken'⟩ chunk.length :=
        rfl
      have htake : (Sink.take ⟨room, taken⟩ chunk).room = (Sink.take ⟨room, taken'⟩ chunk).room := by
        cases room <;> rfl
      rw [Sink.offered, Sink.offered, hfits, ih htake]

theorem Sink.offered_unlimited (taken : List UInt8) (chunks : List (List UInt8)) :
    Sink.offered ⟨none, taken⟩ chunks = chunks.length := by
  induction chunks generalizing taken with
  | nil => rfl
  | cons chunk rest ih =>
      rw [Sink.offered, Sink.take, ih]
      rfl

theorem Sink.offered_eq_zero_iff {sink : Sink} {chunks : List (List UInt8)} :
    sink.offered chunks = 0 ↔ chunks = [] := by
  cases chunks with
  | nil => exact ⟨fun _ => rfl, fun _ => rfl⟩
  | cons chunk rest =>
      rw [Sink.offered]
      split <;> simp

theorem Sink.offered_limited_cons {room : Nat} {chunk : List UInt8}
    {rest : List (List UInt8)} (h : chunk.length ≤ room) :
    (Sink.limited room).offered (chunk :: rest)
      = (Sink.limited (room - chunk.length)).offered rest + 1 := by
  have hroom : ((Sink.limited room).take chunk).room
      = (Sink.limited (room - chunk.length)).room := rfl
  rw [Sink.offered, if_pos (by simpa [Sink.fits, Sink.limited] using h),
    Sink.offered_congr hroom]

theorem Sink.offered_limited_of_lt {room : Nat} {chunk : List UInt8}
    {rest : List (List UInt8)} (h : room < chunk.length) :
    (Sink.limited room).offered (chunk :: rest) = 1 := by
  rw [Sink.offered, if_neg (by simpa [Sink.fits, Sink.limited] using h)]

/-- A sink that the first chunk fills up is not offered as many of the chunks that
begin with a longer one, unless there is only one chunk. -/
theorem length_le_of_offered {chunk chunk' : List UInt8} {rest rest' : List (List UInt8)}
    (hoffered : ∀ room, (Sink.limited room).offered (chunk :: rest)
      = (Sink.limited room).offered (chunk' :: rest')) (hrest : rest ≠ []) :
    chunk'.length ≤ chunk.length := by
  refine Nat.le_of_not_lt fun hlt => ?_
  have hhere := hoffered chunk.length
  rw [Sink.offered_limited_cons (Nat.le_refl _), Sink.offered_limited_of_lt hlt] at hhere
  exact hrest (Sink.offered_eq_zero_iff.mp (Nat.succ.inj hhere))

/-- Chunks are known by what they come to together and how many of them every sink
is offered. -/
theorem eq_of_offered {chunks chunks' : List (List UInt8)}
    (hflatten : chunks.flatten = chunks'.flatten) (hlength : chunks.length = chunks'.length)
    (hoffered : ∀ room, (Sink.limited room).offered chunks
      = (Sink.limited room).offered chunks') : chunks = chunks' := by
  induction chunks generalizing chunks' with
  | nil => exact (List.eq_nil_of_length_eq_zero hlength.symm).symm
  | cons chunk rest ih =>
      obtain ⟨chunk', rest', rfl⟩ := List.exists_cons_of_length_eq_add_one hlength.symm
      have hrest : rest.length = rest'.length := Nat.succ.inj hlength
      rw [List.flatten_cons, List.flatten_cons] at hflatten
      have hfirst : chunk.length = chunk'.length := by
        by_cases hnil : rest = []
        · subst hnil
          obtain rfl := List.eq_nil_of_length_eq_zero hrest.symm
          simpa using congrArg List.length hflatten
        · have hnil' : rest' ≠ [] := by
            rintro rfl
            exact hnil (List.eq_nil_of_length_eq_zero hrest)
          exact Nat.le_antisymm (length_le_of_offered (fun room => (hoffered room).symm) hnil')
            (length_le_of_offered hoffered hnil)
      obtain ⟨rfl, hothers⟩ := List.append_inj hflatten hfirst
      -- The rests are compared on sinks with room for the first chunk besides.
      rw [ih hothers hrest fun room => ?_]
      have hmore := hoffered (room + chunk.length)
      rw [Sink.offered_limited_cons (Nat.le_add_left ..),
        Sink.offered_limited_cons (Nat.le_add_left ..), Nat.add_sub_cancel] at hmore
      exact Nat.succ.inj hmore

/-- The chunks of a run can be told from the run. -/
theorem WritesInTurn.unique {writer : Writer} {chunks chunks' : List (List UInt8)}
    (h : WritesInTurn writer chunks) (h' : WritesInTurn writer chunks') : chunks = chunks' := by
  have hoffered : ∀ sink : Sink, sink.offered chunks = sink.offered chunks' := by
    intro sink
    have hevents := (h.announced sink).symm.trans (h'.announced sink)
    simpa using congrArg List.length hevents
  refine eq_of_offered ?_ ?_ fun room => hoffered _
  · have htaken := ((h.writes .unlimited).1.symm.trans (h'.writes .unlimited).1)
    exact congrArg Sink.taken htaken
  · have hall := hoffered .unlimited
    rwa [Sink.unlimited, Sink.offered_unlimited, Sink.offered_unlimited] at hall

/-! ## Lists -/

/-- The chunks of a list's elements. -/
def lineChunks (objects : List Fields) (line : String) : List (List UInt8) :=
  objects.map fun object => utf8Bytes (Template.rendering object line).text

theorem flatten_lineChunks (objects : List Fields) (line : String) :
    (lineChunks objects line).flatten = lineBytes objects line := by
  rw [lineChunks, lineBytes, List.flatMap_def]

/-- Misses are no announcements. -/
theorem filter_events_rendering (object : Fields) (template : String) :
    (Template.rendering object template).events.filter Event.isAnnouncement = [] := by
  rw [List.filter_eq_nil_iff]
  intro event hevent
  obtain ⟨piece, hpiece, hmem⟩ := List.mem_flatMap.mp hevent
  obtain ⟨token, -, rfl⟩ := List.mem_map.mp hpiece
  cases token with
  | dollar | text => cases hmem
  | placeholder name =>
      unfold Template.renderToken Fields.resolve at hmem
      cases hvalue : object.value? (String.ofList name) with
      | some value => simp [hvalue] at hmem
      | none =>
          simp only [hvalue, List.mem_singleton] at hmem
          rw [hmem]
          exact Bool.false_ne_true

theorem announced_writeElements (line : String) (objects : List Fields) :
    ∀ index sink, (writeElements line index objects sink).events.filter Event.isAnnouncement
      = (List.range' index (sink.offered (lineChunks objects line))).map
          Event.writingElement := by
  induction objects with
  | nil => intro index sink; rfl
  | cons object rest ih =>
      intro index sink
      have hmisses := filter_events_rendering object line
      let bytes := utf8Bytes (Template.rendering object line).text
      have hobject : writeObject object line sink
          = ⟨sink.take bytes, (Template.rendering object line).events ++ [],
              if sink.fits bytes.length then .ok () else .error sinkFull⟩ := rfl
      have hevents : (writeElements line index (object :: rest) sink).events
          = .writingElement index
            :: ((writeObject object line).andThen (writeElements line (index + 1) rest)
                sink).events := rfl
      have hchunks : lineChunks (object :: rest) line = bytes :: lineChunks rest line := rfl
      rw [hevents, hchunks, Sink.offered, List.filter_cons_of_pos rfl]
      unfold Writer.andThen
      rw [hobject, List.append_nil]
      by_cases hfits : sink.fits bytes.length = true
      · simp only [if_pos hfits, List.filter_append, hmisses, List.nil_append, ih]
        rw [List.range'_succ, List.map_cons]
      · simp only [if_neg hfits, hmisses]
        rfl

theorem writesInTurn_writeList (objects : List Fields) (template : String) (style : ListStyle) :
    WritesInTurn (writeList objects template style)
      (lineChunks objects (style.template template)) where
  writes := by
    rw [flatten_lineChunks]
    exact writes_writeList objects template style
  announced sink := by
    rw [List.range_eq_range']
    exact announced_writeElements _ objects 0 sink

end MailMerge
