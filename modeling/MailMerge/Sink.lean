/-!
# Sinks

A sink takes bytes until it is full. Of a chunk that is too long it takes as
much as it has room for, and the rest is lost. A chunk without bytes always
fits.
-/

namespace MailMerge

/-- Somewhere to write to. -/
structure Sink where
  /-- How many bytes it still takes; a sink without this bound is never full. -/
  room : Option Nat
  /-- The bytes it took. -/
  taken : List UInt8
  deriving Repr, DecidableEq

/-- An empty sink that is never full. -/
def Sink.unlimited : Sink := ⟨none, []⟩

/-- An empty sink that takes so many bytes. -/
def Sink.limited (room : Nat) : Sink := ⟨some room, []⟩

/-- Whether a chunk of so many bytes fits. -/
def Sink.fits (sink : Sink) (length : Nat) : Bool :=
  match sink.room with
  | none => true
  | some room => decide (length ≤ room)

/-- The sink after it took what it could of a chunk. -/
def Sink.take (sink : Sink) (chunk : List UInt8) : Sink :=
  match sink.room with
  | none => ⟨none, sink.taken ++ chunk⟩
  | some room => ⟨some (room - chunk.length), sink.taken ++ chunk.take room⟩

theorem Sink.take_nil (sink : Sink) : sink.take [] = sink := by
  obtain ⟨_ | room, taken⟩ := sink <;> simp [Sink.take]

end MailMerge
