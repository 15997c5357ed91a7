/-!
# Places in a text

Texts are lists of characters; places in them are counted in bytes of their
UTF-8 form, because that is how a reader of the output counts them. A text cut
into pieces has one span for each piece, and `layOut` computes them: the first
piece starts where it is told to, every other one where its neighbour ends.
-/

namespace MailMerge

/-- A range of offsets; `stop` is the offset just after it. -/
structure Span where
  start : Nat
  stop : Nat
  deriving Repr, DecidableEq, Inhabited

/-- The number of bytes of a text in UTF-8. -/
def byteLength : List Char → Nat
  | [] => 0
  | c :: rest => c.utf8Size + byteLength rest

/-- The bytes of a text in UTF-8. -/
def utf8Bytes (text : List Char) : List UInt8 :=
  text.flatMap String.utf8EncodeChar

/-- Places pieces end to end, the first at `start`; `width` tells how many
bytes a piece takes. -/
def layOut {α : Type} (width : α → Nat) (start : Nat) : List α → List (Span × α)
  | [] => []
  | piece :: rest =>
    (⟨start, start + width piece⟩, piece) :: layOut width (start + width piece) rest

/-- What is left of a text after its first `offset` bytes, or nothing if the
offset is past the end or inside a character. -/
def dropBytes? : Nat → List Char → Option (List Char)
  | 0, text => some text
  | _ + 1, [] => none
  | offset + 1, c :: rest =>
    if c.utf8Size ≤ offset + 1 then dropBytes? (offset + 1 - c.utf8Size) rest else none
termination_by _ text => text.length

/-- The first `offset` bytes of a text as characters, or nothing if the offset
is past the end or inside a character. -/
def takeBytes? : Nat → List Char → Option (List Char)
  | 0, _ => some []
  | _ + 1, [] => none
  | offset + 1, c :: rest =>
    if c.utf8Size ≤ offset + 1 then (takeBytes? (offset + 1 - c.utf8Size) rest).map (c :: ·)
    else none
termination_by _ text => text.length

/-- The characters of a text that a span covers, if both ends of the span lie
on character boundaries of the text. -/
def Span.slice? (span : Span) (text : List Char) : Option (List Char) :=
  if span.start ≤ span.stop then
    (dropBytes? span.start text).bind (takeBytes? (span.stop - span.start))
  else none

@[simp] theorem byteLength_nil : byteLength [] = 0 := rfl

@[simp] theorem byteLength_cons (c : Char) (text : List Char) :
    byteLength (c :: text) = c.utf8Size + byteLength text := rfl

@[simp] theorem byteLength_append (a b : List Char) :
    byteLength (a ++ b) = byteLength a + byteLength b := by
  induction a with
  | nil => rw [List.nil_append, byteLength_nil, Nat.zero_add]
  | cons c rest ih => rw [List.cons_append, byteLength_cons, byteLength_cons, ih, Nat.add_assoc]

@[simp] theorem utf8Bytes_append (a b : List Char) :
    utf8Bytes (a ++ b) = utf8Bytes a ++ utf8Bytes b := by
  simp [utf8Bytes]

theorem length_utf8Bytes (text : List Char) : (utf8Bytes text).length = byteLength text := by
  induction text with
  | nil => rfl
  | cons c rest ih =>
    have h : utf8Bytes (c :: rest) = String.utf8EncodeChar c ++ utf8Bytes rest := rfl
    rw [h, List.length_append, ih, byteLength_cons, String.length_utf8EncodeChar]

theorem map_snd_layOut {α : Type} (width : α → Nat) (start : Nat) (pieces : List α) :
    (layOut width start pieces).map Prod.snd = pieces := by
  induction pieces generalizing start with
  | nil => rfl
  | cons piece rest ih => simp [layOut, ih]

end MailMerge
