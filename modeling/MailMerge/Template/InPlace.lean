import MailMerge.Template.Render

/-!
# Filling in a template in place

Another way to fill in a template is to edit a copy of it: the placeholders are
replaced from left to right, and since each replacement moves what stands
behind it, the places found in the template are corrected by how far the copy
has shrunk so far. An edit is refused if the corrected place lies before the
start of the copy, past its end or inside of a character. The text that comes
out is the same as the one made token by token, the same misses are noted, and
no edit is ever refused.
-/

namespace MailMerge.Template

/-- A text with the characters of a span replaced, if the span is one of the
text. -/
def replaceSpan? (text : List Char) (span : Span) (replacement : List Char) :
    Option (List Char) := do
  let _ ← span.slice? text
  let before ← takeBytes? span.start text
  let after ← dropBytes? span.stop text
  return before ++ replacement ++ after

/-- A copy of a template in the middle of the edits. -/
structure WorkingCopy where
  text : List Char
  /-- How many bytes the copy has lost so far; negative when it has grown. -/
  shrunk : Int
  /-- What was noted so far. -/
  events : List Event

/-- The copy before the first edit. -/
def WorkingCopy.ofTemplate (template : String) : WorkingCopy :=
  ⟨template.toList, 0, []⟩

/-- Where a place of the template has moved to, unless that is before the
start of the copy. -/
def WorkingCopy.moved? (copy : WorkingCopy) (span : Span) : Option Span :=
  if copy.shrunk ≤ span.start ∧ copy.shrunk ≤ span.stop then
    some ⟨(span.start - copy.shrunk).toNat, (span.stop - copy.shrunk).toNat⟩
  else none

/-- Replaces one placeholder of the template in its copy. -/
def WorkingCopy.replace? (copy : WorkingCopy) (p : Placeholder) (value : List Char) :
    Option WorkingCopy := do
  let span ← copy.moved? p.span
  let text ← replaceSpan? copy.text span value
  return { copy with text, shrunk := copy.shrunk + byteLength p.raw - byteLength value }

/-- Edits a copy of the template for one placeholder; without a text for it
there is nothing to replace. -/
def WorkingCopy.fill? (object : Fields) (copy : WorkingCopy) (p : Placeholder) :
    Option WorkingCopy :=
  match object.resolve p.name with
  | (some value, events) =>
    ({ copy with events := copy.events ++ events } : WorkingCopy).replace? p value.toList
  | (none, events) => some { copy with events := copy.events ++ events }

/-- The template after all edits, if none was refused. -/
def renderInPlace? (object : Fields) (template : String) : Option Rendering :=
  ((placeholders template).foldlM (WorkingCopy.fill? object) (.ofTemplate template)).map
    fun copy => ⟨copy.text, copy.events⟩

end MailMerge.Template
