import MailMerge.Format.Fill
import MailMerge.Order.StableSort
import MailMerge.Sink
import MailMerge.Template.Render

/-!
# Writing objects

One object is written as one chunk. Of a list every element is written as one
chunk, with the line's end made part of the template. A list to be sorted is
sorted before anything is written, so that nothing is written if it has no
order; likewise the text of an object is complete before it is written.
-/

namespace MailMerge

inductive PrintError
  /-- The format string could not be filled. -/
  | format (error : Format.Error)
  /-- The sink refused a chunk. -/
  | output (reason : String)
  /-- Two elements have no order. -/
  | incomparable (places : Incomparable)
  /-- A number should have too many places. This is no error that is returned: the run
  broke off. -/
  | brokenOff
  deriving Repr, DecidableEq

def PrintError.message : PrintError → String
  | .format error => "format error: " ++ error.message
  | .output reason => "failed to write output: " ++ reason
  | .incomparable places =>
    "elements at positions " ++ toString places.left ++ " and " ++ toString places.right
      ++ " cannot be ordered"
  | .brokenOff => "Formatting argument out of range"

/-- What a sink says that has no more room. -/
def sinkFull : PrintError := .output "sink full"

/-- What is left behind when something was written. -/
structure Outcome where
  sink : Sink
  events : List Event
  result : Except PrintError Unit

/-- Something to be written. -/
def Writer := Sink → Outcome

namespace Writer

def nothing : Writer := fun sink => ⟨sink, [], .ok ()⟩

def fail (error : PrintError) : Writer := fun sink => ⟨sink, [], .error error⟩

def note (events : List Event) : Writer := fun sink => ⟨sink, events, .ok ()⟩

def chunk (text : List Char) : Writer := fun sink =>
  let bytes := utf8Bytes text
  ⟨sink.take bytes, [], if sink.fits bytes.length then .ok () else .error sinkFull⟩

/-- Writes one thing and, if that went well, another one. -/
def andThen (first second : Writer) : Writer := fun sink =>
  let done := first sink
  match done.result with
  | .ok () =>
    let more := second done.sink
    { more with events := done.events ++ more.events }
  | .error _ => done

end Writer

open Template in
/-- Writes an object as its template says. -/
def writeObject (object : Fields) (template : String) : Writer :=
  let result := rendering object template
  (Writer.note result.events).andThen (Writer.chunk result.text)

open Template in
/-- Writes an object as its template says, after filling the text of the
template, as a format string, with arguments. -/
def writeFilled (object : Fields) (template : String) (arguments : List Format.Argument) :
    Writer :=
  let result := rendering object template
  (Writer.note result.events).andThen <|
    match Format.fill (String.ofList result.text) arguments with
    | .ok text => Writer.chunk text.toList
    | .error (.returned error) => Writer.fail (.format error)
    | .error .tooManyPlaces => Writer.fail .brokenOff

/-- How lists are written. -/
structure ListStyle where
  /-- What every element's template ends in. -/
  terminator : String
  deriving Repr, DecidableEq

/-- Every element on a line of its own. -/
def ListStyle.lines : ListStyle := ⟨"\n"⟩

/-- The template of an element. -/
def ListStyle.template (style : ListStyle) (template : String) : String :=
  template ++ style.terminator

/-- Writes elements, the first of which is at the place `index` of its list. -/
def writeElements (line : String) : Nat → List Fields → Writer
  | _, [] => .nothing
  | index, object :: rest =>
    (Writer.note [.writingElement index]).andThen <|
      (writeObject object line).andThen (writeElements line (index + 1) rest)

def writeList (objects : List Fields) (template : String) (style : ListStyle) : Writer :=
  writeElements (style.template template) 0 objects

/-- Sorts the elements of a list and writes them. -/
def writeSorted {α : Type} (compare? : α → α → Option Ordering) (view : α → Fields)
    (items : List α) (template : String) (style : ListStyle) : Writer :=
  match stableSort compare? items with
  | .ok sorted => writeList (sorted.map view) template style
  | .error places => .fail (.incomparable places)

end MailMerge
