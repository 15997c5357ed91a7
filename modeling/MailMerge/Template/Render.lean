import MailMerge.Template.Placeholder

/-!
# Filling in a template

A template is filled in token by token: a placeholder that the object has a
text for gives that text, and everything else stays as it stands. The texts put
in are not looked at again, whatever they contain.
-/

namespace MailMerge.Template

/-- A text made from a template, and what was noted on the way. -/
structure Rendering where
  text : List Char
  events : List Event
  deriving Repr, DecidableEq

/-- What a single token becomes. -/
def renderToken (object : Fields) : Token → Rendering
  | .placeholder name =>
    match object.resolve (String.ofList name) with
    | (some value, events) => ⟨value.toList, events⟩
    | (none, events) => ⟨(Token.placeholder name).raw, events⟩
  | token => ⟨token.raw, []⟩

/-- A template with an object's texts in place of its placeholders. -/
def rendering (object : Fields) (template : String) : Rendering :=
  let pieces := (scan template.toList).map (renderToken object)
  ⟨pieces.flatMap Rendering.text, pieces.flatMap Rendering.events⟩

/-- The text alone. -/
def render (object : Fields) (template : String) : String :=
  String.ofList (rendering object template).text

end MailMerge.Template
