import MailMerge.Fields
import MailMerge.Template.Token

/-!
# Placeholders

The placeholders of a template, in order and with their places, and those of
them that an object has no text for.
-/

namespace MailMerge.Template

/-- An occurrence of a placeholder in a template. -/
structure Placeholder where
  /-- Its bytes, from the dollar sign through the closing brace. -/
  span : Span
  /-- What stands between the braces; it may be empty. -/
  name : String
  deriving Repr, DecidableEq

def Placeholder.raw (p : Placeholder) : List Char :=
  (Token.placeholder p.name.toList).raw

/-- A token at a place, if it is a placeholder. -/
def Placeholder.ofToken? : Span × Token → Option Placeholder
  | (span, .placeholder name) => some ⟨span, String.ofList name⟩
  | _ => none

def placeholders (template : String) : List Placeholder :=
  (tokens template).filterMap Placeholder.ofToken?

/-- The placeholders that an object has no text for. Asking is not noted. -/
def unresolved (object : Fields) (template : String) : List Placeholder :=
  (placeholders template).filter fun p => (object.value? p.name).isNone

end MailMerge.Template
