import MailMerge.Text.Visible

/-!
# Quoted texts

A text between double quotes, so written that a reader can tell every
character: quotes and backslashes behind a backslash, the common controls by
their letters, and whatever else cannot be seen by its code point.
-/

namespace MailMerge

/-- A number in base 16, with the digits `a` to `f` for ten to fifteen. -/
def hexText (n : Nat) : List Char :=
  Nat.toDigits 16 n

/-- One character of a quoted text. -/
def quoteChar (c : Char) : List Char :=
  if c = '\x00' then ['\\', '0']
  else if c = '\t' then ['\\', 't']
  else if c = '\r' then ['\\', 'r']
  else if c = '\n' then ['\\', 'n']
  else if c = '"' then ['\\', '"']
  else if c = '\\' then ['\\', '\\']
  else if isVisible c then [c]
  else ['\\', 'u', '{'] ++ hexText c.toNat ++ ['}']

def quoted (text : List Char) : List Char :=
  '"' :: text.flatMap quoteChar ++ ['"']

/-- Several texts in double quotes, as a list between brackets. -/
def quotedList (texts : List String) : String :=
  "[" ++ ", ".intercalate (texts.map fun text => String.ofList (quoted text.toList)) ++ "]"

end MailMerge
