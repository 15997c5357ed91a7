import MailMerge.Toml.Value

/-!
# The key of dates and times

A date or a time can stand as a table: its text is a string under a key that is
reserved for it. Decoding turns such tables into what they stand for. Only the
first key of a table decides, in the order of the document, and what comes
after it is not looked at.

What a text under the key spells is for a reader to say, and decoding takes the
reader as it comes.
-/

namespace MailMerge.Toml

/-- The key that the text of a date or time goes under. -/
def dateTimeKey : String := "$__toml_private_datetime"

/-- What says of a text under the key which date or time it spells, if any. -/
abbrev DateTime.Reader := List Char → Option DateTime

/-- The reader that lets a text through as a document writes it, whole: there is
no hour twenty-four, and no offset of a day. -/
def DateTime.ofText? : DateTime.Reader := fun text =>
  match DateTime.take? text with
  | some (value, []) => some value
  | _ => none

/-- The table that a date or time stands as. -/
def DateTime.asTable (value : DateTime) : Entries :=
  [(dateTimeKey, .string (String.ofList value.text))]

/-- What goes under the reserved key, if that is the first key of a table. -/
def reserved? : Entries → Option Value
  | [] => none
  | (key, value) :: _ => if key = dateTimeKey then some value else none

section

variable (reader : DateTime.Reader)

mutual

/-- The value with every date or time that stands as a table in it decoded; one
that is a date or time already stays as it is. It does not decode if something
else goes under a reserved key. -/
def Value.decode? : Value → Option Value
  | .array elements => (decodeElements? elements).map .array
  | .table entries =>
    match reserved? entries with
    | some (.string text) => (reader text.toList).map .dateTime
    | some _ => none
    | none => (decodeEntries? entries).map .table
  | value => some value

/-- Values, each decoded. -/
def decodeElements? : List Value → Option (List Value)
  | [] => some []
  | value :: rest => do return (← value.decode?) :: (← decodeElements? rest)

/-- Entries, each with its value decoded. -/
def decodeEntries? : List (String × Value) → Option (List (String × Value))
  | [] => some []
  | (key, value) :: rest => do return (key, ← value.decode?) :: (← decodeEntries? rest)

end

end

end MailMerge.Toml
