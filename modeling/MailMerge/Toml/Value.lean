import MailMerge.Number.Layout
import MailMerge.Text.Quoted
import MailMerge.Toml.DateTime

/-!
# Values of a document

The values that a TOML document gives to its keys. A table keeps its entries in
a list, in the order of the document or, once `sorted`, in the order of their
keys.
-/

namespace MailMerge.Toml

inductive Value
  | string (content : String)
  | integer (value : Int64)
  | float (value : Binary64)
  | boolean (value : Bool)
  | dateTime (value : DateTime)
  | array (elements : List Value)
  | table (entries : List (String × Value))

abbrev Entries := List (String × Value)

/-- Entries in the order of their keys. Keys are ordered as their bytes are. -/
def sortEntries {α : Type} (entries : List (String × α)) : List (String × α) :=
  entries.mergeSort fun a b => decide (a.1 ≤ b.1)

mutual

/-- The same value with the entries of all its tables in order. -/
def Value.sorted : Value → Value
  | .array elements => .array (sortedElements elements)
  | .table entries => .table (sortEntries (sortedEntries entries))
  | value => value

/-- Values, each with the entries of its tables in order. -/
def sortedElements : List Value → List Value
  | [] => []
  | value :: rest => value.sorted :: sortedElements rest

/-- Entries in their own order, each with a sorted value. -/
def sortedEntries : List (String × Value) → List (String × Value)
  | [] => []
  | (key, value) :: rest => (key, value.sorted) :: sortedEntries rest

end

/-- How a message calls a value that is not of the type asked for. -/
def Value.describe : Value → String
  | .string content => "string " ++ String.ofList (quoted content.toList)
  | .integer value => "integer `" ++ String.ofList (intText value.toInt) ++ "`"
  | .float value => "floating point `" ++ String.ofList (messageLayout.text value) ++ "`"
  | .boolean value => "boolean `" ++ (if value then "true" else "false") ++ "`"
  | .dateTime _ => "map"
  | .array _ => "sequence"
  | .table _ => "map"

end MailMerge.Toml
