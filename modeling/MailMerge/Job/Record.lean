import MailMerge.Fields
import MailMerge.Number.Rounding
import MailMerge.Toml.DateTimeKey
import MailMerge.Toml.Document
import MailMerge.Toml.Inline

/-!
# Records

The records of a job are tables. A template sees a record through its keys: a
string without quotes, any other value much as TOML writes it. Records can be
compared by the value of one key, if both have it and the values are of one
kind; integers and floating-point numbers count as one kind.
-/

namespace MailMerge

open Toml

/-- A record: the entries of a table in the order of their keys. -/
abbrev Record := Entries

/-- The record of a table's entries, if their dates and times decode. The table
as a whole is a record even if its first key is the reserved one. -/
def Record.ofEntries? (reader : DateTime.Reader) (entries : Entries) : Option Record :=
  (decodeEntries? reader entries).map fun decoded => sortEntries (sortedEntries decoded)

def Record.parse? (document : String) : Option Record :=
  (Toml.parse? document).bind (Record.ofEntries? DateTime.ofText?)

/-- What a template puts in for a value. -/
def Toml.Value.fieldText : Value → List Char
  | .string content => content.toList
  | .float value => fieldLayout.text value
  | value => value.inline

def Record.fields (record : Record) : Fields where
  names := record.map Prod.fst
  value? name := (record.lookup name).map fun value => String.ofList value.fieldText

/-- How two values compare. Dates and times are compared by their text, and
integers with floating-point numbers after rounding to one. -/
def Toml.Value.compare? : Value → Value → Option Ordering
  | .integer a, .integer b => some (compare a b)
  | .float a, .float b => a.compare? b
  | .integer a, .float b => (Binary64.ofInt a.toInt).compare? b
  | .float a, .integer b => a.compare? (Binary64.ofInt b.toInt)
  | .string a, .string b => some (compare a b)
  | .boolean a, .boolean b => some (compare a b)
  | .dateTime a, .dateTime b => some (compare a.text b.text)
  | _, _ => none

/-- A record with the key that it is compared by. -/
structure SortKey where
  key : String
  record : Record

def SortKey.fields (sortKey : SortKey) : Fields :=
  sortKey.record.fields

/-- How two records compare by their keys. -/
def SortKey.compare? (a b : SortKey) : Option Ordering :=
  match a.record.lookup a.key, b.record.lookup b.key with
  | some v, some w => v.compare? w
  | _, _ => none

end MailMerge
