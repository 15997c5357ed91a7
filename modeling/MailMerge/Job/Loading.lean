import MailMerge.Job.Basic
import MailMerge.Job.Folder

/-!
# Loading jobs

A job is loaded from a TOML document. The key `format` must be there and hold
the template; `sort_by` may hold the name of a field, and `records` an array of
tables. Other keys do not matter. The keys are looked at in the order of the
document, and the first value of a wrong type is reported; only then is a
template found to be missing. Where a date or time stands as a table, a reader
says what its text spells.
-/

namespace MailMerge

open Toml

/-- What was expected in place of a value. -/
inductive Expected
  | string
  | sequence
  | map
  deriving Repr, DecidableEq

def Expected.describe : Expected → String
  | .string => "a string"
  | .sequence => "a sequence"
  | .map => "a map"

/-- How a well-formed document can fail to be a job. -/
inductive ShapeError
  /-- A value is not of the type expected. -/
  | invalidType (found : Value) (expected : Expected)
  | missingField (name : String)
  /-- Something else than a date or time goes under the key reserved for them. -/
  | invalidDateTime

def ShapeError.message : ShapeError → String
  | .invalidType found expected =>
    "invalid type: " ++ found.describe ++ ", expected " ++ expected.describe
  | .missingField name => "missing field `" ++ name ++ "`"
  | .invalidDateTime => "failed to parse datetime"

inductive LoadError
  /-- Its file could not be read. -/
  | unreadable (reason : ReadError)
  /-- Its text is no TOML document. -/
  | malformed
  /-- The document is no job. -/
  | shape (error : ShapeError)

def LoadError.message : LoadError → String
  | .unreadable reason => "Failed to read job file: " ++ reason.message
  | .malformed => "Failed to parse job TOML: malformed document"
  | .shape error => "Failed to parse job TOML: " ++ error.message

section

variable (reader : DateTime.Reader)

/-- The record that an element of an array stands for. A date or time stands
for the table with its text under the reserved key. -/
def recordOf : Value → Except ShapeError Record
  | .table entries =>
    match Record.ofEntries? reader entries with
    | some record => .ok record
    | none => .error .invalidDateTime
  | .dateTime value => .ok value.asTable
  | value => .error (.invalidType value .map)

/-- The records that the elements of an array stand for. -/
def recordsOf : List Value → Except ShapeError (List Record)
  | [] => .ok []
  | value :: rest => do return (← recordOf reader value) :: (← recordsOf rest)

/-- What was found of a job. -/
structure JobParts where
  template : Option String
  sortBy : Option String
  records : Option (List Record)

/-- The parts of a job with what an entry of the document adds. -/
def JobParts.add (parts : JobParts) (entry : String × Value) : Except ShapeError JobParts :=
  if entry.1 = "format" then
    match entry.2 with
    | .string template => .ok { parts with template := some template }
    | value => .error (.invalidType value .string)
  else if entry.1 = "sort_by" then
    match entry.2 with
    | .string field => .ok { parts with sortBy := some field }
    | value => .error (.invalidType value .string)
  else if entry.1 = "records" then
    match entry.2 with
    | .array elements =>
      (recordsOf reader elements).map fun records => { parts with records := some records }
    | value => .error (.invalidType value .sequence)
  else .ok parts

def Job.ofEntries (entries : Entries) : Except ShapeError Job := do
  let parts ← entries.foldlM (JobParts.add reader) ⟨none, none, none⟩
  match parts.template with
  | some template => return ⟨template, parts.sortBy, parts.records.getD []⟩
  | none => throw (.missingField "format")

def Job.parseBy (text : String) : Except LoadError Job :=
  match Toml.parse? text with
  | some entries => (Job.ofEntries reader entries).mapError .shape
  | none => .error .malformed

end

def Job.parse (text : String) : Except LoadError Job :=
  Job.parseBy DateTime.ofText? text

def Job.load (folder : Folder) (path : String) : Except LoadError Job :=
  match folder.read path with
  | .ok text => Job.parse text
  | .error reason => .error (.unreadable reason)

end MailMerge
