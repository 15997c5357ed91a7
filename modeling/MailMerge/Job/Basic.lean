import MailMerge.Job.Record
import MailMerge.Report.Basic
import MailMerge.Writing

/-!
# Jobs

A job is a template and the records it is filled in with, perhaps sorted by one
of their fields. Running it writes every record on a line; checking it finds
the placeholders that would stay.
-/

namespace MailMerge

structure Job where
  template : String
  /-- The field to sort the records by; without one they keep their order. -/
  sortBy : Option String
  records : List Record

namespace Job

def withTemplate (job : Job) (template : String) : Job :=
  { job with template }

def withSortBy (job : Job) (field : String) : Job :=
  { job with sortBy := some field }

def run (job : Job) (style : ListStyle) : Writer :=
  match job.sortBy with
  | some key =>
    writeSorted SortKey.compare? SortKey.fields (job.records.map fun record => ⟨key, record⟩)
      job.template style
  | none => writeList (job.records.map Record.fields) job.template style

/-- The placeholders of the template that stay, for every record. -/
def unresolved (job : Job) : List (List Template.Placeholder) :=
  job.records.map fun record => Template.unresolved record.fields job.template

/-- What the record at a place is called in reports; the first is number one. -/
def recordName (index : Nat) : String :=
  "record " ++ toString (index + 1)

/-- A report for every record; it is empty if no placeholder stays. -/
def reports (job : Job) : List String :=
  job.unresolved.mapIdx fun index missing =>
    Template.drawStaying job.template (recordName index) missing

end Job

end MailMerge
