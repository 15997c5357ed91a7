import MailMerge.Format.Error
import MailMerge.Report.Drawing
import MailMerge.Template.Placeholder

/-!
# Reports on formats and templates

An error of a format string is reported with a hint at the piece it is about.
The placeholders of a template that nothing is filled into are reported
together, as a warning.
-/

namespace MailMerge

/-- The report of an error. -/
def Format.Error.report (error : Format.Error) : Report where
  word := "Error"
  color := "31"
  message := error.message
  location := error.span.start
  labels := [⟨error.span, error.fault.hint⟩]

/-- An error, drawn on the format string that it came from. -/
def Format.Error.draw (error : Format.Error) (format name : String) : String :=
  error.report.draw name format.toList

namespace Template

/-- What to write next to a placeholder that stays. -/
def Placeholder.remark (p : Placeholder) : String :=
  if p.name.isEmpty then "empty placeholder name" else "no field named '" ++ p.name ++ "'"

/-- The report of placeholders that stay, of which `first` is the first. -/
def stayingReport (first : Placeholder) (missing : List Placeholder) : Report where
  word := "Warning"
  color := "33"
  message := toString missing.length ++ " placeholder(s) will not be replaced"
  location := first.span.start
  labels := missing.map fun p => ⟨p.span, p.remark⟩

/-- The placeholders that stay, drawn on their template; nothing if there are
none. -/
def drawStaying (template name : String) (missing : List Placeholder) : String :=
  match missing with
  | [] => ""
  | first :: _ => (stayingReport first missing).draw name template.toList

end Template

end MailMerge
