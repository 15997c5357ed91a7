import MailMerge.CommandLine.Options
import MailMerge.Job.Loading
import MailMerge.Walkthrough

/-!
# The program

What the program writes and how it ends, given its command line, its input and
a way to read files. It runs a job, or checks one, or shows the walkthrough.
-/

namespace MailMerge.CommandLine

structure Ending where
  /-- Zero if all went well. -/
  code : UInt32
  output : List UInt8
  errors : String
  events : List Event

/-- Nothing went well. -/
def Ending.failure (errors : String) : Ending := ⟨1, [], errors, []⟩

/-- The ending after something was written to the output. -/
def Ending.ofOutcome (outcome : Outcome) : Ending where
  code := match outcome.result with
    | .ok () => 0
    | .error _ => 1
  output := outcome.sink.taken
  errors := match outcome.result with
    | .ok () => ""
    | .error error => "Error: " ++ error.message ++ "\n"
  events := outcome.events

/-- The text of the job, or what to say if there is none. -/
def source (options : Options) (input : List UInt8) (read : String → Except ReadError String) :
    Except String String :=
  match options.input with
  | some path =>
    (read path).mapError fun reason =>
      "Error reading file '" ++ path ++ "': " ++ reason.message ++ "\n"
  | none =>
    match utf8Text? input with
    | some text => .ok text
    | none => .error ("Error reading from stdin: " ++ ReadError.notText.message ++ "\n")

/-- The job with what the options put in place of its own. -/
def override (options : Options) (job : Job) : Job :=
  let job := (options.template.map job.withTemplate).getD job
  (options.sortBy.map job.withSortBy).getD job

/-- Reports the placeholders that stay. That any do is a failure. -/
def checkJob (job : Job) : Ending :=
  let reports := job.reports
  ⟨if reports.all (·.isEmpty) then 0 else 1, [], String.join reports, []⟩

def perform (options : Options) (input : List UInt8) (read : String → Except ReadError String) :
    Ending :=
  if options.demo then .ofOutcome (walkthrough .unlimited)
  else
    match source options input read with
    | .error message => .failure message
    | .ok text =>
      match Job.parse text with
      | .error error => .failure ("Error loading job: " ++ error.message ++ "\n")
      | .ok job =>
        let job := override options job
        if options.check then checkJob job else .ofOutcome (job.run .lines .unlimited)

def usageText : String :=
  "Usage: mail-merge [-f TEMPLATE] [-s FIELD] [--check] [--demo] [-v] [JOB]\n"

def run (words : List String) (input : List UInt8) (read : String → Except ReadError String) :
    Ending :=
  match Options.parse words with
  | .ok options => perform options input read
  | .error .help => ⟨0, utf8Bytes usageText.toList, "", []⟩
  | .error .usage => ⟨2, [], usageText, []⟩

end MailMerge.CommandLine
