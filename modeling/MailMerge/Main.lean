import MailMerge.CommandLine.Program

/-!
# The command

Hands the command line, the input and the job file to the program, and what it
wrote to whoever called it.
-/

open MailMerge MailMerge.CommandLine

/-- The reason behind an error of the operating system. -/
def readErrorOf (error : IO.Error) : ReadError :=
  match error with
  | .inappropriateType _ code _ => if code = 21 then .isDirectory else .notDirectory
  | .invalidArgument .. => .nameTooLong
  | _ => .notFound

/-- Reads a text file. -/
def readText (path : String) : IO (Except ReadError String) := do
  try
    let bytes ← IO.FS.readBinFile path
    match utf8Text? bytes.toList with
    | some text => return .ok text
    | none => return .error .notText
  catch error => return .error (readErrorOf error)

/-- One line for each thing noted about a field. -/
def noteLine : Event → Option String
  | .noValue field known =>
    some ("DEBUG no value for placeholder field=" ++ field ++ " known=" ++ quotedList known ++ "\n")
  | .writingElement _ => none

def main (words : List String) : IO UInt32 := do
  let options := (Options.parse words).toOption.getD {}
  let content ←
    match options.input with
    | some path => readText path
    | none => pure (.error .notFound)
  let input ←
    if options.input.isNone && !options.demo && (Options.parse words).isOk then
      (← IO.getStdin).readBinToEnd
    else pure .empty
  let ending := CommandLine.run words input.toList fun _ => content
  let stdout ← IO.getStdout
  let stderr ← IO.getStderr
  if options.verbose then
    for line in ending.events.filterMap noteLine do
      stderr.putStr line
  stdout.write ending.output.toByteArray
  stdout.flush
  stderr.putStr ending.errors
  return ending.code
