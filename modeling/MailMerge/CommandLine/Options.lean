/-!
# Options

What the words of a command line ask for. Words that begin with a dash are
options, in a long form of their own or in short forms, several of which can
share a word. An option's value stands behind an equals sign, or in the same
word, or is the next word if that is no option. After a word of two dashes
nothing is an option any more. Every option can be given once.
-/

namespace MailMerge.CommandLine

structure Options where
  /-- The job file; without one the job is read from the input. -/
  input : Option String := none
  /-- A template in place of the job's own. -/
  template : Option String := none
  /-- A field to sort by in place of the job's own. -/
  sortBy : Option String := none
  /-- Whether to report placeholders that stay, and write nothing. -/
  check : Bool := false
  /-- Whether to write the walkthrough. -/
  demo : Bool := false
  /-- Whether to show what is noted. -/
  verbose : Bool := false
  deriving Repr, DecidableEq

/-- Why there is nothing to do. -/
inductive Refusal
  /-- Help was asked for. -/
  | help
  /-- The words make no sense. -/
  | usage
  deriving Repr, DecidableEq

/-- The options that take a value. -/
inductive Setting
  | template
  | sortBy
  deriving Repr, DecidableEq

/-- The options that take none. -/
inductive Switch
  | check
  | demo
  | verbose
  | help
  deriving Repr, DecidableEq

/-- Any option. -/
inductive Flag
  | setting (setting : Setting)
  | switch (switch : Switch)
  deriving Repr, DecidableEq

def Flag.ofName? (name : List Char) : Option Flag :=
  if name = "format".toList then some (.setting .template)
  else if name = "sort-by".toList then some (.setting .sortBy)
  else if name = "check".toList then some (.switch .check)
  else if name = "demo".toList then some (.switch .demo)
  else if name = "verbose".toList then some (.switch .verbose)
  else if name = "help".toList then some (.switch .help)
  else none

def Flag.ofLetter? : Char → Option Flag
  | 'f' => some (.setting .template)
  | 's' => some (.setting .sortBy)
  | 'v' => some (.switch .verbose)
  | 'h' => some (.switch .help)
  | _ => none

namespace Options

def set (options : Options) (setting : Setting) (value : List Char) : Except Refusal Options :=
  match setting, options.template, options.sortBy with
  | .template, none, _ => .ok { options with template := some (String.ofList value) }
  | .sortBy, _, none => .ok { options with sortBy := some (String.ofList value) }
  | _, _, _ => .error .usage

def turnOn (options : Options) : Switch → Except Refusal Options
  | .check => if options.check then .error .usage else .ok { options with check := true }
  | .demo => if options.demo then .error .usage else .ok { options with demo := true }
  | .verbose => if options.verbose then .error .usage else .ok { options with verbose := true }
  | .help => .error .help

def setInput (options : Options) (word : List Char) : Except Refusal Options :=
  if options.input.isSome ∨ word = [] then .error .usage
  else .ok { options with input := some (String.ofList word) }

/-- Options of which the last one may still wait for its value. -/
abbrev Pending := Options × Option Setting

def addLetters (options : Options) : List Char → Except Refusal Pending
  | [] => .ok (options, none)
  | letter :: rest =>
    match Flag.ofLetter? letter with
    | some (.switch switch) => do addLetters (← options.turnOn switch) rest
    | some (.setting setting) =>
      match rest with
      | [] => .ok (options, some setting)
      | '=' :: value => (options.set setting value).map (·, none)
      | value => (options.set setting value).map (·, none)
    | none => .error .usage

def addLong (options : Options) (word : List Char) : Except Refusal Pending :=
  let name := word.takeWhile (· ≠ '=')
  match Flag.ofName? name, word.dropWhile (· ≠ '=') with
  | some (.setting setting), _ :: value => (options.set setting value).map (·, none)
  | some (.setting setting), [] => .ok (options, some setting)
  | some (.switch switch), [] => (options.turnOn switch).map (·, none)
  | _, _ => .error .usage

def addWord (options : Options) : List Char → Except Refusal Pending
  | '-' :: '-' :: name => options.addLong name
  | '-' :: letter :: rest => options.addLetters (letter :: rest)
  | word => (options.setInput word).map (·, none)

/-- Whether a word can be the value of the option before it. -/
def isValue : List Char → Bool
  | '-' :: _ :: _ => false
  | _ => true

def addWords (options : Options) : List (List Char) → Except Refusal Options
  | [] => .ok options
  | word :: rest =>
    if word = ['-', '-'] then rest.foldlM setInput options
    else do
      match ← options.addWord word with
      | (options, none) => addWords options rest
      | (options, some setting) =>
        match rest with
        | [] => .error .usage
        | value :: rest =>
          if isValue value then do addWords (← options.set setting value) rest
          else .error .usage

def parse (words : List String) : Except Refusal Options :=
  addWords {} (words.map String.toList)

end Options

end MailMerge.CommandLine
