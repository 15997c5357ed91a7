import MailMerge.Toml.Value

/-!
# Values on one line

A value inside an array or a table is written as TOML writes it: arrays between
brackets, tables between braces, and a string in the first of TOML's four forms
that shows it best. The string's characters decide about the form: a string
that needs no escapes stands between plain double quotes, single quotes save
escaping backslashes and double quotes, and the long forms take line breaks.
-/

namespace MailMerge.Toml

/-- The controls that no form shows as they are. -/
def needsCode (c : Char) : Bool :=
  (decide (c.toNat < 0x20) && c != '\t' && c != '\n') || c.toNat == 0x7F

/-- The length of the longest run of a character. -/
def longestRun (c : Char) (text : List Char) : Nat :=
  let step := fun (state : Nat × Nat) d =>
    let run := if d = c then state.1 + 1 else 0
    (run, max run state.2)
  (text.foldl step (0, 0)).2

/-- The forms of a string. -/
inductive StringForm
  | basic
  | literal
  | longBasic
  | longLiteral
  deriving Repr, DecidableEq

/-- The first form that fits a string. -/
def StringForm.of (text : List Char) : StringForm :=
  let codes := text.any needsCode
  let backslash := text.contains '\\'
  let lineBreak := text.contains '\n'
  if !codes && !backslash && !text.contains '"' && !lineBreak then .basic
  else if !codes && !text.contains '\'' && !lineBreak then .literal
  else if !codes && !backslash && decide (longestRun '"' text ≤ 2) then .longBasic
  else if !codes && decide (longestRun '\'' text ≤ 2) then .longLiteral
  else if lineBreak then .longBasic
  else .basic

def codeEscape (c : Char) : List Char :=
  ['\\', 'u', '0', '0'] ++ padZeros 2 ((Nat.toDigits 16 c.toNat).map Char.toUpper)

/-- A character between double quotes; line breaks and double quotes are
decided on elsewhere. -/
def escapeChar (c : Char) : List Char :=
  if c = '\x08' then ['\\', 'b']
  else if c = '\t' then ['\\', 't']
  else if c = '\x0c' then ['\\', 'f']
  else if c = '\r' then ['\\', 'r']
  else if c = '\\' then ['\\', '\\']
  else if needsCode c then codeEscape c
  else [c]

def escapeBasic (text : List Char) : List Char :=
  text.flatMap fun c =>
    if c = '\n' then ['\\', 'n']
    else if c = '"' then ['\\', '"']
    else escapeChar c

/-- The inside of a string in the long basic form, after `run` double quotes:
every third double quote in a row is escaped. -/
def escapeLong (run : Nat) : List Char → List Char
  | [] => []
  | c :: rest =>
    if c = '"' then
      if run < 2 then '"' :: escapeLong (run + 1) rest else '\\' :: '"' :: escapeLong 0 rest
    else (if c = '\n' then ['\n'] else escapeChar c) ++ escapeLong 0 rest

/-- The long forms begin with a line break if the string has one anywhere. -/
def longOpening (text : List Char) : List Char :=
  if text.contains '\n' then ['\n'] else []

def StringForm.write (form : StringForm) (text : List Char) : List Char :=
  match form with
  | .basic => '"' :: escapeBasic text ++ ['"']
  | .literal => '\'' :: text ++ ['\'']
  | .longBasic => ['"', '"', '"'] ++ longOpening text ++ escapeLong 0 text ++ ['"', '"', '"']
  | .longLiteral => ['\'', '\'', '\''] ++ longOpening text ++ text ++ ['\'', '\'', '\'']

/-- A string between quotes. -/
def stringText (text : List Char) : List Char :=
  (StringForm.of text).write text

/-- The characters of keys that need no quotes. -/
def isBareKeyChar (c : Char) : Bool :=
  c.isAlphanum || c == '-' || c == '_'

/-- A key, bare or between quotes. -/
def keyText (key : List Char) : List Char :=
  let codes := key.any needsCode || key.contains '\n'
  if !key.isEmpty && key.all isBareKeyChar then key
  else if !codes && !key.contains '\\' && !key.contains '"' then '"' :: escapeBasic key ++ ['"']
  else if !codes && !key.contains '\'' then '\'' :: key ++ ['\'']
  else '"' :: escapeBasic key ++ ['"']

mutual

def Value.inline : Value → List Char
  | .string content => stringText content.toList
  | .integer value => intText value.toInt
  | .float value => inlineLayout.text value
  | .boolean value => if value then "true".toList else "false".toList
  | .dateTime value => value.text
  | .array elements => '[' :: inlineElements elements ++ [']']
  | .table entries => '{' :: inlineEntries entries ++ ['}']

/-- Values with commas between them. -/
def inlineElements : List Value → List Char
  | [] => []
  | [value] => value.inline
  | value :: rest => value.inline ++ ',' :: ' ' :: inlineElements rest

/-- Entries with commas between them and a space around them all. -/
def inlineEntries : List (String × Value) → List Char
  | [] => []
  | [(key, value)] => ' ' :: keyText key.toList ++ " = ".toList ++ value.inline ++ [' ']
  | (key, value) :: rest =>
    ' ' :: keyText key.toList ++ " = ".toList ++ value.inline ++ ',' :: inlineEntries rest

end

end MailMerge.Toml
