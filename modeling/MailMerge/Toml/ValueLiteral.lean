import MailMerge.Toml.NumberLiteral
import MailMerge.Toml.Tree

/-!
# Values in a document

The text of a value tells by its first character what it is. Arrays may run
over several lines and end in a comma; tables between braces may do neither.
Values are not nested deeper than seventy-nine levels.
-/

namespace MailMerge.Toml

/-- What reads something off the beginning of a text. -/
abbrev Reader (α : Type) := List Char → Option (α × List Char)

/-- Reads a number, a date or a time. -/
def readNumeral? (text : List Char) : Option (Value × List Char) :=
  match DateTime.take? text with
  | some (value, rest) => some (.dateTime value, rest)
  | none =>
    match readFloat? text with
    | some (value, rest) => some (.float value, rest)
    | none =>
      match readSpecialFloat? text with
      | some (value, rest) => some (.float value, rest)
      | none => (readInteger? text).map fun (value, rest) => (.integer value, rest)

/-- Reads the elements of an array and its closing bracket, given how to read
an element. Every element takes a character at least, so `fuel` is the length
of the text. -/
def readElements? (element : Reader Value) : Nat → Reader (List Value)
  | 0, _ => none
  | fuel + 1, text =>
    match skipBlankLines false text with
    | ']' :: rest => some ([], rest)
    | text => do
      let (value, rest) ← element text
      match skipBlankLines false rest with
      | ',' :: rest =>
        let (values, rest) ← readElements? element fuel rest
        return (value :: values, rest)
      | ']' :: rest => return ([value], rest)
      | _ => none

/-- Reads a path, an equals sign and a value, with blanks around the value. -/
def readAssignment? (value : Reader Value) : Reader (KeyPath × Value) := fun text => do
  let (path, rest) ← readPath? text
  match rest with
  | '=' :: rest =>
    let (value, rest) ← value (skipSpaces rest)
    return ((path, value), skipSpaces rest)
  | _ => none

/-- Reads the assignments of a table between braces, and the closing brace. -/
def readAssignments? (value : Reader Value) : Nat → Reader (List (KeyPath × Value))
  | 0, _ => none
  | fuel + 1, text => do
    let (assignment, rest) ← readAssignment? value text
    match rest with
    | ',' :: rest =>
      let (assignments, rest) ← readAssignments? value fuel rest
      return (assignment :: assignments, rest)
    | '}' :: rest => return ([assignment], rest)
    | _ => none

/-- Reads a table after its opening brace. -/
def readInlineTable? (value : Reader Value) : Reader Value := fun text =>
  match skipSpaces text with
  | '}' :: rest => some (.table [], rest)
  | _ => do
    let (assignments, rest) ← readAssignments? value (text.length + 1) text
    let table ← tableOfAssignments? assignments
    return (table, rest)

/-- How deep values may be nested. -/
def depthBound : Nat := 79

/-- Reads a value that is nested no deeper than the given number of levels. -/
def readValue? : Nat → Reader Value
  | depth, text =>
    match text with
    | '"' :: _ | '\'' :: _ =>
      (readString? text).map fun (content, rest) => (.string (String.ofList content), rest)
    | '[' :: rest =>
      match depth with
      | 0 => none
      | depth + 1 =>
        (readElements? (readValue? depth) (rest.length + 1) rest).map fun (values, rest) =>
          (.array values, rest)
    | '{' :: rest =>
      match depth with
      | 0 => none
      | depth + 1 => readInlineTable? (readValue? depth) rest
    | 't' :: 'r' :: 'u' :: 'e' :: rest => some (.boolean true, rest)
    | 'f' :: 'a' :: 'l' :: 's' :: 'e' :: rest => some (.boolean false, rest)
    | text => readNumeral? text

end MailMerge.Toml
