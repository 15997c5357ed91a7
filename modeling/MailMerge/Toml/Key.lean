import MailMerge.Toml.StringLiteral

/-!
# Keys in a document

A key is a bare word or a quoted string; points between keys make a path into
nested tables.
-/

namespace MailMerge.Toml

/-- A path into tables: the keys of the tables on the way, and the last key. -/
structure KeyPath where
  parents : List String
  key : String
  deriving Repr, DecidableEq

/-- Paths have fewer keys than this. -/
def pathBound : Nat := 80

/-- The path along some keys, if there is one and not too many. -/
def KeyPath.ofKeys? (keys : List String) : Option KeyPath :=
  match keys.getLast? with
  | some key => if keys.length < pathBound then some ⟨keys.dropLast, key⟩ else none
  | none => none

def isBareChar (c : Char) : Bool :=
  c.isAlphanum || c == '-' || c == '_'

def readKey? (text : List Char) : Option (String × List Char) :=
  match text with
  | '"' :: _ | '\'' :: _ =>
    (readShortString? text).map fun (content, rest) => (String.ofList content, rest)
  | _ =>
    match text.takeWhile isBareChar with
    | [] => none
    | word => some (String.ofList word, text.dropWhile isBareChar)

/-- Reads keys with points between them; blanks may stand around each. Every
key takes a character at least, so `fuel` is the length of the text. -/
def readKeys? (fuel : Nat) (text : List Char) : Option (List String × List Char) :=
  match fuel with
  | 0 => none
  | fuel + 1 => do
    let (key, rest) ← readKey? (skipSpaces text)
    match skipSpaces rest with
    | '.' :: rest =>
      let (keys, rest) ← readKeys? fuel rest
      return (key :: keys, rest)
    | rest => return ([key], rest)

def readPath? (text : List Char) : Option (KeyPath × List Char) := do
  let (keys, rest) ← readKeys? text.length text
  let path ← KeyPath.ofKeys? keys
  return (path, rest)

end MailMerge.Toml
