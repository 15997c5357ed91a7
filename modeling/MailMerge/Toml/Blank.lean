/-!
# Blanks, comments and line ends

What may stand between the parts of a document. A comment runs from its hash
sign to the end of the line and holds no controls but tabs.
-/

namespace MailMerge.Toml

/-- Characters that may stand in comments and strings as they are. -/
def isTextChar (c : Char) : Bool :=
  c == '\t' || (decide (0x20 ≤ c.toNat) && c.toNat != 0x7F)

/-- Blanks within a line. -/
def isSpace (c : Char) : Bool :=
  c == ' ' || c == '\t'

/-- A text without the blanks it begins with. -/
def skipSpaces (text : List Char) : List Char :=
  text.dropWhile isSpace

/-- A text without the line end that it has to begin with. -/
def takeLineEnd? : List Char → Option (List Char)
  | '\n' :: rest => some rest
  | '\r' :: '\n' :: rest => some rest
  | _ => none

/-- A text without the comment it begins with, if any. -/
def skipComment : List Char → List Char
  | '#' :: rest => rest.dropWhile isTextChar
  | text => text

/-- The text after the rest of a line: blanks, perhaps a comment, and the end
of the line or of the text. -/
def takeRestOfLine? (text : List Char) : Option (List Char) :=
  match skipComment (skipSpaces text) with
  | [] => some []
  | rest => takeLineEnd? rest

/-- A text without the blanks, line ends and comments it begins with; the flag
tells whether it begins inside a comment. -/
def skipBlankLines : Bool → List Char → List Char
  | _, [] => []
  | _, '\n' :: rest => skipBlankLines false rest
  | _, '\r' :: '\n' :: rest => skipBlankLines false rest
  | true, c :: rest => if isTextChar c then skipBlankLines true rest else c :: rest
  | false, c :: rest =>
    if isSpace c then skipBlankLines false rest
    else if c = '#' then skipBlankLines true rest
    else c :: rest

end MailMerge.Toml
