import MailMerge.Toml.Blank

/-!
# Strings in a document

A string stands between double quotes, where backslashes escape, or between
single quotes, where nothing does. Three quotes in place of one make the string
long: it may then have line breaks, and quotes as long as there are not three
in a row. Up to two more quotes right before the closing three belong to the
string.
-/

namespace MailMerge.Toml

def hexValue? (c : Char) : Option Nat :=
  if '0' ≤ c ∧ c ≤ '9' then some (c.toNat - '0'.toNat)
  else if 'a' ≤ c ∧ c ≤ 'f' then some (c.toNat - 'a'.toNat + 10)
  else if 'A' ≤ c ∧ c ≤ 'F' then some (c.toNat - 'A'.toNat + 10)
  else none

/-- The character with a code point in hexadecimal digits. -/
def charOfHex? (digits : List Char) : Option Char := do
  let values ← digits.mapM hexValue?
  let code := values.foldl (fun n d => 16 * n + d) 0
  if code.isValidChar then some (Char.ofNat code) else none

/-- The character that a letter behind a backslash stands for. -/
def escapedChar? : Char → Option Char
  | 'b' => some '\x08'
  | 'f' => some '\x0c'
  | 'n' => some '\n'
  | 'r' => some '\r'
  | 't' => some '\t'
  | '\\' => some '\\'
  | '"' => some '"'
  | _ => none

/-- A character in front of what was read after it. -/
def consTo (c : Char) : List Char × List Char → List Char × List Char
  | (content, rest) => (c :: content, rest)

/-- Reads a basic string up to its closing quote. -/
def readBasic : List Char → Option (List Char × List Char)
  | [] => none
  | '"' :: rest => some ([], rest)
  | '\\' :: 'u' :: a :: b :: c :: d :: rest => do
    let char ← charOfHex? [a, b, c, d]
    return consTo char (← readBasic rest)
  | '\\' :: 'U' :: a :: b :: c :: d :: e :: f :: g :: h :: rest => do
    let char ← charOfHex? [a, b, c, d, e, f, g, h]
    return consTo char (← readBasic rest)
  | '\\' :: c :: rest => do
    let char ← escapedChar? c
    return consTo char (← readBasic rest)
  | c :: rest =>
    if c ≠ '\\' ∧ isTextChar c then (readBasic rest).map (consTo c) else none

/-- Reads a literal string up to its closing quote. -/
def readLiteral : List Char → Option (List Char × List Char)
  | [] => none
  | '\'' :: rest => some ([], rest)
  | c :: rest => if isTextChar c then (readLiteral rest).map (consTo c) else none

/-- The quotes right before the closing three, and the text after those. -/
def closeLong (quote : Char) : List Char → List Char × List Char
  | a :: b :: rest =>
    if a = quote then if b = quote then ([a, b], rest) else ([a], b :: rest) else ([], a :: b :: rest)
  | [a] => if a = quote then ([a], []) else ([], [a])
  | [] => ([], [])

/-- Whether a backslash stands at the end of a line: only blanks follow it
there. -/
def endsLine (text : List Char) : Bool :=
  (takeLineEnd? (skipSpaces text)).isSome

/-- Reads a long basic string up to its closing quotes. After a backslash at
the end of a line all blanks and line breaks are skipped; the flag tells whether
that is going on. -/
def readLongBasic : Bool → List Char → Option (List Char × List Char)
  | _, [] => none
  | _, '"' :: '"' :: '"' :: rest => some (closeLong '"' rest)
  | true, '\n' :: rest => readLongBasic true rest
  | true, '\r' :: '\n' :: rest => readLongBasic true rest
  | false, '\n' :: rest => (readLongBasic false rest).map (consTo '\n')
  | false, '\r' :: '\n' :: rest => (readLongBasic false rest).map (consTo '\n')
  | _, '\\' :: 'u' :: a :: b :: c :: d :: rest => do
    let char ← charOfHex? [a, b, c, d]
    return consTo char (← readLongBasic false rest)
  | _, '\\' :: 'U' :: a :: b :: c :: d :: e :: f :: g :: h :: rest => do
    let char ← charOfHex? [a, b, c, d, e, f, g, h]
    return consTo char (← readLongBasic false rest)
  | _, '\\' :: c :: rest =>
    if endsLine (c :: rest) then readLongBasic true (c :: rest)
    else do
      let char ← escapedChar? c
      return consTo char (← readLongBasic false rest)
  | skipping, c :: rest =>
    if skipping && isSpace c then readLongBasic true rest
    else if c ≠ '\\' ∧ isTextChar c then (readLongBasic false rest).map (consTo c)
    else none

/-- Reads a long literal string up to its closing quotes. -/
def readLongLiteral : List Char → Option (List Char × List Char)
  | [] => none
  | '\'' :: '\'' :: '\'' :: rest => some (closeLong '\'' rest)
  | '\n' :: rest => (readLongLiteral rest).map (consTo '\n')
  | '\r' :: '\n' :: rest => (readLongLiteral rest).map (consTo '\n')
  | c :: rest => if isTextChar c then (readLongLiteral rest).map (consTo c) else none

/-- A text without the line break right after the opening quotes of a long
string. -/
def skipFirstBreak (text : List Char) : List Char :=
  (takeLineEnd? text).getD text

/-- Reads a string on one line. -/
def readShortString? : List Char → Option (List Char × List Char)
  | '"' :: rest => readBasic rest
  | '\'' :: rest => readLiteral rest
  | _ => none

def readString? : List Char → Option (List Char × List Char)
  | '"' :: '"' :: '"' :: rest => readLongBasic false (skipFirstBreak rest)
  | '\'' :: '\'' :: '\'' :: rest => readLongLiteral (skipFirstBreak rest)
  | text => readShortString? text

end MailMerge.Toml
