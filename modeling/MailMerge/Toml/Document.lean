import MailMerge.Toml.ValueLiteral

/-!
# Documents

A document is a sequence of statements, one on a line: assignments, headers of
tables, and headers of list elements, which also are tables. Everything up to
the next header goes into the table of the last one. When the next header
comes, that table is put at its place in the document.
-/

namespace MailMerge.Toml

/-- A line of a document that says something. -/
inductive Statement
  | assignment (path : KeyPath) (value : Value)
  | tableHeader (path : KeyPath)
  | elementHeader (path : KeyPath)

/-! ## Statements from text -/

/-- Reads a statement and the rest of its line. -/
def readStatement? (text : List Char) : Option (Statement × List Char) :=
  match text with
  | '[' :: '[' :: rest => do
    let (path, rest) ← readPath? rest
    match rest with
    | ']' :: ']' :: rest => return (.elementHeader path, ← takeRestOfLine? rest)
    | _ => none
  | '[' :: rest => do
    let (path, rest) ← readPath? rest
    match rest with
    | ']' :: rest => return (.tableHeader path, ← takeRestOfLine? rest)
    | _ => none
  | text => do
    let ((path, value), rest) ← readAssignment? (readValue? depthBound) text
    return (.assignment path value, ← takeRestOfLine? rest)

/-- Reads the statements of a document. Every statement takes a character at
least, so `fuel` is the length of the text. -/
def readStatements? : Nat → List Char → Option (List Statement)
  | 0, _ => none
  | fuel + 1, text =>
    match skipBlankLines false text with
    | [] => some []
    | text => do
      let (statement, rest) ← readStatement? text
      return statement :: (← readStatements? fuel rest)

/-- A text without the byte order mark it may begin with. -/
def skipByteOrderMark : List Char → List Char
  | '\uFEFF' :: rest => rest
  | text => text

/-- The statements of a document. -/
def statements? (document : String) : Option (List Statement) :=
  let text := skipByteOrderMark document.toList
  readStatements? (text.length + 1) text

/-! ## Tables from statements -/

/-- The header that the current table belongs to. -/
inductive Header
  /-- There was none yet: the table is the document itself. -/
  | root
  | table (path : KeyPath)
  | element (path : KeyPath)

/-- A document under construction. -/
structure Draft where
  /-- What the earlier headers made of it. -/
  root : Table
  /-- The table of the last header. -/
  current : Table
  header : Header

/-- Before the first statement. -/
def Draft.start : Draft := ⟨.empty, .empty, .root⟩

/-- The document with the current table at its place. -/
def Draft.close? (draft : Draft) : Option Table :=
  match draft.header with
  | .root => some draft.current
  | .table path =>
    draft.root.modifyAt? false (fun parent => some (parent.push path.key (.table draft.current)))
      path.parents
  | .element path =>
    draft.root.modifyAt? false
      (fun parent =>
        match parent.find? path.key with
        | none => some (parent.push path.key (.elements draft.current []))
        | some (.elements first others) =>
          some (parent.replace path.key (.elements first (others ++ [draft.current])))
        | some _ => none)
      path.parents

/-- The table that a header opens, and its parent without it: a new one, or one
that was only a step of headers so far. -/
def Table.open? (parent : Table) (key : String) : Option (Table × Table) :=
  match parent.find? key with
  | none => some (.empty, parent)
  | some (.table table) =>
    if table.implicit && !table.dotted then some (table.opened, parent.erase key) else none
  | some _ => none

/-- What is at the end of a path; the tables that are missing on the way count
as empty ones. -/
def Table.follow? : List String → Table → Option Table
  | [], table => some table
  | key :: path, table =>
    match table.find? key with
    | none => follow? path (step false)
    | some (.value _) => none
    | some (.table inner) => follow? path inner
    | some (.elements first others) => follow? path (others.getLast?.getD first)

/-- What one statement does to a document. -/
def Draft.add? (draft : Draft) : Statement → Option Draft
  | .assignment path value => do
    let current ← draft.current.assign? path value
    return { draft with current }
  | .elementHeader path => do
    let root ← draft.close?
    return ⟨root, .empty, .element path⟩
  | .tableHeader path => do
    let root ← draft.close?
    let parent ← root.follow? path.parents
    let (current, _) ← parent.open? path.key
    let root ← root.modifyAt? false (fun parent => (parent.open? path.key).map Prod.snd)
      path.parents
    return ⟨root, current, .table path⟩

/-- The entries of the document that statements make, in their order. -/
def entriesOf? (statements : List Statement) : Option Entries := do
  let draft ← statements.foldlM Draft.add? Draft.start
  let root ← draft.close?
  return entryValues root.entries

/-- The entries of a document, in its own order, if it is well formed. -/
def parse? (document : String) : Option Entries := do
  let statements ← statements? document
  entriesOf? statements

end MailMerge.Toml
