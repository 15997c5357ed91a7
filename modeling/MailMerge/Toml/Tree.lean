import MailMerge.Toml.Key
import MailMerge.Toml.Value

/-!
# Tables under construction

The lines of a document build its tables piece by piece, and TOML's rules about
defining a table twice depend on how a table came to be: by a header of its
own, only as a step of a header's path, or as a step of a dotted key. Two flags
keep that apart. A table that is *implicit* was only a step so far; a *dotted*
one was a step of a dotted key. Only implicit tables can be extended by dotted
keys, only implicit ones that are not dotted can still get a header, and keys
can be put directly only into the table of the current header or, by dotted
keys, into dotted tables.
-/

namespace MailMerge.Toml

mutual

/-- A table under construction, with its entries in the order of the
document. -/
inductive Table
  | mk (implicit dotted : Bool) (entries : List (String × Node))

/-- What a key leads to. -/
inductive Node
  /-- A value that is complete. -/
  | value (value : Value)
  /-- A table that more lines may extend. -/
  | table (table : Table)
  /-- The tables of a list, of which the last one may be extended. -/
  | elements (first : Table) (others : List Table)

end

namespace Table

def implicit : Table → Bool
  | mk implicit _ _ => implicit

def dotted : Table → Bool
  | mk _ dotted _ => dotted

def entries : Table → List (String × Node)
  | mk _ _ entries => entries

/-- A table with a header of its own, and no entries yet. -/
def empty : Table := mk false false []

/-- A table that is a step of a path, and so far nothing else. -/
def step (dotted : Bool) : Table := mk true dotted []

/-- The table as its own header opens it. -/
def opened (table : Table) : Table := mk false false table.entries

def find? (table : Table) (key : String) : Option Node :=
  table.entries.lookup key

/-- The table with an entry at its end. -/
def push (table : Table) (key : String) (node : Node) : Table :=
  mk table.implicit table.dotted (table.entries ++ [(key, node)])

def replace (table : Table) (key : String) (node : Node) : Table :=
  mk table.implicit table.dotted
    (table.entries.map fun entry => if entry.1 == key then (key, node) else entry)

def erase (table : Table) (key : String) : Table :=
  mk table.implicit table.dotted (table.entries.filter fun entry => entry.1 != key)

/-- Changes the table at the end of a path, and makes the tables on the way
that are not there. -/
def modifyAt? (dotted : Bool) (change : Table → Option Table) : List String → Table → Option Table
  | [], table => change table
  | key :: path, table =>
    match table.find? key with
    | none => do
      let inner ← modifyAt? dotted change path (step dotted)
      return table.push key (.table inner)
    | some (.value _) => none
    | some (.table inner) =>
      if dotted && !inner.implicit then none
      else do
        let inner ← modifyAt? dotted change path inner
        return table.replace key (.table inner)
    | some (.elements first others) =>
      match others.getLast? with
      | none => do
        let first ← modifyAt? dotted change path first
        return table.replace key (.elements first [])
      | some last => do
        let last ← modifyAt? dotted change path last
        return table.replace key (.elements first (others.dropLast ++ [last]))

/-- Gives a value to a key, through dotted keys if the path has parents. -/
def assign? (table : Table) (path : KeyPath) (value : Value) : Option Table :=
  table.modifyAt? true
    (fun table =>
      if table.dotted == path.parents.isEmpty then none
      else if (table.find? path.key).isSome then none
      else some (table.push path.key (.value value)))
    path.parents

end Table

mutual

def Table.value : Table → Value
  | .mk _ _ entries => .table (entryValues entries)

/-- What a key of a finished table leads to. -/
def Node.finished : Node → Value
  | .value value => value
  | .table table => table.value
  | .elements first others => .array (first.value :: tableValues others)

def tableValues : List Table → List Value
  | [] => []
  | table :: rest => table.value :: tableValues rest

def entryValues : List (String × Node) → List (String × Value)
  | [] => []
  | (key, node) :: rest => (key, node.finished) :: entryValues rest

end

/-- The table that assignments between braces make. -/
def tableOfAssignments? (assignments : List (KeyPath × Value)) : Option Value :=
  (assignments.foldlM (fun (table : Table) entry => table.assign? entry.1 entry.2) .empty).map
    Table.value

end MailMerge.Toml
