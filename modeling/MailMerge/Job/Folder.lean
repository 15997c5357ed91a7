import MailMerge.Text.Span
import MailMerge.Text.Utf8

/-!
# Folders

Where jobs are kept: files by their paths below a folder. A path to read leads
through folders by names with slashes between them; `.` stays where it is and
`..` goes back up. A path that goes up from the folder itself or begins with a
slash is outside, where there are folders but no files.
-/

namespace MailMerge

/-- Why a file could not be read. -/
inductive ReadError
  | notFound
  | isDirectory
  | notDirectory
  | nameTooLong
  /-- No path holds the character zero. -/
  | notPath
  | notText
  deriving Repr, DecidableEq

def ReadError.message : ReadError → String
  | .notFound => "No such file or directory (os error 2)"
  | .isDirectory => "Is a directory (os error 21)"
  | .notDirectory => "Not a directory (os error 20)"
  | .nameTooLong => "File name too long (os error 36)"
  | .notPath => "file name contained an unexpected NUL byte"
  | .notText => "stream did not contain valid UTF-8"

def splitAtSlashes : List Char → List (List Char)
  | [] => [[]]
  | c :: rest =>
    if c = '/' then [] :: splitAtSlashes rest
    else
      match splitAtSlashes rest with
      | piece :: others => (c :: piece) :: others
      | [] => [[c]]

/-- Files by the names on the way to them. -/
structure Folder where
  files : List (List (List Char) × List UInt8)

/-- A folder with files at the given paths. -/
def Folder.ofFiles (files : List (String × List UInt8)) : Folder :=
  ⟨files.map fun file => (splitAtSlashes file.1.toList, file.2)⟩

/-- Whether there is a folder at the end of a way. -/
def Folder.hasFolder (folder : Folder) (way : List (List Char)) : Bool :=
  way.isEmpty || folder.files.any fun file => way.isPrefixOf file.1 && way != file.1

/-- Where a path has led so far. -/
inductive Folder.Place
  /-- To the end of a way from the folder. -/
  | inside (way : List (List Char))
  /-- Out of the folder, to where nothing has a name. -/
  | outside

/-- Names have no more bytes than this. -/
def nameBound : Nat := 255

/-- Paths have fewer bytes than this. -/
def pathBytesBound : Nat := 4096

/-- Whether there is a folder to look up names in. -/
def Folder.hasPlace (folder : Folder) : Place → Bool
  | .inside way => folder.hasFolder way
  | .outside => true

/-- Where a name leads from a folder. -/
def Folder.enter (folder : Folder) (name : List Char) : Place → Except ReadError Place
  | .inside way =>
    if folder.hasFolder (way ++ [name]) || (folder.files.lookup (way ++ [name])).isSome then
      .ok (.inside (way ++ [name]))
    else .error .notFound
  | .outside => .error .notFound

def Folder.Place.up : Place → Place
  | .inside [] => .outside
  | .inside way => .inside way.dropLast
  | .outside => .outside

def Folder.step (folder : Folder) (place : Place) (name : List Char) : Except ReadError Place :=
  if !folder.hasPlace place then .error .notDirectory
  else if name = [] ∨ name = ['.'] then .ok place
  else if name = ['.', '.'] then .ok place.up
  else if nameBound < byteLength name then .error .nameTooLong
  else folder.enter name place

def Folder.follow (folder : Folder) (path : List Char) : Except ReadError Place :=
  if path.contains '\x00' then .error .notPath
  else if pathBytesBound ≤ byteLength path then .error .nameTooLong
  else
    (splitAtSlashes path).foldlM folder.step
      (if path.head? = some '/' then .outside else .inside [])

def Folder.read (folder : Folder) (path : String) : Except ReadError String := do
  match ← folder.follow path.toList with
  | .outside => throw .isDirectory
  | .inside way =>
    match folder.files.lookup way with
    | none => throw .isDirectory
    | some bytes =>
      match utf8Text? bytes with
      | some text => return text
      | none => throw .notText

end MailMerge
