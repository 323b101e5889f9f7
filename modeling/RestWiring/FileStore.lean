import RestWiring.SortedMap
import RestWiring.Text

/-!
# Files

A `FileStore` is a folder with everything below it. Paths are texts with slashes; a path that names
nothing, or the wrong kind of thing, gives a `FileFault`, whose message is the system's.
-/
namespace RestWiring

namespace FilePath

/-- The parts between slashes; empty parts and single dots stay in the list. -/
def parts (path : String) : List String := (Text.splitOn '/' path.toList).map String.ofList

/-- Appends a relative path, with one slash between the two unless the first is empty or ends in one. -/
def join (folder name : String) : String :=
  if name.startsWith "/" then name
  else if folder.isEmpty || folder.endsWith "/" then folder ++ name
  else folder ++ "/" ++ name

/-- The last part that names something; `..` names nothing. -/
def fileName? (path : String) : Option String :=
  match ((parts path).filter fun p => p != "" && p != ".").getLast? with
  | some ".." => none
  | name? => name?

/-- What follows the last dot of the file name, unless the name begins with that dot. -/
def extension? (path : String) : Option String := do
  let name ← fileName? path
  let backwards := name.toList.reverse
  let after := (backwards.takeWhile (· != '.')).reverse
  match backwards.dropWhile (· != '.') with
  | [] => none
  | [_] => none
  | _ => some (String.ofList after)

end FilePath

inductive FileFault where
  | missing
  | alreadyThere
  | notFolder
  | isFolder
  | nameTooLong
  | notText
  | badName
  deriving DecidableEq, Repr

def FileFault.message : FileFault → String
  | .missing => "No such file or directory (os error 2)"
  | .alreadyThere => "File exists (os error 17)"
  | .notFolder => "Not a directory (os error 20)"
  | .isFolder => "Is a directory (os error 21)"
  | .nameTooLong => "File name too long (os error 36)"
  | .notText => "stream did not contain valid UTF-8"
  | .badName => "file name contained an unexpected NUL byte"

inductive FileEntry where
  | text (content : String)
  /-- A file whose bytes are no text. -/
  | binary
  | folder
  deriving DecidableEq, Repr

/-- What bytes are as the content of a file. -/
def FileEntry.ofBytes (bytes : ByteArray) : FileEntry :=
  match String.fromUTF8? bytes with
  | some content => .text content
  | none => .binary

/-- Entries by the names on the way to them, and the folder that relative paths start from. -/
structure FileStore where
  entries : SortedMap (List String) FileEntry := ∅
  here : List String := []
  deriving DecidableEq

namespace FileStore

def nameLimit : Nat := 255

def pathLimit : Nat := 4096

/-- The folder that a path starts from. -/
def origin (s : FileStore) (path : String) : List String := if path.startsWith "/" then [] else s.here

/-- Follows the parts of a path from a folder to an entry. -/
def follow (s : FileStore) (here : List String) : List String → Except FileFault (List String)
  | [] => .ok here
  | part :: rest =>
    if part = "" ∨ part = "." then s.follow here rest
    else if part = ".." then s.follow here.dropLast rest
    else if nameLimit < part.utf8ByteSize then .error .nameTooLong
    else
      match s.entries.find? (here ++ [part]) with
      | none => .error .missing
      | some .folder => s.follow (here ++ [part]) rest
      | some _ => if rest.isEmpty then .ok (here ++ [part]) else .error .notFolder

def checkPath (path : String) : Except FileFault Unit :=
  if path.toList.contains (Char.ofNat 0) then .error .badName
  else if pathLimit ≤ path.utf8ByteSize then .error .nameTooLong
  else if path.isEmpty then .error .missing
  else .ok ()

/-- Reads a file as text. -/
def read (s : FileStore) (path : String) : Except FileFault String := do
  checkPath path
  let location ← s.follow (s.origin path) (FilePath.parts path)
  match s.entries.find? location with
  | some (.text content) => .ok content
  | some .binary => .error .notText
  | _ => .error .isFolder

/-- Follows the parts of a path and makes the folders that are missing. -/
def makeFolders (s : FileStore) (here : List String) : List String →
    Except FileFault (FileStore × List String)
  | [] => .ok (s, here)
  | part :: rest =>
    if part = "" ∨ part = "." then s.makeFolders here rest
    else if part = ".." then s.makeFolders here.dropLast rest
    else if nameLimit < part.utf8ByteSize then .error .nameTooLong
    else
      match s.entries.find? (here ++ [part]) with
      | none =>
        makeFolders { s with entries := s.entries.insert (here ++ [part]) .folder } (here ++ [part]) rest
      | some .folder => s.makeFolders (here ++ [part]) rest
      | some _ => .error (if rest.isEmpty then .alreadyThere else .notFolder)

/-- Puts an entry at a path, in place of a file that is there, and makes the folders on the way. -/
def put (s : FileStore) (path : String) (entry : FileEntry) : Except FileFault FileStore := do
  checkPath path
  let parts := FilePath.parts path
  let (s, here) ← s.makeFolders (s.origin path) parts.dropLast
  let name := parts.getLast?.getD ""
  if nameLimit < name.utf8ByteSize then .error .nameTooLong
  else
    match s.entries.find? (here ++ [name]) with
    | some .folder => if entry = .folder then .ok s else .error .isFolder
    | _ => .ok { s with entries := s.entries.insert (here ++ [name]) entry }

/-- Writes a text file and makes the folders on the way. -/
def write (s : FileStore) (path content : String) : Except FileFault FileStore :=
  s.put path (.text content)

/-- The paths of all files, by the names on the way to them. -/
def files (s : FileStore) : List String :=
  (s.entries.entries.filter (·.2 ≠ .folder)).map fun e => "/".intercalate e.1

end FileStore

end RestWiring
