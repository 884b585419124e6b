import ContentStore.IoError
import ContentStore.Text.Split

/-!
Contract: the files that a command reads and writes.

Owns:
- `Disk`, what a command asks of files, by their paths;
- `Directory`, a directory that holds files only, as such a disk.

In a directory, a path is walked from its first part to its last.  Empty parts
and single points stay where they are, files have nothing in them, and what
lies outside the directory does not exist.
-/

namespace ContentStore.CommandLine

/-- Files that are known by their paths. -/
class Disk (State : Type) where
  /-- What opening a file gives, and then what reading it to its end gives. -/
  read : String → State → Except IoKind (Except IoKind Bytes)
  /-- Create a file with a content, in place of the file that was there. -/
  create : String → Bytes → State → Except IoKind State

/-- A directory that holds files only. -/
structure Directory where
  files : List (String × Bytes)
deriving DecidableEq

namespace Directory

/-- Where a path leads. -/
inductive Place where
  | top
  | file (content : Bytes)
deriving DecidableEq

/-- Whether a part of a path stays where it is. -/
def stays (part : List Char) : Bool :=
  part.isEmpty || part == ['.']

def walk (directory : Directory) : Place → List (List Char) → Except IoKind Place
  | place, [] => .ok place
  | .file _, _ :: _ => .error .notADirectory
  | .top, part :: rest =>
    if stays part then directory.walk .top rest
    else
      match directory.files.lookup (String.ofList part) with
      | some content => directory.walk (.file content) rest
      | none => .error .notFound

def parts (path : String) : List (List Char) :=
  Text.fields (· == '/') path.toList

/-- Whether a path leads away from the directory. -/
def isOutside (path : String) : Bool :=
  path == "" || (path.startsWith "/" && path.toList.any (· != '/'))

def find (path : String) (directory : Directory) : Except IoKind Place :=
  if isOutside path then .error .notFound else directory.walk .top (parts path)

/-- Open a file and read it.  A directory can be opened, but not read. -/
def read (path : String) (directory : Directory) : Except IoKind (Except IoKind Bytes) :=
  (directory.find path).map fun place =>
    match place with
    | .top => .error .isADirectory
    | .file content => .ok content

def set (name : String) (content : Bytes) (directory : Directory) : Directory :=
  ⟨(name, content) :: directory.files.filter fun file => file.1 ≠ name⟩

/-- Create a file.  A path that ends in a slash is that of a directory. -/
def create (path : String) (content : Bytes) (directory : Directory) :
    Except IoKind Directory :=
  let given := parts path
  let kept := (given.reverse.dropWhile List.isEmpty).reverse
  if isOutside path then .error .notFound
  else
    match kept.getLast? with
    | none => .error .isADirectory
    | some last =>
      match directory.walk .top kept.dropLast with
      | .error kind => .error kind
      | .ok (.file _) => .error .notADirectory
      | .ok .top =>
        if stays last ∨ kept.length < given.length then .error .isADirectory
        else .ok (directory.set (String.ofList last) content)

instance : Disk Directory where
  read := read
  create := create

end Directory

end ContentStore.CommandLine
