import DerivedQuery.Text.Split

/-!
This module contains what a program asks of a file system, and trees of files in memory that can
answer it.
-/

namespace DerivedQuery

/--
A file system, with its answers in `m`. Faults are texts.
-/
structure FileSystem (m : Type → Type) where
  readText : (path : String) → m (Except String String)
  /-- Make a directory with those above it, and files in it as far as they are missing. -/
  createFiles : (directory : String) → (names : List String) → m (Except String Unit)

inductive FileFault where
  | missing
  | exists_
  | notDirectory
  | isDirectory
deriving DecidableEq, Repr

def FileFault.text : FileFault → String
  | .missing => "No such file or directory (os error 2)"
  | .exists_ => "File exists (os error 17)"
  | .notDirectory => "Not a directory (os error 20)"
  | .isDirectory => "Is a directory (os error 21)"

/--
The names on a path. A path that starts with a slash does not start in the tree.
-/
structure FilePath where
  isAbsolute : Bool
  names : List String
deriving DecidableEq, Repr

namespace FilePath

def ofText (path : String) : FilePath where
  isAbsolute := path.toList.head? == some '/'
  names := Text.split '/' path

def fileName? (p : FilePath) : Option String :=
  match (p.names.filter fun name => name != "" && name != ".").getLast? with
  | some ".." => none
  | name => name

/--
What follows the last point of the last name. A point in front does not count.
-/
def extension? (p : FilePath) : Option String := do
  let name ← p.fileName?
  let reversed := name.toList.reverse
  let ending := reversed.takeWhile (· != '.')
  if ending.length + 1 < reversed.length then some (String.ofList ending.reverse) else none

end FilePath

/--
Files by the names on the way to them, with their texts, and directories. Directories above a file
are there as well.
-/
structure FileTree where
  files : List (List String × String) := []
  directories : List (List String) := []

namespace FileTree

def file? (t : FileTree) (place : List String) : Option String :=
  t.files.lookup place

def isDirectory (t : FileTree) (place : List String) : Bool :=
  place.isEmpty || t.directories.contains place ||
    t.files.any fun (other, _) => place.isPrefixOf other && place.length < other.length

def locate (t : FileTree) : (here : List String) → List String →
    Except FileFault (Option (List String))
  | here, [] => .ok (some here)
  | here, name :: names =>
    if (t.file? here).isSome then .error .notDirectory
    else if !t.isDirectory here then .error .missing
    else if name = "" ∨ name = "." then locate t here names
    else if name = ".." then if here.isEmpty then .ok none else locate t here.dropLast names
    else locate t (here ++ [name]) names

/--
What is outside of the tree is missing.
-/
def readText (t : FileTree) (path : String) : Except FileFault String := do
  let path := FilePath.ofText path
  let place ← if path.isAbsolute then pure none else t.locate [] path.names
  match place with
  | none => throw .missing
  | some place =>
    match t.file? place with
    | some text => return text
    | none => throw (if t.isDirectory place then .isDirectory else .missing)

/--
Make the directories on a path, from a place on. What would be made outside of the tree is left out.
-/
def createDirectories (t : FileTree) : (here : List String) → List String →
    Except FileFault (Option (List String) × FileTree)
  | here, [] => .ok (some here, t)
  | here, name :: names =>
    if name = "" ∨ name = "." then createDirectories t here names
    else if name = ".." then
      if here.isEmpty then .ok (none, t) else createDirectories t here.dropLast names
    else
      let next := here ++ [name]
      if (t.file? next).isSome then .error (if names.isEmpty then .exists_ else .notDirectory)
      else if t.isDirectory next then createDirectories t next names
      else createDirectories { t with directories := t.directories ++ [next] } next names

/--
Make files without text as far as they are missing, up to the first that cannot be made.
-/
def touchAll (t : FileTree) (directory : List String) : List String → Option FileFault × FileTree
  | [] => (none, t)
  | name :: names =>
    let place := directory ++ [name]
    if t.isDirectory place then (some .isDirectory, t)
    else if (t.file? place).isSome then touchAll t directory names
    else touchAll { t with files := t.files ++ [(place, "")] } directory names

def createFiles (t : FileTree) (directory : String) (names : List String) :
    Except FileFault Unit × FileTree :=
  let path := FilePath.ofText directory
  if path.isAbsolute then (.ok (), t)
  else
    match t.createDirectories [] path.names with
    | .error fault => (.error fault, t)
    | .ok (none, t) => (.ok (), t)
    | .ok (some place, t) =>
      match t.touchAll place names with
      | (some fault, t) => (.error fault, t)
      | (none, t) => (.ok (), t)

def system : FileSystem (StateM FileTree) where
  readText path := fun t => ((t.readText path).mapError FileFault.text, t)
  createFiles directory names := fun t =>
    let (answer, t) := t.createFiles directory names
    (answer.mapError FileFault.text, t)

end FileTree
end DerivedQuery
