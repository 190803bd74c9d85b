import DerivedQuery.Geo.Point
import DerivedQuery.Text.Split

/-!
This module contains what a document holds at a path. A path goes into embedded documents, and into
every document of an array.
-/

namespace DerivedQuery
namespace Document

def maxPathBytes : Nat := 1024

def maxPathNames : Nat := 32

def walk : List String → Document → List Value
  | [], _ => []
  | [name], d => (d.get? name).toList
  | name :: next :: names, d =>
    match d.get? name with
    | some (.document inner) => walk (next :: names) inner
    | some (.array items) =>
      items.flatMap fun item =>
        match item with
        | .document inner => walk (next :: names) inner
        | _ => []
    | _ => []

def lookup (d : Document) (path : String) : List Value :=
  if path.isEmpty || maxPathBytes < path.utf8ByteSize then []
  else
    let names := Text.split '.' path
    if maxPathNames < names.length then [] else walk names d

def elements : Value → List Value
  | .array items => items
  | value => [value]

/--
The values at a path, with the elements in the place of arrays.
-/
def candidates (d : Document) (path : String) : List Value :=
  (d.lookup path).flatMap elements

def pointsOf (value : Value) : List Point :=
  match Point.ofValue? value, value with
  | some p, _ => [p]
  | none, .array items => items.filterMap Point.ofValue?
  | none, _ => []

def points (d : Document) (path : String) : List Point :=
  (d.lookup path).flatMap pointsOf

/--
Set a field at a path of names. What is in the way and no document is replaced by one.
-/
def insertAt : List String → Value → Document → Document
  | [], _, d => d
  | [name], value, d => d.insert name value
  | name :: names, value, d =>
    let inner :=
      match d.get? name with
      | some (.document inner) => inner
      | _ => []
    d.insert name (.document (insertAt names value inner))

end Document
end DerivedQuery
