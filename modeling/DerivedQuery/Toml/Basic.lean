import DerivedQuery.Json.Basic

/-!
This module contains trees of TOML, and how the lines of a text build them up: keys add values to
tables, and headers open tables. A table is open to some lines only, which depends on how it came to
be.
-/

namespace DerivedQuery

/--
How a table came to be: by a header of its own, by the header of a table inside it, by a dotted key,
or as a value in braces.
-/
inductive TableOrigin where
  | header
  | implied
  | dotted
  | braces
deriving DecidableEq, Repr

inductive Toml where
  | string (s : String)
  | integer (n : Int)
  | float (x : Float)
  | bool (b : Bool)
  | dateTime (text : String)
  | array (items : List Toml)
  | table (origin : TableOrigin) (entries : List (String × Toml))
  /-- Tables under one header, the newest first. -/
  | tables (elements : List (List (String × Toml)))
deriving Inhabited

namespace Toml

abbrev Entries := List (String × Toml)

namespace Entries

def find? (name : String) : Entries → Option Toml
  | [] => none
  | (other, value) :: entries => if other = name then some value else find? name entries

def set (name : String) (value : Toml) : Entries → Entries
  | [] => [(name, value)]
  | (other, old) :: entries =>
    if other = name then (name, value) :: entries else (other, old) :: set name value entries

/--
Change the table that a path leads to, given how that table came to be. Tables on the way are made
with the given origin if they are missing; the way goes through a table that is open to `origin`,
and through the newest of several tables.
-/
def changeAt (origin : TableOrigin) (change : TableOrigin → Entries → Option Entries) :
    List String → TableOrigin → Entries → Option Entries
  | [], here, entries => change here entries
  | name :: path, _, entries =>
    match find? name entries with
    | none => do
      return set name (.table origin (← changeAt origin change path origin [])) entries
    | some (.table there inner) =>
      if isOpen there then do
        return set name (.table there (← changeAt origin change path there inner)) entries
      else none
    | some (.tables (inner :: earlier)) => do
      return set name (.tables ((← changeAt origin change path .header inner) :: earlier)) entries
    | some _ => none
where
  /-- A dotted key does not enter a table that has a header of its own. -/
  isOpen : TableOrigin → Bool
    | .braces => false
    | .header => origin != .dotted
    | .implied | .dotted => true

/--
Add a value under a dotted key. The table that takes it is made by dotted keys alone, unless the key
is a single name.
-/
def assign (path : List String) (name : String) (value : Toml) (here : TableOrigin)
    (entries : Entries) : Option Entries :=
  changeAt .dotted
    (fun there inner =>
      if (path.isEmpty || there == .dotted) && (find? name inner).isNone then
        some (set name value inner)
      else none)
    path here entries

def openTable (path : List String) (name : String) (entries : Entries) : Option Entries :=
  changeAt .implied
    (fun _ inner =>
      match find? name inner with
      | none => some (set name (.table .header []) inner)
      | some (.table .implied old) => some (set name (.table .header old) inner)
      | some _ => none)
    path .header entries

def openElement (path : List String) (name : String) (entries : Entries) : Option Entries :=
  changeAt .implied
    (fun _ inner =>
      match find? name inner with
      | none => some (set name (.tables [[]]) inner)
      | some (.tables elements) => some (set name (.tables ([] :: elements)) inner)
      | some _ => none)
    path .header entries

end Entries

mutual

/--
The tree in the form of JSON. A point in time, which is no text, is a record with a name of its own.
-/
def toJson : Toml → Json
  | .string s => .string s
  | .integer n => .int n
  | .float x => .float x
  | .bool b => .bool b
  | .dateTime text => .object [("date-time", .string text)]
  | .array items => .array (itemsToJson items)
  | .table _ entries => .ofFields (entriesToJson entries)
  | .tables elements => .array (elementsToJson elements).reverse

def itemsToJson : List Toml → List Json
  | [] => []
  | item :: items => toJson item :: itemsToJson items

def entriesToJson : List (String × Toml) → List (String × Json)
  | [] => []
  | (name, value) :: entries => (name, toJson value) :: entriesToJson entries

def elementsToJson : List (List (String × Toml)) → List Json
  | [] => []
  | entries :: elements => .ofFields (entriesToJson entries) :: elementsToJson elements

end

end Toml
end DerivedQuery
