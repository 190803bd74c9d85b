import DerivedQuery.Json.Basic

/-!
This module contains what an answer is ordered and cut by: sort keys, page requests and the options
of a search.
-/

namespace DerivedQuery

inductive Direction where
  | asc
  | desc
deriving DecidableEq, Repr

def Direction.name : Direction → String
  | .asc => "Asc"
  | .desc => "Desc"

structure SortKey where
  field : String
  direction : Direction
deriving DecidableEq, Repr

abbrev SortKeys := List SortKey

def SortKey.toJson (key : SortKey) : Json :=
  .object [("field", .string key.field), ("order", .string key.direction.name)]

namespace SortKeys

def maxKeys : Nat := 8

def toJson (sort : SortKeys) : Json :=
  .array (sort.map SortKey.toJson)

end SortKeys

def maxCount : Nat := Nat.pow 2 64 - 1

/--
A request for the page of the given number, counted from zero, of pages of one size.
-/
structure PageRequest where
  page : Nat
  size : Nat
  sort : Option SortKeys := none
  size_pos : 0 < size
deriving DecidableEq, Repr

namespace PageRequest

def of? (page size : Nat) : Option PageRequest :=
  if h : 0 < size then some ⟨page, size, none, h⟩ else none

def withSort (p : PageRequest) (sort : SortKeys) : PageRequest :=
  { p with sort := some sort }

/--
The number of elements before the page, as far as it can be counted.
-/
def offset (p : PageRequest) : Nat :=
  min (p.page * p.size) maxCount

end PageRequest

def maxProjectionFields : Nat := 64

structure FindOptions where
  projection : Option (List String) := none
  sort : Option SortKeys := none
  limit : Option Nat := none
  skip : Option Nat := none
deriving DecidableEq, Repr

def FindOptions.toJson (options : FindOptions) : Json :=
  .object [("limit", .ofOption .ofNat options.limit),
    ("projection", .ofOption .strings options.projection),
    ("skip", .ofOption .ofNat options.skip),
    ("sort", .ofOption SortKeys.toJson options.sort)]

end DerivedQuery
