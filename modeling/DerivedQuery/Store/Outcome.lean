import DerivedQuery.Decimal.Binary64
import DerivedQuery.Method.Signature
import DerivedQuery.Order.InsertionSort
import DerivedQuery.Query.Options

/-!
This module contains what a query answers: entities, numbers, pages, and entities with their
distances.
-/

namespace DerivedQuery

/-! ### Pages -/

/--
The place of a page among all pages: the number of results on all of them, the number of the page,
counted from zero, and the size of a page.
-/
structure PageInfo where
  total : Nat
  page : Nat
  size : Nat
deriving DecidableEq, Repr

namespace PageInfo

/--
The number of pages. A page of size zero counts as one of size one.
-/
def totalPages (p : PageInfo) : Nat :=
  let size := max p.size 1
  (p.total + (size - 1)) / size

def hasNext (p : PageInfo) : Bool :=
  min (p.page + 1) maxCount < p.totalPages

def hasPrevious (p : PageInfo) : Bool :=
  0 < p.page

end PageInfo

structure Page (γ : Type) extends PageInfo where
  content : List γ

/-! ### Distances -/

structure Ranked (γ : Type) where
  content : γ
  distance : Float

structure Ranking (γ : Type) where
  results : List (Ranked γ)

namespace Ranking

def ofList (results : List (Ranked γ)) : Ranking γ :=
  ⟨InsertionSort.sort (fun a b => Float64.totalCompare a.distance b.distance == .lt) results⟩

/--
The mean of the distances, which is zero without results.
-/
def average (r : Ranking γ) : Float :=
  if r.results.isEmpty then 0.0
  else
    let total := r.results.foldl (fun sum result => sum + result.distance) 0.0
    total / Float.ofNat r.results.length

end Ranking

structure GeoPage (γ : Type) extends PageInfo where
  results : Ranking γ

/-! ### Outcomes -/

inductive Outcome (γ : Type) where
  | list (entities : List γ)
  | one (entity : Option γ)
  | count (n : Nat)
  | exists_ (found : Bool)
  | page (p : Page γ)
  | geoResults (r : Ranking γ)
  | geoPage (p : GeoPage γ)

namespace Outcome

def shape : Outcome γ → ResultShape
  | .list _ => .list
  | .one _ => .one
  | .count _ => .count
  | .exists_ _ => .exists_
  | .page _ => .page
  | .geoResults _ => .geoResults
  | .geoPage _ => .geoPage

def size : Outcome γ → Nat
  | .list entities => entities.length
  | .one entity => entity.isSome.toNat
  | .count n => n
  | .exists_ found => found.toNat
  | .page p => p.content.length
  | .geoResults r => r.results.length
  | .geoPage p => p.results.results.length

end Outcome
end DerivedQuery
