import DerivedQuery.Filter.Rendering
import DerivedQuery.Query.Specification
import DerivedQuery.Settings.Basic
import DerivedQuery.Store.Outcome
import DerivedQuery.Store.Stream

/-!
This module contains the execution of bound queries on a store. Every shape of result has its own
way through the collection; the query is noted when it has succeeded.
-/

namespace DerivedQuery
namespace Execution

def keepingNear (near : Option NearQuery) (fields : List String) : List String :=
  match near with
  | none => fields
  | some near => if near.path ∈ fields then fields else fields ++ [near.path]

/--
What the collection is asked for: at most as many documents as the settings allow.
-/
def options (settings : Settings) (spec : Specification) : FindOptions :=
  let asked := spec.findOptions
  { asked with
    limit := some (asked.limit.elim settings.maxResultLimit (min settings.maxResultLimit))
    projection := asked.projection.map (keepingNear spec.near) }

def collect (read : EntityReader γ) (filter : Filter) (options : FindOptions) :
    StoreAction QueryError (List γ) := do
  let cursor ← Store.reporting (Store.find filter options)
  let s ← get
  ResultStream.readAll read ⟨s.collection.name, some cursor⟩

/--
The number of all matches, as far as the subject of the name allows it.
-/
def total (spec : Specification) : StoreAction QueryError Nat := do
  let n ← Store.reporting (Store.count spec.filter)
  return spec.limit.elim n (min n)

def readRanked (read : EntityReader γ) (near : NearQuery) : EntityReader (Ranked γ) := fun d =>
  (read d).map fun content =>
    ⟨content, d.distanceFrom near.path near.center (Collection.metricOf near.maxDistance)⟩

/--
Read the entities of a cursor with their distances. The cursor is given back on every way out.
-/
def readRanking (read : EntityReader γ) (near : NearQuery) (cursor : Cursor) :
    StoreAction QueryError (List (Ranked γ)) :=
  match _ : cursor.next with
  | (.ok none, cursor) => do
    let _ ← Store.close cursor
    return []
  | (.error cause, cursor) => do
    let _ ← Store.close cursor
    Store.fail cause
  | (.ok (some d), rest) =>
    match readRanked read near d with
    | some result => do return result :: (← readRanking read near rest)
    | none => do
      let _ ← Store.close rest
      throw .notAnEntity
termination_by cursor.left
decreasing_by
  apply Cursor.left_lt_of_next
  assumption

def ranked (read : EntityReader γ) (spec : Specification) (options : FindOptions) :
    StoreAction QueryError (Ranking γ) :=
  match spec.near with
  | none => throw (.ranking spec.method .noNear)
  | some near => do
    let cursor ← Store.reporting (Store.find spec.filter options)
    return .ofList (← readRanking read near cursor)

def pageInfo (spec : Specification) (total : Nat) : PageInfo :=
  match spec.page with
  | none => ⟨total, 0, 0⟩
  | some p => ⟨total, p.page, spec.pageSize p⟩

def one (read : EntityReader γ) (spec : Specification) (options : FindOptions) :
    StoreAction QueryError (Option γ) := do
  match ← Store.reporting (Store.findOne spec.filter options) with
  | none => return none
  | some d =>
    match read d with
    | some entity => return some entity
    | none => throw .notAnEntity

def existsAny (spec : Specification) : StoreAction QueryError Bool := do
  let found ← Store.reporting
    (Store.findOne spec.filter { projection := some ["_id"], limit := some 1 })
  return found.isSome

def outcome (read : EntityReader γ) (spec : Specification) (options : FindOptions) :
    StoreAction QueryError (Outcome γ) :=
  match spec.shape with
  | .list => do return .list (← collect read spec.filter options)
  | .one => do return .one (← one read spec options)
  | .count => do return .count (← total spec)
  | .exists_ => do return .exists_ (← existsAny spec)
  | .page => do
    let content ← collect read spec.filter options
    return .page { pageInfo spec (← total spec) with content }
  | .geoResults => do return .geoResults (← ranked read spec options)
  | .geoPage => do
    let results ← ranked read spec options
    return .geoPage { pageInfo spec (← total spec) with results }

def operationName : ResultShape → String
  | .list | .page => "find"
  | .one | .exists_ => "find_one"
  | .count => "count"
  | .geoResults | .geoPage => "geo_near"

/--
Note down a query that has succeeded. Queries take no time that could be measured, so that only the
threshold zero makes one slow.
-/
def finish (settings : Settings) (spec : Specification) (options : FindOptions)
    (resultCount : Option Nat) (s : Store) : Store :=
  let collection := s.collection.name
  let record : QueryRecord := {
    collection := collection
    method := spec.method
    filterHash := spec.filter.fingerprint
    limit := options.limit
    skip := options.skip
    resultCount := resultCount
    slow := settings.slowQueryMs == 0 }
  { s with
    journal := (s.journal.addQuery record).addStep
      (.query (operationName spec.shape) spec.method collection resultCount) }

def run (settings : Settings) (read : EntityReader γ) (spec : Specification) :
    StoreAction QueryError (Outcome γ) := do
  let options := options settings spec
  let outcome ← outcome read spec options
  modify (finish settings spec options (some outcome.size))
  return outcome

def stream (settings : Settings) (spec : Specification) : StoreAction QueryError ResultStream := do
  let options := options settings spec
  let cursor ← Store.reporting (Store.find spec.filter options)
  modify (finish settings spec options none)
  let s ← get
  return ⟨s.collection.name, some cursor⟩

end Execution
end DerivedQuery
