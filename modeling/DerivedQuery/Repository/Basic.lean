import DerivedQuery.Repository.Cache
import DerivedQuery.Store.Execution

/-!
This module contains repositories: the methods that were registered for the entities of a
collection, the choice among overloads, and the calls of a method by its name.
-/

namespace DerivedQuery

structure Overloads where
  name : String
  queries : List CompiledQuery

/--
A repository has a cache of its own, or uses the one that is shared by all repositories. The methods
are in the order of their names.
-/
structure Repository (γ : Type) where
  store : Store
  schema : EntitySchema
  read : EntityReader γ
  settings : Settings := {}
  ownCache : Option Cache := none
  sharedCache : Cache := .ofCapacity Cache.defaultCapacity
  methods : List Overloads := []

/--
Work on a repository that can fail. What was done before the failure stays done.
-/
abbrev RepositoryAction (γ ε α : Type) := EStateM ε (Repository γ) α

namespace Repository

/-! ### Settings -/

def withCache (r : Repository γ) (cache : Cache) : Repository γ :=
  { r with ownCache := some cache }

/--
Use settings. A capacity other than the default one gives the repository a cache of its own, if it
has none yet.
-/
def withSettings (r : Repository γ) (settings : Settings) : Repository γ :=
  let ownCache :=
    if r.ownCache.isNone ∧ settings.compiledCacheCapacity ≠ Cache.defaultCapacity then
      some (Cache.ofCapacity settings.compiledCacheCapacity)
    else r.ownCache
  { r with ownCache, settings }

def cache (r : Repository γ) : Cache :=
  r.ownCache.getD r.sharedCache

def setCache (r : Repository γ) (cache : Cache) : Repository γ :=
  match r.ownCache with
  | some _ => { r with ownCache := some cache }
  | none => { r with sharedCache := cache }

def clearCache (r : Repository γ) : Repository γ :=
  r.setCache r.cache.clear

def modifyJournal (r : Repository γ) (f : Journal → Journal) : Repository γ :=
  { r with store.journal := f r.store.journal }

def onStore (action : StoreAction ε α) : RepositoryAction γ ε α := fun r =>
  match action r.store with
  | .ok a store => .ok a { r with store }
  | .error e store => .error e { r with store }

/-! ### Registration -/

def compileStep (sig : Signature) : WorkStep :=
  .compile sig.entity sig.name

def compileAnew (sig : Signature) : RepositoryAction γ QueryError CompiledQuery := fun r =>
  match CompiledQuery.compile sig r.schema with
  | .error e => .error e r
  | .ok query => .ok query (r.modifyJournal fun j => j.addStep (compileStep sig))

def compileCached (sig : Signature) : RepositoryAction γ QueryError CompiledQuery := fun r =>
  match r.cache.get sig r.schema with
  | (.error e, cache) => .error e (r.setCache cache)
  | (.ok answer, cache) =>
    let record (j : Journal) : Journal :=
      if answer.isHit then j.countCacheHit else (j.addStep (compileStep sig)).countCompiled
    .ok answer.query ((r.setCache cache).modifyJournal record)

def compile (sig : Signature) : RepositoryAction γ QueryError CompiledQuery := do
  if (← get).settings.cacheCompiledQueries then compileCached sig else compileAnew sig

/--
Put a query behind the overloads of its name, and take away an earlier one of the same signature.
-/
def addOverload (name : String) (query : CompiledQuery) : List Overloads → List Overloads
  | [] => [⟨name, [query]⟩]
  | o :: os =>
    if name < o.name then ⟨name, [query]⟩ :: o :: os
    else if name = o.name then
      ⟨name, o.queries.filter (fun other => other.signature != query.signature) ++ [query]⟩ :: os
    else o :: addOverload name query os

/--
A method without an entity belongs to the entity of the schema.
-/
def ownSignature (r : Repository γ) (sig : Signature) : Signature :=
  if sig.entity.isEmpty then sig.forEntity r.schema.name else sig

def register (sig : Signature) : RepositoryAction γ QueryError Unit := do
  let sig := (← get).ownSignature sig
  let query ← compile sig
  modify fun r => { r with methods := addOverload sig.name query r.methods }

def registerAll : List Signature → RepositoryAction γ QueryError Unit
  | [] => pure ()
  | sig :: sigs => do
    register sig
    registerAll sigs

def signatures (r : Repository γ) : List Signature :=
  r.methods.flatMap fun o => o.queries.map (·.signature)

/-! ### Binding -/

def overloads? (r : Repository γ) (name : String) : Option (List CompiledQuery) :=
  (r.methods.find? fun o => o.name == name).map (·.queries)

/--
The first overload that accepts the arguments. A single one is chosen in any case, so that binding
can say what is wrong.
-/
def resolve (r : Repository γ) (name : String) (args : List Argument) :
    Except QueryError CompiledQuery :=
  match r.overloads? name with
  | none => .error (.unknownMethod name)
  | some queries =>
    match queries.find? fun query => query.accepts args, queries with
    | some query, _ => .ok query
    | none, [query] => .ok query
    | none, _ => .error (.clauseMismatch name (.noOverload (args.map Argument.kindName)))

def specification (name : String) (args : List Argument) :
    RepositoryAction γ QueryError Specification := do
  let r ← get
  let query ← liftExcept (r.resolve name args)
  let query ← if r.settings.cacheCompiledQueries then pure query else compile query.signature
  liftExcept (query.bind args r.settings.maxInSet)
where
  liftExcept {α : Type} : Except QueryError α → RepositoryAction γ QueryError α
    | .ok a => pure a
    | .error e => throw e

/-! ### Calls -/

def run (spec : Specification) : RepositoryAction γ QueryError (Outcome γ) := do
  let r ← get
  onStore (Execution.run r.settings r.read spec)

def invoke (name : String) (args : List Argument) : RepositoryAction γ QueryError (Outcome γ) := do
  run (← specification name args)

def otherShape (name wanted : String) (shape : ResultShape) : QueryError :=
  .clauseMismatch name (.otherShape shape.name wanted)

def stream (name : String) (args : List Argument) :
    RepositoryAction γ QueryError ResultStream := do
  let spec ← specification name args
  if spec.shape ≠ .list then throw (otherShape name "a stream" spec.shape)
  onStore (Execution.stream (← get).settings spec)

def find (name : String) (args : List Argument) : RepositoryAction γ QueryError (List γ) := do
  match ← invoke name args with
  | .list entities => return entities
  | .one entity => return entity.toList
  | other => throw (otherShape name "a list" other.shape)

def findOne (name : String) (args : List Argument) : RepositoryAction γ QueryError (Option γ) := do
  match ← invoke name args with
  | .one entity => return entity
  | .list entities => return entities.head?
  | other => throw (otherShape name "one entity" other.shape)

def count (name : String) (args : List Argument) : RepositoryAction γ QueryError Nat := do
  match ← invoke name args with
  | .count n => return n
  | other => throw (otherShape name "a count" other.shape)

def exists_ (name : String) (args : List Argument) : RepositoryAction γ QueryError Bool := do
  match ← invoke name args with
  | .exists_ found => return found
  | other => throw (otherShape name "a boolean" other.shape)

def findPage (name : String) (args : List Argument) : RepositoryAction γ QueryError (Page γ) := do
  match ← invoke name args with
  | .page p => return p
  | other => throw (otherShape name "a page" other.shape)

def findGeo (name : String) (args : List Argument) : RepositoryAction γ QueryError (Ranking γ) := do
  match ← invoke name args with
  | .geoResults r => return r
  | other => throw (otherShape name "geo results" other.shape)

def findGeoPage (name : String) (args : List Argument) :
    RepositoryAction γ QueryError (GeoPage γ) := do
  match ← invoke name args with
  | .geoPage p => return p
  | other => throw (otherShape name "a geo page" other.shape)

/--
Every entity, in the order of the sort keys if there are any.
-/
def findAll (sort : Option SortKeys) : RepositoryAction γ QueryError (List γ) := do
  let schema := (← get).schema
  let sort ←
    match sort with
    | none => pure none
    | some keys =>
      match CompiledQuery.resolveSort schema "findAll" keys with
      | .ok keys => pure (some keys)
      | .error e => throw e
  match ← run (.unfiltered "findAll" .list sort) with
  | .list entities => return entities
  | other => throw (otherShape "findAll" "a list" other.shape)

def countAll : RepositoryAction γ QueryError Nat := do
  match ← run (.unfiltered "countAll" .count none) with
  | .count n => return n
  | other => throw (otherShape "countAll" "a count" other.shape)

def ensureIndexes (r : Repository γ) : List Index × Repository γ :=
  let indexes := r.schema.geoPaths.map fun path => (⟨path, .geo2d⟩ : Index)
  (indexes, { r with store.collection := indexes.foldl Collection.ensureIndex r.store.collection })

end Repository
end DerivedQuery
