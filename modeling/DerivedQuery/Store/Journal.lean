import DerivedQuery.Json.Basic

/-!
This module contains what is noted down of the work: counters, a record of every query, and the
steps that a developer follows.
-/

namespace DerivedQuery

structure Metrics where
  compiled : Nat := 0
  cacheHits : Nat := 0
  queries : Nat := 0
  slowQueries : Nat := 0
  failures : Nat := 0
deriving DecidableEq, Repr

namespace Metrics

def named (m : Metrics) : List (String × Nat) :=
  [("nexusrepo_methods_compiled_total", m.compiled),
   ("nexusrepo_compile_cache_hits_total", m.cacheHits),
   ("nexusrepo_queries_total", m.queries),
   ("nexusrepo_queries_slow_total", m.slowQueries),
   ("nexusrepo_execution_failures_total", m.failures)]

end Metrics

structure QueryRecord where
  collection : String
  method : String
  filterHash : String
  limit : Option Nat
  skip : Option Nat
  resultCount : Option Nat
  slow : Bool
deriving DecidableEq, Repr

def QueryRecord.toJson (r : QueryRecord) : Json :=
  .ofFields [("collection", .string r.collection), ("method", .string r.method),
    ("filter_hash", .string r.filterHash), ("limit", .ofOption .ofNat r.limit),
    ("skip", .ofOption .ofNat r.skip), ("result_count", .ofOption .ofNat r.resultCount),
    ("slow", .bool r.slow)]

inductive WorkStep where
  | compile (entity method : String)
  | store (collection : String) (resultCount : Nat)
  | query (operation method collection : String) (resultCount : Option Nat)
deriving DecidableEq, Repr

def WorkStep.toJson : WorkStep → Json
  | .compile entity method =>
    .ofFields [("bench", .string "compile"), ("entity", .string entity), ("method", .string method)]
  | .store collection resultCount =>
    .ofFields [("bench", .string "store"), ("op", .string "find"),
      ("collection", .string collection), ("result_count", .ofNat resultCount)]
  | .query operation method collection resultCount =>
    .ofFields [("bench", .string "query"), ("op", .string operation), ("method", .string method),
      ("collection", .string collection), ("result_count", .ofOption .ofNat resultCount)]

structure Journal where
  metrics : Metrics := {}
  queries : List QueryRecord := []
  steps : List WorkStep := []

namespace Journal

def addStep (j : Journal) (step : WorkStep) : Journal :=
  { j with steps := j.steps ++ [step] }

def countCompiled (j : Journal) : Journal :=
  { j with metrics.compiled := j.metrics.compiled + 1 }

def countCacheHit (j : Journal) : Journal :=
  { j with metrics.cacheHits := j.metrics.cacheHits + 1 }

def countFailure (j : Journal) : Journal :=
  { j with metrics.failures := j.metrics.failures + 1 }

def addQuery (j : Journal) (record : QueryRecord) : Journal :=
  { j with
    queries := j.queries ++ [record]
    metrics.queries := j.metrics.queries + 1
    metrics.slowQueries := j.metrics.slowQueries + record.slow.toNat }

end Journal
end DerivedQuery
