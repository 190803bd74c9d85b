import DerivedQuery.Schema.Declaration
import DerivedQuery.Settings.Basic
import DerivedQuery.Toml.Reader

/-!
This module contains the reader of settings from TOML texts. What a text does not set keeps its
default.
-/

namespace DerivedQuery

namespace Json

def count? : Json → Option Nat
  | .int n => if 0 ≤ n ∧ n ≤ maxCount then some n.toNat else none
  | _ => none

def bool? : Json → Option Bool
  | .bool b => some b
  | _ => none

def withDefault (default : α) (item : Json → Option α) : Option Json → Option α
  | none => some default
  | some j => item j

end Json

def LogSettings.ofJson? (j : Json) : Option LogSettings :=
  match j.record? ["dir", "level", "retention", "dev6"] with
  | some [dir, level, retention, dev6] => do
    return {
      dir := ← Json.optional? Json.string? dir
      level := ← Json.optional? Json.string? level
      retention := ← Json.optional? Json.count? retention
      dev6 := ← Json.withDefault false Json.bool? dev6 }
  | _ => none

namespace Settings

def ofJson? (j : Json) : Option Settings :=
  let initial : Settings := {}
  match j.record? ["cache_compiled_queries", "compiled_cache_capacity", "max_in_set",
      "max_result_limit", "slow_query_ms", "logging"] with
  | some [cached, capacity, maxInSet, maxResultLimit, slowQueryMs, logging] => do
    return {
      cacheCompiledQueries := ← Json.withDefault initial.cacheCompiledQueries Json.bool? cached
      compiledCacheCapacity :=
        ← Json.withDefault initial.compiledCacheCapacity Json.count? capacity
      maxInSet := ← Json.withDefault initial.maxInSet Json.count? maxInSet
      maxResultLimit := ← Json.withDefault initial.maxResultLimit Json.count? maxResultLimit
      slowQueryMs := ← Json.withDefault initial.slowQueryMs Json.count? slowQueryMs
      logging := ← Json.withDefault initial.logging LogSettings.ofJson? logging }
  | _ => none

def ofToml (text : String) : Except QueryError Settings :=
  match (Toml.parse text).bind ofJson? with
  | some s => s.validate
  | none => .error (.settings .notToml)

end Settings
end DerivedQuery
