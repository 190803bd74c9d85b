import DerivedQuery.Error
import DerivedQuery.Query.Options
import DerivedQuery.Text.Split

/-!
This module contains the settings of a repository, the values that they can have, and the
environment variables that override them.
-/

namespace DerivedQuery

structure LogSettings where
  dir : Option String := none
  level : Option String := none
  /-- The number of earlier files that are kept. -/
  retention : Option Nat := none
  /-- Keep the steps of the work as well. -/
  dev6 : Bool := false
deriving DecidableEq, Repr

structure Settings where
  cacheCompiledQueries : Bool := true
  compiledCacheCapacity : Nat := 1024
  /-- The number of values that one `In` or `NotIn` clause can be bound to. -/
  maxInSet : Nat := 1000
  /-- The number of documents that one query can hand back. -/
  maxResultLimit : Nat := 10000
  slowQueryMs : Nat := 500
  logging : LogSettings := {}
deriving DecidableEq, Repr

namespace Settings

def validate (s : Settings) : Except QueryError Settings :=
  if s.compiledCacheCapacity = 0 then .error (.settings (.zero "compiled_cache_capacity"))
  else if s.maxInSet = 0 then .error (.settings (.zero "max_in_set"))
  else if s.maxResultLimit = 0 then .error (.settings (.zero "max_result_limit"))
  else .ok s

/--
A count of 64 bits in decimal digits, with or without a plus sign.
-/
def count? (text : String) : Option Nat :=
  let digits :=
    match text.toList with
    | '+' :: digits => digits
    | digits => digits
  let n := Text.natOfDigits digits
  if !digits.isEmpty && digits.all Char.isDigit && n ≤ maxCount then some n else none

/--
The texts that switch a setting on, in any case of ASCII letters.
-/
def isOn (text : String) : Bool :=
  ["1", "true", "yes", "on"].contains (String.ofList (text.toList.map Char.toLower))

def overridden (env : String → Option String) (variable_ : String) (old : Nat) :
    Except QueryError Nat :=
  match env variable_ with
  | none => .ok old
  | some text =>
    match count? text with
    | some n => .ok n
    | none => .error (.settings (.override variable_ text))

def withEnvironment (env : String → Option String) (s : Settings) : Except QueryError Settings := do
  let slowQueryMs ← overridden env "NEXUSREPO_SLOW_QUERY_MS" s.slowQueryMs
  let cacheCompiledQueries := (env "NEXUSREPO_CACHE").elim s.cacheCompiledQueries isOn
  let maxResultLimit ← overridden env "NEXUSREPO_MAX_RESULT_LIMIT" s.maxResultLimit
  validate { s with slowQueryMs, cacheCompiledQueries, maxResultLimit }

end Settings
end DerivedQuery
