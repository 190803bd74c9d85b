import DerivedQuery.Digest.Sha256
import DerivedQuery.Json.Printer
import DerivedQuery.Query.Compiled

/-!
This module contains caches of compiled methods. A cache of some capacity keeps the methods that
were asked for last; methods that do not compile are not kept.
-/

namespace DerivedQuery

def EntitySchema.declaration (s : EntitySchema) : String :=
  s.toJson.text

def EntitySchema.fingerprint (s : EntitySchema) : String :=
  Sha256.ofText s.declaration

/--
The same method compiles differently against another schema.
-/
structure CacheKey where
  signature : Signature
  fingerprint : String
deriving DecidableEq

def CacheKey.of (sig : Signature) (s : EntitySchema) : CacheKey :=
  ⟨sig, s.fingerprint⟩

/--
A method that was compiled. No two compilations of a cache have the same number.
-/
structure CacheEntry where
  key : CacheKey
  query : CompiledQuery
  number : Nat

structure CacheAnswer where
  query : CompiledQuery
  number : Nat
  isHit : Bool

structure Cache where
  capacity : Nat
  /-- The entry that was used last comes first. -/
  entries : List CacheEntry := []
  hits : Nat := 0
  misses : Nat := 0
  compilations : Nat := 0

namespace Cache

def defaultCapacity : Nat := 1024

/--
An empty cache. A capacity of zero counts as one.
-/
def ofCapacity (capacity : Nat) : Cache where
  capacity := max capacity 1

def size (c : Cache) : Nat :=
  c.entries.length

def clear (c : Cache) : Cache :=
  { c with entries := [] }

def find? (c : Cache) (key : CacheKey) : Option CacheEntry :=
  c.entries.find? fun e => e.key == key

def touch (c : Cache) (e : CacheEntry) : Cache :=
  { c with
    entries := e :: c.entries.filter fun other => other.key != e.key
    hits := c.hits + 1 }

/--
Keep a new entry, and drop the one that was not used for the longest time if there are too many.
-/
def keep (c : Cache) (e : CacheEntry) : Cache :=
  { c with entries := (e :: c.entries).take c.capacity }

def get (c : Cache) (sig : Signature) (s : EntitySchema) : Except QueryError CacheAnswer × Cache :=
  let key := CacheKey.of sig s
  match c.find? key with
  | some e => (.ok ⟨e.query, e.number, true⟩, c.touch e)
  | none =>
    let c := { c with misses := c.misses + 1 }
    match CompiledQuery.compile sig s with
    | .error fault => (.error fault, c)
    | .ok query =>
      let number := c.compilations
      let c := { c with compilations := number + 1 }
      (.ok ⟨query, number, false⟩, c.keep ⟨key, query, number⟩)

end Cache
end DerivedQuery
