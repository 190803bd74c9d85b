import DerivedQuery.Error
import DerivedQuery.Order.InsertionSort

/-!
This module contains paths through a schema, and the two ways to spell one: as the words of a method
name, or with dots.
-/

namespace DerivedQuery

inductive Leaf where
  | scalar (type : ScalarType)
  | embedded
  | geoPoint
  | collection (geo : Bool)
  | reference
deriving DecidableEq, Repr

namespace Leaf

def ofKind : PropertyKind → Leaf
  | .scalar type => .scalar type
  | .embedded _ => .embedded
  | .geoPoint => .geoPoint
  | .collection element => .collection element.isGeo
  | .reference _ => .reference

def text : Leaf → String
  | .scalar type => "Scalar(" ++ type.name ++ ")"
  | .embedded => "Embedded"
  | .geoPoint => "GeoPoint"
  | .collection geo => "Collection \x7b geo: " ++ (if geo then "true" else "false") ++ " \x7d"
  | .reference => "Reference"

end Leaf

structure PropertyPath where
  segments : List String
  leaf : Leaf
deriving DecidableEq, Repr

namespace PropertyPath

def depth (p : PropertyPath) : Nat :=
  p.segments.length

def dotted (p : PropertyPath) : String :=
  ".".intercalate p.segments

def isGeo (p : PropertyPath) : Bool :=
  match p.leaf with
  | .geoPoint | .collection true => true
  | _ => false

def isCollection (p : PropertyPath) : Bool :=
  match p.leaf with
  | .collection _ => true
  | _ => false

def scalarType? (p : PropertyPath) : Option ScalarType :=
  match p.leaf with
  | .scalar type => some type
  | _ => none

def ofChain? (chain : List Property) : Option PropertyPath :=
  chain.getLast?.map fun last => ⟨chain.map (·.name), .ofKind last.kind⟩

end PropertyPath

/-! ### Spelling by words -/

/--
The cuts of a text before a capital letter, or at its end.
-/
def capitalCuts : List Char → List (List Char × List Char)
  | [] => [([], [])]
  | c :: cs =>
    (if c.isUpper then [([], c :: cs)] else []) ++
      (capitalCuts cs).map fun (head, tail) => (c :: head, tail)

/--
The cuts of a text into a first segment, which is not empty unless the text is, and the rest.
-/
def segmentCuts : List Char → List (List Char × List Char)
  | [] => [([], [])]
  | c :: cs => (capitalCuts cs).map fun (head, tail) => (c :: head, tail)

namespace EntitySchema

def chains : (room : Nat) → EntitySchema → List Char → List (List Property)
  | 0, _, _ => []
  | room + 1, scope, s =>
    (segmentCuts s).flatMap fun (head, tail) =>
      (scope.matching head).flatMap fun p =>
        if tail.isEmpty then [[p]]
        else
          match p.kind.nested? with
          | none => []
          | some nested => (chains room nested tail).map (p :: ·)

def scopeAfter? (s : EntitySchema) (chain : List Property) : Option EntitySchema :=
  match chain.getLast? with
  | none => some s
  | some last => last.kind.nested?

def continueChain (s : EntitySchema) (chunk : List Char) (chain : List Property) :
    List (List Property) :=
  match s.scopeAfter? chain with
  | none => []
  | some scope => (chains (maxPathDepth - chain.length) scope chunk).map (chain ++ ·)

/--
The chains that spell a token. An underscore ends a segment, and no two of them stand together or at
an end of the token.
-/
def tokenChains (s : EntitySchema) (token : List Char) : List (List Property) :=
  let chunks := Text.splitOn '_' token
  if chunks.any List.isEmpty then []
  else chunks.foldl (fun found chunk => found.flatMap (s.continueChain chunk)) [[]]

end EntitySchema

inductive Resolution where
  | found (path : PropertyPath)
  | ambiguous (candidates : List String)
  | missing
deriving DecidableEq, Repr

namespace Resolution

/--
The texts in alphabetical order, each once.
-/
def alphabetical (names : List String) : List String :=
  (InsertionSort.sort (fun a b => decide (a < b)) names).eraseReps

def chainName (chain : List Property) : String :=
  ".".intercalate (chain.map (·.name))

def shortest {α : Type} (found : List (List α)) : List (List α) :=
  match (found.map List.length).min? with
  | none => []
  | some least => found.filter fun chain => chain.length == least

def of (s : EntitySchema) (token : List Char) : Resolution :=
  match shortest (s.tokenChains token) with
  | [] => .missing
  | [chain] =>
    match PropertyPath.ofChain? chain with
    | some path => .found path
    | none => .missing
  | chains => .ambiguous (alphabetical (chains.map chainName))

end Resolution

namespace PropertyPath

def resolve (s : EntitySchema) (token : List Char) (method : String) :
    Except QueryError PropertyPath :=
  match Resolution.of s token with
  | .found path => .ok path
  | .ambiguous candidates => .error (.ambiguousProperty method (String.ofList token) candidates)
  | .missing => .error (.unresolvedProperty method s.name (String.ofList token))

/-! ### Spelling with dots -/

/--
The chain of at most `room` properties with the given names. A property of exactly the name goes
before one that only spells it.
-/
def chainOfNames? : (room : Nat) → Option EntitySchema → List String → Option (List Property)
  | _, _, [] => some []
  | 0, _, _ :: _ => none
  | _ + 1, none, _ :: _ => none
  | room + 1, some scope, name :: names => do
    let p ← (scope.get? name).or (scope.matching name.toList).head?
    let rest ← chainOfNames? room p.kind.nested? names
    return p :: rest

def ofDotted? (s : EntitySchema) (dotted : String) : Option PropertyPath :=
  (chainOfNames? maxPathDepth (some s) (Text.split '.' dotted)).bind ofChain?

def resolveDotted (s : EntitySchema) (dotted method : String) : Except QueryError PropertyPath :=
  match ofDotted? s dotted with
  | some path => .ok path
  | none => .error (.unresolvedProperty method s.name dotted)

end PropertyPath
end DerivedQuery
