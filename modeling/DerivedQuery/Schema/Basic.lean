import DerivedQuery.Text.Split

/-!
This module contains entity schemas: the named properties of an entity, some of which hold entities
again.
-/

namespace DerivedQuery

inductive ScalarType where
  | any
  | string
  | number
  | boolean
  | date
deriving DecidableEq, Repr

mutual

/--
What a property holds. A reference names another entity and is never followed.
-/
inductive PropertyKind where
  | scalar (type : ScalarType)
  | embedded (schema : EntitySchema)
  | geoPoint
  | collection (element : PropertyKind)
  | reference (entity : String)

structure Property where
  name : String
  kind : PropertyKind

structure EntitySchema where
  name : String
  properties : List Property

end

mutual

def PropertyKind.decEq : (a b : PropertyKind) → Decidable (a = b)
  | .scalar a, .scalar b => decidable_of_iff (a = b) (by simp)
  | .embedded a, .embedded b =>
    match EntitySchema.decEq a b with
    | isTrue h => isTrue (by rw [h])
    | isFalse h => isFalse (by simpa using h)
  | .geoPoint, .geoPoint => isTrue rfl
  | .collection a, .collection b =>
    match PropertyKind.decEq a b with
    | isTrue h => isTrue (by rw [h])
    | isFalse h => isFalse (by simpa using h)
  | .reference a, .reference b => decidable_of_iff (a = b) (by simp)
  | .scalar _, .embedded _ | .scalar _, .geoPoint | .scalar _, .collection _
  | .scalar _, .reference _ | .embedded _, .scalar _ | .embedded _, .geoPoint
  | .embedded _, .collection _ | .embedded _, .reference _ | .geoPoint, .scalar _
  | .geoPoint, .embedded _ | .geoPoint, .collection _ | .geoPoint, .reference _
  | .collection _, .scalar _ | .collection _, .embedded _ | .collection _, .geoPoint
  | .collection _, .reference _ | .reference _, .scalar _ | .reference _, .embedded _
  | .reference _, .geoPoint | .reference _, .collection _ => isFalse (by simp)

def EntitySchema.decEq : (a b : EntitySchema) → Decidable (a = b)
  | ⟨name, properties⟩, ⟨other, others⟩ =>
    if hname : name = other then
      match EntitySchema.decEqProperties properties others with
      | isTrue h => isTrue (by rw [hname, h])
      | isFalse h => isFalse (by simp [h])
    else isFalse (by simp [hname])

def EntitySchema.decEqProperties : (a b : List Property) → Decidable (a = b)
  | [], [] => isTrue rfl
  | [], _ :: _ | _ :: _, [] => isFalse (by simp)
  | ⟨name, kind⟩ :: properties, ⟨other, otherKind⟩ :: others =>
    if hname : name = other then
      match PropertyKind.decEq kind otherKind with
      | isTrue hkind =>
        match EntitySchema.decEqProperties properties others with
        | isTrue h => isTrue (by rw [hname, hkind, h])
        | isFalse h => isFalse (by simp [h])
      | isFalse hkind => isFalse (by simp [hkind])
    else isFalse (by simp [hname])

end

instance : DecidableEq PropertyKind := PropertyKind.decEq
instance : DecidableEq EntitySchema := EntitySchema.decEq

namespace ScalarType

def name : ScalarType → String
  | .any => "Any"
  | .string => "String"
  | .number => "Number"
  | .boolean => "Boolean"
  | .date => "Date"

end ScalarType

namespace PropertyKind

def nested? : PropertyKind → Option EntitySchema
  | .embedded schema => some schema
  | .collection element => nested? element
  | _ => none

def isGeo : PropertyKind → Bool
  | .geoPoint => true
  | .collection element => isGeo element
  | _ => false

def isCollection : PropertyKind → Bool
  | .collection _ => true
  | _ => false

def scalarType? : PropertyKind → Option ScalarType
  | .scalar type => some type
  | _ => none

end PropertyKind

/--
What two spellings of a name have in common: neither underscores nor the case of ASCII letters
count.
-/
def plainLetters (s : List Char) : List Char :=
  (s.filter (· != '_')).map Char.toLower

namespace Property

def matchesSegment (p : Property) (segment : List Char) : Bool :=
  plainLetters p.name.toList == plainLetters segment

end Property

def maxPathDepth : Nat := 32

namespace EntitySchema

def get? (s : EntitySchema) (name : String) : Option Property :=
  s.properties.find? fun p => p.name == name

def matching (s : EntitySchema) (segment : List Char) : List Property :=
  s.properties.filter fun p => p.matchesSegment segment

def property (s : EntitySchema) (name : String) (kind : PropertyKind) : EntitySchema :=
  { s with properties := s.properties ++ [⟨name, kind⟩] }

/--
A name below a path. The path of the root is empty.
-/
def extendPath (path name : String) : String :=
  if path.isEmpty then name else path ++ "." ++ name

mutual

def geoPathsFrom (path : String) (room : Nat) : EntitySchema → List String
  | ⟨_, properties⟩ =>
    match room with
    | 0 => []
    | room + 1 => geoPathsOf path room properties

def geoPathsOf (path : String) (room : Nat) : List Property → List String
  | [] => []
  | ⟨name, kind⟩ :: properties =>
    (if kind.isGeo then [extendPath path name] else geoPathsIn (extendPath path name) room kind) ++
      geoPathsOf path room properties

def geoPathsIn (path : String) (room : Nat) : PropertyKind → List String
  | .embedded schema => geoPathsFrom path room schema
  | .collection element => geoPathsIn path room element
  | _ => []

end

def geoPaths (s : EntitySchema) : List String :=
  geoPathsFrom "" maxPathDepth s

end EntitySchema
end DerivedQuery
