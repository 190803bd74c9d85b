import DerivedQuery.Json.Basic
import DerivedQuery.Schema.Basic

/-!
This module contains the declarations of schemas as JSON trees, in both directions.
-/

namespace DerivedQuery

namespace Json

def levels : Json → Nat
  | .array items => 1 + levelsItems items
  | .object fields => 1 + levelsFields fields
  | _ => 1
where
  levelsItems : List Json → Nat
    | [] => 0
    | item :: items => max (levels item) (levelsItems items)
  levelsFields : List (String × Json) → Nat
    | [] => 0
    | (_, value) :: fields => max (levels value) (levelsFields fields)

/--
The values of the named fields of a record. A record is an object, whose other fields do not count,
or the list of its values from the first on.
-/
def record? (names : List String) : Json → Option (List (Option Json))
  | .object fields => some (names.map fun name => findField? name fields)
  | .array items =>
    if items.length ≤ names.length then some ((List.range names.length).map (items[·]?)) else none
  | _ => none

/--
A name from a closed list, written as a string or as the only field, with nothing in it, of an
object.
-/
def choice? (choices : List (String × α)) : Json → Option α
  | .string s => choices.lookup s
  | .object [(s, .null)] => choices.lookup s
  | _ => none

def list? (item : Json → Option α) : Json → Option (List α)
  | .array items => items.mapM item
  | _ => none

def optional? (item : Json → Option α) : Option Json → Option (Option α)
  | none | some .null => some none
  | some j => (item j).map some

end Json

namespace ScalarType

def all : List ScalarType := [.any, .string, .number, .boolean, .date]

def code : ScalarType → String
  | .any => "any"
  | .string => "string"
  | .number => "number"
  | .boolean => "boolean"
  | .date => "date"

def ofCode? (s : String) : Option ScalarType :=
  all.find? fun type => type.code == s

/--
The type of a name, written as a string or as the only field, with nothing in it, of an object.
-/
def ofJson? : Json → Option ScalarType
  | .string s => ofCode? s
  | .object [(s, .null)] | .object [(s, .object [])] => ofCode? s
  | _ => none

end ScalarType

namespace EntitySchema

def tag? : Json → Option String
  | .string tag | .object [(tag, .null)] => some tag
  | _ => none

/--
The tag and the content of a kind, written as the fields `type` and `of` or as a pair.
-/
def tagged? : Json → Option (String × Option Json)
  | .object fields => do
    let tag ← tag? (← Json.findField? "type" fields)
    return (tag, Json.findField? "of" fields)
  | .array [tag, content] => do return (← tag? tag, some content)
  | _ => none

mutual

def kindWithin? : (levels : Nat) → Json → Option PropertyKind
  | 0, _ => none
  | levels + 1, j =>
    match tagged? j with
    | some ("geo_point", none) | some ("geo_point", some .null) => some .geoPoint
    | some ("scalar", some content) => (ScalarType.ofJson? content).map .scalar
    | some ("embedded", some content) => (schemaWithin? levels content).map .embedded
    | some ("collection", some content) => (kindWithin? levels content).map .collection
    | some ("reference", some (.string entity)) => some (.reference entity)
    | _ => none

def schemaWithin? : (levels : Nat) → Json → Option EntitySchema
  | 0, _ => none
  | levels + 1, j =>
    match j.record? ["name", "properties"] with
    | some [some (.string name), none] => some ⟨name, []⟩
    | some [some (.string name), some properties] =>
      (properties.list? (propertyWithin? levels)).map fun properties => ⟨name, properties⟩
    | _ => none

def propertyWithin? : (levels : Nat) → Json → Option Property
  | 0, _ => none
  | levels + 1, j =>
    match j.record? ["name", "kind"] with
    | some [some (.string name), some kind] =>
      (kindWithin? levels kind).map fun kind => ⟨name, kind⟩
    | _ => none

end

def ofJson? (j : Json) : Option EntitySchema :=
  schemaWithin? (j.levels + 1) j

def kindOfJson? (j : Json) : Option PropertyKind :=
  kindWithin? (j.levels + 1) j

mutual

def toJson : EntitySchema → Json
  | ⟨name, properties⟩ =>
    .object [("name", .string name), ("properties", .array (propertiesToJson properties))]

def propertiesToJson : List Property → List Json
  | [] => []
  | ⟨name, kind⟩ :: properties =>
    .object [("kind", kindToJson kind), ("name", .string name)] :: propertiesToJson properties

def kindToJson : PropertyKind → Json
  | .scalar type => .object [("of", .string type.code), ("type", .string "scalar")]
  | .embedded schema => .object [("of", toJson schema), ("type", .string "embedded")]
  | .geoPoint => .object [("type", .string "geo_point")]
  | .collection element => .object [("of", kindToJson element), ("type", .string "collection")]
  | .reference entity => .object [("of", .string entity), ("type", .string "reference")]

end

end EntitySchema
end DerivedQuery
