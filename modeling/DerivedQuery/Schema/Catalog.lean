import DerivedQuery.Schema.Basic

/-!
This module contains the schemas known by entity name.
-/

namespace DerivedQuery

/--
Schemas of different names, in alphabetical order.
-/
structure Catalog where
  schemas : List EntitySchema := []

namespace Catalog

def place (schema : EntitySchema) : List EntitySchema → List EntitySchema
  | [] => [schema]
  | other :: others =>
    if schema.name < other.name then schema :: other :: others
    else if schema.name = other.name then schema :: others
    else other :: place schema others

def register (c : Catalog) (schema : EntitySchema) : Catalog :=
  ⟨place schema c.schemas⟩

def schemaFor? (c : Catalog) (entity : String) : Option EntitySchema :=
  c.schemas.find? fun schema => schema.name == entity

def entityNames (c : Catalog) : List String :=
  c.schemas.map (·.name)

end Catalog
end DerivedQuery
