import DerivedQuery.Digest.Sha256
import DerivedQuery.Filter.Basic
import DerivedQuery.Value.ExtendedJson

/-!
This module contains filters as query documents. Conditions on different fields share one document,
and so do different operators on one field.
-/

namespace DerivedQuery

def isOperatorName (key : String) : Bool :=
  key.toList.head? == some '$'

def Document.isOperators (d : Document) : Bool :=
  !d.isEmpty && d.all fun (key, _) => isOperatorName key

theorem Document.isOperators_eq (d : Document) :
    d.isOperators = (!d.keys.isEmpty && d.keys.all isOperatorName) := by
  rw [isOperators, keys, List.isEmpty_map, List.all_map]
  rfl

namespace Filter

def shareAny (a b : Document) : Bool :=
  b.any fun (key, _) => a.contains key

/--
Add a condition to a document. Only operators that the field does not have yet can be added to a
field that is there.
-/
def addField? (d : Document) (key : String) (value : Value) : Option Document :=
  match d.get? key, value with
  | none, _ => some (d.insert key value)
  | some (.document have_), .document add =>
    if Document.isOperators have_ && Document.isOperators add && !shareAny have_ add then
      some (d.insert key (.document (have_ ++ add)))
    else none
  | _, _ => none

def addFields? (d : Document) : List (String × Value) → Option Document
  | [] => some d
  | (key, value) :: fields =>
    match addField? d key value with
    | none => none
    | some d => addFields? d fields

def mergeAll? (d : Document) : List Document → Option Document
  | [] => some d
  | child :: children =>
    match addFields? d child with
    | none => none
    | some d => mergeAll? d children

/--
The conditions of all documents in one, as far as they go together.
-/
def merged (children : List Document) : Document :=
  match mergeAll? [] children with
  | some d => d
  | none => [("$and", .array (children.map .document))]

mutual

def toDocument : Filter → Document
  | .all => []
  | .and filters => merged (toDocuments filters)
  | .or filters => [("$or", .array ((toDocuments filters).map .document))]
  | .not filter => [("$nor", .array [.document (toDocument filter)])]
  | .exists_ path expected => [(path, .document [("$exists", .bool expected)])]
  | .in_ path values => [(path, .document [("$in", .array values)])]
  | .notIn path values => [(path, .document [("$nin", .array values)])]
  | .compare path .eq value => [(path, value)]
  | .compare path op value => [(path, .document [(op.symbol, value)])]
  | .pattern path text ignoreCase =>
    [(path, .document (("$regex", .string text) ::
      if ignoreCase then [("$options", .string "i")] else []))]
  | .geo path shape => [(path, .document shape.toDocument)]

def toDocuments : List Filter → List Document
  | [] => []
  | f :: fs => toDocument f :: toDocuments fs

end

/--
A name for what a filter asks, the same for filters of the same query document.
-/
def fingerprint (f : Filter) : String :=
  Sha256.ofText (ExtendedJson.text (.document f.toDocument))

end Filter
end DerivedQuery
