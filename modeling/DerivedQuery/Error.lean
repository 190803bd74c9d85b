import DerivedQuery.Decimal.Layout
import DerivedQuery.Method.Operator
import DerivedQuery.Method.Signature
import DerivedQuery.Text.Quoted
import DerivedQuery.Value.Display

/-!
This module contains what can go wrong, by cause, and the messages for it.
-/

namespace DerivedQuery

inductive GeometryFault where
  | circle (radius : Float)
  | boxCorner
  | tooFewVertices (count : Nat)
  | collinearVertices
  | nearPoint
  | maxDistance (value : Float)

def GeometryFault.text : GeometryFault → String
  | .circle radius => "circle radius " ++ Float64.text radius
  | .boxCorner => "box corner is not finite"
  | .tooFewVertices count => "polygon needs at least 3 vertices, got " ++ toString count
  | .collinearVertices => "polygon vertices are collinear"
  | .nearPoint => "near point is not finite"
  | .maxDistance value => "max distance " ++ Float64.text value

inductive DocumentFault where
  /-- A marked object does not stand for a value. -/
  | value
  | notAnObject (text : String)
  | unknownOperator (operator : String)
  | listExpected (operator : String)
  | documentsExpected (operator : String)
  | patternExpected
  | shapeExpected
  | unknownShape
  | radiusExpected
  | pointExpected (operator : String)
deriving DecidableEq, Repr

def DocumentFault.text : DocumentFault → String
  | .value => "BSON error"
  | .notAnObject text => "expected JSON object, got " ++ text
  | .unknownOperator operator => "unsupported query operator " ++ operator
  | .listExpected operator => operator ++ " expects an array"
  | .documentsExpected operator => operator ++ " entries must be documents"
  | .patternExpected => "$regex expects a string"
  | .shapeExpected => "$within expects a shape document"
  | .unknownShape => "$within expects $center, $box or $polygon"
  | .radiusExpected => "$center radius"
  | .pointExpected operator => operator ++ " expects a point"

inductive QueryTextFault where
  | notJson (detail : String)
  | document (fault : DocumentFault)
deriving DecidableEq, Repr

def QueryTextFault.text : QueryTextFault → String
  | .notJson detail => "Serde JSON: " ++ detail
  | .document fault => "Config error: " ++ fault.text

/--
Why settings, or the arguments on a command line, are refused.
-/
inductive SettingsFault where
  | notToml
  | fileNotToml (path : String)
  | zero (setting : String)
  | override (name value : String)
  | unknownEntity (entity : String)
  | argument (text : String) (kind : ParameterKind)
  | missingArgument (kind : ParameterKind)
  | document (fault : DocumentFault)
deriving DecidableEq, Repr

def SettingsFault.text : SettingsFault → String
  | .notToml => "TOML parse error"
  | .fileNotToml path => path ++ ": TOML parse error"
  | .zero setting => setting ++ " must be > 0"
  | .override name value => name ++ ": `" ++ value ++ "`"
  | .unknownEntity entity => "no schema registered for entity `" ++ entity ++ "`"
  | .argument text kind => "argument " ++ text ++ " does not fit a " ++ kind.name ++ " parameter"
  | .missingArgument kind => "missing argument for " ++ kind.name
  | .document fault => fault.text

/--
Why a method name, or a template that replaces its predicate, cannot be read.
-/
inductive NameFault where
  | writeVerb (verb : String)
  | noVerb
  | noBy
  | distinct
  | limitRange (keyword digits : String)
  | limitZero (keyword : String)
  | limitKind (keyword : String)
  | emptyPredicate
  | emptyClause
  | emptyOrder
  | sortKeys (count : Nat)
  | queryTemplate (fault : QueryTextFault)
  | fieldsNotJson (detail : String)
  | fieldsDocument (fault : DocumentFault)
  | noFields
deriving DecidableEq, Repr

def NameFault.text : NameFault → String
  | .writeVerb verb => "`" ++ verb ++ "` queries are not supported; only reads are"
  | .noVerb => "expected a find/read/get/query/search/stream/count/exists prefix"
  | .noBy => "missing `By` after the subject"
  | .distinct => "`Distinct` queries are not supported"
  | .limitRange keyword digits => "`" ++ keyword ++ digits ++ "` is out of range"
  | .limitZero keyword => "`" ++ keyword ++ "0` selects nothing"
  | .limitKind keyword => "`" ++ keyword ++ "` only applies to find queries"
  | .emptyPredicate => "empty predicate"
  | .emptyClause => "empty clause"
  | .emptyOrder => "empty `OrderBy` clause"
  | .sortKeys count => toString count ++ " sort keys"
  | .queryTemplate fault => "query template: " ++ fault.text
  | .fieldsNotJson detail => "fields template: " ++ detail
  | .fieldsDocument fault => "fields template: Config error: " ++ fault.text
  | .noFields => "fields template selects nothing"

inductive OperatorFault where
  | notGeo (path : String)
  | notTextual (operator : Operator)
  | unknown (path : String)
deriving DecidableEq, Repr

def OperatorFault.text : OperatorFault → String
  | .notGeo path => "`" ++ path ++ "` is not a geospatial property"
  | .notTextual operator =>
    "case-insensitive matching needs a string property and operator, got " ++ operator.name
  | .unknown path => "unknown operator after `" ++ path ++ "`"

inductive QueryKind where
  | find
  | count
  | exists_
deriving DecidableEq, Repr

def QueryKind.name : QueryKind → String
  | .find => "Find"
  | .count => "Count"
  | .exists_ => "Exists"

/--
Why declarations, arguments and clauses do not go together.
-/
inductive ClauseFault where
  | textProperty (operator : Operator) (path : String)
  | booleanProperty (operator : Operator) (path : String)
  | repeatedSpecial (kind : ParameterKind)
  | declaredShape (shape : ResultShape) (kind : QueryKind)
  | parameterKind (index : Nat) (kind : ParameterKind) (operator : Operator) (path wanted : String)
  | projectionLength (count : Nat)
  | pageMissing (shape : ResultShape)
  | argumentKind (index : Nat) (found : String) (kind : ParameterKind)
  | sortLength (limit : Nat)
  | unboundClause
  | pairNeeded (operator : Operator) (path : String)
  | notComparable (operator : Operator) (path : String) (low high : Value)
  | boundsType (operator : Operator) (path : String) (type : ScalarType)
  | sequenceNeeded (operator : Operator) (path : String)
  | sequenceLength (operator : Operator) (path : String) (count limit : Nat)
  | valueNeeded (operator : Operator) (path : String)
  | textNeeded (operator : Operator) (path : String) (value : Value)
  | invalidPattern (path : String)
  | orderedNeeded (operator : Operator) (path : String) (value : Value)
  | valueType (operator : Operator) (path : String) (value : Value) (type : ScalarType)
  | pointNeeded (path : String)
  | areaNeeded (path : String)
  | placeholderKind (index : Nat) (found : String)
  | placeholderMissing (index : Nat)
  | boundQuery (fault : QueryTextFault)
  | noOverload (kinds : List String)
  | otherShape (found wanted : String)

def ClauseFault.text : ClauseFault → String
  | .textProperty operator path =>
    operator.name ++ " needs a string property, `" ++ path ++ "` is not"
  | .booleanProperty operator path =>
    operator.name ++ " needs a boolean property, `" ++ path ++ "` is not"
  | .repeatedSpecial kind => "at most one " ++ kind.name ++ " parameter is allowed"
  | .declaredShape shape kind =>
    "declared result " ++ shape.name ++ " does not match the " ++ kind.name ++ " prefix"
  | .parameterKind index kind operator path wanted =>
    "parameter " ++ toString index ++ " (" ++ kind.name ++ ") cannot bind " ++ operator.name ++
      " on `" ++ path ++ "`, expected " ++ wanted
  | .projectionLength count => "projection lists " ++ toString count ++ " fields"
  | .pageMissing shape => shape.name ++ " results need a Page parameter"
  | .argumentKind index found kind =>
    "argument " ++ toString index ++ " is a " ++ found ++ ", declared " ++ kind.name
  | .sortLength limit => "sort exceeds " ++ toString limit ++ " keys"
  | .unboundClause => "clause has no parameter binding"
  | .pairNeeded operator path => operator.name ++ " on `" ++ path ++ "` needs two values"
  | .notComparable operator path low high =>
    operator.name ++ " on `" ++ path ++ "` needs two range-comparable values, got " ++ low.text ++
      " and " ++ high.text
  | .boundsType operator path type =>
    operator.name ++ " bounds do not match `" ++ path ++ "` (" ++ type.name ++ ")"
  | .sequenceNeeded operator path =>
    operator.name ++ " on `" ++ path ++ "` needs a sequence of values"
  | .sequenceLength operator path count limit =>
    operator.name ++ " on `" ++ path ++ "` got " ++ toString count ++ " values, limit is " ++
      toString limit
  | .valueNeeded operator path => operator.name ++ " on `" ++ path ++ "` needs a value"
  | .textNeeded operator path value =>
    operator.name ++ " on `" ++ path ++ "` needs a string, got " ++ value.text
  | .invalidPattern path => "invalid regex for `" ++ path ++ "`: "
  | .orderedNeeded operator path value =>
    operator.name ++ " on `" ++ path ++ "` needs an ordered value, got " ++ value.text
  | .valueType operator path value type =>
    operator.name ++ " value " ++ value.text ++ " does not match `" ++ path ++ "` (" ++ type.name ++
      ")"
  | .pointNeeded path => "Near on `" ++ path ++ "` needs a point"
  | .areaNeeded path => "Within on `" ++ path ++ "` needs a circle, box or polygon"
  | .placeholderKind index found =>
    "placeholder ?" ++ toString index ++ " cannot take a " ++ found ++ " argument"
  | .placeholderMissing index => "placeholder ?" ++ toString index ++ " has no argument"
  | .boundQuery fault => "bound query: " ++ fault.text
  | .noOverload kinds => "no overload accepts (" ++ ", ".intercalate kinds ++ ")"
  | .otherShape found wanted => "method returns " ++ found ++ ", not " ++ wanted

inductive RankingFault where
  | severalNears (count : Nat)
  | nearWithOr
  | noDistance (shape : ResultShape)
  | explicitQuery
  | noNear
deriving DecidableEq, Repr

def RankingFault.text : RankingFault → String
  | .severalNears count => toString count ++ " Near clauses; at most one is allowed"
  | .nearWithOr => "Near cannot be combined with Or"
  | .noDistance shape => shape.name ++ " needs exactly one Near clause bound with a Distance"
  | .explicitQuery => "explicit queries cannot rank by distance"
  | .noNear => "no Near clause to rank by"

inductive QueryError where
  | file (detail : String)
  | notJson (detail : String)
  /-- A stored document is not of the form that the entities have. -/
  | notAnEntity
  | settings (fault : SettingsFault)
  | geometry (fault : GeometryFault)
  | malformedName (method : String) (fault : NameFault)
  | unresolvedProperty (method entity token : String)
  | ambiguousProperty (method token : String) (candidates : List String)
  | unsupportedOperator (method operator : String) (fault : OperatorFault)
  | parameterCount (method : String) (expected actual : Nat)
  | clauseMismatch (method : String) (fault : ClauseFault)
  | ranking (method : String) (fault : RankingFault)
  | unknownMethod (name : String)
  | execution (collection cause : String)

namespace QueryError

def message : QueryError → String
  | .file detail => "I/O error: " ++ detail
  | .notJson detail => "Serde JSON: " ++ detail
  | .notAnEntity => "BSON: BSON error"
  | .settings fault => "Config error: " ++ fault.text
  | .geometry fault => "Invalid geometry: " ++ fault.text
  | .malformedName method fault => "Malformed query method `" ++ method ++ "`: " ++ fault.text
  | .unresolvedProperty method entity token =>
    "Query method `" ++ method ++ "`: no property `" ++ token ++ "` on entity `" ++ entity ++ "`"
  | .ambiguousProperty method token candidates =>
    "Query method `" ++ method ++ "`: property token `" ++ token ++ "` is ambiguous between " ++
      Text.quotedList candidates
  | .unsupportedOperator method operator fault =>
    "Query method `" ++ method ++ "`: unsupported operator `" ++ operator ++ "`: " ++ fault.text
  | .parameterCount method expected actual =>
    "Query method `" ++ method ++ "`: expected " ++ toString expected ++ " parameter(s), got " ++
      toString actual
  | .clauseMismatch method fault => "Query method `" ++ method ++ "`: " ++ fault.text
  | .ranking method fault =>
    "Query method `" ++ method ++ "`: invalid geospatial query shape: " ++ fault.text
  | .unknownMethod name => "Query method not registered: " ++ name
  | .execution collection cause =>
    "Query execution failed on collection `" ++ collection ++ "`: " ++ cause

/--
The errors that reading and checking the declaration of a method can raise.
-/
def isCompileError : QueryError → Bool
  | .malformedName .. | .unresolvedProperty .. | .ambiguousProperty .. | .unsupportedOperator ..
  | .parameterCount .. | .clauseMismatch .. | .ranking .. => true
  | _ => false

def ofQueryText : QueryTextFault → QueryError
  | .notJson detail => .notJson detail
  | .document fault => .settings (.document fault)

end QueryError
end DerivedQuery
