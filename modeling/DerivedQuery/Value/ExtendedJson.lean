import DerivedQuery.Decimal.Reader
import DerivedQuery.Json.Printer
import DerivedQuery.Value.Basic
import DerivedQuery.Value.Calendar

/-!
This module contains values written as JSON trees, and read from them. JSON has fewer kinds than
values, so an object whose field is a marker such as `$oid` or `$date` stands for a value of another
kind. A marked object that has other fields, or not the payload that its marker asks for, stands for
nothing.
-/

namespace DerivedQuery
namespace ExtendedJson

inductive Marker where
  | objectId
  | symbol
  | regex
  | int32
  | int64
  | double
  | decimal
  | binary
  | uuid
  | code
  | timestamp
  | date
  | minKey
  | maxKey
  | pointer
  | undefined
deriving DecidableEq, Repr

/--
The marking fields. If an object has several, the first one here decides.
-/
def markers : List (String × Marker) :=
  [("$oid", .objectId), ("$symbol", .symbol), ("$regularExpression", .regex),
   ("$numberInt", .int32), ("$numberLong", .int64), ("$numberDouble", .double),
   ("$numberDecimal", .decimal), ("$binary", .binary), ("$uuid", .uuid), ("$code", .code),
   ("$timestamp", .timestamp), ("$date", .date), ("$minKey", .minKey), ("$maxKey", .maxKey),
   ("$dbPointer", .pointer), ("$undefined", .undefined)]

def marker? (fields : List (String × Json)) : Option (String × Marker) :=
  markers.find? fun (name, _) => (Json.findField? name fields).isSome

/--
The payloads of a record with exactly the given fields, written as an object or as the list of
their values.
-/
def record? (names : List String) : Json → Option (List Json)
  | .object fields =>
    if fields.all fun (name, _) => names.contains name then
      names.mapM fun name => Json.findField? name fields
    else none
  | .array items => if items.length = names.length then some items else none
  | _ => none

/-! ### Payloads -/

def intText? (low high : Int) (s : String) : Option Int :=
  let (negative, digits) :=
    match s.toList with
    | '-' :: rest => (true, rest)
    | '+' :: rest => (false, rest)
    | rest => (false, rest)
  if digits.isEmpty || !digits.all Char.isDigit then none
  else
    let n : Int := Text.natOfDigits digits
    let n := if negative then -n else n
    if low ≤ n ∧ n ≤ high then some n else none

def int64Text? : String → Option Int :=
  intText? (-(Nat.pow 2 63 : Int)) ((Nat.pow 2 63 : Int) - 1)

def doubleText? : String → Option Float
  | "Infinity" => some (Float.ofBits 0x7FF0000000000000)
  | "-Infinity" => some (Float.ofBits 0xFFF0000000000000)
  | s => Float64.ofText? s

def objectIdText? (s : String) : Option ObjectId :=
  if s.length = 24 then (Hex.decode? s).map fun bytes => ⟨Hex.encode bytes⟩ else none

def sortChars (s : String) : String :=
  String.ofList (s.toList.mergeSort fun a b => a ≤ b)

/--
A pattern and its options in alphabetical order. Neither can hold the character zero.
-/
def regexOf? (pattern options : String) : Option Value :=
  if pattern.toList.contains (Char.ofNat 0) || options.toList.contains (Char.ofNat 0) then none
  else some (.regex pattern (sortChars options))

/--
The hexadecimal digits of a universally unique identifier: plain, with hyphens, in braces, or as
a resource name.
-/
def uuidDigits? (s : List Char) : Option (List Char) :=
  match s.length with
  | 32 => some s
  | 36 => hyphenated? s
  | 38 =>
    if s.head? = some '{' ∧ s.getLast? = some '}' then hyphenated? (s.drop 1).dropLast else none
  | 45 => (Text.dropStart? "urn:uuid:".toList s).bind hyphenated?
  | _ => none
where
  hyphenated? (s : List Char) : Option (List Char) :=
    let parts := Text.splitOn '-' s
    if parts.map List.length = [8, 4, 4, 4, 12] then some parts.flatten else none

def word32? : Json → Option Nat
  | .int n => if 0 ≤ n ∧ n < (Nat.pow 2 32 : Int) then some n.toNat else none
  | _ => none

def dateOf? : Json → Option Value
  | .string s => (CivilTime.ofNetworkText? s).map .date
  | .int n => if -(Nat.pow 2 63 : Int) ≤ n ∧ n < (Nat.pow 2 63 : Int) then some (.date n) else none
  | j =>
    match record? ["$numberLong"] j with
    | some [.string s] => (int64Text? s).map .date
    | _ => none

def payload? (marker : Marker) (payload : Json) : Option Value :=
  match marker, payload with
  | .objectId, .string s => (objectIdText? s).map .objectId
  | .symbol, .string s => some (.symbol s)
  | .regex, body =>
    match record? ["pattern", "options"] body with
    | some [.string pattern, .string options] => regexOf? pattern options
    | _ => none
  | .int32, .string s =>
    (intText? (-(Nat.pow 2 31 : Int)) ((Nat.pow 2 31 : Int) - 1) s).map fun n =>
      .int32 (Int32.ofInt n)
  | .int64, .string s => (int64Text? s).map fun n => .int64 (Int64.ofInt n)
  | .double, .string s => (doubleText? s).map .double
  | .decimal, .string s => (Decimal128.ofText? s).map .decimal
  | .binary, body =>
    match record? ["base64", "subType"] body with
    | some [.string base64, .string subtype] => do
      let bytes ← Base64.decode? base64
      match Hex.decode? subtype with
      | some [subtype] => return .binary subtype bytes
      | _ => none
    | _ => none
  | .uuid, .string s => do
    let bytes ← Hex.decodeChars? (← uuidDigits? s.toList)
    return .binary 4 bytes
  | .timestamp, body =>
    match record? ["t", "i"] body with
    | some [time, increment] => return .timestamp (← word32? time) (← word32? increment)
    | _ => none
  | .date, body => dateOf? body
  | .minKey, .int 1 => some .minKey
  | .maxKey, .int 1 => some .maxKey
  | .pointer, body =>
    match record? ["$ref", "$id"] body with
    | some [.string target, id] =>
      match record? ["$oid"] id with
      | some [.string s] => (objectIdText? s).map (.pointer target)
      | _ => none
    | _ => none
  | .undefined, .bool true => some .undefined
  | _, _ => none

mutual

def ofJson? : Json → Option Value
  | .null => some .null
  | .bool b => some (.bool b)
  | .int n => some (if n < (Nat.pow 2 63 : Int) then .ofInt n else .double (Float.ofInt n))
  | .float x => some (.double x)
  | .string s => some (.string s)
  | .array items => (ofItems? items).map .array
  | .object fields =>
    match marker? fields with
    | none => (ofFields? fields).map .document
    | some (_, .code) =>
      match Json.findField? "$code" fields, scope? fields with
      | some (.string text), some none => some (.code text)
      | some (.string text), some (some scope) => some (.scopedCode text scope)
      | _, _ => none
    | some (name, marker) =>
      if fields.length = 1 then (Json.findField? name fields).bind (payload? marker) else none

def ofItems? : List Json → Option (List Value)
  | [] => some []
  | item :: items => do return (← ofJson? item) :: (← ofItems? items)

/--
A document is read field by field: its own fields are never a marker.
-/
def ofFields? : List (String × Json) → Option Document
  | [] => some []
  | (name, value) :: fields => do return (name, ← ofJson? value) :: (← ofFields? fields)

/--
The scope of a piece of code, which may be missing, and nothing else besides the code.
-/
def scope? : List (String × Json) → Option (Option Document)
  | [] => some none
  | (name, value) :: fields =>
    if name = "$code" then scope? fields
    else if name = "$scope" then do
      let rest ← scope? fields
      match value with
      | .null => return rest
      | .object inner => return some (← ofFields? inner)
      | _ => none
    else none

end

mutual

/--
The JSON tree of a value. Integers of both widths are plain numbers, and dates from 1970 to the
year 9999 are network dates.
-/
def toJson : Value → Json
  | .null => .null
  | .undefined => .object [("$undefined", .bool true)]
  | .minKey => .object [("$minKey", .int 1)]
  | .maxKey => .object [("$maxKey", .int 1)]
  | .bool b => .bool b
  | .int32 i => .int i.toInt
  | .int64 i => .int i.toInt
  | .double x =>
    if x.isNaN then .object [("$numberDouble", .string "NaN")]
    else if x.isInf then
      .object [("$numberDouble", .string (if x < 0.0 then "-Infinity" else "Infinity"))]
    else .float x
  | .decimal d => .object [("$numberDecimal", .string d.text)]
  | .string s => .string s
  | .symbol s => .object [("$symbol", .string s)]
  | .code text => .object [("$code", .string text)]
  | .scopedCode text scope =>
    .object [("$code", .string text), ("$scope", .ofFields (toJsonFields scope))]
  | .regex pattern options =>
    .object [("$regularExpression",
      .object [("options", .string (sortChars options)), ("pattern", .string pattern)])]
  | .binary subtype bytes =>
    .object [("$binary",
      .object [("base64", .string (Base64.encode bytes)),
        ("subType", .string (Hex.encode [subtype]))])]
  | .objectId id => .object [("$oid", .string id.hex)]
  | .date millis =>
    let t := CivilTime.ofMillis millis
    if 0 ≤ millis ∧ t.year ≤ 9999 then .object [("$date", .string t.networkText)]
    else .object [("$date", .object [("$numberLong", .string (toString millis))])]
  | .timestamp time increment =>
    .object [("$timestamp", .object [("i", .int increment), ("t", .int time)])]
  | .pointer target id =>
    .object [("$dbPointer",
      .object [("$id", .object [("$oid", .string id.hex)]), ("$ref", .string target)])]
  | .array items => .array (toJsonItems items)
  | .document fields => .ofFields (toJsonFields fields)

def toJsonItems : List Value → List Json
  | [] => []
  | item :: items => toJson item :: toJsonItems items

def toJsonFields : List (String × Value) → List (String × Json)
  | [] => []
  | (key, value) :: fields => (key, toJson value) :: toJsonFields fields

end

def text (v : Value) : String :=
  (toJson v).text

end ExtendedJson
end DerivedQuery
