import DerivedQuery.Decimal.Layout
import DerivedQuery.Text.Encoding
import DerivedQuery.Value.Basic
import DerivedQuery.Value.Calendar

/-!
This module contains the text of a value as messages show it.
-/

namespace DerivedQuery

/--
Dates beyond a million years are shown as their milliseconds.
-/
def dateText (millis : Int) : String :=
  let t := CivilTime.ofMillis millis
  if t.year.natAbs ≤ 999999 then t.displayText else toString millis

def byteText (b : UInt8) : String :=
  let n := b.toNat
  "0x" ++ String.ofList (if n < 16 then [Hex.digit n] else [Hex.digit (n / 16), Hex.digit (n % 16)])

namespace Value

mutual

def text : Value → String
  | .null => "null"
  | .undefined => "undefined"
  | .minKey => "MinKey"
  | .maxKey => "MaxKey"
  | .bool b => if b then "true" else "false"
  | .int32 i => toString i.toInt
  | .int64 i => toString i.toInt
  | .double x => Float64.text x
  | .decimal d => d.text
  | .string s => "\"" ++ s ++ "\""
  | .symbol s => "Symbol(\"" ++ s ++ "\")"
  | .code source => source
  | .scopedCode source _ => source
  | .regex pattern options => "/" ++ pattern ++ "/" ++ options
  | .binary subtype bytes => "Binary(" ++ byteText subtype ++ ", " ++ Base64.encode bytes ++ ")"
  | .objectId id => "ObjectId(\"" ++ id.hex ++ "\")"
  | .date millis => "DateTime(\"" ++ dateText millis ++ "\")"
  | .timestamp time increment =>
    "Timestamp(" ++ toString time ++ ", " ++ toString increment ++ ")"
  | .pointer target id => "DbPointer(" ++ target ++ ", " ++ id.hex ++ ")"
  | .array items => "[" ++ itemsText items ++ "]"
  | .document [] => "\x7b\x7d"
  | .document fields => "\x7b " ++ fieldsText fields ++ " \x7d"

def itemsText : List Value → String
  | [] => ""
  | [item] => text item
  | item :: items => text item ++ ", " ++ itemsText items

def fieldsText : List (String × Value) → String
  | [] => ""
  | [(key, value)] => "\"" ++ key ++ "\": " ++ text value
  | (key, value) :: fields => "\"" ++ key ++ "\": " ++ text value ++ ", " ++ fieldsText fields

end

end Value
end DerivedQuery
