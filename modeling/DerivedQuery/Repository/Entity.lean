import DerivedQuery.Store.Stream
import DerivedQuery.Value.Marked

/-!
This module contains the forms that entities can have: plain documents, and records of named fields
of fixed types.
-/

namespace DerivedQuery

def plainEntity : EntityReader Document := Marked.document?

inductive RecordFieldType where
  | text
  | int32
deriving DecidableEq, Repr

namespace RecordFieldType

/--
A text is a string, or the bytes of one.
-/
def read : RecordFieldType → Value → Option Value
  | .text, .string s => some (.string s)
  | .text, .binary 0 bytes => (String.fromUTF8? ⟨bytes.toArray⟩).map .string
  | .int32, .int32 i => some (.int32 i)
  | .int32, .int64 i =>
    if -(Nat.pow 2 31 : Int) ≤ i.toInt ∧ i.toInt < (Nat.pow 2 31 : Int) then
      some (.int32 (Int32.ofInt i.toInt))
    else none
  | _, _ => none

end RecordFieldType

def recordEntity : List (String × RecordFieldType) → EntityReader Document
  | [], _ => some []
  | (name, type) :: fields, d => do
    let value ← type.read (← d.get? name)
    return (name, value) :: (← recordEntity fields d)

end DerivedQuery
