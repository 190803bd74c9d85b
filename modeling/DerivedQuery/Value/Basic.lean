import DerivedQuery.Decimal.Decimal128

/-!
This module contains the values that documents hold. A document is the list of its fields in order,
no name occurring twice.
-/

namespace DerivedQuery

/--
Twelve bytes that name a document, as hexadecimal digits in lower case.
-/
structure ObjectId where
  hex : String
deriving DecidableEq, Repr

inductive Value where
  | null
  | undefined
  | minKey
  | maxKey
  | bool (b : Bool)
  | int32 (i : Int32)
  | int64 (i : Int64)
  | double (x : Float)
  | decimal (d : Decimal128)
  | string (s : String)
  | symbol (s : String)
  | code (text : String)
  | scopedCode (text : String) (scope : List (String × Value))
  | regex (pattern options : String)
  | binary (subtype : UInt8) (bytes : List UInt8)
  | objectId (id : ObjectId)
  /-- Milliseconds since the beginning of 1970. -/
  | date (millis : Int)
  | timestamp (time increment : Nat)
  | pointer (target : String) (id : ObjectId)
  | array (items : List Value)
  | document (fields : List (String × Value))
deriving Inhabited

abbrev Document := List (String × Value)

namespace Document

def get? (key : String) : Document → Option Value
  | [] => none
  | (other, value) :: fields => if other = key then some value else get? key fields

def contains (d : Document) (key : String) : Bool :=
  (d.get? key).isSome

/--
Set a field. A field that is there keeps its place.
-/
def insert (key : String) (value : Value) : Document → Document
  | [] => [(key, value)]
  | (other, old) :: fields =>
    if other = key then (other, value) :: fields else (other, old) :: insert key value fields

def keys (d : Document) : List String :=
  d.map Prod.fst

def ofFields (fields : List (String × Value)) : Document :=
  fields.foldl (fun d (key, value) => d.insert key value) []

@[simp] theorem get?_nil (key : String) : get? key [] = none := rfl

@[simp] theorem get?_insert_self (d : Document) (key : String) (value : Value) :
    (d.insert key value).get? key = some value := by
  induction d with
  | nil => simp [insert, get?]
  | cons field fields ih =>
    obtain ⟨other, old⟩ := field
    unfold insert
    split
    next h => simp [get?, h]
    next h => simp [get?, h, ih]

theorem get?_insert_of_ne (d : Document) {key other : String} (value : Value) (h : other ≠ key) :
    (d.insert key value).get? other = d.get? other := by
  induction d with
  | nil => simp [insert, get?, h.symm]
  | cons field fields ih =>
    obtain ⟨name, old⟩ := field
    unfold insert
    split
    next hname =>
      subst hname
      simp [get?, h.symm]
    next hname => simp only [get?, ih]

theorem get?_eq_none_iff {d : Document} {key : String} : d.get? key = none ↔ key ∉ d.keys := by
  induction d with
  | nil => simp [keys]
  | cons field fields ih =>
    obtain ⟨name, value⟩ := field
    simp only [keys] at ih
    simp only [get?, keys, List.map_cons, List.mem_cons, not_or]
    split
    next h => simp [h]
    next h => simp [ih, Ne.symm h]

theorem get?_append (a b : Document) (key : String) :
    get? key (a ++ b) = (get? key a).or (get? key b) := by
  induction a with
  | nil => rfl
  | cons field a ih =>
    rw [List.cons_append, get?, get?, ih]
    split <;> rfl

theorem get?_append_left {a b : Document} {key : String} (h : key ∉ b.keys) :
    get? key (a ++ b) = a.get? key := by
  rw [get?_append, get?_eq_none_iff.mpr h, Option.or_none]

theorem get?_append_right {a b : Document} {key : String} (h : key ∉ a.keys) :
    get? key (a ++ b) = b.get? key := by
  rw [get?_append, get?_eq_none_iff.mpr h, Option.none_or]

theorem insert_of_get?_eq_none {d : Document} {key : String} (value : Value)
    (h : d.get? key = none) : d.insert key value = d ++ [(key, value)] := by
  induction d with
  | nil => rfl
  | cons field d ih =>
    rw [get?] at h
    split at h
    next => contradiction
    next hne => rw [insert, if_neg hne, ih h, List.cons_append]

theorem exists_insert_eq {d : Document} {key : String} {value : Value}
    (h : d.get? key = some value) :
    ∃ front back : Document, d = front ++ (key, value) :: back
      ∧ ∀ other, d.insert key other = front ++ (key, other) :: back := by
  induction d with
  | nil => contradiction
  | cons field d ih =>
    obtain ⟨name, found⟩ := field
    rw [get?] at h
    split at h
    next heq =>
      rw [Option.some.injEq] at h
      refine ⟨[], d, ?_, ?_⟩
      · rw [heq, h]
        rfl
      · intro other
        rw [insert, if_pos heq, heq]
        rfl
    next hne =>
      obtain ⟨front, back, hd, hinsert⟩ := ih h
      refine ⟨(name, found) :: front, back, ?_, ?_⟩
      · rw [hd]
        rfl
      · intro other
        rw [insert, if_neg hne, hinsert]
        rfl

def Distinct (d : Document) : Prop :=
  d.keys.Nodup

end Document

namespace Value

def ofInt (n : Int) : Value :=
  if -(Nat.pow 2 31 : Int) ≤ n ∧ n < (Nat.pow 2 31 : Int) then .int32 (Int32.ofInt n)
  else .int64 (Int64.ofInt n)

def isNull : Value → Bool
  | .null => true
  | _ => false

def isArray : Value → Bool
  | .array _ => true
  | _ => false

def string? : Value → Option String
  | .string s => some s
  | _ => none

def document? : Value → Option Document
  | .document d => some d
  | _ => none

/--
An integer or a double, as a double. Decimal numbers are not among them.
-/
def number? : Value → Option Float
  | .int32 i => some (Float.ofInt i.toInt)
  | .int64 i => some (Float.ofInt i.toInt)
  | .double x => some x
  | _ => none

end Value
end DerivedQuery
