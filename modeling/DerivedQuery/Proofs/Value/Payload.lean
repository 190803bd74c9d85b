import DerivedQuery.Proofs.Text.Digits
import DerivedQuery.Proofs.Value.Calendar
import DerivedQuery.Value.ExtendedJson

/-!
This module contains that the payloads of marked objects are read as the values that they are
written for.
-/

namespace DerivedQuery

def ObjectId.IsValid (id : ObjectId) : Prop :=
  ∃ bytes : List UInt8, bytes.length = 12 ∧ id.hex = Hex.encode bytes

def Value.IsNarrow (n : Int) : Prop :=
  -(Nat.pow 2 31 : Int) ≤ n ∧ n < (Nat.pow 2 31 : Int)

namespace ExtendedJson

/--
The character zero, which ends the text of a pattern, is not in the text.
-/
def IsPatternText (s : String) : Prop :=
  s.toList.contains (Char.ofNat 0) = false

/-! ### Texts -/

theorem intText?_toString {low high n : Int} (hlow : low ≤ n) (hhigh : n ≤ high) :
    intText? low high (toString n) = some n := by
  unfold intText?
  split
  next negative digits heq =>
    rw [Int.toString_eq_repr, Int.repr_eq_if] at heq
    by_cases hpos : 0 ≤ n
    · rw [if_pos hpos, Nat.toList_repr] at heq
      split at heq
      next hminus => exact absurd hminus (Text.toDigits_ne_cons rfl _ _)
      next hplus => exact absurd hplus (Text.toDigits_ne_cons rfl _ _)
      next =>
        rw [Prod.mk.injEq] at heq
        rw [← heq.1, ← heq.2, Text.isEmpty_toDigits, Text.all_isDigit_toDigits,
          Text.natOfDigits_toDigits, Int.toNat_of_nonneg hpos]
        simp [hlow, hhigh]
    · rw [if_neg hpos, String.toList_append, Nat.toList_repr] at heq
      have hparts : (true, Nat.toDigits 10 (-n).toNat) = (negative, digits) := heq
      rw [Prod.mk.injEq] at hparts
      rw [← hparts.1, ← hparts.2, Text.isEmpty_toDigits, Text.all_isDigit_toDigits,
        Text.natOfDigits_toDigits, Int.toNat_of_nonneg (by omega)]
      simp [hlow, hhigh]

theorem objectIdText?_hex {id : ObjectId} (h : id.IsValid) : objectIdText? id.hex = some id := by
  obtain ⟨bytes, hlength, hhex⟩ := h
  have hchars : id.hex.length = 24 := by
    rw [hhex, Hex.encode, String.length_ofList, List.length_flatMap]
    simp [Hex.encodeByte, List.map_const', hlength]
  have hdecode : Hex.decode? id.hex = some bytes := by
    rw [hhex, Hex.decode?, Hex.encode, String.toList_ofList, Hex.decodeChars?_encode]
  rw [objectIdText?, if_pos hchars, hdecode, Option.map_some, ← hhex]

/-! ### Marked objects -/

theorem ofJson?_marked (marker : Marker) (hcode : marker ≠ .code) {name : String}
    (h : (name, marker) ∈ markers) (body : Json) :
    ofJson? (.object [(name, body)]) = payload? marker body := by
  have hfind : marker? [(name, body)] = some (name, marker) := by
    have hentries : ∀ entry ∈ markers,
        markers.find? (fun other => other.1 == entry.1) = some entry := by decide
    have hsame : (fun entry : String × Marker =>
        (Json.findField? entry.1 [(name, body)]).isSome) = fun entry => entry.1 == name := by
      funext entry
      rw [Json.findField?]
      split
      next heq => simp [heq]
      next hne => simp [Json.findField?, hne]
    rw [← hentries _ h, marker?]
    exact congrArg (markers.find? ·) hsame
  rw [ofJson?.eq_def]
  simp only [hfind]
  rw [if_pos (by rfl), Json.findField?, if_pos rfl]
  rfl

/-! ### Values -/

theorem ofJson?_int {n : Int} (h : n < 2 ^ 63) : ofJson? (.int n) = some (.ofInt n) := by
  have hsmall : n < (Nat.pow 2 63 : Int) := by
    norm_num
    omega
  calc ofJson? (.int n)
      = some (if n < (Nat.pow 2 63 : Int) then .ofInt n else .double (Float.ofInt n)) := rfl
    _ = some (.ofInt n) := by rw [if_pos hsmall]

theorem ofJson?_int32 (i : Int32) : ofJson? (toJson (.int32 i)) = some (.int32 i) := by
  have hlow := i.le_toInt
  have hhigh := i.toInt_lt
  calc ofJson? (toJson (.int32 i))
      = some (.ofInt i.toInt) := ofJson?_int (by omega)
    _ = some (.int32 i) := by rw [Value.ofInt, if_pos ⟨hlow, hhigh⟩, Int32.ofInt_toInt]

theorem ofJson?_int64 {i : Int64} (h : ¬ Value.IsNarrow i.toInt) :
    ofJson? (toJson (.int64 i)) = some (.int64 i) :=
  calc ofJson? (toJson (.int64 i))
      = some (.ofInt i.toInt) := ofJson?_int i.toInt_lt
    _ = some (.int64 i) := by
      rw [Value.ofInt, if_neg, Int64.ofInt_toInt]
      exact h

theorem ofJson?_regex {pattern options : String} (hpattern : IsPatternText pattern)
    (hoptions : IsPatternText options) (hsorted : sortChars options = options) :
    ofJson? (toJson (.regex pattern options)) = some (.regex pattern options) :=
  calc ofJson? (toJson (.regex pattern options))
      = payload? .regex
          (.object [("options", .string (sortChars options)), ("pattern", .string pattern)]) :=
        ofJson?_marked .regex (by decide) (by decide) _
    _ = regexOf? pattern (sortChars options) := rfl
    _ = some (.regex pattern options) := by
      rw [regexOf?, hsorted, hpattern, hoptions, hsorted]
      rfl

theorem ofJson?_binary (subtype : UInt8) (bytes : List UInt8) :
    ofJson? (toJson (.binary subtype bytes)) = some (.binary subtype bytes) := by
  have hbytes : Base64.decode? (Base64.encode bytes) = some bytes := by
    rw [Base64.decode?, Base64.encode, String.toList_ofList, Base64.decodeChars?_encodeChars]
  have hsubtype : Hex.decode? (Hex.encode [subtype]) = some [subtype] := by
    rw [Hex.decode?, Hex.encode, String.toList_ofList, Hex.decodeChars?_encode]
  calc ofJson? (toJson (.binary subtype bytes))
      = payload? .binary (.object [("base64", .string (Base64.encode bytes)),
          ("subType", .string (Hex.encode [subtype]))]) :=
        ofJson?_marked .binary (by decide) (by decide) _
    _ = some (.binary subtype bytes) := by
      change (Base64.decode? (Base64.encode bytes)).bind _ = _
      rw [hbytes, Option.bind_some, hsubtype]
      rfl

theorem ofJson?_objectId {id : ObjectId} (h : id.IsValid) :
    ofJson? (toJson (.objectId id)) = some (.objectId id) :=
  calc ofJson? (toJson (.objectId id))
      = payload? .objectId (.string id.hex) := ofJson?_marked .objectId (by decide) (by decide) _
    _ = (objectIdText? id.hex).map .objectId := rfl
    _ = some (.objectId id) := by rw [objectIdText?_hex h, Option.map_some]

theorem ofJson?_pointer {id : ObjectId} (h : id.IsValid) (target : String) :
    ofJson? (toJson (.pointer target id)) = some (.pointer target id) :=
  calc ofJson? (toJson (.pointer target id))
      = payload? .pointer
          (.object [("$id", .object [("$oid", .string id.hex)]), ("$ref", .string target)]) :=
        ofJson?_marked .pointer (by decide) (by decide) _
    _ = (objectIdText? id.hex).map (.pointer target) := rfl
    _ = some (.pointer target id) := by rw [objectIdText?_hex h, Option.map_some]

theorem ofJson?_timestamp {time increment : Nat} (htime : time < Nat.pow 2 32)
    (hincrement : increment < Nat.pow 2 32) :
    ofJson? (toJson (.timestamp time increment)) = some (.timestamp time increment) := by
  have hword : ∀ {n : Nat}, n < Nat.pow 2 32 → word32? (.int n) = some n := by
    intro n hn
    rw [word32?, if_pos ⟨Int.natCast_nonneg n, Int.ofNat_lt.mpr hn⟩, Int.toNat_natCast]
  calc ofJson? (toJson (.timestamp time increment))
      = payload? .timestamp (.object [("i", .int increment), ("t", .int time)]) :=
        ofJson?_marked .timestamp (by decide) (by decide) _
    _ = (word32? (.int time)).bind fun time =>
          (word32? (.int increment)).bind fun increment => some (.timestamp time increment) := rfl
    _ = some (.timestamp time increment) := by
      rw [hword htime, Option.bind_some, hword hincrement, Option.bind_some]

theorem ofJson?_date {millis : Int} (hlow : -(Nat.pow 2 63 : Int) ≤ millis)
    (hhigh : millis < (Nat.pow 2 63 : Int)) :
    ofJson? (toJson (.date millis)) = some (.date millis) := by
  rw [toJson]
  split
  next hnetwork =>
    rw [ofJson?_marked .date (by decide) (by decide), payload?, dateOf?,
      CivilTime.ofNetworkText?_networkText hnetwork.1 hnetwork.2]
    rfl
  next =>
    rw [ofJson?_marked .date (by decide) (by decide)]
    have hrecord : record? ["$numberLong"] (.object [("$numberLong", .string (toString millis))])
        = some [.string (toString millis)] := rfl
    rw [payload?, dateOf?.eq_def]
    dsimp only
    rw [hrecord]
    dsimp only
    rw [int64Text?, intText?_toString hlow (by omega)]
    rfl

end ExtendedJson
end DerivedQuery
