import DerivedQuery.Proofs.Filter.Numbers
import DerivedQuery.Proofs.Query.Checked

/-!
This module contains what the clauses for values below or above a bound accept and match. The check
lets more kinds of values through than the order of values knows, and a clause with a bound of such a
kind matches nothing.
-/

namespace DerivedQuery

/-! ### Values with an order -/

namespace Value

def hasOrder : Value → Bool
  | .int32 _ | .int64 _ | .double _ | .string _ | .bool _ | .date _ => true
  | _ => false

variable {v : Value}

theorem compare?_eq_none (h : v.hasOrder = false) (a : Value) : a.compare? v = none := by
  cases v with
  | int32 | int64 | double | string | bool | date => contradiction
  | _ => cases a <;> rfl

theorem compare?_self (h : v.hasOrder = true) : v.compare? v = some .eq := by
  cases v with
  | int32 | int64 | double => exact congrArg some (Float64.totalCompare_eq_iff.mpr rfl)
  | string s => exact congrArg some Std.ReflCmp.compare_self
  | bool b => exact congrArg some Std.ReflCmp.compare_self
  | date t => exact congrArg some Std.ReflCmp.compare_self
  | _ => contradiction

theorem compare?_self_iff : v.compare? v = some .eq ↔ v.hasOrder = true := by
  constructor
  · intro h
    by_contra hno
    rw [compare?_eq_none (Bool.not_eq_true _ ▸ hno)] at h
    contradiction
  · exact compare?_self

theorem isArray_of_hasOrder (h : v.hasOrder = true) : v.isArray = false := by
  cases v with
  | array => contradiction
  | _ => rfl

end Value

theorem Document.mem_candidates {d : Document} {path : String} {v : Value}
    (hv : v.isArray = false) (h : v ∈ d.lookup path) : v ∈ d.candidates path := by
  refine List.mem_flatMap.mpr ⟨v, h, ?_⟩
  rw [elements_of_isArray hv]
  exact List.mem_singleton_self v

/-! ### Bounds -/

def Operator.bound? : Operator → Option Comparison
  | .lessThan | .before => some .lt
  | .lessThanEqual => some .lte
  | .greaterThan | .after => some .gt
  | .greaterThanEqual => some .gte
  | _ => none

theorem Operator.of_bound? {operator : Operator} {op : Comparison} (h : operator.bound? = some op) :
    operator.operand = .single ∧ operator.isRange = true ∧ op ≠ .eq ∧ op ≠ .ne := by
  cases operator <;> cases h <;> exact ⟨rfl, rfl, nofun, nofun⟩

inductive IsUnordered : ScalarType → Value → Prop where
  | decimal (x : Decimal128) : IsUnordered .number (.decimal x)
  | timestamp (time increment : Nat) : IsUnordered .date (.timestamp time increment)

theorem hasOrder_or_isUnordered {type : ScalarType} {v : Value} (htype : type ≠ .any)
    (hadmits : type.admits v = true) (hordered : Criterion.isOrdered v = true) :
    v.hasOrder = true ∨ IsUnordered type v := by
  cases type with
  | any => contradiction
  | string | boolean =>
    cases v with
    | string | bool => exact .inl rfl
    | _ => contradiction
  | number =>
    cases v with
    | int32 | int64 | double => exact .inl rfl
    | decimal x => exact .inr (.decimal x)
    | _ => contradiction
  | date =>
    cases v with
    | date => exact .inl rfl
    | timestamp time increment => exact .inr (.timestamp time increment)
    | _ => contradiction

namespace Criterion

variable {c : Criterion} {v : Value} {op : Comparison} {method : String} {maxInSet : Nat}

theorem checkType_of_check (hop : c.operator.bound? = some op) (hvalue : c.value? 0 = some v)
    (h : c.check method maxInSet = .ok ()) : isOrdered v = true ∧ c.checkType v = .ok () := by
  obtain ⟨hoperand, hrange, -, -⟩ := Operator.of_bound? hop
  rw [check, hoperand] at h
  have hsingle := (checkSingle_eq_ok_iff hvalue).mp (mapError_eq_ok_iff.mp h)
  obtain ⟨hordered, htype⟩ := hsingle.2 (matchesText_of_isRange hrange)
  exact ⟨hordered hrange, htype⟩

theorem admits_of_checkType {type : ScalarType} (htype : c.path.scalarType? = some type)
    (h : c.checkType v = .ok ()) : type.admits v = true := by
  rw [checkType, htype] at h
  dsimp only at h
  split at h
  next hadmits => exact hadmits
  next => contradiction

theorem toFilter_of_bound? (hop : c.operator.bound? = some op) (hvalue : c.value? 0 = some v) :
    c.toFilter = .compare c.path.dotted op v := by
  unfold toFilter toFilterWith
  rw [hvalue]
  cases hoperator : c.operator <;> rw [hoperator] at hop <;> cases hop <;> rfl

theorem eval_toFilter_self {d : Document} (hop : c.operator.bound? = some op)
    (hincluded : op = .lte ∨ op = .gte) (hvalue : c.value? 0 = some v) (hv : v.hasOrder = true)
    (hmem : v ∈ d.lookup c.path.dotted) : c.toFilter.eval d = true := by
  obtain ⟨-, -, heq, hne⟩ := Operator.of_bound? hop
  rw [toFilter_of_bound? hop hvalue, Filter.eval_compare_of_ne heq hne, Filter.ordersAt,
    List.any_eq_true]
  refine ⟨v, Document.mem_candidates (Value.isArray_of_hasOrder hv) hmem, ?_⟩
  rw [Value.compare?_self hv, Option.any_some]
  rcases hincluded with rfl | rfl <;> rfl

theorem eval_toFilter_of_unordered (hop : c.operator.bound? = some op)
    (hvalue : c.value? 0 = some v) (hv : v.hasOrder = false) (d : Document) :
    c.toFilter.eval d = false := by
  obtain ⟨-, -, heq, hne⟩ := Operator.of_bound? hop
  rw [toFilter_of_bound? hop hvalue, Filter.eval_compare_of_ne heq hne, Filter.ordersAt,
    List.any_eq_false]
  intro a _
  rw [Value.compare?_eq_none hv]
  exact Bool.false_ne_true

end Criterion

/-! ### Calls -/

namespace CompiledQuery

variable {sig : Signature} {s : EntitySchema} {q : CompiledQuery} {args : List Argument}
  {maxInSet : Nat} {spec : Specification}

/--
A clause with one bound carries one value. If the value is ordered, then an included bound matches
the documents that hold it, and otherwise the clause matches no document. A property of a type other
than `any` admits values that are not ordered only if they are decimal numbers or timestamps.
-/
theorem exists_bound_of_bind (hquery : sig.query = none) (hcompile : compile sig s = .ok q)
    (h : q.bind args maxInSet = .ok spec) :
    ∀ p, spec.predicate = some p → ∀ c ∈ p.criteria, ∀ op, c.operator.bound? = some op →
      ∃ v, c.values = [.value v] ∧ c.toFilter = .compare c.path.dotted op v
        ∧
      (v.compare? v = some .eq ↔ v.hasOrder = true)
        ∧
      (∀ type, c.path.scalarType? = some type → type ≠ .any →
        v.hasOrder = true ∨ IsUnordered type v)
        ∧
      (v.hasOrder = true → op = .lte ∨ op = .gte →
        ∀ d, v ∈ d.lookup c.path.dotted → c.toFilter.eval d = true)
        ∧
      (v.hasOrder = false → ∀ d, c.toFilter.eval d = false) := by
  intro p hp c hc op hop
  obtain ⟨t, slots, hsource⟩ := exists_derived_of_compile_eq_ok hcompile hquery
  obtain ⟨clause, -, -, -, hleast, hmost, hcheck⟩ :=
    exists_clause_of_mem_criteria hcompile hsource h hp hc
  obtain ⟨hoperand, -, -, -⟩ := Operator.of_bound? hop
  have hchecked := Criterion.checked_of_check hcheck
  rw [Criterion.Checked, hoperand] at hchecked
  obtain ⟨v, hvalue, -, -⟩ := hchecked
  have hlength : c.values.length = 1 := by
    rw [Operator.arity, hoperand] at hleast hmost
    exact Nat.le_antisymm hmost hleast
  obtain ⟨hordered, htype⟩ := Criterion.checkType_of_check hop hvalue hcheck
  refine ⟨v, Criterion.values_eq_of_value? hvalue hlength, Criterion.toFilter_of_bound? hop hvalue,
    Value.compare?_self_iff, ?_, ?_, ?_⟩
  · intro type hdeclared hany
    exact hasOrder_or_isUnordered hany (Criterion.admits_of_checkType hdeclared htype) hordered
  · intro hv hincluded d hmem
    exact Criterion.eval_toFilter_self hop hincluded hvalue hv hmem
  · exact Criterion.eval_toFilter_of_unordered hop hvalue

def offerSchema : EntitySchema :=
  ⟨"Offer", [⟨"price", .scalar .number⟩, ⟨"until", .scalar .date⟩]⟩

def offersAtLeast : Signature where
  entity := "Offer"
  name := "findByPriceGreaterThanEqual"
  params := [.value]

def offersUntil : Signature where
  entity := "Offer"
  name := "findByUntilLessThanEqual"
  params := [.value]

def isBound (operator : Operator) (holds : Criterion → Value → Bool) (spec : Specification) : Bool :=
  isSingle (fun c => c.operator = operator && (c.value? 0).any (holds c)) spec

theorem exists_of_isBound {operator : Operator} {holds : Criterion → Value → Bool}
    {spec : Specification} (h : isBound operator holds spec = true) :
    ∃ p, spec.predicate = some p ∧ ∃ c ∈ p.criteria, c.operator = operator
      ∧ ∃ v, c.value? 0 = some v ∧ holds c v = true := by
  obtain ⟨p, hp, c, hc, hholds⟩ := exists_of_isSingle h
  rw [Bool.and_eq_true, decide_eq_true_iff] at hholds
  obtain ⟨hoperator, hvalue⟩ := hholds
  obtain ⟨v, hv, hholds⟩ := (Option.any_eq_true (holds c) _).mp hvalue
  exact ⟨p, hp, c, hc, hoperator, v, hv, hholds⟩

theorem exists_bound_of_bind_offer :
    ∃ q spec p c v,
      compile offersAtLeast offerSchema = .ok q
        ∧
      q.bind [.value (.int32 5)] 1000 = .ok spec
        ∧
      spec.predicate = some p ∧ c ∈ p.criteria ∧ c.operator.bound? = some .gte
        ∧
      c.values = [.value v] ∧ v.compare? v = some .eq
        ∧
      c.toFilter.eval [("price", v)] = true := by
  have hbinds : binds offersAtLeast offerSchema [.value (.int32 5)] 1000
      (isBound .greaterThanEqual fun c v => c.path.dotted == "price" && v.hasOrder) = true := by
    decide +kernel
  obtain ⟨q, spec, hcompile, hbind, hspec⟩ := exists_of_binds hbinds
  obtain ⟨p, hp, c, hc, hoperator, w, hw, hholds⟩ := exists_of_isBound hspec
  rw [Bool.and_eq_true, beq_iff_eq] at hholds
  have hop : c.operator.bound? = some .gte := congrArg Operator.bound? hoperator
  obtain ⟨v, hvalues, -, hself, -, hmatches, -⟩ :=
    exists_bound_of_bind rfl hcompile hbind p hp c hc .gte hop
  have hvalue : c.value? 0 = some v := by
    rw [Criterion.value?, hvalues]
    rfl
  obtain rfl : w = v := Option.some.inj (hw.symm.trans hvalue)
  refine ⟨q, spec, p, c, w, hcompile, hbind, hp, hc, hop, hvalues, hself.mpr hholds.2, ?_⟩
  apply hmatches hholds.2 (.inr rfl)
  rw [hholds.1]
  exact List.mem_singleton_self w

/--
A call is accepted with a clause whose value does not compare with itself, and that does not match a
document with this value.
-/
def MissesBound (sig : Signature) (s : EntitySchema) (arg : Value) (operator : Operator)
    (path : String) : Prop :=
  ∃ q spec p c v,
    compile sig s = .ok q ∧ q.bind [.value arg] 1000 = .ok spec
      ∧
    spec.predicate = some p ∧ c ∈ p.criteria ∧ c.operator = operator ∧ c.path.dotted = path
      ∧
    c.value? 0 = some v ∧ v.compare? v ≠ some .eq ∧ c.toFilter.eval [(path, v)] = false

theorem missesBound_of_binds {sig : Signature} {s : EntitySchema} {arg : Value}
    {operator : Operator} {path : String}
    (h : binds sig s [.value arg] 1000 (isBound operator fun c v =>
      c.path.dotted == path && !v.hasOrder && !c.toFilter.eval [(path, v)]) = true) :
    MissesBound sig s arg operator path := by
  obtain ⟨q, spec, hcompile, hbind, hspec⟩ := exists_of_binds h
  obtain ⟨p, hp, c, hc, hoperator, v, hv, hholds⟩ := exists_of_isBound hspec
  simp only [Bool.and_eq_true, beq_iff_eq, Bool.not_eq_true'] at hholds
  obtain ⟨⟨hpath, hunordered⟩, hmisses⟩ := hholds
  refine ⟨q, spec, p, c, v, hcompile, hbind, hp, hc, hoperator, hpath, hv, ?_, hmisses⟩
  rw [ne_eq, Value.compare?_self_iff, hunordered]
  exact Bool.false_ne_true

/--
A decimal number is accepted for a property of numbers, and a timestamp for one of dates.
-/
theorem missesBound_offer :
    MissesBound offersAtLeast offerSchema (.decimal (.finite false 5 0)) .greaterThanEqual "price"
      ∧
    MissesBound offersUntil offerSchema (.timestamp 5 1) .lessThanEqual "until" :=
  ⟨missesBound_of_binds (by decide +kernel), missesBound_of_binds (by decide +kernel)⟩

end CompiledQuery
end DerivedQuery
