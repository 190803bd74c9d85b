import DerivedQuery.Proofs.Method.PartTree
import DerivedQuery.Proofs.Method.Readings
import DerivedQuery.Proofs.Query.Compiled

/-!
This module contains how the compilation of a declared method can fail: with an error about the
declaration only, which names the method. What is wrong with the texts of a template is wrapped in
such an error.
-/

namespace DerivedQuery

namespace QueryError

def IsRefusalOf (method : String) : QueryError → Prop
  | .malformedName name _ | .unresolvedProperty name _ _ | .ambiguousProperty name _ _
  | .unsupportedOperator name _ _ | .parameterCount name _ _ | .clauseMismatch name _
  | .ranking name _ => name = method
  | _ => False

def Names (method : String) (e : QueryError) : Prop :=
  ∃ lead ∈ ["Malformed query method `", "Query method `"], ∃ reason,
    e.message = lead ++ method ++ "`: " ++ reason

theorem IsRefusalOf.isCompileError {method : String} {e : QueryError} (h : e.IsRefusalOf method) :
    e.isCompileError = true := by
  cases e with
  | malformedName | unresolvedProperty | ambiguousProperty | unsupportedOperator | parameterCount
  | clauseMismatch | ranking => rfl
  | _ => exact h.elim

theorem IsRefusalOf.names {method : String} {e : QueryError} (h : e.IsRefusalOf method) :
    e.Names method := by
  have hlead : "Query method `" ∈ ["Malformed query method `", "Query method `"] := by simp
  cases e with
  | malformedName _ fault =>
    cases h
    exact ⟨"Malformed query method `", List.mem_cons_self, fault.text, rfl⟩
  | unresolvedProperty _ entity token =>
    cases h
    refine ⟨_, hlead, "no property `" ++ token ++ "` on entity `" ++ entity ++ "`", ?_⟩
    have hsplit : "`: no property `" = "`: " ++ "no property `" := by decide
    unfold message
    simp only [hsplit, String.append_assoc]
  | ambiguousProperty _ token candidates =>
    cases h
    refine ⟨_, hlead, "property token `" ++ token ++ "` is ambiguous between " ++
      Text.quotedList candidates, ?_⟩
    have hsplit : "`: property token `" = "`: " ++ "property token `" := by decide
    unfold message
    simp only [hsplit, String.append_assoc]
  | unsupportedOperator _ operator fault =>
    cases h
    refine ⟨_, hlead, "unsupported operator `" ++ operator ++ "`: " ++ fault.text, ?_⟩
    have hsplit : "`: unsupported operator `" = "`: " ++ "unsupported operator `" := by decide
    unfold message
    simp only [hsplit, String.append_assoc]
  | parameterCount _ expected actual =>
    cases h
    refine ⟨_, hlead, "expected " ++ toString expected ++ " parameter(s), got " ++
      toString actual, ?_⟩
    have hsplit : "`: expected " = "`: " ++ "expected " := by decide
    unfold message
    simp only [hsplit, String.append_assoc]
  | clauseMismatch _ fault =>
    cases h
    exact ⟨_, hlead, fault.text, rfl⟩
  | ranking _ fault =>
    cases h
    refine ⟨_, hlead, "invalid geospatial query shape: " ++ fault.text, ?_⟩
    have hsplit : "`: invalid geospatial query shape: "
      = "`: " ++ "invalid geospatial query shape: " := by decide
    unfold message
    simp only [hsplit, String.append_assoc]
  | _ => exact h.elim

end QueryError

open QueryError (IsRefusalOf)

/-! ### Paths -/

namespace PropertyPath

variable (s : EntitySchema) (method : String)

theorem raises_resolve (token : List Char) :
    Raises (IsRefusalOf method) (resolve s token method) := by
  unfold resolve
  split
  · exact raises_ok _
  · exact raises_error rfl
  · exact raises_error rfl

theorem raises_resolveDotted (dotted : String) :
    Raises (IsRefusalOf method) (resolveDotted s dotted method) := by
  unfold resolveDotted
  split
  · exact raises_ok _
  · exact raises_error rfl

end PropertyPath

/-! ### Clauses -/

namespace Clause

variable (s : EntitySchema) (method : String)

theorem isRefusalOf_noReading (body : List Char) :
    (noReading s method body).IsRefusalOf method := by
  unfold noReading
  dsimp only
  split
  · split <;> rfl
  · rfl

theorem raises_resolve (body : List Char) :
    Raises (IsRefusalOf method) (resolve s method body) := by
  intro e he
  obtain ⟨-, hnone⟩ | ⟨property, keyword, op, -, hanswer⟩ := resolve_cases s method body
  · rw [hnone] at he
    cases he
    exact isRefusalOf_noReading s method body
  · rw [he, answer_eq_error_iff] at hanswer
    obtain ⟨candidates, -, rfl⟩ := hanswer
    rfl

variable {s}

theorem raises_checkIgnoreCase (path : PropertyPath) (op : Operator) (ignoring : Option String) :
    Raises (IsRefusalOf method) (checkIgnoreCase method path op ignoring) := by
  unfold checkIgnoreCase
  split
  · exact raises_ok ()
  · split
    · exact raises_ok ()
    · exact raises_error rfl

theorem raises_check (path : PropertyPath) (op : Operator) (ignoring : Option String) :
    Raises (IsRefusalOf method) (check method path op ignoring) := by
  refine Raises.bind (raises_ite rfl) fun _ => ?_
  refine Raises.bind (raises_checkIgnoreCase method path op ignoring) fun _ => ?_
  exact Raises.bind (raises_ite rfl) fun _ => raises_ite rfl

theorem raises_read (s : EntitySchema) (all : Bool) (fragment : List Char) :
    Raises (IsRefusalOf method) (read s method all fragment) := by
  refine Raises.bind (raises_resolve s method _) fun _ => ?_
  exact Raises.bind (raises_check method _ _ _) fun _ => raises_ok _

end Clause

/-! ### Names -/

namespace PartTree

theorem raises_readVerb (name : List Char) :
    Raises (IsRefusalOf (String.ofList name)) (readVerb name) := by
  unfold readVerb
  split
  · exact raises_error rfl
  · split
    · exact raises_ok _
    · exact raises_error rfl

theorem raises_readSubject (name : String) (kind : QueryKind) (subject : List Char) :
    Raises (IsRefusalOf name) (readSubject name kind subject) := by
  unfold readSubject
  split
  · exact raises_error rfl
  · split
    next => exact raises_ok none
    next keyword rest _ =>
      dsimp only
      generalize (if (rest.takeWhile Char.isDigit).isEmpty then 1
        else Text.natOfDigits (rest.takeWhile Char.isDigit)) = limit
      split_ifs
      · exact raises_error rfl
      · exact raises_error rfl
      · exact raises_error rfl
      · exact raises_ok _

variable (s : EntitySchema) (method : String)

theorem raises_readFragment (all : Bool) (fragment : List Char) :
    Raises (IsRefusalOf method) (readFragment s method all fragment) := by
  unfold readFragment
  split
  · exact raises_error rfl
  · exact Clause.raises_read method s all fragment

theorem raises_readGroups (ordered : Bool) (predicate : List Char) (ending : Option String) :
    Raises (IsRefusalOf method) (readGroups s method ordered predicate ending) := by
  unfold readGroups
  split
  · exact raises_ok []
  · exact raises_mapM (fun _ => raises_mapM (raises_readFragment s method _) _) _

theorem raises_readOrder (order : Option (List Char)) :
    Raises (IsRefusalOf method) (readOrder s method order) := by
  unfold readOrder
  split
  · exact raises_ok []
  · split
    · exact raises_error rfl
    · refine raises_mapM (fun item => ?_) _
      exact (PropertyPath.raises_resolve s method item.token).bind fun path => raises_ok _

theorem raises_read :
    Raises (IsRefusalOf (MethodName.normalize method)) (read method s) := by
  unfold read MethodName.normalize
  refine (raises_readVerb _).bind fun (verb, kind, rest) => ?_
  dsimp only
  split
  · exact raises_error rfl
  · refine (raises_readSubject _ kind _).bind fun limit => ?_
    split
    · exact raises_error rfl
    · refine (raises_readGroups s _ _ _ _).bind fun groups => ?_
      exact (raises_readOrder s _ _).bind fun orderBy => raises_ok _

end PartTree

/-! ### Templates -/

namespace Template

theorem raises_checkQuery (method query : String) :
    Raises (IsRefusalOf method) ((checkQuery query).mapError
      fun fault => .malformedName method (.queryTemplate fault)) := by
  apply raises_mapError
  intro fault
  rfl

theorem raises_readFields (method text : String) :
    Raises (IsRefusalOf method) ((readFields text).mapError (.malformedName method)) := by
  apply raises_mapError
  intro fault
  rfl

theorem raises_compile (method query : String) (fields : Option String) (count : Nat) :
    Raises (IsRefusalOf method) (compile method query fields count) := by
  unfold compile
  generalize Quotes.normalize query = query
  dsimp only
  split
  on_goal 1 => split
  · exact raises_error rfl
  all_goals
    refine (raises_checkQuery method query).bind fun _ => ?_
    cases fields with
    | none => exact raises_ok _
    | some text => exact (raises_readFields method text).bind fun _ => raises_ok _

end Template

/-! ### Methods -/

theorem Slots.raises_bind (sig : Signature) (t : PartTree) :
    Raises (IsRefusalOf sig.name) (bind sig t) := by
  unfold bind
  split
  next failure _ => exact raises_error (by cases failure <;> rfl)
  next => exact raises_ok _
  next => exact raises_error rfl

namespace CompiledQuery

variable (sig : Signature) (s : EntitySchema)

theorem raises_special (kind : ParameterKind) :
    Raises (IsRefusalOf sig.name) (special sig kind) :=
  raises_ite rfl

theorem raises_projectedField (field : String) :
    Raises (IsRefusalOf sig.name) (projectedField sig s field) := by
  unfold projectedField
  split
  · exact (PropertyPath.raises_resolveDotted s sig.name field).bind fun _ => raises_ok _
  · exact (PropertyPath.raises_resolve s sig.name field.toList).bind fun _ => raises_ok _

theorem raises_resolveProjection : Raises (IsRefusalOf sig.name) (resolveProjection sig s) := by
  unfold resolveProjection
  split
  · exact raises_ok none
  · split
    · exact raises_error rfl
    · exact (raises_mapM (raises_projectedField sig s) _).bind fun _ => raises_ok _

theorem raises_resultShape (kind : QueryKind) :
    Raises (IsRefusalOf sig.name) (resultShape sig kind) := by
  unfold resultShape
  split
  · exact raises_ok _
  · split
    · exact raises_ok _
    · exact raises_error rfl

theorem raises_checkRanking (t : PartTree) (slots : List (List Nat)) (shape : ResultShape) :
    Raises (IsRefusalOf sig.name) (checkRanking sig t slots shape) := by
  unfold checkRanking
  dsimp only
  split_ifs
  · exact raises_error rfl
  · exact raises_error rfl
  · exact raises_error rfl
  · exact raises_ok ()

theorem raises_compileExplicit (query : String) :
    Raises (IsRefusalOf sig.name) (compileExplicit sig s query) := by
  refine (Template.raises_compile _ _ _ _).bind fun template => ?_
  refine (raises_resultShape sig _).bind fun shape => ?_
  split
  · exact raises_error rfl
  · exact raises_ok _

def IsRefused (e : QueryError) : Prop :=
  e.IsRefusalOf sig.name ∨ e.IsRefusalOf (MethodName.normalize sig.name)

theorem raises_compileDerived : Raises (IsRefused sig) (compileDerived sig s) := by
  refine ((PartTree.raises_read s sig.name).imp fun _ => .inr).bind fun t => ?_
  refine Raises.imp ?_ fun _ => .inl
  split
  · exact raises_error rfl
  · refine (raises_resultShape sig t.kind).bind fun shape => ?_
    refine (Slots.raises_bind sig t).bind fun slots => ?_
    exact (raises_checkRanking sig t slots shape).bind fun _ => raises_ok _

theorem raises_compile : Raises (IsRefused sig) (compile sig s) := by
  have hpaged (shape : ResultShape) (page : Option Nat) (q : CompiledQuery) :
      Raises (IsRefused sig)
        (if shape.isPaged && page.isNone then .error (.clauseMismatch sig.name (.pageMissing shape))
          else .ok q) := raises_ite (.inl rfl)
  refine ((raises_special sig .sort).imp fun _ => .inl).bind fun sortParameter => ?_
  refine ((raises_special sig .page).imp fun _ => .inl).bind fun pageParameter => ?_
  refine ((raises_resolveProjection sig s).imp fun _ => .inl).bind fun projection => ?_
  cases sig.query with
  | none => exact (raises_compileDerived sig s).bind fun _ => hpaged _ _ _
  | some query =>
    exact ((raises_compileExplicit sig s query).imp fun _ => .inl).bind fun _ => hpaged _ _ _

variable {sig s}

/--
A method that does not compile is refused with an error of compilation, whatever its name,
parameters, projection and texts are, and the message names the method.
-/
theorem isCompileError_of_compile_eq_error {e : QueryError} (h : compile sig s = .error e) :
    e.isCompileError = true ∧ (e.Names sig.name ∨ e.Names (MethodName.normalize sig.name)) := by
  obtain hdeclared | hread := raises_compile sig s e h
  · exact ⟨hdeclared.isCompileError, .inl hdeclared.names⟩
  · exact ⟨hread.isCompileError, .inr hread.names⟩

def listedFields : Signature where
  name := "findNamed"
  params := [.value]
  query := some "\x7b 'lastname': ?0 \x7d"
  fields := some "['age']"

theorem isCompileError_of_compile_eq_error_person :
    ∃ e,
      compile listedFields PartTree.person = .error e
        ∧
      e.isCompileError = true
        ∧
      (e.Names "findNamed" ∨ e.Names (MethodName.normalize "findNamed")) := by
  have hcompile : (compile listedFields PartTree.person).toOption.isSome = false := by
    decide +kernel
  cases h : compile listedFields PartTree.person with
  | ok q =>
    rw [h] at hcompile
    contradiction
  | error e => exact ⟨e, rfl, isCompileError_of_compile_eq_error h⟩

end CompiledQuery
end DerivedQuery
