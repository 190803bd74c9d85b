import DerivedQuery.Proofs.Decimal.Quotient
import DerivedQuery.Proofs.Filter.Merging

/-!
This module contains that a filter that is read from the query document of another one means the
same.
-/

namespace DerivedQuery
namespace Filter

mutual

/--
The query document says no more than the filter: no path looks like an operator, no value that is
compared for equality like operators, and a distance has no unit.
-/
def Renderable : Filter → Prop
  | .all => True
  | .and filters => RenderableAll filters
  | .or filters => RenderableAll filters
  | .not filter => Renderable filter
  | .exists_ path _ => isOperatorName path = false
  | .in_ path _ => isOperatorName path = false
  | .notIn path _ => isOperatorName path = false
  | .compare path op value =>
    isOperatorName path = false
      ∧ (op = .eq → ∀ d, value = .document d → Document.isOperators d = false)
  | .pattern path _ _ => isOperatorName path = false
  | .geo path shape =>
    isOperatorName path = false
      ∧ ∀ center distance, shape = .near center (some distance) → distance.metric = .neutral

def RenderableAll : List Filter → Prop
  | [] => True
  | f :: fs => Renderable f ∧ RenderableAll fs

end

/-! ### Operands -/

theorem point_toValue (operator : String) (p : Point) : point operator p.toValue = .ok p := by
  rfl

theorem mapM_point_map_toValue (operator : String) (points : List Point) :
    (points.map Point.toValue).mapM (point operator) = .ok points := by
  rw [mapM_eq_ok_iff, List.forall₂_map_left_iff, List.forall₂_same]
  intro p _
  exact point_toValue operator p

theorem area_circle (center : Point) (radius : Float) :
    area (.document [("$center", .array [center.toValue, .double radius])])
      =
    .ok (.circle center radius) := by
  rfl

theorem area_box (first second : Point) :
    area (.document [("$box", .array [first.toValue, second.toValue])])
      =
    .ok (.box first second) := by
  rfl

theorem area_polygon (points : List Point) :
    area (.document [("$polygon", .array (points.map Point.toValue))]) = .ok (.polygon points) := by
  change ((points.map Point.toValue).mapM (point "$polygon") >>= fun points =>
    .ok (Shape.polygon points)) = _
  rw [mapM_point_map_toValue]
  rfl

theorem ofSymbol?_symbol (op : Comparison) : Comparison.ofSymbol? op.symbol = some op := by
  cases op <;> decide

theorem normalized_of_neutral {d : Distance} (h : d.metric = .neutral) :
    (⟨d.normalized, .neutral⟩ : Distance) = d := by
  obtain ⟨value, metric⟩ := d
  dsimp only at h
  subst h
  unfold Distance.normalized
  rw [Metric.multiplier, Float64.div_one]

/-! ### Leaves -/

theorem operatorsMean_of_reads {path : String} {ops : Document} {f : Filter} {P : Meaning}
    (hclosed : IsClosed ops.keys) (hread : ofOperators path (FieldContext.of ops) ops = .ok [f])
    (hP : ∀ d, eval d f = P d) : OperatorsMean path ops P := by
  refine ⟨hclosed, [f], hread, ?_⟩
  intro d
  rw [evalAll_singleton, hP]

theorem operatorsMean_singleton {path name : String} {value : Value} {f : Filter} {P : Meaning}
    (hname : IsClosed [name]) (hread : ∀ context, ofOperator path context name value = .ok [f])
    (hP : ∀ d, eval d f = P d) : OperatorsMean path [(name, value)] P := by
  apply operatorsMean_of_reads (f := f)
  · exact hname
  · rw [ofOperators_cons, hread]
    rfl
  · exact hP

theorem operator_symbol (path : String) (context : FieldContext) (op : Comparison) (value : Value) :
    operator path context op.symbol value = .ok [.compare path op value] := by
  unfold operator
  rw [ofSymbol?_symbol]

theorem compare_means {path : String} {op : Comparison} (value : Value) :
    OperatorsMean path [(op.symbol, value)] fun d => eval d (.compare path op value) := by
  apply operatorsMean_singleton (f := .compare path op value)
  · cases op <;> decide
  · intro context
    have hne : op.symbol ≠ "$not" := by cases op <;> decide
    rw [ofOperator, if_neg hne, operator_symbol]
  · intro d
    rfl

theorem pattern_means (path text : String) (ignoreCase : Bool) :
    OperatorsMean path
      (("$regex", .string text) :: if ignoreCase then [("$options", .string "i")] else [])
      fun d => eval d (.pattern path text ignoreCase) := by
  cases ignoreCase with
  | false =>
    have hclosed : IsClosed ["$regex"] := by decide
    apply operatorsMean_of_reads (f := .pattern path text false)
    · exact hclosed
    · rfl
    · intro d
      rfl
  | true =>
    have hclosed : IsClosed ["$regex", "$options"] := by decide
    apply operatorsMean_of_reads (f := .pattern path text true)
    · exact hclosed
    · rfl
    · intro d
      rfl

theorem within_means {path : String} {value : Value} {shape : Shape}
    (harea : area value = .ok shape) :
    OperatorsMean path [("$within", value)] fun d => eval d (.geo path shape) := by
  apply operatorsMean_singleton (f := .geo path shape)
  · decide
  · intro context
    change (area value >>= fun shape => .ok [Filter.geo path shape]) = _
    rw [harea]
    rfl
  · intro d
    rfl

theorem near_means (path : String) (center : Point) {maxDistance : Option Distance}
    (h : ∀ distance, maxDistance = some distance → distance.metric = .neutral) :
    OperatorsMean path (Shape.near center maxDistance).toDocument
      fun d => eval d (.geo path (.near center maxDistance)) := by
  cases maxDistance with
  | none =>
    have hclosed : IsClosed ["$near"] := by decide
    apply operatorsMean_of_reads (f := .geo path (.near center none))
    · exact hclosed
    · rfl
    · intro d
      rfl
  | some distance =>
    have hneutral := h distance rfl
    have hdocument : (Shape.near center (some distance)).toDocument
        = [("$near", center.toValue), ("$maxDistance", .double distance.normalized)] := by
      rw [Shape.toDocument, hneutral]
      rfl
    have hclosed : IsClosed ["$near", "$maxDistance"] := by decide
    rw [hdocument]
    apply operatorsMean_of_reads
      (f := .geo path (.near center (some ⟨distance.normalized, .neutral⟩)))
    · exact hclosed
    · rfl
    · intro d
      rw [normalized_of_neutral hneutral]

theorem shape_means {path : String} {shape : Shape}
    (h : ∀ center distance, shape = .near center (some distance) → distance.metric = .neutral) :
    OperatorsMean path shape.toDocument fun d => eval d (.geo path shape) := by
  cases shape with
  | circle center radius => exact within_means (area_circle center radius)
  | box first second => exact within_means (area_box first second)
  | polygon points => exact within_means (area_polygon points)
  | near center maxDistance =>
    apply near_means
    intro distance hdistance
    rw [hdistance] at h
    exact h center distance rfl

/-! ### Filters -/

theorem documentMeans_of_operators {path : String} {ops : Document} {P : Meaning}
    (hpath : isOperatorName path = false) (h : OperatorsMean path ops P) :
    DocumentMeans [(path, .document ops)] P := by
  apply documentMeans_singleton
  exact .operators hpath h

theorem equal_means {path : String} {value : Value} (hpath : isOperatorName path = false)
    (hvalue : ∀ d, value = .document d → Document.isOperators d = false) :
    DocumentMeans [(path, value)] fun d => eval d (.compare path .eq value) := by
  -- equality is written as the bare value, so nothing may be added to the field
  apply documentMeans_singleton
  apply FieldMeans.other (f := .compare path .eq value) hvalue
  · rw [ofEntry_of_plain value hpath]
    unfold ofField
    split
    next ops =>
      rw [if_neg]
      rw [hvalue ops rfl]
      simp
    next => rfl
  · intro d
    rfl

theorem or_means {fs : List Filter} {docs : List Document} (h : DocumentsMean fs docs) :
    DocumentMeans [("$or", .array (docs.map .document))] fun d => eval d (.or fs) := by
  obtain ⟨gs, hgs, hevals⟩ := exists_ofBranchList "$or" h
  apply documentMeans_of_branches (f := .or gs)
  · rw [ofEntry_or, hgs]
    rfl
  · intro d
    rw [eval, eval, evalAny_congr hevals]

theorem not_means {f : Filter} {q : Document} (h : DocumentMeans q fun d => eval d f) :
    DocumentMeans [("$nor", .array [.document q])] fun d => eval d (.not f) := by
  obtain ⟨gs, hgs, hevals⟩ := exists_ofBranchList "$nor" (.cons h .nil : DocumentsMean [f] [q])
  cases hevals with
  | @cons _ g _ _ heval hrest =>
    cases hrest
    apply documentMeans_of_branches (f := .not g)
    · rw [List.map_cons, List.map_nil] at hgs
      rw [ofEntry_nor, hgs]
      rfl
    · intro d
      rw [eval, eval, heval]

mutual

theorem toDocument_means {f : Filter} (h : f.Renderable) :
    DocumentMeans f.toDocument fun d => eval d f := by
  cases f with
  | all => exact .nil
  | and filters =>
    rw [toDocument]
    apply (merged_means (toDocuments_means h)).congr
    intro d
    rw [eval]
  | or filters => exact or_means (toDocuments_means h)
  | not filter => exact not_means (toDocument_means h)
  | exists_ path expected =>
    apply documentMeans_of_operators h
    exact operatorsMean_singleton (by decide) (fun _ => rfl) (fun _ => rfl)
  | in_ path values =>
    apply documentMeans_of_operators h
    exact operatorsMean_singleton (by decide) (fun _ => rfl) (fun _ => rfl)
  | notIn path values =>
    apply documentMeans_of_operators h
    exact operatorsMean_singleton (by decide) (fun _ => rfl) (fun _ => rfl)
  | compare path op value =>
    by_cases hop : op = .eq
    · subst hop
      exact equal_means h.1 (h.2 rfl)
    · rw [toDocument]
      · exact documentMeans_of_operators h.1 (compare_means value)
      · exact hop
  | pattern path text ignoreCase => exact documentMeans_of_operators h (pattern_means path text _)
  | geo path shape => exact documentMeans_of_operators h.1 (shape_means h.2)

theorem toDocuments_means {fs : List Filter} (h : RenderableAll fs) :
    DocumentsMean fs (toDocuments fs) := by
  cases fs with
  | nil => exact .nil
  | cons f fs => exact .cons (toDocument_means h.1) (toDocuments_means h.2)

end

/--
The query document of a filter is read as a filter that the same documents meet.
-/
theorem ofDocument_toDocument {f : Filter} (h : f.Renderable) :
    ∃ g, ofDocument f.toDocument = .ok g ∧ ∀ d, eval d g = eval d f := by
  obtain ⟨fs, hfs, heval⟩ := (toDocument_means h).reads
  refine ⟨conjoin fs, ?_, ?_⟩
  · rw [ofDocument, hfs]
    rfl
  · intro d
    rw [eval_conjoin, heval]

def adults : Filter :=
  .and [
    .compare "age" .gt (.int32 20),
    .or [],
    .compare "age" .lt (.int32 40),
    .not (.and [.pattern "name" "^da" true, .exists_ "name" true]),
    .and [.geo "place" (.near ⟨1.5, 2.5⟩ (some ⟨3.0, .neutral⟩)), .compare "age" .eq .null]]

theorem ofDocument_toDocument_adults :
    adults.Renderable
      ∧
    ∃ g, ofDocument adults.toDocument = .ok g ∧ ∀ d, eval d g = eval d adults := by
  have hrenderable : adults.Renderable := by
    simp [adults, Renderable, RenderableAll, isOperatorName]
  exact ⟨hrenderable, ofDocument_toDocument hrenderable⟩

end Filter
end DerivedQuery
