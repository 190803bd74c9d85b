import DerivedQuery.Method.PartTree

/-!
This module contains the distribution of the parameters of a method over the clauses of its name.
Each clause takes, in order, the parameters that its operator asks for.
-/

namespace DerivedQuery
namespace Slots

abbrev Numbered := Nat × ParameterKind

def numberedFrom (start : Nat) : List ParameterKind → List Numbered
  | [] => []
  | kind :: kinds =>
    if kind.isSpecial then numberedFrom (start + 1) kinds
    else (start, kind) :: numberedFrom (start + 1) kinds

def numbered (sig : Signature) : List Numbered :=
  numberedFrom 0 sig.params

inductive Wanted where
  | value
  | valueOrSequence
  | sequence
  | point
  | area
deriving DecidableEq, Repr

namespace Wanted

def text : Wanted → String
  | .value | .valueOrSequence => "a value"
  | .sequence => "a sequence"
  | .point => "a point"
  | .area => "a circle, box or polygon"

def accepts : Wanted → ParameterKind → Bool
  | .value, kind => kind == .value
  | .valueOrSequence, kind | .sequence, kind => kind == .value || kind == .sequence
  | .point, kind => kind == .point
  | .area, kind => kind.isArea

end Wanted

def wanted (op : Operator) : List Wanted :=
  match op.operand with
  | .none => []
  | .single => [if op == .equals || op == .notEquals then .valueOrSequence else .value]
  | .pair => [.value, .value]
  | .sequence => [.sequence]
  | .point => [.point]
  | .area => [.area]

inductive Failure where
  | missing
  | unfit (parameter : Numbered) (clause : Clause) (wanted : Wanted)

def take (clause : Clause) : List Wanted → List Numbered →
    Except Failure (List Nat × List Numbered)
  | [], left => .ok ([], left)
  | _ :: _, [] => .error .missing
  | w :: ws, p :: left =>
    if w.accepts p.2 then do
      let (taken, left) ← take clause ws left
      return (p.1 :: taken, left)
    else .error (.unfit p clause w)

/--
A distance right behind the point of a search near it belongs to the clause.
-/
def takeDistance (op : Operator) : List Numbered → List Nat × List Numbered
  | (i, .distance) :: left =>
    if op.operand == .point then ([i], left) else ([], (i, .distance) :: left)
  | left => ([], left)

def takeClause (clause : Clause) (left : List Numbered) :
    Except Failure (List Nat × List Numbered) := do
  let (taken, left) ← take clause (wanted clause.operator) left
  let (more, left) := takeDistance clause.operator left
  return (taken ++ more, left)

def takeAll : List Clause → List Numbered → Except Failure (List (List Nat) × List Numbered)
  | [], left => .ok ([], left)
  | clause :: clauses, left => do
    let (slot, left) ← takeClause clause left
    let (slots, left) ← takeAll clauses left
    return (slot :: slots, left)

def required (clauses : List Clause) : Nat :=
  clauses.foldl (fun n clause => n + clause.operator.arity.1) 0

def error (sig : Signature) (t : PartTree) : Failure → QueryError
  | .missing =>
    let actual := sig.valueIndices.length
    .parameterCount sig.name (max (required t.clauses) (actual + 1)) actual
  | .unfit (i, kind) clause wanted =>
    .clauseMismatch sig.name
      (.parameterKind i kind clause.operator clause.path.dotted wanted.text)

def bind (sig : Signature) (t : PartTree) : Except QueryError (List (List Nat)) :=
  match takeAll t.clauses (numbered sig) with
  | .error failure => .error (error sig t failure)
  | .ok (slots, []) => .ok slots
  | .ok (_, left) =>
    let actual := sig.valueIndices.length
    .error (.parameterCount sig.name (actual - left.length) actual)

end Slots
end DerivedQuery
