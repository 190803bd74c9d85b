import DerivedQuery.Geo.Shape
import Mathlib.Algebra.Ring.Parity
import Mathlib.Data.Fintype.Card
import Mathlib.Data.List.Rotate

/-!
This module contains that a polygon has no first point. The walk along its edges stops at the first
one that holds the point and else carries along whether the ray has crossed an odd number of them.
What it finds depends only on how often each edge occurs, and turning the list of points around
turns the list of edges.
-/

namespace DerivedQuery
namespace Shape

variable {points : List Point} {onEdge cross : Point → Point → Bool} {es es' : List (Point × Point)}

/-! ### Edges -/

def edge (points : List Point) (i : Fin points.length) : Point × Point :=
  (points.get i, points.get ⟨(i + 1) % points.length, Nat.mod_lt _ i.pos⟩)

theorem edges_eq_zip_rotate (points : List Point) : edges points = points.zip (points.rotate 1) := by
  cases points with
  | nil => rfl
  | cons p ps => rw [List.rotate_cons_succ, List.rotate_zero, edges]

theorem edges_eq_ofFn (points : List Point) : edges points = List.ofFn (edge points) := by
  rw [edges_eq_zip_rotate]
  apply List.ext_getElem
  · simp
  · intro i _ _
    rw [List.getElem_zip, List.getElem_rotate, List.getElem_ofFn]
    rfl

theorem edges_rotate (points : List Point) (k : Nat) :
    edges (points.rotate k) = (edges points).rotate k := by
  have hnext : (points.rotate k).rotate 1 = (points.rotate 1).rotate k := by
    rw [List.rotate_rotate, List.rotate_rotate, Nat.add_comm]
  rw [edges_eq_zip_rotate, edges_eq_zip_rotate, hnext]
  exact (List.zipWith_rotate_distrib Prod.mk points (points.rotate 1) k
    (List.length_rotate points 1).symm).symm

/-! ### The walk along the edges -/

theorem decide_odd_countP_cons (test : Point × Point → Bool) (e : Point × Point)
    (es : List (Point × Point)) :
    decide (Odd ((e :: es).countP test)) = (test e != decide (Odd (es.countP test))) := by
  rw [List.countP_cons]
  cases test e with
  | true => rw [if_pos rfl, Bool.true_bne, ← decide_not, decide_eq_decide, Nat.odd_add_one]
  | false => rw [if_neg Bool.false_ne_true, Bool.false_bne, Nat.add_zero]

/--
The walk is cut short only by an edge that decides it, so that all crossings of a walk that goes to
the end count.
-/
theorem insideEdges_eq (onEdge cross : Point → Point → Bool) (inside : Bool)
    (es : List (Point × Point)) :
    insideEdges onEdge cross inside es
      =
    (es.any (fun e => onEdge e.1 e.2)
      || (inside != decide (Odd (es.countP fun e => cross e.1 e.2)))) := by
  induction es generalizing inside with
  | nil => simp [insideEdges]
  | cons e es ih =>
    obtain ⟨a, b⟩ := e
    rw [insideEdges, List.any_cons, decide_odd_countP_cons]
    cases onEdge a b with
    | true => rfl
    | false =>
      -- the crossing may be added to the side at the start or to the parity of the rest
      rw [if_neg Bool.false_ne_true, ih, Bool.false_or, Bool.bne_assoc]

theorem insideEdges_of_perm (inside : Bool) (h : es.Perm es') :
    insideEdges onEdge cross inside es = insideEdges onEdge cross inside es' := by
  rw [insideEdges_eq, insideEdges_eq, h.any_eq, h.countP_eq]

theorem insideEdges_rotate (onEdge cross : Point → Point → Bool) (inside : Bool)
    (points : List Point) (k : Nat) :
    insideEdges onEdge cross inside (edges (points.rotate k))
      =
    insideEdges onEdge cross inside (edges points) := by
  rw [edges_rotate]
  exact insideEdges_of_perm inside (List.rotate_perm (edges points) k)

/-! ### Points inside -/

def IsEnclosed (onEdge cross : Point → Point → Bool) (points : List Point) : Prop :=
  (∃ i, onEdge (edge points i).1 (edge points i).2 = true)
    ∨ Odd (Finset.univ.filter fun i => cross (edge points i).1 (edge points i).2 = true).card

theorem countP_edges (test : Point × Point → Bool) :
    (edges points).countP test = (Finset.univ.filter fun i => test (edge points i) = true).card := by
  rw [edges_eq_ofFn, List.ofFn_eq_map, List.countP_map, List.countP_eq_length_filter, Fin.univ_def]
  simp [Finset.card, Finset.filter, Function.comp_def]

theorem insideEdges_iff_isEnclosed :
    insideEdges onEdge cross false (edges points) = true ↔ IsEnclosed onEdge cross points := by
  rw [insideEdges_eq, countP_edges, Bool.or_eq_true, edges_eq_ofFn, List.any_eq_true]
  simp [IsEnclosed, List.mem_ofFn]

/--
Turning the list of points of a polygon around changes nothing about what it contains. A point is
inside iff it lies on an edge or the ray from it crosses an odd number of edges, one for each place
of the list. Nothing about the two tests of an edge matters for this.
-/
theorem contains_polygon_rotate (points : List Point) (k : Nat) (p : Point) :
    (polygon (points.rotate k)).contains p = (polygon points).contains p
      ∧ ((polygon points).contains p = true ↔
          IsEnclosed (onSegment · · p) (crosses · · p) points)
      ∧ ∀ onEdge cross : Point → Point → Point → Bool,
          insideEdges (onEdge · · p) (cross · · p) false (edges (points.rotate k))
            = insideEdges (onEdge · · p) (cross · · p) false (edges points) := by
  refine ⟨?turned, insideEdges_iff_isEnclosed, ?given⟩
  case turned => exact insideEdges_rotate (onSegment · · p) (crosses · · p) false points k
  case given =>
    intro onEdge cross
    exact insideEdges_rotate (onEdge · · p) (cross · · p) false points k

-- A star drawn in one stroke goes around its middle twice, which leaves the middle outside.
example : (polygon [⟨0, 3⟩, ⟨2, -3⟩, ⟨-3, 1⟩, ⟨3, 1⟩, ⟨-2, -3⟩]).contains ⟨0, 0⟩ = false := by
  decide +kernel

end Shape
end DerivedQuery
