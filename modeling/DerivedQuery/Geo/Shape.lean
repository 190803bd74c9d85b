import DerivedQuery.Error
import DerivedQuery.Geo.Distance

/-!
This module contains the shapes that points are searched in.
-/

namespace DerivedQuery

inductive Shape where
  | circle (center : Point) (radius : Float)
  /-- The box between two opposite corners. -/
  | box (first second : Point)
  | polygon (points : List Point)
  | near (center : Point) (maxDistance : Option Distance)
deriving Repr

namespace Shape

def name : Shape → String
  | .circle .. => "Circle"
  | .box .. => "Box"
  | .polygon .. => "Polygon"
  | .near .. => "Near"

/-! ### Straight lines -/

/--
The sine of the greatest angle that still counts as straight.
-/
def straightTolerance : Float := 1e-9

def collinear (a b c : Point) : Bool :=
  let abx := b.x - a.x
  let aby := b.y - a.y
  let acx := c.x - a.x
  let acy := c.y - a.y
  let cross := abx * acy - aby * acx
  cross.abs ≤ straightTolerance * Float64.length abx aby * Float64.length acx acy

def between (low high x : Float) : Bool :=
  low ≤ x && x ≤ high

def inBox (a b p : Point) : Bool :=
  between (Float64.least a.x b.x) (Float64.greatest a.x b.x) p.x &&
    between (Float64.least a.y b.y) (Float64.greatest a.y b.y) p.y

def onSegment (a b p : Point) : Bool :=
  collinear a b p && inBox a b p

/-! ### Polygons -/

/--
The ray from `p` in the direction of greater `x` crosses the edge from `a` to `b`.
-/
def crosses (a b p : Point) : Bool :=
  (decide (a.y > p.y) != decide (b.y > p.y)) &&
    p.x < (b.x - a.x) * (p.y - a.y) / (b.y - a.y) + a.x

/--
The edges of a polygon, the last of which leads back to the first point.
-/
def edges : List Point → List (Point × Point)
  | [] => []
  | p :: ps => (p :: ps).zip (ps ++ [p])

/--
A point on an edge is inside. Else it is inside if the ray crosses an odd number of edges.
-/
def insideEdges (onEdge cross : Point → Point → Bool) : (inside : Bool) →
    List (Point × Point) → Bool
  | inside, [] => inside
  | inside, (a, b) :: rest =>
    if onEdge a b then true else insideEdges onEdge cross (inside != cross a b) rest

def inPolygon (points : List Point) (p : Point) : Bool :=
  insideEdges (onSegment · · p) (crosses · · p) false (edges points)

def isDegenerate : List Point → Bool
  | [] => true
  | a :: rest =>
    match rest.find? fun p => !p.same a with
    | none => true
    | some b => rest.all fun c => collinear a b c

/-! ### Shapes -/

def validate : Shape → Except GeometryFault Unit
  | .circle center radius =>
    if !center.isFinite || !radius.isFinite || radius < 0.0 then .error (.circle radius)
    else .ok ()
  | .box first second =>
    if !first.isFinite || !second.isFinite then .error .boxCorner else .ok ()
  | .polygon points =>
    if points.length < 3 then .error (.tooFewVertices points.length)
    else if points.any (fun p => !p.isFinite) || isDegenerate points then
      .error .collinearVertices
    else .ok ()
  | .near center maxDistance =>
    if !center.isFinite then .error .nearPoint
    else
      match maxDistance with
      | none => .ok ()
      | some d => if d.isValid then .ok () else .error (.maxDistance d.value)

def contains (s : Shape) (p : Point) : Bool :=
  match s with
  | .circle center radius => Float64.length (p.x - center.x) (p.y - center.y) ≤ radius
  | .box first second => inBox first second p
  | .polygon points => inPolygon points p
  | .near _ none => true
  | .near center (some d) => Distance.between center p d.metric ≤ d.value

def toDocument : Shape → Document
  | .circle center radius =>
    [("$within", .document [("$center", .array [center.toValue, .double radius])])]
  | .box first second =>
    [("$within", .document [("$box", .array [first.toValue, second.toValue])])]
  | .polygon points =>
    [("$within", .document [("$polygon", .array (points.map Point.toValue))])]
  | .near center none => [("$near", center.toValue)]
  | .near center (some d) =>
    [(if d.metric.isSpherical then "$nearSphere" else "$near", center.toValue),
      ("$maxDistance", .double d.normalized)]

end Shape
end DerivedQuery
