import DerivedQuery.Decimal.Binary64
import DerivedQuery.Geo.Point

/-!
This module contains distances, in the plane and on the surface of the earth.
-/

namespace DerivedQuery

/--
The unit of a distance. A neutral distance lies in the plane of the coordinates.
-/
inductive Metric where
  | neutral
  | kilometers
  | miles
deriving DecidableEq, Repr

namespace Metric

def all : List Metric :=
  [.neutral, .kilometers, .miles]

def name : Metric → String
  | .neutral => "Neutral"
  | .kilometers => "Kilometers"
  | .miles => "Miles"

/--
The radius of the earth in the unit.
-/
def multiplier : Metric → Float
  | .neutral => 1.0
  | .kilometers => 6378.137
  | .miles => 3963.191

def isSpherical : Metric → Bool
  | .neutral => false
  | _ => true

end Metric

structure Distance where
  value : Float
  metric : Metric
deriving Repr

namespace Distance

/--
The distance as stores measure it: in radians on the sphere.
-/
def normalized (d : Distance) : Float :=
  d.value / d.metric.multiplier

def isValid (d : Distance) : Bool :=
  d.value.isFinite && 0.0 ≤ d.value

def radians (degrees : Float) : Float :=
  degrees * (3.14159265358979323846 / 180.0)

def square (x : Float) : Float :=
  x * x

def centralAngle (a b : Point) : Float :=
  let latA := radians a.y
  let latB := radians b.y
  let dlat := latB - latA
  let dlng := radians (b.x - a.x)
  let h := square (dlat / 2.0).sin + latA.cos * latB.cos * square (dlng / 2.0).sin
  2.0 * (Float64.least h.sqrt 1.0).asin

def between (a b : Point) (metric : Metric) : Float :=
  if metric.isSpherical then centralAngle a b * metric.multiplier
  else Float64.length (a.x - b.x) (a.y - b.y)

end Distance
end DerivedQuery
