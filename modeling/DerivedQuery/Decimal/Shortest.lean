import DerivedQuery.Decimal.Binary64

/-!
This module contains the decimal digits of a double: the fewest digits that read back as the same
double, the nearest of those, and a fixed number of digits rounded once.
-/

namespace DerivedQuery

structure Digits where
  digits : Nat
  place : Int
deriving DecidableEq, Repr

namespace Digits

def text (d : Digits) : List Char :=
  (toString d.digits).toList

def leading (d : Digits) : Int :=
  d.place + (d.text.length : Int) - 1

def leadingOf (num den : Nat) : Int :=
  if den ≤ num then ((toString (num / den)).length : Int) - 1
  else -((toString ((den - 1) / num)).length : Int)

def scaled (num den : Nat) (place : Int) : Nat × Nat :=
  if 0 ≤ place then (num, den * Nat.pow 10 place.toNat) else (num * Nat.pow 10 (-place).toNat, den)

/--
The numbers that read back as a double: those between `low` and `high` over `den`, the ends
included if `closed`.
-/
structure Interval where
  low : Nat
  value : Nat
  high : Nat
  den : Nat
  closed : Bool

namespace Interval

/--
Half the distance to the neighbour below is smaller at a power of two.
-/
def ofDyadic (v : Dyadic) : Interval :=
  let below := if v.mantissa = Nat.pow 2 52 ∧ -1074 < v.exponent then 1 else 2
  let exponent := v.exponent - 2
  let up := Nat.pow 2 exponent.toNat
  ⟨(4 * v.mantissa - below) * up, 4 * v.mantissa * up, (4 * v.mantissa + 2) * up,
    Nat.pow 2 (-exponent).toNat, v.mantissa % 2 = 0⟩

def contains (i : Interval) (d : Digits) : Bool :=
  let (num, den) := if 0 ≤ d.place then (d.digits * Nat.pow 10 d.place.toNat, 1)
    else (d.digits, Nat.pow 10 (-d.place).toNat)
  let number := num * i.den
  if i.closed then i.low * den ≤ number && number ≤ i.high * den
  else i.low * den < number && number < i.high * den

def hit? (i : Interval) (place : Int) : Option Digits :=
  let (num, den) := scaled i.value i.den place
  let floor := num / den
  let rest := num % den
  let below : Digits := ⟨floor, place⟩
  let above : Digits := ⟨floor + 1, place⟩
  let belowFirst := 2 * rest < den || (2 * rest = den && floor % 2 = 0)
  let (first, second) := if belowFirst then (below, above) else (above, below)
  if first.digits ≠ 0 && i.contains first then some first
  else if second.digits ≠ 0 && i.contains second then some second
  else none

end Interval

def search (i : Interval) : (count : Nat) → (place : Int) → Digits
  | 0, place => ⟨i.value * Nat.pow 10 (-place).toNat / i.den, place⟩
  | count + 1, place =>
    match i.hit? place with
    | some d => d
    | none => search i count (place - 1)

/--
The shortest digits of a positive double, without zeros at the end.
-/
def shortest (v : Dyadic) : Digits :=
  let i := Interval.ofDyadic v
  let found := search i 18 (leadingOf i.value i.den)
  trim found 20
where
  trim (d : Digits) : Nat → Digits
    | 0 => d
    | fuel + 1 =>
      if d.digits % 10 = 0 ∧ d.digits ≠ 0 then trim ⟨d.digits / 10, d.place + 1⟩ fuel else d

/--
The first `count` digits of a positive double, the last one rounded, a half to the even neighbour.
-/
def rounded (v : Dyadic) (count : Nat) : Digits :=
  let num := v.mantissa * Nat.pow 2 v.exponent.toNat
  let den := Nat.pow 2 (-v.exponent).toNat
  let place := leadingOf num den - count + 1
  let (n, d) := scaled num den place
  let floor := n / d
  let rest := n % d
  let up := 2 * rest > d || (2 * rest = d && floor % 2 = 1)
  let digits := if up then floor + 1 else floor
  if digits = Nat.pow 10 count then ⟨Nat.pow 10 (count - 1), place + 1⟩ else ⟨digits, place⟩

end Digits
end DerivedQuery
