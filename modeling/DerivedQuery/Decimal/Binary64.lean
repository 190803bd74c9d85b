/-!
This module contains the exact view of a double: its sign, its whole-number mantissa and its power
of two, and the operations that are decided on that view, such as the total order of doubles and
the length of a vector.
-/

namespace DerivedQuery

/--
A finite double is `±mantissa · 2 ^ exponent`.
-/
structure Dyadic where
  negative : Bool
  mantissa : Nat
  exponent : Int
deriving DecidableEq, Repr

inductive Binary64 where
  | nan
  | infinite (negative : Bool)
  | finite (value : Dyadic)
deriving DecidableEq, Repr

namespace Binary64

def ofFloat (x : Float) : Binary64 :=
  let bits := x.toBits.toNat
  let negative := decide (Nat.pow 2 63 ≤ bits)
  let field : Nat := bits / Nat.pow 2 52 % 2048
  let fraction : Nat := bits % Nat.pow 2 52
  if field = 2047 then
    if fraction = 0 then .infinite negative else .nan
  else if field = 0 then
    .finite ⟨negative, fraction, -1074⟩
  else
    .finite ⟨negative, fraction + Nat.pow 2 52, (field : Int) - 1075⟩

end Binary64

namespace Float64

/--
The place of a double in the total order that puts `-0` before `0`, and infinity before what is not
a number. A double has one such value, so that the sign and the bits of it are not told apart.
-/
def rank (x : Float) : Int :=
  let bits := x.toBits.toNat
  if Nat.pow 2 63 ≤ bits then (Nat.pow 2 63 : Int) - 1 - bits else bits

/--
The total order of doubles. All that is not a number is one and the same double, the greatest.
-/
def totalCompare (x y : Float) : Ordering :=
  compare (rank x) (rank y)

/--
The smaller of two doubles; a value that is not a number loses.
-/
def least (x y : Float) : Float :=
  if x.isNaN then y else if y.isNaN then x else if x < y then x else y

/--
The greater of two doubles; a value that is not a number loses.
-/
def greatest (x y : Float) : Float :=
  if x.isNaN then y else if y.isNaN then x else if y < x then x else y

/--
The double nearest to `mantissa · 2 ^ exponent`; a tie goes to the even neighbour.
-/
def nearest (mantissa : Nat) (exponent : Int) : Float :=
  if mantissa = 0 then 0.0
  else
    -- The place of the last bit that the result keeps.
    let place := max ((Nat.log2 mantissa : Int) - 52 + exponent) (-1074)
    let shift := place - exponent
    let kept :=
      if shift ≤ 0 then mantissa * Nat.pow 2 (-shift).toNat
      else
        let unit := Nat.pow 2 shift.toNat
        let floor := mantissa / unit
        let rest := mantissa % unit
        if 2 * rest > unit ∨ (2 * rest = unit ∧ floor % 2 = 1) then floor + 1 else floor
    -- A carry out of 53 bits moves to the next field by itself.
    let bits : Nat :=
      if kept < Nat.pow 2 52 then kept else (place + 1074).toNat * Nat.pow 2 52 + kept
    if bits ≥ 2047 * Nat.pow 2 52 then Float.ofBits 0x7FF0000000000000
    else Float.ofBits bits.toUInt64

/--
The greatest whole number whose square is at most `n`, found bit by bit from `2 ^ bit` down.
-/
def rootFrom (n : Nat) : (bit found : Nat) → Nat
  | 0, found => if (found + 1) * (found + 1) ≤ n then found + 1 else found
  | bit + 1, found =>
    let next := found + Nat.pow 2 (bit + 1)
    rootFrom n bit (if next * next ≤ n then next else found)

def root (n : Nat) : Nat :=
  rootFrom n (Nat.log2 n / 2 + 1) 0

/--
The length of the vector `(x, y)`, rounded once. An infinite coordinate makes it infinite.
-/
def length (x y : Float) : Float :=
  match Binary64.ofFloat x, Binary64.ofFloat y with
  | .infinite _, _ | _, .infinite _ => Float.ofBits 0x7FF0000000000000
  | .nan, _ | _, .nan => Float.ofBits 0x7FF8000000000000
  | .finite a, .finite b =>
    let base := min a.exponent b.exponent
    let left := a.mantissa * Nat.pow 2 (a.exponent - base).toNat
    let right := b.mantissa * Nat.pow 2 (b.exponent - base).toNat
    let square := left * left + right * right
    -- Enough bits below the point that the last one only has to say whether something is left.
    let widened := square * Nat.pow 2 128
    let r := root widened
    let sticky := if r * r = widened then 0 else 1
    nearest (2 * r + sticky) (base - 65)

/--
The whole part of a double, rounded half away from zero.
-/
def roundToInt (x : Float) : Int :=
  match Binary64.ofFloat x with
  | .finite v =>
    let magnitude :=
      if 0 ≤ v.exponent then v.mantissa * Nat.pow 2 v.exponent.toNat
      else (2 * v.mantissa + Nat.pow 2 (-v.exponent).toNat) / Nat.pow 2 ((-v.exponent).toNat + 1)
    if v.negative then -(magnitude : Int) else magnitude
  | _ => 0

end Float64
end DerivedQuery
