import DerivedQuery.Text.Split

/-!
This module contains decimal numbers of 34 digits and a bounded power of ten, their reader, which
refuses a text that it would have to round, and their text.
-/

namespace DerivedQuery

/--
A decimal number. Two spellings of one quantity, such as `1.5` and `1.50`, are different values.
-/
inductive Decimal128 where
  | nan (negative signaling : Bool)
  | infinite (negative : Bool)
  | finite (negative : Bool) (coefficient : Nat) (exponent : Int)
deriving DecidableEq, Repr

namespace Decimal128

def maxDigits : Nat := 34
def minExponent : Int := -6176
def maxExponent : Int := 6111

/--
The first `count` digits, if only zeros follow.
-/
def keep? (digits : List Char) (count : Nat) : Option (List Char) :=
  if (digits.drop count).all (· == '0') then some (digits.take count) else none

def nat? (s : List Char) : Option Nat :=
  let digits :=
    match s with
    | '+' :: rest => rest
    | rest => rest
  if digits.isEmpty || !digits.all Char.isDigit then none
  else some (digits.foldl (fun n c => 10 * n + (c.toNat - '0'.toNat)) 0)

def int16? (s : List Char) : Option Int :=
  let value? :=
    match s with
    | '-' :: '+' :: _ => none
    | '-' :: rest => (nat? rest).map fun n => -(n : Int)
    | rest => (nat? rest).map fun n => (n : Int)
  value?.filter fun e => -32768 ≤ e && e ≤ 32767

/--
Fit the exponent of nonzero digits into its bounds, or fail.
-/
def fit? (digits : List Char) (exponent : Int) : Option (List Char × Int) := do
  let (digits, exponent) ←
    if maxDigits < digits.length then do
      let kept ← keep? digits maxDigits
      let exponent := exponent + (digits.length - kept.length : Nat)
      if 32767 < exponent then none else some (kept, exponent)
    else some (digits, exponent)
  let (digits, exponent) ←
    if exponent < minExponent then
      if digits = ['0'] then some (digits, minExponent)
      else
        let excess := (minExponent - exponent).toNat
        if digits.length < excess then none
        else (keep? digits (digits.length - excess)).map fun kept => (kept, minExponent)
    else some (digits, exponent)
  if maxExponent < exponent then
    if digits = ['0'] then some (digits, maxExponent)
    else
      let missing := (exponent - maxExponent).toNat
      if maxDigits < digits.length + missing then none
      else some (digits ++ List.replicate missing '0', maxExponent)
  else some (digits, exponent)

def finite? (negative : Bool) (s : List Char) : Option Decimal128 := do
  let number := s.takeWhile (· != 'e')
  let exponent ←
    match s.dropWhile (· != 'e') with
    | [] => some 0
    | _ :: tail => int16? tail
  let (digits, exponent) :=
    match number.dropWhile (· != '.') with
    | [] => (number, exponent)
    | _ :: fraction => (number.takeWhile (· != '.') ++ fraction, exponent - fraction.length)
  if exponent < -32768 then none
  let significant := digits.dropWhile (· == '0')
  let (digits, exponent) ← fit? (if significant.isEmpty then ['0'] else significant) exponent
  let coefficient ← nat? digits
  return .finite negative coefficient exponent

def ofText? (s : String) : Option Decimal128 :=
  let (negative, rest) :=
    match s.toList with
    | '-' :: rest => (true, rest)
    | '+' :: rest => (false, rest)
    | rest => (false, rest)
  let rest := rest.map Char.toLower
  match String.ofList rest with
  | "nan" => some (.nan negative false)
  | "snan" => some (.nan negative true)
  | "inf" | "infinity" => some (.infinite negative)
  | _ => finite? negative rest

/--
Plain digits while the number is not tiny and has no positive exponent, else one digit before the
point and the power of ten.
-/
def finiteText (coefficient : Nat) (exponent : Int) : String :=
  let digits := (toString coefficient).toList
  let leading := exponent + (digits.length : Int) - 1
  if exponent ≤ 0 ∧ -6 ≤ leading then
    let places := exponent.natAbs
    if places = 0 then String.ofList digits
    else if digits.length ≤ places then
      String.ofList ('0' :: '.' :: List.replicate (places - digits.length) '0' ++ digits)
    else
      let whole := digits.length - places
      String.ofList (digits.take whole ++ '.' :: digits.drop whole)
  else
    let sign := if 0 ≤ leading then "+" else ""
    String.ofList (digits.take 1) ++
      (if digits.length = 1 then "" else "." ++ String.ofList (digits.drop 1)) ++
      "E" ++ sign ++ toString leading

def text : Decimal128 → String
  | .nan _ _ => "NaN"
  | .infinite negative => if negative then "-Infinity" else "Infinity"
  | .finite negative coefficient exponent =>
    (if negative then "-" else "") ++ finiteText coefficient exponent

end Decimal128
end DerivedQuery
