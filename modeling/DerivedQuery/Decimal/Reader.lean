import DerivedQuery.Decimal.Binary64
import DerivedQuery.Text.Split

/-!
This module contains the reader of number texts: a sign, digits with an optional point, an optional
exponent, and the names of the values that are not finite. The result is rounded once.
-/

namespace DerivedQuery
namespace Float64

/--
`digits · 10 ^ exponent`, decided without computing powers that are out of range.
-/
def ofDigits (digits : List Char) (exponent : Int) : Float :=
  let significant := digits.dropWhile (· == '0')
  if significant.isEmpty then 0.0
  else if (significant.length : Int) + exponent > 400 then Float.ofBits 0x7FF0000000000000
  else if (significant.length : Int) + exponent < -400 then 0.0
  else Float.ofScientific (Text.natOfDigits significant) (decide (exponent < 0)) exponent.natAbs

/--
The exponent after `e`: a sign and at least one digit, nothing else.
-/
def exponent? (s : List Char) : Option Int :=
  let (negative, digits) :=
    match s with
    | '-' :: rest => (true, rest)
    | '+' :: rest => (false, rest)
    | rest => (false, rest)
  if digits.isEmpty || !digits.all Char.isDigit then none
  else some (if negative then -(Text.natOfDigits digits : Int) else Text.natOfDigits digits)

def unsigned? (s : List Char) : Option Float :=
  match (String.ofList s).toLower with
  | "nan" => some (Float.ofBits 0x7FF8000000000000)
  | "inf" | "infinity" => some (Float.ofBits 0x7FF0000000000000)
  | _ =>
    let whole := s.takeWhile Char.isDigit
    let rest := s.dropWhile Char.isDigit
    let (fraction, rest) :=
      match rest with
      | '.' :: rest => (rest.takeWhile Char.isDigit, rest.dropWhile Char.isDigit)
      | rest => ([], rest)
    if whole.isEmpty && fraction.isEmpty then none
    else
      match rest with
      | [] => some (ofDigits (whole ++ fraction) (-(fraction.length : Int)))
      | mark :: tail =>
        if mark == 'e' || mark == 'E' then
          (exponent? tail).map fun e => ofDigits (whole ++ fraction) (e - fraction.length)
        else none

def ofText? (s : String) : Option Float :=
  match s.toList with
  | '-' :: rest => (unsigned? rest).map fun x => -x
  | '+' :: rest => unsigned? rest
  | rest => unsigned? rest

end Float64
end DerivedQuery
