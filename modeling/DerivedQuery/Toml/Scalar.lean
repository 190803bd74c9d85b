import DerivedQuery.Decimal.Reader
import DerivedQuery.Text.Encoding
import DerivedQuery.Toml.Basic
import DerivedQuery.Value.Calendar

/-!
This module contains the values of TOML that are written without quotes: truth values, numbers and
points in time.
-/

namespace DerivedQuery
namespace Toml

/--
The digits of a text in which one underscore can stand between two digits.
-/
def separated (isDigit : Char → Bool) : List Char → Option (List Char)
  | [] => none
  | [c] => if isDigit c then some [c] else none
  | c :: '_' :: rest => if isDigit c then (separated isDigit rest).map (c :: ·) else none
  | c :: rest => if isDigit c then (separated isDigit rest).map (c :: ·) else none

/-! ### Numbers -/

def signed : List Char → Bool × List Char
  | '-' :: rest => (true, rest)
  | '+' :: rest => (false, rest)
  | rest => (false, rest)

/--
Whole numbers of 128 bits, with or without a sign, are all that can be represented.
-/
def integerInRange (n : Int) : Option Toml :=
  if -(Nat.pow 2 127 : Int) ≤ n ∧ n < (Nat.pow 2 128 : Int) then some (.integer n) else none

def inBase (base : Nat) (digits : List Char) : Option Toml := do
  let values ← digits.mapM Hex.value?
  integerInRange (values.foldl (fun n d => base * n + d) 0 : Nat)

/--
The digits of a whole number, which does not start with a zero unless it is zero.
-/
def wholeDigits (s : List Char) : Option (List Char) := do
  match ← separated Char.isDigit s with
  | '0' :: _ :: _ => none
  | digits => some digits

def isHexDigit (c : Char) : Bool :=
  (Hex.value? c).isSome

def integer? : List Char → Option Toml
  | '0' :: 'x' :: rest => do inBase 16 (← separated isHexDigit rest)
  | '0' :: 'o' :: rest => do inBase 8 (← separated (fun c => '0' ≤ c && c ≤ '7') rest)
  | '0' :: 'b' :: rest => do inBase 2 (← separated (fun c => c == '0' || c == '1') rest)
  | s => do
    let (negative, rest) := signed s
    let n : Int := Text.natOfDigits (← wholeDigits rest)
    integerInRange (if negative then -n else n)

/--
A number with a fraction, an exponent or both. One that is out of range is none.
-/
def decimal? (s : List Char) : Option Toml := do
  let (negative, rest) := signed s
  let isMark (c : Char) : Bool := c == 'e' || c == 'E'
  let mantissa := rest.takeWhile fun c => !isMark c
  let exponent := (rest.dropWhile fun c => !isMark c).drop 1
  let whole ← wholeDigits (mantissa.takeWhile (· != '.'))
  let fraction ←
    match mantissa.dropWhile (· != '.') with
    | [] => some []
    | _ :: fraction => separated Char.isDigit fraction
  let power ←
    if (rest.dropWhile fun c => !isMark c).isEmpty then some 0
    else do
      let (down, digits) := signed exponent
      let n : Int := Text.natOfDigits (← separated Char.isDigit digits)
      some (if down then -n else n)
  let x := Float64.ofDigits (whole ++ fraction) (power - fraction.length)
  if x.isInf then none else some (.float (if negative then -x else x))

def special? (s : List Char) : Option Toml :=
  let (negative, rest) := signed s
  let signedFloat (x : Float) : Toml := .float (if negative then -x else x)
  if rest = ['i', 'n', 'f'] then some (signedFloat (Float.ofBits 0x7FF0000000000000))
  else if rest = ['n', 'a', 'n'] then some (signedFloat (Float.ofBits 0x7FF8000000000000))
  else none

/-! ### Points in time -/

def date? (s : List Char) : Option (List Char) := do
  let (year, rest) ← CivilTime.digits? 4 0 s
  let rest ← CivilTime.expect? '-' rest
  let (month, rest) ← CivilTime.digits? 2 0 rest
  let rest ← CivilTime.expect? '-' rest
  let (day, rest) ← CivilTime.digits? 2 0 rest
  if month = 0 ∨ 12 < month ∨ day = 0 ∨ CivilTime.daysInMonth year month < day then none
  else some rest

def time? (s : List Char) : Option (List Char) := do
  let (hour, rest) ← CivilTime.digits? 2 0 s
  let rest ← CivilTime.expect? ':' rest
  let (minute, rest) ← CivilTime.digits? 2 0 rest
  let rest ← CivilTime.expect? ':' rest
  let (second, rest) ← CivilTime.digits? 2 0 rest
  let (_, rest) ← CivilTime.fraction? rest
  if 23 < hour ∨ 59 < minute ∨ 60 < second then none else some rest

/--
A date, a time of day, or both with or without the distance from Greenwich.
-/
def isDateTime (s : List Char) : Bool :=
  match date? s with
  | some [] => true
  | some (mark :: rest) =>
    if mark == 'T' || mark == 't' || mark == ' ' then
      match time? rest with
      | some [] => true
      | some rest => ((CivilTime.offset? rest).map fun (_, rest) => rest.isEmpty).getD false
      | none => false
    else false
  | none =>
    match time? s with
    | some rest => rest.isEmpty
    | none => false

/-! ### Scalars -/

def scalar? (s : List Char) : Option Toml :=
  if s = ['t', 'r', 'u', 'e'] then some (.bool true)
  else if s = ['f', 'a', 'l', 's', 'e'] then some (.bool false)
  else if isDateTime s then some (.dateTime (String.ofList s))
  else ((integer? s).or (special? s)).or (if isDecimal s then decimal? s else none)
where
  /-- Digits alone are a whole number, if they are a number at all. -/
  isDecimal (s : List Char) : Bool :=
    s.any fun c => c == '.' || c == 'e' || c == 'E'

end Toml
end DerivedQuery
