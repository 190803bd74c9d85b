import DerivedQuery.Decimal.Shortest

/-!
This module contains the texts of doubles: plain text, which never has an exponent, the text of a
JSON number, and scientific text with a fixed number of places.
-/

namespace DerivedQuery

structure NumberLayout where
  /-- The least power of ten of the first digit that is written without an exponent. -/
  least : Option Int
  /-- The first power of ten of the first digit that is written with an exponent. -/
  bound : Option Int
  /-- Whether a whole number ends in `.0`. -/
  pointZero : Bool

namespace NumberLayout

/--
Plain text: never an exponent, no point in a whole number.
-/
def plain : NumberLayout := ⟨none, none, false⟩

/--
JSON numbers are positional from `0.00001` up to sixteen digits before the point.
-/
def json : NumberLayout := ⟨some (-5), some 16, true⟩

def positional (layout : NumberLayout) (leading : Int) : Bool :=
  layout.least.all (· ≤ leading) && layout.bound.all (leading < ·)

def zeros (n : Nat) : List Char :=
  List.replicate n '0'

def positionalText (layout : NumberLayout) (d : Digits) : List Char :=
  let digits := d.text
  let leading := d.leading
  if leading < 0 then
    '0' :: '.' :: zeros (-leading - 1).toNat ++ digits
  else if 0 ≤ d.place then
    digits ++ zeros d.place.toNat ++ (if layout.pointZero then ['.', '0'] else [])
  else
    let whole := leading.toNat + 1
    digits.take whole ++ '.' :: digits.drop whole

def exponentText (sign : Bool) (d : Digits) : List Char :=
  let leading := d.leading
  let mark := if 0 ≤ leading ∧ sign then ['e', '+'] else ['e']
  let tail := mark ++ (toString leading).toList
  match d.text with
  | [] => tail
  | [digit] => digit :: tail
  | digit :: digits => digit :: '.' :: digits ++ tail

def finite (layout : NumberLayout) (v : Dyadic) : String :=
  let body :=
    if v.mantissa = 0 then if layout.pointZero then ['0', '.', '0'] else ['0']
    else
      let d := Digits.shortest v
      if layout.positional d.leading then layout.positionalText d else exponentText true d
  String.ofList (if v.negative then '-' :: body else body)

end NumberLayout

namespace Float64

/--
The shortest text that reads back, without an exponent.
-/
def text (x : Float) : String :=
  match Binary64.ofFloat x with
  | .nan => "NaN"
  | .infinite negative => if negative then "-inf" else "inf"
  | .finite v => NumberLayout.plain.finite v

/--
The text of a finite double as a JSON number; anything else is `null`.
-/
def jsonText (x : Float) : String :=
  match Binary64.ofFloat x with
  | .finite v => NumberLayout.json.finite v
  | _ => "null"

/--
The text with one digit before the point and `places` after it.
-/
def scientificText (places : Nat) (x : Float) : String :=
  match Binary64.ofFloat x with
  | .nan => "NaN"
  | .infinite negative => if negative then "-inf" else "inf"
  | .finite v =>
    let body :=
      if v.mantissa = 0 then
        '0' :: (if places = 0 then [] else '.' :: NumberLayout.zeros places) ++ ['e', '0']
      else NumberLayout.exponentText false (Digits.rounded v (places + 1))
    String.ofList (if v.negative then '-' :: body else body)

end Float64
end DerivedQuery
