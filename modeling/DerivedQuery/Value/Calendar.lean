/-!
This module contains instants in milliseconds since the beginning of 1970, their calendar fields,
and their texts.
-/

namespace DerivedQuery

/--
A day of the Gregorian calendar and a time of day in nanoseconds.
-/
structure CivilTime where
  year : Int
  month : Nat
  day : Nat
  hour : Nat
  minute : Nat
  second : Nat
  nanos : Nat
deriving DecidableEq, Repr

namespace CivilTime

def dayMillis : Int := 86400000

def daysOf (year : Int) (month day : Nat) : Int :=
  let y := if month ≤ 2 then year - 1 else year
  let era := y / 400
  let yearOfEra := y - era * 400
  let monthFromMarch : Int := if 2 < month then month - 3 else month + 9
  let dayOfYear := (153 * monthFromMarch + 2) / 5 + day - 1
  let dayOfEra := yearOfEra * 365 + yearOfEra / 4 - yearOfEra / 100 + dayOfYear
  era * 146097 + dayOfEra - 719468

def ofDays (days : Int) : Int × Nat × Nat :=
  let z := days + 719468
  let era := z / 146097
  let dayOfEra := z - era * 146097
  let yearOfEra :=
    (dayOfEra - dayOfEra / 1460 + dayOfEra / 36524 - dayOfEra / 146096) / 365
  let dayOfYear := dayOfEra - (365 * yearOfEra + yearOfEra / 4 - yearOfEra / 100)
  let monthFromMarch := (5 * dayOfYear + 2) / 153
  let day := dayOfYear - (153 * monthFromMarch + 2) / 5 + 1
  let month := if monthFromMarch < 10 then monthFromMarch + 3 else monthFromMarch - 9
  let year := yearOfEra + era * 400 + (if month ≤ 2 then 1 else 0)
  (year, month.toNat, day.toNat)

def ofMillis (millis : Int) : CivilTime :=
  let (year, month, day) := ofDays (millis / dayMillis)
  let inDay := (millis % dayMillis).toNat
  ⟨year, month, day, inDay / 3600000, inDay / 60000 % 60, inDay / 1000 % 60, inDay % 1000 * 1000000⟩

/--
The instant of a time in the zone of Greenwich, its fraction of a millisecond dropped.
-/
def toMillis (t : CivilTime) : Int :=
  let nanos : Int :=
    (((daysOf t.year t.month t.day * 24 + t.hour) * 60 + t.minute) * 60 + t.second) * 1000000000 +
      t.nanos
  nanos.tdiv 1000000

def isLeap (year : Int) : Bool :=
  year % 4 = 0 && (year % 100 ≠ 0 || year % 400 = 0)

def daysInMonth (year : Int) (month : Nat) : Nat :=
  if month = 2 then if isLeap year then 29 else 28
  else if month = 4 ∨ month = 6 ∨ month = 9 ∨ month = 11 then 30 else 31

/-! ### Texts -/

def padded (width n : Nat) : List Char :=
  let digits := (toString n).toList
  List.replicate (width - digits.length) '0' ++ digits

/--
At least four digits, and a sign outside of the years 0 to 9999.
-/
def yearText (year : Int) : List Char :=
  let digits := padded 4 year.natAbs
  if 0 ≤ year ∧ year ≤ 9999 then digits
  else (if year < 0 then '-' else '+') :: digits

def fractionDigits (nanos : Nat) : List Char :=
  ((padded 9 nanos).reverse.dropWhile (· == '0')).reverse

def dateText (t : CivilTime) : List Char :=
  yearText t.year ++ '-' :: padded 2 t.month ++ '-' :: padded 2 t.day

/--
The text of a network date: `2012-03-01T12:00:00.5Z`, without a fraction of zero.
-/
def networkText (t : CivilTime) : String :=
  let fraction := fractionDigits t.nanos
  String.ofList <|
    dateText t ++ 'T' :: padded 2 t.hour ++ ':' :: padded 2 t.minute ++ ':' :: padded 2 t.second ++
      (if fraction.isEmpty then [] else '.' :: fraction) ++ ['Z']

/--
The text for people: `2012-03-01 12:00:00.5 +00:00:00`, with at least one digit of the fraction.
-/
def displayText (t : CivilTime) : String :=
  let fraction := fractionDigits t.nanos
  String.ofList <|
    dateText t ++ ' ' :: (toString t.hour).toList ++ ':' :: padded 2 t.minute ++ ':' ::
      padded 2 t.second ++ '.' :: (if fraction.isEmpty then ['0'] else fraction) ++
      " +00:00:00".toList

/-! ### Reading network dates -/

def digits? : (count : Nat) → (value : Nat) → List Char → Option (Nat × List Char)
  | 0, value, rest => some (value, rest)
  | count + 1, value, c :: rest =>
    if c.isDigit then digits? count (10 * value + (c.toNat - '0'.toNat)) rest else none
  | _ + 1, _, [] => none

def expect? (c : Char) : List Char → Option (List Char)
  | d :: rest => if c = d then some rest else none
  | [] => none

/--
A fraction has at least one digit; those after the ninth do not count.
-/
def fraction? : List Char → Option (Nat × List Char)
  | '.' :: rest =>
    let digits := rest.takeWhile Char.isDigit
    if digits.isEmpty then none
    else
      let nine := (digits ++ List.replicate 9 '0').take 9
      (digits? 9 0 nine).map fun (nanos, _) => (nanos, rest.dropWhile Char.isDigit)
  | rest => some (0, rest)

def offset? : List Char → Option (Int × List Char)
  | [] => none
  | c :: rest =>
    if c = 'Z' ∨ c = 'z' then some (0, rest)
    else if c = '+' ∨ c = '-' then do
      let (hour, rest) ← digits? 2 0 rest
      let rest ← expect? ':' rest
      let (minute, rest) ← digits? 2 0 rest
      if 23 < hour ∨ 59 < minute then none
      else
        let minutes : Int := 60 * hour + minute
        some (if c = '-' then -minutes else minutes, rest)
    else none

/--
A leap second is the last second of a month at Greenwich.
-/
def isLeapSecond (t : CivilTime) : Bool :=
  t.hour = 23 && t.minute = 59 && t.second = 59 && t.day = daysInMonth t.year t.month

/--
Read a network date as an instant. Any one byte may stand between the date and the time.
-/
def ofNetworkText? (s : String) : Option Int := do
  let (year, rest) ← digits? 4 0 s.toList
  let rest ← expect? '-' rest
  let (month, rest) ← digits? 2 0 rest
  let rest ← expect? '-' rest
  let (day, rest) ← digits? 2 0 rest
  let rest ←
    match rest with
    | c :: rest => if c.utf8Size = 1 then some rest else none
    | [] => none
  let (hour, rest) ← digits? 2 0 rest
  let rest ← expect? ':' rest
  let (minute, rest) ← digits? 2 0 rest
  let rest ← expect? ':' rest
  let (second, rest) ← digits? 2 0 rest
  let (nanos, rest) ← fraction? rest
  let (offset, rest) ← offset? rest
  if ¬ rest.isEmpty ∨ month = 0 ∨ 12 < month ∨ day = 0 ∨ daysInMonth year month < day ∨ 23 < hour ∨
      59 < minute ∨ 60 < second then none
  else
    let leap := second = 60
    let local_ : CivilTime :=
      ⟨year, month, day, hour, minute, if leap then 59 else second,
        if leap then 999999999 else nanos⟩
    let instant := shifted local_ offset
    if leap && !isLeapSecond (ofMillis instant) then none else some instant
where
  /-- The fraction of a millisecond is dropped towards 1970. -/
  shifted (t : CivilTime) (offset : Int) : Int :=
    let minutes := (daysOf t.year t.month t.day * 24 + t.hour) * 60 + t.minute - offset
    ((minutes * 60 + t.second) * 1000000000 + t.nanos).tdiv 1000000

end CivilTime
end DerivedQuery
