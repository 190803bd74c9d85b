import DerivedQuery.Decimal.Reader
import DerivedQuery.Json.Basic
import DerivedQuery.Text.Encoding

/-!
This module contains the reader of JSON texts. It is strict: no comments, no trailing commas, no
unpaired surrogates, no number out of range, and a bound on nesting. A fault is reported with its
cause and its place, counted in bytes.
-/

namespace DerivedQuery
namespace Json

inductive SyntaxCause where
  | endInList
  | endInObject
  | endInString
  | endInValue
  | expectedColon
  | expectedListCommaOrEnd
  | expectedObjectCommaOrEnd
  | expectedIdentifier
  | expectedValue
  | invalidEscape
  | invalidNumber
  | numberOutOfRange
  | controlCharacter
  | keyMustBeString
  | loneSurrogate
  | trailingComma
  | trailingCharacters
  | unexpectedEndOfHexEscape
  | recursionLimit
deriving DecidableEq, Repr

def SyntaxCause.text : SyntaxCause → String
  | .endInList => "EOF while parsing a list"
  | .endInObject => "EOF while parsing an object"
  | .endInString => "EOF while parsing a string"
  | .endInValue => "EOF while parsing a value"
  | .expectedColon => "expected `:`"
  | .expectedListCommaOrEnd => "expected `,` or `]`"
  | .expectedObjectCommaOrEnd => "expected `,` or `\x7d`"
  | .expectedIdentifier => "expected ident"
  | .expectedValue => "expected value"
  | .invalidEscape => "invalid escape"
  | .invalidNumber => "invalid number"
  | .numberOutOfRange => "number out of range"
  | .controlCharacter => "control character (\\u0000-\\u001F) found while parsing a string"
  | .keyMustBeString => "key must be a string"
  | .loneSurrogate => "lone leading surrogate in hex escape"
  | .trailingComma => "trailing comma"
  | .trailingCharacters => "trailing characters"
  | .unexpectedEndOfHexEscape => "unexpected end of hex escape"
  | .recursionLimit => "recursion limit exceeded"

/--
A fault and the number of bytes that follow its place.
-/
structure Fault where
  cause : SyntaxCause
  remaining : Nat
deriving DecidableEq, Repr

def byteCount (s : List Char) : Nat :=
  s.foldl (fun n c => n + c.utf8Size) 0

namespace Syntax

abbrev Reader (α : Type) := List Char → Except Fault (α × List Char)

/--
A fault in front of `rest`.
-/
def failAt (cause : SyntaxCause) (rest : List Char) : Except Fault α :=
  .error ⟨cause, byteCount rest⟩

/--
A fault behind the first byte of `rest`.
-/
def failAfter (cause : SyntaxCause) (rest : List Char) : Except Fault α :=
  .error ⟨cause, byteCount rest - 1⟩

def isBlank (c : Char) : Bool :=
  c == ' ' || c == '\n' || c == '\t' || c == '\r'

def skipBlanks (s : List Char) : List Char :=
  s.dropWhile isBlank

def word (value : Json) : List Char → Reader Json
  | [], rest => .ok (value, rest)
  | _ :: _, [] => failAt .endInValue []
  | expected :: more, c :: rest =>
    if c = expected then word value more rest else failAfter .expectedIdentifier (c :: rest)

/-! ### Strings -/

def hexEscape : Reader Nat
  | a :: b :: c :: d :: rest =>
    match Hex.nat? [a, b, c, d] with
    | some n => .ok (n, rest)
    | none => short (a :: b :: c :: d :: rest)
  | rest => short rest
where
  short (rest : List Char) : Except Fault (Nat × List Char) :=
    if 4 ≤ byteCount rest then .error ⟨.invalidEscape, byteCount rest - 4⟩
    else failAt .endInString []

/--
What follows `\u`: one unit, or two that form a pair of surrogates.
-/
def unicodeEscape (rest : List Char) : Except Fault (Char × List Char) := do
  let (first, rest) ← hexEscape rest
  if 0xDC00 ≤ first ∧ first ≤ 0xDFFF then failAt .loneSurrogate rest
  else if first < 0xD800 ∨ 0xDBFF < first then .ok (Char.ofNat first, rest)
  else
    let rest ← expect '\\' rest
    let rest ← expect 'u' rest
    let (second, rest) ← hexEscape rest
    if second < 0xDC00 ∨ 0xDFFF < second then failAt .loneSurrogate rest
    else .ok (Char.ofNat (0x10000 + (first - 0xD800) * 0x400 + (second - 0xDC00)), rest)
where
  expect (c : Char) : List Char → Except Fault (List Char)
    | [] => failAt .endInString []
    | d :: rest => if d = c then .ok rest else failAfter .unexpectedEndOfHexEscape (d :: rest)

def escape : Reader Char
  | [] => failAt .endInString []
  | c :: rest =>
    match c with
    | '"' => .ok ('"', rest)
    | '\\' => .ok ('\\', rest)
    | '/' => .ok ('/', rest)
    | 'b' => .ok (Char.ofNat 8, rest)
    | 'f' => .ok (Char.ofNat 12, rest)
    | 'n' => .ok ('\n', rest)
    | 'r' => .ok ('\r', rest)
    | 't' => .ok ('\t', rest)
    | 'u' => unicodeEscape rest
    | c => failAfter .invalidEscape (c :: rest)

/--
The characters up to the closing quote. `read` holds those already read, the newest first.
-/
def stringBody : (fuel : Nat) → (read : List Char) → Reader String
  | 0, _, rest => failAt .endInString rest
  | _ + 1, _, [] => failAt .endInString []
  | fuel + 1, read, c :: rest =>
    if c = '"' then .ok (String.ofList read.reverse, rest)
    else if c = '\\' then do
      let (c, rest) ← escape rest
      stringBody fuel (c :: read) rest
    else if c.toNat < 32 then failAfter .controlCharacter (c :: rest)
    else stringBody fuel (c :: read) rest

def string : Reader String := fun rest =>
  stringBody (rest.length + 1) [] rest

/-! ### Numbers -/

def maxWord : Nat := Nat.pow 2 64 - 1

/--
Digits of a number as far as they fit into 64 bits: the value, and how many were taken.
-/
def digits : (value taken : Nat) → List Char → Nat × Nat × List Char
  | value, taken, [] => (value, taken, [])
  | value, taken, c :: rest =>
    if c.isDigit ∧ 10 * value + Text.digitValue c ≤ maxWord then
      digits (10 * value + Text.digitValue c) (taken + 1) rest
    else (value, taken, c :: rest)

/--
Scale by a power of ten with one rounding, stepping down first where the power is out of range.
-/
def scale (x : Float) (exponent : Int) : (fuel : Nat) → Option Float
  | 0 => some x
  | fuel + 1 =>
    if exponent.natAbs ≤ 308 then
      let power := Float.ofScientific 1 false exponent.natAbs
      if 0 ≤ exponent then
        let y := x * power
        if y.isInf then none else some y
      else some (x / power)
    else if x == 0.0 then some x
    else if 0 ≤ exponent then none
    else scale (x / Float.ofScientific 1 false 308) (exponent + 308) fuel

def finish (negative : Bool) (value : Nat) (exponent : Int) : Reader Json := fun rest =>
  match scale (Float.ofNat value) exponent 8 with
  | some x => .ok (.float (if negative then -x else x), rest)
  | none => failAt .numberOutOfRange rest

def maxExponent : Nat := Nat.pow 2 31 - 1

def clampExponent (e : Int) : Int :=
  max (-(Nat.pow 2 31 : Int)) (min e maxExponent)

/--
The digits of an exponent. An exponent of more than 31 bits means zero or out of range.
-/
def exponentDigits (negative : Bool) (value : Nat) (start : Int) (down : Bool) :
    (exponent : Nat) → Reader Json
  | exponent, [] => finish negative value (total exponent) []
  | exponent, c :: rest =>
    if c.isDigit then
      if maxExponent < 10 * exponent + Text.digitValue c then
        if value ≠ 0 ∧ ¬ down then failAt .numberOutOfRange rest
        else .ok (.float (if negative then -0.0 else 0.0), rest.dropWhile Char.isDigit)
      else exponentDigits negative value start down (10 * exponent + Text.digitValue c) rest
    else finish negative value (total exponent) (c :: rest)
where
  total (exponent : Nat) : Int :=
    clampExponent (if down then start - exponent else start + exponent)

def exponentPart (negative : Bool) (value : Nat) (start : Int) : Reader Json := fun rest =>
  let (down, rest) :=
    match rest with
    | '+' :: rest => (false, rest)
    | '-' :: rest => (true, rest)
    | rest => (false, rest)
  match rest with
  | [] => failAt .endInValue []
  | c :: more =>
    if c.isDigit then exponentDigits negative value start down (Text.digitValue c) more
    else failAfter .invalidNumber (c :: more)

def isExponentMark (c : Char) : Bool :=
  c == 'e' || c == 'E'

/--
What follows the point. Digits beyond 64 bits are dropped.
-/
def fractionPart (negative : Bool) (value : Nat) (start : Int) : Reader Json := fun rest =>
  let (value, taken, tail) := digits value 0 rest
  let exponent := start - taken
  let dropped := tail.dropWhile Char.isDigit
  match rest with
  | [] => failAt .endInValue []
  | c :: _ =>
    if c.isDigit then
      match dropped with
      | mark :: more =>
        if isExponentMark mark then exponentPart negative value exponent more
        else finish negative value exponent dropped
      | [] => finish negative value exponent []
    else failAfter .invalidNumber rest

/--
A whole number that does not fit into 64 bits: its further digits only move the point.
-/
def longInteger (negative : Bool) (value : Nat) : Reader Json := fun rest =>
  let further := (rest.takeWhile Char.isDigit).length
  match rest.dropWhile Char.isDigit with
  | '.' :: more => fractionPart negative value further more
  | mark :: more =>
    if isExponentMark mark then exponentPart negative value further more
    else finish negative value further (mark :: more)
  | [] => finish negative value further []

/--
The end of a whole number. The negative zero and numbers below 64 signed bits are doubles.
-/
def integer (negative : Bool) (value : Nat) : Json :=
  if ¬ negative then .int value
  else if value = 0 ∨ Nat.pow 2 63 < value then .float (-(Float.ofNat value))
  else .int (-(value : Int))

def afterInteger (negative : Bool) (value : Nat) : Reader Json
  | [] => .ok (integer negative value, [])
  | c :: rest =>
    if c = '.' then fractionPart negative value 0 rest
    else if isExponentMark c then exponentPart negative value 0 rest
    else if c.isDigit then longInteger negative value (c :: rest)
    else .ok (integer negative value, c :: rest)

def number (negative : Bool) : Reader Json
  | [] => failAt .endInValue []
  | c :: rest =>
    if c = '0' then
      match rest with
      | d :: more =>
        if d.isDigit then failAfter .invalidNumber (d :: more) else afterInteger negative 0 rest
      | [] => afterInteger negative 0 []
    else if c.isDigit then
      let (value, _, rest) := digits (Text.digitValue c) 0 rest
      afterInteger negative value rest
    else failAfter .invalidNumber (c :: rest)

/-! ### Containers -/

def itemThen (item : Reader Json) (others : Reader (List Json)) : Reader (List Json) :=
  fun rest => do
    let (value, rest) ← item rest
    let (values, rest) ← others rest
    return (value :: values, rest)

def items (item : Reader Json) : (fuel : Nat) → (first : Bool) → Reader (List Json)
  | 0, _, rest => failAt .endInList rest
  | fuel + 1, first, rest =>
    match skipBlanks rest with
    | [] => failAt .endInList []
    | c :: rest =>
      if c = ']' then .ok ([], rest)
      else if first then itemThen item (items item fuel false) (c :: rest)
      else if c = ',' then
        match skipBlanks rest with
        | [] => failAt .endInValue []
        | d :: rest =>
          if d = ']' then failAfter .trailingComma (d :: rest)
          else itemThen item (items item fuel false) (d :: rest)
      else failAfter .expectedListCommaOrEnd (c :: rest)

def fieldThen (item : Reader Json) (others : Reader (List (String × Json))) :
    Reader (List (String × Json)) :=
  fun rest => do
    let (name, rest) ← string rest
    match skipBlanks rest with
    | [] => failAt .endInObject []
    | c :: rest =>
      if c = ':' then do
        let (value, rest) ← item rest
        let (entries, rest) ← others rest
        return ((name, value) :: entries, rest)
      else failAfter .expectedColon (c :: rest)

def fields (item : Reader Json) : (fuel : Nat) → (first : Bool) → Reader (List (String × Json))
  | 0, _, rest => failAt .endInObject rest
  | fuel + 1, first, rest =>
    match skipBlanks rest with
    | [] => failAt .endInObject []
    | c :: rest =>
      if c = '}' then .ok ([], rest)
      else if first then
        if c = '"' then fieldThen item (fields item fuel false) rest
        else failAfter .keyMustBeString (c :: rest)
      else if c = ',' then
        match skipBlanks rest with
        | [] => failAt .endInValue []
        | d :: rest =>
          if d = '"' then fieldThen item (fields item fuel false) rest
          else if d = '}' then failAfter .trailingComma (d :: rest)
          else failAfter .keyMustBeString (d :: rest)
      else failAfter .expectedObjectCommaOrEnd (c :: rest)

/--
One value. A list or object needs more than one level of `depth`.
-/
def value : (depth : Nat) → Reader Json
  | 0, rest => failAfter .recursionLimit rest
  | depth + 1, rest =>
    match skipBlanks rest with
    | [] => failAt .endInValue []
    | c :: rest =>
      if c = 'n' then word .null ['u', 'l', 'l'] rest
      else if c = 't' then word (.bool true) ['r', 'u', 'e'] rest
      else if c = 'f' then word (.bool false) ['a', 'l', 's', 'e'] rest
      else if c = '-' then number true rest
      else if c.isDigit then number false (c :: rest)
      else if c = '"' then do
        let (s, rest) ← string rest
        return (.string s, rest)
      else if c = '[' then
        if depth = 0 then failAfter .recursionLimit (c :: rest)
        else do
          let (values, rest) ← items (value depth) (rest.length + 1) true rest
          return (.array values, rest)
      else if c = '{' then
        if depth = 0 then failAfter .recursionLimit (c :: rest)
        else do
          let (entries, rest) ← fields (value depth) (rest.length + 1) true rest
          return (ofFields entries, rest)
      else failAfter .expectedValue (c :: rest)

def document (depth : Nat) (s : List Char) : Except Fault Json := do
  let (j, rest) ← value depth s
  match skipBlanks rest with
  | [] => .ok j
  | rest => failAfter .trailingCharacters rest

end Syntax

/--
A fault with the line and the column of its place, both in bytes.
-/
structure SyntaxError where
  cause : SyntaxCause
  line : Nat
  column : Nat
deriving DecidableEq, Repr

namespace SyntaxError

def ofFault (s : String) (fault : Fault) : SyntaxError :=
  let bytes := s.toUTF8.toList
  let read := bytes.take (bytes.length - fault.remaining)
  let newline : UInt8 := 10
  ⟨fault.cause, 1 + read.count newline, (read.reverse.takeWhile (· != newline)).length⟩

def text (e : SyntaxError) : String :=
  e.cause.text ++ " at line " ++ toString e.line ++ " column " ++ toString e.column

end SyntaxError

/--
The nesting that a text may have is one less than this.
-/
def depthLimit : Nat := 128

def parseWithin (depth : Nat) (s : String) : Except SyntaxError Json :=
  match Syntax.document depth s.toList with
  | .ok j => .ok j
  | .error fault => .error (.ofFault s fault)

def parse (s : String) : Except SyntaxError Json :=
  parseWithin depthLimit s

end Json
end DerivedQuery
