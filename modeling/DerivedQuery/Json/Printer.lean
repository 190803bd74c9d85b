import DerivedQuery.Decimal.Layout
import DerivedQuery.Json.Basic
import DerivedQuery.Text.Encoding

/-!
This module contains the two texts of a JSON tree: one line without blanks, and indented lines.
-/

namespace DerivedQuery
namespace Json

/--
Quotes, backslashes and control characters are escaped, everything else stands for itself.
-/
def escapeChar (c : Char) : List Char :=
  match c with
  | '"' => ['\\', '"']
  | '\\' => ['\\', '\\']
  | '\n' => ['\\', 'n']
  | '\r' => ['\\', 'r']
  | '\t' => ['\\', 't']
  | c =>
    if c.toNat = 8 then ['\\', 'b']
    else if c.toNat = 12 then ['\\', 'f']
    else if c.toNat < 32 then
      ['\\', 'u', '0', '0', Hex.digit (c.toNat / 16), Hex.digit (c.toNat % 16)]
    else [c]

def quote (s : String) : List Char :=
  '"' :: s.toList.flatMap escapeChar ++ ['"']

mutual

def chars : Json → List Char
  | .null => "null".toList
  | .bool b => (if b then "true" else "false").toList
  | .int n => (toString n).toList
  | .float x => (Float64.jsonText x).toList
  | .string s => quote s
  | .array items => '[' :: charsItems items ++ [']']
  | .object fields => '{' :: charsFields fields ++ ['}']

def charsItems : List Json → List Char
  | [] => []
  | [item] => chars item
  | item :: items => chars item ++ ',' :: charsItems items

def charsFields : List (String × Json) → List Char
  | [] => []
  | [(name, value)] => quote name ++ ':' :: chars value
  | (name, value) :: fields => quote name ++ ':' :: chars value ++ ',' :: charsFields fields

end

def text (j : Json) : String :=
  String.ofList (chars j)

def newline (indent : Nat) : List Char :=
  '\n' :: List.replicate (2 * indent) ' '

mutual

def prettyChars (indent : Nat) : Json → List Char
  | .array [] => ['[', ']']
  | .array items => '[' :: prettyItems (indent + 1) items ++ newline indent ++ [']']
  | .object [] => ['{', '}']
  | .object fields => '{' :: prettyFields (indent + 1) fields ++ newline indent ++ ['}']
  | j => chars j

def prettyItems (indent : Nat) : List Json → List Char
  | [] => []
  | [item] => newline indent ++ prettyChars indent item
  | item :: items => newline indent ++ prettyChars indent item ++ ',' :: prettyItems indent items

def prettyFields (indent : Nat) : List (String × Json) → List Char
  | [] => []
  | [(name, value)] => newline indent ++ quote name ++ ':' :: ' ' :: prettyChars indent value
  | (name, value) :: fields =>
    newline indent ++ quote name ++ ':' :: ' ' :: prettyChars indent value ++
      ',' :: prettyFields indent fields

end

def pretty (j : Json) : String :=
  String.ofList (prettyChars 0 j)

end Json
end DerivedQuery
