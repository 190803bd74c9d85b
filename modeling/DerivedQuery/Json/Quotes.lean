/-!
This module turns query texts that delimit strings by single quotes into JSON. Every character stays
in its place, so the text keeps its length.
-/

namespace DerivedQuery
namespace Quotes

def single : Char := '\x27'

/--
Turn the single quotes that delimit strings into double quotes. A quote behind a backslash, or
inside a double-quoted string, stands for itself.
-/
def go (inDouble escaped : Bool) : List Char → List Char
  | [] => []
  | c :: cs =>
    if c = '\\' then c :: go inDouble (!escaped) cs
    else if c = '"' ∧ ¬ escaped then c :: go (!inDouble) false cs
    else if c = single ∧ ¬ inDouble ∧ ¬ escaped then '"' :: go inDouble false cs
    else c :: go inDouble false cs

def normalizeChars (s : List Char) : List Char :=
  go false false s

def normalize (s : String) : String :=
  String.ofList (normalizeChars s.toList)

end Quotes
end DerivedQuery
