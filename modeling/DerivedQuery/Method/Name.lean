import DerivedQuery.Text.Split

/-!
This module contains the two ways to write a method name. A name without capital letters whose words
are joined by underscores stands for the one with a capital letter at the start of each word after
the first.
-/

namespace DerivedQuery
namespace MethodName

/--
Every word after the first gets a capital letter.
-/
def joinWords : List (List Char) → List Char
  | [] => []
  | word :: words => word ++ words.flatMap Text.capitalize

def normalizeChars (s : List Char) : List Char :=
  if s.contains '_' && !s.any Char.isUpper then
    joinWords ((Text.splitOn '_' s).filter fun word => !word.isEmpty)
  else s

def normalize (name : String) : String :=
  String.ofList (normalizeChars name.toList)

end MethodName
end DerivedQuery
