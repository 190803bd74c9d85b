import DerivedQuery.Pattern.Meaning

/-!
This module contains texts with wildcards. A star stands for any run of characters.
-/

namespace DerivedQuery
namespace Like

def anyRun : List Char := ['.', '*']

def body (s : List Char) : List Char :=
  List.intercalate anyRun ((Text.splitOn '*' s).map Pattern.escapeChars)

/--
The text without one run at its beginning and one at its end.
-/
def trim (s : List Char) : List Char :=
  let s := (Text.dropStart? anyRun s).getD s
  (Text.dropEnd? anyRun s).getD s

/--
The pattern of a text with wildcards, held fast at an end where no star stands.
-/
def patternChars (s : List Char) : List Char :=
  (if s.head? = some '*' then [] else ['^']) ++ trim (body s) ++
    (if s.getLast? = some '*' then [] else ['$'])

def toPattern (s : String) : String :=
  String.ofList (patternChars s.toList)

end Like
end DerivedQuery
