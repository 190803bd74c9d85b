import DerivedQuery.Toml.Scalar

/-!
This module contains the reader of TOML texts. A text is read line by line: headers open tables,
and keys with values go to the table that was opened last.
-/

namespace DerivedQuery
namespace Toml

abbrev Reader (α : Type) := List Char → Option (α × List Char)

/-! ### Blanks and comments -/

def isBlank (c : Char) : Bool :=
  c == ' ' || c == '\t'

def skipBlanks (s : List Char) : List Char :=
  s.dropWhile isBlank

def isPlain (c : Char) : Bool :=
  c == '\t' || (0x20 ≤ c.toNat && c.toNat != 0x7F)

def newline? : List Char → Option (List Char)
  | '\n' :: rest => some rest
  | '\r' :: '\n' :: rest => some rest
  | _ => none

def skipComment : List Char → List Char
  | '#' :: rest => rest.dropWhile isPlain
  | rest => rest

/--
The rest of a line can hold a comment.
-/
def lineEnd? (s : List Char) : Option (List Char) :=
  match skipComment (skipBlanks s) with
  | [] => some []
  | rest => newline? rest

def skipLines : (fuel : Nat) → List Char → Option (List Char)
  | 0, s => some s
  | fuel + 1, s =>
    match skipBlanks s with
    | [] => some []
    | c :: rest =>
      if c == '#' || c == '\n' || c == '\r' then do
        skipLines fuel (← lineEnd? (c :: rest))
      else some (c :: rest)

/-! ### Quoted texts -/

def codePoint? (count : Nat) (s : List Char) : Option (Char × List Char) :=
  if s.length < count then none
  else do
    let n ← Hex.nat? (s.take count)
    if n < 0xD800 ∨ (0xE000 ≤ n ∧ n < 0x110000) then some (Char.ofNat n, s.drop count) else none

def escape? : Reader Char
  | '"' :: rest => some ('"', rest)
  | '\\' :: rest => some ('\\', rest)
  | 'b' :: rest => some (Char.ofNat 8, rest)
  | 'f' :: rest => some (Char.ofNat 12, rest)
  | 'n' :: rest => some ('\n', rest)
  | 'r' :: rest => some ('\r', rest)
  | 't' :: rest => some ('\t', rest)
  | 'u' :: rest => codePoint? 4 rest
  | 'U' :: rest => codePoint? 8 rest
  | _ => none

/--
The text up to the closing quote. `read` holds the characters already read, the newest first.
-/
def quotedBody : (fuel : Nat) → (read : List Char) → Reader String
  | 0, _, _ | _, _, [] => none
  | fuel + 1, read, c :: rest =>
    if c = '"' then some (String.ofList read.reverse, rest)
    else if c = '\\' then do
      let (c, rest) ← escape? rest
      quotedBody fuel (c :: read) rest
    else if isPlain c then quotedBody fuel (c :: read) rest
    else none

def literalBody (s : List Char) : Option (String × List Char) :=
  match s.dropWhile (fun c => c != '\'' && isPlain c) with
  | '\'' :: rest => some (String.ofList (s.takeWhile fun c => c != '\'' && isPlain c), rest)
  | _ => none

/--
The end of a text of several lines: three quotes, with at most two more that belong to the text.
-/
def tripleEnd? (quote : Char) (s : List Char) : Option (List Char × List Char) :=
  let quotes := (s.takeWhile (· == quote)).length
  if quotes < 3 then none
  else
    let own := min (quotes - 3) 2
    some (List.replicate own quote, s.drop (own + 3))

/--
A backslash at the end of a line joins the line with the next text.
-/
def joined? (s : List Char) : Option (List Char) :=
  (newline? (skipBlanks s)).map fun rest =>
    rest.dropWhile fun c => isBlank c || c == '\n' || c == '\r'

def quotedLines : (fuel : Nat) → (read : List Char) → Reader String
  | 0, _, _ | _, _, [] => none
  | fuel + 1, read, c :: rest =>
    match tripleEnd? '"' (c :: rest) with
    | some (own, rest) => some (String.ofList (read.reverse ++ own), rest)
    | none =>
      if c = '\\' then
        match joined? rest with
        | some rest => quotedLines fuel read rest
        | none => do
          let (c, rest) ← escape? rest
          quotedLines fuel (c :: read) rest
      else
        match newline? (c :: rest) with
        | some rest => quotedLines fuel ('\n' :: read) rest
        | none => if isPlain c then quotedLines fuel (c :: read) rest else none

def literalLines : (fuel : Nat) → (read : List Char) → Reader String
  | 0, _, _ | _, _, [] => none
  | fuel + 1, read, c :: rest =>
    match tripleEnd? '\'' (c :: rest) with
    | some (own, rest) => some (String.ofList (read.reverse ++ own), rest)
    | none =>
      match newline? (c :: rest) with
      | some rest => literalLines fuel ('\n' :: read) rest
      | none => if isPlain c then literalLines fuel (c :: read) rest else none

/--
A line end right behind the opening quotes does not belong to the text.
-/
def firstLine (s : List Char) : List Char :=
  (newline? s).getD s

def quoted? : Reader String
  | '"' :: '"' :: '"' :: rest => quotedLines (rest.length + 1) [] (firstLine rest)
  | '\'' :: '\'' :: '\'' :: rest => literalLines (rest.length + 1) [] (firstLine rest)
  | '"' :: rest => quotedBody (rest.length + 1) [] rest
  | '\'' :: rest => literalBody rest
  | _ => none

/-! ### Keys -/

def isBareKeyChar (c : Char) : Bool :=
  c.isAlphanum || c == '_' || c == '-'

def keyName? : Reader String
  | '"' :: rest => quotedBody (rest.length + 1) [] rest
  | '\'' :: rest => literalBody rest
  | s =>
    let name := s.takeWhile isBareKeyChar
    if name.isEmpty then none else some (String.ofList name, s.dropWhile isBareKeyChar)

/--
The names of a dotted key, the last one apart.
-/
def key? : (fuel : Nat) → Reader (List String × String)
  | 0, _ => none
  | fuel + 1, s => do
    let (name, rest) ← keyName? (skipBlanks s)
    match skipBlanks rest with
    | '.' :: rest => do
      let ((path, last), rest) ← key? fuel rest
      return ((name :: path, last), rest)
    | rest => return (([], name), rest)

/-! ### Values -/

def isScalarChar (c : Char) : Bool :=
  c.isAlphanum || c == '_' || c == '-' || c == '+' || c == '.' || c == ':'

/--
A value without quotes. Between a date and a time there can be a blank.
-/
def bareValue (s : List Char) : Option (Toml × List Char) := do
  let first := s.takeWhile isScalarChar
  let rest := s.dropWhile isScalarChar
  match rest with
  | ' ' :: more =>
    let second := more.takeWhile isScalarChar
    if date? first = some [] ∧ (second.headD ' ').isDigit then
      let value ← scalar? (first ++ ' ' :: second)
      return (value, more.dropWhile isScalarChar)
    else return (← scalar? first, rest)
  | _ => return (← scalar? first, rest)

def items (item : Reader Toml) : (fuel : Nat) → Reader (List Toml)
  | 0, _ => none
  | fuel + 1, s => do
    let s ← skipLines (s.length + 1) s
    match s with
    | ']' :: rest => return ([], rest)
    | s =>
      let (value, rest) ← item s
      match ← skipLines (rest.length + 1) rest with
      | ']' :: rest => return ([value], rest)
      | ',' :: rest =>
        let (values, rest) ← items item fuel rest
        return (value :: values, rest)
      | _ => none

def pair (item : Reader Toml) : Reader ((List String × String) × Toml) := fun s => do
  let (key, rest) ← key? (s.length + 1) s
  match rest with
  | '=' :: rest =>
    let (value, rest) ← item (skipBlanks rest)
    return ((key, value), rest)
  | _ => none

def pairs (item : Reader Toml) : (fuel : Nat) → Reader (List ((List String × String) × Toml))
  | 0, _ => none
  | fuel + 1, s => do
    let (first, rest) ← pair item s
    match skipBlanks rest with
    | '}' :: rest => return ([first], rest)
    | ',' :: rest =>
      let (others, rest) ← pairs item fuel rest
      return (first :: others, rest)
    | _ => none

def tableOfPairs (entries : List ((List String × String) × Toml)) : Option Toml := do
  let entries ← entries.foldlM
    (fun table ((path, name), value) => Entries.assign path name value .header table) []
  return .table .braces entries

/--
One value. Lists and tables in braces are nested in at most `depth` levels.
-/
def value : (depth : Nat) → Reader Toml
  | depth, '[' :: rest =>
    match depth with
    | 0 => none
    | depth + 1 => do
      let (values, rest) ← items (value depth) (rest.length + 1) rest
      return (.array values, rest)
  | depth, '{' :: rest =>
    match depth with
    | 0 => none
    | depth + 1 =>
      match skipBlanks rest with
      | '}' :: rest => some (.table .braces [], rest)
      | _ => do
        let (entries, rest) ← pairs (value depth) (rest.length + 1) rest
        return (← tableOfPairs entries, rest)
  | _, '"' :: rest => (quoted? ('"' :: rest)).map fun (s, rest) => (.string s, rest)
  | _, '\'' :: rest => (quoted? ('\'' :: rest)).map fun (s, rest) => (.string s, rest)
  | _, s => bareValue s

def maxDepth : Nat := 80

/-! ### Documents -/

structure Progress where
  entries : Entries := []
  header : List String := []

def Progress.assign (p : Progress) (path : List String) (name : String) (v : Toml) :
    Option Progress := do
  let entries ← Entries.changeAt .implied (Entries.assign path name v) p.header .header p.entries
  return { p with entries }

def header (s : List Char) (p : Progress) : Option (Progress × List Char) :=
  match s with
  | '[' :: '[' :: rest => do
    let ((path, name), rest) ← key? (rest.length + 1) rest
    match rest with
    | ']' :: ']' :: rest => return (⟨← p.entries.openElement path name, path ++ [name]⟩, rest)
    | _ => none
  | '[' :: rest => do
    let ((path, name), rest) ← key? (rest.length + 1) rest
    match rest with
    | ']' :: rest => return (⟨← p.entries.openTable path name, path ++ [name]⟩, rest)
    | _ => none
  | s => do
    let (((path, name), v), rest) ← pair (value maxDepth) s
    return (← p.assign path name v, rest)

def lines : (fuel : Nat) → Progress → List Char → Option Entries
  | 0, _, _ => none
  | fuel + 1, p, s => do
    match ← skipLines (s.length + 1) s with
    | [] => return p.entries
    | s =>
      let (p, rest) ← header s p
      lines fuel p (← lineEnd? rest)

/--
Read a text, which can start with a mark of its byte order.
-/
def parse (text : String) : Option Json :=
  let s :=
    match text.toList with
    | '\uFEFF' :: rest => rest
    | s => s
  (lines (s.length + 1) {} s).map fun entries => toJson (.table .header entries)

end Toml
end DerivedQuery
