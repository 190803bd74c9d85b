import DerivedQuery.Pattern.Tree
import DerivedQuery.Text.Encoding
import DerivedQuery.Text.Split

/-!
This module contains the reader of patterns. It takes the text as a list of characters and hands
back what it did not read.
-/

namespace DerivedQuery
namespace Pattern
namespace Reader

/-! ### Blanks -/

def skipComment : List Char → List Char
  | [] => []
  | c :: cs => if c = '\n' then cs else skipComment cs

def skipSpaceWithin : (fuel : Nat) → List Char → List Char
  | 0, s => s
  | _ + 1, [] => []
  | fuel + 1, c :: cs =>
    if Text.isSpace c then skipSpaceWithin fuel cs
    else if c = '#' then skipSpaceWithin fuel (skipComment cs)
    else c :: cs

/--
Skip blanks and comments where they do not count.
-/
def skip (ignoreSpace : Bool) (s : List Char) : List Char :=
  if ignoreSpace then skipSpaceWithin s.length s else s

/-! ### Escapes -/

def metaChars : List Char :=
  ['\\', '.', '+', '*', '?', '(', ')', '|', '[', ']', '{', '}', '^', '$', '#', '&', '-', '~']

def isMeta (c : Char) : Bool :=
  metaChars.contains c

/--
A backslash before a character of ASCII that is no letter, digit or angle bracket means the
character itself.
-/
def isEscapable (c : Char) : Bool :=
  isMeta c || (c.toNat < 128 && !c.isAlphanum && c != '<' && c != '>')

def charOf? (hexDigits : List Char) : Option Char := do
  let n ← Hex.nat? hexDigits
  if h : n.isValidChar then some (Char.ofNatAux n h) else none

def hexDigits? (ignoreSpace : Bool) : (count : Nat) → List Char → Option (List Char × List Char)
  | 0, s => some ([], s)
  | _ + 1, [] => none
  | count + 1, c :: cs => do
    let _ ← Hex.value? c
    let (digits, rest) ← hexDigits? ignoreSpace count (skip ignoreSpace cs)
    return (c :: digits, rest)

def braced? (ignoreSpace : Bool) : (fuel : Nat) → List Char → Option (List Char × List Char)
  | 0, _ => none
  | fuel + 1, s =>
    match skip ignoreSpace s with
    | [] => none
    | '}' :: rest => some ([], rest)
    | c :: cs => do
      let (chars, rest) ← braced? ignoreSpace fuel cs
      return (c :: chars, rest)

def hexEscape? (ignoreSpace : Bool) (count : Nat) (s : List Char) :
    Option (Letter × List Char) := do
  match skip ignoreSpace s with
  | '{' :: rest =>
    let (digits, rest) ← braced? ignoreSpace (rest.length + 1) rest
    if digits.isEmpty then none
    else return (⟨← charOf? digits, false⟩, skip ignoreSpace rest)
  | s =>
    let (digits, rest) ← hexDigits? ignoreSpace count s
    return (⟨← charOf? digits, count == 2⟩, rest)

def cutAt? (mark : List Char) : List Char → Option (List Char × List Char)
  | [] => none
  | c :: cs =>
    match Text.dropStart? mark (c :: cs) with
    | some rest => some ([], rest)
    | none => (cutAt? mark cs).map fun (before, after) => (c :: before, after)

/--
The property that a name between braces means, and whether an unequal sign negates it.
-/
def propertyOf (name : List Char) : Bool × NamedClass :=
  match cutAt? ['!', '='] name with
  | some (property, value) => (true, .valueOf (String.ofList property) (String.ofList value))
  | none =>
    match cutAt? [':'] name, cutAt? ['='] name with
    | some (property, value), _ | none, some (property, value) =>
      (false, .valueOf (String.ofList property) (String.ofList value))
    | none, none => (false, .property (String.ofList name))

def propertyEscape? (ignoreSpace negated : Bool) (s : List Char) : Option (Atom × List Char) := do
  match skip ignoreSpace s with
  | [] => none
  | '{' :: rest =>
    let (name, rest) ← braced? ignoreSpace (rest.length + 1) rest
    let (unequal, c) := propertyOf name
    return (.named (negated != unequal) c, rest)
  | '\\' :: _ => none
  | c :: rest =>
    return (.named negated (.property (String.ofList [c])), skip ignoreSpace rest)

def isBoundaryChar (c : Char) : Bool :=
  c.isAlpha || c == '-'

def boundaryName (ignoreSpace : Bool) : (fuel : Nat) → List Char → List Char × List Char
  | 0, s => ([], s)
  | _ + 1, [] => ([], [])
  | fuel + 1, c :: cs =>
    if isBoundaryChar c then
      let (name, rest) := boundaryName ignoreSpace fuel (skip ignoreSpace cs)
      (c :: name, rest)
    else ([], c :: cs)

/--
The anchor that `\b` starts. Braces behind it can name one of four other anchors.
-/
def boundaryEscape? (ignoreSpace : Bool) : List Char → Option (Anchor × List Char)
  | '{' :: rest =>
    match skip ignoreSpace rest with
    | [] => none
    | c :: cs =>
      if isBoundaryChar c then
        match boundaryName ignoreSpace (cs.length + 1) (c :: cs) with
        | (name, '}' :: rest) =>
          match String.ofList name with
          | "start" => some (.wordStart, rest)
          | "end" => some (.wordEnd, rest)
          | "start-half" => some (.wordStartHalf, rest)
          | "end-half" => some (.wordEndHalf, rest)
          | _ => none
        | _ => none
      else some (.boundary, '{' :: rest)
  | s => some (.boundary, s)

def escape? (ignoreSpace : Bool) : List Char → Option (Atom × List Char)
  | [] => none
  | c :: cs =>
    if c.isDigit then none
    else if isEscapable c then some (.letter ⟨c, false⟩, cs)
    else
      let letter (c : Char) := some (Atom.letter ⟨c, false⟩, cs)
      let hex (count : Nat) :=
        (hexEscape? ignoreSpace count cs).map fun (l, rest) => (Atom.letter l, rest)
      match c with
      | 'x' => hex 2
      | 'u' => hex 4
      | 'U' => hex 8
      | 'p' => propertyEscape? ignoreSpace false cs
      | 'P' => propertyEscape? ignoreSpace true cs
      | 'd' => some (.named false .digit, cs)
      | 'D' => some (.named true .digit, cs)
      | 's' => some (.named false .space, cs)
      | 'S' => some (.named true .space, cs)
      | 'w' => some (.named false .word, cs)
      | 'W' => some (.named true .word, cs)
      | 'a' => letter '\x07'
      | 'f' => letter '\x0c'
      | 't' => letter '\t'
      | 'n' => letter '\n'
      | 'r' => letter '\r'
      | 'v' => letter '\x0b'
      | 'A' => some (.anchor .textStart, cs)
      | 'z' => some (.anchor .textEnd, cs)
      | 'b' => (boundaryEscape? ignoreSpace cs).map fun (a, rest) => (.anchor a, rest)
      | 'B' => some (.anchor .notBoundary, cs)
      | '<' => some (.anchor .wordStart, cs)
      | '>' => some (.anchor .wordEnd, cs)
      | _ => none

/-! ### Brackets -/

def asciiClasses : List (String × List (Char × Char)) :=
  [("alnum", [('0', '9'), ('A', 'Z'), ('a', 'z')]),
   ("alpha", [('A', 'Z'), ('a', 'z')]),
   ("ascii", [('\x00', '\x7f')]),
   ("blank", [('\t', '\t'), (' ', ' ')]),
   ("cntrl", [('\x00', '\x1f'), ('\x7f', '\x7f')]),
   ("digit", [('0', '9')]),
   ("graph", [('!', '~')]),
   ("lower", [('a', 'z')]),
   ("print", [(' ', '~')]),
   ("punct", [('!', '/'), (':', '@'), ('[', '\x60'), ('{', '~')]),
   ("space", [('\t', '\t'), ('\n', '\n'), ('\x0b', '\x0b'), ('\x0c', '\x0c'), ('\r', '\r'),
     (' ', ' ')]),
   ("upper", [('A', 'Z')]),
   ("word", [('0', '9'), ('A', 'Z'), ('_', '_'), ('a', 'z')]),
   ("xdigit", [('0', '9'), ('A', 'F'), ('a', 'f')])]

def asciiClass? : List Char → Option (SetTree × List Char)
  | ':' :: s =>
    let (negated, s) :=
      match s with
      | '^' :: rest => (true, rest)
      | rest => (false, rest)
    let name := s.takeWhile (· != ':')
    match s.drop name.length with
    | ':' :: ']' :: rest =>
      (asciiClasses.lookup (String.ofList name)).map fun ranges => (.ascii negated ranges, rest)
    | _ => none
  | _ => none

def setAtom? (ignoreSpace : Bool) : List Char → Option (Atom × List Char)
  | [] => none
  | '\\' :: cs => escape? ignoreSpace cs
  | c :: cs => some (.letter ⟨c, false⟩, cs)

def setItem? : Atom → Option SetTree
  | .letter l => some (.letter l)
  | .named negated c => some (.named negated c)
  | _ => none

/--
An item of a set or a range. A hyphen before a bracket or another hyphen makes no range.
-/
def setRange? (ignoreSpace : Bool) (s : List Char) : Option (SetTree × List Char) := do
  let (first, rest) ← setAtom? ignoreSpace s
  match skip ignoreSpace rest with
  | [] => none
  | '-' :: rest =>
    match skip ignoreSpace rest with
    | ']' :: _ | '-' :: _ => return (← setItem? first, '-' :: rest)
    | s =>
      let (last, rest) ← setAtom? ignoreSpace s
      match first, last with
      | .letter a, .letter b => if a.char ≤ b.char then some (.range a b, rest) else none
      | _, _ => none
  | rest => return (← setItem? first, rest)

/--
The hyphens at the beginning of a set, which stand for themselves.
-/
def leadingHyphens (ignoreSpace : Bool) : (fuel : Nat) → List Char → Nat × List Char
  | 0, s => (0, s)
  | fuel + 1, s =>
    match s with
    | '-' :: rest =>
      let (count, rest) := leadingHyphens ignoreSpace fuel (skip ignoreSpace rest)
      (count + 1, rest)
    | s => (0, s)

/--
The beginning of a set: whether it is negated, and the hyphens, or the closing bracket, that stand
for themselves there. The items are in reverse order.
-/
def setStart (ignoreSpace : Bool) (s : List Char) : Bool × List SetTree × List Char :=
  let s := skip ignoreSpace s
  let (negated, s) :=
    match s with
    | '^' :: rest => (true, skip ignoreSpace rest)
    | s => (false, s)
  match leadingHyphens ignoreSpace s.length s with
  | (0, ']' :: rest) => (negated, [.letter ⟨']', false⟩], skip ignoreSpace rest)
  | (count, rest) => (negated, List.replicate count (.letter ⟨'-', false⟩), rest)

/--
What has been read of a set: the left side of an operator, and the items after it in reverse order.
-/
def setBody (left : Option (SetOperator × SetTree)) (items : List SetTree) : SetTree :=
  let right := SetTree.ofList items.reverse
  match left with
  | none => right
  | some (operator, tree) => .op operator tree right

def setRest? (ignoreSpace : Bool) : (fuel : Nat) → (left : Option (SetOperator × SetTree)) →
    (items : List SetTree) → List Char → Option (SetTree × List Char)
  | 0, _, _, _ => none
  | fuel + 1, left, items, s =>
    match skip ignoreSpace s with
    | [] => none
    | '[' :: rest =>
      match asciiClass? rest with
      | some (item, rest) => setRest? ignoreSpace fuel left (item :: items) rest
      | none => do
        let (negated, inner, rest) := setStart ignoreSpace rest
        let (body, rest) ← setRest? ignoreSpace fuel none inner rest
        setRest? ignoreSpace fuel left (.bracket negated body :: items) rest
    | ']' :: rest => some (setBody left items, rest)
    | '&' :: '&' :: rest => setRest? ignoreSpace fuel (some (.inter, setBody left items)) [] rest
    | '-' :: '-' :: rest => setRest? ignoreSpace fuel (some (.diff, setBody left items)) [] rest
    | '~' :: '~' :: rest =>
      setRest? ignoreSpace fuel (some (.symmDiff, setBody left items)) [] rest
    | s => do
      let (item, rest) ← setRange? ignoreSpace s
      setRest? ignoreSpace fuel left (item :: items) rest

def set? (ignoreSpace : Bool) (s : List Char) : Option (Tree × List Char) := do
  let (negated, items, rest) := setStart ignoreSpace s
  let (body, rest) ← setRest? ignoreSpace (rest.length + 1) none items rest
  return (.set negated body, rest)

/-! ### Repetitions -/

/--
What can be repeated: the last tree, unless it only sets flags.
-/
def repeatable? : List Tree → Option (Tree × List Tree)
  | [] => none
  | .empty :: _ | .flags _ :: _ => none
  | t :: ts => some (t, ts)

/--
A question mark behind a repetition changes which match is found, not whether there is one.
-/
def skipLazy : List Char → List Char
  | '?' :: rest => rest
  | rest => rest

def decimalDigits (ignoreSpace : Bool) : (fuel : Nat) → List Char → List Char × List Char
  | 0, s => ([], s)
  | _ + 1, [] => ([], [])
  | fuel + 1, c :: cs =>
    if c.isDigit then
      let (digits, rest) := decimalDigits ignoreSpace fuel (skip ignoreSpace cs)
      (c :: digits, rest)
    else ([], c :: cs)

def count? (ignoreSpace : Bool) (s : List Char) : Option (Option Nat × List Char) :=
  let s := s.dropWhile Text.isSpace
  let (digits, rest) := decimalDigits ignoreSpace s.length s
  let rest := skip ignoreSpace (rest.dropWhile Text.isSpace)
  let n := Text.natOfDigits digits
  if digits.isEmpty then some (none, rest)
  else if n < Nat.pow 2 32 then some (some n, rest) else none

def bounds? (ignoreSpace : Bool) (s : List Char) : Option ((Nat × Option Nat) × List Char) := do
  match skip ignoreSpace s with
  | [] => none
  | s =>
    let (least, rest) ← count? ignoreSpace s
    match rest with
    | ',' :: rest =>
      match skip ignoreSpace rest with
      | '}' :: rest => return ((← least, none), skip ignoreSpace rest)
      | rest =>
        let least ← least
        let (most, rest) ← count? ignoreSpace rest
        let most ← most
        match rest with
        | '}' :: rest =>
          if least ≤ most then some ((least, some most), skip ignoreSpace rest) else none
        | _ => none
    | '}' :: rest =>
      let least ← least
      return ((least, some least), skip ignoreSpace rest)
    | _ => none

/-! ### Groups -/

def flag? : Char → Option Flag
  | 'i' => some .ignoreCase
  | 'm' => some .multiLine
  | 's' => some .dotAll
  | 'U' => some .swapGreed
  | 'u' => some .unicode
  | 'R' => some .returns
  | 'x' => some .ignoreSpace
  | _ => none

/--
The flags up to a colon or a closing parenthesis. No flag occurs twice, there is at most one hyphen,
and it is not the last character.
-/
def flags? (state dangling : Bool) (change : FlagChange) :
    List Char → Option (FlagChange × List Char)
  | [] => none
  | c :: cs =>
    if c = ':' ∨ c = ')' then
      if dangling then none else some (change.reverse, c :: cs)
    else if c = '-' then
      if state then flags? false true change cs else none
    else
      match flag? c with
      | some flag =>
        if change.any fun (other, _) => other == flag then none
        else flags? state false ((flag, state) :: change) cs
      | none => none

def isNameStart (c : Char) : Bool :=
  c == '_' || Text.isAlphabetic c

def isNameChar (c : Char) : Bool :=
  c == '_' || c == '.' || c == '[' || c == ']' || Text.isAlphanumeric c

def groupName? (s : List Char) : Option (String × List Char) :=
  let name := s.takeWhile (· != '>')
  match name, s.drop name.length with
  | c :: cs, _ :: rest =>
    if isNameStart c && cs.all isNameChar then some (String.ofList name, rest) else none
  | _, _ => none

inductive Opening where
  | flags (change : FlagChange)
  | group (change : FlagChange) (name : Option String)

def named? (s : List Char) : Option (Opening × List Char) :=
  (groupName? s).map fun (name, rest) => (.group [] (some name), rest)

/--
The beginning of a group, from behind its parenthesis on. Looking ahead or behind is not supported.
-/
def opening? (ignoreSpace : Bool) (s : List Char) : Option (Opening × List Char) :=
  match skip ignoreSpace s with
  | '?' :: '=' :: _ | '?' :: '!' :: _ | '?' :: '<' :: '=' :: _ | '?' :: '<' :: '!' :: _ => none
  | '?' :: 'P' :: '<' :: rest | '?' :: '<' :: rest => named? rest
  | '?' :: rest =>
    match flags? true false [] rest with
    | some ([], ')' :: _) => none
    | some (change, ')' :: rest) => some (.flags change, rest)
    | some (change, _ :: rest) => some (.group change none, rest)
    | _ => none
  | rest => some (.group [] none, rest)

def spaceAfter (ignoreSpace : Bool) (change : FlagChange) : Bool :=
  (change.lookup .ignoreSpace).getD ignoreSpace

/--
What has been read of a group: its alternatives, and the trees after them, both in reverse order.
-/
structure Progress where
  ignoreSpace : Bool
  names : List String
  done : List Tree := []
  row : List Tree := []

namespace Progress

def push (p : Progress) (t : Tree) : Progress :=
  { p with row := t :: p.row }

def nextAlternative (p : Progress) : Progress :=
  { p with done := Tree.ofList p.row.reverse :: p.done, row := [] }

def tree (p : Progress) : Tree :=
  Tree.ofAlternatives (Tree.ofList p.row.reverse :: p.done).reverse

def repeatLast? (p : Progress) (least : Nat) (most : Option Nat) : Option Progress :=
  (repeatable? p.row).map fun (t, row) => { p with row := .repeated t least most :: row }

end Progress

def body? : (fuel : Nat) → Progress → List Char → Option (Progress × List Char)
  | 0, _, _ => none
  | fuel + 1, p, s =>
    match skip p.ignoreSpace s with
    | [] => some (p, [])
    | c :: cs =>
      match c with
      | ')' => some (p, c :: cs)
      | '(' =>
        match opening? p.ignoreSpace cs with
        | none => none
        | some (.flags change, rest) =>
          body? fuel
            { p with ignoreSpace := spaceAfter p.ignoreSpace change, row := .flags change :: p.row }
            rest
        | some (.group change name, rest) =>
          let names := name.toList ++ p.names
          if !names.Nodup then none
          else
            match body? fuel ⟨spaceAfter p.ignoreSpace change, names, [], []⟩ rest with
            | some (inner, _ :: rest) =>
              body? fuel
                { p with names := inner.names, row := .group change inner.tree :: p.row } rest
            | _ => none
      | '|' => body? fuel p.nextAlternative cs
      | '[' =>
        match set? p.ignoreSpace cs with
        | some (t, rest) => body? fuel (p.push t) rest
        | none => none
      | '?' =>
        match p.repeatLast? 0 (some 1) with
        | some p => body? fuel p (skipLazy cs)
        | none => none
      | '*' =>
        match p.repeatLast? 0 none with
        | some p => body? fuel p (skipLazy cs)
        | none => none
      | '+' =>
        match p.repeatLast? 1 none with
        | some p => body? fuel p (skipLazy cs)
        | none => none
      | '{' =>
        match bounds? p.ignoreSpace cs with
        | some ((least, most), rest) =>
          match p.repeatLast? least most with
          | some p => body? fuel p (skipLazy rest)
          | none => none
        | none => none
      | '\\' =>
        match escape? p.ignoreSpace cs with
        | some (a, rest) => body? fuel (p.push (.atom a)) rest
        | none => none
      | '.' => body? fuel (p.push (.atom .dot)) cs
      | '^' => body? fuel (p.push (.atom (.anchor .lineStart))) cs
      | '$' => body? fuel (p.push (.atom (.anchor .lineEnd))) cs
      | c => body? fuel (p.push (.atom (.letter ⟨c, false⟩))) cs

end Reader

/--
The number of constructs that may stand inside each other.
-/
def maxDepth : Nat := 250

def Tree.ofChars? (s : List Char) : Option Tree :=
  match Reader.body? (s.length + 1) ⟨false, [], [], []⟩ s with
  | some (p, []) => if p.tree.depth ≤ maxDepth then some p.tree else none
  | _ => none

end Pattern
end DerivedQuery
