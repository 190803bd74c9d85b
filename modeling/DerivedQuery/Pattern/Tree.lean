import DerivedQuery.Text.Category

/-!
This module contains patterns as they are written, before the flags in them take effect.
-/

namespace DerivedQuery
namespace Pattern

inductive Flag where
  | ignoreCase
  | multiLine
  | dotAll
  | swapGreed
  | unicode
  | returns
  | ignoreSpace
deriving DecidableEq, Repr

abbrev FlagChange := List (Flag × Bool)

inductive Anchor where
  | lineStart
  | lineEnd
  | textStart
  | textEnd
  | boundary
  | notBoundary
  | wordStart
  | wordEnd
  | wordStartHalf
  | wordEndHalf
deriving DecidableEq, Repr

inductive NamedClass where
  | digit
  | space
  | word
  | property (name : String)
  | valueOf (property value : String)
deriving DecidableEq, Repr

/--
A character, and whether it is written as the two hexadecimal digits of a byte.
-/
structure Letter where
  char : Char
  isByte : Bool := false
deriving DecidableEq, Repr

inductive Atom where
  | letter (l : Letter)
  | dot
  | anchor (a : Anchor)
  | named (negated : Bool) (c : NamedClass)
deriving DecidableEq, Repr

inductive SetOperator where
  | inter
  | diff
  | symmDiff
deriving DecidableEq, Repr

inductive SetTree where
  | empty
  | letter (l : Letter)
  | range (first last : Letter)
  | ascii (negated : Bool) (ranges : List (Char × Char))
  | named (negated : Bool) (c : NamedClass)
  | union (items : List SetTree)
  | bracket (negated : Bool) (body : SetTree)
  | op (operator : SetOperator) (a b : SetTree)

inductive Tree where
  | empty
  | flags (change : FlagChange)
  | atom (a : Atom)
  | set (negated : Bool) (body : SetTree)
  | repeated (t : Tree) (least : Nat) (most : Option Nat)
  | group (change : FlagChange) (t : Tree)
  | alt (ts : List Tree)
  | concat (ts : List Tree)

mutual

def SetTree.depth : SetTree → Nat
  | .union items => 1 + depthItems items
  | .bracket _ body => 1 + body.depth
  | .op _ a b => 1 + max a.depth b.depth
  | _ => 0

def SetTree.depthItems : List SetTree → Nat
  | [] => 0
  | item :: items => max item.depth (depthItems items)

end

mutual

def Tree.depth : Tree → Nat
  | .set _ body => 1 + body.depth
  | .repeated t _ _ => 1 + t.depth
  | .group _ t => 1 + t.depth
  | .alt ts => 1 + depthList ts
  | .concat ts => 1 + depthList ts
  | _ => 0

def Tree.depthList : List Tree → Nat
  | [] => 0
  | t :: ts => max t.depth (depthList ts)

end

/--
Trees in a row. A single one stands for itself.
-/
def Tree.ofList : List Tree → Tree
  | [] => .empty
  | [t] => t
  | ts => .concat ts

def Tree.ofAlternatives : List Tree → Tree
  | [t] => t
  | ts => .alt ts

def SetTree.ofList : List SetTree → SetTree
  | [] => .empty
  | [t] => t
  | ts => .union ts

end Pattern
end DerivedQuery
