import DerivedQuery.Pattern.Basic
import DerivedQuery.Pattern.Reader

/-!
This module contains what written patterns mean: flags take effect, and names of classes are looked
up. A pattern that could match a part of a character has no meaning.
-/

namespace DerivedQuery
namespace Pattern

structure Flags where
  ignoreCase : Bool := false
  multiLine : Bool := false
  dotAll : Bool := false
  unicode : Bool := true
  returns : Bool := false
deriving DecidableEq, Repr

namespace Flags

def set (flags : Flags) : Flag → Bool → Flags
  | .ignoreCase, state => { flags with ignoreCase := state }
  | .multiLine, state => { flags with multiLine := state }
  | .dotAll, state => { flags with dotAll := state }
  | .unicode, state => { flags with unicode := state }
  | .returns, state => { flags with returns := state }
  | .swapGreed, _ | .ignoreSpace, _ => flags

def apply (flags : Flags) (change : FlagChange) : Flags :=
  change.foldl (fun flags (flag, state) => flags.set flag state) flags

end Flags

/-! ### Names of classes -/

/--
What two spellings of a property have in common: case, blanks, hyphens and underscores do not
count, nor does `is` at the beginning.
-/
def plainName (name : String) : String :=
  let name :=
    match name.toList with
    | a :: b :: rest => if a.toLower = 'i' ∧ b.toLower = 's' then rest else a :: b :: rest
    | rest => rest
  String.ofList ((name.filter fun c => c != ' ' && c != '_' && c != '-' && c.toNat < 128).map
    Char.toLower)

def categoryNames : List (List String × List Category) :=
  [(["l", "letter"],
    [.uppercaseLetter, .lowercaseLetter, .titlecaseLetter, .modifierLetter, .otherLetter]),
   (["lc", "casedletter"], [.uppercaseLetter, .lowercaseLetter, .titlecaseLetter]),
   (["lu", "uppercaseletter"], [.uppercaseLetter]),
   (["ll", "lowercaseletter"], [.lowercaseLetter]),
   (["lt", "titlecaseletter"], [.titlecaseLetter]),
   (["lm", "modifierletter"], [.modifierLetter]),
   (["lo", "otherletter"], [.otherLetter]),
   (["m", "mark", "combiningmark"], [.nonspacingMark, .spacingMark, .enclosingMark]),
   (["mn", "nonspacingmark"], [.nonspacingMark]),
   (["mc", "spacingmark"], [.spacingMark]),
   (["me", "enclosingmark"], [.enclosingMark]),
   (["n", "number"], [.decimalNumber, .letterNumber, .otherNumber]),
   (["nd", "decimalnumber", "digit"], [.decimalNumber]),
   (["nl", "letternumber"], [.letterNumber]),
   (["no", "othernumber"], [.otherNumber]),
   (["p", "punctuation", "punct"],
    [.connectorPunctuation, .dashPunctuation, .openPunctuation, .closePunctuation,
     .initialPunctuation, .finalPunctuation, .otherPunctuation]),
   (["pc", "connectorpunctuation"], [.connectorPunctuation]),
   (["pd", "dashpunctuation"], [.dashPunctuation]),
   (["ps", "openpunctuation"], [.openPunctuation]),
   (["pe", "closepunctuation"], [.closePunctuation]),
   (["pi", "initialpunctuation"], [.initialPunctuation]),
   (["pf", "finalpunctuation"], [.finalPunctuation]),
   (["po", "otherpunctuation"], [.otherPunctuation]),
   (["s", "symbol"], [.mathSymbol, .currencySymbol, .modifierSymbol, .otherSymbol]),
   (["sm", "mathsymbol"], [.mathSymbol]),
   (["sc", "currencysymbol"], [.currencySymbol]),
   (["sk", "modifiersymbol"], [.modifierSymbol]),
   (["so", "othersymbol"], [.otherSymbol]),
   (["z", "separator"], [.spaceSeparator, .lineSeparator, .paragraphSeparator]),
   (["zs", "spaceseparator"], [.spaceSeparator]),
   (["zl", "lineseparator"], [.lineSeparator]),
   (["zp", "paragraphseparator"], [.paragraphSeparator]),
   (["c", "other"], [.control, .format, .privateUse, .unassigned, .surrogate]),
   (["cc", "control", "cntrl"], [.control]),
   (["cf", "format"], [.format]),
   (["cs", "surrogate"], [.surrogate]),
   (["co", "privateuse"], [.privateUse]),
   (["cn", "unassigned"], [.unassigned])]

def categoryClass? (name : String) : Option CharClass :=
  match name with
  | "any" => some (.compl .none)
  | "assigned" => some (.compl (.categories [.unassigned]))
  | "ascii" => some (.range '\x00' '\x7f')
  | _ =>
    (categoryNames.find? fun (names, _) => names.contains name).map fun (_, codes) =>
      .categories codes

def scriptClass? (name : String) : Option CharClass :=
  (Script.all.find? fun s => s.name == name || s.code == name).map .script

/--
The class of a property. The table is partial: of the binary properties, it has the common ones only.
-/
def propertyClass? (name : String) : Option CharClass :=
  match plainName name with
  | "alphabetic" | "alpha" => some .alphabetic
  | "uppercase" | "upper" => some (.categories [.uppercaseLetter])
  | "lowercase" | "lower" => some (.categories [.lowercaseLetter])
  | "whitespace" | "wspace" | "space" => some .space
  | "asciihexdigit" | "ahex" => some (.ofRanges [('0', '9'), ('A', 'F'), ('a', 'f')])
  | name => (categoryClass? name).or (scriptClass? name)

def valueClass? (property value : String) : Option CharClass :=
  match plainName property with
  | "generalcategory" | "gc" => categoryClass? (plainName value)
  | "script" | "sc" => scriptClass? (plainName value)
  | _ => none

/-! ### Classes -/

def NamedClass.unicodeClass? (ignoreCase : Bool) : NamedClass → Option CharClass
  | .digit => some (CharClass.categories [.decimalNumber])
  | .space => some CharClass.space
  | .word => some CharClass.word
  | .property name => (propertyClass? name).map (foldIf ignoreCase)
  | .valueOf name value => (valueClass? name value).map (foldIf ignoreCase)
where
  foldIf (ignoreCase : Bool) (a : CharClass) : CharClass :=
    if ignoreCase then .folded a else a

/--
The class of a name where only ASCII counts. It must not go beyond.
-/
def NamedClass.asciiClass? : NamedClass → Option CharClass
  | .digit => some (CharClass.range '0' '9')
  | .space => some (CharClass.ofRanges [('\t', '\r'), (' ', ' ')])
  | .word => some (CharClass.ofRanges [('0', '9'), ('A', 'Z'), ('_', '_'), ('a', 'z')])
  | _ => none

def NamedClass.meaning? (flags : Flags) (negated : Bool) (c : NamedClass) : Option CharClass :=
  if flags.unicode then (c.unicodeClass? flags.ignoreCase).map (CharClass.negateIf negated)
  else if negated then none
  else c.asciiClass?

/--
Cases are added before the class is negated. A class of bytes must not go beyond ASCII.
-/
def closeClass? (flags : Flags) (negated : Bool) (a : CharClass) : Option CharClass :=
  if flags.unicode then
    some (.negateIf negated (if flags.ignoreCase then .folded a else a))
  else
    let a := CharClass.negateIf negated (if flags.ignoreCase then .asciiFolded a else a)
    if a.isAscii then some a else none

/--
A character of a set. Where sets are sets of bytes it has to be in ASCII.
-/
def letterOfSet? (flags : Flags) (l : Letter) : Option Char :=
  if flags.unicode || l.char.toNat < 128 then some l.char else none

def foldOperand (flags : Flags) (a : CharClass) : CharClass :=
  if flags.ignoreCase then if flags.unicode then .folded a else .asciiFolded a else a

mutual

def SetTree.meaning? (flags : Flags) : SetTree → Option CharClass
  | .empty => some .none
  | .letter l => (letterOfSet? flags l).map .single
  | .range first last => do
    return .range (← letterOfSet? flags first) (← letterOfSet? flags last)
  | .ascii negated ranges => closeClass? flags negated (.ofRanges ranges)
  | .named negated c => c.meaning? flags negated
  | .union items => SetTree.unionMeaning? flags items
  | .bracket negated body => do closeClass? flags negated (← body.meaning? flags)
  | .op operator a b => do
    let a := foldOperand flags (← a.meaning? flags)
    let b := foldOperand flags (← b.meaning? flags)
    return match operator with
      | .inter => .inter a b
      | .diff => .diff a b
      | .symmDiff => .symmDiff a b

def SetTree.unionMeaning? (flags : Flags) : List SetTree → Option CharClass
  | [] => some .none
  | item :: items => do
    return .union (← item.meaning? flags) (← SetTree.unionMeaning? flags items)

end

/-! ### Patterns -/

def letterMeaning? (flags : Flags) (l : Letter) : Option Pattern :=
  if flags.unicode then
    let single := CharClass.single l.char
    some (.one (if flags.ignoreCase then .folded single else single))
  else if l.isByte && 128 ≤ l.char.toNat then none
  else if flags.ignoreCase && l.char.isAlpha then some (.one (.asciiFolded (.single l.char)))
  else some (.one (.single l.char))

def dotClass (flags : Flags) : CharClass :=
  if flags.dotAll then .compl .none
  else if flags.returns then .compl (.ofRanges [('\n', '\n'), ('\r', '\r')])
  else .compl (.single '\n')

def Anchor.look (flags : Flags) : Anchor → Look
  | .lineStart => if flags.multiLine then .lineStart flags.returns else .textStart
  | .lineEnd => if flags.multiLine then .lineEnd flags.returns else .textEnd
  | .textStart => .textStart
  | .textEnd => .textEnd
  | .boundary => .boundary flags.unicode
  | .notBoundary => .notBoundary flags.unicode
  | .wordStart => .wordStart flags.unicode
  | .wordEnd => .wordEnd flags.unicode
  | .wordStartHalf => .wordStartHalf flags.unicode
  | .wordEndHalf => .wordEndHalf flags.unicode

def Atom.meaning? (flags : Flags) : Atom → Option Pattern
  | .letter l => letterMeaning? flags l
  | .dot => if flags.unicode then some (.one (dotClass flags)) else none
  | .anchor a => some (.look (a.look flags))
  | .named negated c => (c.meaning? flags negated).map .one

mutual

/--
The pattern of a tree, and the flags that hold after it.
-/
def Tree.meaning? (flags : Flags) : Tree → Option (Pattern × Flags)
  | .empty => some (.empty, flags)
  | .flags change => some (.empty, flags.apply change)
  | .atom a => (a.meaning? flags).map fun p => (p, flags)
  | .set negated body => do
    return (.one (← closeClass? flags negated (← body.meaning? flags)), flags)
  | .repeated t least most => do
    let (p, flags) ← t.meaning? flags
    return (.repeated p least most, flags)
  | .group change t => do
    let (p, _) ← t.meaning? (flags.apply change)
    return (p, flags)
  | .alt ts => Tree.altMeaning? flags ts
  | .concat ts => Tree.concatMeaning? flags ts

def Tree.concatMeaning? (flags : Flags) : List Tree → Option (Pattern × Flags)
  | [] => some (.empty, flags)
  | t :: ts => do
    let (p, flags) ← t.meaning? flags
    let (q, flags) ← Tree.concatMeaning? flags ts
    return (.seq p q, flags)

def Tree.altMeaning? (flags : Flags) : List Tree → Option (Pattern × Flags)
  | [] => some (.one .none, flags)
  | t :: ts => do
    let (p, flags) ← t.meaning? flags
    let (q, flags) ← Tree.altMeaning? flags ts
    return (.alt p q, flags)

end

/--
The room that a pattern may take. It is compared with an estimate, which need not be right for
patterns near this bound.
-/
def maxCost : Nat := 10 * Nat.pow 2 20

def ofChars? (ignoreCase : Bool) (s : List Char) : Option Pattern := do
  let tree ← Tree.ofChars? s
  let (p, _) ← tree.meaning? { ignoreCase := ignoreCase }
  if p.cost ≤ maxCost then some p else none

def ofText? (ignoreCase : Bool) (s : String) : Option Pattern :=
  ofChars? ignoreCase s.toList

def isValid (s : String) : Bool :=
  (ofText? false s).isSome

/-! ### Literal text -/

def escapeChar (c : Char) : List Char :=
  if Reader.isMeta c then ['\\', c] else [c]

def escapeChars (s : List Char) : List Char :=
  s.flatMap escapeChar

/--
The pattern text that matches exactly `s`.
-/
def escape (s : String) : String :=
  String.ofList (escapeChars s.toList)

end Pattern
end DerivedQuery
