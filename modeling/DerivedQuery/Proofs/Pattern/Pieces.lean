import DerivedQuery.Pattern.Meaning
import DerivedQuery.Proofs.Pattern.Folding
import Mathlib.Data.List.Forall2

/-!
This module contains the patterns that are made of literal characters, runs of any characters and
the two ends of a text. They are read as they are written, and where case is ignored they do not
depend on the case of their letters.
-/

namespace DerivedQuery
namespace Pattern

inductive Piece where
  | char (c : Char)
  | anyRun
  | start
  | finish
deriving DecidableEq, Repr

namespace Piece

def text : Piece → List Char
  | .char c => escapeChar c
  | .anyRun => ['.', '*']
  | .start => ['^']
  | .finish => ['$']

def tree : Piece → Tree
  | .char c => .atom (.letter ⟨c, false⟩)
  | .anyRun => .repeated (.atom .dot) 0 none
  | .start => .atom (.anchor .lineStart)
  | .finish => .atom (.anchor .lineEnd)

def steps : Piece → Nat
  | .char _ | .start | .finish => 1
  | .anyRun => 2

def pattern (ignoreCase : Bool) : Piece → Pattern
  | .char c => .one (if ignoreCase then .folded (.single c) else .single c)
  | .anyRun => .repeated (.one (.compl (.single '\n'))) 0 none
  | .start => .look .textStart
  | .finish => .look .textEnd

end Piece

def ofPieces (ignoreCase : Bool) : List Piece → Pattern
  | [] => .empty
  | [piece] => piece.pattern ignoreCase
  | pieces => .concat (pieces.map (Piece.pattern ignoreCase))

/-! ### Literal characters -/

theorem escapeChar_append_ne {c m : Char} {s rest : List Char} (hmeta : Reader.isMeta m = true)
    (hm : m ≠ '\\') : escapeChar c ++ s ≠ m :: rest := by
  unfold escapeChar
  split
  next => exact fun h => hm (List.cons.inj h).1.symm
  next hc => exact fun h => hc ((List.cons.inj h).1 ▸ hmeta)

theorem Piece.steps_le_length_text (piece : Piece) : piece.steps ≤ piece.text.length := by
  cases piece with
  | char c =>
    rw [steps, text, escapeChar]
    split <;> simp
  | anyRun | start | finish => decide

/-! ### Reading -/

namespace Reader

theorem escape?_of_isMeta {c : Char} (h : isMeta c = true) (cs : List Char) :
    escape? false (c :: cs) = some (.letter ⟨c, false⟩, cs) := by
  have hall : metaChars.all (fun m => !m.isDigit) = true := by decide
  have hdigit : c.isDigit = false := by
    simpa using List.all_eq_true.mp hall c (List.contains_iff_mem.mp h)
  rw [escape?, hdigit]
  simp [isEscapable, h]

variable {p : Progress} {fuel : Nat} {rest : List Char}

theorem body?_escapeChar (hspace : p.ignoreSpace = false) (c : Char) :
    body? (fuel + 1) p (escapeChar c ++ rest)
      =
    body? fuel (p.push (.atom (.letter ⟨c, false⟩))) rest := by
  unfold escapeChar
  split
  next hmeta =>
    rw [body?]
    simp [skip, hspace, escape?_of_isMeta hmeta]
  next hmeta =>
    rw [body?, skip, hspace, if_neg Bool.false_ne_true, List.singleton_append]
    dsimp only
    -- All characters with a branch of their own are meta characters.
    split
    all_goals first
      | rfl
      | simp [isMeta, metaChars] at hmeta

theorem body?_anyRun (hspace : p.ignoreSpace = false) (hrest : skipLazy rest = rest) :
    body? (fuel + 2) p ('.' :: '*' :: rest)
      =
    body? fuel (p.push (.repeated (.atom .dot) 0 none)) rest := by
  have hdot : body? (fuel + 2) p ('.' :: '*' :: rest)
      = body? (fuel + 1) (p.push (.atom .dot)) ('*' :: rest) := by
    rw [body?, skip, hspace]
    rfl
  have hstar : body? (fuel + 1) (p.push (.atom .dot)) ('*' :: rest)
      = body? fuel (p.push (.repeated (.atom .dot) 0 none)) (skipLazy rest) := by
    rw [body?, skip, show (p.push (.atom .dot)).ignoreSpace = false from hspace]
    rfl
  rw [hdot, hstar, hrest]

theorem body?_text (hspace : p.ignoreSpace = false) (hrest : skipLazy rest = rest)
    (piece : Piece) :
    body? (fuel + piece.steps) p (piece.text ++ rest) = body? fuel (p.push piece.tree) rest := by
  cases piece with
  | char c => exact body?_escapeChar hspace c
  | anyRun => exact body?_anyRun hspace hrest
  | start | finish =>
    rw [Piece.steps, body?, skip, hspace]
    rfl

/--
No piece begins with a question mark, which would belong to the run before it.
-/
theorem skipLazy_flatMap_text (pieces : List Piece) :
    skipLazy (pieces.flatMap Piece.text) = pieces.flatMap Piece.text := by
  cases pieces with
  | nil => rfl
  | cons piece pieces =>
    rw [List.flatMap_cons]
    cases piece with
    | char c =>
      unfold skipLazy
      split
      next h => exact absurd h (escapeChar_append_ne (by decide) (by decide))
      next => rfl
    | anyRun | start | finish => rfl

theorem body?_flatMap_text (hspace : p.ignoreSpace = false) {pieces : List Piece}
    (hfuel : (pieces.flatMap Piece.text).length < fuel) :
    body? fuel p (pieces.flatMap Piece.text)
      =
    some ({ p with row := (pieces.map Piece.tree).reverse ++ p.row }, []) := by
  induction pieces generalizing p fuel with
  | nil =>
    obtain ⟨fuel, rfl⟩ := Nat.exists_eq_add_of_lt hfuel
    rw [List.flatMap_nil, body?, skip, if_neg (by simp [hspace])]
    rfl
  | cons piece pieces ih =>
    rw [List.flatMap_cons, List.length_append] at hfuel
    -- A piece takes no more steps than it has characters, so enough fuel is left for the others.
    have hsteps := piece.steps_le_length_text
    obtain ⟨fuel, rfl⟩ := Nat.exists_eq_add_of_le' (show piece.steps ≤ fuel by omega)
    have hpush : (p.push piece.tree).ignoreSpace = false := hspace
    rw [List.flatMap_cons, body?_text hspace (skipLazy_flatMap_text pieces),
      ih hpush (by omega)]
    simp [Progress.push]

end Reader

theorem depthList_map_tree_le (pieces : List Piece) :
    Tree.depthList (pieces.map Piece.tree) ≤ 1 := by
  induction pieces with
  | nil => decide
  | cons piece pieces ih =>
    have hpiece : piece.tree.depth ≤ 1 := by
      cases piece <;> simp [Piece.tree, Tree.depth]
    rw [List.map_cons, Tree.depthList]
    exact Nat.max_le.mpr ⟨hpiece, ih⟩

theorem depth_ofList_le (ts : List Tree) : (Tree.ofList ts).depth ≤ 1 + Tree.depthList ts := by
  unfold Tree.ofList
  split
  next => simp [Tree.depth]
  next => simp [Tree.depthList]
  next => simp [Tree.depth]

theorem ofChars?_tree (pieces : List Piece) :
    Tree.ofChars? (pieces.flatMap Piece.text) = some (Tree.ofList (pieces.map Piece.tree)) := by
  have hdepth := depth_ofList_le (pieces.map Piece.tree)
  have hpieces := depthList_map_tree_le pieces
  rw [Tree.ofChars?, Reader.body?_flatMap_text rfl (Nat.lt_succ_self _)]
  dsimp only
  simp only [Reader.Progress.tree, List.append_nil, List.reverse_reverse, List.reverse_singleton,
    Tree.ofAlternatives]
  rw [if_pos (by unfold maxDepth; omega)]

/-! ### Meaning -/

variable {ignoreCase : Bool}

theorem Piece.meaning?_tree (piece : Piece) :
    piece.tree.meaning? { ignoreCase := ignoreCase }
      =
    some (piece.pattern ignoreCase, { ignoreCase := ignoreCase }) := by
  cases piece <;> rfl

theorem concatMeaning?_map_tree (pieces : List Piece) :
    Tree.concatMeaning? { ignoreCase := ignoreCase } (pieces.map Piece.tree)
      =
    some (.concat (pieces.map (Piece.pattern ignoreCase)), { ignoreCase := ignoreCase }) := by
  induction pieces with
  | nil => rfl
  | cons piece pieces ih =>
    rw [List.map_cons, Tree.concatMeaning?, piece.meaning?_tree]
    dsimp only [bind, Option.bind]
    rw [ih]
    rfl

theorem meaning?_ofList (pieces : List Piece) :
    (Tree.ofList (pieces.map Piece.tree)).meaning? { ignoreCase := ignoreCase }
      =
    some (ofPieces ignoreCase pieces, { ignoreCase := ignoreCase }) := by
  match pieces with
  | [] => rfl
  | [piece] => exact piece.meaning?_tree
  | first :: second :: pieces => exact concatMeaning?_map_tree (first :: second :: pieces)

/--
The text of pieces is read as the pieces, unless they take too much room.
-/
theorem ofChars?_flatMap_text (pieces : List Piece) :
    ofChars? ignoreCase (pieces.flatMap Piece.text)
      =
    if (ofPieces ignoreCase pieces).cost ≤ maxCost then some (ofPieces ignoreCase pieces)
    else none := by
  rw [ofChars?, ofChars?_tree]
  dsimp only [bind, Option.bind]
  rw [meaning?_ofList]

/-! ### Case -/

structure Alike (p q : Pattern) : Prop where
  cost : p.cost = q.cost
  run : ∀ spots marks, p.run spots marks = q.run spots marks

theorem Alike.refl (p : Pattern) : Alike p p :=
  ⟨rfl, fun _ _ => rfl⟩

theorem Alike.seq {p q p' q' : Pattern} (h : Alike p q) (h' : Alike p' q') :
    Alike (.seq p p') (.seq q q') where
  cost := by rw [Pattern.cost, Pattern.cost, h.cost, h'.cost]
  run spots marks := by rw [Pattern.run, Pattern.run, h.run, h'.run]

theorem Alike.concat {ps qs : List Pattern} (h : List.Forall₂ Alike ps qs) :
    Alike (.concat ps) (.concat qs) := by
  induction h with
  | nil => exact .refl _
  | cons hfirst _ ih => exact hfirst.seq ih

theorem Alike.findIn {p q : Pattern} (h : Alike p q) (s : List Char) : p.findIn s = q.findIn s := by
  unfold Pattern.findIn
  dsimp only
  rw [h.run]

inductive Piece.SameButCase : Piece → Piece → Prop where
  | char {a b : Char} (h : Text.sameLetter a b = true) : SameButCase (.char a) (.char b)
  | refl (piece : Piece) : SameButCase piece piece

theorem Piece.SameButCase.alike {a b : Piece} (h : SameButCase a b) :
    Alike (a.pattern true) (b.pattern true) := by
  cases h with
  | char h =>
    constructor
    · exact CharClass.cost_single_of_sameLetter h
    · intro spots marks
      have hclass := funext (CharClass.contains_folded_single_of_sameLetter h)
      simp only [Piece.pattern, if_true, Pattern.run, hclass]
  | refl => exact .refl _

theorem alike_ofPieces {as bs : List Piece} (h : List.Forall₂ Piece.SameButCase as bs) :
    Alike (ofPieces true as) (ofPieces true bs) := by
  match h with
  | .nil => exact .refl _
  | .cons hfirst .nil => exact hfirst.alike
  | .cons hfirst (.cons hsecond hrest) =>
    refine Alike.concat ?_
    rw [List.forall₂_map_left_iff, List.forall₂_map_right_iff]
    exact (List.Forall₂.cons hfirst (.cons hsecond hrest)).imp fun _ _ => Piece.SameButCase.alike

end Pattern
end DerivedQuery
