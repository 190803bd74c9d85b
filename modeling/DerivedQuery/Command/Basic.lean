import DerivedQuery.Command.Line
import DerivedQuery.Method.Signature
import DerivedQuery.Text.Category
import DerivedQuery.Text.Split

/-!
This module contains the commands of the program, and how they are written on a line.
-/

namespace DerivedQuery

inductive Command where
  /-- Compile one method, and bind arguments to it if there are any. -/
  | explain (schema method : String) (params : List ParameterKind) (returns : Option ResultShape)
      (args : Option String)
  /-- Compile every method of a file. -/
  | check (schema methods : String)
deriving DecidableEq, Repr

structure Invocation where
  config : Option String
  command : Command
deriving DecidableEq, Repr

namespace Invocation

def isPath (value : String) : Bool :=
  !value.isEmpty

def anyText (_ : String) : Bool := true

def parameterKind? (code : String) : Option ParameterKind :=
  ParameterKind.codes.lookup (Text.trim code)

def resultShape? (code : String) : Option ResultShape :=
  ResultShape.codes.lookup (Text.trim code)

def parameterKinds? (value : String) : Option (List ParameterKind) :=
  (Text.split ',' value).mapM parameterKind?

def grammar : LineGrammar where
  options := [("config", isPath)]
  hasVersion := true

def explainGrammar : LineGrammar where
  options :=
    [("schema", isPath), ("params", fun v => (parameterKinds? v).isSome),
     ("returns", fun v => (resultShape? v).isSome), ("args", anyText)]
  repeatable := ["params"]
  arguments := [anyText]

def checkGrammar : LineGrammar where
  options := [("schema", isPath)]
  arguments := [isPath]

def explain (line : List String) : Except LineStop Command := do
  let p ← explainGrammar.read {} line
  match p.option? "schema", p.arguments with
  | some schema, [method] =>
    let params := ((p.optionValues "params").filterMap parameterKinds?).flatten
    return .explain schema method params ((p.option? "returns").bind resultShape?)
      (p.option? "args")
  | _, _ => throw .misuse

def check (line : List String) : Except LineStop Command := do
  let p ← checkGrammar.read {} line
  match p.option? "schema", p.arguments with
  | some schema, [methods] => return .check schema methods
  | _, _ => throw .misuse

def helpStop : List String → LineStop
  | [] | ["explain"] | ["check"] | ["help"] => .help
  | _ => .misuse

def ofLine (line : List String) : Except LineStop Invocation := do
  let (p, name, rest) ← grammar.readToPlain {} line
  let command ←
    match name with
    | "explain" => explain rest
    | "check" => check rest
    | "help" => throw (helpStop rest)
    | _ => throw .misuse
  return ⟨p.option? "config", command⟩

end Invocation
end DerivedQuery
