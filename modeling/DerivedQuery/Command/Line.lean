/-!
This module contains the reading of command lines: options with a value, which can stand anywhere,
and plain arguments. A line is read from the left, and the first thing that ends it counts.
-/

namespace DerivedQuery

inductive LineStop where
  | help
  | version
  | misuse
deriving DecidableEq, Repr

/--
What a command takes: options by name, each at most once unless it is repeatable, and plain
arguments. Each has a test for its values.
-/
structure LineGrammar where
  options : List (String × (String → Bool)) := []
  repeatable : List String := []
  arguments : List (String → Bool) := []
  hasVersion : Bool := false

structure LineParts where
  options : List (String × String) := []
  arguments : List String := []

namespace LineParts

def option? (p : LineParts) (name : String) : Option String :=
  p.options.lookup name

def optionValues (p : LineParts) (name : String) : List String :=
  (p.options.filter fun (other, _) => other == name).map Prod.snd

end LineParts

/--
What one word of a line is. The value of an option may be the next word.
-/
inductive LineWord where
  | plain
  | option (name value : String) (separate : Bool)

namespace LineGrammar

/--
A word with a hyphen in front, and more behind it, is no value.
-/
def isFlag (word : String) : Bool :=
  match word.toList with
  | '-' :: _ :: _ => true
  | _ => false

def longWord (g : LineGrammar) (body : List Char) (rest : List String) :
    Except LineStop LineWord :=
  let name := String.ofList (body.takeWhile (· != '='))
  match body.dropWhile (· != '=') with
  | _ :: value =>
    if (g.options.lookup name).isSome then .ok (.option name (String.ofList value) false)
    else .error .misuse
  | [] =>
    if (g.options.lookup name).isSome then
      match rest with
      | value :: _ => if isFlag value then .error .misuse else .ok (.option name value true)
      | [] => .error .misuse
    else if name = "help" then .error .help
    else if name = "version" ∧ g.hasVersion then .error .version
    else .error .misuse

def word (g : LineGrammar) (w : String) (rest : List String) : Except LineStop LineWord :=
  match w.toList with
  | '-' :: '-' :: body => g.longWord body rest
  | '-' :: letter :: _ =>
    if letter = 'h' then .error .help
    else if letter = 'V' ∧ g.hasVersion then .error .version
    else .error .misuse
  | _ => .ok .plain

def addOption (g : LineGrammar) (p : LineParts) (name value : String) :
    Except LineStop LineParts :=
  let accepted := ((g.options.lookup name).map fun accepts => accepts value).getD false
  if (p.option? name).isSome ∧ name ∉ g.repeatable then .error .misuse
  else if accepted then .ok { p with options := p.options ++ [(name, value)] }
  else .error .misuse

def addArgument (g : LineGrammar) (p : LineParts) (value : String) : Except LineStop LineParts :=
  match g.arguments[p.arguments.length]? with
  | none => .error .misuse
  | some accepts =>
    if accepts value then .ok { p with arguments := p.arguments ++ [value] } else .error .misuse

/--
Read a line to its end. Behind two hyphens, everything is a plain argument.
-/
def read (g : LineGrammar) (p : LineParts) : List String → Except LineStop LineParts
  | [] => .ok p
  | w :: rest =>
    if w = "--" then rest.foldlM g.addArgument p
    else
      match g.word w rest with
      | .error stop => .error stop
      | .ok .plain => do read g (← g.addArgument p w) rest
      | .ok (.option name value separate) => do
        let p ← g.addOption p name value
        match separate, rest with
        | true, _ :: rest => read g p rest
        | _, rest => read g p rest

/--
Read a line up to its first plain argument, and answer that and the rest.
-/
def readToPlain (g : LineGrammar) (p : LineParts) :
    List String → Except LineStop (LineParts × String × List String)
  | [] => .error .misuse
  | w :: rest =>
    if w = "--" then .error .misuse
    else
      match g.word w rest with
      | .error stop => .error stop
      | .ok .plain => .ok (p, w, rest)
      | .ok (.option name value separate) => do
        let p ← g.addOption p name value
        match separate, rest with
        | true, _ :: rest => readToPlain g p rest
        | _, rest => readToPlain g p rest

end LineGrammar
end DerivedQuery
