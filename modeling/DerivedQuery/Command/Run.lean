import DerivedQuery.Command.Argument
import DerivedQuery.Command.Basic
import DerivedQuery.Files.Basic
import DerivedQuery.Settings.Reader

/-!
This module contains what the commands do: they read a schema and methods from files, and report
what compiling and binding them comes to.
-/

namespace DerivedQuery

structure Report where
  code : Nat
  output : String := ""
  errors : String := ""
deriving DecidableEq, Repr

abbrev FileAction (m : Type → Type) (α : Type) := ExceptT QueryError m α

namespace Invocation

variable {m : Type → Type} [Monad m]

/-! ### Files -/

def readText (fs : FileSystem m) (path : String) : FileAction m String := do
  match ← fs.readText path with
  | .ok text => return text
  | .error fault => throw (.file fault)

def loadSettings (fs : FileSystem m) (env : String → Option String) (config : Option String) :
    FileAction m Settings := do
  let settings ←
    match config with
    | none => pure {}
    | some path => ExceptT.mk (pure (Settings.ofToml (← readText fs path)))
  ExceptT.mk (pure (settings.withEnvironment env))

def isJsonPath (path : String) : Bool :=
  match (FilePath.ofText path).extension? with
  | some ending => String.ofList (ending.toList.map Char.toLower) == "json"
  | none => false

/--
The schema of a text in JSON or in TOML, as the name of its file says.
-/
def schemaOfText (path text : String) : Except QueryError EntitySchema :=
  if isJsonPath path then
    match Json.parse text with
    | .error e => .error (.notJson e.text)
    | .ok j =>
      match EntitySchema.ofJson? j with
      | some schema => .ok schema
      | none => .error (.notJson "")
  else
    match (Toml.parse text).bind EntitySchema.ofJson? with
    | some schema => .ok schema
    | none => .error (.settings (.fileNotToml path))

def loadSchema (fs : FileSystem m) (path : String) : FileAction m EntitySchema := do
  let text ← readText fs path
  ExceptT.mk (pure (schemaOfText path text))

def methodsOfText (path text : String) : Except QueryError (List Signature) :=
  match (Toml.parse text).bind signatures? with
  | some signatures => .ok signatures
  | none => .error (.settings (.fileNotToml path))
where
  signatures? (j : Json) : Option (List Signature) :=
    match j.field? "method" with
    | none => some []
    | some methods => methods.list? Signature.ofJson?

/-! ### Commands -/

def explanation (settings : Settings) (schema : EntitySchema) (sig : Signature)
    (args : Option String) : Except QueryError Json := do
  let query ← CompiledQuery.compile sig schema
  match args with
  | none => return query.describe
  | some text => do
    let args ← Argument.readAll sig.params text
    let spec ← query.bind args settings.maxInSet
    let bound :=
      [("filter", ExtendedJson.toJson (.document spec.filter.toDocument)),
       ("fingerprint", .string spec.filter.fingerprint), ("options", spec.findOptions.toJson)]
    match query.describe with
    | .object fields => return .ofFields (fields ++ bound)
    | j => return j

def checkLine (schema : EntitySchema) (sig : Signature) : Bool × String :=
  let sig := sig.forEntity schema.name
  match CompiledQuery.compile sig schema with
  | .ok _ => (true, "ok    " ++ sig.text ++ "\n")
  | .error e => (false, "FAIL  " ++ sig.text ++ ": " ++ e.message ++ "\n")

def checkReport (schema : EntitySchema) (signatures : List Signature) : Report :=
  let lines := signatures.map (checkLine schema)
  let failures := (lines.filter fun (passed, _) => !passed).length
  { code := if failures = 0 then 0 else 1
    output := String.join (lines.map Prod.snd)
    errors :=
      if failures = 0 then "" else toString failures ++ " method(s) failed to compile\n" }

def runCommand (fs : FileSystem m) (settings : Settings) : Command → FileAction m Report
  | .explain schema method params returns args => do
    let schema ← loadSchema fs schema
    let sig : Signature := { entity := schema.name, name := method, params, returns }
    let j ← ExceptT.mk (pure (explanation settings schema sig args))
    return { code := 0, output := j.pretty ++ "\n" }
  | .check schema methods => do
    let schema ← loadSchema fs schema
    let text ← readText fs methods
    let signatures ← ExceptT.mk (pure (methodsOfText methods text))
    return checkReport schema signatures

/-! ### Runs -/

def failed (e : QueryError) : Report :=
  { code := 2, errors := "error: " ++ e.message ++ "\n" }

def logFiles (logging : LogSettings) : List String :=
  ["app.log", "metrics.log"] ++ if logging.dev6 then ["dev6.log"] else []

/--
Make the files that are logged to. Without them, the program goes on.
-/
def openLogs (fs : FileSystem m) (logging : LogSettings) : m String := do
  match ← fs.createFiles (logging.dir.getD ".") (logFiles logging) with
  | .ok _ => return ""
  | .error fault => return "logging disabled: " ++ fault ++ "\n"

/--
Carry a command out. Nothing is logged before the settings are known.
-/
def run (fs : FileSystem m) (env : String → Option String) (i : Invocation) : m Report := do
  match ← (loadSettings fs env i.config).run with
  | .error e => return failed e
  | .ok settings =>
    let warning ← openLogs fs settings.logging
    let report ←
      match ← (runCommand fs settings i.command).run with
      | .error e => pure (failed e)
      | .ok report => pure report
    return { report with errors := warning ++ report.errors }

end Invocation

namespace LineStop

def usage : String :=
  "Usage: nexusrepo [--config FILE] explain --schema FILE [--params KINDS] [--returns SHAPE] " ++
    "[--args JSON] METHOD\n       nexusrepo [--config FILE] check --schema FILE METHODS\n"

def report : LineStop → Report
  | .help => { code := 0, output := usage }
  | .version => { code := 0, output := "nexusrepo 0.1.0\n" }
  | .misuse => { code := 2, errors := usage }

end LineStop

def runLine {m : Type → Type} [Monad m] (fs : FileSystem m) (env : String → Option String)
    (line : List String) : m Report :=
  match Invocation.ofLine line with
  | .error stop => pure stop.report
  | .ok invocation => invocation.run fs env

end DerivedQuery
