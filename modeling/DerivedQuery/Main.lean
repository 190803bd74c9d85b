import DerivedQuery.Command.Run

/-!
This module contains the program: it answers command lines with the files of the machine.
-/

namespace DerivedQuery
namespace Machine

def faultText : IO.Error → String
  | .noFileOrDirectory .. => FileFault.missing.text
  | .alreadyExists .. => FileFault.exists_.text
  | e => toString e

def caught (action : IO α) : IO (Except String α) := do
  try return .ok (← action)
  catch e => return .error (faultText e)

def touch (path : String) : IO Unit := do
  let _ ← IO.FS.Handle.mk path .append

def files : FileSystem IO where
  readText path := caught (IO.FS.readFile path)
  createFiles directory names := caught do
    IO.FS.createDirAll directory
    names.forM fun name => touch (directory ++ "/" ++ name)

def variableNames : List String :=
  ["NEXUSREPO_SLOW_QUERY_MS", "NEXUSREPO_CACHE", "NEXUSREPO_MAX_RESULT_LIMIT"]

end Machine
end DerivedQuery

open DerivedQuery in
def main (args : List String) : IO UInt32 := do
  let values ← Machine.variableNames.mapM fun name => return (name, ← IO.getEnv name)
  let report ← runLine Machine.files (fun name => (values.lookup name).join) args
  IO.print report.output
  IO.eprint report.errors
  return UInt32.ofNat report.code
