import ControlPlane.Codec.Store
import ControlPlane.CommandLine

/-! The program: it gathers what the command line needs to know, runs it and prints the outcome. The
store that it shows is a file of the format in `Codec.Store`, and not the redb database of a control
plane in service. -/

namespace ControlPlane.CommandLine

/-- The contents of a file, if it can be read. -/
def readFile? (path : String) : IO (Option ByteArray) := do
  try
    return some (← IO.FS.readBinFile path)
  catch _ => return none

/-- Reads files, and keeps their contents by their paths. -/
def readFiles (paths : List String) : IO (List (String × ByteArray)) :=
  paths.filterMapM fun path => return (← readFile? path).map (path, ·)

/-- The variables of the process that count. -/
def environment : IO Environment :=
  Config.variableNames.filterMapM fun name => return (← IO.getEnv name).map (name, ·)

/-- A disk with some files on it. -/
def diskOf (files : List (String × ByteArray)) : Disk where
  file? path := files.lookup path
  store? path := (files.lookup path).bind fun file => Codec.store.read? file.data.toList

/-- The disk, as far as a request needs it. -/
def gather (env : Environment) (request : Request) : IO Disk := do
  let files ← readFiles request.configFiles
  match request.databaseFile? (diskOf files) env with
  | none => return diskOf files
  | some path => return diskOf (files ++ (← readFiles [path]))

def report : Outcome → IO Unit
  | .usage => IO.eprintln "usage: [--config FILE] [--database FILE] [--json] vms|work|check-config"
  | .printed text => IO.print text
  | .failed failure => IO.eprintln (errorLine failure)

end ControlPlane.CommandLine

open ControlPlane ControlPlane.CommandLine in
def main (args : List String) : IO UInt32 := do
  let env ← environment
  let disk ← match parse? args with
    | some request => gather env request
    | none => pure (diskOf [])
  let outcome := run disk env args
  report outcome
  return UInt32.ofNat outcome.exitCode
