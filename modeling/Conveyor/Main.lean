import Std.Time.DateTime.Timestamp
import Conveyor.Command.Running
import Conveyor.Site

/-!
# The program

Reads what a command line may need, carries it out, and writes what has changed.
-/

namespace Conveyor.Program

/-- The variables that have a meaning for the program. -/
def environmentNames : List String :=
  ["NEXUSFLOW_CONFIG", "NEXUSFLOW_DATABASE_URL", "DATABASE_URL", "NEXUSFLOW_TRANSPORT"]

def readEnvironment : IO (Keyed String) := do
  let found ← environmentNames.mapM fun name => do
    pure ((← IO.getEnv name).map (name, ·))
  pure (found.filterMap id)

/-- The time in universal time. -/
def clock : IO Moment := do
  let now ← Std.Time.Timestamp.now
  let micros := now.toNanosecondsSinceUnixEpoch.val / 1000
  pure ((Moment.ofEpochMicros? micros).getD ⟨0, some 0⟩)

/-- The names in arguments: whole arguments, and what follows an equals sign. -/
def namesIn (args : List String) : List String :=
  args.flatMap fun arg =>
    match Text.cutChars '=' arg.toList with
    | (_, some value) => [arg, String.ofList value]
    | (_, none) => [arg]

/-- Add to a site what a name leads to: a file with its text, or a directory. -/
def look (s : Site) (name : String) : IO Site := do
  let name := FileName.normal name
  match ← (IO.FS.Handle.mk name .read).toBaseIO with
  | .error _ => pure s
  | .ok handle =>
    match ← handle.readToEnd.toBaseIO with
    | .ok text => pure { s with files := s.files.put name text }
    | .error _ => pure { s with directories := name :: s.directories }

def lookAll (s : Site) (names : List String) : IO Site := names.foldlM look s

/-- The site of a command line: the files that it names, their directories, and the databases. -/
def siteOf (args : List String) : IO Site := do
  let environment ← readEnvironment
  let names := namesIn args
  let s : Site := { environment, now := ← clock }
  let s ← lookAll s (Config.fileName environment none :: names ++ names.map FileName.directory)
  let (store, log) := s.databaseFiles
  let s ← lookAll s (store.toList ++ log.toList)
  pure s.openDatabases

/-- Write the files whose texts are new. -/
def writeChanged (before after : Keyed String) : IO Unit :=
  after.forM fun (name, text) =>
    if before.get? name = some text then pure () else IO.FS.writeFile name text

/-- The words for a command that stopped. -/
def explain : Stop → Option String
  | .exit code => if code = 2 then some "usage error" else none
  | .endless => none
  | .failed f => some (Run.errorText f)
  | .misfits ms => some (Text.joinWith "\n" (ms.map fun m => m.place.render ++ ": " ++ m.kind.code))

end Conveyor.Program

open Conveyor in
def main (args : List String) : IO UInt32 := do
  let before ← Program.siteOf args
  let (report, after) := before.perform args
  IO.print report.output
  match report.stopped.bind Program.explain with
  | some words => IO.eprintln words
  | none => pure ()
  Program.writeChanged before.files after.filesAfter
  pure (UInt32.ofNat report.exitCode)
