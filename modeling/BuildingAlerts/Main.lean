/-
The command line.

The settings are read from the environment, under their names in capitals. What is written goes
to the standard streams; a session that breaks off says why on the second of them.
-/
import BuildingAlerts.CommandLine.Session
import BuildingAlerts.Setup.Document
import Std.Time.DateTime.Timestamp

set_option autoImplicit false

open BuildingAlerts

namespace BuildingAlerts.CommandLine

/-- The names of all settings. -/
def settingNames : List String :=
  match Environment.read [] with
  | .ok e => match e.toJson with
    | .object ms => ms.map (·.1)
    | _ => []
  | .error _ => []

/-- The variable of a setting. -/
def variableOf (setting : String) : String :=
  Text.upper (Environment.variableLead ++ setting)

/-- The variables that are set. -/
def environment : IO (List (String × String)) := do
  let found ← settingNames.mapM fun name => do
    let value ← IO.getEnv (variableOf name)
    return value.map fun s => (variableOf name, s)
  return found.reduceOption

/-- What a file holds, if it can be read. -/
def contents (path : String) : IO (Option String) := do
  try return some (← IO.FS.readFile path)
  catch _ => return none

/-- The files that options name, with what they hold. -/
def files (opts : Options) : IO (List (String × String)) := do
  let paths := (opts.configs.toList ++ opts.snapshot.toList).filter (!·.isEmpty)
  let held ← paths.mapM fun path => do
    return (← contents path).map fun s => (path, s)
  return held.reduceOption

/-- The time by the clock of the machine. -/
def now : IO Moment := do
  let t ← Std.Time.Timestamp.now
  return .atUtc (Moment.epoch + t.toNanosecondsSinceUnixEpoch.val / 1000)

/-- Why a session broke off. -/
def complaint : Ending → Option String
  | .exit _ => none
  | .usage => some "The arguments were not understood."
  | .noFile => some "A file could not be read."
  | .noDocument => some "A file does not hold a document."
  | .refused (.fault f) => some f.remark
  | .refused (.flaws fs) => some (toString fs.length ++ " flaws were found in a document.")

/-- The exit code of a session. -/
def exitCode : Ending → UInt32
  | .exit code => code.toUInt32
  | .usage => 2
  | _ => 1

end BuildingAlerts.CommandLine

open CommandLine in
/-- Runs a session with the arguments of the command line. -/
def main (args : List String) : IO UInt32 := do
  let held ← files ((Options.read? args).getD {})
  let transcript := Session.run ⟨fun path => held.lookup path, ← environment, ← now⟩ args
  IO.print transcript.out
  IO.eprint transcript.err
  if let some s := complaint transcript.ending then IO.eprintln s
  return exitCode transcript.ending
