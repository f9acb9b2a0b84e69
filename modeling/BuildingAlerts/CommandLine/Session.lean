/-
A session on the command line.

A session either checks configurations and shows what it found, or it makes passes over one
snapshot and shows the alerts. It is given what the files hold, and it ends with what it wrote
and with why it ended.
-/
import BuildingAlerts.CommandLine.Options
import BuildingAlerts.ControlRoom.Office
import BuildingAlerts.Delivery.Exchange
import BuildingAlerts.Document.Configuration
import BuildingAlerts.Json.Printer
import BuildingAlerts.Json.Reader
import BuildingAlerts.Setup.Environment

set_option autoImplicit false

namespace BuildingAlerts

/-- Why a session came to its end. -/
inductive Ending where
  /-- It was complete. -/
  | exit (code : Nat)
  /-- Its arguments were not understood. -/
  | usage
  /-- A file could not be read. -/
  | noFile
  /-- A file held no document. -/
  | noDocument
  /-- A document was refused, or something failed. -/
  | refused (r : Refusal)

/-- What a session wrote, and why it came to its end. -/
structure Transcript where
  out : String
  err : String
  ending : Ending

/-- What a session is given. -/
structure Surrounding where
  /-- What a file holds, if it can be read. -/
  file : String → Option String
  environment : List (String × String)
  clock : Moment

namespace Session

/-- A session at work: what it wrote stays written when it breaks off. -/
abbrev Writing := ExceptT Ending (StateM (String × String))

/-- Writes a line. -/
def say (s : String) : Writing Unit :=
  modify fun (out, err) => (out ++ s ++ "\n", err)

/-- Writes a line about something that went wrong. -/
def warn (s : String) : Writing Unit :=
  modify fun (out, err) => (out, err ++ s ++ "\n")

/-- Goes on with a value, or breaks off. -/
def orEnd {ε α : Type} (ending : ε → Ending) : Except ε α → Writing α
  | .ok a => pure a
  | .error e => throw (ending e)

/-- A fault as an end. -/
def faulty (f : Fault) : Ending :=
  .refused (.fault f)

/-- The document in a file. -/
def document (w : Surrounding) (path : String) : Writing Json := do
  match w.file path with
  | none => throw .noFile
  | some s =>
    match Json.read s with
    | .error .form => throw .noDocument
    | .error (.digits n) => throw (faulty (.tooManyDigits n))
    | .error (.nesting isList) => throw (faulty (.nesting isList))
    | .ok v => pure v

/-- The settings of a session. -/
def settings (w : Surrounding) : Writing Environment :=
  orEnd (fun fs => .refused (.flaws fs)) (Environment.read (Environment.given w.environment []))

/-- Checks one configuration and shows what was found. The answer says whether it is valid. -/
def check (k : Configuration) : Writing Bool := do
  let v ← orEnd faulty (Validation.of k)
  say (Json.writeBlock (.object (("configuration", .text k.name) :: v.members)))
  return v.isValid

/-- Checks configurations; the session fails if one is not valid. -/
def checkAll (ks : List Configuration) : Writing Nat := do
  let valid ← ks.mapM check
  return if valid.all id then 0 else 1

/-- Takes in configurations and passes over those that are rejected. -/
def takeIn : List Configuration → ControlRoom → Writing ControlRoom
  | [], c => pure c
  | k :: ks, c => do
    match c.addConfiguration k with
    | (.ok _, c) => takeIn ks c
    | (.error (.fault f), _) => throw (faulty f)
    | (.error e, c) => do
      warn ("Skipping configuration '" ++ k.name ++ "': " ++ e.message)
      takeIn ks c

/-- The lines that are there without anything being set up. -/
def builtinLine (c : Channel) : Option Line :=
  if builtinChannels.contains c then some (.fresh .service) else none

/-- What a task that was asked for results in. -/
def outcome : Except Stop Yield → Writing (List String)
  | .ok y => pure y.ids
  | .error (.failed f) => throw (faulty f)
  | .error .cancelled => pure []

/-- Makes periodic passes and counts them. -/
def makeRounds (o : Office) (s : Snapshot) (opts : Options) : Writing Unit := do
  let interval := (opts.interval.map Number.real).getD o.state.rounds.interval
  let o := o.adjustRounds fun r => { r with source := fun _ _ => .ok s, interval := interval }
  let (_, o) := o.makeRounds opts.passes
  let n := o.stopRounds.state.rounds
  say ("Ran " ++ toString n.completed ++ " passes (" ++ toString n.failed ++ " failed)")

/-- Makes one pass and shows its alerts. -/
def makePass (o : Office) (s : Snapshot) (opts : Options) : Writing Unit := do
  let (result, o) := o.await (.pass .caller s)
  let o := o.shutdown.settle
  let ids ← outcome result
  let alerts ← orEnd faulty (ids.mapM fun id => do
    let a ← orFault .noPart (o.state.store.get? id)
    a.toJson (o.state.entriesOf a))
  say (Json.writeBlock (.list alerts))
  if opts.verbose then
    let counts ← orEnd faulty o.counts
    say (Json.writeBlock (.object counts.members))

/-- Makes passes over the snapshot in a file. -/
def pass (w : Surrounding) (e : Environment) (opts : Options) (ks : List Configuration)
    (ids : IdSource) (path : String) : Writing Nat := do
  let c ← takeIn ks (.opening e.setup (some e.concurrency) w.clock ids builtinLine)
  let v ← document w path
  let s ← orEnd (fun fs => .refused (.flaws fs)) (Snapshot.schema.check v)
  let o : Office := .idle c
  if opts.repeated then makeRounds o s opts else makePass o s opts
  return 0

/-- A session with the options that were given. -/
def proceed (w : Surrounding) (opts : Options) : Writing Nat := do
  let e ← settings w
  let v ← document w (opts.configs.getD "")
  let (ks, ids) := Configuration.loadAll w.clock v .fresh
  let ks ← orEnd .refused ks
  if opts.validate then checkAll ks
  else match opts.snapshot.filter (!·.isEmpty) with
    | none => throw .usage
    | some path => pass w e opts ks ids path

/-- Runs a session. -/
def run (w : Surrounding) (args : List String) : Transcript :=
  match Options.read? args with
  | none => ⟨"", "", .usage⟩
  | some opts =>
    let (result, out, err) := (proceed w opts).run ("", "")
    ⟨out, err, match result with
      | .ok code => .exit code
      | .error e => e⟩

end Session

end BuildingAlerts
