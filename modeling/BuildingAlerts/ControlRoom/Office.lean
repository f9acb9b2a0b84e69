/-
What the office can be asked for.

Everything that is asked of the control room while its tasks are under way: passes and
deliveries that somebody waits for, what becomes of alerts, and periodic passes. Whoever
closes an alert or takes notice of it takes out what is booked for it. The counts of the
office and what was handed to a provider are shown as documents.
-/
import BuildingAlerts.ControlRoom.Configurations
import BuildingAlerts.ControlRoom.Program
import BuildingAlerts.Rule.Document

set_option autoImplicit false

/-! ## Requests -/

namespace BuildingAlerts.Office

/-- The clock of the office, as long as the calendar lasts. -/
def clock? (o : Office) : Option Moment :=
  o.state.clock? o.now

/-- The clock of the office. -/
def clock (o : Office) : Moment :=
  o.state.clock o.now

/-- Which alert an identifier stands for. -/
def ref (o : Office) (id : String) : AlertRef :=
  o.state.store.ref id

/-- Changes what the room holds. -/
def adjust (o : Office) (f : ControlRoom → ControlRoom) : Office :=
  { o with state := f o.state }

/-- Works off what needs no further time. -/
def settle (o : Office) : Office :=
  Agenda.rest ControlRoom.program o

/-- Asks for work and waits for its end. -/
def await (o : Office) (w : Work) : Except Stop Yield × Office :=
  Agenda.ask ControlRoom.program o w

/-- Lets time pass. -/
def advance (o : Office) (d : Delay) : Office :=
  Agenda.advance ControlRoom.program o d

/-- The keys that are booked. -/
def pending (o : Office) : List String :=
  o.timetable.pending none

/-! ## Alerts -/

/-- Changes an alert in a way that not every alert allows, and takes out what is booked for it
if this one does. -/
def settleAlert (o : Office) (id : String) (f : Alert → Option Alert) : Option Alert × Office :=
  match (o.state.store.get? id).bind f with
  | none => (none, o)
  | some a => (some a, (Agenda.cancelAlert (o.adjust (·.adjustAlert (o.ref id) fun _ => a)) id).2)

/-- Somebody takes notice of an alert. -/
def acknowledge (o : Office) (id who : String) : Option Alert × Office :=
  o.settleAlert id (·.acknowledge? who o.clock)

/-- Somebody resolves an alert. -/
def resolve (o : Office) (id who notes : String) : Option Alert × Office :=
  o.settleAlert id (·.resolve? who notes o.clock)

/-- Somebody finds an alert to be a false one. -/
def markFalsePositive (o : Office) (id who : String) : Option Alert × Office :=
  o.settleAlert id fun a => some (a.markFalsePositive who o.clock)

/-! ## Bookings -/

/-- Books the next escalation of an alert. The answer is its key, if there is one. -/
def bookEscalation (o : Office) (id : String) (p : Policy) :
    Except Fault (Option String) × Office :=
  match o.state.escalationAppointment? o.clock (o.ref id) p with
  | .error f => (.error f, o)
  | .ok m => (.ok (m.map (·.key)), Agenda.bookAll o m.toList)

/-- Books the retries of the failed deliveries among some. The answer is their keys. -/
def bookRetries (o : Office) (entries : List String) : Except Fault (List String) × Office :=
  let (ms, f) := o.state.retryAppointments o.clock entries
  (match f with
    | some f => .error f
    | none => .ok (ms.map (·.key)), Agenda.bookAll o ms)

/-- Takes out all bookings. -/
def shutdown (o : Office) : Office :=
  Agenda.cancelBookings o

/-! ## Periodic passes -/

/-- Changes the periodic passes. -/
def adjustRounds (o : Office) (f : Rounds → Rounds) : Office :=
  o.adjust (·.adjustRounds f)

/-- Starts periodic passes in the background, unless they are already made. -/
def startRounds (o : Office) : Office :=
  if o.state.rounds.running then o
  else
    let task := o.started
    Agenda.launch (o.adjustRounds fun r => { r with running := true, task := some task }) .nobody
      (.round (.row none 0 false))

/-- Ends the periodic passes and takes out all bookings. -/
def stopRounds (o : Office) : Office :=
  let stopped := o.adjustRounds fun r => { r with running := false, task := none }
  match o.state.rounds.task with
  | none => stopped.shutdown
  | some t => (settle (Agenda.cancel stopped t)).shutdown

/-- Makes a single periodic pass. -/
def makeRound (o : Office) : Except Stop Yield × Office :=
  o.await (.round .single)

/-- Makes a row of periodic passes and waits for its end. -/
def makeRounds (o : Office) (most : Option Int) : Except Stop Yield × Office :=
  (o.adjustRounds fun r => { r with running := true }).await (.round (.row most 0 true))

/-! ## Counts -/

/-- How many things there are of each kind. -/
structure Counts where
  alerts : StoreStats
  configurations : Nat
  active : Nat
  pending : Nat
  deadLetters : Nat

/-- Counts what there is. -/
def counts (o : Office) : Except Fault Counts := do
  let alerts ← o.state.store.stats
  let ks := o.state.configurations.values
  return ⟨alerts, ks.length, (ks.filter (·.isActive)).length, o.pending.length,
    o.state.deadLetters.length⟩

end BuildingAlerts.Office

/-! ## Documents -/

namespace BuildingAlerts

/-- The members of what was handed to a provider. -/
def Handed.toJson (h : Handed) : Json :=
  .object [("to", .text h.address), ("subject", .text h.subject), ("alert", .text h.alertId),
    ("config", .object h.options), ("at", .text h.moment.iso)]

/-- The members of the counts of the office. -/
def Office.Counts.members (n : Office.Counts) : List (String × Json) :=
  n.alerts.members ++ [("total_configurations", .whole n.configurations),
    ("active_configurations", .whole n.active), ("pending_tasks", .whole n.pending),
    ("dead_letters", .whole n.deadLetters)]

/-- The members of a template. -/
def AlertTemplate.toJson (t : AlertTemplate) : Json :=
  .object ([("name", .text t.name), ("description", .text t.description),
      ("category", .text (code t.category)), ("metric_type", .text (code t.metricType)),
      ("operator", .text (code t.operator)), ("threshold", .real t.threshold)]
    ++ (t.secondary.map fun x => ("secondary_threshold", Json.real x)).toList
    ++ [("aggregation", .text (code t.reduction)), ("period", .whole t.period),
      ("units", .text t.units), ("priority", .text (code t.priority))])

end BuildingAlerts
