/-
Retries.

Failed deliveries are tried again when they are eligible, all at a time. The wait after an
attempt doubles with every retry up to a cap. A delivery whose retries are used up is given up
for good.
-/
import BuildingAlerts.ControlRoom.Basic
import BuildingAlerts.Notification.Log

set_option autoImplicit false

/-! ## When a delivery is tried again -/

namespace BuildingAlerts.LogEntry

/-- The seconds to wait after an attempt that was preceded by so many retries. For a count below
zero they are halved as often, down to nothing. -/
def backoff (retries : Int) (cap : Number) : Number :=
  let doubled : Number :=
    if 0 ≤ retries then .whole (Decimal.twoTo retries.toNat)
    else .real (Decimal.ofRatio false 1 (Decimal.twoTo (min retries.natAbs 1100)))
  doubled.least cap

/-- The seconds since the latest attempt. -/
def elapsed (e : LogEntry) (now : Moment) : Except Fault Float :=
  orFault .unfit ((now.since? e.sentAt).map (·.toSeconds))

/-- Whether there may be a retry at all: the delivery failed and its retries are not used up. -/
def isRetriable (e : LogEntry) (most : Int) : Bool :=
  e.status == .failed && e.retries < most

/-- Whether a delivery is tried again now. -/
def isEligible (e : LogEntry) (now : Moment) (most : Int) (cap : Number) : Except Fault Bool := do
  if e.request.isNone || !e.isRetriable most then return false
  let waited ← e.elapsed now
  return (backoff e.retries cap).le (.real waited)

/-- The seconds until the next retry. -/
def nextDelay (e : LogEntry) (now : Moment) (cap : Number) : Except Fault Number := do
  let waited ← e.elapsed now
  let left ← orFault .outOfBounds ((backoff e.retries cap).sub? (.real waited))
  return left.greatest (.real 0.0)

/-- The entry when a retry begins. -/
def beginRetry (e : LogEntry) (now : Moment) : LogEntry :=
  { e with retries := e.retries + 1, sentAt := now }

/-- Whether a delivery is given up after a retry. -/
def isLost (e : LogEntry) (most : Int) : Bool :=
  e.status != .sent && most ≤ e.retries

end BuildingAlerts.LogEntry

/-! ## Retries of the room -/

namespace BuildingAlerts

/-- The key of the retry of a delivery. -/
def retryKey (entry : String) : String :=
  "retry:" ++ entry

namespace ControlRoom

/-- The seconds until the next retry of a delivery, if there is one. -/
def retryDelay? (c : ControlRoom) (now : Moment) (entry : String) :
    Except Fault (Option Number) :=
  match c.journal.get? entry with
  | none => .ok none
  | some e =>
    if e.isRetriable c.setup.maxRetries then (e.nextDelay now c.setup.backoffCap).map some
    else .ok none

/-- The appointment for the next retry of a delivery, if there is one. -/
def retryAppointment? (c : ControlRoom) (now : Moment) (entry : String) :
    Except Fault (Option (Appointment Work)) := do
  let delay ← c.retryDelay? now entry
  return delay.map fun d => {
    key := retryKey entry
    alertId := (c.journal.get? entry).map (·.alertId)
    delay := (Delay.of? d).getD .zero
    body := .retry [entry] c.setup.maxRetries true }

/-- The appointments for the next retries of deliveries, up to the first that fails. -/
def retryAppointments (c : ControlRoom) (now : Moment) :
    List String → List (Appointment Work) × Option Fault
  | [] => ([], none)
  | entry :: entries =>
    match c.retryAppointment? now entry with
    | .error f => ([], some f)
    | .ok m =>
      let (ms, f) := c.retryAppointments now entries
      (m.toList ++ ms, f)

/-- The deliveries that are tried again now. -/
def eligible (c : ControlRoom) (now : Moment) (most : Int) (entries : List String) :
    Except Fault (List String) :=
  entries.filterM fun id =>
    match c.journal.get? id with
    | some e => e.isEligible now most c.setup.backoffCap
    | none => .ok false

/-- Gives up the deliveries whose retries are used up. -/
def buryLost (c : ControlRoom) (most : Int) (entries : List String) : ControlRoom :=
  let lost := entries.filter fun id => (c.journal.get? id).any (·.isLost most)
  { c with deadLetters := c.deadLetters ++ lost }

/-- Ends retries; further ones are booked if they were booked themselves. -/
def endRetry (c : ControlRoom) (now : Moment) (tried asked : List String) (most : Int)
    (again : Bool) : Stretch :=
  let c := c.buryLost most tried
  if again then
    let (ms, f) := c.retryAppointments now asked
    ⟨c, ms, .finish (match f with
      | some f => .error (.failed f)
      | none => .ok (.names tried))⟩
  else c.done tried

/-- Begins retries. -/
def beginRetry (c : ControlRoom) (now : Moment) (entries : List String) (most : Int)
    (again : Bool) : Stretch :=
  match c.eligible now most entries with
  | .error f => c.fail f
  | .ok [] => c.endRetry now [] entries most again
  | .ok tried =>
    let c := tried.foldl (fun c id => c.adjustEntry id (·.beginRetry now)) c
    c.goOn (.gather (tried.map .attempt) (.retrying tried most again))

end ControlRoom

end BuildingAlerts
