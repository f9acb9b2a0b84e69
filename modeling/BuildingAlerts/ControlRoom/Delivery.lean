/-
Deliveries.

A delivery has a log entry from its first attempt on. An attempt hands the message to the line
of its channel and waits for the provider, but no longer than the setup allows; the entry says
what came of it. That a channel has no line is the only failure that an attempt does not put
down in the entry.
-/
import BuildingAlerts.ControlRoom.Basic
import BuildingAlerts.Delivery.Exchange

set_option autoImplicit false

namespace BuildingAlerts

/-- What an entry says about a fault: its wording, or failing that its kind. -/
def Fault.remark (f : Fault) : String :=
  if !f.message.isEmpty then f.message
  else match f with
    | .delivery _ => "DeliveryError"
    | .outOfBounds => "OverflowError"
    | .unfit => "TypeError"
    | .noPart => "AttributeError"
    | _ => "ConnectionError"

/-- Whether a fault is that a channel has no line. -/
def Fault.isUnsupported : Fault → Bool
  | .unsupportedChannel _ => true
  | _ => false

namespace DeliveryResult

/-- What an entry says about a delivery that a provider refused. -/
def refusal (r : DeliveryResult) : String :=
  (r.error.filter (!·.isEmpty)).getD "Delivery failed"

end DeliveryResult

namespace LogEntry

/-- The entry of a delivery whose first attempt begins. -/
def begin (id : String) (r : DeliveryRequest) (level : Int) (now : Moment) : LogEntry where
  id := id
  alertId := r.alert.id
  channel := r.channel
  address := r.address
  sentAt := now
  deliveredAt := none
  status := .pending
  error := none
  retries := 0
  messageId := .null
  escalationLevel := level
  request := some r

/-- The entry after an attempt that a provider answered. -/
def answered (e : LogEntry) (r : DeliveryResult) (now : Moment) : LogEntry :=
  if r.success then e.markSent r now else e.markFailed r.refusal

/-- The entry after an attempt that took too long. -/
def timedOut (e : LogEntry) (limit : Number) : LogEntry :=
  e.markFailed ("Delivery timed out after " ++ limit.text ++ "s")

end LogEntry

namespace ControlRoom

/-- Sends a message through the service of a channel. -/
def sendThrough (c : ControlRoom) (now : Moment) (r : DeliveryRequest) :
    Except Fault DeliveryResult × ControlRoom :=
  match c.store.find? r.alert with
  | none => (.error .noPart, c)
  | some a =>
    let (result, desk) := StateT.run
      (c.setup.send r.channel {} now ⟨r.address, r.content, a, r.options⟩)
      ⟨c.registry.ids, .none⟩
    (result, { c with registry := { c.registry with ids := desk.ids } })

/-- A message as it is handed over. -/
def handed (now : Moment) (r : DeliveryRequest) (entry : Option String) : Handed :=
  ⟨now, r.address, r.content.subject, r.alert.id, r.options, entry⟩

/-- Hands a message to the line of its channel. -/
def handOver (c : ControlRoom) (now : Moment) (r : DeliveryRequest) (entry : Option String) :
    Except Fault Handling × ControlRoom :=
  match c.lines r.channel with
  | none => (.error (.unsupportedChannel r.channel), c)
  | some line =>
    match line.carrier with
    | .service =>
      let (result, c) := c.sendThrough now r
      (.ok ⟨.zero, result⟩, c)
    | .provider handle =>
      let line' := { line with handed := line.handed ++ [handed now r entry] }
      (.ok (handle line.handed.length), { c with lines := assign c.lines r.channel (some line') })

/-- Ends an attempt with what came of it. -/
def conclude (c : ControlRoom) (now : Moment) (entry : String)
    (result : Except Fault DeliveryResult) : Stretch :=
  match result with
  | .ok r => (c.adjustEntry entry (·.answered r now)).done [entry]
  | .error f =>
    if f.isUnsupported then c.fail f
    else (c.adjustEntry entry (·.markFailed f.remark)).done [entry]

/-- Ends an attempt that took too long. -/
def timeOut (c : ControlRoom) (entry : String) : Stretch :=
  (c.adjustEntry entry (·.timedOut c.setup.dispatchTimeout)).done [entry]

/-- The turns that pass before an attempt without any time is given up. -/
def lapseTurns : Nat := 2

/-- What an entry says when the limit to an attempt is past the largest double. -/
def untimed : String :=
  "int too large to convert to float"

/-- Begins an attempt. Without any time for it nothing is handed over. -/
def beginAttempt (c : ControlRoom) (now : Moment) (entry : String) : Stretch :=
  match (c.journal.get? entry).bind (·.request), Delay.of? c.setup.dispatchTimeout with
  | none, _ => c.fail .noPart
  | some _, none => (c.adjustEntry entry (·.markFailed untimed)).done [entry]
  | some _, some .zero => c.goOn (.pause (.lapsing entry lapseTurns))
  | some r, some limit =>
    match c.handOver now r (some entry) with
    | (.error f, c) => c.fail f
    | (.ok h, c) =>
      if h.delay = .zero then c.conclude now entry h.result
      else c.goOn (.sleep h.delay limit (.sending entry h.result))

/-- Begins a delivery with its first attempt. -/
def beginDelivery (c : ControlRoom) (now : Moment) (r : DeliveryRequest) (level : Int) :
    Stretch :=
  let (id, c) := c.draw .notification
  { c with journal := c.journal.insert id (.begin id r level now) }.beginAttempt now id

/-- Hands over a message that is not logged. There is no limit to how long that takes. -/
def beginHanding (c : ControlRoom) (now : Moment) (r : DeliveryRequest) : Stretch :=
  match c.handOver now r none with
  | (.error f, c) => c.fail f
  | (.ok h, c) =>
    if h.delay = .zero then c.goOn (.finish ((h.result.map .answer).mapError .failed))
    else c.goOn (.sleep h.delay .endless (.handing h.result))

end ControlRoom

end BuildingAlerts
