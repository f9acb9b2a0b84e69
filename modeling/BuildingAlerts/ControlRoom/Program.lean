/-
The program of the control room.

For every form of work, what a task does when it goes on. Work that is told to stop ends there,
apart from rows of periodic passes, which end as if they were complete.
-/
import BuildingAlerts.Agenda.Run
import BuildingAlerts.ControlRoom.Delivery
import BuildingAlerts.ControlRoom.Pass

set_option autoImplicit false

namespace BuildingAlerts.ControlRoom

/-- What work does when it is stopped, or when something that it waited for was. -/
def stopWork (c : ControlRoom) (s : Stop) : Work → Stretch
  | .round p | .interval p | .pass p _ | .evaluating p _ | .notifying p _ => c.stopPass p s
  | .collecting _ _ _ sequel => c.stopNotification s sequel
  | _ => c.stop s

/-- What work does when it goes on. -/
def goOnWith (c : ControlRoom) (now : Moment) (w : Work) (wake : Wake Yield) : Stretch :=
  match w, wake with
  | w, .stopped s => c.stopWork s w
  | .round p, _ => c.beginRound now p
  | .interval p, _ => c.nextRound now p
  | .pass p s, _ => c.beginPass p s
  | .evaluating p known, .gathered ys => c.announce p known (ys.flatMap (·.ids))
  | .notifying p found, .gathered _ => c.endPass p found
  | .evaluate b s, _ => c.evaluate b s
  | .notify alert, _ => c.beginAnnouncement now alert
  | .route alert r, _ => c.beginNotification now alert r .none
  | .collecting alert left entries sequel, .arrived os =>
    c.takeIn now alert left entries sequel os
  | .deliver r level, _ => c.beginDelivery now r level
  | .attempt entry, _ => c.beginAttempt now entry
  | .sending entry _, .expired => c.timeOut entry
  | .sending entry result, _ => c.conclude now entry result
  | .lapsing entry 0, _ => c.timeOut entry
  | .lapsing entry (turns + 1), _ => c.goOn (.pause (.lapsing entry turns))
  | .hand r, _ => c.beginHanding now r
  | .handing result, _ => c.goOn (.finish ((result.map .answer).mapError .failed))
  | .retry entries most again, _ => c.beginRetry now entries most again
  | .retrying entries most again, .gathered _ => c.endRetry now entries entries most again
  | .escalate alert p level, _ => c.beginEscalation now alert p level
  | .escalating alert p s since booked, .gathered ys =>
    let entries := ys.flatMap (·.ids)
    (c.rise alert s since entries).endEscalation now alert p booked entries
  | _, _ => c.stop .cancelled

/-- The program of the control room. Where the calendar ends, all work fails. -/
def program : Program ControlRoom Work Yield := fun now c w wake =>
  match c.clock? now with
  | some now => c.goOnWith now w wake
  | none => c.stopWork (.failed .outOfBounds) w

end BuildingAlerts.ControlRoom
