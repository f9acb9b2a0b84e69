/-
Passes of the control room.

A pass evaluates every configuration on one snapshot and notifies of the alerts that were not
there before it. Periodic passes follow each other at an interval; one that fails is counted
and does not end the row.
-/
import BuildingAlerts.ControlRoom.Notification

set_option autoImplicit false

namespace BuildingAlerts.ControlRoom

/-- Changes the periodic passes. -/
def adjustRounds (c : ControlRoom) (f : Rounds → Rounds) : ControlRoom :=
  { c with rounds := f c.rounds }

/-- Leaves a row of periodic passes. Nobody makes passes any longer if it was waited for. -/
def leaveRow (c : ControlRoom) (awaited : Bool) : ControlRoom :=
  if awaited then c.adjustRounds fun r => { r with running := false } else c

/-- Ends a row of periodic passes. -/
def endRow (c : ControlRoom) (awaited : Bool) : Stretch :=
  (c.leaveRow awaited).done []

/-- Goes on after one of a row of periodic passes. -/
def afterRound (c : ControlRoom) (most : Option Int) (made : Nat) (awaited : Bool) : Stretch :=
  let made := made + 1
  if most.any (· ≤ (made : Int)) then c.endRow awaited
  else match Delay.of? c.rounds.interval with
    | none => (c.leaveRow awaited).fail .outOfBounds
    | some d => c.goOn (.sleep d .endless (.interval (.row most made awaited)))

/-- Ends a pass with the alerts that were new. -/
def endPass (c : ControlRoom) (p : PassFor) (found : List String) : Stretch :=
  let counted := c.adjustRounds fun r => { r with completed := r.completed + 1 }
  match p with
  | .caller => c.done found
  | .single => counted.done found
  | .row most made awaited => counted.afterRound most made awaited

/-- Ends a pass that was stopped. -/
def stopPass (c : ControlRoom) (p : PassFor) (s : Stop) : Stretch :=
  match p, s with
  | .row most made awaited, .failed _ =>
    (c.adjustRounds fun r => { r with failed := r.failed + 1 }).afterRound most made awaited
  | .row _ _ awaited, .cancelled => c.endRow awaited
  | _, s => c.stop s

/-- Notifies of the alerts of a pass that were not there before it. -/
def announce (c : ControlRoom) (p : PassFor) (known found : List String) : Stretch :=
  match firsts (found.filter fun id => !known.contains id) with
  | [] => c.endPass p []
  | new => c.goOn (.gather (new.map fun id => .notify (c.store.ref id)) (.notifying p new))

/-- Begins a pass over a snapshot. -/
def beginPass (c : ControlRoom) (p : PassFor) (s : Snapshot) : Stretch :=
  let known := c.store.all.map (·.id)
  match c.limit.check with
  | .error f => c.stopPass p (.failed f)
  | .ok () =>
    match Assignment.batch c.configurations.values with
    | [] => c.announce p known []
    | bs => c.goOn (.gather (bs.map fun b => .evaluate b s) (.evaluating p known))

/-- Evaluates one configuration. -/
def evaluate (c : ControlRoom) (b : Assignment) (s : Snapshot) : Stretch :=
  let (ids, g) := b.run s c.registry
  { c with registry := g }.done ids

/-- Begins a periodic pass with a new snapshot. -/
def beginRound (c : ControlRoom) (now : Moment) (p : PassFor) : Stretch :=
  let n := c.rounds.fetched
  let c := c.adjustRounds fun r => { r with fetched := n + 1 }
  match c.rounds.source n now with
  | .error f => c.stopPass p (.failed f)
  | .ok s => c.beginPass p s

/-- Goes on when the interval after a periodic pass is over. -/
def nextRound (c : ControlRoom) (now : Moment) (p : PassFor) : Stretch :=
  match p with
  | .row _ _ awaited => if c.rounds.running then c.beginRound now p else c.endRow awaited
  | _ => c.beginRound now p

end BuildingAlerts.ControlRoom
