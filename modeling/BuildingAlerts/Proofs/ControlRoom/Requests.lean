/-
Runs of the office.

While tasks are under way the office may be asked for anything at any time: configurations are
taken in and changed, passes are begun, alerts are closed, retries and escalations are begun or
booked, and all bookings are taken out. A run is any order of the tasks' turns, of requests and
of times that pass. All that is asked for keeps to the managed work, and only what is booked is
ever told to stop.
-/
import BuildingAlerts.ControlRoom.Office
import BuildingAlerts.Proofs.Agenda.Awaiting
import BuildingAlerts.Proofs.ControlRoom.Shape

set_option autoImplicit false

namespace BuildingAlerts

open Agenda

namespace Office

/-- What the office may be asked for. -/
inductive Request where
  | addConfiguration (k : Configuration)
  | addFromTemplate (key : String) (u : TemplateUse)
  | updateConfiguration (id : String) (ch : Change)
  | setStatus (id : String) (s : ConfigurationStatus)
  | setRuleEnabled (id ruleId : String) (on : Bool)
  | openLine (channel : Channel) (carrier : Carrier)
  /-- A pass over a snapshot. -/
  | pass (s : Snapshot)
  /-- Retries that are not booked. -/
  | retry (entries : List String) (most : Int)
  /-- An escalation that is not booked. -/
  | escalate (id : String) (p : Policy) (level : Int)
  | acknowledge (id who : String)
  | resolve (id who notes : String)
  | markFalsePositive (id who : String)
  | bookRetries (entries : List String)
  | bookEscalation (id : String) (p : Policy)
  | shutdown

/-- The office after it was asked. -/
def serve (o : Office) : Request → Office
  | .addConfiguration k => o.adjust fun c => (c.addConfiguration k).2
  | .addFromTemplate key u => o.adjust fun c => (c.addFromTemplate o.clock key u).2
  | .updateConfiguration id ch => o.adjust fun c => (c.updateConfiguration o.clock id ch).2
  | .setStatus id s => o.adjust (·.setStatus o.clock id s)
  | .setRuleEnabled id ruleId on => o.adjust (·.setRuleEnabled o.clock id ruleId on)
  | .openLine channel carrier => o.adjust (·.openLine channel carrier)
  | .pass s => Agenda.launch o .caller (.pass .caller s)
  | .retry entries most => Agenda.launch o .caller (.retry entries most false)
  | .escalate id p level => Agenda.launch o .caller (.escalate (o.ref id) p (some level))
  | .acknowledge id who => (o.acknowledge id who).2
  | .resolve id who notes => (o.resolve id who notes).2
  | .markFalsePositive id who => (o.markFalsePositive id who).2
  | .bookRetries entries => (o.bookRetries entries).2
  | .bookEscalation id p => (o.bookEscalation id p).2
  | .shutdown => o.shutdown

/-- What the office is opened with. -/
structure Premises where
  setup : Setup
  limit : Concurrency
  opened : Moment
  ids : IdSource
  lines : Channel → Option Line
  directory : Table Recipient

/-- The room when the office is opened. -/
def Premises.room (p : Premises) : ControlRoom :=
  { ControlRoom.opening p.setup p.limit p.opened p.ids p.lines with directory := p.directory }

/-- What an office may come to, and the stints on the way there. -/
abbrev Premises.Run (p : Premises) : History ControlRoom Work Yield → Office → Prop :=
  Agenda.Run ControlRoom.program (fun o o' => ∃ r, o' = serve o r) (.idle p.room)

/-- What may happen next in an office. -/
inductive Move where
  /-- The ready item at a place is taken. -/
  | turn (place : Nat)
  /-- Nothing is ready, and time goes on. -/
  | wait (time : Instant)
  | ask (r : Request)

/-- What comes of a move after some others; one that cannot be made changes nothing. -/
def Move.after (x : History ControlRoom Work Yield × Office) :
    Move → History ControlRoom Work Yield × Office
  | .turn place =>
    match x.2.stepAt ControlRoom.program place with
    | none => x
    | some o => ((x.2.stintAt? place).toList ++ x.1, o)
  | .wait time =>
    if x.2.ready.isEmpty && decide (x.2.now ≤ time) then (x.1, x.2.passTo time) else x
  | .ask r => (x.1, serve x.2 r)

/-- What comes of some moves, one after the other. -/
def Premises.play (p : Premises) (ms : List Move) : History ControlRoom Work Yield × Office :=
  ms.foldl Move.after ([], .idle p.room)

variable {o : Office} {p : Premises} {h : History ControlRoom Work Yield}

/-- A run goes on with every move in which nothing is asked for that may not be. -/
theorem run_after {Serve : Office → Office → Prop} {start : Office} {ms : List Move}
    (hms : ∀ q, .ask q ∈ ms → ∀ o, Serve o (serve o q))
    {x : History ControlRoom Work Yield × Office}
    (hx : Agenda.Run ControlRoom.program Serve start x.1 x.2) :
    Agenda.Run ControlRoom.program Serve start (ms.foldl Move.after x).1
      (ms.foldl Move.after x).2 := by
  induction ms generalizing x with
  | nil => exact hx
  | cons m ms ih =>
      refine ih (fun q hq => hms q (List.mem_cons_of_mem m hq)) ?_
      unfold Move.after
      cases m with
      | turn place =>
          dsimp only
          split
          · exact hx
          · rename_i hb
            exact .step hx hb
      | wait time =>
          dsimp only
          split
          · rename_i hcan
            rw [Bool.and_eq_true, List.isEmpty_iff, decide_eq_true_iff] at hcan
            exact .pass hx hcan.1 hcan.2
          · exact hx
      | ask q => exact .serve hx (hms q List.mem_cons_self x.2)

/-- Moves make a run. -/
theorem Premises.run_play (p : Premises) (ms : List Move) : p.Run (p.play ms).1 (p.play ms).2 :=
  run_after (x := ([], .idle p.room)) (fun q _ _ => ⟨q, rfl⟩) .idle

/-! ## A small office -/

namespace Sample

/-- Just before ten in the evening. -/
def opened : Moment := .atUtc 63853221599000000

/-- A sensor in the ward reads thirty degrees. -/
def snapshot : Snapshot :=
  ⟨opened, [⟨"ward", opened, 30.0, "", "good", none, []⟩], [], [], none, none, []⟩

/-- Alerts go to somebody by mail. -/
def routing (quiet : QuietHours) : Routing :=
  ⟨[⟨.email, true, [], [.medium]⟩], [⟨"keeper", "", "", "",
    [⟨.email, "keeper@example.org", true, true⟩], [(.medium, [.email])], none⟩], .standard, quiet, []⟩

/-- The ward is too warm above ten degrees. -/
def configuration (id : String) (quiet : QuietHours) (policy : Option Policy) : Configuration :=
  ⟨id, "Ward", [⟨"warm", "Warm", [⟨"above", ⟨.temperature, some "ward", "", ""⟩, .greaterThan,
    .scalar (.real 10.0), .standard, [], rfl⟩], .medium, .all, 5, 30, true, true, "", []⟩],
    routing quiet, policy, .standard, .active, "", "", "", opened, opened⟩

/-- An office with a mail line that answers in the ways of `answers`, one after the other. -/
def premises (answer : Nat → Except Fault DeliveryResult) : Premises where
  setup := {}
  limit := none
  opened := opened
  ids := .fresh
  lines c := if c = .email then some (.fresh (.provider fun n => ⟨.zero, answer n⟩)) else none
  directory := .empty

end Sample

/-! ## What requests leave alone -/

/-- Requests in three kinds: those that change the room and tell tasks of an alert to stop, those
that begin a task, and those that book. -/
inductive Served (o : Office) : Office → Prop where
  | adjusted (f : ControlRoom → ControlRoom) : Served o (o.adjust f)
  | settled (f : ControlRoom → ControlRoom) (id : String) :
      Served o (Agenda.cancelAlert (o.adjust f) id).2
  | launched (w : Work) (hw : w.IsManaged) (houter : w.IsOuter) :
      Served o (Agenda.launch o .caller w)
  | booked (ms : List (Appointment Work)) (hms : ∀ m ∈ ms, ControlRoom.IsBooked m.body) :
      Served o (Agenda.bookAll o ms)
  | shut : Served o (Agenda.cancelBookings o)

theorem served_settleAlert (o : Office) (id : String) (f : Alert → Option Alert) :
    Served o (o.settleAlert id f).2 := by
  unfold settleAlert
  split
  · exact .adjusted fun c => c
  · exact .settled _ _

theorem served_serve (o : Office) (r : Request) : Served o (o.serve r) := by
  cases r with
  | addConfiguration k => exact .adjusted fun c => (c.addConfiguration k).2
  | addFromTemplate key u => exact .adjusted fun c => (c.addFromTemplate o.clock key u).2
  | updateConfiguration id ch => exact .adjusted fun c => (c.updateConfiguration o.clock id ch).2
  | setStatus id s => exact .adjusted (·.setStatus o.clock id s)
  | setRuleEnabled id ruleId on => exact .adjusted (·.setRuleEnabled o.clock id ruleId on)
  | openLine channel carrier => exact .adjusted (·.openLine channel carrier)
  | pass s => exact .launched _ trivial trivial
  | retry entries most => exact .launched _ trivial trivial
  | escalate id p level => exact .launched _ trivial trivial
  | acknowledge id who => exact served_settleAlert o id _
  | resolve id who notes => exact served_settleAlert o id _
  | markFalsePositive id who => exact served_settleAlert o id _
  | bookRetries entries => exact .booked _ fun m hm => ControlRoom.isBooked_of_mem_retryAppointments hm
  | bookEscalation id p =>
      show Served o (o.bookEscalation id p).2
      unfold bookEscalation
      split
      · exact .adjusted fun c => c
      · rename_i m hm
        refine .booked _ fun x hx => ?_
        obtain rfl := Option.mem_toList.mp hx
        exact ControlRoom.isBooked_of_escalationAppointment? hm
  | shutdown => exact .shut

theorem Served.outside {o' : Office} (hn : Agenda.Numbered o) (h : Served o o') :
    Agenda.Outside o o' := by
  cases h with
  | adjusted f => exact ⟨f o.state, .rfl⟩
  | settled f id => exact ⟨f o.state, rebooked_cancelAlert _ id⟩
  | launched w hw houter => exact ⟨o.state, rebooked_launch (w := .caller) hn (fun _ h => nomatch h) w⟩
  | booked ms hms => exact ⟨o.state, rebooked_bookAll ms hn⟩
  | shut => exact ⟨o.state, rebooked_cancelBookings o⟩

/-! ## What holds in every run -/

theorem outside_of_serve {a b : Office} (hn : Agenda.Numbered a) (hb : ∃ r, b = serve a r) :
    Agenda.Outside a b := by
  obtain ⟨r, rfl⟩ := hb
  exact (served_serve a r).outside hn

theorem only_of_serve {G : Audience → Work → Prop} {a b : Office}
    (hlaunched : ∀ w, w.IsManaged → w.IsOuter → G .caller w)
    (hbooked : ∀ w, ControlRoom.IsBooked w → G .nobody w) (ha : Only G a)
    (hb : ∃ r, b = serve a r) : Only G b := by
  obtain ⟨r, rfl⟩ := hb
  have hadjust : ∀ f, Only G (a.adjust f) := fun f => ha.edit rfl
  generalize hs : serve a r = b
  cases hs ▸ served_serve a r with
  | adjusted f => exact hadjust f
  | settled f id => exact (hadjust f).cancelAlert id
  | launched w hw houter => exact ha.start (p := .fresh w .caller) (hlaunched w hw houter)
  | booked ms hms => exact ha.bookAll fun m hm => hbooked m.body (hms m hm)
  | shut => exact ha.cancelBookings

theorem calm_of_serve {a b : Office} (hn : Agenda.Numbered a) (ha : Calm Work.IsSubordinate a)
    (hb : ∃ r, b = serve a r) : Calm Work.IsSubordinate b := by
  obtain ⟨r, rfl⟩ := hb
  have hadjust : ∀ f, Calm Work.IsSubordinate (a.adjust f) := fun f => ha.edit rfl rfl rfl
  generalize hs : serve a r = b
  cases hs ▸ served_serve a r with
  | adjusted f => exact hadjust f
  | settled f id => exact (hadjust f).cancelAlert id
  | launched w hw houter => exact ha.launch (w := .caller) hn (fun _ h => nomatch h) w
  | booked ms hms => exact ha.bookAll hn fun m hm => (hms m hm).isSubordinate
  | shut => exact ha.cancelBookings

/-- The history of an office is coherent, and all tasks wait as it has it. -/
theorem Premises.Run.keeps (hr : p.Run h o) : Sound ControlRoom.program none h o :=
  hr.sound (sound_idle _ _) outside_of_serve

/-- All work is managed work, and tasks that no other task started do what was asked for or
booked. -/
theorem Premises.Run.mayBeDone (hr : p.Run h o) : ∀ s ∈ h, s.body.MayBeDone s.audience := by
  refine (hr.only (G := fun v w => w.MayBeDone v) ControlRoom.closed_mayBeDone (sound_idle _ _)
    outside_of_serve (fun _ _ h => nomatch h) (only_of_serve (fun w hw houter => ⟨hw, fun _ => houter⟩)
      fun w hw => ⟨hw.isSubordinate.isManaged, fun _ => ?_⟩)).2
  rcases hw with ⟨es, most, again, rfl⟩ | ⟨r, p, level, rfl⟩
  · trivial
  · trivial

/-- All work under way is managed work. -/
theorem managed_of_serve {a b : Office} (ha : Only (fun _ => Work.IsManaged) a)
    (hb : ∃ r, b = serve a r) : Only (fun _ => Work.IsManaged) b :=
  only_of_serve (fun _ hw _ => hw) (fun _ hw => hw.isSubordinate.isManaged) ha hb

theorem calm_idle (c : ControlRoom) : Calm Work.IsSubordinate (.idle c : Office) :=
  ⟨fun _ _ h => (nomatch h), fun _ h => absurd h List.not_mem_nil, fun _ _ _ _ h => nomatch h⟩

/-- Nobody is told to stop but work that was booked, and what serves it. -/
theorem Premises.Run.calm (hr : p.Run h o) : Calm Work.IsSubordinate o :=
  Agenda.Run.calm ControlRoom.closed_isManaged ControlRoom.divides_isSubordinate (sound_idle _ _)
    outside_of_serve (fun _ _ h => nomatch h) managed_of_serve (calm_idle _) calm_of_serve hr

theorem Premises.Run.unmarked (hr : p.Run h o) {t : TaskId} {q : Process Work Yield}
    (hq : o.process? t = some q) (hw : ¬ q.body.IsSubordinate) : q.stopping = false :=
  hr.calm.unmarked t q hq hw

/-- Whoever waits for others hears of them. -/
theorem Premises.Run.attentive (hr : p.Run h o) :
    Attentive ControlRoom.program Work.IsSubordinate h o :=
  Agenda.Run.attentive ControlRoom.closed_isManaged ControlRoom.divides_isSubordinate
    (sound_idle _ _) outside_of_serve (fun _ _ h => nomatch h) managed_of_serve (calm_idle _)
    calm_of_serve hr rfl

end Office

end BuildingAlerts
