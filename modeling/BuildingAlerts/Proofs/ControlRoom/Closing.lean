/-
Closed alerts.

Closing an alert takes out all that is booked for it, and what the room books afterwards it books
for open alerts, with one exception: a notification that was under way when its alert was closed
still books the retries of its deliveries when it ends. Escalations look at the alert first, and
tasks that were booked for it have lost their bookings and stop.
-/
import BuildingAlerts.Proofs.ControlRoom.Escalations
import BuildingAlerts.Proofs.ControlRoom.Keys
import BuildingAlerts.Proofs.ControlRoom.Retries

set_option autoImplicit false

namespace BuildingAlerts

open Agenda

namespace Office

variable {p : Premises} {r : AlertRef} {h : Past} {o o' : Office} {n : Doing}

/-- A request that books no retry of what was delivered for a closed alert. -/
def LeavesClosed (r : AlertRef) (o : Office) : Request → Prop
  | .bookRetries es => o.state.store.Closed r →
      ∀ e ∈ es, ∀ x, o.state.journal.get? e = some x → x.alertId ≠ r.id
  | _ => True

/-- What an office may come to while nobody books retries for the closed alert from outside. -/
abbrev Premises.ClosingRun (p : Premises) (r : AlertRef) : Past → Office → Prop :=
  Agenda.Run ControlRoom.program (fun o o' => ∃ q, LeavesClosed r o q ∧ o' = serve o q)
    (.idle p.room)

theorem Premises.ClosingRun.run (hr : p.ClosingRun r h o) : p.Run h o :=
  hr.mono fun ⟨q, _, hb⟩ => ⟨q, hb⟩

/-- The key of a retry that a notification has booked when it ended, although its alert was
closed. -/
def BookedLate (r : AlertRef) (h : Past) (key : String) : Prop :=
  ∃ n ∈ h, (∃ left es policy, n.body = .collecting r left es (.book policy)) ∧
    n.state.store.Closed r ∧
    ∃ e ∈ n.body.carried n.wake, key = retryKey e ∧
      ∃ m ∈ (n.turn ControlRoom.program).appointments, m.key = key ∧ m.alertId = some r.id

theorem BookedLate.mono {key : String} {k : Past} (hb : BookedLate r h key)
    (hk : ∀ d ∈ h, d ∈ k) : BookedLate r k key := by
  obtain ⟨n, hn, hb⟩ := hb
  exact ⟨n, hk n hn, hb⟩

/-- What is booked for an alert was booked late. -/
def OnlyLate (r : AlertRef) (h : Past) (o : Office) : Prop :=
  ∀ key ∈ o.timetable.keysOf r.id, BookedLate r h key

theorem OnlyLate.of_get? (ho : OnlyLate r h o) (ht : Tidy o) {key : String} {x : Booking}
    (hx : o.timetable.bookings.get? key = some x) (hid : x.alertId = some r.id) :
    BookedLate r h key :=
  ho key ((ht.agrees.listed r.id key).mpr ⟨x, hx, hid⟩)

/-! ## Steps -/

/-- Whoever is at work and still booked is for the alert that its key is about, and whoever has
lost its booking books nothing. -/
theorem Premises.Step.isFor (hs : p.Step h o n o') {key : String} {m : Appointment Work}
    (hm : m ∈ (n.turn ControlRoom.program).appointments)
    (hkey : ∀ q, o.process? n.task = some q → q.key = some key) :
    ∃ x, o.timetable.bookings.get? key = some x ∧ IsFor h key x.alertId := by
  obtain ⟨place, hplace, -⟩ := hs.taken
  obtain ⟨-, -, q, hq, -⟩ := stintAt?_eq_some hplace
  by_cases hregistered : Agenda.Registered o key n.task
  · obtain ⟨x, hx, -⟩ := hregistered
    exact ⟨x, hx, hs.before.isFor hx⟩
  · obtain ⟨st, hst⟩ := hs.before.stops_of_unregistered hplace hq (hkey q hq) hregistered
    rw [hst] at hm
    exact absurd hm List.not_mem_nil

theorem Premises.Step.fits (hs : p.Step h o n o') {q : Process Work Yield}
    (hq : o.process? n.task = some q) : n.body.Fits q.key := by
  obtain ⟨place, hplace, -⟩ := hs.taken
  obtain ⟨-, -, q', hq', hof⟩ := stintAt?_eq_some hplace
  obtain rfl := Option.some.inj (hq.symm.trans hq')
  exact hof.body ▸ hs.before.fits hq

/-- A wave that carries a delivery of an alert goes on with that alert. -/
theorem Premises.Step.alert_of_carried (hs : p.Step h o n o') (hone : ∀ e, GivenOnce e (n :: h))
    (hsole : o'.state.store.Sole r) {e : String} (he : e ∈ n.body.carried n.wake)
    (hdrawn : DrawnFor e r.id (n :: h)) : n.body.concerns r = true := by
  obtain ⟨q, hq, hdrawnq, s, hsh, a, ha⟩ := hs.drawnFor (hone e) he
  have hid : q.id = r.id := hs.after.drawnFor_unique (hone e)
    (hdrawnq.mono fun d => List.mem_cons_of_mem n) hdrawn
  have hlater := (later_turn s).trans (hs.after.later.2.1 s (List.mem_cons_of_mem n hsh)).2
  obtain ⟨b, hb, -⟩ := hlater.grows.kept q a ha
  exact hsole q b hid hb ▸ hq

/-- **Who books for a closed alert** is its notification that ends, unless something was booked late
for it before. -/
theorem Premises.Step.bookedLate (hs : p.Step h o n o') (hone : ∀ e, GivenOnce e (n :: h))
    (hsole : o'.state.store.Sole r) (hclosed : o'.state.store.Closed r) (hlate : OnlyLate r h o)
    {m : Appointment Work} (hm : m ∈ (n.turn ControlRoom.program).appointments)
    (hid : m.alertId = some r.id) : BookedLate r (n :: h) m.key := by
  have htidy := hs.before.tidy
  have hmanaged := (hs.after.mayBeDone n List.mem_cons_self).1
  have hbooks : ControlRoom.Books o'.state m n.body n.wake :=
    hs.leaves ▸ ControlRoom.books_program n.now n.state hmanaged hm
  -- who is told of a delivery of the alert and books a retry of it
  have hdrawn : ∀ {e}, ControlRoom.IsRetryOf o'.state e m → DrawnFor e r.id (n :: h) := by
    intro e hretry
    obtain ⟨x, hx, hxid⟩ := hretry.entry
    exact Option.some.inj (hxid.symm.trans hid) ▸ hs.after.drawnFor hx
  -- a retry that books another one was booked for the same alert
  have hagain : ∀ {e}, ControlRoom.IsRetryOf o'.state e m →
      (∀ q, o.process? n.task = some q → q.key = some (retryKey e)) →
      BookedLate r (n :: h) m.key := by
    intro e hretry hkey
    obtain ⟨x, hx, hfor⟩ := hs.isFor hm hkey
    rcases hfor with ⟨e', id, he, hdrawn', hxid⟩ | ⟨id, level, he, -⟩
    · obtain rfl := retryKey_inj he
      obtain rfl := hs.after.drawnFor_unique (hone e)
        (hdrawn'.mono fun d => List.mem_cons_of_mem n) (hdrawn hretry)
      rw [hretry.key]
      exact (hlate.of_get? htidy hx hxid).mono fun d => List.mem_cons_of_mem n
    · exact absurd he (retryKey_ne_escalationKey _ _ _)
  have hfits : ∀ q, o.process? n.task = some q → n.body.Fits q.key := fun q => hs.fits
  generalize hw : n.body = w at hbooks hfits
  generalize hk : n.wake = k at hbooks
  cases hbooks with
  | @notified q left es policy _ e he hretry =>
      have hconcerns := hs.alert_of_carried hone hsole (by rw [hw, hk]; exact he) (hdrawn hretry)
      rw [hw] at hconcerns
      obtain rfl := Work.concerns_collecting.mp hconcerns
      have hwrites := ControlRoom.writes_program n.now n.state hmanaged n.wake
      refine ⟨n, List.mem_cons_self, ⟨left, es, policy, hw⟩, hwrites.closed (hs.leaves ▸ hclosed), e,
        ?_, hretry.key, m, hm, rfl, hid⟩
      rw [hw, hk]
      exact he
  | @escalated q pol s since _ e he hretry =>
      have hconcerns := hs.alert_of_carried hone hsole (by rw [hw, hk]; exact he) (hdrawn hretry)
      rw [hw] at hconcerns
      obtain rfl := Work.concerns_escalating.mp hconcerns
      obtain ⟨place, hplace, -⟩ := hs.taken
      obtain ⟨-, -, x, hx, -⟩ := stintAt?_eq_some hplace
      obtain ⟨level, hkey⟩ := hfits x hx
      have hkeyed : ∀ z, o.process? n.task = some z → z.key = some (escalationKey q.id level) :=
        fun z hz => Option.some.inj (hx.symm.trans hz) ▸ hkey
      obtain ⟨y, hy, hfor⟩ := hs.isFor hm hkeyed
      -- what is booked for a closed alert is a retry
      rcases hfor with ⟨e', id, he, -⟩ | ⟨id, level', he, hyid⟩
      · exact absurd he.symm (retryKey_ne_escalationKey _ _ _)
      · obtain rfl := escalationKey_inj he
        obtain ⟨-, -, -, -, e', -, he', -⟩ := hlate.of_get? htidy hy hyid
        exact absurd he'.symm (retryKey_ne_escalationKey _ _ _)
  | @waited es most _ e he hretry =>
      refine hagain hretry fun q hq => ?_
      obtain ⟨e', hkey, hes⟩ := hfits q hq
      rw [hkey, hes e he]
  | @retried es most _ e he hretry =>
      refine hagain hretry fun q hq => ?_
      obtain ⟨e', hkey, hes⟩ := hfits q hq
      rw [hkey, hes e he]
  | @next q pol _ _ hconcerns hnext =>
      -- an alert with a next stage is open
      obtain ⟨a, s, ha, hstage, -⟩ := hnext.stage
      obtain rfl := hsole q a (Option.some.inj (hnext.alertId.symm.trans hid)) ha
      obtain ⟨b, hb, hopen⟩ := hclosed
      obtain rfl := Option.some.inj (ha.symm.trans hb)
      exact nomatch hopen.symm.trans (Alert.allows_of_nextStage? hstage).isOpen

/-- A stint keeps to it that only what was booked late is booked for a closed alert. -/
theorem Premises.Step.onlyLate (hs : p.Step h o n o') (hone : ∀ e, GivenOnce e (n :: h))
    (hsole : o'.state.store.Sole r) (hclosed : o'.state.store.Closed r) (hlate : OnlyLate r h o) :
    OnlyLate r (n :: h) o' := by
  intro key hkey
  obtain ⟨place, hplace, hb⟩ := hs.taken
  obtain ⟨x, hx, hid⟩ := (hs.after.tidy.agrees.listed r.id key).mp hkey
  rcases hs.before.tidy.get?_stepAt hb hx with hold | ⟨n', hn', m, hm, rfl, hmid⟩
  · exact (hlate.of_get? hs.before.tidy hold hid).mono fun d => List.mem_cons_of_mem n
  · obtain rfl := Option.some.inj (hplace.symm.trans hn')
    exact hs.bookedLate hone hsole hclosed hlate hm (hmid.symm.trans hid)

/-! ## Requests -/

/-- What is asked for keeps to it as well: closing the alert takes out what is booked for it. -/
theorem onlyLate_serve (hr : p.Run h o) {q : Request} (hq : LeavesClosed r o q)
    (hsole : (serve o q).state.store.Sole r) (hclosed : (serve o q).state.store.Closed r)
    (hlate : o.state.store.Closed r → OnlyLate r h o) : OnlyLate r h (serve o q) := by
  have htidy := hr.tidy
  have hserved : p.Run h (serve o q) := .serve hr ⟨q, rfl⟩
  intro key hkey
  obtain ⟨x, hx, hid⟩ := (hserved.tidy.agrees.listed r.id key).mp hkey
  cases hremedy : q.remedy? o with
  | none =>
      have hstore := store_serve htidy.numbered hremedy
      rw [hstore] at hclosed hsole
      rcases get?_serve htidy q hx with hold | ⟨m, hm, rfl, hmid⟩
      · exact (hlate hclosed).of_get? htidy hold hid
      · rw [hmid] at hid
        cases hm with
        | @retry es e he hretry =>
            obtain ⟨y, hy, hyid⟩ := hretry.entry
            exact absurd (Option.some.inj (hyid.symm.trans hid)) (hq hclosed e he y hy)
        | @next id pol hnext =>
            obtain ⟨a, s, ha, hstage, -⟩ := hnext.stage
            obtain rfl := hsole _ a (Option.some.inj (hnext.alertId.symm.trans hid)) ha
            obtain ⟨b, hb, hopen⟩ := hclosed
            obtain rfl := Option.some.inj (ha.symm.trans hb)
            exact nomatch hopen.symm.trans (Alert.allows_of_nextStage? hstage).isOpen
  | some y =>
      obtain ⟨id, f⟩ := y
      rw [serve_of_remedy? hremedy] at hx hclosed
      rcases settleAlert_cases htidy id f with h | ⟨a, -, hstate, hget⟩
      · rw [h] at hx hclosed
        exact (hlate hclosed).of_get? htidy hx hid
      · rw [hget] at hx
        obtain ⟨hx, hkept⟩ := Option.filter_eq_some_iff.mp hx
        have hother : r.id ≠ id := by
          rintro rfl
          exact absurd hid (of_decide_eq_true hkept)
        obtain ⟨b, hb, hopen⟩ := hclosed
        rw [hstate] at hb
        have hb : (o.state.store.adjustAt (o.ref id) fun _ => a).find? r = some b := hb
        rw [Store.find?_adjustAt, if_neg fun hr => hother (congrArg AlertRef.id hr)] at hb
        exact (hlate ⟨b, hb, hopen⟩).of_get? htidy hx hid

/-! ## Runs -/

/-- **What is booked for a closed alert** are retries that its notification has booked when it
ended after the alert was closed. The induction is on the run. -/
theorem Premises.ClosingRun.booked_late (hr : p.ClosingRun r h o) (hone : ∀ e, GivenOnce e h)
    (hsole : o.state.store.Sole r) (hclosed : o.state.store.Closed r) : OnlyLate r h o := by
  induction hr with
  | idle =>
      obtain ⟨a, ha, -⟩ := hclosed
      have ha : Store.empty.find? r = some a := ha
      rw [Store.find?_eq_line] at ha
      exact nomatch ha
  | @step h a b place hr hb ih =>
      have hrun : p.Run h a := Premises.ClosingRun.run hr
      have hstep : p.Run _ b := hrun.step hb
      have hstate := state_of_stepAt hrun.keeps.numbered hb
      cases hs : Agenda.stintAt? a place with
      | none =>
          rw [hs] at hstate hone
          have hstate : b.state = a.state := hstate
          rw [hstate] at hsole hclosed
          have hold := ih hone hsole hclosed
          intro key hkey
          obtain ⟨x, hx, hid⟩ := (hstep.tidy.agrees.listed r.id key).mp hkey
          rcases hrun.tidy.get?_stepAt hb hx with hx | ⟨n, hn, -⟩
          · exact hold.of_get? hrun.tidy hx hid
          · exact nomatch hs.symm.trans hn
      | some n =>
          rw [hs] at hstep hone
          have hs : p.Step h a n b := ⟨hrun, hstep, place, hs, hb⟩
          have hmanaged := (hstep.mayBeDone n List.mem_cons_self).1
          have hlater := later_turn n
          rw [hs.state, ← hs.leaves] at hlater
          have hwrites := ControlRoom.writes_program n.now n.state hmanaged n.wake
          refine hs.onlyLate hone hsole hclosed (ih ?_ (hsole.of_grows hlater.grows) ?_)
          · exact fun e => (hone e).of_subset fun d => List.mem_cons_of_mem n
          · exact hs.state ▸ hwrites.closed (hs.leaves ▸ hclosed)
  | @pass h a time hr hready htime ih =>
      have hstate : (a.passTo time).state = a.state := state_passTo a time
      rw [hstate] at hsole hclosed
      have hold := ih hone hsole hclosed
      intro key hkey
      rw [(moves_passTo a time).timetable] at hkey
      exact hold key hkey
  | @serve h a b hr hb ih =>
      have hrun : p.Run h a := Premises.ClosingRun.run hr
      obtain ⟨q, hq, rfl⟩ := hb
      have hgrows := (kept_serve hrun.keeps.numbered q).grows
      exact onlyLate_serve hrun hq hsole hclosed (ih hone (hsole.of_grows hgrows))

/-! ## An alert that is closed while it is notified -/

/-- Identifiers are given once if none that is given is given again. -/
theorem givenOnce_of_next (hone : ∀ d ∈ h, ∀ n ∈ h, draws d.state.nextEntry d = true →
    draws d.state.nextEntry n = true → d.task = n.task) (e : String) : GivenOnce e h := by
  intro d hd n hn hdraws hdraws'
  obtain ⟨-, -, rfl⟩ := draws_iff.mp hdraws
  exact hone d hd n hn hdraws hdraws'

namespace Sample

/-- A pass whose only alert is resolved while its delivery is under way, and the rest of the
pass. -/
def late : Past × Office :=
  refusing.play ([.ask (.addConfiguration (configuration "ward" .standard none)),
    .ask (.pass snapshot)] ++ List.replicate 7 (.turn 0) ++
    .ask (.resolve warm.id "keeper" "") :: List.replicate 5 (.turn 0))

/-- Only what a pass does, and somebody who resolves, are in the way of the moves. -/
theorem closingRun_late : refusing.ClosingRun warm late.1 late.2 := by
  refine run_after (x := ([], .idle refusing.room)) (fun q hq o => ⟨q, ?_, rfl⟩) .idle
  rcases List.mem_append.mp hq with hq | hq
  · rcases List.mem_append.mp hq with hq | hq
    · rcases List.mem_cons.mp hq with hq | hq
      · rw [Move.ask.inj hq]
        trivial
      · rw [Move.ask.inj (List.mem_singleton.mp hq)]
        trivial
    · exact nomatch List.eq_of_mem_replicate hq
  · rcases List.mem_cons.mp hq with hq | hq
    · rw [Move.ask.inj hq]
      trivial
    · exact nomatch List.eq_of_mem_replicate hq

/-- The only alert that came in is resolved. -/
theorem closed_late : late.2.state.store.Closed warm := by
  decide +kernel

/-- The only alert of its identifier. -/
theorem sole_warm {s : Store} (hline : (s.line warm.id).length ≤ 1) : s.Sole warm := by
  intro q a hq ha
  rw [Store.find?_eq_line, hq] at ha
  obtain ⟨hlt, -⟩ := List.getElem?_eq_some_iff.mp ha
  have hplace : q.place = 0 := by omega
  cases q
  subst hq hplace
  rfl

theorem sole_late : late.2.state.store.Sole warm :=
  sole_warm (by decide +kernel)

end Sample

set_option maxRecDepth 100000 in
/-- The retry of a delivery is booked for the alert that was resolved while it was under way. -/
theorem booked_late_resolved :
    (∀ e, GivenOnce e Sample.late.1) ∧ Sample.late.2.state.store.Sole Sample.warm ∧
      Sample.late.2.state.store.Closed Sample.warm ∧
      OnlyLate Sample.warm Sample.late.1 Sample.late.2 := by
  have hone := givenOnce_of_next (h := Sample.late.1) (by decide +kernel)
  exact ⟨hone, Sample.sole_late, Sample.closed_late,
    Sample.closingRun_late.booked_late hone Sample.sole_late Sample.closed_late⟩

set_option maxRecDepth 100000 in
/-- An alert is closed, and a task is booked for it. -/
theorem pending_when_closed : ∃ (p : Premises) (r : AlertRef) (h : Past) (o : Office),
    p.ClosingRun r h o ∧ o.state.store.Sole r ∧ o.state.store.Closed r ∧
      o.timetable.keysOf r.id ≠ [] := by
  refine ⟨_, _, _, _, Sample.closingRun_late, Sample.sole_late, Sample.closed_late, ?_⟩
  decide +kernel

end Office

end BuildingAlerts
