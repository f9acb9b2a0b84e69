/-
No escalation of an alert is lost.

As long as nothing that is done about an open alert fails, passes do not overlap, the office is not
shut down and nobody takes notice of the alert while an escalation of it is pending, the alert stays
in the chain of its escalations. So whenever nothing is ready and no delivery is under way, the task
of the stage that is next is booked: what else the chain allows would have a delivery under way.
-/
import BuildingAlerts.Proofs.ControlRoom.Chain
import BuildingAlerts.Proofs.ControlRoom.Closing
import BuildingAlerts.Proofs.ControlRoom.Listening

set_option autoImplicit false

namespace BuildingAlerts

open Agenda

namespace Office

variable {p : Premises} {r : AlertRef} {h : Past} {o o' : Office} {n : Doing}

/-! ## Runs that leave the chain of an alert -/

/-- What an office may come to while nothing that is asked for breaks the chain of an alert. -/
abbrev Premises.ChainRun (p : Premises) (r : AlertRef) : Past → Office → Prop :=
  Agenda.Run ControlRoom.program (fun o o' => ∃ q, LeavesChain r o q ∧ o' = serve o q)
    (.idle p.room)

theorem Premises.ChainRun.orderly (hr : p.ChainRun r h o) : p.OrderlyRun r h o :=
  hr.mono fun ⟨q, hq, hb⟩ => ⟨q, hq.isOrderly, hb⟩

theorem Premises.ChainRun.run (hr : p.ChainRun r h o) : p.Run h o :=
  hr.orderly.run

/-- Nothing that is done about an open alert fails. -/
def NeverFalters (r : AlertRef) (h : Past) : Prop :=
  ∀ n ∈ h, n.body.concerns r = true → Falters n → n.state.store.Closed r

/-- **An alert stays in its chain** from its notification on. The induction is on the run. -/
theorem Premises.ChainRun.linked (hr : p.ChainRun r h o) (hsole : o.state.store.Sole r)
    (hfine : NeverFalters r h) : Linked r h o := by
  induction hr with
  | idle => exact linked_idle p.room
  | @step h a b place hr hb ih =>
      have hrun : p.Run h a := Premises.ChainRun.run hr
      have hcourse : Course r h a := (Premises.ChainRun.orderly hr).course
      have hstep : p.Run _ b := hrun.step hb
      cases hs : Agenda.stintAt? a place with
      | none =>
          rw [hs] at hfine
          have haside := hrun.aside_of_no_stint (r := r) hs hb
          have hstate := state_of_stepAt hrun.keeps.numbered hb
          rw [hs] at hstate
          have hstate : b.state = a.state := hstate
          exact (ih (hstate ▸ hsole) hfine).aside hrun haside
      | some n =>
          rw [hs] at hstep hfine
          have hs : p.Step h a n b := ⟨hrun, hstep, place, hs, hb⟩
          have hlater := later_turn n
          rw [hs.state, ← hs.leaves] at hlater
          have hold := ih (hsole.of_grows hlater.grows)
            fun m hm => hfine m (List.mem_cons_of_mem n hm)
          exact hold.stint hs hcourse hsole (hfine n List.mem_cons_self)
  | @pass h a time hr hready htime ih =>
      have hstate : (a.passTo time).state = a.state := state_passTo a time
      exact (ih (hstate ▸ hsole) hfine).aside (Premises.ChainRun.run hr) (aside_passTo a time)
  | @serve h a b hr hb ih =>
      have hrun : p.Run h a := Premises.ChainRun.run hr
      obtain ⟨q, hq, rfl⟩ := hb
      have hbefore := hsole.of_grows (kept_serve hrun.keeps.numbered q).grows
      exact (ih hbefore hfine).serve hrun hbefore hq

/-! ## Quiet moments -/

/-- Nothing is ready, and no delivery is under way. -/
def Quiet (o : Office) : Prop :=
  o.ready = [] ∧ ∀ x ∈ o.processes, ¬ x.2.body.IsDelivery

/-- A moment is quiet if nothing is ready and all that is under way concerns an alert. -/
theorem quiet_of_concerns (hready : o.ready = [])
    (hconcerns : ∀ x ∈ o.processes, x.2.body.concerns r = true) : Quiet o := by
  refine ⟨hready, fun x hx hdelivery => ?_⟩
  have hcx := hconcerns x hx
  rcases hdelivery with ⟨q, level, hbody⟩ | ⟨e, he⟩
  · rw [hbody] at hcx
    exact nomatch hcx
  · rcases Work.of_tries he with hbody | ⟨q, hbody⟩ | ⟨n, hbody⟩
    · rw [hbody] at hcx
      exact nomatch hcx
    · rw [hbody] at hcx
      exact nomatch hcx
    · rw [hbody] at hcx
      exact nomatch hcx

/-- A stage of a policy is pending: a task is booked under its key that escalates the alert. -/
def Pending (r : AlertRef) (pol : Policy) (s : Stage) (o : Office) : Prop :=
  ∃ x y, o.timetable.bookings.get? (escalationKey r.id s.level) = some x ∧
    o.process? x.task = some y ∧ y.body = .escalate r pol none

/-- The stage that is next for an alert in its chain is pending at a quiet moment. -/
theorem Chained.pending {pol : Policy} (hch : Chained r pol o) (hr : p.Run h o) (hquiet : Quiet o)
    {a : Alert} (ha : o.state.store.find? r = some a) {s : Stage}
    (hs : a.nextStage? pol a.escalationLevel = some s) : Pending r pol s o := by
  have hnobody : ¬ ∃ c q, o.process? c = some q ∧ q.body.IsDelivery := by
    rintro ⟨c, q, hq, hdelivery⟩
    obtain ⟨k, l, hprocesses, -⟩ := List.lookup_eq_some_iff.mp hq
    exact hquiet.2 (c, q) (hprocesses ▸ List.mem_append_right _ List.mem_cons_self) hdelivery
  cases hch with
  | closed hclosed =>
      obtain ⟨b, hb, hopen⟩ := hclosed
      obtain rfl := Option.some.inj (ha.symm.trans hb)
      have hboth : false = true := hopen.symm.trans (Alert.allows_of_nextStage? hs).isOpen
      exact absurd hboth Bool.false_ne_true
  | notifying hx hbegun hbody => exact absurd (hr.exists_delivery hquiet.1 hx hbegun hbody) hnobody
  | spent hnone _ => exact absurd (hs.symm.trans (hnone a ha)) (Option.some_ne_none s)
  | waits hb hst hbook hx hbody =>
      obtain rfl := Option.some.inj (ha.symm.trans hb)
      obtain rfl := Option.some.inj (hs.symm.trans hst)
      rcases hbody with hbody | ⟨hbegun, since, hbody⟩
      · exact ⟨_, _, hbook, hx, hbody⟩
      · exact absurd (hr.exists_delivery_of_escalating hquiet.1 hx hbegun hbody) hnobody

/-- A pass that registers an alert has begun its notification, once nothing is ready. -/
theorem Premises.Run.notified_of_registered (hr : p.Run h o) (hcalendar : CalendarLasts h)
    (hready : o.ready = []) (hsole : o.state.store.Sole r) {a : Alert}
    (ha : o.state.store.get? r.id = some a) :
    ∃ s ∈ h, IsPass s ∧ Registers h s r.id ∧ ∃ n ∈ h, n.audience = .task s.task ∧
      n.body = .notify r ∧ ∃ b k, n.state.store.find? r = some b ∧
        n.state.configurations.get? b.configurationId = some k := by
  have hkeyed : o.state.store.Keyed :=
    hr.later.1.grows.keyed fun _ he => absurd he List.not_mem_nil
  have hid : r.id ∈ o.state.store.ids :=
    hkeyed.mem_ids_iff.mpr (Option.isSome_iff_exists.mpr ⟨a, ha⟩)
  obtain ⟨s, hs, hps, hreg⟩ := hr.registered hid
  obtain ⟨hacross, hnew⟩ := hr.comesAcross_of_registers hs hps hreg
  obtain ⟨n, hn, haudience, q, hbody, hqid, b, k, hb, hk⟩ :=
    hr.handsOver_of_comesAcross (hr.evaluations_succeed hcalendar hs hps) hs hps (.inr hready)
      (hr.notificationsBegun hready s.task) hacross hnew
  have hlater := (later_turn n).trans (hr.later.2.1 n hn).2
  obtain ⟨c, hc, -⟩ := hlater.grows.kept q b hb
  obtain rfl := hsole q c hqid hc
  exact ⟨s, hs, hps, hreg, n, hn, haudience, hbody, b, k, hb, hk⟩

/-- **No escalation of an alert is lost.** Every alert goes back to a pass that registered it and
began its notification, and at every quiet moment the stage that is next for it, under the policy
that its configuration had when it was notified, is pending. -/
theorem Premises.ChainRun.stage_pending (hr : p.ChainRun r h o) (hcalendar : CalendarLasts h)
    (hsole : o.state.store.Sole r) (hfine : NeverFalters r h) (hquiet : Quiet o) {a : Alert}
    (ha : o.state.store.get? r.id = some a) :
    ∃ s ∈ h, IsPass s ∧ Registers h s r.id ∧ ∃ n ∈ h, n.audience = .task s.task ∧
      n.body = .notify r ∧ ∃ b k, n.state.store.find? r = some b ∧
        n.state.configurations.get? b.configurationId = some k ∧
        ∀ pol st, k.policy = some pol → a.nextStage? pol a.escalationLevel = some st →
          Pending r pol st o := by
  obtain ⟨s, hs, hps, hreg, n, hn, haudience, hbody, b, k, hb, hk⟩ :=
    hr.run.notified_of_registered hcalendar hquiet.1 hsole ha
  refine ⟨s, hs, hps, hreg, n, hn, haudience, hbody, b, k, hb, hk, fun pol st hpol hst => ?_⟩
  have hfound := (Store.find?_ref o.state.store r.id).trans ha
  rw [hsole (o.state.store.ref r.id) a rfl hfound] at hfound
  have hchained := (hr.linked hsole hfine).chained n hn hbody b k pol hb hk hpol
  exact hchained.pending hr.run hquiet hfound hst

/-! ## An alert of which somebody takes notice -/

/-- What comes of it that somebody takes notice of an alert for which one task is booked, as long as
that task sleeps: it is woken to stop. -/
def noticed? (o : Office) (id who : String) : Option Office := do
  let a ← (o.state.store.get? id).bind (·.acknowledge? who o.clock)
  let key ← (o.timetable.keysOf id).head?
  let b ← o.timetable.bookings.get? key
  let x ← o.process? b.task
  match (o.timetable.keysOf id).tail, x.waiting with
  | [], .asleep => some (Agenda.wake { o.adjust (·.adjustAlert (o.ref id) fun _ => a) with
      timetable := o.timetable.forget key b.task } b.task (.stopped .cancelled))
  | _, _ => none

theorem serve_of_noticed? {id who : String} (hn : noticed? o id who = some o') :
    serve o (.acknowledge id who) = o' := by
  unfold noticed? at hn
  obtain ⟨a, ha, hn⟩ := Option.bind_eq_some_iff.mp hn
  obtain ⟨key, hkey, hn⟩ := Option.bind_eq_some_iff.mp hn
  obtain ⟨b, hb, hn⟩ := Option.bind_eq_some_iff.mp hn
  obtain ⟨x, hx, hn⟩ := Option.bind_eq_some_iff.mp hn
  split at hn
  · rename_i htail hw
    obtain ⟨keys, hkeys⟩ := List.head?_eq_some_iff.mp hkey
    rw [hkeys] at htail
    obtain rfl : keys = [] := htail
    obtain rfl := Option.some.inj hn
    show (o.settleAlert id _).2 = _
    unfold settleAlert
    rw [ha]
    show (Agenda.cancelKeys _ (o.timetable.keysOf id)).2 = _
    rw [hkeys]
    show (Agenda.cancelKey _ key).2 = _
    unfold Agenda.cancelKey
    rw [show (o.adjust (·.adjustAlert (o.ref id) fun _ => a)).timetable.bookings.get? key = some b
      from hb]
    exact Agenda.cancel_of_asleep hx hw
  · exact nomatch hn

namespace Sample

/-- The keeper is told again after a minute, also when somebody has taken notice. -/
def firm : Policy :=
  ⟨"keeper", "Keeper", [⟨1, 1, ["keeper"], [.email], true, 15, false, ""⟩], 1, rfl⟩

/-- A pass, until its alert has been notified. -/
def tended : Past × Office :=
  (List.replicate 22 (Move.turn 0)).foldl Move.after
    ([], serve (serve (.idle (premises fun _ => .ok ⟨true, .null, none, none⟩).room)
      (.addConfiguration (configuration "ward" .standard (some firm)))) (.pass snapshot))

/-- What comes after the pass, from an office on. -/
def afterwards (o : Office) : Past × Office :=
  (List.replicate 2 (Move.turn 0)).foldl Move.after (tended.1, o)

theorem chainRun_tended : (premises fun _ => .ok ⟨true, .null, none, none⟩).ChainRun warm
    tended.1 tended.2 := by
  refine run_after (x := ([], _)) (fun q hq => ?_)
    (.serve (.serve .idle ⟨.addConfiguration _, trivial, rfl⟩) ⟨.pass snapshot, ?_, rfl⟩)
  · exact nomatch List.eq_of_mem_replicate hq
  · exact fun _ _ hj => nomatch hj

/-- Somebody takes notice after the pass. -/
theorem orderlyRun_afterwards (hn : noticed? tended.2 warm.id "keeper" = some o) :
    (premises fun _ => .ok ⟨true, .null, none, none⟩).OrderlyRun warm (afterwards o).1
      (afterwards o).2 := by
  have hserve := serve_of_noticed? hn
  have hserved : (premises fun _ => .ok ⟨true, .null, none, none⟩).OrderlyRun warm tended.1
      (serve tended.2 (.acknowledge warm.id "keeper")) :=
    .serve chainRun_tended.orderly ⟨.acknowledge warm.id "keeper", trivial, rfl⟩
  rw [hserve] at hserved
  unfold afterwards
  generalize tended.1 = h at hserved ⊢
  refine run_after (x := (h, o)) (fun q hq => ?_) hserved
  exact nomatch List.eq_of_mem_replicate hq

end Sample

instance (r : AlertRef) (h : Past) : Decidable (NeverFalters r h) :=
  inferInstanceAs (Decidable (∀ n ∈ h, _ → _ → _))

set_option maxRecDepth 100000 in
/-- The stage after the notification is pending when the pass is over. -/
theorem stage_pending_tended : CalendarLasts Sample.tended.1 ∧
    Sample.tended.2.state.store.Sole Sample.warm ∧ NeverFalters Sample.warm Sample.tended.1 ∧
    Quiet Sample.tended.2 ∧ ∃ a, Sample.tended.2.state.store.get? Sample.warm.id = some a ∧
      a.nextStage? Sample.firm a.escalationLevel ≠ none ∧
      ∃ s ∈ Sample.tended.1, IsPass s ∧ Registers Sample.tended.1 s Sample.warm.id ∧
        ∃ n ∈ Sample.tended.1, n.audience = .task s.task ∧ n.body = .notify Sample.warm ∧
          ∃ b k, n.state.store.find? Sample.warm = some b ∧
            n.state.configurations.get? b.configurationId = some k ∧
            ∀ pol st, k.policy = some pol → a.nextStage? pol a.escalationLevel = some st →
              Pending Sample.warm pol st Sample.tended.2 := by
  have hlasts : CalendarLasts Sample.tended.1 := by
    unfold CalendarLasts
    decide +kernel
  have hsole : Sample.tended.2.state.store.Sole Sample.warm := Sample.sole_warm (by decide +kernel)
  have hfine : NeverFalters Sample.warm Sample.tended.1 := by decide +kernel
  have hquiet : Quiet Sample.tended.2 :=
    quiet_of_concerns (r := Sample.warm) (by decide +kernel) (by decide +kernel)
  have hopen : ∃ a ∈ Sample.tended.2.state.store.get? Sample.warm.id,
      (a.nextStage? Sample.firm a.escalationLevel).isSome = true := by
    decide +kernel
  obtain ⟨a, ha, hnext⟩ := hopen
  exact ⟨hlasts, hsole, hfine, hquiet, a, ha, Option.isSome_iff_ne_none.mp hnext,
    Sample.chainRun_tended.stage_pending hlasts hsole hfine hquiet ha⟩

set_option maxRecDepth 100000 in
/-- Somebody takes notice of an alert, and the stage that is still next for it is not pending. -/
theorem stage_lost_noticed : ∃ (p : Premises) (r : AlertRef) (h : Past) (o : Office),
    p.OrderlyRun r h o ∧ CalendarLasts h ∧ o.state.store.Sole r ∧ NeverFalters r h ∧ Quiet o ∧
      ∃ a, o.state.store.get? r.id = some a ∧ ∃ n ∈ h, n.body = .notify r ∧
        ∃ b k pol st, n.state.store.find? r = some b ∧
          n.state.configurations.get? b.configurationId = some k ∧ k.policy = some pol ∧
          a.nextStage? pol a.escalationLevel = some st ∧ ¬ Pending r pol st o := by
  have hnoticed : ∃ o ∈ noticed? Sample.tended.2 Sample.warm.id "keeper",
      (∀ d ∈ (Sample.afterwards o).1, d.state.clock? d.now ≠ none) ∧
        ((Sample.afterwards o).2.state.store.line Sample.warm.id).length ≤ 1 ∧
        NeverFalters Sample.warm (Sample.afterwards o).1 ∧ (Sample.afterwards o).2.ready = [] ∧
        (∀ x ∈ (Sample.afterwards o).2.processes, x.2.body.concerns Sample.warm = true) ∧
        ∃ a ∈ (Sample.afterwards o).2.state.store.get? Sample.warm.id,
          ∃ n ∈ (Sample.afterwards o).1, n.body.notified? = some Sample.warm ∧
            ∃ b ∈ n.state.store.find? Sample.warm,
              ∃ k ∈ n.state.configurations.get? b.configurationId, ∃ pol ∈ k.policy,
                ∃ st ∈ a.nextStage? pol a.escalationLevel,
                  (Sample.afterwards o).2.timetable.bookings.get?
                    (escalationKey Sample.warm.id st.level) = none := by
    decide +kernel
  obtain ⟨o, ho, hlasts, hline, hfine, hready, hconcerns, a, ha, n, hn, hbody, b, hb, k, hk, pol, hpol,
    st, hst, hnone⟩ := hnoticed
  refine ⟨_, _, _, _, Sample.orderlyRun_afterwards ho, hlasts, Sample.sole_warm hline, hfine,
    quiet_of_concerns hready hconcerns, a, ha, n, hn, Work.notified?_eq_some.mp hbody, b, k, pol, st, hb, hk, hpol, hst, ?_⟩
  rintro ⟨x, y, hx, -⟩
  exact nomatch hnone.symm.trans hx

end Office

end BuildingAlerts
