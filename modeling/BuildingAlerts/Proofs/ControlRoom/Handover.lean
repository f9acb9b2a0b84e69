/-
By which passes an alert is handed over.

An alert is handed over when a pass begins its notification and the configuration of the alert
is there. The pass that registers an alert hands it over. So does every other pass that began
before that and comes across the alert all the same, because what it takes for new is what was
not there when it began: where no such pass overlaps the registration, the alert is handed over
by exactly one pass, and only then.
-/
import BuildingAlerts.Proofs.ControlRoom.Passes
import Mathlib.Logic.ExistsUnique

set_option autoImplicit false

namespace BuildingAlerts

open Agenda

/-- All alerts are of configurations that are there. -/
def ControlRoom.Housed (c : ControlRoom) : Prop :=
  c.store.Of fun id => (c.configurations.get? id).isSome = true

namespace Office

variable {p : Premises} {h : Past} {o : Office}

/-! ## What holds in every room of a run -/

theorem Premises.Run.keyed (hr : p.Run h o) {s : Doing} (hs : s ∈ h) :
    s.state.store.Keyed ∧ s.state.configurations.KeyedBy (·.id) :=
  have hlater := (hr.later.2.1 s hs).1
  ⟨hlater.grows.keyed fun _ he => absurd he List.not_mem_nil,
    hlater.keyed fun _ he => absurd he List.not_mem_nil⟩

/-- The room that a stint leaves is a later one than the room that it was given. -/
theorem later_turn (s : Doing) : s.state.Later (s.turn ControlRoom.program).state :=
  ControlRoom.later_program s.now s.state s.body s.wake

/-- An evaluation is started by a pass, for a configuration that is there. -/
theorem Premises.Run.origin_evaluate (hr : p.Run h o) {f : Doing} {e : Past} (hf : f :: e <:+ h)
    {b : Assignment} {x : Snapshot} (hbody : f.body = .evaluate b x) :
    ∃ s ∈ e, s.body = .pass .caller x ∧ f.audience = .task s.task ∧
      s.Starts ControlRoom.program f.task f.body ∧
      (f.state.configurations.get? b.configuration.id).isSome = true := by
  obtain ⟨s, hs, haudience, hnow, hstarts⟩ :=
    hr.origin hf (by rw [hbody]; trivial) (by rw [hbody]; exact id)
  have hsm : s ∈ h := hf.subset (List.mem_cons_of_mem _ hs)
  obtain ⟨i, hi, -⟩ := id hstarts
  have hchild := List.mem_of_getElem? hi
  rw [hbody] at hchild
  have hpass := (hr.shaped hsm).next.of_evaluate hchild
  refine ⟨s, hs, hpass, haudience, hstarts, ?_⟩
  have hwake := (hr.first hsm (by rw [hpass]; trivial)).2
  have hnext := ControlRoom.next_pass s.now s.state x
  unfold Stint.turn at hchild
  rw [hpass, hwake] at hchild
  rcases hnext with ⟨-, st, hn⟩ | ⟨-, hn⟩ | ⟨-, hn⟩
  · rw [hn] at hchild
    exact absurd hchild List.not_mem_nil
  · rw [hn] at hchild
    exact absurd hchild List.not_mem_nil
  · rw [hn] at hchild
    obtain ⟨b', hb', heq⟩ := List.mem_map.mp hchild
    obtain ⟨rfl, -⟩ := Work.evaluate.inj heq
    obtain ⟨k, hk, rfl⟩ := List.mem_map.mp hb'
    have hvalue := (List.mem_filter.mp hk).1
    have hthere := (hr.keyed hsm).2.mem_map_iff.mp (List.mem_map_of_mem hvalue)
    exact ((later_turn s).trans (hr.later_of_suffix hf hs)).registered _ hthere

theorem housed_of_kept {c d : ControlRoom} (h : c.Kept d) (hc : c.Housed) : d.Housed :=
  (h.of hc).mono h.registered

/-- All alerts are of configurations that are there, at every moment. -/
theorem Premises.Run.housed (hr : p.Run h o) :
    o.state.Housed ∧ ∀ s ∈ h, s.state.Housed := by
  induction hr with
  | idle =>
      refine ⟨fun r a ha => ?_, fun _ hs => absurd hs List.not_mem_nil⟩
      rw [Store.find?_eq_line] at ha
      exact nomatch ha
  | @step h a b place hr hb ih =>
      have hstate := state_of_stepAt (Premises.Run.keeps hr).numbered hb
      have hrun : p.Run ((a.stintAt? place).toList ++ h) b := .step hr hb
      cases hs : a.stintAt? place with
      | none =>
          rw [hs] at hstate
          rw [hstate]
          exact ih
      | some d =>
          rw [hs] at hstate hrun
          obtain ⟨-, -, q, -, hof⟩ := stintAt?_eq_some hs
          have hd : d.state.Housed := hof.state ▸ ih.1
          refine ⟨?_, fun s hsm => ?_⟩
          · rw [hstate]
            show (d.turn ControlRoom.program).state.Housed
            by_cases hbody : ∃ b x, d.body = .evaluate b x
            · obtain ⟨b, x, hbody⟩ := hbody
              obtain ⟨-, -, -, -, -, hthere⟩ :=
                hrun.origin_evaluate (List.suffix_refl _) hbody
              have hwake := (hrun.first List.mem_cons_self (by rw [hbody]; trivial)).2
              unfold Stint.turn
              rw [hbody, hwake]
              rcases ControlRoom.evaluate_cases d.now d.state b x with he | ⟨-, he⟩
              · rw [he]
                exact (b.evaluated_run x d.state.registry).of hthere hd
              · rw [he]
                exact hd
            · exact housed_of_kept (ControlRoom.worked_program d.now d.state
                (fun b x he => hbody ⟨b, x, he⟩) d.wake).toKept hd
          · rcases List.mem_cons.mp hsm with rfl | hsm
            · exact hd
            · exact ih.2 s hsm
  | @pass h a time _ _ _ ih =>
      have hstate : (a.passTo time).state = a.state := state_passTo a time
      rw [hstate]
      exact ih
  | @serve h a b hr hb ih =>
      obtain ⟨r, rfl⟩ := hb
      exact ⟨housed_of_kept (kept_serve (Premises.Run.keeps hr).numbered r) ih.1, ih.2⟩

/-! ## What a pass comes to -/

/-- An evaluation of the pass that begins with `s` comes to an alert. -/
def ComesAcross (h : Past) (s : Doing) (id : String) : Prop :=
  ∃ f ∈ h, f.audience = .task s.task ∧ (∃ b x, f.body = .evaluate b x) ∧
    ∃ ids, f.Ends ControlRoom.program (.ok (.names ids)) ∧ id ∈ ids

/-- An evaluation of the pass that begins with `s` registers an alert. -/
def Registers (h : Past) (s : Doing) (id : String) : Prop :=
  ∃ f ∈ h, f.audience = .task s.task ∧ (∃ b x, f.body = .evaluate b x) ∧
    id ∉ f.state.store.ids ∧ id ∈ (f.turn ControlRoom.program).state.store.ids

/-- The pass that begins with `s` hands an alert over: it begins the alert's notification, and
the configuration of the alert is there. -/
def HandsOver (h : Past) (s : Doing) (id : String) : Prop :=
  ∃ n ∈ h, n.audience = .task s.task ∧ ∃ r, n.body = .notify r ∧ r.id = id ∧
    ∃ a k, n.state.store.find? r = some a ∧
      n.state.configurations.get? a.configurationId = some k

instance (h : Past) (s : Doing) (id : String) : Decidable (HandsOver h s id) :=
  decidable_of_iff (∃ n ∈ h, n.audience = .task s.task ∧ ∃ r ∈ n.body.notified?, r.id = id ∧
      ((n.state.store.find? r).bind fun a =>
        n.state.configurations.get? a.configurationId).isSome = true) <| by
    refine exists_congr fun n => and_congr_right fun _ => and_congr_right fun _ =>
      exists_congr fun r => and_congr Work.notified?_eq_some (and_congr_right fun _ => ?_)
    rw [Option.isSome_iff_exists]
    constructor
    · rintro ⟨k, hk⟩
      obtain ⟨a, ha, hk⟩ := Option.bind_eq_some_iff.mp hk
      exact ⟨a, k, ha, hk⟩
    · rintro ⟨a, k, ha, hk⟩
      exact ⟨k, Option.bind_eq_some_iff.mpr ⟨a, ha, hk⟩⟩

/-- Whoever hands an alert over came across it and did not know it. -/
theorem Premises.Run.comesAcross_of_handsOver (hr : p.Run h o) {s : Doing} (hs : s ∈ h)
    (hps : IsPass s) {id : String} (hid : HandsOver h s id) :
    ComesAcross h s id ∧ id ∉ s.state.store.ids := by
  obtain ⟨n, hn, haudience, r, hbody, rfl, -⟩ := hid
  obtain ⟨e, he⟩ := History.exists_suffix_of_mem hn
  obtain ⟨d, hd, haudience', -, known, ys, id, hdbody, hwake, rfl, hfound, hknown⟩ :=
    hr.origin_notify he hbody
  have he' : e <:+ h := (List.suffix_cons n e).trans he
  obtain ⟨k, hk⟩ := History.exists_suffix_of_mem hd
  obtain ⟨q, hq, hpq, hqt, rfl, hresults⟩ :=
    hr.begin_of_evaluating (hk.trans he') hdbody hwake
  have hk' : k <:+ h := (List.suffix_cons d k).trans (hk.trans he')
  have htask : q.task = s.task := by
    rw [haudience] at haudience'
    exact hqt.trans (Audience.task.inj haudience').symm
  obtain rfl := hr.pass_unique (hk'.subset hq) hs hpq hps htask
  refine ⟨?_, hknown⟩
  obtain ⟨y, hy, hid⟩ := List.mem_flatMap.mp hfound
  obtain ⟨c, hc, hended⟩ := History.exists_child_of_result hresults hy
  obtain ⟨f, hf, hft, hfa, hends⟩ := hended.of_ok
  refine ⟨f, hk'.subset hf, hfa, hr.evaluate_of_child hs hps hc (hk'.subset hf) hft hfa, ?_⟩
  cases y with
  | names ids => exact ⟨ids, hends, hid⟩
  | answer r => exact absurd hid List.not_mem_nil

/-! ## Where an alert comes from -/

/-- Every alert was registered by a pass. The induction is on the run. -/
theorem Premises.Run.registered (hr : p.Run h o) {id : String} (hid : id ∈ o.state.store.ids) :
    ∃ s ∈ h, IsPass s ∧ Registers h s id := by
  have hwiden : ∀ {h k : Past}, (∀ s ∈ h, s ∈ k) → (∃ s ∈ h, IsPass s ∧ Registers h s id) →
      ∃ s ∈ k, IsPass s ∧ Registers k s id := by
    rintro h k hk ⟨s, hs, hps, f, hf, hreg⟩
    exact ⟨s, hk s hs, hps, f, hk f hf, hreg⟩
  induction hr with
  | idle => exact absurd hid List.not_mem_nil
  | @step h a b place hr hb ih =>
      have hstate := state_of_stepAt (Premises.Run.keeps hr).numbered hb
      have hrun : p.Run ((a.stintAt? place).toList ++ h) b := .step hr hb
      cases hs : a.stintAt? place with
      | none =>
          rw [hs] at hstate
          rw [hstate] at hid
          exact ih hid
      | some d =>
          rw [hs] at hstate hrun
          obtain ⟨-, -, q, -, hof⟩ := stintAt?_eq_some hs
          rw [hstate] at hid
          by_cases hold : id ∈ d.state.store.ids
          · rw [hof.state] at hold
            exact hwiden (fun s hs => List.mem_cons_of_mem d hs) (ih hold)
          · have hkeyed := (hrun.keyed (List.mem_cons_self ..)).1
            by_cases hbody : ∃ b x, d.body = .evaluate b x
            · obtain ⟨b, x, hbody⟩ := hbody
              obtain ⟨s, hs, hpass, haudience, -⟩ :=
                hrun.origin_evaluate (List.suffix_refl _) hbody
              exact ⟨s, List.mem_cons_of_mem d hs, ⟨x, hpass⟩, d, List.mem_cons_self, haudience,
                ⟨b, x, hbody⟩, hold, hid⟩
            · refine absurd ?_ hold
              exact (ControlRoom.worked_program d.now d.state (fun b x he => hbody ⟨b, x, he⟩)
                d.wake).ids hkeyed id hid
  | @pass h a time _ _ _ ih =>
      have hstate : (a.passTo time).state = a.state := state_passTo a time
      rw [hstate] at hid
      exact ih hid
  | @serve h a b hr hb ih =>
      obtain ⟨r, rfl⟩ := hb
      have hkeyed : a.state.store.Keyed :=
        (Premises.Run.later hr).1.grows.keyed fun _ he => absurd he List.not_mem_nil
      exact ih ((kept_serve (Premises.Run.keeps hr).numbered r).ids hkeyed id hid)

/-- A pass that registers an alert comes across it and did not know it. -/
theorem Premises.Run.comesAcross_of_registers (hr : p.Run h o) {s : Doing} (hs : s ∈ h)
    (hps : IsPass s) {id : String} (hid : Registers h s id) :
    ComesAcross h s id ∧ id ∉ s.state.store.ids := by
  obtain ⟨f, hf, haudience, ⟨b, x, hbody⟩, hold, hnew⟩ := hid
  refine ⟨⟨f, hf, haudience, ⟨b, x, hbody⟩, ?_⟩, fun hknown => hold ?_⟩
  · rcases hr.ends_evaluate hf hbody with ⟨hturn, hends⟩ | ⟨-, hturn, -⟩
    · refine ⟨_, hends, ?_⟩
      rw [hturn] at hnew
      exact ((b.evaluated_run x f.state.registry).new (hr.keyed hf).1 id hnew).resolve_left hold
    · rw [hturn] at hnew
      exact absurd hnew hold
  · obtain ⟨e, he⟩ := History.exists_suffix_of_mem hf
    obtain ⟨q, hq, hqbody, hqa, -⟩ := hr.origin_evaluate he hbody
    have hqm : q ∈ h := ((List.suffix_cons f e).trans he).subset hq
    obtain rfl := hr.pass_unique hqm hs ⟨x, hqbody⟩ hps
      (Audience.task.inj (hqa.symm.trans haudience))
    have hlater := (later_turn q).trans (hr.later_of_suffix he hq)
    exact hlater.grows.ids (hr.keyed hqm).1 id hknown

/-! ## Handing over -/

/-- All passes that were begun have ended, or nothing is left to be done at once. -/
def PassesSettled (h : Past) (o : Office) : Prop :=
  ∀ s ∈ h, IsPass s → Settled o s.task

/-- No pass has failed. -/
def NoPassFails (h : Past) : Prop :=
  ∀ s ∈ h, s.body.IsOfPass → ¬ Fails s

/-- If the pass of a task goes on from its evaluations, it has their results. -/
def EvaluationsSucceed (h : Past) (t : TaskId) : Prop :=
  ∀ d ∈ h, d.task = t → ∀ known, d.body = .evaluating .caller known → ∃ ys, d.wake = .gathered ys ∧
    (d.turn ControlRoom.program).next
      = d.state.announcement (ControlRoom.unknown known (ys.flatMap (·.ids)))

theorem evaluationsSucceed_of_ok (hok : NoPassFails h) (t : TaskId) : EvaluationsSucceed h t :=
  fun d hd _ _ hbody => turn_evaluating hbody (hok d hd (by rw [hbody]; trivial))

/-- The notifications that the pass of a task starts have begun. -/
def NotificationsBegun (h : Past) (t : TaskId) : Prop :=
  ∀ d ∈ h, d.task = t → ∀ c r, d.Starts ControlRoom.program c (.notify r) →
    ∃ n ∈ h, Begins d c (.notify r) n

/-- When nothing is ready, all notifications have begun. -/
theorem Premises.Run.notificationsBegun (hr : p.Run h o) (hready : o.ready = []) (t : TaskId) :
    NotificationsBegun h t :=
  fun _ hd _ _ _ hstarts => hr.begun_of_ready_nil (C := fun w => ¬ w.IsSubordinate)
    (sound_idle _ _) outside_of_serve (fun hr _ _ => Premises.Run.unmarked hr) hready hd hstarts
    fun hno => hno

/-- So they have when their pass has ended well. -/
theorem notificationsBegun_of_ok (hr : p.Run h o) (hok : NoPassFails h) {t : TaskId}
    (hsettled : Settled o t) : NotificationsBegun h t := by
  rcases hsettled with hgone | hready
  · rintro d hd rfl c r hstarts
    obtain ⟨i, hi, -⟩ := id hstarts
    have hchild := List.mem_of_getElem? hi
    obtain ⟨known, hbody⟩ := (hr.shaped hd).next.of_notify hchild
    obtain ⟨ys, -, hnext⟩ := evaluationsSucceed_of_ok hok d.task d hd rfl known hbody
    obtain ⟨cs, found, hgather⟩ : ∃ cs found,
        (d.turn ControlRoom.program).next = .gather cs (.notifying .caller found) := by
      rw [hnext] at hchild ⊢
      unfold ControlRoom.announcement at hchild ⊢
      split at hchild
      · exact absurd hchild List.not_mem_nil
      · exact ⟨_, _, rfl⟩
    -- the pass has had the result of the notification
    obtain ⟨g, k, hg, htask, -, -, hleads⟩ := hr.keeps.next_of_gone hd hgone
      fun ⟨out, hends⟩ => nomatch hgather.symm.trans hends
    have hgm : g ∈ h := hg.subset List.mem_cons_self
    obtain ⟨hgbody, hwake⟩ := hleads.of_gather hgather
    obtain ⟨zs, hzs, -⟩ := turn_notifying hgbody (hok g hgm (by rw [hgbody]; trivial))
    rcases hwake with ⟨rs, hrs, hresults⟩ | ⟨st, hst⟩
    · obtain ⟨y, -, he⟩ :=
        History.exists_result_of_child hresults (History.mem_childIds.mpr ⟨_, hstarts⟩)
      obtain ⟨f, hf, hft, hfa, -⟩ := he.of_ok
      have hfm : f ∈ h := ((List.suffix_cons g k).trans hg).subset hf
      exact hr.first_of_child (sound_idle _ _) outside_of_serve hd hstarts hfm hft hfa
    · exact nomatch hzs.symm.trans hst
  · exact hr.notificationsBegun hready t

/-- A pass that announces alerts begins a notification for each of them, in a room that is a
later one than what it left. -/
theorem Premises.Run.begins_notify (hr : p.Run h o) {d : Doing} (hd : d ∈ h)
    (hbegun : NotificationsBegun h d.task) {new : List String}
    (hnext : (d.turn ControlRoom.program).next = d.state.announcement new) {id : String}
    (hid : id ∈ new) : ∃ n ∈ h, n.audience = .task d.task ∧
      n.body = .notify (d.state.store.ref id) ∧
      (d.turn ControlRoom.program).state.Later n.state := by
  obtain ⟨c, hstarts⟩ : ∃ c, d.Starts ControlRoom.program c (.notify (d.state.store.ref id)) := by
    obtain ⟨i, hi, hget⟩ := List.mem_iff_getElem.mp hid
    refine ⟨_, i, ?_, rfl⟩
    rw [hnext]
    cases new with
    | nil => exact absurd hid List.not_mem_nil
    | cons y ys =>
        show ((y :: ys).map fun id => Work.notify (d.state.store.ref id))[i]? = _
        rw [List.getElem?_map, List.getElem?_eq_getElem hi, hget]
        rfl
  obtain ⟨n, hn, hbegins⟩ := hbegun d hd rfl c _ hstarts
  refine ⟨n, hn, hbegins.audience, hbegins.body, ?_⟩
  -- only `d` starts this task
  obtain ⟨l, hl⟩ := History.exists_suffix_of_mem hn
  obtain ⟨q, hq, -, -, hqstarts⟩ := hr.keeps.coherent.origin hl hbegins.first hbegins.audience
  have hqm : q ∈ h := hl.subset (List.mem_cons_of_mem _ hq)
  rw [hbegins.task] at hqstarts
  obtain ⟨rfl, -⟩ := (Agenda.Run.starts_unique (sound_idle _ _) outside_of_serve hr).2 q hqm d hd
    _ _ _ hqstarts hstarts
  exact hr.later_of_suffix hl hq

/-- An evaluation of a pass is over when the pass goes on, and its result is among those that the
pass goes on with. -/
theorem Premises.Run.found_of_ends (hr : p.Run h o) {s : Doing} (hs : s ∈ h) (hps : IsPass s)
    {d : Doing} {k : Past} (hd : d :: k <:+ h) (htask : d.task = s.task) {known : List String}
    (hbody : d.body = .evaluating .caller known) {ys : List Yield} (hwake : d.wake = .gathered ys)
    {f : Doing} (hf : f ∈ h) (haudience : f.audience = .task s.task) {b : Assignment} {x : Snapshot}
    (hfbody : f.body = .evaluate b x) {ids : List String}
    (hends : f.Ends ControlRoom.program (.ok (.names ids))) :
    f ∈ k ∧ ∀ id ∈ ids, id ∈ ys.flatMap (·.ids) := by
  -- the evaluation is one of those that the pass began
  obtain ⟨e, he⟩ := History.exists_suffix_of_mem hf
  obtain ⟨q, hq, hqbody, hqa, hstarts, -⟩ := hr.origin_evaluate he hfbody
  have hqm : q ∈ h := ((List.suffix_cons f e).trans he).subset hq
  obtain rfl := hr.pass_unique hqm hs ⟨x, hqbody⟩ hps
    (Audience.task.inj (hqa.symm.trans haudience))
  have hk : k <:+ h := (List.suffix_cons d k).trans hd
  obtain ⟨q', hq', hpq', hqt, -, hresults⟩ := hr.begin_of_evaluating hd hbody hwake
  obtain rfl := hr.pass_unique (hk.subset hq') hs hpq' hps (hqt.trans htask)
  obtain ⟨y, hy, hended⟩ :=
    History.exists_result_of_child hresults (History.mem_childIds.mpr ⟨_, hstarts⟩)
  obtain ⟨g, hg, hgt, -, hgends⟩ := hended.of_ok
  obtain rfl := hr.keeps.coherent.ends_unique hf (hk.subset hg) hends hgends hgt.symm
  obtain rfl : y = .names ids := Except.ok.inj (Next.finish.inj (hgends.symm.trans hends))
  exact ⟨hg, fun id hid => List.mem_flatMap.mpr ⟨_, hy, hid⟩⟩

/-- A pass that comes across an alert and does not know it hands it over. -/
theorem Premises.Run.handsOver_of_comesAcross (hr : p.Run h o) {s : Doing}
    (hgood : EvaluationsSucceed h s.task) (hs : s ∈ h) (hps : IsPass s) (hsettled : Settled o s.task)
    (hbegun : NotificationsBegun h s.task) {id : String} (hid : ComesAcross h s id)
    (hnew : id ∉ s.state.store.ids) : HandsOver h s id := by
  obtain ⟨f, hf, haudience, ⟨b, x, hfbody⟩, ids, hends, hmem⟩ := hid
  -- the evaluation is one of those that the pass began
  obtain ⟨e, he⟩ := History.exists_suffix_of_mem hf
  obtain ⟨q, hq, hqbody, hqa, hstarts, -⟩ := hr.origin_evaluate he hfbody
  have hqm : q ∈ h := ((List.suffix_cons f e).trans he).subset hq
  obtain rfl := hr.pass_unique hqm hs ⟨x, hqbody⟩ hps
    (Audience.task.inj (hqa.symm.trans haudience))
  obtain ⟨d, k, hd, htask, -, hbody, -⟩ :=
    hr.exists_evaluating hs hps (History.mem_childIds.mpr ⟨_, hstarts⟩) hsettled
  have hdm : d ∈ h := hd.subset List.mem_cons_self
  obtain ⟨ys, hys, hnext⟩ := hgood d hdm htask _ hbody
  obtain ⟨hg, hall⟩ := hr.found_of_ends hs hps hd htask hbody hys hf haudience hfbody hends
  have hfound := hall id hmem
  obtain ⟨n, hn, hna, hnbody, hlater⟩ := hr.begins_notify hdm (htask ▸ hbegun) hnext
    (ControlRoom.mem_unknown.mpr ⟨hfound, hnew⟩)
  refine ⟨n, hn, htask ▸ hna, _, hnbody, rfl, ?_⟩
  -- the alert was in the store when the evaluation ended, and stays there
  have hheld : id ∈ (f.turn ControlRoom.program).state.store.ids := by
    rcases hr.ends_evaluate hf hfbody with ⟨hturn, hends'⟩ | ⟨-, -, hends'⟩
    · obtain rfl := Yield.names.inj (Except.ok.inj (Next.finish.inj (hends'.symm.trans hends)))
      rw [hturn]
      exact (b.evaluated_run x f.state.registry).holds (hr.keyed hf).1 id hmem
    · exact nomatch Next.finish.inj (hends'.symm.trans hends)
  have hkeyed : (f.turn ControlRoom.program).state.store.Keyed :=
    (later_turn f).grows.keyed (hr.keyed hf).1
  have hfd := hr.later_of_suffix hd hg
  have hthere := (hfd.grows.keyed hkeyed).mem_ids_iff.mp (hfd.grows.ids hkeyed id hheld)
  obtain ⟨a, ha⟩ := Option.isSome_iff_exists.mp hthere
  rw [← Store.find?_ref] at ha
  obtain ⟨a', ha', -⟩ := ((later_turn d).trans hlater).grows.kept _ a ha
  obtain ⟨k, hk⟩ := Option.isSome_iff_exists.mp (hr.housed.2 n hn _ a' ha')
  exact ⟨a', k, ha', hk⟩

/-- **Which passes hand an alert over.** The pass that registers it does. It is the only one if
and only if no other pass comes across the alert that began before the alert was there. -/
theorem Premises.Run.handed_over (hr : p.Run h o) (hsettled : PassesSettled h o)
    (hok : NoPassFails h) {id : String} (hid : id ∈ o.state.store.ids) :
    ∃ s₀ ∈ h, IsPass s₀ ∧ Registers h s₀ id ∧ HandsOver h s₀ id ∧
      ((∃! s, s ∈ h ∧ IsPass s ∧ HandsOver h s id) ↔
        ∀ s ∈ h, IsPass s → s ≠ s₀ → id ∉ s.state.store.ids → ¬ ComesAcross h s id) := by
  obtain ⟨s₀, hs₀, hps₀, hreg⟩ := hr.registered hid
  obtain ⟨hacross, hnew⟩ := hr.comesAcross_of_registers hs₀ hps₀ hreg
  have hhands : ∀ s ∈ h, IsPass s → id ∉ s.state.store.ids → ComesAcross h s id →
      HandsOver h s id := fun s hs hps hnew hacross =>
    hr.handsOver_of_comesAcross (evaluationsSucceed_of_ok hok _) hs hps (hsettled s hs hps)
      (notificationsBegun_of_ok hr hok (hsettled s hs hps)) hacross hnew
  have hover := hhands s₀ hs₀ hps₀ hnew hacross
  refine ⟨s₀, hs₀, hps₀, hreg, hover, fun ⟨u, _, hunique⟩ s hs hps hne hnew' hacross' => ?_,
    fun hno => ⟨s₀, ⟨hs₀, hps₀, hover⟩, fun s ⟨hs, hps, hsover⟩ => ?_⟩⟩
  · have hsover := hhands s hs hps hnew' hacross'
    exact hne ((hunique s ⟨hs, hps, hsover⟩).trans (hunique s₀ ⟨hs₀, hps₀, hover⟩).symm)
  · obtain ⟨hacross', hnew'⟩ := hr.comesAcross_of_handsOver hs hps hsover
    exact not_not.mp fun hne => hno s hs hps hne hnew' hacross'

/-! ## Two passes at a time -/

/-- A configuration comes in, passes are begun, and all goes on in order. -/
def Sample.passes (n : Nat) : Past × Office :=
  (Sample.premises fun _ => .ok ⟨true, .null, none, none⟩).play
    (.ask (.addConfiguration (Sample.configuration "ward" .standard none)) ::
      List.replicate n (.ask (.pass Sample.snapshot)) ++ List.replicate 32 (.turn 0))

theorem Sample.run_passes (n : Nat) : (Sample.premises fun _ => .ok ⟨true, .null, none, none⟩).Run
    (passes n).1 (passes n).2 :=
  Premises.run_play _ _

set_option maxRecDepth 100000 in
/-- A pass hands over what it registers. -/
theorem handed_over_ward : PassesSettled (Sample.passes 1).1 (Sample.passes 1).2 ∧
    NoPassFails (Sample.passes 1).1 ∧
    "alert_0000000000000001" ∈ (Sample.passes 1).2.state.store.ids ∧
    ∃ s₀ ∈ (Sample.passes 1).1, IsPass s₀ ∧
      Registers (Sample.passes 1).1 s₀ "alert_0000000000000001" ∧
      HandsOver (Sample.passes 1).1 s₀ "alert_0000000000000001" ∧
      ((∃! s, s ∈ (Sample.passes 1).1 ∧ IsPass s ∧
          HandsOver (Sample.passes 1).1 s "alert_0000000000000001") ↔
        ∀ s ∈ (Sample.passes 1).1, IsPass s → s ≠ s₀ →
          "alert_0000000000000001" ∉ s.state.store.ids →
            ¬ ComesAcross (Sample.passes 1).1 s "alert_0000000000000001") := by
  have hsettled : PassesSettled (Sample.passes 1).1 (Sample.passes 1).2 := by
    unfold PassesSettled Settled
    decide +kernel
  have hok : NoPassFails (Sample.passes 1).1 := by
    unfold NoPassFails
    decide +kernel
  have hid : "alert_0000000000000001" ∈ (Sample.passes 1).2.state.store.ids := by decide +kernel
  exact ⟨hsettled, hok, hid, (Sample.run_passes 1).handed_over hsettled hok hid⟩

set_option maxRecDepth 100000 in
/-- Two passes that begin at the same time both hand over what one of them registers. -/
theorem handed_over_twice : ∃ (p : Premises) (h : Past) (o : Office), p.Run h o ∧
    PassesSettled h o ∧ NoPassFails h ∧ ∃ id ∈ o.state.store.ids,
      ¬ ∃! s, s ∈ h ∧ IsPass s ∧ HandsOver h s id := by
  have hsettled : PassesSettled (Sample.passes 2).1 (Sample.passes 2).2 := by
    unfold PassesSettled Settled
    decide +kernel
  have hok : NoPassFails (Sample.passes 2).1 := by
    unfold NoPassFails
    decide +kernel
  have hid : "alert_0000000000000001" ∈ (Sample.passes 2).2.state.store.ids := by decide +kernel
  have htwo : ∃ s ∈ (Sample.passes 2).1, ∃ t ∈ (Sample.passes 2).1, s.task ≠ t.task ∧
      (IsPass s ∧ HandsOver (Sample.passes 2).1 s "alert_0000000000000001") ∧
      IsPass t ∧ HandsOver (Sample.passes 2).1 t "alert_0000000000000001" := by decide +kernel
  refine ⟨_, _, _, Sample.run_passes 2, hsettled, hok, _, hid, fun ⟨u, _, hunique⟩ => ?_⟩
  obtain ⟨s, hs, t, ht, hne, hover, hover'⟩ := htwo
  exact hne (congrArg _ ((hunique s ⟨hs, hover⟩).trans (hunique t ⟨ht, hover'⟩).symm))

end Office

end BuildingAlerts
