/-
What one failing notification does to the others.

A pass waits for all of its notifications and returns the alerts that it created, unless one of
them fails: then all that the pass has is that failure. Only failures of the alerting side are
kept from the pass, and an unknown zone or a malformed time of day is none of them. The other
notifications do not notice. A notification whose routing fails leaves the room and all other
tasks as they were, so each of them does next what it would have done anyway.
-/
import BuildingAlerts.Proofs.Agenda.Alone
import BuildingAlerts.Proofs.ControlRoom.Handover

set_option autoImplicit false

namespace BuildingAlerts

open Agenda

namespace ControlRoom

/-- A pass that is stopped fails. -/
theorem fails_of_stopped (now : Instant) (c : ControlRoom) {w : Work} (hw : w.IsOfPass)
    (s : Stop) : ∃ st, (program now c w (.stopped s)).next = .finish (.error st) := by
  unfold program
  split
  · rcases Work.isOfPass_iff.mp hw with ⟨x, rfl⟩ | ⟨known, rfl⟩ | ⟨found, rfl⟩
    · exact ⟨s, rfl⟩
    · exact ⟨s, rfl⟩
    · exact ⟨s, rfl⟩
  · rcases Work.isOfPass_iff.mp hw with ⟨x, rfl⟩ | ⟨known, rfl⟩ | ⟨found, rfl⟩
    · exact ⟨.failed .outOfBounds, rfl⟩
    · exact ⟨.failed .outOfBounds, rfl⟩
    · exact ⟨.failed .outOfBounds, rfl⟩

/-- The notification of an alert comes to a failure before anything is delivered. -/
def FailsToRoute (c : ControlRoom) (now : Instant) (r : AlertRef) : Prop :=
  ∃ m a k f, c.clock? now = some m ∧ c.store.find? r = some a ∧
    c.configurations.get? a.configurationId = some k ∧ (c.requests m k.routing r a).1 = .error f

/-- **A notification whose routing fails** ends at once, and leaves the room as it was. -/
theorem program_of_failsToRoute {c : ControlRoom} (hc : c.OnOneClock) {now : Instant}
    {r : AlertRef} (hfails : c.FailsToRoute now r) :
    ∃ o, program now c (.notify r) .start = ⟨c, [], .finish o⟩ := by
  obtain ⟨m, a, k, f, hclock, ha, hk, herror⟩ := hfails
  have hsame := requests_of_error (offset_of_clock? hclock) hc herror
  unfold program
  rw [hclock]
  show ∃ o, c.beginAnnouncement m r = _
  unfold beginAnnouncement
  rw [ha, Option.bind_some, hk]
  dsimp only
  unfold beginNotification
  rw [ha]
  dsimp only
  generalize c.requests m k.routing r a = x at herror hsame
  obtain ⟨result, d⟩ := x
  dsimp only at herror hsame
  subst herror hsame
  dsimp only
  unfold stopNotification
  dsimp only
  split
  · exact ⟨_, rfl⟩
  · exact ⟨_, rfl⟩

end ControlRoom

namespace Office

variable {p : Premises} {h : Past} {o : Office}

/-! ## How a pass ends -/

/-- All that was done was done before the calendar ends. -/
def CalendarLasts (h : Past) : Prop :=
  ∀ d ∈ h, d.state.clock? d.now ≠ none

/-- No task that a stint's task started has failed. -/
def NoChildFails (h : Past) (s : Doing) : Prop :=
  ∀ n ∈ h, n.audience = .task s.task → ¬ Fails n

/-- The pass that begins with `s` has returned, with all the alerts that it created. -/
def Returns (h : Past) (s : Doing) : Prop :=
  ∃ d ∈ h, d.task = s.task ∧ ∃ found, d.Ends ControlRoom.program (.ok (.names found)) ∧
    ∀ id, Registers h s id → id ∈ found

/-- A pass that waits for others is stopped only if one of them has failed. -/
theorem Premises.Run.fails_of_stopped (hr : p.Run h o) {d q : Doing} {e : Past} (hd : d :: e <:+ h)
    (hlatest : e.latest d.task = some q) (hof : q.body.IsOfPass) {cs : List Work} {b : Work}
    (hgather : (q.turn ControlRoom.program).next = .gather cs b) {st : Stop}
    (hwake : d.wake = .stopped st) :
    ∃ f ∈ h, f.task ∈ q.childIds ControlRoom.program ∧ f.audience = .task q.task ∧ Fails f := by
  have hq : q ∈ h := ((List.suffix_cons d e).trans hd).subset (History.latest_eq_some hlatest).1
  obtain ⟨cs', b', heq, hb, hchildren⟩ :=
    ((hr.shaped hq).next.of_isOfPass hof).resolve_left fun ⟨out, hn⟩ =>
      nomatch hgather.symm.trans hn
  have hfollows := hr.keeps.coherent d e hd
  unfold History.Follows at hfollows
  rw [hlatest] at hfollows
  obtain ⟨hbody, -⟩ := hfollows.2.2.of_gather hgather
  have hnot : ¬ d.body.IsSubordinate := by
    obtain ⟨-, rfl⟩ := Next.gather.inj (hgather.symm.trans heq)
    rw [hbody]
    rcases Work.isOfPass_iff.mp hb with ⟨s, rfl⟩ | ⟨known, rfl⟩ | ⟨found, rfl⟩
    · exact id
    · exact id
    · exact id
  obtain ⟨c, hc, ⟨f, hf, hft, haudience, hends⟩ | ⟨s, hs, hst, body, hstarts, hsub⟩⟩ :=
    Agenda.Run.stopped_by (fun hr => Premises.Run.calm hr)
      (fun hr => Premises.Run.attentive hr) hr hd hlatest ⟨cs, b, hgather⟩ hnot hwake
  · exact ⟨f, hf, hft ▸ hc, haudience, st, hends⟩
  · -- a pass starts nothing that may be told to stop
    obtain ⟨body', hstarts'⟩ := History.mem_childIds.mp hc
    obtain ⟨-, hsame⟩ := (Agenda.Run.starts_unique (sound_idle _ _) outside_of_serve hr).2
      s hs q hq _ _ _ hstarts hstarts'
    obtain ⟨i, hi, -⟩ := hstarts'
    rw [heq] at hi
    exact absurd (hsame ▸ hsub) (hchildren body' (List.mem_of_getElem? hi))

/-- A pass that waited for others has all their results if none of them has failed. -/
theorem Premises.Run.goes_on (hr : p.Run h o) {q : Doing} (hq : q ∈ h) (hof : q.body.IsOfPass)
    {cs : List Work} {b : Work} (hgather : (q.turn ControlRoom.program).next = .gather cs b)
    (hover : o.process? q.task = none) (hfine : NoChildFails h q) :
    ∃ d e ys, d :: e <:+ h ∧ d.task = q.task ∧ d.body = b ∧ d.wake = .gathered ys := by
  rcases History.latest_or_next hq with hlatest | ⟨d, e, hd, htask, hlatest⟩
  · obtain ⟨out, hends⟩ := (hr.keeps.living q.task nofun q hlatest).mp hover
    exact nomatch hgather.symm.trans hends
  · obtain ⟨-, -, hleads⟩ := hr.keeps.coherent.next hd htask hlatest
    obtain ⟨hbody, ⟨ys, hwake, -⟩ | ⟨st, hwake⟩⟩ := hleads.of_gather hgather
    · exact ⟨d, e, ys, hd, htask, hbody, hwake⟩
    · -- somebody else's failure would have stopped it
      obtain ⟨f, hf, -, haudience, hfails⟩ :=
        hr.fails_of_stopped hd (htask ▸ hlatest) hof hgather hwake
      exact absurd hfails (hfine f hf haudience)

/-- The evaluations of a pass do not fail, so it has all their results when it goes on. -/
theorem Premises.Run.evaluations_succeed (hr : p.Run h o) (hcalendar : CalendarLasts h) {s : Doing}
    (hs : s ∈ h) (hps : IsPass s) : EvaluationsSucceed h s.task := by
  intro d hd htask known hbody
  refine turn_evaluating hbody fun ⟨st, hfails⟩ => ?_
  obtain ⟨e, he⟩ := History.exists_suffix_of_mem hd
  have hfollows := hr.keeps.coherent d e he
  unfold History.Follows at hfollows
  split at hfollows
  · -- a pass does not begin with its evaluations
    obtain ⟨x, hx⟩ := id hps
    obtain rfl := hr.keeps.coherent.first_unique hd hs hfollows.1
      (hr.first hs (by rw [hx]; trivial)).1 htask
    exact nomatch hbody.symm.trans hx
  · rename_i q hlatest
    obtain ⟨-, -, hleads⟩ := hfollows
    have hq : q ∈ h := ((List.suffix_cons d e).trans he).subset (History.latest_eq_some hlatest).1
    obtain ⟨x, hqbody⟩ := (hr.shaped hq).next.of_evaluating (hbody ▸ hleads.body)
    have hof : q.body.IsOfPass := by
      rw [hqbody]
      trivial
    obtain ⟨cs, b, hgather, -⟩ := ((hr.shaped hq).next.of_isOfPass hof).resolve_left (by
      rintro ⟨out, hn⟩
      exact nomatch hleads.body.symm.trans (congrArg Next.body? hn))
    rcases ControlRoom.next_evaluating d.now d.state known d.wake with
      ⟨hno | hno, -⟩ | ⟨ys, -, hnext⟩
    · exact hcalendar d hd hno
    · obtain ⟨-, ⟨ys, hwake, -⟩ | ⟨st', hwake⟩⟩ := hleads.of_gather hgather
      · exact hno ys hwake
      · obtain ⟨f, hf, hchild, haudience, st'', hffails⟩ :=
          hr.fails_of_stopped he hlatest hof hgather hwake
        obtain ⟨b', x', hfbody⟩ := hr.evaluate_of_child hq ⟨x, hqbody⟩ hchild hf rfl haudience
        rcases hr.ends_evaluate hf hfbody with ⟨-, hends⟩ | ⟨hnone, -⟩
        · exact nomatch Next.finish.inj (hends.symm.trans hffails)
        · exact hcalendar f hf hnone
    · unfold Stint.Ends Stint.turn at hfails
      rw [hbody, hnext] at hfails
      unfold ControlRoom.announcement at hfails
      split at hfails
      · exact nomatch Next.finish.inj hfails
      · exact nomatch hfails

/-- A pass that returns has seen no failure of a task that it started. -/
theorem Premises.Run.fine_of_returns (hr : p.Run h o) {s : Doing} (hs : s ∈ h) (hps : IsPass s)
    (hover : o.process? s.task = none) {d : Doing} (hd : d ∈ h) (htask : d.task = s.task)
    {y : Yield} (hends : d.Ends ControlRoom.program (.ok y)) : NoChildFails h s := by
  rintro n hn haudience ⟨st, hfails⟩
  -- the task that failed was started by one of the stints of the pass
  obtain ⟨e, he, het, hfirst, hea⟩ := hr.keeps.coherent.exists_first hn
  obtain ⟨k, hk⟩ := History.exists_suffix_of_mem he
  obtain ⟨q, hq, hqt, -, hstarts⟩ := hr.keeps.coherent.origin hk hfirst (hea.trans haudience)
  have hqm : q ∈ h := hk.subset (List.mem_cons_of_mem _ hq)
  have hof : q.body.IsOfPass := by
    have hkeeps : ∀ x ∈ h, ∀ b, (x.turn ControlRoom.program).next.body? = some b →
        x.body.IsOfPass → b.IsOfPass := by
      intro x hx b hb hxof
      rcases (hr.shaped hx).next.of_isOfPass hxof with ⟨out, hnext⟩ | ⟨cs, b', hnext, hb', -⟩
      · rw [hnext] at hb
        exact nomatch hb
      · rw [hnext] at hb
        exact Option.some.inj hb ▸ hb'
    obtain ⟨x, hx⟩ := hps
    refine hr.keeps.coherent.kind hkeeps hs hqm (hr.first hs (by rw [hx]; trivial)).1 hqt ?_
    rw [hx]
    trivial
  obtain ⟨i, hi, -⟩ := id hstarts
  obtain ⟨cs, b, hgather, hb, -⟩ := ((hr.shaped hqm).next.of_isOfPass hof).resolve_left (by
    rintro ⟨out, hnext⟩
    rw [hnext] at hi
    cases hi)
  -- it went on with all results, or it was stopped and failed
  rcases History.latest_or_next hqm with hlatest | ⟨g, k', hg, hgt, hlatest⟩
  · obtain ⟨out, hends'⟩ := (hr.keeps.living q.task nofun q hlatest).mp (hqt ▸ hover)
    exact nomatch hgather.symm.trans hends'
  · have hgm : g ∈ h := hg.subset List.mem_cons_self
    obtain ⟨-, -, hleads⟩ := hr.keeps.coherent.next hg hgt hlatest
    obtain ⟨hgbody, ⟨ys, -, hresults⟩ | ⟨st', hwake⟩⟩ := hleads.of_gather hgather
    · obtain ⟨r, -, hended⟩ :=
        History.exists_result_of_child hresults (History.mem_childIds.mpr ⟨_, hstarts⟩)
      obtain ⟨f, hf, hft, -, hfends⟩ := hended.of_ok
      obtain rfl := hr.keeps.coherent.ends_unique hn
        (hg.subset (List.mem_cons_of_mem _ hf)) hfails hfends (het.symm.trans hft.symm)
      exact nomatch Next.finish.inj (hfails.symm.trans hfends)
    · obtain ⟨st'', hgends⟩ : ∃ st, g.Ends ControlRoom.program (.error st) := by
        unfold Stint.Ends Stint.turn
        rw [hgbody, hwake]
        exact ControlRoom.fails_of_stopped g.now g.state hb st'
      obtain rfl := hr.keeps.coherent.ends_unique hd hgm hends hgends
        (htask.trans (hqt.symm.trans hgt.symm))
      exact nomatch Next.finish.inj (hends.symm.trans hgends)

/-- A pass none of whose tasks fails returns all the alerts that it created. -/
theorem Premises.Run.returns_of_fine (hr : p.Run h o) (hlimit : p.limit.check = .ok ())
    (hcalendar : CalendarLasts h) {s : Doing} (hs : s ∈ h) (hps : IsPass s)
    (hover : o.process? s.task = none) (hfine : NoChildFails h s) : Returns h s := by
  obtain ⟨x, hx⟩ := id hps
  have hcheck : s.state.limit.check = .ok () := by
    rw [(hr.later.2.1 s hs).1.limit]
    exact hlimit
  have hturn := hr.turn_pass hs hx
  rcases ControlRoom.next_pass s.now s.state x with ⟨hno, -⟩ | ⟨hempty, hn⟩ | ⟨hne, hn⟩
  · rcases hno with hno | ⟨f, hf⟩
    · exact absurd hno (hcalendar s hs)
    · exact nomatch hcheck.symm.trans hf
  · -- nothing is evaluated
    refine ⟨s, hs, rfl, [], (congrArg Turn.next hturn).trans hn, fun id hid => ?_⟩
    obtain ⟨f, hf, haudience, ⟨b, y, hfbody⟩, -⟩ := hid
    obtain ⟨e, he⟩ := History.exists_suffix_of_mem hf
    obtain ⟨q, hq, hqbody, hqa, ⟨i, hi, -⟩, -⟩ := hr.origin_evaluate he hfbody
    have hqm : q ∈ h := ((List.suffix_cons f e).trans he).subset hq
    obtain rfl := hr.pass_unique hqm hs ⟨y, hqbody⟩ hps
      (Audience.task.inj (hqa.symm.trans haudience))
    rw [hturn, hn] at hi
    cases hi
  · have hgather := (congrArg Turn.next hturn).trans hn
    obtain ⟨d, e, ys, hd, htask, hbody, hwake⟩ :=
      hr.goes_on hs (by rw [hx]; trivial) hgather hover hfine
    have hdm : d ∈ h := hd.subset List.mem_cons_self
    have hnew : ∀ id, Registers h s id →
        id ∈ ControlRoom.unknown s.state.store.ids (ys.flatMap (·.ids)) := by
      intro id hid
      obtain ⟨⟨f, hf, haudience, ⟨b, y, hfbody⟩, ids, hends, hmem⟩, hold⟩ :=
        hr.comesAcross_of_registers hs hps hid
      exact ControlRoom.mem_unknown.mpr
        ⟨(hr.found_of_ends hs hps hd htask hbody hwake hf haudience hfbody hends).2 id hmem, hold⟩
    have hnext : (d.turn ControlRoom.program).next
        = d.state.announcement (ControlRoom.unknown s.state.store.ids (ys.flatMap (·.ids))) := by
      unfold Stint.turn
      rw [hbody, hwake]
      rcases ControlRoom.next_evaluating d.now d.state s.state.store.ids (.gathered ys) with
        ⟨hno | hno, -⟩ | ⟨zs, hzs, hnext⟩
      · exact absurd hno (hcalendar d hdm)
      · exact absurd rfl (hno ys)
      · obtain rfl := Wake.gathered.inj hzs
        exact hnext
    generalize ControlRoom.unknown s.state.store.ids (ys.flatMap (·.ids)) = new at hnew hnext
    cases new with
    | nil => exact ⟨d, hdm, htask, [], hnext, hnew⟩
    | cons id new =>
        have hfine' : NoChildFails h d := by
          unfold NoChildFails
          rw [htask]
          exact hfine
        obtain ⟨g, k, zs, hg, hgt, hgbody, hgwake⟩ :=
          hr.goes_on hdm (by rw [hbody]; trivial) hnext (htask ▸ hover) hfine'
        have hgm : g ∈ h := hg.subset List.mem_cons_self
        refine ⟨g, hgm, hgt.trans htask, id :: new, ?_, hnew⟩
        unfold Stint.Ends Stint.turn
        rw [hgbody, hgwake]
        rcases ControlRoom.next_notifying g.now g.state (id :: new) (.gathered zs) with
          ⟨hno | hno, -⟩ | ⟨ws, -, hnext⟩
        · exact absurd hno (hcalendar g hgm)
        · exact absurd rfl (hno zs)
        · exact hnext

/-! ## What a failing notification leaves alone -/

/-- A notification whose routing fails, or a pass that fails. -/
def GivesUp (n : Doing) : Prop :=
  (∃ r, n.body = .notify r ∧ n.state.FailsToRoute n.now r) ∨ n.body.IsOfPass ∧ Fails n

/-- Whoever gives up changes nothing and books nothing. -/
theorem Premises.Run.turn_of_givesUp (hr : p.Run h o) {n : Doing} (hn : n ∈ h)
    (hgives : GivesUp n) : ¬ n.body.IsSubordinate ∧
      ∃ out, n.turn ControlRoom.program = ⟨n.state, [], .finish out⟩ := by
  rcases hgives with ⟨r, hbody, hfails⟩ | ⟨hof, st, hends⟩
  · have hclock : n.state.OnOneClock :=
      (hr.later.2.1 n hn).1.clock (Limiter.onOneClock_fresh _)
    obtain ⟨out, hturn⟩ := ControlRoom.program_of_failsToRoute hclock hfails
    have hwake := (hr.first hn (by rw [hbody]; trivial)).2
    refine ⟨by rw [hbody]; exact id, out, ?_⟩
    unfold Stint.turn
    rw [hbody, hwake]
    exact hturn
  · obtain ⟨next, hturn⟩ := ControlRoom.program_of_isOfPass n.now n.state hof n.wake
    obtain rfl : next = .finish (.error st) := (congrArg Turn.next hturn).symm.trans hends
    refine ⟨?_, _, hturn⟩
    rcases Work.isOfPass_iff.mp hof with ⟨x, hw⟩ | ⟨known, hw⟩ | ⟨found, hw⟩
    · rw [hw]; exact id
    · rw [hw]; exact id
    · rw [hw]; exact id

/-- **Whoever gives up concerns nobody but its own task**: the room, all other tasks and what is
ready or booked for them are the same before and after its turn. -/
theorem Premises.Run.alone_of_givesUp (hr : p.Run h o) {place : Nat} {n : Doing}
    (hn : Agenda.stintAt? o place = some n) (hgives : GivesUp n) {o' : Office}
    (hb : o.stepAt ControlRoom.program place = some o') : Alone n.task o o' := by
  obtain ⟨-, -, q, hq, hof⟩ := stintAt?_eq_some hn
  have hrun : p.Run (n :: h) o' := by
    have hstep : p.Run ((Agenda.stintAt? o place).toList ++ h) o' := .step hr hb
    rw [hn] at hstep
    exact hstep
  obtain ⟨hnot, out, hturn⟩ := hrun.turn_of_givesUp List.mem_cons_self hgives
  refine alone_of_stint hr.keeps.numbered hn hturn (fun x hx heq => ?_) hb
  -- only retries and escalations are booked
  exact hnot (hof.body ▸ (hr.calm.booked x hx).2 q (heq ▸ hq))

/-- **What a failing notification does to its pass, and to the others.** A pass that is over has
returned with all alerts that it created, or one of the tasks that it started has failed, and not
both. A notification whose routing fails leaves all other tasks alone, and so does its pass. -/
theorem Premises.Run.isolated (hr : p.Run h o) (hlimit : p.limit.check = .ok ())
    (hcalendar : CalendarLasts h) :
    (∀ s ∈ h, IsPass s → o.process? s.task = none → (Returns h s ↔ NoChildFails h s)) ∧
      ∀ place n o', Agenda.stintAt? o place = some n → GivesUp n →
        o.stepAt ControlRoom.program place = some o' → Alone n.task o o' := by
  refine ⟨fun s hs hps hover => ⟨?_, hr.returns_of_fine hlimit hcalendar hs hps hover⟩,
    fun place n o' hn hgives hb => hr.alone_of_givesUp hn hgives hb⟩
  rintro ⟨d, hd, htask, found, hends, -⟩
  exact hr.fine_of_returns hs hps hover hd htask hends

/-! ## A zone that nobody knows -/

instance (c : ControlRoom) (now : Instant) (r : AlertRef) : Decidable (c.FailsToRoute now r) :=
  match hm : c.clock? now, ha : c.store.find? r with
  | some m, some a =>
    match hk : c.configurations.get? a.configurationId with
    | none => .isFalse <| by
        rintro ⟨m', a', k, f, -, ha', hk', -⟩
        obtain rfl := Option.some.inj (ha.symm.trans ha')
        cases hk.symm.trans hk'
    | some k =>
      match hf : (c.requests m k.routing r a).1 with
      | .error f => .isTrue ⟨m, a, k, f, hm, ha, hk, hf⟩
      | .ok rs => .isFalse <| by
          rintro ⟨m', a', k', f, hm', ha', hk', hf'⟩
          obtain rfl := Option.some.inj (hm.symm.trans hm')
          obtain rfl := Option.some.inj (ha.symm.trans ha')
          obtain rfl := Option.some.inj (hk.symm.trans hk')
          cases hf.symm.trans hf'
  | none, _ => .isFalse <| by
      rintro ⟨m', a', k, f, hm', -⟩
      cases hm.symm.trans hm'
  | some _, none => .isFalse <| by
      rintro ⟨m', a', k, f, -, ha', -⟩
      cases ha.symm.trans ha'

instance (n : Doing) : Decidable (GivesUp n) :=
  decidable_of_iff ((∃ r ∈ n.body.notified?, n.state.FailsToRoute n.now r) ∨
      n.body.IsOfPass ∧ Fails n) <|
    or_congr (exists_congr fun _ => and_congr_left fun _ => Work.notified?_eq_some) .rfl

instance (h : Past) (s : Doing) : Decidable (NoChildFails h s) :=
  inferInstanceAs (Decidable (∀ n ∈ h, _))

namespace Sample

/-- Quiet hours in a zone that nobody knows. -/
def abroad : QuietHours :=
  ⟨true, "22:00", "06:00", "Mars/Base", []⟩

/-- A pass over two configurations, of which one has its quiet hours abroad. -/
def elsewhere (turns : Nat) : Past × Office :=
  (premises fun _ => .ok ⟨true, .null, none, none⟩).play
    (.ask (.addConfiguration (configuration "annex" abroad none)) ::
      .ask (.addConfiguration (configuration "ward" .standard none)) ::
      .ask (.pass snapshot) :: List.replicate turns (.turn 0))

theorem run_elsewhere (turns : Nat) : (premises fun _ => .ok ⟨true, .null, none, none⟩).Run
    (elsewhere turns).1 (elsewhere turns).2 :=
  Premises.run_play _ _

end Sample

set_option maxRecDepth 100000 in
/-- The alert of the annex is not announced, which stops the pass but not the other alert. -/
theorem isolated_annex :
    (∃ s ∈ (Sample.elsewhere 13).1, IsPass s ∧ (Sample.elsewhere 13).2.process? s.task = none ∧
      (Returns (Sample.elsewhere 13).1 s ↔ NoChildFails (Sample.elsewhere 13).1 s)) ∧
      ∃ n o', Agenda.stintAt? (Sample.elsewhere 6).2 0 = some n ∧ GivesUp n ∧
        (Sample.elsewhere 6).2.stepAt ControlRoom.program 0 = some o' ∧
        Alone n.task (Sample.elsewhere 6).2 o' := by
  have hlimit : Concurrency.check none = .ok () := rfl
  have hlasts : ∀ turns ∈ [6, 13], ∀ d ∈ (Sample.elsewhere turns).1,
      d.state.clock? d.now ≠ none := by
    decide +kernel
  have hover : ∃ s ∈ (Sample.elsewhere 13).1, IsPass s ∧
      (Sample.elsewhere 13).2.process? s.task = none := by
    decide +kernel
  have hgives : ∃ n ∈ Agenda.stintAt? (Sample.elsewhere 6).2 0, GivesUp n := by decide +kernel
  have hstep : ((Sample.elsewhere 6).2.stepAt ControlRoom.program 0).isSome = true := by
    decide +kernel
  obtain ⟨s, hs, hps, hgone⟩ := hover
  obtain ⟨n, hn, hgives⟩ := hgives
  obtain ⟨o', hb⟩ := Option.isSome_iff_exists.mp hstep
  exact ⟨⟨s, hs, hps, hgone, ((Sample.run_elsewhere 13).isolated hlimit
      (hlasts 13 (by decide))).1 s hs hps hgone⟩,
    n, o', hn, hgives, hb, ((Sample.run_elsewhere 6).isolated hlimit
      (hlasts 6 (by decide))).2 0 n o' hn hgives hb⟩

set_option maxRecDepth 100000 in
/-- Configurations that were accepted, and a pass that has created alerts and fails. -/
theorem pass_fails_abroad : ∃ (p : Premises) (h : Past) (o : Office), p.Run h o ∧
    p.limit.check = .ok () ∧ CalendarLasts h ∧
    (∀ k ∈ o.state.configurations.values, ∃ v, k.accept = .ok v) ∧
    ∃ s ∈ h, IsPass s ∧ (∃ id, Registers h s id) ∧ ¬ Returns h s ∧
      ∃ d ∈ h, d.task = s.task ∧ Fails d := by
  have hlimit : Concurrency.check none = .ok () := rfl
  have hlasts : CalendarLasts (Sample.elsewhere 13).1 := by
    unfold CalendarLasts
    decide +kernel
  have haccepted : ∀ k ∈ (Sample.elsewhere 13).2.state.configurations.values,
      k.accept.isOk = true := by
    decide +kernel
  have hid : "alert_0000000000000001" ∈ (Sample.elsewhere 13).2.state.store.ids := by
    decide +kernel
  have hfails : ∀ s ∈ (Sample.elsewhere 13).1, IsPass s →
      (Sample.elsewhere 13).2.process? s.task = none ∧ ¬ NoChildFails (Sample.elsewhere 13).1 s ∧
        ∃ d ∈ (Sample.elsewhere 13).1, d.task = s.task ∧ Fails d := by
    decide +kernel
  have hr := Sample.run_elsewhere 13
  obtain ⟨s, hs, hps, hregisters⟩ := hr.registered hid
  obtain ⟨hover, hchild, hpass⟩ := hfails s hs hps
  refine ⟨_, _, _, hr, hlimit, hlasts, fun k hk => ?_, s, hs, hps, ⟨_, hregisters⟩,
    fun ⟨d, hd, htask, found, hends, _⟩ => ?_, hpass⟩
  · cases hv : k.accept with
    | ok v => exact ⟨v, rfl⟩
    | error e =>
        have hok := haccepted k hk
        rw [hv] at hok
        exact absurd hok Bool.false_ne_true
  · exact hchild (hr.fine_of_returns hs hps hover hd htask hends)

end Office

end BuildingAlerts
