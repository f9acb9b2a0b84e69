/-
Who goes on with an alert, and what is over by then.

One task at most goes on with an alert while requests are orderly for it. It was given the alert by the
wave before, and waves hand on only when they have heard of all their deliveries. So whoever goes on
with an alert finds all earlier deliveries begun and in the log, and the level of the alert stays as it
is between the start of a wave and the last of its deliveries that begins.
-/
import BuildingAlerts.Proofs.ControlRoom.Completion
import BuildingAlerts.Proofs.ControlRoom.Escalations

set_option autoImplicit false

namespace BuildingAlerts

open Agenda

namespace ControlRoom

variable {r : AlertRef}

/-- Of the waves that end, only those hand on that have heard of all their deliveries. -/
theorem completes_of_successors {now : Instant} {c : ControlRoom} {w : Work} {wake : Wake Yield}
    (hwave : w.IsWave) (hlater : ¬ w.IsFirst) {out : Outcome Yield}
    (hends : (program now c w wake).next = .finish out)
    (hne : successors r (program now c w wake) ≠ []) :
    w.completes wake = true ∧ (c.clock? now).isSome = true := by
  have hnothing : (program now c w wake).heirs = [] → w.completes wake = true ∧
      (c.clock? now).isSome = true := fun hheirs => absurd (successors_of_heirs_nil hheirs) hne
  cases hclock : c.clock? now with
  | none =>
      refine absurd ?_ hne
      rw [program_of_no_clock hclock]
      cases w with
      | collecting q left es sequel =>
          exact successors_of_heirs_nil (heirs_stopWork c _ (w := .collecting q left es sequel) trivial)
      | escalating q pol s since booked => rfl
      | notify | escalate => exact absurd trivial hlater
      | _ => exact hwave.elim
  | some m =>
      refine ⟨?_, rfl⟩
      rw [program_of_clock hclock] at hends hne
      cases w with
      | collecting q left es sequel =>
          cases wake with
          | arrived os =>
              cases hnone : (arrivals os).2 with
              | none =>
                  rw [← program_of_clock hclock] at hends
                  exact completes_of_finish hclock hnone hends
              | some st =>
                  refine absurd (successors_of_heirs_nil ?_) hne
                  show (c.takeIn m q left es sequel os).heirs = []
                  unfold takeIn
                  split
                  · exact heirs_stopNotification c _ sequel
                  · rename_i harrivals
                    rw [harrivals] at hnone
                    exact nomatch hnone
          | stopped st =>
              exact absurd (successors_of_heirs_nil (heirs_stopNotification c st sequel)) hne
          | _ => exact absurd rfl hne
      | escalating q pol s since booked =>
          cases wake with
          | gathered ys => rfl
          | _ => exact absurd rfl hne
      | notify | escalate => exact absurd trivial hlater
      | _ => exact hwave.elim

end ControlRoom

namespace Office

variable {p : Premises} {r : AlertRef} {h e : Past} {o : Office} {n : Doing} {id : String}

/-! ## Who goes on with an alert -/

/-- Whoever works on an alert was given it by somebody. -/
theorem Premises.OrderlyRun.announced (hr : p.OrderlyRun r h o) (hn : n ∈ h)
    (hcn : n.body.concerns r = true) : Announced r h := by
  obtain ⟨e, he⟩ := History.exists_suffix_of_mem hn
  obtain ⟨b, c, place, hb, hs, -⟩ := Agenda.Run.before hr he
  obtain ⟨s, hse, hne⟩ := (Premises.OrderlyRun.course hb).announced (job?_of_stintAt hs) hcn
  exact ⟨s, he.subset (List.mem_cons_of_mem n hse), hne⟩

/-- **The work on an alert goes on only while everybody hands it on.** As long as a task goes on with
an alert, every stint on the alert has handed it on. The induction is on the run. -/
theorem Premises.OrderlyRun.handed_on (hr : p.OrderlyRun r h o) {t : TaskId}
    {j : Audience × Work} (hj : Agenda.job? o t = some j) (hcj : j.2.concerns r = true)
    (hn : n ∈ h) (hcn : n.body.concerns r = true) :
    ControlRoom.successors r (n.turn ControlRoom.program) ≠ [] := by
  induction hr generalizing t j with
  | idle => exact absurd hn List.not_mem_nil
  | @step h a b place hr hb ih =>
      have hrun : p.OrderlyRun r h a := hr
      have hcourse := Premises.OrderlyRun.course hrun
      have hnumbered : Agenda.Numbered a := (Premises.OrderlyRun.run hrun).keeps.numbered
      have hstep : p.Run _ b := (Premises.OrderlyRun.run hrun).step hb
      cases hs : Agenda.stintAt? a place with
      | none =>
          rw [hs] at hn
          rcases job?_of_no_stint hs hb t with hsame | ⟨hgone, -⟩
          · exact ih (hsame ▸ hj) hcj hn
          · exact nomatch hgone.symm.trans hj
      | some d =>
          rw [hs] at hn hstep
          have hjob := job?_of_stintAt hs
          rcases concerns_of_stint hnumbered hs hb hj hcj with ⟨hne, hold⟩ | hmem
          · -- another task goes on with the alert, so this one does not
            rcases List.mem_cons.mp hn with rfl | hn
            · exact absurd (hcourse.sole.eq hold hjob hcj hcn) hne
            · exact ih hold hcj hn
          · rcases List.mem_cons.mp hn with rfl | hn
            · exact List.ne_nil_of_mem hmem
            · cases hcd : d.body.concerns r with
              | true => exact ih hjob hcd hn
              | false =>
                  -- nobody has been given the alert before
                  have hnil := hcourse.successors_nil hjob (hstep.mayBeDone d List.mem_cons_self).1
                    hcd (hrun.announced hn hcn)
                  exact absurd (hnil ▸ hmem) List.not_mem_nil
  | @pass h a time hr hready htime ih =>
      rw [job?_passTo] at hj
      exact ih hj hcj hn
  | @serve h a b hr hb ih =>
      obtain ⟨q, hq, rfl⟩ := hb
      rcases (adding_serve (Premises.OrderlyRun.run hr).keeps.numbered q).cases hj with hold | hnew
      · exact ih hold hcj hn
      · exact nomatch hcj.symm.trans (concerns_begun hq j hnew)

/-- A task that is still there is on the alert that it began with. -/
theorem Premises.Run.concerns_of_job (hr : p.Run h o) (hn : n ∈ h) (hfirst : n.first = true)
    (hcn : n.body.concerns r = true) {j : Audience × Work} (hj : Agenda.job? o n.task = some j) :
    j.2.concerns r = true := by
  obtain ⟨x, hx, -, hbody⟩ := job?_eq_some.mp hj
  have hstands := hr.keeps.stands n.task nofun x hx
  unfold Stands at hstands
  split at hstands
  · rename_i hnone
    exact absurd rfl (History.latest_eq_none.mp hnone n hn)
  · rename_i l hlatest
    obtain ⟨hl, htask⟩ := History.latest_eq_some hlatest
    have hcl := hr.concerns_of_task hn hl hfirst htask hcn
    rw [← hbody, (hr.shaped hl).next.concerns hstands.2.2.body r]
    exact hcl

/-- **Waves have completed** when another task goes on with their alert. -/
theorem Premises.OrderlyRun.completed (hr : p.OrderlyRun r h o) {t : TaskId}
    {j : Audience × Work} (hj : Agenda.job? o t = some j) (hcj : j.2.concerns r = true) {s : Doing}
    (hs : s ∈ h) (hfirst : s.first = true) (hwave : s.body.IsWave) (hcs : s.body.concerns r = true)
    (hgoes : s.childIds ControlRoom.program ≠ []) (hne : s.task ≠ t) :
    ∃ l ∈ h, l.task = s.task ∧ l.body.completes l.wake = true ∧
      (l.state.clock? l.now).isSome = true ∧ s ≠ l := by
  have hrun := hr.run
  have hover : o.process? s.task = none := by
    rw [← job?_eq_none]
    refine Option.eq_none_iff_forall_ne_some.mpr fun k hk => ?_
    exact hne (hr.course.sole.eq hk hj (hrun.concerns_of_job hs hfirst hcs hk) hcj)
  obtain ⟨l, hlatest⟩ := History.exists_latest hs
  obtain ⟨hl, htask⟩ := History.latest_eq_some hlatest
  obtain ⟨out, hends⟩ := (hrun.keeps.living s.task nofun l hlatest).mp hover
  have hsl : s ≠ l := by
    rintro rfl
    unfold Stint.childIds at hgoes
    rw [show (s.turn ControlRoom.program).next = .finish out from hends] at hgoes
    exact hgoes rfl
  have hlater : ¬ l.body.IsFirst := fun hlf =>
    hsl (hrun.keeps.coherent.first_unique hs hl hfirst (hrun.first hl hlf).1 htask.symm)
  -- it was not cut short, as it has handed the alert on
  obtain ⟨hcompletes, hclock⟩ := ControlRoom.completes_of_successors
    (hrun.isWave_of_task hs hwave hl htask) hlater hends
    (hr.handed_on hj hcj hl (hrun.concerns_of_task hs hl hfirst htask hcs))
  exact ⟨l, hl, htask, hcompletes, hclock, hsl⟩

/-- **The log is complete** when a task begins to go on with an alert: all deliveries that were begun
for the alert are in it. -/
theorem Premises.OrderlyRun.listed (hr : p.OrderlyRun r h o) {t : TaskId} {j : Audience × Work}
    (hj : Agenda.job? o t = some j) (hcj : j.2.concerns r = true)
    (hfresh : ∀ s ∈ h, s.task ≠ t) {d : Doing} (hd : d ∈ h) (hdraws : draws id d = true)
    {q : DeliveryRequest} {level : Int} (hbody : d.body = .deliver q level) (hq : q.alert = r) :
    id ∈ o.state.store.logOf r := by
  subst hq
  have hrun := hr.run
  obtain ⟨u, haudience⟩ : ∃ u, d.audience = .task u := by
    refine not_forall_not.mp fun hno => ?_
    have houter := (hrun.mayBeDone d hd).2 fun t ht => hno t ht
    rw [hbody] at houter
    exact houter
  obtain ⟨s, hs, rfl, hfirst, hwave, hcs, -, hstarts⟩ := hrun.starter_of_deliver hd hbody haudience
  obtain ⟨l, hl, htask, hcompletes, hclock, -⟩ := hr.completed hj hcj hs hfirst hwave hcs
    (List.ne_nil_of_mem (History.mem_childIds.mpr ⟨_, hstarts⟩)) (hfresh s hs)
  have hid := hrun.logged_of_completes hd hdraws hbody hl (htask.symm ▸ haudience) hcompletes hclock
  rw [hrun.logOf_eq]
  exact List.mem_flatMap.mpr ⟨l, List.mem_reverse.mpr hl, hid⟩

/-- A wave that has completed has had all its deliveries begun. -/
theorem Premises.Run.begun_of_completes (hr : p.Run h o) {s l : Doing} (hs : s ∈ h)
    (hfirst : s.first = true) (hwave : s.body.IsWave) (hl : l ∈ h) (htask : l.task = s.task)
    (hne : s ≠ l) (hcompletes : l.body.completes l.wake = true) {c : TaskId}
    (hc : c ∈ s.childIds ControlRoom.program) : ∃ f ∈ h, f.task = c := by
  obtain ⟨e, he⟩ := History.exists_suffix_of_mem hl
  have hse := hr.keeps.coherent.first_before he hs hfirst htask.symm hne
  obtain ⟨y, hended, -⟩ := hr.carries_all he (hr.isWave_of_task hs hwave hl htask) hse hfirst
    htask.symm hcompletes hc
  obtain ⟨f, hf, hft, -⟩ := hended.of_ok
  exact ⟨f, he.subset (List.mem_cons_of_mem l hf), hft⟩

/-! ## The level of an alert -/

/-- **What changes the level of an alert** is an escalation of it: one that was booked fires a stage for
which there is nobody to turn to, or one has heard of all its deliveries. Only one from outside may do
otherwise. -/
theorem levelOf_turn (hmanaged : n.body.IsManaged) (r : AlertRef) :
    (n.turn ControlRoom.program).state.levelOf r = n.state.levelOf r ∨
      (∃ x, fired? r n = some x ∧ (n.turn ControlRoom.program).state.levelOf r = x.2.level) ∨
      (∃ pol s since booked ys, n.body = .escalating r pol s since booked ∧
        n.wake = .gathered ys ∧ (n.turn ControlRoom.program).state.levelOf r = s.level) ∨
      ∃ pol level, n.body = .escalate r pol (some level) := by
  by_cases hescalate : ∃ pol level, n.body = .escalate r pol level
  · obtain ⟨pol, level, hbody⟩ := hescalate
    cases level with
    | some l => exact .inr (.inr (.inr ⟨pol, l, hbody⟩))
    | none =>
        rcases turn_of_escalate hbody with ⟨-, hstate, -⟩ | ⟨s, m, hfired, ⟨hstate, -⟩ | ⟨hstate, -⟩⟩
        · exact .inl (congrArg (·.levelOf r) hstate)
        · exact .inl (congrArg (·.levelOf r) hstate)
        · obtain ⟨a, ha, -⟩ := allows_of_fired? hfired
          refine .inr (.inl ⟨_, hfired, ?_⟩)
          rw [hstate]
          exact ControlRoom.levelOf_rise n.state ha s m []
  by_cases hescalating : ∃ pol s since booked, n.body = .escalating r pol s since booked
  · obtain ⟨pol, s, since, booked, hbody⟩ := hescalating
    have hturn : n.turn ControlRoom.program
        = ControlRoom.program n.now n.state (.escalating r pol s since booked) n.wake := by
      unfold Stint.turn
      rw [hbody]
    rcases ControlRoom.program_escalating n.now n.state r pol s since booked n.wake with
      ⟨st, hst⟩ | ⟨m, ys, es, hwake, hst⟩
    · rw [hturn, hst]
      exact .inl rfl
    · have hstate : (n.turn ControlRoom.program).state = n.state.rise r s since es := by
        rw [hturn, hst]
        exact ControlRoom.endEscalation_state ..
      cases ha : n.state.store.find? r with
      | some a =>
          refine .inr (.inr (.inl ⟨pol, s, since, booked, ys, hbody, hwake, ?_⟩))
          rw [hstate]
          exact ControlRoom.levelOf_rise n.state ha s since es
      | none =>
          refine .inl ?_
          rw [hstate]
          exact Store.levelOf_adjustAt r (fun a h => nomatch ha.symm.trans h) r
  · refine .inl ((ControlRoom.writes_program n.now n.state hmanaged n.wake).levelOf ?_ ?_)
    · exact fun pol level hbody => hescalate ⟨pol, level, hbody⟩
    · exact fun pol s since booked hbody => hescalating ⟨pol, s, since, booked, hbody⟩

/-- While requests are orderly an alert is only escalated by what was booked. -/
theorem Premises.OrderlyRun.booked (hr : p.OrderlyRun r h o) {t : TaskId} {j : Audience × Work}
    (hj : Agenda.job? o t = some j) {pol : Policy} {level : Option Int}
    (hbody : j.2 = .escalate r pol level) : level = none := by
  have hsuits := hr.course.suits hj (by rw [hbody]; exact Work.concerns_escalate.mpr rfl)
  rw [hbody] at hsuits
  cases level with
  | none => rfl
  | some l => exact hsuits.elim

/-- The level of an alert is zero or that of a stage that was fired, and an escalation that waits for
its deliveries has fired its stage. -/
structure Reached (r : AlertRef) (h : Past) (o : Office) : Prop where
  level : o.state.levelOf r = 0 ∨ ∃ x ∈ fired r h, x.2.level = o.state.levelOf r
  rising : ∀ {t j pol s since booked}, Agenda.job? o t = some j →
    j.2 = .escalating r pol s since booked → (pol, s) ∈ fired r h

/-- A stint puts an alert on the level of a stage that was fired, if it changes its level. -/
theorem Reached.step {a b : Office} (hold : Reached r h a) (hr : p.OrderlyRun r h a)
    (hs : p.Step h a n b) : Reached r (n :: h) b := by
  have hearlier : ∀ {x}, x ∈ fired r h → x ∈ fired r (n :: h) := by
    intro x hx
    rw [fired_cons]
    exact List.mem_append_right _ hx
  have hnow : ∀ {x}, fired? r n = some x → x ∈ fired r (n :: h) := by
    intro x hx
    rw [fired_cons, hx]
    exact List.mem_append_left _ List.mem_cons_self
  have hmanaged := (hs.after.mayBeDone n List.mem_cons_self).1
  have hbooked : ∀ {pol level}, n.body = .escalate r pol level → level = none := hr.booked hs.job
  refine ⟨?_, fun {t j pol s since booked} hj hbody => ?_⟩
  · rw [hs.leaves]
    rcases levelOf_turn hmanaged r with hsame | ⟨x, hx, hlevel⟩ |
      ⟨pol, s, since, booked, ys, hbody, -, hlevel⟩ | ⟨pol, level, hbody⟩
    · rw [hsame, hs.state]
      exact hold.level.imp_right fun ⟨x, hx, hlevel⟩ => ⟨x, hearlier hx, hlevel⟩
    · exact .inr ⟨x, hnow hx, hlevel.symm⟩
    · exact .inr ⟨_, hearlier (hold.rising hs.job hbody), hlevel.symm⟩
    · exact nomatch hbooked hbody
  · cases hs.comes hj with
    | stays _ hj => exact hearlier (hold.rising hj hbody)
    | goesOn _ _ hgoes =>
        -- an escalation has fired the stage in this stint
        rw [hbody] at hgoes
        obtain ⟨level, hescalate⟩ := (hs.after.shaped List.mem_cons_self).next.of_escalating hgoes
        obtain rfl := hbooked hescalate
        rcases turn_of_escalate hescalate with
          ⟨-, -, out, hnext⟩ | ⟨s', m, hfired, ⟨-, rs, hnext⟩ | ⟨-, out, hnext⟩⟩
        · rw [hnext] at hgoes
          exact nomatch hgoes
        · rw [hnext] at hgoes
          obtain ⟨-, -, rfl, -⟩ := Work.escalating.inj (Option.some.inj hgoes)
          exact hnow hfired
        · rw [hnext] at hgoes
          exact nomatch hgoes
    | added _ hadded =>
        have hfirst := hs.after.isFirst_of_mem_jobs List.mem_cons_self (List.mem_of_getElem? hadded)
        rw [hbody] at hfirst
        exact hfirst.elim

/-- **The level of an alert is the level of a stage that was fired**, or zero. The induction is on the
run. -/
theorem Premises.OrderlyRun.reached (hr : p.OrderlyRun r h o) : Reached r h o := by
  induction hr with
  | idle => exact ⟨.inl (levelOf_room p r), fun hj => nomatch hj⟩
  | @step h a b place hr hb ih =>
      have hrun : p.OrderlyRun r h a := hr
      have hstep := hrun.run.step hb
      cases hs : Agenda.stintAt? a place with
      | none =>
          have hstate := state_of_stepAt hrun.run.keeps.numbered hb
          rw [hs] at hstate
          refine ⟨?_, fun hj hbody => ?_⟩
          · rw [show b.state = a.state from hstate]
            exact ih.level
          · rcases job?_of_no_stint hs hb _ with hsame | ⟨hgone, -⟩
            · exact ih.rising (hsame ▸ hj) hbody
            · exact nomatch hgone.symm.trans hj
      | some n =>
          rw [hs] at hstep
          exact Reached.step ih hrun ⟨hrun.run, hstep, place, hs, hb⟩
  | @pass h a time hr hready htime ih =>
      refine ⟨?_, fun hj hbody => ?_⟩
      · rw [state_passTo]
        exact ih.level
      · rw [job?_passTo] at hj
        exact ih.rising hj hbody
  | @serve h a b hr hb ih =>
      obtain ⟨q, hq, rfl⟩ := hb
      have hnumbered : Agenda.Numbered a := (Premises.OrderlyRun.run hr).keeps.numbered
      refine ⟨?_, fun hj hbody => ?_⟩
      · rw [show (serve a q).state.levelOf r = a.state.levelOf r from sameLevels_serve hnumbered q r]
        exact ih.level
      · rcases (adding_serve hnumbered q).cases hj with hold | hnew
        · exact ih.rising hold hbody
        · have hfirst := isFirst_of_mem_begun hnew
          rw [hbody] at hfirst
          exact hfirst.elim

/-- A wave leaves the level of its alert when it starts its deliveries. -/
theorem levelOf_of_starts (hmanaged : n.body.IsManaged)
    (hbooked : ∀ pol level, n.body = .escalate r pol level → level = none)
    (hstarts : n.childIds ControlRoom.program ≠ []) :
    (n.turn ControlRoom.program).state.levelOf r = n.state.levelOf r := by
  have hgoes : ∀ out, (n.turn ControlRoom.program).next ≠ .finish out := by
    intro out hnext
    unfold Stint.childIds at hstarts
    rw [hnext] at hstarts
    exact hstarts rfl
  rcases levelOf_turn hmanaged r with hsame | ⟨x, hx, -⟩ |
    ⟨pol, s, since, booked, ys, hbody, hwake, -⟩ | ⟨pol, level, hbody⟩
  · exact hsame
  · rcases turn_of_escalate (fired?_eq_some hx).1 with
      ⟨-, hstate, -⟩ | ⟨s, m, -, ⟨hstate, -⟩ | ⟨-, out, hnext⟩⟩
    · exact congrArg (·.levelOf r) hstate
    · exact congrArg (·.levelOf r) hstate
    · exact absurd hnext (hgoes out)
  · have hcompletes : n.body.completes n.wake = true := by rw [hbody, hwake]; rfl
    obtain ⟨out, hnext⟩ : ∃ out, (n.turn ControlRoom.program).next = .finish out :=
      ControlRoom.finishes_of_completes hmanaged hcompletes
    exact absurd hnext (hgoes out)
  · exact nomatch hbooked pol _ hbody

/-- No stint after the start of a wave changes the level of its alert as long as one of the deliveries
of the wave is still to begin. -/
theorem Premises.OrderlyRun.levelOf_step {a b : Office} (hr : p.OrderlyRun r h a)
    (hs : p.Step h a n b) {w : Doing} (hw : w ∈ h) (hfirst : w.first = true) (hwave : w.body.IsWave)
    (hcw : w.body.concerns r = true) {c : TaskId} (hc : c ∈ w.childIds ControlRoom.program)
    (hfresh : ∀ s ∈ n :: h, s.task ≠ c) : b.state.levelOf r = a.state.levelOf r := by
  have hmanaged := (hs.after.mayBeDone n List.mem_cons_self).1
  -- another task that goes on with the alert finds the delivery begun
  have hother : n.body.concerns r = true → w.task = n.task := by
    intro hcn
    by_contra hne
    obtain ⟨l, hl, htask, hcompletes, -, hwl⟩ :=
      hr.completed hs.job hcn hw hfirst hwave hcw (List.ne_nil_of_mem hc) hne
    obtain ⟨f, hf, hft⟩ := hr.run.begun_of_completes hw hfirst hwave hl htask hwl hcompletes hc
    exact hfresh f (List.mem_cons_of_mem n hf) hft
  have hbefore : n.first = true → ∀ s ∈ h, s.task ≠ n.task :=
    hs.coherent.ne_of_first (List.suffix_refl _)
  rw [hs.leaves, ← hs.state]
  rcases levelOf_turn hmanaged r with hsame | ⟨x, hx, -⟩ |
    ⟨pol, s, since, booked, ys, hbody, hwake, -⟩ | ⟨pol, level, hbody⟩
  · exact hsame
  · have hbody := (fired?_eq_some hx).1
    have hbegins := (hs.after.first List.mem_cons_self (by rw [hbody]; trivial)).1
    exact absurd (hother (by rw [hbody]; exact Work.concerns_escalate.mpr rfl))
      (hbefore hbegins w hw)
  · -- the wave itself has heard of all its deliveries
    have htask := hother (by rw [hbody]; exact Work.concerns_escalating.mpr rfl)
    have hne : w ≠ n := fun heq => hbefore (heq ▸ hfirst) w hw (congrArg Stint.task heq)
    obtain ⟨f, hf, hft⟩ := hs.after.begun_of_completes (List.mem_cons_of_mem n hw) hfirst hwave
      List.mem_cons_self htask.symm hne (by rw [hbody, hwake]; rfl) hc
    exact absurd hft (hfresh f hf)
  · exact nomatch hr.booked hs.job hbody

/-- **The level of an alert stays until all deliveries have begun.** As long as a delivery that a wave
of the alert has started is still to begin, the level is the one at the start of the wave. The induction
is on the run. -/
theorem Premises.OrderlyRun.level_until_begun (hr : p.OrderlyRun r h o) {w : Doing} (hw : w ∈ h)
    (hfirst : w.first = true) (hwave : w.body.IsWave) (hcw : w.body.concerns r = true) {c : TaskId}
    (hc : c ∈ w.childIds ControlRoom.program) (hfresh : ∀ s ∈ h, s.task ≠ c) :
    o.state.levelOf r = w.state.levelOf r := by
  induction hr with
  | idle => exact absurd hw List.not_mem_nil
  | @step h a b place hr hb ih =>
      have hrun : p.OrderlyRun r h a := hr
      have hstep := hrun.run.step hb
      cases hs : Agenda.stintAt? a place with
      | none =>
          have hstate := state_of_stepAt hrun.run.keeps.numbered hb
          rw [hs] at hstate hw hfresh
          rw [show b.state = a.state from hstate]
          exact ih hw hfresh
      | some n =>
          rw [hs] at hstep hw hfresh
          have hs' : p.Step h a n b := ⟨hrun.run, hstep, place, hs, hb⟩
          rcases List.mem_cons.mp hw with rfl | hw
          · rw [hs'.leaves]
            exact levelOf_of_starts (hs'.after.mayBeDone w List.mem_cons_self).1
              (fun _ _ => Premises.OrderlyRun.booked hrun hs'.job) (List.ne_nil_of_mem hc)
          · exact (Premises.OrderlyRun.levelOf_step hrun hs' hw hfirst hwave hcw hc hfresh).trans
              (ih hw fun s hs => hfresh s (List.mem_cons_of_mem n hs))
  | @pass h a time hr hready htime ih =>
      rw [state_passTo]
      exact ih hw hfresh
  | @serve h a b hr hb ih =>
      obtain ⟨q, hq, rfl⟩ := hb
      have hnumbered : Agenda.Numbered a := (Premises.OrderlyRun.run hr).keeps.numbered
      rw [show (serve a q).state.levelOf r = a.state.levelOf r from sameLevels_serve hnumbered q r]
      exact ih hw hfresh

end Office

end BuildingAlerts
