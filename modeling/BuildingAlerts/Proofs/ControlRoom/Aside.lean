/-
What leaves the escalations of an alert alone.

Work on other alerts, time that passes and most requests leave an alert as it is, go on with nothing
that concerns it, and take no booking of its escalations out. What is booked under the key of an
escalation is booked by work on that alert only.
-/
import BuildingAlerts.Proofs.ControlRoom.Escalations
import BuildingAlerts.Proofs.ControlRoom.Keys

set_option autoImplicit false

namespace BuildingAlerts

open Agenda

namespace Office

variable {p : Premises} {r : AlertRef} {h : Past} {o o' : Office} {n : Doing} {place : Nat}

/-- A request that leaves the escalations of an alert to the room, which it does not shut down.
Somebody may take notice of the alert while none of its escalations is pending. -/
def LeavesChain (r : AlertRef) (o : Office) : Request → Prop
  | .shutdown => False
  | .acknowledge id who => id = r.id → (o.acknowledge id who).1.isSome = true →
      ∀ level, escalationKey r.id level ∉ o.timetable.keysOf r.id
  | q => IsOrderly r o q

theorem LeavesChain.isOrderly {q : Request} (hq : LeavesChain r o q) : IsOrderly r o q := by
  cases q with
  | shutdown => trivial
  | acknowledge => trivial
  | _ => exact hq

/-- The alert is as it was, nobody new goes on with it, and its escalations are booked as they
were. Whoever went on with it still does, unless it was told to stop before it began. -/
structure Aside (r : AlertRef) (o o' : Office) : Prop where
  alert : o'.state.store.find? r = o.state.store.find? r
  nobody : ∀ {t j}, Agenda.job? o' t = some j → j.2.concerns r = true → Agenda.job? o t = some j
  tasks : ∀ {t x}, o.process? t = some x → x.body.concerns r = true →
    (x.begun = false → ¬ x.Marked) →
      ∃ y, o'.process? t = some y ∧ y.body = x.body ∧ (x.begun = true → y.begun = true)
  bookings : ∀ {level x}, o.timetable.bookings.get? (escalationKey r.id level) = some x →
    o'.process? x.task ≠ none →
      o'.timetable.bookings.get? (escalationKey r.id level) = some x

/-! ## Steps -/

/-- Only work on an alert books under the keys of its escalations. -/
theorem concerns_of_books {c : ControlRoom} {m : Appointment Work} {w : Work} {wake : Wake Yield}
    (hm : ControlRoom.Books c m w wake) (hsole : c.store.Sole r) {level : Int}
    (hkey : m.key = escalationKey r.id level) : w.concerns r = true := by
  have hretry : ∀ {e}, ¬ ControlRoom.IsRetryOf c e m := fun h =>
    retryKey_ne_escalationKey _ _ _ (h.key.symm.trans hkey)
  cases hm with
  | notified he hm => exact absurd hm hretry
  | escalated he hm => exact absurd hm hretry
  | waited he hm => exact absurd hm hretry
  | retried he hm => exact absurd hm hretry
  | @next q pol _ _ hw hm =>
      obtain ⟨a, s, ha, -, hmkey⟩ := hm.stage
      obtain rfl := hsole q a (escalationKey_inj (hmkey.symm.trans hkey)) ha
      exact hw

/-- Where a job is after a step there was a task as far on before. -/
theorem exists_process_of_job (ht : Tidy o) (hb : o.stepAt ControlRoom.program place = some o')
    {t : TaskId} {x : Process Work Yield} (hx : o.process? t = some x)
    (hjob : Agenda.job? o' t = Agenda.job? o t) :
    ∃ y, o'.process? t = some y ∧ y.body = x.body ∧ (x.begun = true → y.begun = true) := by
  have hxjob : Agenda.job? o t = some (x.audience, x.body) := job?_eq_some.mpr ⟨x, hx, rfl, rfl⟩
  obtain ⟨y, hy, -, hbody⟩ := job?_eq_some.mp (hjob.trans hxjob)
  obtain ⟨z, hz, hminds⟩ := (ht.proceeds_stepAt hb).old (ht.numbered hx) hy
  obtain rfl := Option.some.inj (hz.symm.trans hx)
  exact ⟨y, hy, hbody, hminds.begun⟩

/-- **Other work leaves an alert alone** that was announced. -/
theorem Premises.Step.aside_of_other (hs : p.Step h o n o') (hc : Course r h o) (ha : Announced r h)
    (hsole : o'.state.store.Sole r) (hcn : n.body.concerns r = false) : Aside r o o' := by
  obtain ⟨place, hplace, hb⟩ := hs.taken
  have hmanaged := (hs.after.mayBeDone n List.mem_cons_self).1
  have hnil := hc.successors_nil hs.job hmanaged hcn ha
  refine ⟨?_, fun hj hcj => ?_, fun {t x} hx hcx _ => ?_, fun {level x} hx hthere => ?_⟩
  · obtain ⟨a, ha⟩ := Option.isSome_iff_exists.mp (hc.there ha).1
    have hreceives := (ControlRoom.writes_program n.now n.state hmanaged n.wake).receives hcn
    have hkept := hreceives.kept a (hs.state.symm ▸ ha)
    rw [ha, hs.leaves]
    exact hkept
  · rcases concerns_of_stint hs.numbered hplace hb hj hcj with ⟨-, hj⟩ | hmem
    · exact hj
    · exact absurd (hnil ▸ hmem) List.not_mem_nil
  · have hne : t ≠ n.task := by
      rintro rfl
      obtain ⟨y, hy, -, hbody⟩ := job?_eq_some.mp hs.job
      obtain rfl := Option.some.inj (hy.symm.trans hx)
      rw [hbody] at hcx
      exact nomatch hcx.symm.trans hcn
    refine exists_process_of_job hs.before.tidy hb hx ?_
    rw [job?_of_stint hs.numbered hplace hb, if_neg hne, if_pos (hs.numbered hx)]
  · refine hs.before.tidy.kept_stepAt hb hx hthere fun s hs' m hm hkey => ?_
    obtain rfl := Option.some.inj (hplace.symm.trans hs')
    have hbooks := ControlRoom.books_program n.now n.state hmanaged hm
    exact nomatch (concerns_of_books hbooks (hs.leaves ▸ hsole) hkey).symm.trans hcn

/-- Without a stint nothing becomes of an alert. -/
theorem Premises.Run.aside_of_no_stint (hr : p.Run h o) (hs : Agenda.stintAt? o place = none)
    (hb : o.stepAt ControlRoom.program place = some o') : Aside r o o' := by
  have hstate : o'.state = o.state := by
    have h := state_of_stepAt hr.keeps.numbered hb
    rw [hs] at h
    exact h
  refine ⟨by rw [hstate], fun {t j} hj _ => ?_, fun hx _ hm => ?_, fun hx hthere => ?_⟩
  · rcases job?_of_no_stint hs hb t with h | ⟨h, -⟩
    · exact h.symm.trans hj
    · exact nomatch hj.symm.trans h
  · exact exists_process_of_job hr.tidy hb hx (job?_of_unmarked hs hb hx hm)
  · exact hr.tidy.kept_stepAt hb hx hthere fun s hs' => nomatch hs.symm.trans hs'

/-- Nothing becomes of an alert while time passes. -/
theorem aside_passTo (o : Office) (time : Instant) : Aside r o (o.passTo time) where
  alert := by rw [state_passTo]
  nobody hj _ := (job?_passTo time).symm.trans hj
  tasks hx _ _ := by
    obtain ⟨y, hy, hxy⟩ := (heeds_passTo o time).kept nofun hx
    exact ⟨y, hy, hxy.body, fun h => hxy.begun.trans h⟩
  bookings hx _ := by
    rw [(moves_passTo o time).timetable]
    exact hx

/-! ## Requests -/

/-- What a request leaves booked for the escalations of an alert, if it does nothing about the
alert. -/
theorem bookings_serve (hsole : o.state.store.Sole r) {q : Request}
    (hq : LeavesChain r o q) (hremedy : q.remedy? o = none) {level : Int} {x : Booking}
    (hx : o.timetable.bookings.get? (escalationKey r.id level) = some x) :
    (serve o q).timetable.bookings.get? (escalationKey r.id level) = some x := by
  generalize hs : serve o q = b
  have hserves : Serves o q b := hs ▸ serves o q
  clear hs
  cases hserves with
  | adjusted f => exact hx
  | settled h => exact nomatch hremedy.symm.trans h
  | launched => exact hx
  | booked =>
      refine (get?_bookAll_of_ne _ o fun m hm hkey => ?_).trans hx
      cases asksFor_of_mem hm with
      | retry he h => exact retryKey_ne_escalationKey _ _ _ (h.key.symm.trans hkey)
      | @next id pol h =>
          obtain ⟨a, s, ha, -, hmkey⟩ := h.stage
          exact hq (hsole _ a (escalationKey_inj (hmkey.symm.trans hkey)) ha)
  | shut => exact hq.elim

/-- **Requests leave an alert alone** that are not about it. -/
theorem Premises.Run.aside_serve (hr : p.Run h o) (hsole : o.state.store.Sole r) {q : Request}
    (hq : LeavesChain r o q) (hother : ∀ id f, q.remedy? o = some (id, f) → id ≠ r.id) :
    Aside r o (serve o q) := by
  have ht := hr.tidy
  have hnobody : ∀ {t j}, Agenda.job? (serve o q) t = some j → j.2.concerns r = true →
      Agenda.job? o t = some j := by
    intro t j hj hcj
    rcases (adding_serve ht.numbered q).cases hj with hj | hj
    · exact hj
    · exact nomatch hcj.symm.trans (concerns_begun hq.isOrderly j hj)
  have htasks : ∀ {t x}, o.process? t = some x → ∃ y, (serve o q).process? t = some y ∧
      y.body = x.body ∧ (x.begun = true → y.begun = true) := by
    intro t x hx
    obtain ⟨y, hy, hxy⟩ := (heeds_serve ht q).kept nofun hx
    exact ⟨y, hy, hxy.body, fun h => hxy.begun.trans h⟩
  cases hremedy : q.remedy? o with
  | none =>
      exact ⟨by rw [store_serve ht.numbered hremedy], hnobody, fun hx _ _ => htasks hx,
        fun hx _ => bookings_serve hsole hq hremedy hx⟩
  | some y =>
      obtain ⟨id, f⟩ := y
      have hid := hother id f hremedy
      refine ⟨?_, hnobody, fun hx _ _ => htasks hx, fun {level x} hx _ => ?_⟩
      · rw [serve_of_remedy? hremedy]
        rcases settleAlert_cases ht id f with h | ⟨a, -, hstate, -⟩
        · rw [h]
        · rw [hstate]
          refine (Store.find?_adjustAt _ _ _ _).trans (if_neg ?_)
          exact fun hr => hid (congrArg AlertRef.id hr).symm
      · rw [serve_of_remedy? hremedy]
        rcases settleAlert_cases ht id f with h | ⟨a, -, -, hget⟩
        · rw [h]
          exact hx
        · rw [hget, hx]
          refine Option.filter_eq_some_iff.mpr ⟨rfl, decide_eq_true fun hxid => ?_⟩
          rcases hr.isFor hx with ⟨e, -, hkey, -⟩ | ⟨id', level', hkey, hfor⟩
          · exact absurd hkey.symm (retryKey_ne_escalationKey _ _ _)
          · rw [← escalationKey_inj hkey] at hfor
            exact hid (Option.some.inj (hxid.symm.trans hfor))

end Office

end BuildingAlerts
