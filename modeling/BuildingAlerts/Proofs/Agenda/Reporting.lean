/-
What gets ready.

Whatever is done on the agenda only adds to the ready items: turns of tasks, and the report of a
task that ends, if another one started it. A task that goes on stays where it is, and waits for
all that it has started.
-/
import BuildingAlerts.Proofs.Agenda.Beginning
import BuildingAlerts.Proofs.Agenda.Calm

set_option autoImplicit false

namespace BuildingAlerts.Agenda

variable {σ β ρ : Type} {P : Program σ β ρ} {G F : β → Prop} {a b c : Agenda σ β ρ} {t : TaskId}

/-- Tasks get their turn, and nothing else gets ready. -/
def Adds (a b : Agenda σ β ρ) : Prop :=
  ∃ ts : List TaskId, b.ready = a.ready ++ ts.map .run

theorem Adds.rfl : a.Adds a :=
  ⟨[], (List.append_nil _).symm⟩

theorem Adds.trans (h : a.Adds b) (k : b.Adds c) : a.Adds c := by
  obtain ⟨ts, hts⟩ := h
  obtain ⟨us, hus⟩ := k
  refine ⟨ts ++ us, ?_⟩
  rw [hus, hts, List.map_append, List.append_assoc]

theorem adds_wake (a : Agenda σ β ρ) (t : TaskId) (w : Wake ρ) : a.Adds (a.wake t w) :=
  ⟨[t], .refl _⟩

theorem adds_lay (a : Agenda σ β ρ) (t : TaskId) (body : β) (delay limit : Delay) (w : Wake ρ) :
    a.Adds (a.lay t body delay limit w) := by
  unfold Agenda.lay
  split
  · exact ⟨[t], .refl _⟩
  · exact .rfl

/-- Only a task that ends adds a report. -/
theorem adds_settleTurn (ha : a.Numbered) (p : Process β ρ) {next : Next β ρ}
    (hn : ∀ o, next ≠ .finish o) : a.Adds (a.settleTurn t p next) := by
  have hlaunch : ∀ bodies, a.Adds (a.launchAll t bodies) :=
    fun bodies => ⟨_, (launched_launchAll t bodies ha).ready⟩
  have hstop : ∀ {b : Agenda σ β ρ}, a.Adds b → a.Adds (if p.stopping then
      (b.adjust t fun p => { p with stopping := false }).cancel t else b) := by
    intro b hb
    split
    · exact hb.trans (rebooked_cancel _ t).ready
    · exact hb
  unfold Agenda.settleTurn
  cases next with
  | finish o => exact absurd (.refl _) (hn o)
  | pause body => exact ⟨[t], .refl _⟩
  | sleep delay limit body =>
      dsimp only
      split
      · exact (adds_lay a t body delay limit _).trans (adds_wake _ t _)
      · exact adds_lay a t body delay limit _
  | gather children body => exact hstop (hlaunch children)
  | collect children body => exact hstop (hlaunch children)
  | await body => exact hstop .rfl

/-- A task that ends is to be told of, if another one started it. -/
theorem ready_finish (a : Agenda σ β ρ) (t : TaskId) (p : Process β ρ) (o : Outcome ρ) :
    (a.finish t p o).ready = a.ready ++ match p.audience with
      | .task u => [.report u t o]
      | _ => [] := by
  unfold Agenda.finish
  cases p.key <;> cases p.audience
  all_goals first | exact .refl _ | exact (List.append_nil _).symm

/-- What a turn of a task adds to the ready items: turns of tasks, or its own report. -/
inductive Reports (P : Program σ β ρ) (F : β → Prop) (a : Agenda σ β ρ) (t : TaskId)
    (b : Agenda σ β ρ) : Prop where
  | none (hb : a.Adds b) (hp : ∀ p, a.process? t = some p → ∃ q, b.process? t = some q ∧
      q.audience = p.audience)
  | ends {p : Process β ρ} {o : Outcome ρ} (hp : a.process? t = some p)
      (hb : ∀ u, p.audience = .task u → .report u t o ∈ b.ready)
      (hr : ∀ i, i ∈ b.ready → i ∈ a.ready ∨ (∃ v, i = .run v) ∨
        ∃ u, p.audience = .task u ∧ i = .report u t o)
      (hi : ∀ i ∈ a.ready, i ∈ b.ready)
      (ho : ∀ u, p.audience = .task u → F p.body ∨ ∃ s, a.stint? t = some s ∧ s.Ends P o)

theorem Reports.of_finish {p : Process β ρ} {o : Outcome ρ} (hb : a.Adds b)
    (hp : a.process? t = some p) {q : Process β ρ} (hq : q.audience = p.audience)
    (ho : ∀ u, p.audience = .task u → F p.body ∨ ∃ s, a.stint? t = some s ∧ s.Ends P o) :
    Reports P F a t (b.finish t q o) := by
  have hready := ready_finish b t q o
  obtain ⟨ts, hts⟩ := hb
  rw [hts, hq] at hready
  refine .ends (o := o) hp (fun u hu => ?_) (fun i hi => ?_) (fun i hi => ?_) ho
  · rw [hready, hu]
    exact List.mem_append_right _ (List.mem_singleton_self _)
  · rw [hready] at hi
    rcases List.mem_append.mp hi with hi | hi
    · rcases List.mem_append.mp hi with hi | hi
      · exact .inl hi
      · obtain ⟨v, -, rfl⟩ := List.mem_map.mp hi
        exact .inr (.inl ⟨v, rfl⟩)
    · cases hu : p.audience with
      | task u =>
          rw [hu] at hi
          exact .inr (.inr ⟨u, rfl, List.mem_singleton.mp hi⟩)
      | nobody =>
          rw [hu] at hi
          exact absurd hi List.not_mem_nil
      | caller =>
          rw [hu] at hi
          exact absurd hi List.not_mem_nil
  · rw [hready]
    exact List.mem_append_left _ (List.mem_append_left _ hi)

theorem process?_lay {p : Process β ρ} (hp : a.process? t = some p) (body : β)
    (delay limit : Delay) (w : Wake ρ) : ∃ v, (a.lay t body delay limit w).process? t
      = some { p with body := body, waiting := v } := by
  unfold Agenda.lay
  split
  · refine ⟨.queued w, ?_⟩
    show (a.park t body (.queued w)).process? t = _
    rw [process?_park, if_pos rfl, hp]
    rfl
  · refine ⟨.asleep, ?_⟩
    show (a.park t body .asleep).process? t = _
    rw [process?_park, if_pos rfl, hp]
    rfl

/-- A task that does not end is still there, and waits for all that it has started. -/
theorem process?_settleTurn (ha : a.Numbered) {p : Process β ρ} (hp : a.process? t = some p)
    {next : Next β ρ} (hn : ∀ o, next ≠ .finish o) :
    ∃ q, (a.settleTurn t p next).process? t = some q ∧ q.audience = p.audience ∧
      ∀ cs body, next = .gather cs body →
        q.waiting = .all (List.range' a.started cs.length) [] := by
  have hpark : ∀ {b : Agenda σ β ρ} (body : β) (w : Waiting ρ), b.process? t = some p →
      (b.park t body w).process? t = some { p with body := body, waiting := w } := by
    intro b body w hb
    rw [process?_park, if_pos rfl, hb]
    rfl
  have hlaunch : ∀ bodies, (a.launchAll t bodies).process? t = some p := by
    intro bodies
    rw [(launched_launchAll t bodies ha).process, if_pos (ha hp)]
    exact hp
  -- a task that is told to stop here still waits for all that it has started
  have hstop : ∀ {b : Agenda σ β ρ} {q : Process β ρ}, b.process? t = some q →
      ∃ r, (if p.stopping then
        (b.adjust t fun p => { p with stopping := false }).cancel t else b).process? t = some r ∧
          q.Told r := by
    intro b q hq
    split
    · exact ((rebooked_mark b t false).trans (rebooked_cancel _ t)).kept hq
    · exact ⟨q, hq, .rfl⟩
  unfold Agenda.settleTurn
  cases next with
  | finish o => exact absurd (.refl _) (hn o)
  | pause body => exact ⟨_, hpark body (.queued .resumed) hp, .refl _, fun _ _ h => nomatch h⟩
  | sleep delay limit body =>
      obtain ⟨v, hv⟩ := process?_lay hp body delay limit .resumed
      dsimp only
      split
      · refine ⟨{ p with body := body, waiting := .queued (.stopped .cancelled), stopping := false }, ?_, .refl _,
          fun _ _ h => nomatch h⟩
        rw [process?_wake, if_pos rfl, process?_adjust_self, hv]
        rfl
      · exact ⟨_, hv, .refl _, fun _ _ h => nomatch h⟩
  | gather children body =>
      obtain ⟨r, hr, htold⟩ :=
        hstop (hpark body (.all (List.range' a.started children.length) []) (hlaunch children))
      refine ⟨r, hr, htold.audience, fun cs b heq => ?_⟩
      rw [← (Next.gather.inj heq).1]
      rcases htold.waiting with hw | ⟨hw | hw, -⟩
      · exact hw
      · exact nomatch hw
      · exact nomatch hw
  | collect children body =>
      obtain ⟨r, hr, htold⟩ := hstop (hpark body .any (hlaunch children))
      exact ⟨r, hr, htold.audience, fun _ _ h => nomatch h⟩
  | await body =>
      obtain ⟨r, hr, htold⟩ := hstop (hpark body .any hp)
      exact ⟨r, hr, htold.audience, fun _ _ h => nomatch h⟩

/-- A turn of a task, where only tasks of the kind are told to stop. -/
theorem reports_run (hP : Divides P G F) (hn : a.Numbered) (hcalm : Calm F a)
    (hG : Only (fun _ => G) a) (hfresh : ∀ p, a.process? t = some p → p.begun = false →
      ∀ u, p.audience = .task u → p.waiting = .queued .start) :
    Reports P F a t (a.run P t) := by
  cases runsTo P a t with
  | idle hw hs hr =>
      rw [hr]
      exact .none .rfl fun p hp => ⟨p, hp, .refl _⟩
  | @dropped p w st hp hb hw hst hs hr =>
      rw [hr]
      refine Reports.of_finish .rfl hp (.refl _) fun u hu => .inl ?_
      rcases hst with ⟨hstop, -⟩ | rfl
      · by_contra hF
        exact nomatch (hcalm.unmarked t p hp hF).symm.trans hstop
      · exact nomatch hw.symm.trans (hfresh p hp hb u hu)
  | @delayed p w d hp hb hw hd hs hr =>
      rw [hr]
      refine .none (adds_lay (a.adjust t _) t p.body d .endless .start) fun q hq => ?_
      obtain rfl := Option.some.inj (hp.symm.trans hq)
      have hundelayed : (a.adjust t fun p => { p with delay := none }).process? t
          = some { p with delay := none } := by
        rw [process?_adjust_self, hp]
        rfl
      obtain ⟨v, hv⟩ := process?_lay hundelayed p.body d .endless .start
      exact ⟨_, hv, .refl p.audience⟩
  | @works p w v hp hw hv hb hs hr =>
      rw [hr]
      obtain ⟨q, hq, hpq, hwork⟩ := work_eq_settleTurn hn hp p.body v (P := P)
      rw [hwork]
      have hbook := rebooked_bookAll (P a.now a.state p.body v).appointments
        (hn.atWork (t := t) (P a.now a.state p.body v).state)
      have hadds : a.Adds ((a.atWork t (P a.now a.state p.body v).state).bookAll
          (P a.now a.state p.body v).appointments) := hbook.ready
      have hnumbered : ((a.atWork t (P a.now a.state p.body v).state).bookAll
          (P a.now a.state p.body v).appointments).Numbered := hbook.numbered (hn.atWork _)
      by_cases hends : ∃ o, (P a.now a.state p.body v).next = .finish o
      · obtain ⟨o, ho⟩ := hends
        rw [ho]
        refine Reports.of_finish hadds hp hpq.audience fun u hu => ?_
        have hcalm' := (hcalm.atWork (t := t) (P a.now a.state p.body v).state).bookAll
          (hn.atWork _) (hP.booked a.now a.state p.body v (hG t p hp))
        split
        · rename_i hstop
          refine .inl ?_
          by_contra hF
          exact nomatch (hcalm'.unmarked t q hq (hpq.body ▸ hF)).symm.trans hstop
        · exact .inr ⟨_, hs, ho⟩
      · have hno : ∀ o, (P a.now a.state p.body v).next ≠ .finish o := fun o ho => hends ⟨o, ho⟩
        refine .none (hadds.trans (adds_settleTurn hnumbered q hno)) fun r hr' => ?_
        obtain ⟨q', hq', haudience, -⟩ := process?_settleTurn hnumbered hq hno
        obtain rfl := Option.some.inj (hp.symm.trans hr')
        exact ⟨q', hq', haudience.trans hpq.audience⟩

end BuildingAlerts.Agenda
