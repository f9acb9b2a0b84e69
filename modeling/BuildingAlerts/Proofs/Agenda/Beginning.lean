/-
Every task that is started begins.

A task that another one starts has its turn in the same instant, however many others are in
between. Unless it is told to stop before that, it begins with it. So when nothing is ready any
longer, all tasks of a kind that nobody tells to stop have begun.
-/
import BuildingAlerts.Proofs.Agenda.Beside
import BuildingAlerts.Proofs.Agenda.Run

set_option autoImplicit false

namespace BuildingAlerts.Agenda

variable {σ β ρ : Type} {P : Program σ β ρ} {h : History σ β ρ} {a b : Agenda σ β ρ} {t : TaskId}

/-- A task that the stint `s` started waits for its first turn. -/
structure Due (s : Stint σ β ρ) (c : TaskId) (body : β) (a : Agenda σ β ρ) (p : Process β ρ) :
    Prop where
  process : a.process? c = some p
  begun : p.begun = false
  body : p.body = body
  audience : p.audience = .task s.task
  now : s.now = a.now

/-- The first stint of a task that the stint `s` started. -/
structure Begins (s : Stint σ β ρ) (c : TaskId) (body : β) (e : Stint σ β ρ) : Prop where
  first : e.first = true
  task : e.task = c
  body : e.body = body
  audience : e.audience = .task s.task
  now : e.now = s.now

/-! ## What is started -/

/-- What a task starts when it stops working is there. -/
theorem children_settleTurn (ha : a.Numbered) {p : Process β ρ} (hp : a.process? t = some p)
    {next : Next β ρ} {i : Nat} {body : β} (hi : next.children[i]? = some body) :
    ∃ q, (a.settleTurn t p next).process? (a.started + i) = some q ∧
      (Process.fresh body (.task t)).Told q := by
  have hne : a.started + i ≠ t := by
    have hlt : t < a.started := ha hp
    grind
  have hlaunch : ∀ {bodies : List β}, bodies[i]? = some body →
      (a.launchAll t bodies).process? (a.started + i) = some (.fresh body (.task t)) := by
    intro bodies hb
    have hge : ¬ a.started + i < a.started := Nat.not_lt.mpr (Nat.le_add_right _ _)
    rw [(launched_launchAll t bodies ha).process, if_neg hge, Nat.add_sub_cancel_left, hb]
    rfl
  have hstop : ∀ {c : Agenda σ β ρ}, c.process? (a.started + i) = some (.fresh body (.task t)) →
      ∃ q, (if p.stopping then
          (c.adjust t fun p => { p with stopping := false }).cancel t else c).process?
        (a.started + i) = some q ∧ (Process.fresh body (.task t)).Told q := by
    intro c hc
    split
    · refine (rebooked_cancel _ t).kept ?_
      rw [process?_adjust_of_ne _ _ hne]
      exact hc
    · exact ⟨_, hc, .rfl⟩
  unfold Agenda.settleTurn
  cases next with
  | finish o => exact nomatch hi
  | pause b => exact nomatch hi
  | sleep d l b => exact nomatch hi
  | await b => exact nomatch hi
  | gather children b =>
      refine hstop ?_
      rw [process?_park, if_neg hne]
      exact hlaunch hi
  | collect children b =>
      refine hstop ?_
      rw [process?_park, if_neg hne]
      exact hlaunch hi

/-- What a stint starts waits for its turn. -/
theorem Sound.due_of_stint (ha : Sound P none h a) {place : Nat} {s : Stint σ β ρ}
    (hs : a.stintAt? place = some s) (hb : a.stepAt P place = some b) {c : TaskId} {body : β}
    (hc : s.Starts P c body) : ∃ p, Due s c body b p := by
  obtain ⟨hi, hstint, -⟩ := stintAt?_eq_some hs
  have hnow := now_of_stepAt ha.numbered hb
  unfold stepAt at hb
  rw [hi] at hb
  obtain rfl := Option.some.inj hb
  obtain ⟨i, hbody, rfl⟩ := hc
  have hn : (a.taken place).Numbered := ha.numbered
  have hstint' : (a.taken place).stint? s.task = some s := hstint
  cases runsTo P (a.taken place) s.task with
  | idle _ h _ => exact nomatch hstint'.symm.trans h
  | dropped _ _ _ _ h _ => exact nomatch hstint'.symm.trans h
  | delayed _ _ _ _ h _ => exact nomatch hstint'.symm.trans h
  | @works p w v hp hw hv hbeg h hr =>
      have hs' := Option.some.inj (hstint'.symm.trans h)
      obtain ⟨q, hq, hpq, hwork⟩ := work_eq_settleTurn hn hp p.body v (P := P)
      have hturn : s.turn P = P (a.taken place).now (a.taken place).state p.body v := by
        rw [hs']
        rfl
      have hfirst : s.firstChild P
          = (((a.taken place).atWork s.task (s.turn P).state).bookAll
            (s.turn P).appointments).started := by
        unfold Stint.firstChild
        rw [started_bookAll, hs']
        rfl
      rw [← hturn] at hq hwork
      have hnb : (((a.taken place).atWork s.task (s.turn P).state).bookAll
          (s.turn P).appointments).Numbered :=
        (rebooked_bookAll _ (hn.atWork _)).numbered (hn.atWork _)
      obtain ⟨r, hr', hfr⟩ := children_settleTurn hnb hq hbody
      refine ⟨r, ?_, hfr.begun, hfr.body, hfr.audience, ?_⟩
      · show ((a.taken place).run P s.task).process? _ = _
        rw [hr, hwork, hfirst]
        exact hr'
      · rw [hnow, hs']
        rfl

/-! ## What is due -/

/-- A task waits for its first turn. -/
structure Poised (a : Agenda σ β ρ) (t : TaskId) (p : Process β ρ) : Prop where
  process : a.process? t = some p
  begun : p.begun = false
  waiting : p.waiting = .queued .start
  delay : p.delay = none

/-- Nothing comes of it that the task is told to stop. -/
theorem Poised.told {p q : Process β ρ} (hp : Poised a t p) (hq : b.process? t = some q)
    (hpq : p.Told q) : Poised b t q where
  process := hq
  begun := hpq.begun.trans hp.begun
  waiting := by
    rcases hpq.waiting with hw | ⟨hw | hw, -⟩
    · exact hw.trans hp.waiting
    · exact nomatch hp.waiting.symm.trans hw
    · exact nomatch hp.waiting.symm.trans hw
  delay := hpq.delay.trans hp.delay

/-- **Who waits for its first turn** does so while others have their turn, and begins with its
own, unless it is marked. -/
theorem Poised.step {p : Process β ρ} (hp : Poised a t p) (ha : a.Numbered)
    (hcalm : p.stopping = false) {place : Nat} (hb : a.stepAt P place = some b) :
    (∃ e, a.stintAt? place = some e ∧ Stint.Of a t p e) ∨ ∃ q, Poised b t q ∧ p.Told q := by
  have htold : (∃ q, b.process? t = some q ∧ p.Told q) → ∃ q, Poised b t q ∧ p.Told q :=
    fun ⟨q, hq, hpq⟩ => ⟨q, hp.told hq hpq, hpq⟩
  unfold stepAt at hb
  unfold stintAt?
  obtain ⟨i, hi, rfl⟩ := Option.map_eq_some_iff.mp hb
  rw [hi]
  cases i with
  | report u d o =>
      by_cases hu : t = u
      · subst hu
        refine .inr (htold ⟨p, ?_, .rfl⟩)
        have hp' : (a.taken place).process? t = some p := hp.process
        show ((a.taken place).report t d o).process? t = _
        unfold Agenda.report
        rw [hp']
        dsimp only
        rw [hp.waiting]
        exact hp.process
      · exact .inr (htold ((beside_report (a := a.taken place) d o).others hu hp.process))
  | run u =>
      by_cases hu : t = u
      · subst hu
        cases runsTo P (a.taken place) t with
        | idle hw _ _ => exact absurd hp.waiting (hw p _ hp.process)
        | @dropped q w st hq _ hw hst _ _ =>
            obtain rfl := Option.some.inj (hp.process.symm.trans hq)
            rcases hst with ⟨hst, -⟩ | rfl
            · exact nomatch hcalm.symm.trans hst
            · exact nomatch hp.waiting.symm.trans hw
        | @delayed q w d hq _ _ hd _ _ =>
            obtain rfl := Option.some.inj (hp.process.symm.trans hq)
            exact nomatch hp.delay.symm.trans hd
        | @works q w v hq hw hv _ hs _ =>
            obtain rfl := Option.some.inj (hp.process.symm.trans hq)
            exact .inl ⟨_, hs, rfl, rfl, rfl, rfl, rfl, rfl, rfl⟩
      · exact .inr (htold ((beside_run P (a := a.taken place) ha u).others hu hp.process))

/-- What is due stays so while others have their turn, and begins with its own. -/
theorem Sound.due_step (ha : Sound P none h a) {place : Nat} (hb : a.stepAt P place = some b)
    {s : Stint σ β ρ} {c : TaskId} {body : β} {p : Process β ρ} (hp : Due s c body a p)
    (hcalm : p.stopping = false) :
    (∃ e, a.stintAt? place = some e ∧ Begins s c body e) ∨ ∃ q, Due s c body b q := by
  obtain ⟨-, hfresh⟩ := (ha.stands c nofun p hp.process).fresh hp.begun
  obtain ⟨hdelay, hwaiting⟩ := hfresh.child s.task hp.audience
  have hpoised : Poised a c p := ⟨hp.process, hp.begun, hwaiting, hdelay⟩
  rcases hpoised.step ha.numbered hcalm hb with ⟨e, he, hof⟩ | ⟨q, hq, hpq⟩
  · exact .inl ⟨e, he, hof.first.trans (by rw [hp.begun]; rfl), hof.task, hof.body.trans hp.body,
      hof.audience.trans hp.audience, hof.now.trans hp.now.symm⟩
  · exact .inr ⟨q, hq.process, hq.begun, hpq.body.trans hp.body,
      hpq.audience.trans hp.audience, hp.now.trans (now_of_stepAt ha.numbered hb).symm⟩

/-- **A task that is started begins or is still due**, if it is of a kind that nobody tells to
stop; and it begins in the instant in which it was started. -/
theorem Run.begins {Serve : Agenda σ β ρ → Agenda σ β ρ → Prop} {start : Agenda σ β ρ}
    {C : β → Prop} (hstart : Sound P none [] start)
    (hout : ∀ {a b}, a.Numbered → Serve a b → a.Outside b)
    (hcalm : ∀ {h a}, Run P Serve start h a → ∀ t p, a.process? t = some p → C p.body →
      p.stopping = false)
    (hr : Run P Serve start h a) {s : Stint σ β ρ} (hs : s ∈ h) {c : TaskId} {body : β}
    (hc : s.Starts P c body) (hC : C body) :
    (∃ e ∈ h, Begins s c body e) ∨ ∃ p, Due s c body a p := by
  induction hr with
  | idle => exact absurd hs List.not_mem_nil
  | @step h a b place hr hb ih =>
      have ha := hr.sound hstart hout
      have hold : s ∈ h → (∃ e ∈ (a.stintAt? place).toList ++ h, Begins s c body e) ∨
          ∃ p, Due s c body b p := by
        intro hs
        rcases ih hs with ⟨e, he, hbe⟩ | ⟨p, hp⟩
        · exact .inl ⟨e, List.mem_append_right _ he, hbe⟩
        · rcases ha.due_step hb hp (hcalm hr c p hp.process (hp.body ▸ hC)) with ⟨e, he, hbe⟩ | hq
          · exact .inl ⟨e, List.mem_append_left _ (Option.mem_toList.mpr he), hbe⟩
          · exact .inr hq
      rcases List.mem_append.mp hs with hs | hs
      · exact .inr (ha.due_of_stint (Option.mem_toList.mp hs) hb hc)
      · exact hold hs
  | @pass h a time hr hready _ ih =>
      rcases ih hs with he | ⟨p, hp⟩
      · exact .inl he
      · have ha := hr.sound hstart hout
        obtain ⟨-, hfresh⟩ := (ha.stands c nofun p hp.process).fresh hp.begun
        have hmem := ha.turn c nofun p _ hp.process (hfresh.child _ hp.audience).2
        rw [hready] at hmem
        exact absurd hmem List.not_mem_nil
  | @serve h a b hr hb ih =>
      rcases ih hs with he | ⟨p, hp⟩
      · exact .inl he
      · obtain ⟨x, hx⟩ := hout (hr.sound hstart hout).numbered hb
        obtain ⟨q, hq, hpq⟩ := hx.kept (p := p) hp.process
        exact .inr ⟨q, hq, hpq.begun.trans hp.begun, hpq.body.trans hp.body,
          hpq.audience.trans hp.audience, hp.now.trans hx.now.symm⟩

/-- When nothing is ready, every such task has begun. -/
theorem Run.begun_of_ready_nil {Serve : Agenda σ β ρ → Agenda σ β ρ → Prop}
    {start : Agenda σ β ρ} {C : β → Prop} (hstart : Sound P none [] start)
    (hout : ∀ {a b}, a.Numbered → Serve a b → a.Outside b)
    (hcalm : ∀ {h a}, Run P Serve start h a → ∀ t p, a.process? t = some p → C p.body →
      p.stopping = false)
    (hr : Run P Serve start h a) (hready : a.ready = []) {s : Stint σ β ρ} (hs : s ∈ h)
    {c : TaskId} {body : β} (hc : s.Starts P c body) (hC : C body) :
    ∃ e ∈ h, Begins s c body e := by
  rcases hr.begins hstart hout hcalm hs hc hC with he | ⟨p, hp⟩
  · exact he
  · have ha := hr.sound hstart hout
    obtain ⟨-, hfresh⟩ := (ha.stands c nofun p hp.process).fresh hp.begun
    have hmem := ha.turn c nofun p _ hp.process (hfresh.child _ hp.audience).2
    rw [hready] at hmem
    exact absurd hmem List.not_mem_nil

/-! ## Who started a task -/

theorem started_passTo (a : Agenda σ β ρ) (time : Instant) :
    (a.passTo time).started = a.started :=
  foldl_goOff (f := (·.started)) (fun _ _ _ => rfl) _ _

theorem started_le_of_stepAt (ha : a.Numbered) {place : Nat} (hb : a.stepAt P place = some b) :
    a.started ≤ b.started := by
  unfold stepAt at hb
  obtain ⟨i, -, rfl⟩ := Option.map_eq_some_iff.mp hb
  cases i with
  | run t => exact (beside_run P (a := a.taken place) ha t).started
  | report t c o => exact (beside_report (t := t) (a := a.taken place) c o).started

/-- **A task is started but once**, and for one thing. The numbers that were given out before a
stint are below those that it gives out, which is what the induction carries along. -/
theorem Run.starts_unique {Serve : Agenda σ β ρ → Agenda σ β ρ → Prop} {start : Agenda σ β ρ}
    (hstart : Sound P none [] start)
    (hout : ∀ {a b}, a.Numbered → Serve a b → a.Outside b) (hr : Run P Serve start h a) :
    (∀ s ∈ h, ∀ c body, s.Starts P c body → c < a.started) ∧
      ∀ s ∈ h, ∀ d ∈ h, ∀ c body body', s.Starts P c body → d.Starts P c body' →
        s = d ∧ body = body' := by
  have hsame : ∀ {s : Stint σ β ρ} {c : TaskId} {body body' : β}, s.Starts P c body →
      s.Starts P c body' → body = body' := by
    rintro s c body body' ⟨i, hi, rfl⟩ ⟨j, hj, hij⟩
    obtain rfl := Nat.add_left_cancel hij
    exact Option.some.inj (hi.symm.trans hj)
  induction hr with
  | idle => exact ⟨fun _ hs => absurd hs List.not_mem_nil, fun _ hs => absurd hs List.not_mem_nil⟩
  | @step h a b place hr hb ih =>
      have ha := hr.sound hstart hout
      have hle := started_le_of_stepAt ha.numbered hb
      cases hd : a.stintAt? place with
      | none => exact ⟨fun s hs c body hc => Nat.lt_of_lt_of_le (ih.1 s hs c body hc) hle, ih.2⟩
      | some d =>
          have hnew : ∀ c body, d.Starts P c body → a.started ≤ c := by
            rintro c body ⟨i, -, rfl⟩
            obtain ⟨-, -, p, -, hof⟩ := stintAt?_eq_some hd
            rw [← hof.started]
            exact Nat.le_trans (Nat.le_add_right _ _) (Nat.le_add_right _ _)
          refine ⟨fun s hs c body hc => ?_, fun s hs e he c body body' hc hc' => ?_⟩
          · rcases List.mem_cons.mp hs with rfl | hs
            · obtain ⟨p, hp⟩ := ha.due_of_stint hd hb hc
              exact (hr.step hb).sound hstart hout |>.numbered hp.process
            · exact Nat.lt_of_lt_of_le (ih.1 s hs c body hc) hle
          · rcases List.mem_cons.mp hs with rfl | hold
            · rcases List.mem_cons.mp he with rfl | hold'
              · exact ⟨rfl, hsame hc hc'⟩
              · exact absurd (ih.1 e hold' c body' hc') (Nat.not_lt.mpr (hnew c body hc))
            · rcases List.mem_cons.mp he with rfl | hold'
              · exact absurd (ih.1 s hold c body hc) (Nat.not_lt.mpr (hnew c body' hc'))
              · exact ih.2 s hold e hold' c body body' hc hc'
  | @pass h a time _ _ _ ih =>
      rw [started_passTo]
      exact ih
  | serve hr hb ih =>
      obtain ⟨x, hx⟩ := hout (hr.sound hstart hout).numbered hb
      exact ⟨fun s hs c body hc => Nat.lt_of_lt_of_le (ih.1 s hs c body hc) hx.started, ih.2⟩

/-- A task that a stint started has its first stint in the same instant, with the work that it
was started for. -/
theorem Run.first_of_child {Serve : Agenda σ β ρ → Agenda σ β ρ → Prop} {start : Agenda σ β ρ}
    (hstart : Sound P none [] start)
    (hout : ∀ {a b}, a.Numbered → Serve a b → a.Outside b) (hr : Run P Serve start h a)
    {s f : Stint σ β ρ} (hs : s ∈ h) {c : TaskId} {body : β} (hc : s.Starts P c body) (hf : f ∈ h)
    (htask : f.task = c) (haudience : f.audience = .task s.task) :
    ∃ e ∈ h, Begins s c body e := by
  have hcoherent := (hr.sound hstart hout).coherent
  obtain ⟨e, he, het, hfirst, hea⟩ := hcoherent.exists_first hf
  obtain ⟨k, hk⟩ := History.exists_suffix_of_mem he
  obtain ⟨p, hp, -, hnow, hstarts⟩ := hcoherent.origin hk hfirst (hea.trans haudience)
  have hpm : p ∈ h := hk.subset (List.mem_cons_of_mem _ hp)
  rw [het, htask] at hstarts
  obtain ⟨rfl, hbody⟩ := (hr.starts_unique hstart hout).2 p hpm s hs c _ _ hstarts hc
  exact ⟨e, he, hfirst, het.trans htask, hbody, hea.trans haudience, hnow.symm⟩

end BuildingAlerts.Agenda
