/-
What a task leaves alone.

While a task has its turn, or is told of another one, the rest of the agenda stays as it is: the
clock does not move, the room changes as the task's stint has it, and all other tasks are where
they were, except that some may be told to stop.
-/
import BuildingAlerts.Proofs.Agenda.Working

set_option autoImplicit false

namespace BuildingAlerts.Agenda

variable {σ β ρ : Type} {P : Program σ β ρ} {a b c : Agenda σ β ρ} {t : TaskId}

/-- What becomes of an agenda when one task does something, apart from that task. -/
structure Beside (t : TaskId) (a b : Agenda σ β ρ) : Prop where
  state : b.state = a.state
  now : b.now = a.now
  started : a.started ≤ b.started
  others : ∀ {u p}, u ≠ t → a.process? u = some p → ∃ q, b.process? u = some q ∧ p.Told q

theorem Beside.rfl : Beside t a a :=
  ⟨.refl _, .refl _, Nat.le_refl _, fun _ hp => ⟨_, hp, .rfl⟩⟩

theorem Beside.trans (h : Beside t a b) (k : Beside t b c) : Beside t a c where
  state := k.state.trans h.state
  now := k.now.trans h.now
  started := Nat.le_trans h.started k.started
  others := by
    intro u p hu hp
    obtain ⟨q, hq, hpq⟩ := h.others hu hp
    obtain ⟨r, hr, hqr⟩ := k.others hu hq
    exact ⟨r, hr, hpq.trans hqr⟩

theorem Rebooked.beside (h : a.Rebooked b) : Beside t a b :=
  ⟨h.state, h.now, h.started, fun _ hp => h.kept hp⟩

theorem beside_adjust (f : Process β ρ → Process β ρ) : Beside t a (a.adjust t f) :=
  ⟨.refl _, .refl _, Nat.le_refl _, fun hu hp =>
    ⟨_, (process?_adjust_of_ne a f hu).trans hp, .rfl⟩⟩

/-- Items and timers concern no task before they are taken up. -/
theorem beside_of_process?_eq (hs : b.state = a.state) (hn : b.now = a.now)
    (hc : b.started = a.started) (hp : ∀ u, u ≠ t → b.process? u = a.process? u) :
    Beside t a b :=
  ⟨hs, hn, Nat.le_of_eq hc.symm, fun hu h => ⟨_, (hp _ hu).trans h, .rfl⟩⟩

theorem beside_wake (w : Wake ρ) : Beside t a (a.wake t w) :=
  beside_of_process?_eq rfl rfl rfl fun u hu => by rw [process?_wake, if_neg hu]

theorem beside_finish (p : Process β ρ) (o : Outcome ρ) : Beside t a (a.finish t p o) := by
  unfold Agenda.finish
  cases p.key <;> cases p.audience
  all_goals exact beside_of_process?_eq rfl rfl rfl fun u hu => (process?_remove a t u).trans (if_neg hu)

theorem beside_park (body : β) (w : Waiting ρ) : Beside t a (a.park t body w) :=
  beside_adjust _

theorem beside_lay (body : β) (delay limit : Delay) (w : Wake ρ) :
    Beside t a (a.lay t body delay limit w) := by
  unfold Agenda.lay
  split
  · exact (beside_park body _).trans (beside_of_process?_eq rfl rfl rfl fun _ _ => rfl)
  · exact (beside_park body _).trans (beside_of_process?_eq rfl rfl rfl fun _ _ => rfl)

theorem beside_launchAll (ha : a.Numbered) (bodies : List β) :
    Beside t a (a.launchAll t bodies) := by
  have hl := launched_launchAll t bodies ha
  refine ⟨hl.state, hl.now, ?_, fun {u p} _ hp => ⟨p, ?_, .rfl⟩⟩
  · rw [hl.started]
    exact Nat.le_add_right _ _
  · rw [hl.process, if_pos (ha hp)]
    exact hp

/-- What a task does when it stops working. -/
theorem beside_settleTurn (ha : a.Numbered) (p : Process β ρ) (next : Next β ρ) :
    Beside t a (a.settleTurn t p next) := by
  have hstop : ∀ {b : Agenda σ β ρ}, Beside t a b → Beside t a (if p.stopping then
      (b.adjust t fun p => { p with stopping := false }).cancel t else b) := by
    intro b hb
    split
    · exact (hb.trans (beside_adjust _)).trans (rebooked_cancel _ t).beside
    · exact hb
  unfold Agenda.settleTurn
  cases next with
  | finish o => exact beside_finish _ _
  | pause body => exact (beside_park _ _).trans (beside_of_process?_eq rfl rfl rfl fun _ _ => rfl)
  | sleep delay limit body =>
      dsimp only
      split
      · exact ((beside_lay _ _ _ _).trans (beside_adjust _)).trans (beside_wake _)
      · exact beside_lay _ _ _ _
  | gather children body => exact hstop ((beside_launchAll ha _).trans (beside_park _ _))
  | collect children body => exact hstop ((beside_launchAll ha _).trans (beside_park _ _))
  | await body => exact hstop (beside_park _ _)

theorem Numbered.atWork (ha : a.Numbered) (s : σ) : (a.atWork t s).Numbered := by
  intro u q hq
  rw [process?_atWork] at hq
  split at hq
  · obtain ⟨r, hr, -⟩ := Option.map_eq_some_iff.mp hq
    exact ha hr
  · exact ha hq

/-- **A turn of a task**: the room changes as its stint has it, and the other tasks stay. -/
theorem beside_run (P : Program σ β ρ) (ha : a.Numbered) (t : TaskId) :
    Beside t { a with state := (a.stint? t).elim a.state fun s => (s.turn P).state }
      (a.run P t) := by
  cases runsTo P a t with
  | idle hw hs hr =>
      rw [hs, hr]
      exact .rfl
  | dropped hp hb hw hst hs hr =>
      rw [hs, hr]
      exact beside_finish _ _
  | delayed hp hb hw hd hs hr =>
      rw [hs, hr]
      exact (beside_adjust _).trans (beside_lay _ _ _ _)
  | @works p w v hp hw hv hb hs hr =>
      rw [hs, hr]
      obtain ⟨q, hq, hpq, hwork⟩ := work_eq_settleTurn ha hp p.body v (P := P)
      rw [hwork]
      have hbook := rebooked_bookAll (P a.now a.state p.body v).appointments
        (ha.atWork (t := t) (P a.now a.state p.body v).state)
      have hatWork : Beside t { a with state := (P a.now a.state p.body v).state }
          (a.atWork t (P a.now a.state p.body v).state) :=
        beside_of_process?_eq rfl rfl rfl fun u hu => by
          rw [process?_atWork, if_neg hu]
          rfl
      exact (hatWork.trans hbook.beside).trans
        (beside_settleTurn (hbook.numbered (ha.atWork _)) _ _)

/-- A task is told how one that it started has ended. -/
theorem beside_report (child : TaskId) (o : Outcome ρ) : Beside t a (a.report t child o) := by
  unfold Agenda.report
  split
  · exact .rfl
  · split
    · split
      · split
        · exact beside_wake _
        · dsimp only
          split
          · exact beside_wake _
          · exact beside_adjust _
      · exact .rfl
    · exact beside_wake _
    · exact beside_adjust _
    · exact .rfl

/-- The state after a ready item is taken. -/
theorem state_perform (P : Program σ β ρ) (ha : a.Numbered) (i : Item ρ) :
    (a.perform P i).state = match i with
      | .run t => (a.stint? t).elim a.state fun s => (s.turn P).state
      | .report .. => a.state := by
  cases i with
  | run t => exact (beside_run P ha t).state
  | report t c o => exact (beside_report c o).state

theorem now_perform (P : Program σ β ρ) (ha : a.Numbered) (i : Item ρ) :
    (a.perform P i).now = a.now := by
  cases i with
  | run t => exact (beside_run P ha t).now
  | report t c o => exact (beside_report c o).now

/-- Timers that go off change nothing but who has a turn. -/
theorem foldl_goOff {α : Type} {f : Agenda σ β ρ → α} (hf : ∀ a t w, f (wake a t w) = f a)
    (ms : List (Timer ρ)) (b : Agenda σ β ρ) : f (ms.foldl goOff b) = f b := by
  induction ms generalizing b with
  | nil => rfl
  | cons m ms ih =>
      rw [List.foldl_cons, ih]
      unfold goOff
      split
      · split
        · exact hf _ _ _
        · rfl
      · rfl

/-- The room does not change while time passes. -/
theorem state_passTo (a : Agenda σ β ρ) (time : Instant) : (a.passTo time).state = a.state :=
  foldl_goOff (f := (·.state)) (fun _ _ _ => rfl) _ _

end BuildingAlerts.Agenda
