/-
Marks.

Whoever is told to stop carries a mark until its next turn, or that turn is one to stop. Only the
turn of a task takes its mark off: whatever else happens to an agenda, those who are marked stay so.
`Heeds` says that of a change, apart from the task whose turn it is.
-/
import BuildingAlerts.Proofs.Agenda.Events

set_option autoImplicit false

namespace BuildingAlerts

variable {σ β ρ : Type}

namespace Process

/-- The task goes on only to stop. -/
def Marked (p : Process β ρ) : Prop :=
  p.stopping = true ∨ ∃ st, p.waiting = .queued (.stopped st)

/-- What may become of a task when it does not have its turn. -/
structure Heeds (p q : Process β ρ) : Prop where
  body : q.body = p.body
  key : q.key = p.key
  begun : q.begun = p.begun
  marked : p.Marked → q.Marked

theorem Heeds.rfl {p : Process β ρ} : p.Heeds p :=
  ⟨.refl _, .refl _, .refl _, id⟩

theorem Heeds.trans {p q r : Process β ρ} (h : p.Heeds q) (k : q.Heeds r) : p.Heeds r :=
  ⟨k.body.trans h.body, k.key.trans h.key, k.begun.trans h.begun, k.marked ∘ h.marked⟩

/-- The task gets a mark. -/
theorem heeds_mark (p : Process β ρ) : p.Heeds { p with stopping := true } :=
  ⟨.refl _, .refl _, .refl _, fun _ => .inl (.refl _)⟩

/-- A task that does not stop yet waits for something else. -/
theorem heeds_waiting {p : Process β ρ} (hp : ∀ st, p.waiting ≠ .queued (.stopped st))
    (w : Waiting ρ) : p.Heeds { p with waiting := w } := by
  refine ⟨.refl _, .refl _, .refl _, ?_⟩
  rintro (h | ⟨st, h⟩)
  · exact .inl h
  · exact absurd h (hp st)

/-- A marked task is doomed if its turn is to come. -/
theorem Marked.doomed {p : Process β ρ} (hm : p.Marked) {w : Wake ρ}
    (hw : p.waiting = .queued w) : p.Doomed := by
  rcases hm with hs | ⟨st, hst⟩
  · exact ⟨w, hw, .inl hs⟩
  · exact ⟨_, hst, .inr ⟨st, .refl _⟩⟩

end Process

namespace Agenda

variable {P : Program σ β ρ} {a b c : Agenda σ β ρ} {t : TaskId} {busy : Option TaskId}

/-- The tasks keep their marks, apart from the one whose turn it is. -/
structure Heeds (busy : Option TaskId) (a b : Agenda σ β ρ) : Prop where
  started : a.started ≤ b.started
  kept : ∀ {u p}, busy ≠ some u → a.process? u = some p → ∃ q, b.process? u = some q ∧ p.Heeds q
  gone : ∀ {u}, u < a.started → a.process? u = none → b.process? u = none

theorem Heeds.rfl : Heeds busy a a :=
  ⟨Nat.le_refl _, fun _ hp => ⟨_, hp, .rfl⟩, fun _ h => h⟩

theorem Heeds.trans (h : Heeds busy a b) (k : Heeds busy b c) : Heeds busy a c where
  started := Nat.le_trans h.started k.started
  kept := by
    intro u p hu hp
    obtain ⟨q, hq, hpq⟩ := h.kept hu hp
    obtain ⟨r, hr, hqr⟩ := k.kept hu hq
    exact ⟨r, hr, hpq.trans hqr⟩
  gone := fun hu hp => k.gone (Nat.lt_of_lt_of_le hu h.started) (h.gone hu hp)

/-- Who keeps all marks keeps those of all but one. -/
theorem Heeds.beside (h : Heeds none a b) : Heeds busy a b :=
  ⟨h.started, fun _ => h.kept nofun, h.gone⟩

/-- What was there before and is there afterwards. -/
theorem Heeds.of_some (h : Heeds busy a b) {u : TaskId} {q : Process β ρ} (hu : busy ≠ some u)
    (hlt : u < a.started) (hq : b.process? u = some q) :
    ∃ p, a.process? u = some p ∧ p.Heeds q := by
  cases hp : a.process? u with
  | none => exact nomatch hq.symm.trans (h.gone hlt hp)
  | some p =>
      obtain ⟨r, hr, hpr⟩ := h.kept hu hp
      obtain rfl := Option.some.inj (hr.symm.trans hq)
      exact ⟨p, .refl _, hpr⟩

/-! ## Single changes -/

/-- What is ready, the timers, the room, the time and the timetable do not matter. -/
theorem heeds_edit (hprocess : b.processes = a.processes) (hstarted : b.started = a.started) :
    Heeds busy a b := by
  have hp : b.process? = a.process? := by
    funext u
    unfold process?
    rw [hprocess]
  exact ⟨Nat.le_of_eq hstarted.symm, fun _ h => ⟨_, hp ▸ h, .rfl⟩, fun _ h => hp ▸ h⟩

theorem heeds_adjust {f : Process β ρ → Process β ρ}
    (hf : busy ≠ some t → ∀ p, a.process? t = some p → p.Heeds (f p)) :
    Heeds busy a (a.adjust t f) where
  started := Nat.le_refl _
  kept := by
    intro u p hbusy hp
    rw [process?_adjust]
    by_cases hu : u = t
    · subst hu
      rw [if_pos (.refl u), hp]
      exact ⟨f p, .refl _, hf hbusy p hp⟩
    · rw [if_neg hu]
      exact ⟨p, hp, .rfl⟩
  gone := fun _ => (process?_adjust_eq_none a).mpr

theorem heeds_wake (ht : busy ≠ some t → ∀ p, a.process? t = some p →
    ∀ st, p.waiting ≠ .queued (.stopped st)) (w : Wake ρ) : Heeds busy a (a.wake t w) :=
  (heeds_adjust fun hbusy p hp => Process.heeds_waiting (ht hbusy p hp) _).trans
    (heeds_edit (.refl _) (.refl _))

/-- The task waits for something that is no turn to stop. -/
theorem heeds_wake_of {p : Process β ρ} (hp : a.process? t = some p)
    (hw : ∀ st, p.waiting ≠ .queued (.stopped st)) (w : Wake ρ) : Heeds busy a (a.wake t w) := by
  apply heeds_wake
  intro _ q hq
  obtain rfl := Option.some.inj (hp.symm.trans hq)
  exact hw

/-- The task whose turn it is may do anything. -/
theorem heeds_adjust_busy (f : Process β ρ → Process β ρ) : Heeds (some t) a (a.adjust t f) :=
  heeds_adjust fun h => absurd rfl h

theorem heeds_start (ha : a.Numbered) (p : Process β ρ) : Heeds busy a (a.start p) where
  started := Nat.le_succ _
  kept := by
    intro u q _ hq
    rw [ha.process?_start, if_neg (Nat.ne_of_lt (ha hq))]
    exact ⟨q, hq, .rfl⟩
  gone := by
    intro u hu hp
    rw [ha.process?_start, if_neg (Nat.ne_of_lt hu)]
    exact hp

/-! ## Telling tasks to stop -/

private theorem heeds_cancelAll_of {depth : Nat}
    (h : ∀ (a : Agenda σ β ρ) (t : TaskId), Heeds none a (a.cancelWithin t depth).2)
    (ts : List TaskId) (a : Agenda σ β ρ) : Heeds none a (a.cancelAll ts depth).2 := by
  induction ts generalizing a with
  | nil =>
      unfold cancelAll
      exact .rfl
  | cons t ts ih =>
      unfold cancelAll
      exact (h a t).trans (ih _)

theorem heeds_cancelWithin (depth : Nat) (a : Agenda σ β ρ) (t : TaskId) :
    Heeds none a (a.cancelWithin t depth).2 := by
  induction depth generalizing a t with
  | zero =>
      unfold cancelWithin
      exact .rfl
  | succ depth ih =>
      have hmark : ∀ b : Agenda σ β ρ,
          Heeds none b (b.adjust t fun p => { p with stopping := true }) :=
        fun b => heeds_adjust fun _ p _ => p.heeds_mark
      unfold cancelWithin
      split
      · exact .rfl
      · rename_i p hp
        split
        · exact hmark a
        · exact hmark a
        · rename_i hw
          exact heeds_wake_of hp (by simp [hw]) _
        · rename_i hw
          exact heeds_wake_of hp (by simp [hw]) _
        · rename_i children got hw
          have hall := heeds_cancelAll_of ih children a
          dsimp only
          split
          · exact hall
          · exact hall.trans (hmark _)

theorem heeds_cancelAll (depth : Nat) (a : Agenda σ β ρ) (ts : List TaskId) :
    Heeds none a (a.cancelAll ts depth).2 :=
  heeds_cancelAll_of (heeds_cancelWithin depth) ts a

theorem heeds_cancel (a : Agenda σ β ρ) (t : TaskId) : Heeds none a (a.cancel t) :=
  heeds_cancelWithin _ a t

theorem heeds_cancelKey (a : Agenda σ β ρ) (key : String) : Heeds none a (a.cancelKey key).2 := by
  unfold cancelKey
  split
  · exact .rfl
  · rename_i b _
    have hforget : Heeds none a { a with timetable := a.timetable.forget key b.task } :=
      heeds_edit (.refl _) (.refl _)
    exact hforget.trans (heeds_cancel _ _)

theorem heeds_cancelAlert (a : Agenda σ β ρ) (alertId : String) :
    Heeds none a (a.cancelAlert alertId).2 := by
  have hall : ∀ (keys : List String) (b : Agenda σ β ρ), Heeds none b (b.cancelKeys keys).2 := by
    intro keys
    induction keys with
    | nil => exact fun _ => .rfl
    | cons key keys ih => exact fun b => (heeds_cancelKey b key).trans (ih _)
  exact hall _ a

theorem heeds_foldl_cancel (ts : List TaskId) (a : Agenda σ β ρ) :
    Heeds none a (ts.foldl cancel a) := by
  induction ts generalizing a with
  | nil => exact .rfl
  | cons t ts ih => exact (heeds_cancel a t).trans (ih _)

theorem heeds_book (ha : a.Numbered) (m : Appointment β) : Heeds none a (a.book m) := by
  have hstart : ∀ (c : Agenda σ β ρ) (tt : Timetable) (p : Process β ρ), c.Numbered →
      Heeds none c (Agenda.start { c with timetable := tt } p) := by
    intro c tt p hc
    have htable : Heeds none c { c with timetable := tt } := heeds_edit (.refl _) (.refl _)
    exact htable.trans (heeds_start (a := { c with timetable := tt }) hc p)
  exact (heeds_cancelKey a m.key).trans
    (hstart _ _ _ ((rebooked_cancelKey a m.key).numbered ha))

theorem heeds_bookAll (ms : List (Appointment β)) (ha : a.Numbered) :
    Heeds none a (a.bookAll ms) := by
  induction ms generalizing a with
  | nil => exact .rfl
  | cons m ms ih => exact (heeds_book ha m).trans (ih ((rebooked_book ha m).numbered ha))

/-! ## Turns and reports -/

theorem heeds_finish (p : Process β ρ) (o : Outcome ρ) : Heeds (some t) a (a.finish t p o) := by
  obtain ⟨hprocess, -, hstarted⟩ := process?_timetable_finish a t p o
  refine ⟨Nat.le_of_eq hstarted.symm, ?_, ?_⟩
  · intro u q hu hq
    have hne : u ≠ t := fun h => hu (congrArg some h.symm)
    rw [hprocess, if_neg hne]
    exact ⟨q, hq, .rfl⟩
  · intro u _ hu
    rw [hprocess, hu]
    exact ite_self none

theorem heeds_park (body : β) (w : Waiting ρ) : Heeds (some t) a (a.park t body w) :=
  heeds_adjust_busy _

theorem heeds_lay (body : β) (delay limit : Delay) (w : Wake ρ) :
    Heeds (some t) a (a.lay t body delay limit w) := by
  unfold lay
  split
  · exact (heeds_park body (.queued w)).trans (heeds_edit rfl rfl)
  · exact (heeds_park body .asleep).trans (heeds_edit rfl rfl)

theorem heeds_launchAll (ha : a.Numbered) (parent : TaskId) (bodies : List β) :
    Heeds none a (a.launchAll parent bodies) := by
  induction bodies generalizing a with
  | nil => exact .rfl
  | cons body bodies ih => exact (heeds_start ha _).trans (ih (ha.start _))

theorem heeds_settleTurn (ha : a.Numbered) (p : Process β ρ) (next : Next β ρ) :
    Heeds (some t) a (a.settleTurn t p next) := by
  have hstop : ∀ {b : Agenda σ β ρ}, Heeds (some t) a b → Heeds (some t) a (if p.stopping then
      (b.adjust t fun p => { p with stopping := false }).cancel t else b) := by
    intro b hb
    split
    · exact (hb.trans (heeds_adjust_busy _)).trans (heeds_cancel _ t).beside
    · exact hb
  unfold settleTurn
  cases next with
  | finish o => exact heeds_finish _ _
  | pause body => exact (heeds_park body (.queued .resumed)).trans (heeds_edit rfl rfl)
  | sleep delay limit body =>
      dsimp only
      split
      · exact ((heeds_lay body _ _ _).trans (heeds_adjust_busy _)).trans
          (heeds_wake (fun h => absurd rfl h) _)
      · exact heeds_lay _ _ _ _
  | gather children body =>
      exact hstop ((heeds_launchAll ha t _).beside.trans (heeds_park _ _))
  | collect children body =>
      exact hstop ((heeds_launchAll ha t _).beside.trans (heeds_park _ _))
  | await body => exact hstop (heeds_park _ _)

/-- A turn of a task leaves the marks of the others. -/
theorem heeds_run (P : Program σ β ρ) (ha : a.Numbered) (t : TaskId) :
    Heeds (some t) a (a.run P t) := by
  cases runsTo P a t with
  | idle hw hs hr =>
      rw [hr]
      exact .rfl
  | dropped hp hb hw hst hs hr =>
      rw [hr]
      exact heeds_finish _ _
  | delayed hp hb hw hd hs hr =>
      rw [hr]
      exact (heeds_adjust_busy _).trans (heeds_lay _ _ _ _)
  | @works p w v hp hw hv hb hs hr =>
      rw [hr]
      obtain ⟨q, -, -, hwork⟩ := work_eq_settleTurn ha hp p.body v (P := P)
      rw [hwork]
      have hatWork : Heeds (some t) a (a.atWork t (P a.now a.state p.body v).state) :=
        (heeds_adjust_busy fun p => { p with waiting := .working, begun := true, stopping := false }).trans
          (heeds_edit rfl rfl)
      have hbook := heeds_bookAll (P a.now a.state p.body v).appointments
        (ha.atWork (t := t) (P a.now a.state p.body v).state)
      have hrebooked := rebooked_bookAll (P a.now a.state p.body v).appointments
        (ha.atWork (t := t) (P a.now a.state p.body v).state)
      exact (hatWork.trans hbook.beside).trans
        (heeds_settleTurn (hrebooked.numbered (ha.atWork _)) _ _)

theorem heeds_report (a : Agenda σ β ρ) (t child : TaskId) (o : Outcome ρ) :
    Heeds none a (a.report t child o) := by
  unfold report
  cases hp : a.process? t with
  | none => exact .rfl
  | some p =>
      have hadjust : (∀ st, p.waiting ≠ .queued (.stopped st)) → ∀ w : Waiting ρ,
          Heeds none a (a.adjust t fun p => { p with waiting := w }) := by
        intro hw w
        apply heeds_adjust
        intro _ q hq
        obtain rfl := Option.some.inj (hp.symm.trans hq)
        exact Process.heeds_waiting hw w
      dsimp only
      cases hw : p.waiting with
      | all children got =>
          have hwake : ∀ w, Heeds none a (a.wake t w) := heeds_wake_of hp (by simp [hw])
          dsimp only
          split
          · cases o with
            | error st => exact hwake _
            | ok r =>
                dsimp only
                split
                · exact hwake _
                · exact hadjust (by simp [hw]) _
          · exact .rfl
      | any => exact heeds_wake_of hp (by simp [hw]) _
      | queued w =>
          cases w with
          | arrived os => exact hadjust (by simp [hw]) _
          | _ => exact .rfl
      | _ => exact .rfl

theorem heeds_passTo (a : Agenda σ β ρ) (time : Instant) : Heeds none a (a.passTo time) := by
  have hall : ∀ (ms : List (Timer ρ)) (b : Agenda σ β ρ), Heeds none b (ms.foldl goOff b) := by
    intro ms
    induction ms with
    | nil => exact fun _ => .rfl
    | cons m ms ih =>
        intro b
        refine Heeds.trans ?_ (ih _)
        unfold goOff
        cases hp : b.process? m.task with
        | none => exact .rfl
        | some p =>
            dsimp only
            cases hw : p.waiting with
            | asleep => exact heeds_wake_of hp (by simp [hw]) _
            | _ => exact .rfl
  unfold passTo
  rw [List.partition_eq_filter_filter]
  have hlater : ∀ ms, Heeds none a { a with now := time, timers := ms } :=
    fun _ => heeds_edit rfl rfl
  exact (hlater _).trans (hall _ _)

end Agenda

end BuildingAlerts
