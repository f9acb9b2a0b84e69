/-
Telling tasks to stop, and booking others in their place.

Whoever cancels a task, takes out what is booked for an alert or books something anew goes
through the same few changes: a task that waits for a time or for any of its own tasks gets its
turn at once, every other one is only marked, and what is booked begins from nothing. No task
works meanwhile, none ends, and nobody is told of anything. Nor
does it matter to those who wait when a task is started from outside. `Rebooked` says that much
of two agendas, and all ways of telling, booking and asking lead from one to such another.
-/
import BuildingAlerts.Proofs.Agenda.Process

set_option autoImplicit false

namespace BuildingAlerts

variable {σ β ρ : Type}

/-- What a task may have become when it, or another one, was told to stop. -/
structure Process.Told (p q : Process β ρ) : Prop where
  body : q.body = p.body
  audience : q.audience = p.audience
  key : q.key = p.key
  delay : q.delay = p.delay
  begun : q.begun = p.begun
  waiting : q.waiting = p.waiting ∨
    (p.waiting = .asleep ∨ p.waiting = .any) ∧ q.waiting = .queued (.stopped .cancelled)

theorem Process.Told.rfl {p : Process β ρ} : p.Told p :=
  ⟨.refl _, .refl _, .refl _, .refl _, .refl _, .inl (.refl _)⟩

theorem Process.Told.trans {p q r : Process β ρ} (h : p.Told q) (k : q.Told r) : p.Told r where
  body := k.body.trans h.body
  audience := k.audience.trans h.audience
  key := k.key.trans h.key
  delay := k.delay.trans h.delay
  begun := k.begun.trans h.begun
  waiting := by
    rcases h.waiting with hw | ⟨hw, hq⟩
    · rw [← hw]
      exact k.waiting
    · rcases k.waiting with kw | ⟨kw, -⟩
      · exact .inr ⟨hw, kw.trans hq⟩
      · rw [hq] at kw
        exact absurd kw (by simp)

/-- A mark changes nothing that matters. -/
theorem Process.told_stopping (p : Process β ρ) (b : Bool) : p.Told { p with stopping := b } :=
  ⟨.refl _, .refl _, .refl _, .refl _, .refl _, .inl (.refl _)⟩

/-- A task that no other one waits for and that has not begun. -/
structure Process.Outer (p : Process β ρ) : Prop where
  audience : ∀ t, p.audience ≠ .task t
  begun : p.begun = false
  waiting : p.waiting = .queued .start

namespace Agenda

/-- What comes of an agenda when some tasks are told to stop and others are booked. -/
structure Rebooked (a b : Agenda σ β ρ) : Prop where
  state : b.state = a.state
  now : b.now = a.now
  answer : b.answer = a.answer
  started : a.started ≤ b.started
  /-- Every task is still there. -/
  kept : ∀ {t p}, a.process? t = some p → ∃ q, b.process? t = some q ∧ p.Told q
  /-- What is new has not begun, and no task waits for it. -/
  added : ∀ {t q}, b.process? t = some q → a.process? t = none →
    a.started ≤ t ∧ t < b.started ∧ q.Outer
  /-- Tasks have got their turn, and nothing else is to be done that was not before. -/
  ready : ∃ ts : List TaskId, b.ready = a.ready ++ ts.map .run
  /-- A task that is not to go on as before has got its turn. -/
  turn : ∀ {t q w}, b.process? t = some q → q.waiting = .queued w →
    (∃ p, a.process? t = some p ∧ p.waiting = .queued w) ∨ .run t ∈ b.ready
  /-- Timers are only taken out, and the tasks of those that are left wait as before. -/
  timers : ∀ m ∈ b.timers, m ∈ a.timers ∧ ∀ {p q}, a.process? m.task = some p →
    b.process? m.task = some q → q.waiting = p.waiting

namespace Rebooked

theorem rfl {a : Agenda σ β ρ} : a.Rebooked a where
  state := .refl _
  now := .refl _
  answer := .refl _
  started := Nat.le_refl _
  kept := fun h => ⟨_, h, .rfl⟩
  added := fun hb ha => absurd (ha.symm.trans hb) (by simp)
  ready := ⟨[], (List.append_nil _).symm⟩
  turn := fun h hw => .inl ⟨_, h, hw⟩
  timers := fun _ hm => ⟨hm, fun hp hq => by rw [Option.some.inj (hp.symm.trans hq)]⟩

/-- What is to be done is still to be done. -/
theorem mem_ready {a b : Agenda σ β ρ} (h : a.Rebooked b) {i : Item ρ} (hi : i ∈ a.ready) :
    i ∈ b.ready := by
  obtain ⟨ts, hts⟩ := h.ready
  rw [hts]
  exact List.mem_append_left _ hi

/-- Where there is no task now, there was none before. -/
theorem process?_eq_none {a b : Agenda σ β ρ} (h : a.Rebooked b) {t : TaskId}
    (hb : b.process? t = none) : a.process? t = none := by
  cases ha : a.process? t with
  | none => rfl
  | some p =>
      obtain ⟨q, hq, -⟩ := h.kept ha
      exact nomatch hb.symm.trans hq

/-- What is there now was there before, or is new. -/
theorem process?_eq_some {a b : Agenda σ β ρ} (h : a.Rebooked b) {t : TaskId} {q : Process β ρ}
    (hq : b.process? t = some q) :
    (∃ p, a.process? t = some p ∧ p.Told q) ∨
      (a.process? t = none ∧ a.started ≤ t ∧ t < b.started ∧ q.Outer) := by
  cases ha : a.process? t with
  | none => exact .inr ⟨.refl _, h.added hq ha⟩
  | some p =>
      obtain ⟨r, hr, hpr⟩ := h.kept ha
      rw [Option.some.inj (hq.symm.trans hr)]
      exact .inl ⟨p, .refl _, hpr⟩

theorem trans {a b c : Agenda σ β ρ} (h : a.Rebooked b) (k : b.Rebooked c) : a.Rebooked c where
  state := k.state.trans h.state
  now := k.now.trans h.now
  answer := k.answer.trans h.answer
  started := Nat.le_trans h.started k.started
  kept := by
    intro t p hp
    obtain ⟨q, hq, hpq⟩ := h.kept hp
    obtain ⟨r, hr, hqr⟩ := k.kept hq
    exact ⟨r, hr, hpq.trans hqr⟩
  added := by
    intro t r hr hnone
    rcases k.process?_eq_some hr with ⟨q, hq, hqr⟩ | ⟨-, hle, hlt, houter⟩
    · obtain ⟨hle, hlt, houter⟩ := h.added hq hnone
      refine ⟨hle, Nat.lt_of_lt_of_le hlt k.started, fun u => hqr.audience ▸ houter.audience u,
        hqr.begun.trans houter.begun, ?_⟩
      rcases hqr.waiting with hw | ⟨hw, -⟩
      · exact hw.trans houter.waiting
      · rw [houter.waiting] at hw
        exact absurd hw (by simp)
    · exact ⟨Nat.le_trans h.started hle, hlt, houter⟩
  ready := by
    obtain ⟨ts, hts⟩ := h.ready
    obtain ⟨us, hus⟩ := k.ready
    refine ⟨ts ++ us, ?_⟩
    rw [hus, hts, List.map_append, List.append_assoc]
  turn := by
    intro t r w hr hw
    rcases k.turn hr hw with ⟨q, hq, hqw⟩ | hmem
    · rcases h.turn hq hqw with hp | hmem
      · exact .inl hp
      · exact .inr (k.mem_ready hmem)
    · exact .inr hmem
  timers := by
    intro m hm
    obtain ⟨hmb, hqr⟩ := k.timers m hm
    obtain ⟨hma, hpq⟩ := h.timers m hmb
    refine ⟨hma, fun {p r} hp hr => ?_⟩
    obtain ⟨q, hq, -⟩ := h.kept hp
    rw [hqr hq hr, hpq hp hq]

theorem numbered {a b : Agenda σ β ρ} (h : a.Rebooked b) (ha : a.Numbered) : b.Numbered := by
  intro t q hq
  rcases h.process?_eq_some hq with ⟨p, hp, -⟩ | ⟨-, -, hlt, -⟩
  · exact Nat.lt_of_lt_of_le (ha hp) h.started
  · exact hlt

end Rebooked

/-! ## Telling tasks to stop -/

/-- A change of tasks that leaves them as they are, but for marks. -/
theorem rebooked_adjust {a : Agenda σ β ρ} (t : TaskId) {f : Process β ρ → Process β ρ}
    (hf : ∀ p : Process β ρ, p.Told (f p)) (hw : ∀ p, (f p).waiting = p.waiting) :
    a.Rebooked (a.adjust t f) where
  state := .refl _
  now := .refl _
  answer := .refl _
  started := Nat.le_refl _
  kept := by
    intro u p hp
    rw [process?_adjust, hp]
    split
    · exact ⟨_, .refl _, hf p⟩
    · exact ⟨_, .refl _, .rfl⟩
  added := fun hb ha => absurd ((process?_adjust_eq_none a).mpr ha) (by rw [hb]; simp)
  ready := ⟨[], (List.append_nil _).symm⟩
  turn := by
    intro u q w hq hqw
    rw [process?_adjust] at hq
    split at hq
    · obtain ⟨p, hp, rfl⟩ := Option.map_eq_some_iff.mp hq
      rw [hw] at hqw
      exact .inl ⟨p, hp, hqw⟩
    · exact .inl ⟨q, hq, hqw⟩
  timers := by
    refine fun m hm => ⟨hm, fun {p q} hp hq => ?_⟩
    rw [process?_adjust, hp] at hq
    split at hq
    · rw [← Option.some.inj hq]
      exact hw p
    · rw [Option.some.inj hq]

/-- A task is marked. -/
theorem rebooked_mark (a : Agenda σ β ρ) (t : TaskId) (b : Bool) :
    a.Rebooked (a.adjust t fun p => { p with stopping := b }) :=
  rebooked_adjust t (fun p => p.told_stopping b) fun _ => .refl _

/-- A task that waits for a time or for any of its tasks is told to stop. -/
theorem rebooked_wake {a : Agenda σ β ρ} {t : TaskId} {p : Process β ρ}
    (hp : a.process? t = some p) (hw : p.waiting = .asleep ∨ p.waiting = .any) :
    a.Rebooked (a.wake t (.stopped .cancelled)) where
  state := .refl _
  now := .refl _
  answer := .refl _
  started := Nat.le_refl _
  kept := by
    intro u q hq
    rw [process?_wake, hq]
    split
    · rename_i hu
      rw [hu, hp] at hq
      rw [← Option.some.inj hq]
      exact ⟨_, .refl _, .refl _, .refl _, .refl _, .refl _, .refl _, .inr ⟨hw, .refl _⟩⟩
    · exact ⟨_, .refl _, .rfl⟩
  added := by
    intro u q hq hnone
    rw [process?_wake, hnone] at hq
    split at hq
    · exact nomatch hq
    · exact nomatch hq
  ready := ⟨[t], .refl _⟩
  turn := by
    intro u q w hq hqw
    rw [process?_wake] at hq
    split at hq
    · rename_i hu
      rw [hu]
      exact .inr (List.mem_append_right _ (List.mem_singleton.mpr (.refl _)))
    · exact .inl ⟨q, hq, hqw⟩
  timers := by
    intro m hm
    obtain ⟨hm, hne⟩ := List.mem_filter.mp hm
    refine ⟨hm, fun {q r} hq hr => ?_⟩
    rw [process?_wake, if_neg (of_decide_eq_true hne), hq] at hr
    rw [Option.some.inj hr]

private theorem rebooked_cancelAll_of {depth : Nat}
    (h : ∀ (a : Agenda σ β ρ) (t : TaskId), a.Rebooked (a.cancelWithin t depth).2)
    (ts : List TaskId) (a : Agenda σ β ρ) : a.Rebooked (a.cancelAll ts depth).2 := by
  induction ts generalizing a with
  | nil =>
      unfold cancelAll
      exact .rfl
  | cons t ts ih =>
      unfold cancelAll
      exact (h a t).trans (ih _)

/-- Telling a task to stop. The induction is on the depth, and each level goes through the
tasks that the one above it waits for. -/
theorem rebooked_cancelWithin (depth : Nat) (a : Agenda σ β ρ) (t : TaskId) :
    a.Rebooked (a.cancelWithin t depth).2 := by
  induction depth generalizing a t with
  | zero =>
      unfold cancelWithin
      exact .rfl
  | succ depth ih =>
      unfold cancelWithin
      split
      · exact .rfl
      · rename_i p hp
        split
        · exact rebooked_mark a t true
        · exact rebooked_mark a t true
        · rename_i hw
          exact rebooked_wake hp (.inl hw)
        · rename_i hw
          exact rebooked_wake hp (.inr hw)
        · rename_i children got hw
          have hall := rebooked_cancelAll_of ih children a
          dsimp only
          split
          · exact hall
          · exact hall.trans (rebooked_mark _ t true)

theorem rebooked_cancelAll (depth : Nat) (ts : List TaskId) (a : Agenda σ β ρ) :
    a.Rebooked (a.cancelAll ts depth).2 :=
  rebooked_cancelAll_of (rebooked_cancelWithin depth) ts a

theorem rebooked_cancel (a : Agenda σ β ρ) (t : TaskId) : a.Rebooked (a.cancel t) :=
  rebooked_cancelWithin _ a t

/-- A task that sleeps is woken when it is told to stop. -/
theorem cancel_of_asleep {a : Agenda σ β ρ} {t : TaskId} {p : Process β ρ}
    (hp : a.process? t = some p) (hw : p.waiting = .asleep) :
    a.cancel t = a.wake t (.stopped .cancelled) := by
  unfold cancel cancelWithin
  rw [hp]
  dsimp only
  rw [hw]

private theorem cancelAll_keeps {depth : Nat}
    (h : ∀ (a : Agenda σ β ρ) (t : TaskId), (a.cancelWithin t depth).2.started = a.started ∧
      (a.cancelWithin t depth).2.timetable = a.timetable)
    (ts : List TaskId) (a : Agenda σ β ρ) : (a.cancelAll ts depth).2.started = a.started ∧
      (a.cancelAll ts depth).2.timetable = a.timetable := by
  induction ts generalizing a with
  | nil =>
      unfold cancelAll
      exact ⟨rfl, rfl⟩
  | cons t ts ih =>
      unfold cancelAll
      exact ⟨(ih _).1.trans (h a t).1, (ih _).2.trans (h a t).2⟩

/-- Telling a task to stop starts none and books none. -/
theorem cancelWithin_keeps (depth : Nat) (a : Agenda σ β ρ) (t : TaskId) :
    (a.cancelWithin t depth).2.started = a.started ∧
      (a.cancelWithin t depth).2.timetable = a.timetable := by
  induction depth generalizing a t with
  | zero =>
      unfold cancelWithin
      exact ⟨rfl, rfl⟩
  | succ depth ih =>
      unfold cancelWithin
      split
      · exact ⟨rfl, rfl⟩
      · split
        · exact ⟨rfl, rfl⟩
        · exact ⟨rfl, rfl⟩
        · exact ⟨rfl, rfl⟩
        · exact ⟨rfl, rfl⟩
        · rename_i children got hw
          have hall := cancelAll_keeps ih children a
          dsimp only
          split
          · exact hall
          · exact hall

theorem started_cancelKey (a : Agenda σ β ρ) (key : String) :
    (a.cancelKey key).2.started = a.started := by
  unfold cancelKey
  split
  · rfl
  · exact (cancelWithin_keeps _ _ _).1

/-! ## Taking out bookings -/

/-- What is booked may change without any task noticing. -/
theorem rebooked_timetable (a : Agenda σ β ρ) (tt : Timetable) :
    a.Rebooked { a with timetable := tt } where
  state := .refl _
  now := .refl _
  answer := .refl _
  started := Nat.le_refl _
  kept := fun h => ⟨_, h, .rfl⟩
  added := fun hb ha => absurd (ha.symm.trans hb) (by simp)
  ready := ⟨[], (List.append_nil _).symm⟩
  turn := fun h hw => .inl ⟨_, h, hw⟩
  timers := fun _ hm => ⟨hm, fun hp hq => by rw [Option.some.inj (hp.symm.trans hq)]⟩

theorem rebooked_cancelKey (a : Agenda σ β ρ) (key : String) :
    a.Rebooked (a.cancelKey key).2 := by
  unfold cancelKey
  split
  · exact .rfl
  · exact (rebooked_timetable a _).trans (rebooked_cancel _ _)

theorem rebooked_cancelKeys (keys : List String) (a : Agenda σ β ρ) :
    a.Rebooked (a.cancelKeys keys).2 := by
  induction keys generalizing a with
  | nil => exact .rfl
  | cons key keys ih => exact (rebooked_cancelKey a key).trans (ih _)

theorem rebooked_cancelAlert (a : Agenda σ β ρ) (alertId : String) :
    a.Rebooked (a.cancelAlert alertId).2 :=
  rebooked_cancelKeys _ a

theorem rebooked_cancelBookings (a : Agenda σ β ρ) : a.Rebooked a.cancelBookings := by
  have hall : ∀ (ts : List TaskId) (b : Agenda σ β ρ), b.Rebooked (ts.foldl cancel b) := by
    intro ts
    induction ts with
    | nil => exact fun _ => .rfl
    | cons t ts ih => exact fun b => (rebooked_cancel b t).trans (ih _)
  exact (hall _ a).trans (rebooked_timetable _ _)

/-! ## Booking -/

/-- A task is started that no other one waits for. -/
theorem rebooked_start {a : Agenda σ β ρ} (ha : a.Numbered) {p : Process β ρ} (hp : p.Outer) :
    a.Rebooked (a.start p) where
  state := .refl _
  now := .refl _
  answer := .refl _
  started := Nat.le_succ _
  kept := by
    intro u q hq
    refine ⟨q, ?_, .rfl⟩
    rw [ha.process?_start, if_neg (Nat.ne_of_lt (ha hq))]
    exact hq
  added := by
    intro u q hq hnone
    rw [ha.process?_start] at hq
    split at hq
    · rename_i hu
      rw [← Option.some.inj hq]
      exact ⟨Nat.le_of_eq hu.symm, Nat.lt_succ_of_le (Nat.le_of_eq hu), hp⟩
    · exact nomatch hnone.symm.trans hq
  ready := ⟨[a.started], .refl _⟩
  turn := by
    intro u q w hq hqw
    rw [ha.process?_start] at hq
    split at hq
    · rename_i hu
      rw [hu]
      exact .inr (List.mem_append_right _ (List.mem_singleton.mpr (.refl _)))
    · exact .inl ⟨q, hq, hqw⟩
  timers := by
    refine fun m hm => ⟨hm, fun {q r} hq hr => ?_⟩
    rw [ha.process?_start, if_neg (Nat.ne_of_lt (ha hq)), hq] at hr
    rw [Option.some.inj hr]

theorem rebooked_launch {a : Agenda σ β ρ} (ha : a.Numbered) {w : Audience}
    (hw : ∀ t, w ≠ .task t) (body : β) : a.Rebooked (a.launch w body) :=
  rebooked_start ha ⟨hw, .refl _, .refl _⟩

theorem rebooked_book {a : Agenda σ β ρ} (ha : a.Numbered) (m : Appointment β) :
    a.Rebooked (a.book m) := by
  have hkey := rebooked_cancelKey a m.key
  have htable := hkey.trans (rebooked_timetable _
    ((a.cancelKey m.key).2.timetable.book m.key ⟨m.alertId, (a.cancelKey m.key).2.started⟩))
  exact htable.trans (rebooked_start (htable.numbered ha) ⟨by simp [Process.booked], .refl _, .refl _⟩)

theorem rebooked_bookAll (ms : List (Appointment β)) {a : Agenda σ β ρ} (ha : a.Numbered) :
    a.Rebooked (a.bookAll ms) := by
  induction ms generalizing a with
  | nil => exact .rfl
  | cons m ms ih =>
      have hm := rebooked_book ha m
      exact hm.trans (ih (hm.numbered ha))

/-- Every booking starts one task. -/
theorem started_bookAll (ms : List (Appointment β)) (a : Agenda σ β ρ) :
    (a.bookAll ms).started = a.started + ms.length := by
  induction ms generalizing a with
  | nil => rfl
  | cons m ms ih =>
      have hm : (a.book m).started = a.started + 1 := congrArg (· + 1) (started_cancelKey a m.key)
      show ((a.book m).bookAll ms).started = _
      rw [ih, hm, List.length_cons]
      omega

end Agenda

end BuildingAlerts
