/-
Booked tasks and their bookings.

A booking is taken out when its task ends, when somebody cancels it, and when another task is booked
under its key; in the last two cases the task is told to stop as well. `Tidy` is the invariant that
follows: the lists of keys agree with what is booked, a booking belongs to a task under way that was
booked under that key, and a booked task whose booking is gone is doomed if it has not begun. A doomed
task has been told to stop and ends with its next turn.

A change of an agenda never brings a booking back to a task that has lost it, and it never saves a task
that is doomed. `Proceeds` says that much of any change.
-/
import BuildingAlerts.Proofs.Agenda.Timetable
import BuildingAlerts.Proofs.Agenda.Working

set_option autoImplicit false

namespace BuildingAlerts

variable {σ β ρ : Type}

/-! ## Tasks that have not begun -/

namespace Process

/-- The task waits for its turn or for a time. -/
def Waits (p : Process β ρ) : Prop :=
  p.waiting = .asleep ∨ ∃ w, p.waiting = .queued w

/-- The task was told to stop, and its next turn is to come. -/
def Doomed (p : Process β ρ) : Prop :=
  ∃ w, p.waiting = .queued w ∧ (p.stopping = true ∨ ∃ st, w = .stopped st)

/-- What may become of a task: it keeps its key, it does not begin twice, and once it is doomed
before it has begun it stays so. -/
structure Minds (p q : Process β ρ) : Prop where
  key : q.key = p.key
  begun : p.begun = true → q.begun = true
  waits : q.begun = false → p.Waits → q.Waits
  doomed : p.begun = false → p.Doomed → q.begun = false ∧ q.Doomed

theorem Minds.rfl {p : Process β ρ} : p.Minds p :=
  ⟨.refl _, id, fun _ h => h, fun hb h => ⟨hb, h⟩⟩

theorem Minds.trans {p q r : Process β ρ} (h : p.Minds q) (k : q.Minds r) : p.Minds r where
  key := k.key.trans h.key
  begun := fun hp => k.begun (h.begun hp)
  waits := by
    intro hr hp
    cases hq : q.begun with
    | true => exact nomatch hr.symm.trans (k.begun hq)
    | false => exact k.waits hr (h.waits hq hp)
  doomed := by
    intro hb hp
    obtain ⟨hq, hdoomed⟩ := h.doomed hb hp
    exact k.doomed hq hdoomed

/-- A task that has begun may wait for anything. -/
theorem minds_of_begun {p q : Process β ρ} (hkey : q.key = p.key) (hp : p.begun = true)
    (hq : q.begun = true) : p.Minds q where
  key := hkey
  begun := fun _ => hq
  waits := fun h => nomatch hq.symm.trans h
  doomed := fun h => nomatch hp.symm.trans h

/-- A task that does not wait for its turn gets it. -/
theorem minds_queued {p : Process β ρ} (hp : ∀ w, p.waiting ≠ .queued w) (w : Wake ρ) :
    p.Minds { p with waiting := .queued w } where
  key := .refl _
  begun := id
  waits := fun _ _ => .inr ⟨w, .refl _⟩
  doomed := by
    rintro - ⟨v, hv, -⟩
    exact absurd hv (hp v)

/-- A task is marked. -/
theorem minds_marked (p : Process β ρ) : p.Minds { p with stopping := true } where
  key := .refl _
  begun := id
  waits := fun _ h => h
  doomed := by
    rintro hb ⟨w, hw, -⟩
    exact ⟨hb, w, hw, .inl (.refl _)⟩

end Process

namespace Agenda

variable {a b c : Agenda σ β ρ} {t : TaskId} {key : String}

/-- The task that is booked under a key. -/
def Registered (a : Agenda σ β ρ) (key : String) (t : TaskId) : Prop :=
  ∃ b, a.timetable.bookings.get? key = some b ∧ b.task = t

/-! ## Changes without bookings -/

/-- The tasks go on waiting, and nothing is booked or taken out. -/
structure Moves (a b : Agenda σ β ρ) : Prop where
  started : b.started = a.started
  timetable : b.timetable = a.timetable
  kept : ∀ {u p}, a.process? u = some p → ∃ q, b.process? u = some q ∧ p.Minds q
  gone : ∀ {u}, a.process? u = none → b.process? u = none

theorem Moves.rfl : Moves a a :=
  ⟨.refl _, .refl _, fun h => ⟨_, h, .rfl⟩, id⟩

theorem Moves.trans (h : Moves a b) (k : Moves b c) : Moves a c where
  started := k.started.trans h.started
  timetable := k.timetable.trans h.timetable
  kept := by
    intro u p hp
    obtain ⟨q, hq, hpq⟩ := h.kept hp
    obtain ⟨r, hr, hqr⟩ := k.kept hq
    exact ⟨r, hr, hpq.trans hqr⟩
  gone := fun hu => k.gone (h.gone hu)

/-- What is there afterwards was there before. -/
theorem Moves.of_some (h : Moves a b) {u : TaskId} {q : Process β ρ} (hq : b.process? u = some q) :
    ∃ p, a.process? u = some p ∧ p.Minds q := by
  cases hp : a.process? u with
  | none => exact nomatch hq.symm.trans (h.gone hp)
  | some p =>
      obtain ⟨r, hr, hpr⟩ := h.kept hp
      obtain rfl := Option.some.inj (hr.symm.trans hq)
      exact ⟨p, .refl _, hpr⟩

/-- What is ready, the timers, the room, the time and the answer do not matter. -/
theorem moves_edit (hprocess : b.processes = a.processes) (hstarted : b.started = a.started)
    (htable : b.timetable = a.timetable) : Moves a b := by
  have hp : b.process? = a.process? := by
    funext u
    unfold process?
    rw [hprocess]
  exact ⟨hstarted, htable, fun h => ⟨_, hp ▸ h, .rfl⟩, fun h => hp ▸ h⟩

theorem moves_adjust {f : Process β ρ → Process β ρ}
    (hf : ∀ p, a.process? t = some p → p.Minds (f p)) : Moves a (a.adjust t f) where
  started := .refl _
  timetable := .refl _
  kept := by
    intro u p hp
    rw [process?_adjust]
    by_cases hu : u = t
    · rw [if_pos hu, hp]
      exact ⟨f p, .refl _, hf p (hu ▸ hp)⟩
    · rw [if_neg hu]
      exact ⟨p, hp, .rfl⟩
  gone := (process?_adjust_eq_none a).mpr

theorem moves_wake (ht : ∀ p, a.process? t = some p → ∀ w, p.waiting ≠ .queued w) (w : Wake ρ) :
    Moves a (a.wake t w) :=
  (moves_adjust fun p hp => Process.minds_queued (ht p hp) w).trans
    (moves_edit (.refl _) (.refl _) (.refl _))

/-- A task that does not wait for its turn is woken up. -/
theorem moves_wake_of {p : Process β ρ} (hp : a.process? t = some p)
    (hw : ∀ w, p.waiting ≠ .queued w) (w : Wake ρ) : Moves a (a.wake t w) := by
  apply moves_wake
  intro q hq
  obtain rfl := Option.some.inj (hp.symm.trans hq)
  exact hw

private theorem moves_cancelAll {depth : Nat}
    (h : ∀ (a : Agenda σ β ρ) (t : TaskId), Moves a (a.cancelWithin t depth).2)
    (ts : List TaskId) (a : Agenda σ β ρ) : Moves a (a.cancelAll ts depth).2 := by
  induction ts generalizing a with
  | nil =>
      unfold cancelAll
      exact .rfl
  | cons t ts ih =>
      unfold cancelAll
      exact (h a t).trans (ih _)

theorem moves_cancelWithin (depth : Nat) (a : Agenda σ β ρ) (t : TaskId) :
    Moves a (a.cancelWithin t depth).2 := by
  induction depth generalizing a t with
  | zero =>
      unfold cancelWithin
      exact .rfl
  | succ depth ih =>
      unfold cancelWithin
      split
      · exact .rfl
      · rename_i p hp
        split
        · exact moves_adjust fun q _ => Process.minds_marked q
        · exact moves_adjust fun q _ => Process.minds_marked q
        · rename_i hw
          exact moves_wake_of hp (by simp [hw]) _
        · rename_i hw
          exact moves_wake_of hp (by simp [hw]) _
        · rename_i children got hw
          have hall := moves_cancelAll ih children a
          dsimp only
          split
          · exact hall
          · exact hall.trans (moves_adjust fun q _ => Process.minds_marked q)

theorem moves_cancel (a : Agenda σ β ρ) (t : TaskId) : Moves a (a.cancel t) :=
  moves_cancelWithin _ a t

/-- A task that has not begun is doomed when it is told to stop. -/
theorem doomed_cancel {p : Process β ρ} (hp : a.process? t = some p) (hw : p.Waits) :
    ∃ q, (a.cancel t).process? t = some q ∧ q.Doomed := by
  unfold cancel cancelWithin
  rw [hp]
  dsimp only
  rcases hw with hw | ⟨w, hw⟩
  · rw [hw]
    refine ⟨_, (process?_wake a t t _).trans (by rw [if_pos rfl, hp]; rfl), ?_⟩
    exact ⟨_, rfl, .inr ⟨_, rfl⟩⟩
  · rw [hw]
    refine ⟨_, (process?_adjust_self a t _).trans (by rw [hp]; rfl), ?_⟩
    exact ⟨w, hw, .inl rfl⟩

/-- Of some tasks that are told to stop, each is doomed if it has not begun. -/
theorem doomed_foldl_cancel (ts : List TaskId) (a : Agenda σ β ρ) :
    Moves a (ts.foldl cancel a) ∧ ∀ t ∈ ts, ∀ p q, a.process? t = some p → p.Waits →
      (ts.foldl cancel a).process? t = some q → q.begun = false → q.Doomed := by
  induction ts generalizing a with
  | nil => exact ⟨.rfl, fun t ht => absurd ht List.not_mem_nil⟩
  | cons u ts ih =>
      obtain ⟨hmoves, hdoomed⟩ := ih (a.cancel u)
      refine ⟨(moves_cancel a u).trans hmoves, ?_⟩
      intro t ht p q hp hw hq hbegun
      obtain ⟨r, hr, hpr⟩ := (moves_cancel a u).kept hp
      obtain ⟨q', hq', hrq⟩ := hmoves.kept hr
      obtain rfl := Option.some.inj (hq'.symm.trans hq)
      have hrbegun : r.begun = false := by
        cases h : r.begun with
        | false => rfl
        | true => exact nomatch hbegun.symm.trans (hrq.begun h)
      rcases List.mem_cons.mp ht with rfl | ht
      · obtain ⟨r', hr', hd⟩ := doomed_cancel hp hw
        obtain rfl := Option.some.inj (hr'.symm.trans hr)
        exact (hrq.doomed hrbegun hd).2
      · exact hdoomed t ht r q' hr (hpr.waits hrbegun hw) hq hbegun

/-! ## What any change does -/

/-- No booking comes back to a task that has lost it, and no doomed task is saved. -/
structure Proceeds (a b : Agenda σ β ρ) : Prop where
  started : a.started ≤ b.started
  old : ∀ {u q}, u < a.started → b.process? u = some q → ∃ p, a.process? u = some p ∧ p.Minds q
  registered : ∀ {key u}, u < a.started → b.Registered key u → a.Registered key u

theorem Proceeds.rfl : Proceeds a a :=
  ⟨Nat.le_refl _, fun _ h => ⟨_, h, .rfl⟩, fun _ h => h⟩

theorem Proceeds.trans (h : Proceeds a b) (k : Proceeds b c) : Proceeds a c where
  started := Nat.le_trans h.started k.started
  old := by
    intro u r hu hr
    obtain ⟨q, hq, hqr⟩ := k.old (Nat.lt_of_lt_of_le hu h.started) hr
    obtain ⟨p, hp, hpq⟩ := h.old hu hq
    exact ⟨p, hp, hpq.trans hqr⟩
  registered := fun hu hr => h.registered hu (k.registered (Nat.lt_of_lt_of_le hu h.started) hr)

theorem Moves.proceeds (h : Moves a b) : Proceeds a b where
  started := Nat.le_of_eq h.started.symm
  old := fun _ hq => h.of_some hq
  registered := by
    rintro key u - ⟨x, hx, hxu⟩
    rw [h.timetable] at hx
    exact ⟨x, hx, hxu⟩

/-! ## The invariant -/

/-- The bookings are those of tasks under way, and a booked task that has lost its booking does not
begin any more. -/
structure Tidy (a : Agenda σ β ρ) : Prop where
  numbered : a.Numbered
  agrees : a.timetable.Agrees
  booked : ∀ {key b}, a.timetable.bookings.get? key = some b →
    ∃ p, a.process? b.task = some p ∧ p.key = some key
  waits : ∀ {t p}, a.process? t = some p → p.begun = false → p.Waits
  doomed : ∀ {t p key}, a.process? t = some p → p.key = some key → p.begun = false →
    ¬ a.Registered key t → p.Doomed

theorem tidy_idle (s : σ) : Tidy (idle s : Agenda σ β ρ) where
  numbered := fun hp => nomatch hp
  agrees := Timetable.agrees_empty
  booked := fun h => nomatch h
  waits := fun hp => nomatch hp
  doomed := fun hp => nomatch hp

theorem Tidy.moves (ha : Tidy a) (h : Moves a b) : Tidy b where
  numbered := by
    intro u q hq
    obtain ⟨p, hp, -⟩ := h.of_some hq
    rw [h.started]
    exact ha.numbered hp
  agrees := h.timetable ▸ ha.agrees
  booked := by
    intro key x hx
    rw [h.timetable] at hx
    obtain ⟨p, hp, hkey⟩ := ha.booked hx
    obtain ⟨q, hq, hpq⟩ := h.kept hp
    exact ⟨q, hq, hpq.key.trans hkey⟩
  waits := by
    intro u q hq hbegun
    obtain ⟨p, hp, hpq⟩ := h.of_some hq
    cases hb : p.begun with
    | true => exact nomatch hbegun.symm.trans (hpq.begun hb)
    | false => exact hpq.waits hbegun (ha.waits hp hb)
  doomed := by
    intro u q key hq hkey hbegun hno
    obtain ⟨p, hp, hpq⟩ := h.of_some hq
    cases hb : p.begun with
    | true => exact nomatch hbegun.symm.trans (hpq.begun hb)
    | false =>
        refine (hpq.doomed hb (ha.doomed hp (hpq.key ▸ hkey) hb fun hr => hno ?_)).2
        obtain ⟨x, hx, hxu⟩ := hr
        exact ⟨x, h.timetable ▸ hx, hxu⟩

/-! ## Taking bookings out -/

/-- What is booked under the other keys when a booking is taken out. -/
theorem get?_cancelKey (a : Agenda σ β ρ) (key k : String) :
    (a.cancelKey key).2.timetable.bookings.get? k
      = if k = key then none else a.timetable.bookings.get? k := by
  unfold cancelKey
  cases hb : a.timetable.bookings.get? key with
  | none =>
      by_cases hk : k = key
      · rw [if_pos hk, hk]
        exact hb
      · rw [if_neg hk]
  | some b =>
      have htable : ({ a with timetable := a.timetable.forget key b.task }.cancel b.task).timetable
          = a.timetable.forget key b.task := (cancelWithin_keeps _ _ _).2
      dsimp only
      rw [htable]
      exact Timetable.get?_forget hb k

/-- A booking is taken out, and its task is told to stop. -/
theorem Tidy.cancelKey (ha : Tidy a) (key : String) : Tidy (a.cancelKey key).2 := by
  unfold Agenda.cancelKey
  cases hb : a.timetable.bookings.get? key with
  | none => exact ha
  | some b =>
      have hmoves := moves_cancel { a with timetable := a.timetable.forget key b.task } b.task
      have hdoomed := fun p => doomed_cancel (p := p) (t := b.task)
        (a := { a with timetable := a.timetable.forget key b.task })
      dsimp only
      generalize ({ a with timetable := a.timetable.forget key b.task }.cancel b.task) = c
        at hmoves hdoomed ⊢
      have htable : c.timetable = a.timetable.forget key b.task := hmoves.timetable
      have hsome : ∀ {u q}, c.process? u = some q → ∃ p, a.process? u = some p ∧ p.Minds q :=
        hmoves.of_some
      have hfresh : ∀ {p q : Process β ρ}, p.Minds q → q.begun = false → p.begun = false := by
        intro p q hpq hq
        cases hp : p.begun with
        | true => exact nomatch hq.symm.trans (hpq.begun hp)
        | false => rfl
      refine {
        numbered := ?_
        agrees := htable ▸ ha.agrees.forget key b.task
        booked := ?_
        waits := ?_
        doomed := ?_ }
      · intro u q hq
        obtain ⟨p, hp, -⟩ := hsome hq
        rw [hmoves.started]
        exact ha.numbered hp
      · intro k x hx
        rw [htable] at hx
        obtain ⟨p, hp, hkey⟩ := ha.booked (Timetable.get?_of_forget hx)
        obtain ⟨q, hq, hpq⟩ := hmoves.kept hp
        exact ⟨q, hq, hpq.key.trans hkey⟩
      · intro u q hq hbegun
        obtain ⟨p, hp, hpq⟩ := hsome hq
        exact hpq.waits hbegun (ha.waits hp (hfresh hpq hbegun))
      · intro u q k hq hkey hbegun hno
        obtain ⟨p, hp, hpq⟩ := hsome hq
        have hpb := hfresh hpq hbegun
        by_cases hu : u = b.task
        · -- the task that was booked is told to stop now
          subst hu
          obtain ⟨q', hq', hd⟩ := hdoomed p hp (ha.waits hp hpb)
          obtain rfl := Option.some.inj (hq'.symm.trans hq)
          exact hd
        · refine (hpq.doomed hpb (ha.doomed hp (hpq.key ▸ hkey) hpb ?_)).2
          rintro ⟨x, hx, rfl⟩
          refine hno ⟨x, ?_, rfl⟩
          rw [htable]
          exact Timetable.get?_forget_of_ne hx hu

theorem proceeds_cancelKey (a : Agenda σ β ρ) (key : String) :
    Proceeds a (a.cancelKey key).2 := by
  have hget := get?_cancelKey a key
  refine ⟨Nat.le_of_eq (started_cancelKey a key).symm, ?_, ?_⟩
  · intro u q _ hq
    unfold cancelKey at hq
    split at hq
    · exact ⟨q, hq, .rfl⟩
    · rename_i b _
      exact (moves_cancel { a with timetable := a.timetable.forget key b.task } b.task).of_some hq
  · rintro k u - ⟨x, hx, hxu⟩
    rw [hget] at hx
    split at hx
    · exact nomatch hx
    · exact ⟨x, hx, hxu⟩

/-- What is booked when some keys were taken out, and how many of them were booked. -/
theorem get?_cancelKeys (keys : List String) (a : Agenda σ β ρ) (k : String) :
    (a.cancelKeys keys).2.timetable.bookings.get? k
      = if k ∈ keys then none else a.timetable.bookings.get? k := by
  induction keys generalizing a with
  | nil => simp [cancelKeys]
  | cons key keys ih =>
      show ((a.cancelKey key).2.cancelKeys keys).2.timetable.bookings.get? k = _
      rw [ih, get?_cancelKey]
      by_cases hk : k = key
      · simp [hk]
      · simp [hk]

theorem fst_cancelKey (a : Agenda σ β ρ) (key : String) :
    (a.cancelKey key).1 = (a.timetable.bookings.get? key).isSome := by
  unfold cancelKey
  cases a.timetable.bookings.get? key with
  | none => rfl
  | some b => rfl

/-- Keys that are booked are counted, each once. -/
theorem fst_cancelKeys {keys : List String} (hkeys : keys.Nodup) {a : Agenda σ β ρ}
    (hbooked : ∀ k ∈ keys, (a.timetable.bookings.get? k).isSome = true) :
    (a.cancelKeys keys).1 = keys.length := by
  induction keys generalizing a with
  | nil => rfl
  | cons key keys ih =>
      rw [List.nodup_cons] at hkeys
      have hrest : ∀ k ∈ keys,
          ((a.cancelKey key).2.timetable.bookings.get? k).isSome = true := by
        intro k hk
        have hne : k ≠ key := fun h => hkeys.1 (h ▸ hk)
        rw [get?_cancelKey, if_neg hne]
        exact hbooked k (List.mem_cons_of_mem key hk)
      show ((a.cancelKey key).2.cancelKeys keys).1 + (a.cancelKey key).1.toNat = _
      rw [ih hkeys.2 hrest, fst_cancelKey, hbooked key List.mem_cons_self]
      rfl

theorem Tidy.cancelKeys (ha : Tidy a) (keys : List String) : Tidy (a.cancelKeys keys).2 := by
  induction keys generalizing a with
  | nil => exact ha
  | cons key keys ih => exact ih (ha.cancelKey key)

theorem proceeds_cancelKeys (keys : List String) (a : Agenda σ β ρ) :
    Proceeds a (a.cancelKeys keys).2 := by
  induction keys generalizing a with
  | nil => exact .rfl
  | cons key keys ih => exact (proceeds_cancelKey a key).trans (ih _)

/-- All bookings are taken out. -/
theorem Tidy.cancelBookings (ha : Tidy a) : Tidy a.cancelBookings := by
  obtain ⟨hmoves, hdoomed⟩ := doomed_foldl_cancel a.timetable.tasks a
  have hb := ha.moves hmoves
  refine {
    numbered := hb.numbered
    agrees := Timetable.agrees_empty
    booked := fun h => nomatch h
    waits := hb.waits
    doomed := ?_ }
  intro u q key hq hkey hbegun _
  by_cases hr : a.Registered key u
  · obtain ⟨x, hx, rfl⟩ := hr
    have htask : x.task ∈ a.timetable.tasks :=
      List.mem_map_of_mem (Table.mem_values_of_get? hx)
    obtain ⟨p, hp, hpq⟩ := hmoves.of_some hq
    refine hdoomed _ htask p q hp (ha.waits hp ?_) hq hbegun
    cases hpb : p.begun with
    | true => exact nomatch hbegun.symm.trans (hpq.begun hpb)
    | false => rfl
  · refine hb.doomed hq hkey hbegun ?_
    rintro ⟨x, hx, hxu⟩
    rw [hmoves.timetable] at hx
    exact hr ⟨x, hx, hxu⟩

theorem proceeds_cancelBookings (a : Agenda σ β ρ) : Proceeds a a.cancelBookings := by
  obtain ⟨hmoves, -⟩ := doomed_foldl_cancel a.timetable.tasks a
  refine ⟨hmoves.proceeds.started, hmoves.proceeds.old, ?_⟩
  rintro key u - ⟨x, hx, -⟩
  exact nomatch hx

/-! ## Starting and ending -/

/-- A task is started that is not booked. -/
theorem Tidy.launch (ha : Tidy a) (w : Audience) (body : β) : Tidy (a.launch w body) := by
  have hprocess := Numbered.process?_start ha.numbered (.fresh body w)
  have hold : ∀ {u p}, a.process? u = some p → (a.launch w body).process? u = some p := by
    intro u p hp
    refine (hprocess u).trans ?_
    rw [if_neg (Nat.ne_of_lt (ha.numbered hp))]
    exact hp
  refine ⟨Numbered.start ha.numbered _, ha.agrees, ?_, ?_, ?_⟩
  · intro key x hx
    obtain ⟨p, hp, hkey⟩ := ha.booked hx
    exact ⟨p, hold hp, hkey⟩
  · intro u p hp hbegun
    rw [show (a.launch w body).process? u = _ from hprocess u] at hp
    split at hp
    · rw [← Option.some.inj hp]
      exact .inr ⟨_, rfl⟩
    · exact ha.waits hp hbegun
  · intro u p key hp hkey hbegun hno
    rw [show (a.launch w body).process? u = _ from hprocess u] at hp
    split at hp
    · rw [← Option.some.inj hp] at hkey
      exact nomatch hkey
    · exact ha.doomed hp hkey hbegun hno

theorem proceeds_start {p : Process β ρ} (ha : a.Numbered) : Proceeds a (a.start p) where
  started := Nat.le_succ _
  old := by
    intro u q hu hq
    rw [ha.process?_start, if_neg (Nat.ne_of_lt hu)] at hq
    exact ⟨q, hq, .rfl⟩
  registered := fun _ hr => hr

theorem Tidy.launchAll (ha : Tidy a) (parent : TaskId) (children : List β) :
    Tidy (a.launchAll parent children) ∧ Proceeds a (a.launchAll parent children) := by
  induction children generalizing a with
  | nil => exact ⟨ha, .rfl⟩
  | cons child children ih =>
      obtain ⟨htidy, hproceeds⟩ := ih (ha.launch (.task parent) child)
      exact ⟨htidy, (proceeds_start ha.numbered).trans hproceeds⟩

/-- What is booked when a task was booked. -/
theorem get?_bookings_book (a : Agenda σ β ρ) (m : Appointment β) (k : String) :
    (a.book m).timetable.bookings.get? k
      = if k = m.key then some ⟨m.alertId, a.started⟩ else a.timetable.bookings.get? k := by
  have hbook : (a.book m).timetable = (a.cancelKey m.key).2.timetable.book m.key
      ⟨m.alertId, (a.cancelKey m.key).2.started⟩ := rfl
  rw [hbook, Timetable.get?_book, get?_cancelKey, started_cancelKey]
  by_cases hk : k = m.key
  · rw [if_pos hk, if_pos hk]
  · rw [if_neg hk, if_neg hk, if_neg hk]

/-- A task is booked under a key, whose old booking is taken out. -/
theorem Tidy.book (ha : Tidy a) (m : Appointment β) : Tidy (a.book m) := by
  have hb := ha.cancelKey m.key
  have hfree : (a.cancelKey m.key).2.timetable.bookings.get? m.key = none := by
    rw [get?_cancelKey, if_pos rfl]
  have htable : (a.book m).timetable = (a.cancelKey m.key).2.timetable.book m.key
      ⟨m.alertId, (a.cancelKey m.key).2.started⟩ := rfl
  have hprocess : ∀ u, (a.book m).process? u = if u = (a.cancelKey m.key).2.started then
      some (.booked m.key m.delay m.body) else (a.cancelKey m.key).2.process? u :=
    Numbered.process?_start hb.numbered _
  generalize (a.cancelKey m.key).2 = c at hb hfree htable hprocess
  have hold : ∀ {u p}, c.process? u = some p → (a.book m).process? u = some p := by
    intro u p hp
    rw [hprocess, if_neg (Nat.ne_of_lt (hb.numbered hp))]
    exact hp
  refine ⟨?_, htable ▸ hb.agrees.book hfree _, ?_, ?_, ?_⟩
  · exact ((rebooked_book ha.numbered m).numbered ha.numbered)
  · intro key x hx
    rw [htable, Timetable.get?_book] at hx
    split at hx
    · rename_i hkey
      obtain rfl := Option.some.inj hx
      refine ⟨.booked m.key m.delay m.body, ?_, congrArg some hkey.symm⟩
      rw [hprocess, if_pos rfl]
    · obtain ⟨p, hp, hpkey⟩ := hb.booked hx
      exact ⟨p, hold hp, hpkey⟩
  · intro u p hp hbegun
    rw [hprocess] at hp
    split at hp
    · rw [← Option.some.inj hp]
      exact .inr ⟨_, rfl⟩
    · exact hb.waits hp hbegun
  · intro u p key hp hkey hbegun hno
    rw [hprocess] at hp
    split at hp
    · rename_i hu
      rw [← Option.some.inj hp] at hkey
      refine absurd ⟨⟨m.alertId, c.started⟩, ?_, hu.symm⟩ hno
      rw [htable, Timetable.get?_book, if_pos (Option.some.inj hkey).symm]
    · -- an older task has no booking now if it had none before, under its key or any other
      refine hb.doomed hp hkey hbegun ?_
      rintro ⟨x, hx, hxu⟩
      refine hno ⟨x, ?_, hxu⟩
      rw [htable, Timetable.get?_book, if_neg]
      · exact hx
      · rintro rfl
        exact nomatch hfree.symm.trans hx

theorem proceeds_book (ha : a.Numbered) (m : Appointment β) : Proceeds a (a.book m) := by
  have hkey := proceeds_cancelKey a m.key
  have hstart : Proceeds (a.cancelKey m.key).2 (a.book m) := by
    refine ⟨Nat.le_succ _, ?_, ?_⟩
    · exact (proceeds_start (p := .booked m.key m.delay m.body)
        ((rebooked_cancelKey a m.key).numbered ha)).old
    · rintro key u hu ⟨x, hx, hxu⟩
      rw [get?_bookings_book] at hx
      split at hx
      · rw [started_cancelKey, ← hxu, ← Option.some.inj hx] at hu
        exact absurd hu (Nat.lt_irrefl _)
      · rename_i hne
        refine ⟨x, ?_, hxu⟩
        rw [get?_cancelKey, if_neg hne]
        exact hx
  exact hkey.trans hstart

/-- What is under way and what is booked when a task has ended. -/
theorem process?_timetable_finish (a : Agenda σ β ρ) (t : TaskId) (p : Process β ρ)
    (o : Outcome ρ) : (∀ u, (a.finish t p o).process? u = if u = t then none else a.process? u) ∧
      (a.finish t p o).timetable = p.key.elim a.timetable (a.timetable.forget · t) ∧
      (a.finish t p o).started = a.started := by
  refine ⟨fun u => ?_, ?_, ?_⟩
  · rw [← process?_remove]
    unfold finish
    cases p.key <;> cases p.audience <;> rfl
  · unfold finish
    cases p.key <;> cases p.audience <;> rfl
  · unfold finish
    cases p.key <;> cases p.audience <;> rfl

/-- The bookings of other tasks stay when a task ends, and no others come. -/
theorem get?_finish {p : Process β ρ} (o : Outcome ρ) {k : String} {x : Booking} :
    ((a.finish t p o).timetable.bookings.get? k = some x →
      a.timetable.bookings.get? k = some x) ∧
    (a.timetable.bookings.get? k = some x → x.task ≠ t →
      (a.finish t p o).timetable.bookings.get? k = some x) := by
  obtain ⟨-, htable, -⟩ := process?_timetable_finish a t p o
  rw [htable]
  cases p.key with
  | none => exact ⟨id, fun h _ => h⟩
  | some key => exact ⟨Timetable.get?_of_forget, Timetable.get?_forget_of_ne⟩

/-- A task ends, and its booking is taken out if it still has it. -/
theorem Tidy.finish (ha : Tidy a) {p : Process β ρ} (hp : a.process? t = some p) (o : Outcome ρ) :
    Tidy (a.finish t p o) := by
  obtain ⟨hprocess, htable, hstarted⟩ := process?_timetable_finish a t p o
  have hstill : ∀ {u q}, (a.finish t p o).process? u = some q →
      u ≠ t ∧ a.process? u = some q := by
    intro u q hq
    rw [hprocess] at hq
    split at hq
    · exact nomatch hq
    · rename_i hu
      exact ⟨hu, hq⟩
  refine ⟨?_, ?_, ?_, ?_, ?_⟩
  · intro u q hq
    rw [hstarted]
    exact ha.numbered (hstill hq).2
  · rw [htable]
    cases p.key with
    | none => exact ha.agrees
    | some key => exact ha.agrees.forget key t
  · intro key x hx
    obtain ⟨q, hq, hkey⟩ := ha.booked ((get?_finish o).1 hx)
    refine ⟨q, ?_, hkey⟩
    rw [hprocess, if_neg]
    · exact hq
    · -- the task that ends has taken out its own booking
      intro hxt
      rw [hxt, hp] at hq
      rw [← Option.some.inj hq] at hkey
      have hown := (get?_finish o).1 hx
      rw [htable, hkey, Option.elim_some, ← hxt, Timetable.get?_forget hown, if_pos rfl] at hx
      exact nomatch hx
  · exact fun hq hbegun => ha.waits (hstill hq).2 hbegun
  · intro u q key hq hkey hbegun hno
    obtain ⟨hu, hq⟩ := hstill hq
    refine ha.doomed hq hkey hbegun ?_
    rintro ⟨x, hx, rfl⟩
    exact hno ⟨x, (get?_finish o).2 hx hu, rfl⟩

theorem proceeds_finish (a : Agenda σ β ρ) (t : TaskId) (p : Process β ρ) (o : Outcome ρ) :
    Proceeds a (a.finish t p o) := by
  obtain ⟨hprocess, htable, hstarted⟩ := process?_timetable_finish a t p o
  refine ⟨Nat.le_of_eq hstarted.symm, ?_, ?_⟩
  · intro u q _ hq
    rw [hprocess] at hq
    split at hq
    · exact nomatch hq
    · exact ⟨q, hq, .rfl⟩
  · rintro key u - ⟨x, hx, hxu⟩
    exact ⟨x, (get?_finish o).1 hx, hxu⟩

end Agenda

end BuildingAlerts
