/-
One thing after another on an agenda.

An `Event` is the least that can happen: something is asked of the timetable, a task gets its turn, a
task stops working, a task is told to stop, time passes. Between its turn and its stop a task is at
work, and whatever is asked of the timetable meanwhile may come from it: it may book its own key anew,
cancel itself, or take out everything. So any order of events is allowed here, whatever the program
does, and a step of a program is a short row of them.

What is booked and what is listed by alert agree after all of them, and a booked task whose booking was
cancelled or replaced never begins.
-/
import BuildingAlerts.Proofs.Agenda.Bookings
import BuildingAlerts.Proofs.Agenda.Run

set_option autoImplicit false

namespace BuildingAlerts

variable {σ β ρ : Type}

/-- What is asked of the timetable. -/
inductive Order (β : Type) where
  /-- A task is booked, in place of the one that was booked under its key. -/
  | book (m : Appointment β)
  | cancel (key : String)
  | cancelAlert (alertId : String)
  | shutdown

/-- What an order makes of what is booked under a key, if the next task has the number `n`. -/
def Order.leaves (o : Order β) (n : TaskId) (key : String) (booked : Option Booking) :
    Option Booking :=
  match o with
  | .book m => if key = m.key then some ⟨m.alertId, n⟩ else booked
  | .cancel k => if key = k then none else booked
  | .cancelAlert alertId => booked.filter fun b => b.alertId ≠ some alertId
  | .shutdown => none

/-- What may happen. -/
inductive Event (σ β ρ : Type) where
  /-- Something is asked of the timetable, by the task at work or by somebody else. -/
  | order (o : Order β)
  /-- A task is started that is not booked. -/
  | launch (w : Audience) (body : β)
  /-- The ready item at a place is taken. A task that has its turn is at work from now on. -/
  | turn (place : Nat)
  /-- The task at work stops: it waits for something, or it has ended in some way. -/
  | stop (t : TaskId) (next : Next β ρ)
  /-- A task is told to stop, by somebody who knows it. -/
  | tell (t : TaskId)
  /-- The room changes. -/
  | edit (s : σ)
  | pass (time : Instant)

namespace Agenda

/-- Does what is asked of the timetable. -/
def obey (a : Agenda σ β ρ) : Order β → Agenda σ β ρ
  | .book m => a.book m
  | .cancel key => (a.cancelKey key).2
  | .cancelAlert alertId => (a.cancelAlert alertId).2
  | .shutdown => a.cancelBookings

/-- Gives a task its turn. It is at work then, unless it is to begin later or never. -/
def enter (a : Agenda σ β ρ) (t : TaskId) : Agenda σ β ρ :=
  match a.process? t with
  | none => a
  | some p =>
    match p.waiting with
    | .queued w =>
      let w := if p.stopping then .stopped .cancelled else w
      match p.begun, w, p.delay with
      | false, .stopped s, _ => a.finish t p (.error s)
      | false, _, some delay =>
        (a.adjust t fun p => { p with delay := none }).lay t p.body delay .endless .start
      | _, _, _ => a.atWork t a.state
    | _ => a

/-- Takes the ready item at a place. -/
def take (a : Agenda σ β ρ) (place : Nat) : Agenda σ β ρ :=
  match a.ready[place]? with
  | none => a
  | some (.run t) => (a.taken place).enter t
  | some (.report parent child o) => (a.taken place).report parent child o

/-- The task at work stops. -/
def leave (a : Agenda σ β ρ) (t : TaskId) (next : Next β ρ) : Agenda σ β ρ :=
  match a.process? t with
  | none => a
  | some p =>
    match p.waiting with
    | .working => a.settleTurn t p next
    | _ => a

/-- What comes of an event; one that cannot happen changes nothing. -/
def after (a : Agenda σ β ρ) : Event σ β ρ → Agenda σ β ρ
  | .order o => a.obey o
  | .launch w body => a.launch w body
  | .turn place => a.take place
  | .stop t next => a.leave t next
  | .tell t => a.cancel t
  | .edit s => { a with state := s }
  | .pass time => a.passTo time

/-- What comes of some events, one after the other. -/
def afterAll (a : Agenda σ β ρ) (es : List (Event σ β ρ)) : Agenda σ β ρ :=
  es.foldl after a

variable {a b : Agenda σ β ρ} {t : TaskId} {P : Program σ β ρ}

/-! ## Turns -/

/-- What a turn of a task leads to before it works. -/
inductive Enters (a : Agenda σ β ρ) (t : TaskId) : Prop where
  | idle (hr : a.enter t = a)
  | dropped {p : Process β ρ} {st : Stop} (hp : a.process? t = some p)
      (hr : a.enter t = a.finish t p (.error st))
  | delayed {p : Process β ρ} {d : Delay} (hp : a.process? t = some p) (hb : p.begun = false)
      (hd : ¬ p.Doomed) (hr : a.enter t
        = (a.adjust t fun p => { p with delay := none }).lay t p.body d .endless .start)
  | works {p : Process β ρ} (hp : a.process? t = some p) (hd : p.begun = false → ¬ p.Doomed)
      (hr : a.enter t = a.atWork t a.state)

/-- What a turn leads to does not depend on the program, until the task works. -/
theorem enter_of_stint?_eq_none (P : Program σ β ρ) (hs : a.stint? t = none) :
    a.enter t = a.run P t := by
  revert hs
  unfold stint? enter run
  cases hp : a.process? t with
  | none => exact fun _ => rfl
  | some p =>
      dsimp only
      cases hw : p.waiting with
      | queued w =>
          dsimp only
          generalize (if p.stopping then Wake.stopped .cancelled else w) = v
          cases hb : p.begun <;> cases v <;> cases hd : p.delay <;> simp
      | _ => exact fun _ => rfl

theorem enter_of_stint?_eq_some {s : Stint σ β ρ} (hs : a.stint? t = some s) :
    a.enter t = a.atWork t a.state := by
  revert hs
  unfold stint? enter
  cases hp : a.process? t with
  | none => exact fun h => nomatch h
  | some p =>
      dsimp only
      cases hw : p.waiting with
      | queued w =>
          dsimp only
          generalize (if p.stopping then Wake.stopped .cancelled else w) = v
          cases hb : p.begun <;> cases v <;> cases hd : p.delay <;> simp
      | _ => exact fun h => nomatch h

theorem enters (a : Agenda σ β ρ) (t : TaskId) : Enters a t := by
  cases hp : a.process? t with
  | none => exact .idle (by simp [enter, hp])
  | some p =>
      by_cases hturn : ∃ w, p.waiting = .queued w
      · obtain ⟨w, hw⟩ := hturn
        cases hb : p.begun with
        | true => exact .works hp (fun h => nomatch hb.symm.trans h) (by simp [enter, hp, hw, hb])
        | false =>
            by_cases hd : p.Doomed
            · obtain ⟨v, hv, hstop⟩ := hd
              obtain rfl := Waiting.queued.inj (hv.symm.trans hw)
              cases hs : p.stopping with
              | true =>
                  have hr : a.enter t = a.finish t p (.error .cancelled) := by
                    simp [enter, hp, hw, hb, hs]
                  exact .dropped hp hr
              | false =>
                  obtain ⟨st, rfl⟩ := hstop.resolve_left (by simp [hs])
                  have hr : a.enter t = a.finish t p (.error st) := by
                    simp [enter, hp, hw, hb, hs]
                  exact .dropped hp hr
            · have hstop : p.stopping = false := by
                cases hs : p.stopping with
                | false => rfl
                | true => exact absurd ⟨w, hw, .inl hs⟩ hd
              have hgo : ∀ st, w ≠ .stopped st := by
                rintro st rfl
                exact hd ⟨_, hw, .inr ⟨st, rfl⟩⟩
              cases hdelay : p.delay with
              | none =>
                  refine .works hp (fun _ => hd) ?_
                  cases w <;> simp_all [enter]
              | some d =>
                  refine .delayed (d := d) hp hb hd ?_
                  cases w <;> simp_all [enter]
      · refine .idle ?_
        cases hw : p.waiting with
        | queued w => exact absurd ⟨w, hw⟩ hturn
        | _ => simp [enter, hp, hw]

/-! ## Every event keeps the bookings tidy -/

theorem moves_setTimers (a : Agenda σ β ρ) (t : TaskId) (d l : Delay) (w : Wake ρ) :
    Moves a (a.setTimers t d l w) :=
  moves_edit rfl rfl rfl

/-- A task that has begun, or is not doomed, is laid to sleep. -/
theorem moves_lay {p : Process β ρ} (hp : a.process? t = some p)
    (hd : p.begun = false → ¬ p.Doomed) (body : β) (d l : Delay) (w : Wake ρ) :
    Moves a (a.lay t body d l w) := by
  have hpark : ∀ v : Waiting ρ, v = .asleep ∨ (∃ w, v = .queued w) → Moves a (a.park t body v) := by
    intro v hv
    apply moves_adjust
    intro q hq
    obtain rfl := Option.some.inj (hp.symm.trans hq)
    exact ⟨rfl, id, fun _ _ => hv, fun hb h => absurd h (hd hb)⟩
  unfold lay
  split
  · exact (hpark _ (.inr ⟨w, rfl⟩)).trans (moves_edit rfl rfl rfl)
  · exact (hpark _ (.inl rfl)).trans (moves_setTimers _ t d l w)

theorem moves_report (a : Agenda σ β ρ) (t c : TaskId) (o : Outcome ρ) :
    Moves a (a.report t c o) := by
  unfold report
  cases hp : a.process? t with
  | none => exact .rfl
  | some p =>
      have hmoves : ∀ {f : Process β ρ → Process β ρ}, p.Minds (f p) → Moves a (a.adjust t f) := by
        intro f hf
        apply moves_adjust
        intro q hq
        obtain rfl := Option.some.inj (hp.symm.trans hq)
        exact hf
      dsimp only
      cases hw : p.waiting with
      | all children got =>
          have hwake := moves_wake_of hp (by simp [hw])
          dsimp only
          split
          · cases o with
            | error st => exact hwake _
            | ok r =>
                dsimp only
                split
                · exact hwake _
                · -- the task has heard of one more, and still waits for others
                  refine hmoves ⟨rfl, id, fun _ h => ?_, fun _ h => ?_⟩
                  · rcases h with h | ⟨w, h⟩
                    · exact nomatch hw.symm.trans h
                    · exact nomatch hw.symm.trans h
                  · obtain ⟨w, h, -⟩ := h
                    exact nomatch hw.symm.trans h
          · exact .rfl
      | any => exact moves_wake_of hp (by simp [hw]) _
      | queued w =>
          cases w with
          | arrived os =>
              refine hmoves ⟨rfl, id, fun _ _ => .inr ⟨_, rfl⟩, fun hb h => ⟨hb, _, rfl, ?_⟩⟩
              obtain ⟨v, hv, hstop | ⟨st, rfl⟩⟩ := h
              · exact .inl hstop
              · exact nomatch Waiting.queued.inj (hw.symm.trans hv)
          | _ => exact .rfl
      | _ => exact .rfl

theorem moves_passTo (a : Agenda σ β ρ) (time : Instant) : Moves a (a.passTo time) := by
  have hall : ∀ (ms : List (Timer ρ)) (b : Agenda σ β ρ), Moves b (ms.foldl goOff b) := by
    intro ms
    induction ms with
    | nil => exact fun _ => .rfl
    | cons m ms ih =>
        intro b
        refine Moves.trans ?_ (ih _)
        unfold goOff
        cases hp : b.process? m.task with
        | none => exact .rfl
        | some p =>
            dsimp only
            cases hw : p.waiting with
            | asleep => exact moves_wake_of hp (by simp [hw]) _
            | _ => exact .rfl
  unfold passTo
  rw [List.partition_eq_filter_filter]
  have hlater : ∀ ms, Moves a { a with now := time, timers := ms } :=
    fun _ => moves_edit rfl rfl rfl
  exact (hlater _).trans (hall _ _)

/-- The task at work waits for something. -/
theorem moves_of_begun {p : Process β ρ} (hp : a.process? t = some p) (hb : p.begun = true)
    {f : Process β ρ → Process β ρ} (hkey : (f p).key = p.key) (hf : (f p).begun = p.begun) :
    Moves a (a.adjust t f) := by
  apply moves_adjust
  intro q hq
  obtain rfl := Option.some.inj (hp.symm.trans hq)
  exact Process.minds_of_begun hkey hb (hf.trans hb)

/-- A task that has begun is told to stop if it was marked. -/
theorem moves_mark {p : Process β ρ} (hp : a.process? t = some p) (hb : p.begun = true)
    (marked : Bool) : Moves a (if marked then
      (a.adjust t fun p => { p with stopping := false }).cancel t else a) := by
  split
  · exact (moves_of_begun hp hb rfl rfl).trans (moves_cancel _ t)
  · exact .rfl

/-- A task that has begun stops working: unless it has ended, what is booked stays. -/
theorem tidy_settleTurn (ha : Tidy a) {p : Process β ρ} (hp : a.process? t = some p)
    (hb : p.begun = true) (next : Next β ρ) :
    Tidy (a.settleTurn t p next) ∧ Proceeds a (a.settleTurn t p next) ∧
      ((∃ o, a.settleTurn t p next = a.finish t p o) ∨
        (a.settleTurn t p next).timetable = a.timetable) := by
  have hmoved : ∀ {b}, Moves a b → Tidy b ∧ Proceeds a b ∧
      ((∃ o, b = a.finish t p o) ∨ b.timetable = a.timetable) :=
    fun h => ⟨ha.moves h, h.proceeds, .inr h.timetable⟩
  have hlaunched : ∀ (children : List β) (body : β) (w : Waiting ρ),
      let b := (a.launchAll t children).park t body w
      let c := if p.stopping then (b.adjust t fun p => { p with stopping := false }).cancel t else b
      Tidy c ∧ Proceeds a c ∧ ((∃ o, c = a.finish t p o) ∨ c.timetable = a.timetable) := by
    intro children body w b c
    obtain ⟨htidy, hproceeds⟩ := ha.launchAll t children
    have hlaunch := launched_launchAll t children ha.numbered
    have hthere : (a.launchAll t children).process? t = some p := by
      rw [hlaunch.process, if_pos (ha.numbered hp)]
      exact hp
    have hpark : Moves (a.launchAll t children) b := moves_of_begun hthere hb rfl rfl
    obtain ⟨q, hq, -⟩ := hpark.kept hthere
    have hbegun : q.begun = true := by
      have hq' : b.process? t = some { p with body := body, waiting := w } := by
        show ((a.launchAll t children).park t body w).process? t = _
        rw [process?_park, if_pos rfl, hthere]
        rfl
      rw [← Option.some.inj (hq'.symm.trans hq)]
      exact hb
    have hmoves := hpark.trans (moves_mark hq hbegun p.stopping)
    refine ⟨htidy.moves hmoves, hproceeds.trans hmoves.proceeds, .inr ?_⟩
    exact hmoves.timetable.trans (timetable_launchAll t children a)
  unfold settleTurn
  cases next with
  | finish o => exact ⟨ha.finish hp _, proceeds_finish a t p _, .inl ⟨_, rfl⟩⟩
  | pause body =>
      have hpark : Moves a (a.park t body (.queued .resumed)) := moves_of_begun hp hb rfl rfl
      exact hmoved (hpark.trans (moves_edit rfl rfl rfl))
  | sleep delay limit body =>
      have hlay := moves_lay hp (fun h => nomatch hb.symm.trans h) body delay limit .resumed
      dsimp only
      split
      · rename_i hstop
        rw [Bool.and_eq_true, decide_eq_true_iff] at hstop
        obtain ⟨q, hq, hpq⟩ := hlay.kept hp
        have hmark := moves_of_begun (f := fun p => { p with stopping := false }) hq
          (hpq.begun hb) rfl rfl
        refine hmoved ((hlay.trans hmark).trans (moves_wake ?_ _))
        -- the task sleeps by now
        intro r hr w hw
        unfold lay at hr
        rw [if_neg hstop.2, process?_adjust_self] at hr
        have hsleep : (((a.park t body .asleep).setTimers t delay limit .resumed)).process? t
            = some { p with body := body, waiting := .asleep } := by
          show (a.park t body .asleep).process? t = _
          rw [process?_park, if_pos rfl, hp]
          rfl
        rw [hsleep] at hr
        rw [← Option.some.inj hr] at hw
        exact nomatch hw
      · exact hmoved hlay
  | gather children body => exact hlaunched children body _
  | collect children body => exact hlaunched children body _
  | await body => exact hlaunched [] body .any

/-- What holds after an event, with the number of the task whose turn or stop it is. -/
structure Keeps (a : Agenda σ β ρ) (t? : Option TaskId) (b : Agenda σ β ρ) : Prop where
  tidy : Tidy b
  proceeds : Proceeds a b
  /-- Nothing is booked. -/
  old : ∀ {key x}, b.timetable.bookings.get? key = some x → a.timetable.bookings.get? key = some x
  /-- A booking goes only with its own task. -/
  kept : ∀ {key x}, a.timetable.bookings.get? key = some x →
    b.timetable.bookings.get? key = some x ∨ t? = some x.task ∧ b.process? x.task = none

theorem Tidy.keeps_moves (ha : Tidy a) (h : Moves a b) (t? : Option TaskId) : Keeps a t? b where
  tidy := ha.moves h
  proceeds := h.proceeds
  old := fun hx => h.timetable ▸ hx
  kept := fun hx => .inl (h.timetable.symm ▸ hx)

theorem Tidy.keeps_finish (ha : Tidy a) {p : Process β ρ} (hp : a.process? t = some p)
    (o : Outcome ρ) : Keeps a (some t) (a.finish t p o) where
  tidy := ha.finish hp o
  proceeds := proceeds_finish a t p o
  old := (get?_finish o).1
  kept := by
    intro key x hx
    by_cases hxt : x.task = t
    · refine .inr ⟨congrArg some hxt.symm, ?_⟩
      rw [(process?_timetable_finish a t p o).1, if_pos hxt]
    · exact .inl ((get?_finish o).2 hx hxt)

theorem Tidy.keeps_enter (ha : Tidy a) (t : TaskId) : Keeps a (some t) (a.enter t) := by
  cases enters a t with
  | idle hr =>
      rw [hr]
      exact ha.keeps_moves .rfl _
  | dropped hp hr =>
      rw [hr]
      exact ha.keeps_finish hp _
  | @delayed p d hp hb hd hr =>
      have hadjust : Moves a (a.adjust t fun p => { p with delay := none }) := by
        apply moves_adjust
        intro q _
        exact ⟨rfl, id, fun _ h => h, fun hb h => ⟨hb, h⟩⟩
      have hp' : (a.adjust t fun p => { p with delay := none }).process? t
          = some { p with delay := none } := by
        rw [process?_adjust_self, hp]
        rfl
      rw [hr]
      exact ha.keeps_moves (hadjust.trans (moves_lay hp' (fun _ => hd) _ _ _ _)) _
  | @works p hp hd hr =>
      have hadjust : Moves a
          (a.adjust t fun p => { p with waiting := .working, begun := true, stopping := false }) := by
        apply moves_adjust
        intro q hq
        obtain rfl := Option.some.inj (hp.symm.trans hq)
        exact ⟨rfl, fun _ => rfl, (fun h => nomatch h), fun hb h => absurd h (hd hb)⟩
      rw [hr]
      exact ha.keeps_moves (hadjust.trans (moves_edit rfl rfl rfl)) _

theorem Tidy.keeps_leave (ha : Tidy a) (t : TaskId) (next : Next β ρ) :
    Keeps a (some t) (a.leave t next) := by
  unfold leave
  cases hp : a.process? t with
  | none => exact ha.keeps_moves .rfl _
  | some p =>
      dsimp only
      cases hw : p.waiting with
      | working =>
          -- only a task that has begun is at work
          have hb : p.begun = true := by
            cases hb : p.begun with
            | true => rfl
            | false =>
                rcases ha.waits hp hb with h | ⟨w, h⟩
                · exact nomatch hw.symm.trans h
                · exact nomatch hw.symm.trans h
          obtain ⟨htidy, hproceeds, hends | htable⟩ := tidy_settleTurn ha hp hb next
          · obtain ⟨o, ho⟩ := hends
            dsimp only
            rw [ho]
            exact ha.keeps_finish hp o
          · exact ⟨htidy, hproceeds, fun hx => htable ▸ hx, fun hx => .inl (htable.symm ▸ hx)⟩
      | _ => exact ha.keeps_moves .rfl _

end Agenda

/-- The task whose turn or whose stop an event is. -/
def Event.task? (a : Agenda σ β ρ) : Event σ β ρ → Option TaskId
  | .turn place => a.ready[place]?.bind fun
    | .run t => some t
    | .report .. => none
  | .stop t _ => some t
  | _ => none

/-- What an event asks of the timetable. -/
def Event.order? : Event σ β ρ → Option (Order β)
  | .order o => some o
  | _ => none

namespace Agenda

variable {a b : Agenda σ β ρ} {t : TaskId} {P : Program σ β ρ}

/-- **Without an order a booking goes only when its own task ends**, and none comes. -/
theorem Tidy.keeps_after (ha : Tidy a) {e : Event σ β ρ} (he : e.order? = none) :
    Keeps a (e.task? a) (a.after e) := by
  cases e with
  | order o => exact nomatch he
  | launch w body =>
      exact ⟨ha.launch w body, proceeds_start ha.numbered, fun hx => hx, fun hx => .inl hx⟩
  | turn place =>
      have htaken : Moves a (a.taken place) := moves_edit rfl rfl rfl
      show Keeps a _ (a.take place)
      cases hi : a.ready[place]? with
      | none =>
          have htake : a.take place = a := by
            unfold take
            rw [hi]
          rw [htake]
          exact ha.keeps_moves .rfl _
      | some i =>
          cases i with
          | run t =>
              have htake : a.take place = (a.taken place).enter t := by
                unfold take
                rw [hi]
              have htask : Event.task? a (.turn place : Event σ β ρ) = some t := by
                unfold Event.task?
                dsimp only
                rw [hi]
                rfl
              rw [htake, htask]
              have hkeeps := (ha.moves htaken).keeps_enter t
              exact ⟨hkeeps.tidy, htaken.proceeds.trans hkeeps.proceeds, hkeeps.old, hkeeps.kept⟩
          | report parent child o =>
              have htake : a.take place = (a.taken place).report parent child o := by
                unfold take
                rw [hi]
              rw [htake]
              exact ha.keeps_moves (htaken.trans (moves_report _ parent child o)) _
  | stop t next => exact ha.keeps_leave t next
  | tell t => exact ha.keeps_moves (moves_cancel a t) _
  | edit s =>
      have hedit : Moves a { a with state := s } := moves_edit rfl rfl rfl
      exact ha.keeps_moves hedit _
  | pass time => exact ha.keeps_moves (moves_passTo a time) _

/-- Orders keep the bookings tidy. -/
theorem Tidy.obey (ha : Tidy a) (o : Order β) : Tidy (a.obey o) ∧ Proceeds a (a.obey o) := by
  cases o with
  | book m => exact ⟨ha.book m, proceeds_book ha.numbered m⟩
  | cancel key => exact ⟨ha.cancelKey key, proceeds_cancelKey a key⟩
  | cancelAlert alertId => exact ⟨ha.cancelKeys _, proceeds_cancelKeys _ a⟩
  | shutdown => exact ⟨ha.cancelBookings, proceeds_cancelBookings a⟩

/-- **What is booked after an order**, key by key. -/
theorem Tidy.get?_obey (ha : Tidy a) (o : Order β) (key : String) :
    (a.obey o).timetable.bookings.get? key
      = o.leaves a.started key (a.timetable.bookings.get? key) := by
  cases o with
  | book m => exact get?_bookings_book a m key
  | cancel k => exact get?_cancelKey a k key
  | shutdown => rfl
  | cancelAlert alertId =>
      show (a.cancelKeys (a.timetable.keysOf alertId)).2.timetable.bookings.get? key = _
      rw [get?_cancelKeys]
      unfold Order.leaves
      cases hb : a.timetable.bookings.get? key with
      | none => simp
      | some b =>
          have hmem : key ∈ a.timetable.keysOf alertId ↔ b.alertId = some alertId := by
            rw [ha.agrees.listed, hb]
            simp
          by_cases halert : b.alertId = some alertId
          · simp [hmem, halert, Option.filter]
          · simp [hmem, halert, Option.filter]

theorem Tidy.after (ha : Tidy a) (e : Event σ β ρ) : Tidy (a.after e) ∧ Proceeds a (a.after e) := by
  cases he : e.order? with
  | none => exact ⟨(ha.keeps_after he).tidy, (ha.keeps_after he).proceeds⟩
  | some o =>
      cases e with
      | order o => exact ha.obey o
      | _ => exact nomatch he

theorem Tidy.afterAll (ha : Tidy a) (es : List (Event σ β ρ)) :
    Tidy (a.afterAll es) ∧ Proceeds a (a.afterAll es) := by
  induction es generalizing a with
  | nil => exact ⟨ha, .rfl⟩
  | cons e es ih =>
      obtain ⟨htidy, hproceeds⟩ := ih (ha.after e).1
      exact ⟨htidy, (ha.after e).2.trans hproceeds⟩

/-- **Bookings and tasks agree, whatever happens.** After any events the lists by alert say what is
booked, and every booking is that of a task under way. An order does to each key what it says and
nothing else, and cancelling for an alert tells how many bookings that took out. Without an order a
booking goes only when its own task ends, and none comes. And a task that has lost its booking before
it began never begins. -/
theorem bookings_agree (s : σ) (es : List (Event σ β ρ)) :
    let a := (idle s : Agenda σ β ρ).afterAll es
    a.timetable.Agrees ∧
      (∀ key b, a.timetable.bookings.get? key = some b →
        ∃ p, a.process? b.task = some p ∧ p.key = some key) ∧
      (∀ o key, (a.obey o).timetable.bookings.get? key
        = o.leaves a.started key (a.timetable.bookings.get? key)) ∧
      (∀ alertId, (a.cancelAlert alertId).1
        = (a.timetable.bookings.entries.filter fun e => e.2.alertId = some alertId).length) ∧
      (∀ e : Event σ β ρ, e.order? = none → ∀ key b,
        ((a.after e).timetable.bookings.get? key = some b →
          a.timetable.bookings.get? key = some b) ∧
        (a.timetable.bookings.get? key = some b →
          (a.after e).timetable.bookings.get? key = some b ∨
            e.task? a = some b.task ∧ (a.after e).process? b.task = none)) ∧
      ∀ t p key, a.process? t = some p → p.key = some key → p.begun = false →
        ¬ a.Registered key t → ∀ later q, (a.afterAll later).process? t = some q →
          q.begun = false := by
  intro a
  obtain ⟨ha, -⟩ := (tidy_idle s).afterAll es
  refine ⟨ha.agrees, fun _ _ => ha.booked, ha.get?_obey, ?_, ?_, ?_⟩
  · intro alertId
    rw [← ha.agrees.length_keysOf]
    refine fst_cancelKeys (ha.agrees.once alertId) fun key hkey => ?_
    obtain ⟨b, hb, -⟩ := (ha.agrees.listed alertId key).mp hkey
    rw [hb]
    rfl
  · intro e he key b
    exact ⟨(ha.keeps_after he).old, (ha.keeps_after he).kept⟩
  · intro t p key hp hkey hbegun hno later q hq
    -- the task is doomed, and stays so
    obtain ⟨p', hp', hpq⟩ := (ha.afterAll later).2.old (ha.numbered hp) hq
    obtain rfl := Option.some.inj (hp'.symm.trans hp)
    exact (hpq.doomed hbegun (ha.doomed hp hkey hbegun hno)).1

/-- A task at work books its own key anew and ends: the new booking stays. -/
example :
    let m : Appointment Unit := ⟨"retry", some "alert", .zero, ()⟩
    let a := (idle () : Agenda Unit Unit Unit).afterAll [.order (.book m), .turn 0, .turn 0,
      .order (.book m), .stop 0 (.finish (.ok ()))]
    (a.process? 0).isNone = true ∧ a.timetable.keysOf "alert" = ["retry"] ∧
      a.timetable.bookings.get? "retry" = some ⟨some "alert", 1⟩ := by
  decide_cbv

/-! ## What a program does is a row of events -/

/-- What happens when the ready item at a place is taken: a task that works leaves the room in some
state, books what it books, and stops. -/
def eventsAt (P : Program σ β ρ) (a : Agenda σ β ρ) (place : Nat) : List (Event σ β ρ) :=
  .turn place :: match a.stintAt? place with
    | none => []
    | some s => .edit (s.turn P).state ::
        ((s.turn P).appointments.map fun m => .order (.book m)) ++ [.stop s.task (s.turn P).next]

theorem afterAll_append (a : Agenda σ β ρ) (es fs : List (Event σ β ρ)) :
    a.afterAll (es ++ fs) = (a.afterAll es).afterAll fs :=
  List.foldl_append

theorem afterAll_book (a : Agenda σ β ρ) (ms : List (Appointment β)) :
    a.afterAll (ms.map fun m => .order (.book m)) = a.bookAll ms := by
  induction ms generalizing a with
  | nil => rfl
  | cons m ms ih => exact ih (a.book m)

theorem run_eq_afterAll (ha : a.Numbered) {s : Stint σ β ρ} (hs : a.stint? t = some s) :
    a.run P t = (a.enter t).afterAll (.edit (s.turn P).state ::
      ((s.turn P).appointments.map fun m => .order (.book m)) ++ [.stop t (s.turn P).next]) := by
  cases runsTo P a t with
  | idle _ h _ => exact nomatch hs.symm.trans h
  | dropped _ _ _ _ h _ => exact nomatch hs.symm.trans h
  | delayed _ _ _ _ h _ => exact nomatch hs.symm.trans h
  | @works p w v hp hw hv hbegun h hr =>
      obtain rfl := Option.some.inj (h.symm.trans hs)
      obtain ⟨q, hq, htold, hwork⟩ := work_eq_settleTurn ha hp p.body v (P := P)
      -- the task is still at work when it has booked what it books
      have hworking : q.waiting = .working := by
        rcases htold.waiting with h | ⟨h | h, -⟩
        · exact h
        · exact nomatch h
        · exact nomatch h
      rw [hr, hwork, afterAll_append, enter_of_stint?_eq_some hs]
      show _ = Agenda.leave (Agenda.afterAll (a.atWork t _) (List.map _ _)) t _
      rw [afterAll_book]
      unfold leave
      show _ = match ((a.atWork t (P a.now a.state p.body v).state).bookAll
        (P a.now a.state p.body v).appointments).process? t with
        | none => _
        | some p => _
      rw [hq]
      dsimp only
      rw [hworking]
      rfl

/-- A step of the program is that row of events. -/
theorem stepAt_eq_afterAll (ha : a.Numbered) {place : Nat} (hb : a.stepAt P place = some b) :
    b = a.afterAll (a.eventsAt P place) := by
  unfold stepAt at hb
  obtain ⟨i, hi, rfl⟩ := Option.map_eq_some_iff.mp hb
  unfold eventsAt stintAt?
  rw [hi]
  cases i with
  | report parent child o =>
      show (a.taken place).report parent child o = a.take place
      unfold take
      rw [hi]
  | run t =>
      have htake : a.take place = (a.taken place).enter t := by
        unfold take
        rw [hi]
      show (a.taken place).run P t = (a.take place).afterAll _
      rw [htake]
      dsimp only [Option.bind_some]
      cases hs : a.stint? t with
      | none => exact (enter_of_stint?_eq_none (a := a.taken place) P hs).symm
      | some s =>
          obtain ⟨q, -, hof⟩ := stint?_eq_some hs
          have hrun := run_eq_afterAll (a := a.taken place) (P := P) ha hs
          dsimp only
          rw [hof.task]
          exact hrun

/-- **Every run is a row of events**, if whatever is asked for is one. -/
theorem Run.events {Serve : Agenda σ β ρ → Agenda σ β ρ → Prop} {start : Agenda σ β ρ}
    {h : History σ β ρ} (hstart : Sound P none [] start)
    (hout : ∀ {a b}, a.Numbered → Serve a b → a.Outside b)
    (hserve : ∀ {a b}, a.Numbered → Serve a b → ∃ es, b = a.afterAll es)
    (hr : Run P Serve start h a) : ∃ es, a = start.afterAll es := by
  have happend : ∀ {a b : Agenda σ β ρ}, (∃ es, a = start.afterAll es) →
      (∃ es, b = a.afterAll es) → ∃ es, b = start.afterAll es := by
    rintro a b ⟨es, rfl⟩ ⟨fs, rfl⟩
    exact ⟨es ++ fs, (afterAll_append start es fs).symm⟩
  induction hr with
  | idle => exact ⟨[], rfl⟩
  | step hr hb ih =>
      exact happend ih ⟨_, stepAt_eq_afterAll (hr.sound hstart hout).numbered hb⟩
  | @pass _ _ time _ _ _ ih => exact happend ih ⟨[.pass time], rfl⟩
  | serve hr hb ih => exact happend ih (hserve (hr.sound hstart hout).numbered hb)

end Agenda

end BuildingAlerts
