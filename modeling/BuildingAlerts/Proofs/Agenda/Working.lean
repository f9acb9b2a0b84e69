/-
A task works.

A turn of a task leads to a stint, unless the task does not wait for its turn any longer, was
told to stop before it began, or is to begin after a delay. In each of these cases the agenda
keeps to its history, with the stint if there is one.
-/
import BuildingAlerts.Proofs.Agenda.Turn

set_option autoImplicit false

namespace BuildingAlerts.Agenda

variable {σ β ρ : Type}

/-! ## Stints -/

/-- The stint that a turn of a task leads to, if the task works when it has its turn. -/
def stint? (a : Agenda σ β ρ) (t : TaskId) : Option (Stint σ β ρ) :=
  match a.process? t with
  | none => none
  | some p =>
    match p.waiting with
    | .queued w =>
      match p.begun, (if p.stopping then .stopped .cancelled else w), p.delay with
      | false, .stopped _, _ => none
      | false, _, some _ => none
      | begun, w, _ => some ⟨t, p.audience, a.now, a.state, p.body, w, !begun, a.started⟩
    | _ => none

variable {P : Program σ β ρ} {h : History σ β ρ} {a : Agenda σ β ρ} {t : TaskId}

/-- What a turn of a task leads to. -/
inductive RunsTo (P : Program σ β ρ) (a : Agenda σ β ρ) (t : TaskId) : Prop where
  /-- The task does not wait for its turn. -/
  | idle (hw : ∀ p w, a.process? t = some p → p.waiting ≠ .queued w) (hs : a.stint? t = none)
      (hr : a.run P t = a)
  /-- It was told to stop before it began. -/
  | dropped {p : Process β ρ} {w : Wake ρ} {st : Stop} (hp : a.process? t = some p)
      (hb : p.begun = false) (hw : p.waiting = .queued w)
      (hst : p.stopping = true ∧ st = .cancelled ∨ w = .stopped st)
      (hs : a.stint? t = none) (hr : a.run P t = a.finish t p (.error st))
  /-- It is to begin after a delay. -/
  | delayed {p : Process β ρ} {w : Wake ρ} {d : Delay} (hp : a.process? t = some p)
      (hb : p.begun = false) (hw : p.waiting = .queued w) (hd : p.delay = some d)
      (hs : a.stint? t = none)
      (hr : a.run P t = (a.adjust t fun p => { p with delay := none }).lay t p.body d .endless
        .start)
  /-- It works. -/
  | works {p : Process β ρ} {w v : Wake ρ} (hp : a.process? t = some p)
      (hw : p.waiting = .queued w) (hv : v = if p.stopping then .stopped .cancelled else w)
      (hb : p.begun = false → p.stopping = false ∧ ∀ st, w ≠ .stopped st)
      (hs : a.stint? t
        = some ⟨t, p.audience, a.now, a.state, p.body, v, !p.begun, a.started⟩)
      (hr : a.run P t = a.work P t p.body v)

theorem runsTo (P : Program σ β ρ) (a : Agenda σ β ρ) (t : TaskId) : RunsTo P a t := by
  cases hp : a.process? t with
  | none =>
      refine .idle (fun p w h => nomatch hp.symm.trans h) ?_ ?_
      · unfold stint?
        rw [hp]
      · unfold run
        rw [hp]
  | some p =>
      have hidle : (∀ w, p.waiting ≠ .queued w) → a.stint? t = none → a.run P t = a →
          RunsTo P a t := by
        intro hw hs hr
        refine .idle (fun q w hq => ?_) hs hr
        rw [← Option.some.inj (hp.symm.trans hq)]
        exact hw w
      obtain ⟨body, waiting, audience, key, delay, begun, stopping⟩ := p
      cases waiting with
      | queued w =>
          cases begun with
          | true =>
              refine .works hp rfl rfl (fun h => nomatch h) ?_ ?_
              · simp only [stint?, hp]
              · simp only [run, hp]
          | false =>
              cases stopping with
              | true =>
                  refine .dropped hp rfl rfl (.inl ⟨rfl, rfl⟩) ?_ ?_
                  · simp only [stint?, hp, if_true]
                  · simp only [run, hp, if_true]
              | false =>
                  by_cases hst : ∃ st, w = .stopped st
                  · obtain ⟨st, rfl⟩ := hst
                    refine .dropped hp rfl rfl (.inr rfl) ?_ ?_
                    · simp [stint?, hp]
                    · simp [run, hp]
                  · cases delay with
                    | none =>
                        refine .works hp rfl rfl (fun _ => ⟨rfl, fun st h => hst ⟨st, h⟩⟩) ?_ ?_
                        · cases w <;> simp_all [stint?]
                        · cases w <;> simp_all [run]
                    | some d =>
                        refine .delayed hp rfl rfl rfl ?_ ?_
                        · cases w <;> simp_all [stint?]
                        · cases w <;> simp_all [run]
      | working => exact hidle (fun _ h => nomatch h) (by simp [stint?, hp]) (by simp [run, hp])
      | asleep => exact hidle (fun _ h => nomatch h) (by simp [stint?, hp]) (by simp [run, hp])
      | all cs got => exact hidle (fun _ h => nomatch h) (by simp [stint?, hp]) (by simp [run, hp])
      | any => exact hidle (fun _ h => nomatch h) (by simp [stint?, hp]) (by simp [run, hp])

/-- What a stint is given: the task as it is under way, the time and the room. -/
structure Stint.Of (a : Agenda σ β ρ) (t : TaskId) (p : Process β ρ) (s : Stint σ β ρ) : Prop where
  task : s.task = t
  audience : s.audience = p.audience
  now : s.now = a.now
  state : s.state = a.state
  body : s.body = p.body
  first : s.first = !p.begun
  started : s.started = a.started

theorem stint?_eq_some {s : Stint σ β ρ} (hs : a.stint? t = some s) :
    ∃ p, a.process? t = some p ∧ Stint.Of a t p s := by
  -- what the program does does not matter here
  cases runsTo (fun _ s _ _ => ⟨s, [], .finish (.error .cancelled)⟩) a t with
  | idle _ h _ => exact nomatch hs.symm.trans h
  | dropped _ _ _ _ h _ => exact nomatch hs.symm.trans h
  | delayed _ _ _ _ h _ => exact nomatch hs.symm.trans h
  | @works p w v hp hw hv hb h hr =>
      rw [← Option.some.inj (h.symm.trans hs)]
      exact ⟨p, hp, rfl, rfl, rfl, rfl, rfl, rfl, rfl⟩

/-! ## A turn -/

/-- A task that has not begun has no stints. -/
theorem Stands.fresh {p : Process β ρ} (hp : Stands P h a t p) (hb : p.begun = false) :
    h.latest t = none ∧ Fresh P h a t p := by
  unfold Stands at hp
  split at hp
  · rename_i hnone
    exact ⟨hnone, hp⟩
  · rw [hb] at hp
    exact nomatch hp.1

/-- A task that works follows its history. -/
theorem Sound.follows (ha : Sound P none h a) {p : Process β ρ} {w v : Wake ρ}
    (hp : a.process? t = some p) (hw : p.waiting = .queued w)
    (hv : v = if p.stopping then .stopped .cancelled else w)
    (hb : p.begun = false → p.stopping = false ∧ ∀ st, w ≠ .stopped st) :
    h.Follows P ⟨t, p.audience, a.now, a.state, p.body, v, !p.begun, a.started⟩ := by
  have hstands := ha.stands t nofun p hp
  unfold Stands at hstands
  unfold History.Follows
  split at hstands
  · rename_i hnone
    rw [hnone]
    obtain ⟨hstop, hne⟩ := hb hstands.begun
    rw [hstop, if_neg Bool.false_ne_true] at hv
    refine ⟨by rw [hstands.begun]; rfl, ?_, hstands.started⟩
    rcases hstands.waiting with hw' | hw' | hw'
    · exact hv.trans (Waiting.queued.inj (hw.symm.trans hw'))
    · exact nomatch hw.symm.trans hw'
    · exact absurd (Waiting.queued.inj (hw.symm.trans hw')) (hne _)
  · rename_i s hs
    rw [hs]
    obtain ⟨hbegun, haud, hrests⟩ := hstands
    have hleads : h.Leads P s p.body w := by
      cases hrests with
      | queued hw' hl =>
          obtain rfl := Waiting.queued.inj (hw.symm.trans hw')
          exact hl
      | asleep hw' _ => exact nomatch hw.symm.trans hw'
      | collecting hw' _ => exact nomatch hw.symm.trans hw'
      | awaiting hw' _ => exact nomatch hw.symm.trans hw'
      | gathering hw' _ _ _ => exact nomatch hw.symm.trans hw'
    refine ⟨by rw [hbegun]; rfl, haud, ?_⟩
    rw [hv]
    split
    · exact History.leads_cancelled hleads.body
    · exact hleads

/-- The agenda while a task is at work that has left the room in some state. -/
def atWork (a : Agenda σ β ρ) (t : TaskId) (s : σ) : Agenda σ β ρ :=
  { a.adjust t (fun p => { p with waiting := .working, begun := true, stopping := false }) with
    state := s }

theorem process?_atWork (a : Agenda σ β ρ) (t u : TaskId) (s : σ) :
    (a.atWork t s).process? u = if u = t then (a.process? u).map fun p =>
      { p with waiting := .working, begun := true, stopping := false } else a.process? u :=
  process?_adjust a t u fun p => { p with waiting := .working, begun := true, stopping := false }

/-- What a task does in one stretch: it changes the room, books what it books, and stops. -/
theorem work_eq_settleTurn (ha : a.Numbered) {p : Process β ρ} (hp : a.process? t = some p)
    (body : β) (w : Wake ρ) :
    let turn := P a.now a.state body w
    let b := (a.atWork t turn.state).bookAll turn.appointments
    ∃ q, b.process? t = some q ∧
      Process.Told { p with waiting := .working, begun := true, stopping := false } q ∧
      a.work P t body w = b.settleTurn t q turn.next := by
  intro turn b
  have hatWork : (a.atWork t turn.state).process? t
      = some { p with waiting := .working, begun := true, stopping := false } := by
    rw [process?_atWork, if_pos rfl, hp]
    rfl
  have hnumbered : (a.atWork t turn.state).Numbered := by
    intro u q hq
    rw [process?_atWork] at hq
    split at hq
    · obtain ⟨r, hr, -⟩ := Option.map_eq_some_iff.mp hq
      exact ha hr
    · exact ha hq
  obtain ⟨q, hq, hpq⟩ := (rebooked_bookAll turn.appointments hnumbered).kept hatWork
  refine ⟨q, hq, hpq, ?_⟩
  have hwork : a.work P t body w
      = match b.process? t with
        | none => b
        | some p => b.settleTurn t p turn.next := rfl
  rw [hwork, hq]

/-- A task that works keeps the agenda to its history, which has one stint more. -/
theorem Sound.works (ha : Sound P (some t) h a) {s : Stint σ β ρ} {p : Process β ρ}
    (hp : a.process? t = some p) (hs : h.Follows P s) (ht : s.task = t)
    (haud : p.audience = s.audience) (hnow : s.now = a.now) (hstate : s.state = a.state)
    (hstarted : s.started = a.started) :
    Sound P none (s :: h) (a.work P t s.body s.wake) := by
  have hturn : P a.now a.state s.body s.wake = s.turn P := by
    unfold Stint.turn
    rw [hnow, hstate]
  have hatWork : Sound P (some t) h (a.atWork t (s.turn P).state) :=
    (ha.adjust_busy fun p => { p with waiting := .working, begun := true, stopping := false }).edit
      rfl rfl rfl rfl rfl
  have hbook := rebooked_bookAll (s.turn P).appointments hatWork.numbered
  have hlt : t < a.started := ha.numbered hp
  have hdone := (hatWork.rebooked hbook).work ht (Nat.lt_of_lt_of_le hlt hbook.started) hs
  obtain ⟨q, hq, hpq, hwork⟩ := work_eq_settleTurn ha.numbered hp s.body s.wake (P := P)
  rw [hwork]
  rw [hturn] at hq ⊢
  refine hdone.settleTurn hq (History.latest_cons_self ht) hpq.begun (hpq.audience.trans haud)
    (hnow.trans hbook.now.symm) ?_
  unfold Stint.firstChild
  rw [hstarted, started_bookAll]
  rfl

/-- A task that has its turn keeps the agenda to its history. -/
theorem Sound.run (ha : Sound P none h a) {place : Nat} (hi : a.ready[place]? = some (.run t)) :
    Sound P none ((a.stint? t).toList ++ h) ((a.taken place).run P t) := by
  have hother : ∀ u, Item.run (ρ := ρ) t = .run u → some t ≠ some u → ∀ p w,
      a.process? u = some p → p.waiting ≠ .queued w :=
    fun u he hne => absurd (congrArg some (Item.run.inj he)) hne
  have hawake : ∀ {p w}, a.process? t = some p → p.waiting = .queued w →
      ∀ m ∈ a.timers, some t ≠ some m.task := by
    intro p w hp hw m hm he
    obtain ⟨-, -, hwait⟩ := ha.timed m hm
    rw [← Option.some.inj he] at hwait
    exact nomatch hw.symm.trans (hwait p hp).1
  have hstint : (a.taken place).stint? t = a.stint? t := rfl
  rw [← hstint]
  cases runsTo P (a.taken place) t with
  | idle hw hs hr =>
      rw [hs, hr]
      refine ha.taken hi (fun u he _ p w hp => ?_) fun _ _ => nofun
      obtain rfl := Item.run.inj he
      exact hw p w hp
  | @dropped p w st hp hb hw hst hs hr =>
      rw [hs, hr]
      obtain ⟨hnone, hfresh⟩ := (ha.stands t nofun p hp).fresh hb
      refine (ha.taken hi hother (hawake hp hw)).finish hp (fun s hs => ?_) fun u hu => .inl ?_
      · exact nomatch hnone.symm.trans hs
      · rcases hst with ⟨-, rfl⟩ | rfl
        · rfl
        · exact nomatch hw.symm.trans (hfresh.child u hu).2
  | @delayed p w d hp hb hw hd hs hr =>
      rw [hs, hr]
      obtain ⟨hnone, hfresh⟩ := (ha.stands t nofun p hp).fresh hb
      have htaken := (ha.taken hi hother (hawake hp hw)).adjust_busy
        fun p => { p with delay := none }
      have hstands : ∀ {v : Waiting ρ}, v = .queued .start ∨ v = .asleep →
          Stands P h ((a.taken place).adjust t fun p => { p with delay := none }) t
            { p with delay := none, waiting := v } := by
        intro v hv
        unfold Stands
        rw [hnone]
        refine ⟨hb, hv.imp_right .inl, fun u hu => ?_, hfresh.started⟩
        exact nomatch hd.symm.trans (hfresh.child u hu).1
      have hundelayed : ((a.taken place).adjust t fun p => { p with delay := none }).process? t
          = some { p with delay := none } := by
        rw [process?_adjust_self, hp]
        rfl
      refine htaken.lay hundelayed d .endless (hstands (.inl rfl)) (hstands (.inr rfl))
        (fun s hs => nomatch hnone.symm.trans hs) ?_ (.inl rfl)
      show Rouses p.begun .start
      rw [hb]
      rfl
  | @works p w v hp hw hv hb hs hr =>
      rw [hs, hr]
      exact (ha.taken hi hother (hawake hp hw)).works hp (ha.follows hp hw hv hb) rfl rfl rfl rfl
        rfl

end BuildingAlerts.Agenda
