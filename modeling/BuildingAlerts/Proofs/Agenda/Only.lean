/-
Kinds of work that stay among themselves.

A kind `G` says of work whether it may be done for an audience. If work of the kind goes on with
such work, starts only such and books only such, and nothing else is asked for, then no other
work is ever under way or done.
-/
import BuildingAlerts.Proofs.Agenda.Run

set_option autoImplicit false

namespace BuildingAlerts.Agenda

variable {σ β ρ : Type} {P : Program σ β ρ} {G : Audience → β → Prop}
  {a b : Agenda σ β ρ} {t : TaskId}

/-- All that work of a kind leads to is of that kind. -/
structure Closed (P : Program σ β ρ) (G : Audience → β → Prop) : Prop where
  booked : ∀ now s body w v, G v body → ∀ m ∈ (P now s body w).appointments, G .nobody m.body
  keeps : ∀ now s body w v, G v body → ∀ b, (P now s body w).next.body? = some b → G v b
  children : ∀ now s body w v, G v body → ∀ c ∈ (P now s body w).next.children, ∀ t, G (.task t) c

/-- All work under way is of a kind. -/
def Only (G : Audience → β → Prop) (a : Agenda σ β ρ) : Prop :=
  ∀ t p, a.process? t = some p → G p.audience p.body

/-- Tasks keep their work, or take up some of the kind. -/
theorem Only.goOn (ha : Only G a) (hb : ∀ u q, b.process? u = some q →
    G q.audience q.body ∨ ∃ p, a.process? u = some p ∧ q.audience = p.audience ∧
      q.body = p.body) : Only G b := by
  intro u q hq
  rcases hb u q hq with hG | ⟨p, hp, haudience, hbody⟩
  · exact hG
  · rw [haudience, hbody]
    exact ha u p hp

theorem Only.adjust (ha : Only G a) {f : Process β ρ → Process β ρ}
    (hf : ∀ p, a.process? t = some p →
      (f p).audience = p.audience ∧ (f p).body = p.body ∨ G (f p).audience (f p).body) :
    Only G (a.adjust t f) := by
  refine ha.goOn fun u q hq => ?_
  rw [process?_adjust] at hq
  split at hq
  · rename_i hu
    obtain ⟨p, hp, rfl⟩ := Option.map_eq_some_iff.mp hq
    rcases hf p (hu ▸ hp) with hf | hf
    · exact .inr ⟨p, hp, hf⟩
    · exact .inl hf
  · exact .inr ⟨q, hq, rfl, rfl⟩

/-- Items, timers, bookings and the room do not matter. -/
theorem Only.edit (ha : Only G a) (hb : b.process? = a.process?) : Only G b := by
  intro u q hq
  rw [hb] at hq
  exact ha u q hq

theorem Only.wake (ha : Only G a) (w : Wake ρ) : Only G (a.wake t w) :=
  (ha.adjust (f := fun p => { p with waiting := .queued w }) fun _ _ => .inl ⟨rfl, rfl⟩).edit rfl

/-- Telling tasks to stop. -/
theorem Only.told (ha : Only G a) (hb : a.Rebooked b) (hs : b.started = a.started) :
    Only G b := by
  refine ha.goOn fun u q hq => .inr ?_
  rcases hb.process?_eq_some hq with ⟨p, hp, hpq⟩ | ⟨-, hle, hlt, -⟩
  · exact ⟨p, hp, hpq.audience, hpq.body⟩
  · exact absurd hle (Nat.not_le.mpr (hs ▸ hlt))

theorem Only.cancel (ha : Only G a) : Only G (a.cancel t) :=
  ha.told (rebooked_cancel a t) (cancelWithin_keeps _ _ _).1

theorem Only.cancelKey (ha : Only G a) (key : String) : Only G (a.cancelKey key).2 :=
  ha.told (rebooked_cancelKey a key) (started_cancelKey a key)

theorem Only.cancelAlert (ha : Only G a) (alertId : String) : Only G (a.cancelAlert alertId).2 := by
  have hall : ∀ (keys : List String) {b : Agenda σ β ρ}, Only G b → Only G (b.cancelKeys keys).2 := by
    intro keys
    induction keys with
    | nil => exact fun hb => hb
    | cons key keys ih => exact fun hb => ih (hb.cancelKey key)
  exact hall _ ha

theorem Only.cancelBookings (ha : Only G a) : Only G a.cancelBookings := by
  have hall : ∀ (ts : List TaskId) {b : Agenda σ β ρ}, Only G b → Only G (ts.foldl Agenda.cancel b) := by
    intro ts
    induction ts with
    | nil => exact fun hb => hb
    | cons t ts ih => exact fun hb => ih hb.cancel
  exact (hall _ ha).edit rfl

theorem Only.start (ha : Only G a) {p : Process β ρ} (hp : G p.audience p.body) :
    Only G (a.start p) := by
  intro u q hq
  rw [process?_start] at hq
  rcases Option.or_eq_some_iff.mp hq with hq | ⟨-, hq⟩
  · exact ha u q hq
  · split at hq
    · rw [← Option.some.inj hq]
      exact hp
    · exact nomatch hq

theorem Only.bookAll {ms : List (Appointment β)} (ha : Only G a) 
    (hms : ∀ m ∈ ms, G .nobody m.body) : Only G (a.bookAll ms) := by
  induction ms generalizing a with
  | nil => exact ha
  | cons m ms ih =>
      have hkey := (ha.cancelKey m.key).edit (b := { (a.cancelKey m.key).2 with
        timetable := (a.cancelKey m.key).2.timetable.book m.key
          ⟨m.alertId, (a.cancelKey m.key).2.started⟩ }) rfl
      exact ih (hkey.start (p := .booked m.key m.delay m.body) (hms m List.mem_cons_self))
        fun n hn => hms n (List.mem_cons_of_mem _ hn)

theorem Only.launchAll {bodies : List β} (ha : Only G a) 
    (hb : ∀ c ∈ bodies, G (.task t) c) : Only G (a.launchAll t bodies) := by
  induction bodies generalizing a with
  | nil => exact ha
  | cons body bodies ih =>
      exact ih (ha.start (p := .fresh body (.task t)) (hb body List.mem_cons_self))
        fun c hc => hb c (List.mem_cons_of_mem _ hc)

theorem Only.finish (ha : Only G a) (p : Process β ρ) (o : Outcome ρ) :
    Only G (a.finish t p o) := by
  refine ha.goOn fun u q hq => .inr ⟨q, ?_, rfl, rfl⟩
  have hprocess : (a.finish t p o).process? u = (a.remove t).process? u := by
    unfold Agenda.finish
    cases p.key <;> cases p.audience <;> rfl
  rw [hprocess, process?_remove] at hq
  split at hq
  · exact nomatch hq
  · exact hq

/-- A task goes on with other work, which may be done for its audience. -/
theorem Only.park (ha : Only G a) {body : β}
    (hb : ∀ p, a.process? t = some p → G p.audience body) (w : Waiting ρ) :
    Only G (a.park t body w) :=
  ha.adjust fun p hp => .inr (hb p hp)

theorem Only.lay (ha : Only G a) {body : β}
    (hb : ∀ p, a.process? t = some p → G p.audience body) (delay limit : Delay) (w : Wake ρ) :
    Only G (a.lay t body delay limit w) := by
  unfold Agenda.lay
  split
  · exact (ha.park hb _).edit rfl
  · exact (ha.park hb _).edit rfl

theorem Only.settleTurn (ha : Only G a) (hn : a.Numbered) {p : Process β ρ}
    (hp : a.process? t = some p) {next : Next β ρ}
    (hkeeps : ∀ body, next.body? = some body → G p.audience body)
    (hchildren : ∀ c ∈ next.children, G (.task t) c) : Only G (a.settleTurn t p next) := by
  have hown : ∀ body, next.body? = some body → ∀ q, a.process? t = some q → G q.audience body :=
    fun body hbody q hq => Option.some.inj (hp.symm.trans hq) ▸ hkeeps body hbody
  have hlaunched : ∀ (cs : List β) (body : β), next.body? = some body →
      ∀ q, (a.launchAll t cs).process? t = some q → G q.audience body := by
    intro cs body hbody q hq
    rw [(launched_launchAll t cs hn).process, if_pos (hn hp)] at hq
    exact hown body hbody q hq
  have hunmark : ∀ {b : Agenda σ β ρ}, Only G b →
      Only G (b.adjust t fun p => { p with stopping := false }) :=
    fun hb => hb.adjust fun _ _ => .inl ⟨rfl, rfl⟩
  have hstop : ∀ {b : Agenda σ β ρ}, Only G b → Only G (if p.stopping then
      (b.adjust t fun p => { p with stopping := false }).cancel t else b) := by
    intro b hb
    split
    · exact (hunmark hb).cancel
    · exact hb
  unfold Agenda.settleTurn
  cases next with
  | finish o => exact ha.finish _ _
  | pause body => exact (ha.park (hown body rfl) (.queued .resumed)).edit rfl
  | sleep delay limit body =>
      have hlay := ha.lay (t := t) (hown body rfl) delay limit .resumed
      dsimp only
      split
      · exact (hunmark hlay).wake _
      · exact hlay
  | gather children body =>
      exact hstop ((ha.launchAll hchildren).park (hlaunched children body rfl) _)
  | collect children body =>
      exact hstop ((ha.launchAll hchildren).park (hlaunched children body rfl) _)
  | await body => exact hstop (ha.park (hown body rfl) _)

/-- A turn of a task. -/
theorem Only.run (hP : Closed P G) (ha : Only G a) (hn : a.Numbered) (t : TaskId) :
    Only G (a.run P t) := by
  cases runsTo P a t with
  | idle hw hs hr =>
      rw [hr]
      exact ha
  | dropped hp hb hw hst hs hr =>
      rw [hr]
      exact ha.finish _ _
  | @delayed p w d hp hb hw hd hs hr =>
      rw [hr]
      have hundelayed : Only G (a.adjust t fun p => { p with delay := none }) :=
        ha.adjust fun _ _ => .inl ⟨rfl, rfl⟩
      refine hundelayed.lay (fun q hq => ?_) _ _ _
      rw [process?_adjust_self, hp] at hq
      rw [← Option.some.inj hq]
      exact ha t p hp
  | @works p w v hp hw hv hb hs hr =>
      rw [hr]
      obtain ⟨q, hq, hpq, hwork⟩ := work_eq_settleTurn hn hp p.body v (P := P)
      rw [hwork]
      have hG := ha t p hp
      have hatWork : Only G (a.atWork t (P a.now a.state p.body v).state) :=
        (ha.adjust (t := t) (f := fun p => { p with waiting := .working, begun := true, stopping := false })
          fun _ _ => .inl ⟨rfl, rfl⟩).edit rfl
      have hbook := rebooked_bookAll (P a.now a.state p.body v).appointments
        (hn.atWork (t := t) (P a.now a.state p.body v).state)
      refine (hatWork.bookAll (hP.booked _ _ _ _ _ hG)).settleTurn
        (hbook.numbered (hn.atWork _)) hq (fun body hbody => ?_)
        fun c hc => hP.children _ _ _ _ _ hG c hc t
      rw [hpq.audience]
      exact hP.keeps _ _ _ _ _ hG body hbody

theorem Only.step (hP : Closed P G) (ha : Only G a) (hn : a.Numbered) {place : Nat}
    (hb : a.stepAt P place = some b) : Only G b := by
  unfold stepAt at hb
  obtain ⟨i, -, rfl⟩ := Option.map_eq_some_iff.mp hb
  have htaken : Only G (a.taken place) := ha
  cases i with
  | run t => exact htaken.run hP hn t
  | report t c o =>
      show Only G ((a.taken place).report t c o)
      unfold Agenda.report
      split
      · exact htaken
      · split
        · split
          · split
            · exact htaken.wake _
            · dsimp only
              split
              · exact htaken.wake _
              · exact htaken.adjust fun _ _ => .inl ⟨rfl, rfl⟩
          · exact htaken
        · exact htaken.wake _
        · exact htaken.adjust fun _ _ => .inl ⟨rfl, rfl⟩
        · exact htaken

theorem Only.passTo (ha : Only G a) (time : Instant) : Only G (a.passTo time) := by
  have hall : ∀ (ms : List (Timer ρ)) {b : Agenda σ β ρ}, Only G b → Only G (ms.foldl goOff b) := by
    intro ms
    induction ms with
    | nil => exact fun hb => hb
    | cons m ms ih =>
        intro b hb
        refine ih ?_
        unfold goOff
        split
        · split
          · exact hb.wake _
          · exact hb
        · exact hb
  exact hall _ (ha.edit rfl)

/-- **All work that is under way or done is of the kind**, in any run that starts so and is
asked for nothing else. -/
theorem Run.only {Serve : Agenda σ β ρ → Agenda σ β ρ → Prop} {start : Agenda σ β ρ}
    {h : History σ β ρ} (hP : Closed P G) (hstart : Sound P none [] start)
    (hout : ∀ {a b}, a.Numbered → Serve a b → a.Outside b) (honly : Only G start)
    (hserve : ∀ {a b}, Only G a → Serve a b → Only G b) (hr : Run P Serve start h a) :
    Only G a ∧ ∀ s ∈ h, G s.audience s.body := by
  induction hr with
  | idle => exact ⟨honly, fun _ hs => absurd hs List.not_mem_nil⟩
  | @step h a b place hr hb ih =>
      refine ⟨ih.1.step hP (hr.sound hstart hout).numbered hb, fun s hs => ?_⟩
      rcases List.mem_append.mp hs with hs | hs
      · obtain ⟨-, -, p, hp, hof⟩ := stintAt?_eq_some (Option.mem_toList.mp hs)
        rw [hof.audience, hof.body]
        exact ih.1 _ p hp
      · exact ih.2 s hs
  | pass _ _ _ ih => exact ⟨ih.1.passTo _, ih.2⟩
  | serve _ hb ih => exact ⟨hserve ih.1 hb, ih.2⟩

end BuildingAlerts.Agenda
