/-
The agenda keeps to its history.

`Sound` is the invariant that carries every statement about histories: each task under way
waits as its latest stint has it, whoever has its turn is among the ready items, timers belong
to sleepers, and each task that ended is reported once at most, with an outcome that the history
bears out. While a task is at work nothing is asked of that one task; it is the `busy` one.
-/
import BuildingAlerts.Proofs.Agenda.History
import BuildingAlerts.Proofs.Agenda.Telling

set_option autoImplicit false

namespace BuildingAlerts.Agenda

variable {σ β ρ : Type} (P : Program σ β ρ)

/-! ## The invariant -/

/-- A task has ended and nobody is still to be told. -/
structure Heard (a : Agenda σ β ρ) (c : TaskId) : Prop where
  gone : a.process? c = none
  past : c < a.started
  told : ∀ i ∈ a.ready, i.child? ≠ some c

/-- How a task that has begun waits after its latest stint. -/
inductive Rests (h : History σ β ρ) (a : Agenda σ β ρ) (s : Stint σ β ρ) (p : Process β ρ) :
    Prop where
  | queued {w : Wake ρ} (hw : p.waiting = .queued w) (hl : h.Leads P s p.body w)
  | asleep {d l : Delay} (hw : p.waiting = .asleep) (hs : (s.turn P).next = .sleep d l p.body)
  | collecting {cs : List β} (hw : p.waiting = .any) (hs : (s.turn P).next = .collect cs p.body)
  | awaiting (hw : p.waiting = .any) (hs : (s.turn P).next = .await p.body)
  | gathering {cs : List β} {got : List (TaskId × ρ)} (hw : p.waiting = .all (s.childIds P) got)
      (hs : (s.turn P).next = .gather cs p.body) (hn : (got.map (·.1)).Nodup)
      (hg : ∀ g ∈ got, g.1 ∈ s.childIds P ∧ a.Heard g.1 ∧ h.Ended P s.task g.1 (.ok g.2))

/-- How a task waits that has not begun. -/
structure Fresh (h : History σ β ρ) (a : Agenda σ β ρ) (t : TaskId) (p : Process β ρ) :
    Prop where
  begun : p.begun = false
  waiting : p.waiting = .queued .start ∨ p.waiting = .asleep ∨
    p.waiting = .queued (.stopped .cancelled)
  child : ∀ u, p.audience = .task u → p.delay = none ∧ p.waiting = .queued .start
  started : h.Started P p.audience t p.body a.now

/-- How a task waits. -/
def Stands (h : History σ β ρ) (a : Agenda σ β ρ) (t : TaskId) (p : Process β ρ) : Prop :=
  match h.latest t with
  | none => Fresh P h a t p
  | some s => p.begun = true ∧ p.audience = s.audience ∧ Rests P h a s p

/-- The reason for which a sleeper goes on when its timer goes off. -/
def Rouses (begun : Bool) (w : Wake ρ) : Prop :=
  match begun with
  | false => w = .start
  | true => w = .resumed ∨ w = .expired

/-- An agenda keeps to its history, but for a task that is at work. -/
structure Sound (busy : Option TaskId) (h : History σ β ρ) (a : Agenda σ β ρ) : Prop where
  numbered : a.Numbered
  coherent : h.Coherent P
  past : ∀ s ∈ h, s.task < a.started
  living : ∀ t, busy ≠ some t → ∀ s, h.latest t = some s →
    (a.process? t = none ↔ ∃ o, s.Ends P o)
  turn : ∀ t, busy ≠ some t → ∀ p w, a.process? t = some p → p.waiting = .queued w →
    .run t ∈ a.ready
  timed : ∀ m ∈ a.timers, m.task < a.started ∧ busy ≠ some m.task ∧
    ∀ p, a.process? m.task = some p → p.waiting = .asleep ∧ Rouses p.begun m.wake
  once : (a.ready.filterMap Item.child?).Nodup
  reported : ∀ t c o, .report t c o ∈ a.ready →
    a.process? c = none ∧ c < a.started ∧ h.Ended P t c o
  stands : ∀ t, busy ≠ some t → ∀ p, a.process? t = some p → Stands P h a t p

variable {P}

/-! ## What does not matter -/

theorem Rests.frame {h k : History σ β ρ} {a b : Agenda σ β ρ} {s : Stint σ β ρ}
    {p : Process β ρ} (hp : Rests P h a s p) (hk : ∀ d ∈ h, d ∈ k)
    (hb : ∀ c, a.Heard c → b.Heard c) : Rests P k b s p := by
  cases hp with
  | queued hw hl => exact .queued hw (hl.mono hk)
  | asleep hw hs => exact .asleep hw hs
  | collecting hw hs => exact .collecting hw hs
  | awaiting hw hs => exact .awaiting hw hs
  | gathering hw hs hn hg =>
      refine .gathering hw hs hn fun g hgm => ?_
      obtain ⟨hmem, hheard, hended⟩ := hg g hgm
      exact ⟨hmem, hb _ hheard, hended.mono hk⟩

theorem Fresh.frame {h k : History σ β ρ} {a b : Agenda σ β ρ} {t : TaskId} {p : Process β ρ}
    (hp : Fresh P h a t p) (hk : ∀ d ∈ h, d ∈ k) (hnow : b.now = a.now) : Fresh P k b t p :=
  ⟨hp.begun, hp.waiting, hp.child, hnow ▸ hp.started.mono hk⟩

/-- How a task waits is not changed by what others do. -/
theorem Stands.frame {h k : History σ β ρ} {a b : Agenda σ β ρ} {t : TaskId} {p : Process β ρ}
    (hp : Stands P h a t p) (hk : ∀ d ∈ h, d ∈ k) (hlatest : k.latest t = h.latest t)
    (hnow : b.now = a.now) (hb : ∀ c, a.Heard c → b.Heard c) : Stands P k b t p := by
  unfold Stands at *
  rw [hlatest]
  split
  · rename_i hnone
    rw [hnone] at hp
    exact hp.frame hk hnow
  · rename_i s hs
    rw [hs] at hp
    exact ⟨hp.1, hp.2.1, hp.2.2.frame hk hb⟩

/-- The room, the bookings and the answer may change without any task noticing. -/
theorem Sound.edit {busy : Option TaskId} {h : History σ β ρ} {a b : Agenda σ β ρ}
    (ha : Sound P busy h a) (hprocess : b.process? = a.process?) (hready : b.ready = a.ready)
    (htimers : b.timers = a.timers) (hstarted : b.started = a.started) (hnow : b.now = a.now) :
    Sound P busy h b := by
  have hheard : ∀ c, a.Heard c → b.Heard c := by
    intro c hc
    exact ⟨hprocess ▸ hc.gone, hstarted ▸ hc.past, hready ▸ hc.told⟩
  refine ⟨?_, ha.coherent, ?_, ?_, ?_, ?_, ?_, ?_, ?_⟩
  · intro t p hp
    rw [hprocess] at hp
    rw [hstarted]
    exact ha.numbered hp
  · rw [hstarted]
    exact ha.past
  · rw [hprocess]
    exact ha.living
  · rw [hprocess, hready]
    exact ha.turn
  · rw [hprocess, htimers, hstarted]
    exact ha.timed
  · rw [hready]
    exact ha.once
  · rw [hprocess, hready, hstarted]
    exact ha.reported
  · intro t ht p hp
    rw [hprocess] at hp
    exact (ha.stands t ht p hp).frame (fun _ hd => hd) rfl hnow hheard

/-! ## Being told to stop -/

theorem Rests.told {h : History σ β ρ} {a : Agenda σ β ρ} {s : Stint σ β ρ}
    {p q : Process β ρ} (hp : Rests P h a s p) (hq : p.Told q) : Rests P h a s q := by
  have hstop : (s.turn P).next.body? = some p.body → q.waiting = .queued (.stopped .cancelled) →
      Rests P h a s q := by
    intro hbody hw
    refine .queued hw ?_
    rw [hq.body]
    exact History.leads_cancelled hbody
  have hbody : ∀ {b}, p.body = b → q.body = b := fun hb => hq.body.trans hb
  cases hp with
  | queued hw hl =>
      rcases hq.waiting with heq | ⟨hw' | hw', -⟩
      · exact .queued (heq.trans hw) (by rw [hq.body]; exact hl)
      · exact nomatch hw.symm.trans hw'
      · exact nomatch hw.symm.trans hw'
  | asleep hw hs =>
      rcases hq.waiting with heq | ⟨-, hw'⟩
      · exact .asleep (heq.trans hw) (by rw [hq.body]; exact hs)
      · exact hstop (by rw [hs]; rfl) hw'
  | collecting hw hs =>
      rcases hq.waiting with heq | ⟨-, hw'⟩
      · exact .collecting (heq.trans hw) (by rw [hq.body]; exact hs)
      · exact hstop (by rw [hs]; rfl) hw'
  | awaiting hw hs =>
      rcases hq.waiting with heq | ⟨-, hw'⟩
      · exact .awaiting (heq.trans hw) (by rw [hq.body]; exact hs)
      · exact hstop (by rw [hs]; rfl) hw'
  | gathering hw hs hn hg =>
      rcases hq.waiting with heq | ⟨hw' | hw', -⟩
      · exact .gathering (heq.trans hw) (by rw [hq.body]; exact hs) hn hg
      · exact nomatch hw.symm.trans hw'
      · exact nomatch hw.symm.trans hw'

theorem Fresh.told {h : History σ β ρ} {a : Agenda σ β ρ} {t : TaskId} {p q : Process β ρ}
    (hp : Fresh P h a t p) (hq : p.Told q) : Fresh P h a t q where
  begun := hq.begun.trans hp.begun
  waiting := by
    rcases hq.waiting with hw | ⟨-, hw⟩
    · rw [hw]
      exact hp.waiting
    · exact .inr (.inr hw)
  child := by
    intro u hu
    obtain ⟨hdelay, hw⟩ := hp.child u (hq.audience ▸ hu)
    refine ⟨hq.delay.trans hdelay, ?_⟩
    rcases hq.waiting with hw' | ⟨hw' | hw', -⟩
    · exact hw'.trans hw
    · exact nomatch hw.symm.trans hw'
    · exact nomatch hw.symm.trans hw'
  started := by
    rw [hq.audience, hq.body]
    exact hp.started

theorem Stands.told {h : History σ β ρ} {a : Agenda σ β ρ} {t : TaskId} {p q : Process β ρ}
    (hp : Stands P h a t p) (hq : p.Told q) : Stands P h a t q := by
  unfold Stands at *
  split
  · rename_i hnone
    rw [hnone] at hp
    exact hp.told hq
  · rename_i s hs
    rw [hs] at hp
    exact ⟨hq.begun.trans hp.1, hq.audience.trans hp.2.1, hp.2.2.told hq⟩

theorem Heard.rebooked {a b : Agenda σ β ρ} (hb : a.Rebooked b) {c : TaskId} (hc : a.Heard c) :
    b.Heard c where
  gone := by
    cases hq : b.process? c with
    | none => rfl
    | some q =>
        have hle := (hb.added hq hc.gone).1
        exact absurd hc.past (Nat.not_lt.mpr hle)
  past := Nat.lt_of_lt_of_le hc.past hb.started
  told := by
    intro i hi
    obtain ⟨ts, hts⟩ := hb.ready
    rw [hts] at hi
    rcases List.mem_append.mp hi with hi | hi
    · exact hc.told i hi
    · obtain ⟨t, -, rfl⟩ := List.mem_map.mp hi
      exact fun h => nomatch h

/-- Telling, booking and asking from outside. -/
theorem Sound.rebooked {busy : Option TaskId} {h : History σ β ρ} {a b : Agenda σ β ρ}
    (ha : Sound P busy h a) (hb : a.Rebooked b) : Sound P busy h b := by
  have hgone : ∀ {c}, c < a.started → a.process? c = none → b.process? c = none := by
    intro c hc hnone
    cases hq : b.process? c with
    | none => rfl
    | some q => exact absurd hc (Nat.not_lt.mpr (hb.added hq hnone).1)
  have hreport : ∀ {t c o}, .report t c o ∈ b.ready → .report t c o ∈ a.ready := by
    intro t c o hi
    obtain ⟨ts, hts⟩ := hb.ready
    rw [hts] at hi
    rcases List.mem_append.mp hi with hi | hi
    · exact hi
    · obtain ⟨u, -, hu⟩ := List.mem_map.mp hi
      exact nomatch hu
  refine ⟨hb.numbered ha.numbered, ha.coherent, ?_, ?_, ?_, ?_, ?_, ?_, ?_⟩
  · exact fun s hs => Nat.lt_of_lt_of_le (ha.past s hs) hb.started
  · intro t ht s hs
    rw [← ha.living t ht s hs]
    obtain ⟨hmem, rfl⟩ := History.latest_eq_some hs
    exact ⟨hb.process?_eq_none, hgone (ha.past s hmem)⟩
  · intro t ht q w hq hw
    rcases hb.turn hq hw with ⟨p, hp, hpw⟩ | hmem
    · exact hb.mem_ready (ha.turn t ht p w hp hpw)
    · exact hmem
  · intro m hm
    obtain ⟨hma, hkeep⟩ := hb.timers m hm
    obtain ⟨hlt, hbusy, hwait⟩ := ha.timed m hma
    refine ⟨Nat.lt_of_lt_of_le hlt hb.started, hbusy, fun q hq => ?_⟩
    rcases hb.process?_eq_some hq with ⟨p, hp, hpq⟩ | ⟨-, hle, -, -⟩
    · obtain ⟨hw, hr⟩ := hwait p hp
      rw [hkeep hp hq, hpq.begun]
      exact ⟨hw, hr⟩
    · exact absurd hlt (Nat.not_lt.mpr hle)
  · obtain ⟨ts, hts⟩ := hb.ready
    rw [hts, List.filterMap_append, Item.filterMap_child?_run, List.append_nil]
    exact ha.once
  · intro t c o hi
    obtain ⟨hnone, hlt, hended⟩ := ha.reported t c o (hreport hi)
    exact ⟨hgone hlt hnone, Nat.lt_of_lt_of_le hlt hb.started, hended⟩
  · intro t ht q hq
    rcases hb.process?_eq_some hq with ⟨p, hp, hpq⟩ | ⟨-, hle, -, houter⟩
    · exact ((ha.stands t ht p hp).told hpq).frame (fun _ hd => hd) rfl hb.now
        fun _ hc => hc.rebooked hb
    · unfold Stands
      have hnone : h.latest t = none := by
        refine History.latest_eq_none.mpr fun s hs heq => ?_
        exact absurd (ha.past s hs) (Nat.not_lt.mpr (heq ▸ hle))
      rw [hnone]
      exact ⟨houter.begun, .inl houter.waiting, fun u hu => absurd hu (houter.audience u),
        fun u hu => absurd hu (houter.audience u)⟩

end BuildingAlerts.Agenda
