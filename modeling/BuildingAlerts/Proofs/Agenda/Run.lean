/-
Runs of an agenda.

A run takes the ready items in any order, lets time pass when none is left, and is served from
outside in between; it collects the stints as it goes. Whatever comes from outside may change
the room, tell tasks to stop, book and start others, but it cannot speak for a task. Every
agenda that a run reaches is sound, so every history is coherent.
-/
import BuildingAlerts.Proofs.Agenda.Beside
import BuildingAlerts.Proofs.Agenda.Waking

set_option autoImplicit false

namespace BuildingAlerts.Agenda

variable {σ β ρ : Type}

/-- The stint that comes of the ready item at a place, if one does. -/
def stintAt? (a : Agenda σ β ρ) (place : Nat) : Option (Stint σ β ρ) :=
  a.ready[place]?.bind fun
    | .run t => a.stint? t
    | .report .. => none

/-- What may become of an agenda from outside: the room changes, tasks are told to stop, and
others are started for which no task waits. -/
def Outside (a b : Agenda σ β ρ) : Prop :=
  ∃ s, Rebooked { a with state := s } b

/-- What an agenda may come to, and the stints on the way there. -/
inductive Run (P : Program σ β ρ) (Serve : Agenda σ β ρ → Agenda σ β ρ → Prop)
    (start : Agenda σ β ρ) : History σ β ρ → Agenda σ β ρ → Prop where
  | idle : Run P Serve start [] start
  /-- Any of the ready items is taken. -/
  | step {h : History σ β ρ} {a b : Agenda σ β ρ} {place : Nat} (hr : Run P Serve start h a)
      (hb : a.stepAt P place = some b) : Run P Serve start ((a.stintAt? place).toList ++ h) b
  /-- Nothing is ready, and time passes. -/
  | pass {h : History σ β ρ} {a : Agenda σ β ρ} {time : Instant} (hr : Run P Serve start h a)
      (hready : a.ready = []) (htime : a.now ≤ time) : Run P Serve start h (a.passTo time)
  /-- Something is asked for. -/
  | serve {h : History σ β ρ} {a b : Agenda σ β ρ} (hr : Run P Serve start h a)
      (hb : Serve a b) : Run P Serve start h b

variable {P : Program σ β ρ} {Serve : Agenda σ β ρ → Agenda σ β ρ → Prop}
  {start : Agenda σ β ρ} {h : History σ β ρ} {a : Agenda σ β ρ}

/-- Who is asked for less runs the same. -/
theorem Run.mono {Serve' : Agenda σ β ρ → Agenda σ β ρ → Prop}
    (hserve : ∀ {a b}, Serve a b → Serve' a b) (hr : Run P Serve start h a) :
    Run P Serve' start h a := by
  induction hr with
  | idle => exact .idle
  | step _ hb ih => exact .step ih hb
  | pass _ hready htime ih => exact .pass ih hready htime
  | serve _ hb ih => exact .serve ih (hserve hb)

/-- A run goes on where another one has come to. -/
theorem Run.append {e : History σ β ρ} {b : Agenda σ β ρ} (he : Run P Serve start e a)
    (hr : Run P Serve a h b) : Run P Serve start (h ++ e) b := by
  induction hr with
  | idle => exact he
  | step _ hb ih =>
      rw [List.append_assoc]
      exact .step ih hb
  | pass _ hready htime ih => exact .pass ih hready htime
  | serve _ hb ih => exact .serve ih hb

/-- Who works until a task has ended that was asked for makes a run. -/
theorem exists_run_untilAnswered (patience : Nat) (a : Agenda σ β ρ) :
    ∃ h, Run P Serve a h (untilAnswered P patience a) := by
  induction patience generalizing a with
  | zero => exact ⟨[], .idle⟩
  | succ patience ih =>
      unfold untilAnswered
      split
      · exact ⟨[], .idle⟩
      · split
        · rename_i b hb
          obtain ⟨h, hr⟩ := ih b
          exact ⟨_, Run.append (.step .idle hb) hr⟩
        · rename_i hnone
          have hready : a.ready = [] := by
            unfold step stepAt at hnone
            rw [Option.map_eq_none_iff, List.getElem?_eq_none_iff] at hnone
            exact List.length_eq_zero_iff.mp (Nat.le_zero.mp hnone)
          split
          · rename_i b hb
            obtain ⟨due, -, rfl⟩ := Option.map_eq_some_iff.mp hb
            obtain ⟨h, hr⟩ := ih (a.passTo (max a.now due))
            exact ⟨_, Run.append (.pass .idle hready (Nat.le_max_left _ _)) hr⟩
          · exact ⟨[], .idle⟩

/-! ## Every run is sound -/

theorem sound_idle (P : Program σ β ρ) (s : σ) : Sound P none [] (idle s) where
  numbered := fun hp => nomatch hp
  coherent := History.coherent_nil
  past := fun _ hs => absurd hs List.not_mem_nil
  living := fun _ _ _ hs => nomatch hs
  turn := fun _ _ _ _ hp => nomatch hp
  timed := fun _ hm => absurd hm List.not_mem_nil
  once := List.nodup_nil
  reported := fun _ _ _ hr => absurd hr List.not_mem_nil
  stands := fun _ _ _ hp => nomatch hp

/-- A ready item that is taken keeps the agenda to its history. -/
theorem Sound.step (ha : Sound P none h a) {b : Agenda σ β ρ} {place : Nat}
    (hb : a.stepAt P place = some b) : Sound P none ((a.stintAt? place).toList ++ h) b := by
  unfold stepAt at hb
  obtain ⟨i, hi, rfl⟩ := Option.map_eq_some_iff.mp hb
  unfold stintAt?
  rw [hi]
  cases i with
  | run t => exact ha.run hi
  | report t c o => exact ha.report hi

theorem Sound.outside (ha : Sound P none h a) {b : Agenda σ β ρ} (hb : a.Outside b) :
    Sound P none h b := by
  obtain ⟨s, hb⟩ := hb
  exact (ha.edit (b := { a with state := s }) rfl rfl rfl rfl rfl).rebooked hb

/-- **The agenda keeps to its history** in every run. -/
theorem Run.sound (hstart : Sound P none [] start)
    (hserve : ∀ {a b}, a.Numbered → Serve a b → a.Outside b) (hr : Run P Serve start h a) :
    Sound P none h a := by
  induction hr with
  | idle => exact hstart
  | step _ hb ih => exact ih.step hb
  | pass _ hready _ ih => exact ih.passTo hready _
  | serve _ hb ih => exact ih.outside (hserve ih.numbered hb)

/-- A task that is no longer there and had not ended with a stint went on from it. -/
theorem Sound.next_of_gone (ha : Sound P none h a) {s : Stint σ β ρ} (hs : s ∈ h)
    (hgone : a.process? s.task = none) (hgoes : ¬ ∃ o, s.Ends P o) :
    ∃ d e, d :: e <:+ h ∧ d.task = s.task ∧ d.first = false ∧ d.audience = s.audience ∧
      History.Leads P e s d.body d.wake := by
  rcases History.latest_or_next hs with hl | ⟨d, e, hd, ht, hl⟩
  · exact absurd ((ha.living s.task nofun s hl).mp hgone) hgoes
  · exact ⟨d, e, hd, ht, ha.coherent.next hd ht hl⟩

/-! ## States along a run -/

/-- The state after a ready item is taken is the one that its stint leaves. -/
theorem state_of_stepAt (ha : a.Numbered) {b : Agenda σ β ρ} {place : Nat}
    (hb : a.stepAt P place = some b) :
    b.state = (a.stintAt? place).elim a.state fun s => (s.turn P).state := by
  unfold stepAt at hb
  obtain ⟨i, hi, rfl⟩ := Option.map_eq_some_iff.mp hb
  unfold stintAt?
  rw [hi]
  cases i with
  | run t => exact state_perform P (a := a.taken place) ha (.run t)
  | report t c o => exact state_perform P (a := a.taken place) ha (.report t c o)

theorem now_of_stepAt (ha : a.Numbered) {b : Agenda σ β ρ} {place : Nat}
    (hb : a.stepAt P place = some b) : b.now = a.now := by
  unfold stepAt at hb
  obtain ⟨i, -, rfl⟩ := Option.map_eq_some_iff.mp hb
  exact now_perform P (a := a.taken place) ha i

/-- The stint of a ready item is that of a task that waits for its turn. -/
theorem stintAt?_eq_some {place : Nat} {s : Stint σ β ρ} (hs : a.stintAt? place = some s) :
    a.ready[place]? = some (.run s.task) ∧ a.stint? s.task = some s ∧
      ∃ p, a.process? s.task = some p ∧ Stint.Of a s.task p s := by
  unfold stintAt? at hs
  obtain ⟨i, hi, hs⟩ := Option.bind_eq_some_iff.mp hs
  cases i with
  | report t c o => exact nomatch hs
  | run t =>
      obtain ⟨p, hp, hof⟩ := stint?_eq_some hs
      obtain rfl := hof.task
      exact ⟨hi, hs, p, hp, hof⟩

/-- A relation between states that every stint keeps, and everything from outside, holds between
what the run started with, what a stint left and whatever comes later. -/
theorem Run.rises {R : σ → σ → Prop} (hrefl : ∀ s, R s s)
    (htrans : ∀ {s t u}, R s t → R t u → R s u) (hstart : Sound P none [] start)
    (hout : ∀ {a b}, a.Numbered → Serve a b → a.Outside b)
    (hprogram : ∀ now s body w, R s (P now s body w).state)
    (hserve : ∀ {a b}, a.Numbered → Serve a b → R a.state b.state) (hr : Run P Serve start h a) :
    R start.state a.state ∧ (∀ s ∈ h, R start.state s.state ∧ R (s.turn P).state a.state) ∧
      h.Pairwise fun d s => R (s.turn P).state d.state := by
  induction hr with
  | idle => exact ⟨hrefl _, fun _ hs => absurd hs List.not_mem_nil, .nil⟩
  | @step h a b place hr hb ih =>
      obtain ⟨ihstart, ihall, ihpair⟩ := ih
      have hstate := state_of_stepAt (hr.sound hstart hout).numbered hb
      cases hs : a.stintAt? place with
      | none =>
          rw [hs] at hstate
          rw [hstate]
          exact ⟨ihstart, ihall, ihpair⟩
      | some d =>
          rw [hs] at hstate
          obtain ⟨-, -, p, -, hof⟩ := stintAt?_eq_some hs
          have hturn : R a.state b.state := by
            rw [hstate, ← hof.state]
            exact hprogram d.now d.state d.body d.wake
          refine ⟨htrans ihstart hturn, fun s hs => ?_, List.pairwise_cons.mpr ⟨fun s hs => ?_, ihpair⟩⟩
          · rcases List.mem_cons.mp hs with rfl | hs
            · rw [hof.state, hstate]
              exact ⟨ihstart, hrefl _⟩
            · exact ⟨(ihall s hs).1, htrans (ihall s hs).2 hturn⟩
          · rw [hof.state]
            exact (ihall s hs).2
  | @pass h a time _ _ _ ih =>
      have hstate : (a.passTo time).state = a.state := state_passTo a time
      rw [hstate]
      exact ih
  | serve hr hb ih =>
      have hrise := hserve (hr.sound hstart hout).numbered hb
      exact ⟨htrans ih.1 hrise, fun s hs => ⟨(ih.2.1 s hs).1, htrans (ih.2.1 s hs).2 hrise⟩, ih.2.2⟩

/-! ## Time along a run -/

/-- Every stint of a run was the next one after an earlier run. -/
theorem Run.before (hr : Run P Serve start h a) {s : Stint σ β ρ} {e : History σ β ρ}
    (hs : s :: e <:+ h) : ∃ b c place, Run P Serve start e b ∧ b.stintAt? place = some s ∧
      b.stepAt P place = some c := by
  induction hr with
  | idle => exact absurd (List.suffix_nil.mp hs) (List.cons_ne_nil s e)
  | @step h b c place hr hb ih =>
      cases hd : b.stintAt? place with
      | none =>
          rw [hd] at hs
          exact ih hs
      | some d =>
          rw [hd] at hs
          rcases List.suffix_cons_iff.mp hs with heq | hs
          · obtain ⟨rfl, rfl⟩ := List.cons.inj heq
            exact ⟨b, c, place, hr, hd, hb⟩
          · exact ih hs
  | pass _ _ _ ih => exact ih hs
  | serve _ _ ih => exact ih hs

/-- Whoever works was started before. -/
theorem Run.task_lt_started (hstart : Sound P none [] start)
    (hout : ∀ {a b}, a.Numbered → Serve a b → a.Outside b) (hr : Run P Serve start h a)
    {s : Stint σ β ρ} (hs : s ∈ h) : s.task < s.started := by
  obtain ⟨e, he⟩ := History.exists_suffix_of_mem hs
  obtain ⟨b, c, place, hb, hstint, -⟩ := hr.before he
  obtain ⟨-, -, p, hp, hof⟩ := stintAt?_eq_some hstint
  rw [hof.started]
  exact (hb.sound hstart hout).numbered hp

end BuildingAlerts.Agenda
