/-
What each change of an agenda does to the tasks under way.

An agenda is read through `process?`, and every change of it is described by what `process?`
answers afterwards; the list of the processes is looked at here and nowhere else. The other
fields that a change leaves alone are equal by definition.
-/
import BuildingAlerts.Agenda.Run

set_option autoImplicit false

namespace BuildingAlerts

variable {σ β ρ : Type}

/-- The task that a report is about. -/
def Item.child? : Item ρ → Option TaskId
  | .run _ => none
  | .report _ child _ => some child

/-- Turns of tasks are no reports. -/
@[simp] theorem Item.filterMap_child?_run (ts : List TaskId) :
    (ts.map .run : List (Item ρ)).filterMap Item.child? = [] := by
  rw [List.filterMap_map]
  exact List.filterMap_eq_nil_iff.mpr fun _ _ => rfl

/-- The work to which a task goes on after what it does. -/
def Next.body? : Next β ρ → Option β
  | .pause body | .sleep _ _ body | .gather _ body | .collect _ body | .await body => some body
  | .finish _ => none

/-- The tasks that are started. -/
def Next.children : Next β ρ → List β
  | .gather children _ | .collect children _ => children
  | _ => []

namespace Agenda

/-! ## Looking up -/

private theorem lookup_map_adjust (ps : List (TaskId × Process β ρ)) (t u : TaskId)
    (f : Process β ρ → Process β ρ) :
    (ps.map fun (v, p) => if v = t then (v, f p) else (v, p)).lookup u
      = if u = t then (ps.lookup u).map f else ps.lookup u := by
  induction ps with
  | nil => simp
  | cons q ps ih =>
      obtain ⟨v, p⟩ := q
      rw [List.map_cons]
      by_cases hv : v = t
      · simp only [if_pos hv, List.lookup_cons, ih]
        by_cases hu : u = v
        · simp [hu, hv]
        · have hb : (u == v) = false := by simpa using hu
          simp only [hb]
      · simp only [if_neg hv, List.lookup_cons, ih]
        by_cases hu : u = v
        · simp [hu, hv]
        · have hb : (u == v) = false := by simpa using hu
          simp only [hb]

private theorem lookup_filter_ne (ps : List (TaskId × Process β ρ)) (t u : TaskId) :
    (ps.filter fun (v, _) => v ≠ t).lookup u = if u = t then none else ps.lookup u := by
  induction ps with
  | nil => simp
  | cons q ps ih =>
      obtain ⟨v, p⟩ := q
      by_cases hv : v = t
      · rw [List.filter_cons_of_neg (by simpa using hv), ih, List.lookup_cons]
        by_cases hu : u = t
        · rw [if_pos hu, if_pos hu]
        · have hb : (u == v) = false := by simpa [hv] using hu
          simp only [if_neg hu, hb]
      · rw [List.filter_cons_of_pos (by simpa using hv), List.lookup_cons, List.lookup_cons, ih]
        by_cases hu : u = v
        · have hb : (u == v) = true := by simpa using hu
          simp only [hb, if_neg (hu ▸ hv)]
        · have hb : (u == v) = false := by simpa using hu
          simp only [hb]

theorem process?_adjust (a : Agenda σ β ρ) (t u : TaskId) (f : Process β ρ → Process β ρ) :
    (a.adjust t f).process? u = if u = t then (a.process? u).map f else a.process? u :=
  lookup_map_adjust a.processes t u f

@[simp] theorem process?_adjust_self (a : Agenda σ β ρ) (t : TaskId)
    (f : Process β ρ → Process β ρ) : (a.adjust t f).process? t = (a.process? t).map f := by
  rw [process?_adjust, if_pos rfl]

theorem process?_adjust_of_ne (a : Agenda σ β ρ) {t u : TaskId} (f : Process β ρ → Process β ρ)
    (h : u ≠ t) : (a.adjust t f).process? u = a.process? u := by
  rw [process?_adjust, if_neg h]

/-- What is there before a change is there after it, and nothing else. -/
theorem process?_adjust_eq_none (a : Agenda σ β ρ) {t u : TaskId}
    {f : Process β ρ → Process β ρ} :
    (a.adjust t f).process? u = none ↔ a.process? u = none := by
  rw [process?_adjust]
  split
  · exact Option.map_eq_none_iff
  · exact Iff.rfl

theorem process?_remove (a : Agenda σ β ρ) (t u : TaskId) :
    (a.remove t).process? u = if u = t then none else a.process? u :=
  lookup_filter_ne a.processes t u

theorem process?_start (a : Agenda σ β ρ) (p : Process β ρ) (u : TaskId) :
    (a.start p).process? u = (a.process? u).or (if u = a.started then some p else none) := by
  show (a.processes ++ [(a.started, p)]).lookup u = _
  rw [List.lookup_append]
  congr 1
  rw [List.lookup_cons, List.lookup_nil]
  by_cases hu : u = a.started
  · simp [hu]
  · have hb : (u == a.started) = false := by simpa using hu
    simp only [hb, if_neg hu]

theorem process?_wake (a : Agenda σ β ρ) (t u : TaskId) (w : Wake ρ) :
    (a.wake t w).process? u = if u = t then (a.process? u).map fun p =>
      { p with waiting := .queued w } else a.process? u :=
  process?_adjust a t u fun p => { p with waiting := .queued w }

theorem process?_park (a : Agenda σ β ρ) (t u : TaskId) (body : β) (w : Waiting ρ) :
    (a.park t body w).process? u = if u = t then (a.process? u).map fun p =>
      { p with body := body, waiting := w } else a.process? u :=
  process?_adjust a t u fun p => { p with body := body, waiting := w }

/-! ## What is numbered -/

/-- Every task under way has a number that was given out. -/
def Numbered (a : Agenda σ β ρ) : Prop :=
  ∀ {t p}, a.process? t = some p → t < a.started

/-- A number that was not given out yet is no task. -/
theorem Numbered.process?_eq_none {a : Agenda σ β ρ} (ha : a.Numbered) {t : TaskId}
    (h : a.started ≤ t) : a.process? t = none := by
  cases hp : a.process? t with
  | none => rfl
  | some p => exact absurd (ha hp) (Nat.not_lt.mpr h)

/-- A task that is started has the next number. -/
theorem Numbered.process?_start {a : Agenda σ β ρ} (ha : a.Numbered) (p : Process β ρ)
    (u : TaskId) :
    (a.start p).process? u = if u = a.started then some p else a.process? u := by
  rw [Agenda.process?_start]
  by_cases hu : u = a.started
  · rw [if_pos hu]
    rw [ha.process?_eq_none (Nat.le_of_eq hu.symm), if_pos hu]
    rfl
  · rw [if_neg hu, if_neg hu, Option.or_none]

theorem Numbered.start {a : Agenda σ β ρ} (ha : a.Numbered) (p : Process β ρ) :
    (a.start p).Numbered := by
  intro u q hq
  rw [ha.process?_start] at hq
  by_cases hu : u = a.started
  · exact Nat.lt_succ_of_le (Nat.le_of_eq hu)
  · rw [if_neg hu] at hq
    exact Nat.lt_succ_of_lt (ha hq)

/-! ## Tasks that are started together -/

@[simp] theorem launchAll_nil (a : Agenda σ β ρ) (t : TaskId) : a.launchAll t [] = a := rfl

theorem launchAll_cons (a : Agenda σ β ρ) (t : TaskId) (b : β) (bs : List β) :
    a.launchAll t (b :: bs) = (a.launch (.task t) b).launchAll t bs := rfl

/-- What starting tasks for the one that waits for them does. -/
structure Launched (t : TaskId) (bodies : List β) (a b : Agenda σ β ρ) : Prop where
  state : b.state = a.state
  now : b.now = a.now
  timers : b.timers = a.timers
  started : b.started = a.started + bodies.length
  ready : b.ready = a.ready ++ (List.range' a.started bodies.length).map .run
  process : ∀ u, b.process? u = if u < a.started then a.process? u
    else (bodies[u - a.started]?).map fun body => .fresh body (.task t)

theorem launched_launchAll (t : TaskId) (bodies : List β) {a : Agenda σ β ρ} (ha : a.Numbered) :
    Launched t bodies a (a.launchAll t bodies) := by
  induction bodies generalizing a with
  | nil =>
      refine ⟨rfl, rfl, rfl, rfl, (List.append_nil _).symm, fun u => ?_⟩
      rw [launchAll_nil]
      by_cases hu : u < a.started
      · rw [if_pos hu]
      · rw [if_neg hu, List.getElem?_nil, Option.map_none]
        exact ha.process?_eq_none (Nat.le_of_not_lt hu)
  | cons body bodies ih =>
      have hb := ih (ha.start (.fresh body (.task t)))
      rw [launchAll_cons]
      refine ⟨hb.state, hb.now, hb.timers, ?_, ?_, fun u => ?_⟩
      · have hs := hb.started
        show (Agenda.launchAll (a.start _) t bodies).started = _
        rw [hs, List.length_cons]
        show a.started + 1 + bodies.length = _
        omega
      · have hr := hb.ready
        show (Agenda.launchAll (a.start _) t bodies).ready = _
        rw [hr, List.length_cons, List.range'_succ, List.map_cons]
        show (a.ready ++ [.run a.started]) ++ _ = _
        rw [List.append_assoc]
        rfl
      · have hp := hb.process u
        rw [ha.process?_start] at hp
        show (Agenda.launchAll (a.start _) t bodies).process? u = _
        rw [hp]
        show (if u < a.started + 1 then _ else _) = _
        rcases Nat.lt_trichotomy u a.started with hu | hu | hu
        · rw [if_pos (Nat.lt_succ_of_lt hu), if_neg (Nat.ne_of_lt hu), if_pos hu]
        · rw [if_pos (Nat.lt_succ_of_le (Nat.le_of_eq hu)), if_pos hu, hu,
            if_neg (Nat.lt_irrefl _), Nat.sub_self]
          rfl
        · have hi : u - a.started = (u - (a.started + 1)) + 1 := by grind
          rw [if_neg (by grind), if_neg (by grind), hi, List.getElem?_cons_succ]
          rfl

/-- Starting tasks books none. -/
theorem timetable_launchAll (t : TaskId) (bodies : List β) (a : Agenda σ β ρ) :
    (a.launchAll t bodies).timetable = a.timetable := by
  induction bodies generalizing a with
  | nil => rfl
  | cons body bodies ih => exact ih _

end Agenda

end BuildingAlerts
