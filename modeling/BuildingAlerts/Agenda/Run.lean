/-
How an agenda is worked off.

The items that are ready are worked off in order, and time passes only when none is left: it
goes on to the earliest timer. Timers go off in the order of their times, those of one time in
the order in which they were set, and a timer that is almost due goes off with the others.
A single step may take any of the ready items, so that other orders can be spoken of too.
-/
import BuildingAlerts.Agenda.Basic

set_option autoImplicit false

namespace BuildingAlerts.Agenda

variable {σ β ρ : Type}

/-- Ends a task: its booking is taken out and its audience is told. -/
def finish (a : Agenda σ β ρ) (t : TaskId) (p : Process β ρ) (o : Outcome ρ) : Agenda σ β ρ :=
  let a := a.remove t
  let a := match p.key with
    | some key => { a with timetable := a.timetable.forget key t }
    | none => a
  match p.audience with
  | .nobody => a
  | .caller => { a with answer := some o }
  | .task parent => a.enqueue (.report parent t o)

/-- The timer of a task after a delay, if that is ever over. -/
def timer? (a : Agenda σ β ρ) (t : TaskId) (delay : Delay) (w : Wake ρ) : Option (Timer ρ) :=
  (a.now.after? delay).map fun due => ⟨due, t, w⟩

/-- Sets the timers of a sleep; the limit goes off first if both are due at one time. -/
def setTimers (a : Agenda σ β ρ) (t : TaskId) (delay limit : Delay) (w : Wake ρ) :
    Agenda σ β ρ :=
  let timers := (a.timer? t limit .expired).toList ++ (a.timer? t delay w).toList
  { a with timers := a.timers ++ timers }

/-- Lets a task wait. -/
def park (a : Agenda σ β ρ) (t : TaskId) (body : β) (w : Waiting ρ) : Agenda σ β ρ :=
  a.adjust t fun p => { p with body := body, waiting := w }

/-- Lets a task sleep; a sleep that takes no time is a pause. -/
def lay (a : Agenda σ β ρ) (t : TaskId) (body : β) (delay limit : Delay) (w : Wake ρ) :
    Agenda σ β ρ :=
  if delay = .zero then (a.park t body (.queued w)).enqueue (.run t)
  else (a.park t body .asleep).setTimers t delay limit w

/-- Starts tasks for the one that waits for them. -/
def launchAll (a : Agenda σ β ρ) (parent : TaskId) (children : List β) : Agenda σ β ρ :=
  children.foldl (fun a b => a.launch (.task parent) b) a

/-- What a task does when it stops working. One that was told to stop at work does so where
it would wait for something. -/
def settleTurn (a : Agenda σ β ρ) (t : TaskId) (p : Process β ρ) (next : Next β ρ) :
    Agenda σ β ρ :=
  match next with
  | .finish o => a.finish t p (if p.stopping then .error .cancelled else o)
  | .pause body => (a.park t body (.queued .resumed)).enqueue (.run t)
  | .sleep delay limit body =>
    let b := a.lay t body delay limit .resumed
    if p.stopping && delay ≠ .zero then
      (b.adjust t fun p => { p with stopping := false }).wake t (.stopped .cancelled)
    else b
  | .gather children body =>
    let ids := List.range' a.started children.length
    let b := (a.launchAll t children).park t body (.all ids [])
    if p.stopping then ((b.adjust t fun p => { p with stopping := false }).cancel t) else b
  | .collect children body =>
    let b := (a.launchAll t children).park t body .any
    if p.stopping then ((b.adjust t fun p => { p with stopping := false }).cancel t) else b
  | .await body =>
    let b := a.park t body .any
    if p.stopping then ((b.adjust t fun p => { p with stopping := false }).cancel t) else b

/-- Lets a task work until it has to wait. -/
def work (program : Program σ β ρ) (a : Agenda σ β ρ) (t : TaskId) (body : β) (w : Wake ρ) :
    Agenda σ β ρ :=
  let a := a.adjust t fun p => { p with waiting := .working, begun := true, stopping := false }
  let turn := program a.now a.state body w
  let b := { a with state := turn.state }.bookAll turn.appointments
  match b.process? t with
  | none => b
  | some p => b.settleTurn t p turn.next

/-- Gives a task its turn. A task that was told to stop before it began never begins. -/
def run (program : Program σ β ρ) (a : Agenda σ β ρ) (t : TaskId) : Agenda σ β ρ :=
  match a.process? t with
  | none => a
  | some p =>
    match p.waiting with
    | .queued w =>
      let w := if p.stopping then .stopped .cancelled else w
      match p.begun, w, p.delay with
      | false, .stopped s, _ => a.finish t p (.error s)
      | false, _, some delay =>
        (a.adjust t fun p => { p with delay := none }).lay t p.body delay .endless .start
      | _, w, _ => work program a t p.body w
    | _ => a

/-- The results of tasks in the order of the tasks. -/
def inOrder (children : List TaskId) (got : List (TaskId × ρ)) : List ρ :=
  children.filterMap fun c => got.lookup c

/-- Tells a task how one that it started has ended. -/
def report (a : Agenda σ β ρ) (parent child : TaskId) (o : Outcome ρ) : Agenda σ β ρ :=
  match a.process? parent with
  | none => a
  | some p =>
    match p.waiting with
    | .all children got =>
      if children.contains child then
        match o with
        | .error s => a.wake parent (.stopped s)
        | .ok r =>
          let got := got ++ [(child, r)]
          if got.length = children.length then
            a.wake parent (.gathered (inOrder children got))
          else a.adjust parent fun p => { p with waiting := .all children got }
      else a
    | .any => a.wake parent (.arrived [o])
    | .queued (.arrived os) =>
      a.adjust parent fun p => { p with waiting := .queued (.arrived (os ++ [o])) }
    | _ => a

/-- Does what an item says. -/
def perform (program : Program σ β ρ) (a : Agenda σ β ρ) : Item ρ → Agenda σ β ρ
  | .run t => a.run program t
  | .report parent child o => a.report parent child o

/-- Takes the ready item at a place. -/
def stepAt (program : Program σ β ρ) (a : Agenda σ β ρ) (place : Nat) :
    Option (Agenda σ β ρ) :=
  a.ready[place]?.map fun i => { a with ready := a.ready.eraseIdx place }.perform program i

/-- Takes the first ready item. -/
def step (program : Program σ β ρ) (a : Agenda σ β ρ) : Option (Agenda σ β ρ) :=
  a.stepAt program 0

/-- The time of the earliest timer. -/
def nextDue? (a : Agenda σ β ρ) : Option Instant :=
  (a.timers.map (·.due)).min?

/-- A timer goes off; it is of no use to a task that goes on already. -/
def goOff (a : Agenda σ β ρ) (m : Timer ρ) : Agenda σ β ρ :=
  match a.process? m.task with
  | some p =>
    match p.waiting with
    | .asleep => a.wake m.task m.wake
    | _ => a
  | none => a

/-- Time goes on, and the timers that are due by then go off. -/
def passTo (a : Agenda σ β ρ) (time : Instant) : Agenda σ β ρ :=
  let (due, later) := a.timers.partition (time.isDue ·.due)
  (due.mergeSort fun x y => decide (x.due ≤ y.due)).foldl goOff
    { a with now := time, timers := later }

/-- Time goes on to the earliest timer. -/
def elapse (a : Agenda σ β ρ) : Option (Agenda σ β ρ) :=
  a.nextDue?.map fun due => a.passTo (max a.now due)

/-- Works off all ready items, at most so many, and the timers that are due at this time. -/
def settle (program : Program σ β ρ) : Nat → Agenda σ β ρ → Agenda σ β ρ
  | 0, a => a
  | patience + 1, a =>
    match a.step program with
    | some b => settle program patience b
    | none => if a.nextDue?.any a.now.isDue then settle program patience (a.passTo a.now) else a

/-- Works on until the task that was asked for has ended, with time going on as needed. -/
def untilAnswered (program : Program σ β ρ) : Nat → Agenda σ β ρ → Agenda σ β ρ
  | 0, a => a
  | patience + 1, a =>
    if a.answer.isSome then a
    else match a.step program with
      | some b => untilAnswered program patience b
      | none =>
        match a.elapse with
        | some b => untilAnswered program patience b
        | none => a

/-- Works on up to a time, which has come when a timer set for it goes off. -/
def workUntil (program : Program σ β ρ) (time : Instant) : Nat → Agenda σ β ρ → Agenda σ β ρ
  | 0, a => a
  | patience + 1, a =>
    match a.step program with
    | some b => workUntil program time patience b
    | none =>
      let next := max a.now (a.nextDue?.elim time (min · time))
      if next.isDue time then settle program patience (a.passTo next)
      else workUntil program time patience (a.passTo next)

/-- The number of steps after which an agenda is given up. -/
def patience : Nat := 10000000

/-- Asks for a task and works on until it has ended. -/
def ask (program : Program σ β ρ) (a : Agenda σ β ρ) (body : β) :
    Outcome ρ × Agenda σ β ρ :=
  let a := untilAnswered program patience ({ a with answer := none }.launch .caller body)
  (a.answer.getD (.error .cancelled), { a with answer := none })

/-- Works off what needs no further time. -/
def rest (program : Program σ β ρ) (a : Agenda σ β ρ) : Agenda σ β ρ :=
  settle program patience a

/-- Works on until a delay is over. -/
def advance (program : Program σ β ρ) (a : Agenda σ β ρ) : Delay → Agenda σ β ρ
  | .grains n => workUntil program (a.now.plus n) patience a
  | _ => a.rest program

end BuildingAlerts.Agenda
