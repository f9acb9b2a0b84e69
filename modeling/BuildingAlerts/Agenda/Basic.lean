/-
The agenda.

Many tasks are under way at a time, but only one of them works at any moment, and none is
interrupted at work. A task works until it has to wait: for its turn, for a time, or for other
tasks. The agenda says whose turn it is, who waits for what, and what is booked for later.
A program says what a task does when it goes on.
-/
import BuildingAlerts.Agenda.Delay
import BuildingAlerts.Agenda.Timetable
import BuildingAlerts.Fault

set_option autoImplicit false

namespace BuildingAlerts

/-- Why a task ended without a result. -/
inductive Stop where
  | failed (f : Fault)
  | cancelled
deriving DecidableEq

/-- How a task ended. -/
abbrev Outcome (ρ : Type) := Except Stop ρ

/-- Why a task goes on. -/
inductive Wake (ρ : Type) where
  /-- It has just begun. -/
  | start
  /-- Its pause or its sleep is over. -/
  | resumed
  /-- The limit of its sleep passed before the sleep was over. -/
  | expired
  /-- All tasks that it waited for have ended with results. -/
  | gathered (results : List ρ)
  /-- Some of the tasks that it waits for have ended. -/
  | arrived (outcomes : List (Outcome ρ))
  /-- A task that it waited for has failed, or it was told to stop. -/
  | stopped (s : Stop)

/-- What a task does when it stops working. -/
inductive Next (β ρ : Type) where
  /-- It lets others have their turn. -/
  | pause (body : β)
  /-- It waits for a time, but no longer than a limit. -/
  | sleep (delay limit : Delay) (body : β)
  /-- It starts other tasks and waits for all of them. -/
  | gather (children : List β) (body : β)
  /-- It starts other tasks and waits for the first of them to end. -/
  | collect (children : List β) (body : β)
  /-- It waits for the next of these tasks to end. -/
  | await (body : β)
  /-- It has ended. -/
  | finish (o : Outcome ρ)

/-- A task to be booked. -/
structure Appointment (β : Type) where
  key : String
  alertId : Option String
  delay : Delay
  body : β

/-- What comes of one stretch of work. -/
structure Turn (σ β ρ : Type) where
  state : σ
  appointments : List (Appointment β)
  next : Next β ρ

/-- What the tasks do: given the time and the state, a body goes on for a reason. -/
abbrev Program (σ β ρ : Type) := Instant → σ → β → Wake ρ → Turn σ β ρ

/-- What a task waits for. -/
inductive Waiting (ρ : Type) where
  /-- Its turn. -/
  | queued (w : Wake ρ)
  /-- Nothing: it is at work. -/
  | working
  /-- A timer. -/
  | asleep
  /-- All of some tasks, of which some have ended. -/
  | all (children : List TaskId) (got : List (TaskId × ρ))
  /-- Any of the tasks that it started. -/
  | any

/-- Who is told when a task ends. -/
inductive Audience where
  | nobody
  | caller
  | task (parent : TaskId)
deriving DecidableEq

/-- A task under way. -/
structure Process (β ρ : Type) where
  body : β
  waiting : Waiting ρ
  audience : Audience
  /-- The key under which the task was booked. -/
  key : Option String
  /-- How long the task still waits before it begins. -/
  delay : Option Delay
  begun : Bool
  /-- The task was told to stop and has not noticed yet. -/
  stopping : Bool

namespace Process

variable {β ρ : Type}

/-- A task that begins at its first turn. -/
def fresh (body : β) (audience : Audience) : Process β ρ :=
  ⟨body, .queued .start, audience, none, none, false, false⟩

/-- A task that begins after a delay. -/
def booked (key : String) (delay : Delay) (body : β) : Process β ρ :=
  ⟨body, .queued .start, .nobody, some key, some delay, false, false⟩

end Process

/-- What is to be done now. -/
inductive Item (ρ : Type) where
  /-- A task has its turn. -/
  | run (t : TaskId)
  /-- A task is told how one that it started has ended. -/
  | report (parent child : TaskId) (o : Outcome ρ)

/-- A time at which a task goes on. -/
structure Timer (ρ : Type) where
  due : Instant
  task : TaskId
  wake : Wake ρ

/-- The tasks under way, whose turn it is, and the time since the start. -/
structure Agenda (σ β ρ : Type) where
  state : σ
  now : Instant
  ready : List (Item ρ)
  /-- The timers in the order in which they were set. -/
  timers : List (Timer ρ)
  processes : List (TaskId × Process β ρ)
  /-- How many tasks have been started. -/
  started : Nat
  timetable : Timetable
  /-- How the task ended that was asked for from outside. -/
  answer : Option (Outcome ρ)

namespace Agenda

variable {σ β ρ : Type}

/-- Nothing is under way. -/
def idle (s : σ) : Agenda σ β ρ :=
  ⟨s, 0, [], [], [], 0, .empty, none⟩

instance [Inhabited σ] : Inhabited (Agenda σ β ρ) := ⟨idle default⟩

/-- The task of a number. -/
def process? (a : Agenda σ β ρ) (t : TaskId) : Option (Process β ρ) :=
  a.processes.lookup t

/-- Changes the task of a number. -/
def adjust (a : Agenda σ β ρ) (t : TaskId) (f : Process β ρ → Process β ρ) : Agenda σ β ρ :=
  { a with processes := a.processes.map fun (u, p) => if u = t then (u, f p) else (u, p) }

/-- Takes a task off. -/
def remove (a : Agenda σ β ρ) (t : TaskId) : Agenda σ β ρ :=
  { a with processes := a.processes.filter fun (u, _) => u ≠ t }

/-- Puts an item at the end. -/
def enqueue (a : Agenda σ β ρ) (i : Item ρ) : Agenda σ β ρ :=
  { a with ready := a.ready ++ [i] }

/-- Gives a task its turn, whatever it waits for. -/
def wake (a : Agenda σ β ρ) (t : TaskId) (w : Wake ρ) : Agenda σ β ρ :=
  let a := a.adjust t fun p => { p with waiting := .queued w }
  { a with timers := a.timers.filter (·.task ≠ t) }.enqueue (.run t)

/-- Starts a task. -/
def start (a : Agenda σ β ρ) (p : Process β ρ) : Agenda σ β ρ :=
  { a with processes := a.processes ++ [(a.started, p)], started := a.started + 1 }.enqueue
    (.run a.started)

/-- Starts a task for an audience. -/
def launch (a : Agenda σ β ρ) (audience : Audience) (body : β) : Agenda σ β ρ :=
  a.start (.fresh body audience)

mutual

/-- Tells a task to stop. The depth bounds how far a task is from the last one it waits for.
The answer says whether the task was still under way. -/
def cancelWithin (a : Agenda σ β ρ) (t : TaskId) : Nat → Bool × Agenda σ β ρ
  | 0 => (false, a)
  | depth + 1 =>
    match a.process? t with
    | none => (false, a)
    | some p =>
      match p.waiting with
      | .queued _ | .working => (true, a.adjust t fun p => { p with stopping := true })
      | .asleep | .any => (true, a.wake t (.stopped .cancelled))
      | .all children _ =>
        let (any, b) := a.cancelAll children depth
        (true, if any then b else b.adjust t fun p => { p with stopping := true })

/-- Tells tasks to stop, one after the other; the answer says whether one was under way. -/
def cancelAll (a : Agenda σ β ρ) : List TaskId → Nat → Bool × Agenda σ β ρ
  | [], _ => (false, a)
  | t :: ts, depth =>
    let (first, b) := a.cancelWithin t depth
    let (rest, c) := b.cancelAll ts depth
    (first || rest, c)

end

/-- Tells a task to stop. A task that waits for others tells them to stop. -/
def cancel (a : Agenda σ β ρ) (t : TaskId) : Agenda σ β ρ :=
  (a.cancelWithin t (a.started + 1)).2

/-- Takes out the booking of a key and tells its task to stop. -/
def cancelKey (a : Agenda σ β ρ) (key : String) : Bool × Agenda σ β ρ :=
  match a.timetable.bookings.get? key with
  | none => (false, a)
  | some b =>
    (true, { a with timetable := a.timetable.forget key b.task }.cancel b.task)

/-- Takes out the bookings of some keys and counts them. -/
def cancelKeys (a : Agenda σ β ρ) : List String → Nat × Agenda σ β ρ
  | [] => (0, a)
  | key :: keys =>
    let (found, b) := a.cancelKey key
    let (n, c) := b.cancelKeys keys
    (n + found.toNat, c)

/-- Takes out all bookings of an alert and counts them. -/
def cancelAlert (a : Agenda σ β ρ) (alertId : String) : Nat × Agenda σ β ρ :=
  a.cancelKeys (a.timetable.keysOf alertId)

/-- Takes out all bookings and tells their tasks to stop. -/
def cancelBookings (a : Agenda σ β ρ) : Agenda σ β ρ :=
  { a.timetable.tasks.foldl cancel a with timetable := .empty }

/-- Books a task in place of the one that was booked under its key. -/
def book (a : Agenda σ β ρ) (m : Appointment β) : Agenda σ β ρ :=
  let a := (a.cancelKey m.key).2
  { a with timetable := a.timetable.book m.key ⟨m.alertId, a.started⟩ }.start
    (.booked m.key m.delay m.body)

/-- Books tasks one after the other. -/
def bookAll (a : Agenda σ β ρ) (ms : List (Appointment β)) : Agenda σ β ρ :=
  ms.foldl book a

end Agenda

end BuildingAlerts
