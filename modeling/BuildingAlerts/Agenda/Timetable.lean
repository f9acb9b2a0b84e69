/-
The timetable.

Delayed tasks are booked under a key, and one key has one booking at most. A booking may belong
to an alert, and the keys of each alert are listed beside the bookings, so that all that is
still to come for an alert can be found at once.
-/
import BuildingAlerts.Table

set_option autoImplicit false

namespace BuildingAlerts

/-- The number of a task. -/
abbrev TaskId := Nat

/-- What is booked under a key. -/
structure Booking where
  alertId : Option String
  task : TaskId
deriving DecidableEq

/-- The bookings by key, and the keys by alert. -/
structure Timetable where
  bookings : Table Booking
  byAlert : Table (List String)

namespace Timetable

/-- Nothing is booked. -/
def empty : Timetable := ⟨.empty, .empty⟩

instance : Inhabited Timetable := ⟨empty⟩

/-- The keys of an alert. -/
def keysOf (t : Timetable) (alertId : String) : List String :=
  (t.byAlert.get? alertId).getD []

/-- Lists a key under an alert. -/
def list (t : Table (List String)) (alertId key : String) : Table (List String) :=
  let keys := (t.get? alertId).getD []
  t.insert alertId (if keys.contains key then keys else keys ++ [key])

/-- Takes a key off the list of an alert. An alert without keys has no list. -/
def unlist (t : Table (List String)) (alertId key : String) : Table (List String) :=
  match t.get? alertId with
  | none => t
  | some keys =>
    let rest := keys.filter (· != key)
    if rest.isEmpty then t.erase alertId else t.insert alertId rest

/-- Books a task under a key. -/
def book (t : Timetable) (key : String) (b : Booking) : Timetable where
  bookings := t.bookings.insert key b
  byAlert := match b.alertId with
    | some a => list t.byAlert a key
    | none => t.byAlert

/-- Takes out the booking of a key, but only if it is the one of a given task. -/
def forget (t : Timetable) (key : String) (task : TaskId) : Timetable :=
  match t.bookings.get? key with
  | none => t
  | some b =>
    if b.task = task then
      { bookings := t.bookings.erase key
        byAlert := match b.alertId with
          | some a => unlist t.byAlert a key
          | none => t.byAlert }
    else t

/-- The tasks that are booked. -/
def tasks (t : Timetable) : List TaskId :=
  t.bookings.values.map (·.task)

/-- Keys in order. -/
def sorted (keys : List String) : List String :=
  keys.mergeSort fun a b => decide (a < b) || a == b

/-- The keys that are booked, of one alert if one is named, in order. -/
def pending (t : Timetable) (alertId : Option String) : List String :=
  match alertId with
  | some a => sorted (t.keysOf a)
  | none => sorted t.bookings.keys

end Timetable

end BuildingAlerts
