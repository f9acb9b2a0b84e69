/-
Escalation policies.

A policy is a row of stages of rising level. Each stage waits some minutes after the latest
notification and then turns to its own recipients on its own channels.
-/
import BuildingAlerts.Ident

set_option autoImplicit false

namespace BuildingAlerts

/-- One stage of an escalation. Delays are in minutes. -/
structure Stage where
  level : Int
  delay : Int
  recipients : List String
  channels : List Channel
  requireAcknowledgment : Bool
  acknowledgmentTimeout : Int
  skipIfAcknowledged : Bool
  message : String

/-- Whether each number is greater than the one before it. -/
def isRising : List Int → Bool
  | a :: b :: rest => a < b && isRising (b :: rest)
  | _ => true

/-- The stages of an escalation and how many of them are fired at most. -/
structure Policy where
  id : String
  name : String
  stages : List Stage
  most : Int
  /-- The levels of the stages rise. -/
  rising : isRising (stages.map (·.level)) = true

namespace Policy

/-- A policy, refused when the levels of its stages do not rise. -/
def make (id name : String) (stages : List Stage) (most : Int) : Except Fault Policy :=
  if h : isRising (stages.map (·.level)) = true then .ok ⟨id, name, stages, most, h⟩
  else .error (.levels (stages.map (·.level)))

/-- The stage at a place counted from zero. -/
def stageAt? (p : Policy) (place : Int) : Option Stage :=
  if place < 0 then none else p.stages[place.toNat]?

/-- The stage that follows a level: the one of the next level, or else the one that stands at
the place with the number of the level, if it is higher. -/
def stageAfter (p : Policy) (level : Int) : Option Stage :=
  match p.stages.find? (·.level == level + 1) with
  | some s => some s
  | none => (p.stageAt? level).filter fun s => level < s.level

end Policy

end BuildingAlerts
