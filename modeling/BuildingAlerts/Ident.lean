/-
Identifiers.

Everything that is created has an identifier of its own: the stem of its kind followed by a
count. Each kind counts for itself, so two things of one kind never share an identifier.
-/
import BuildingAlerts.Fault
import BuildingAlerts.Table
import BuildingAlerts.Text.Quoted

set_option autoImplicit false

namespace BuildingAlerts

/-- What is given an identifier when it is created. -/
inductive IdKind where
  | alert | configuration | rule | condition | policy | notification
  | emailMessage | smsMessage | slackMessage | webhookMessage
deriving DecidableEq

/-- What the identifiers of a kind start with. -/
def IdKind.stem : IdKind → String
  | .alert => "alert_"
  | .configuration => "cfg_"
  | .rule => "rule_"
  | .condition => "cond_"
  | .policy => "esc_"
  | .notification => "notif_"
  | .emailMessage => "email_"
  | .smsMessage => "sms_"
  | .slackMessage => "slack_"
  | .webhookMessage => "webhook_"

/-- The number of hexadecimal digits of a count. -/
def identWidth : Nat := 16

/-- The identifier of a kind with a given count. -/
def IdKind.ident (k : IdKind) (n : Nat) : String :=
  k.stem ++ String.ofList (Text.hexDigits identWidth n)

/-- How many identifiers of each kind have been given out. -/
structure IdSource where
  drawn : IdKind → Nat

namespace IdSource

instance : Inhabited IdSource := ⟨⟨fun _ => 0⟩⟩

/-- The source that has given out nothing yet. -/
def fresh : IdSource :=
  ⟨fun _ => 0⟩

/-- The next identifier of a kind. -/
def draw (s : IdSource) (k : IdKind) : String × IdSource :=
  let n := s.drawn k + 1
  (k.ident n, ⟨assign s.drawn k n⟩)

end IdSource

/-- Creation of things that may need identifiers and may fail. What was given out before a
failure stays given out. -/
abbrev Drafting := ExceptT Fault (StateM IdSource)

namespace Drafting

/-- A new identifier of a kind. -/
def draw (k : IdKind) : Drafting String :=
  modifyGet fun s => s.draw k

/-- The identifier that was given, or a new one if none or an empty one was. -/
def identOr (k : IdKind) (given : Option String) : Drafting String :=
  match given.filter (!·.isEmpty) with
  | some s => pure s
  | none => draw k

/-- Runs a creation on a source. -/
def on {α : Type} (d : Drafting α) (s : IdSource) : Except Fault α × IdSource :=
  StateT.run d s

end Drafting

end BuildingAlerts
