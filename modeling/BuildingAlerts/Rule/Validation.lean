/-
Validation of configurations.

A configuration is checked before it is taken in. Errors keep it out; warnings and
suggestions do not. The number of alerts that it may cause in a day is estimated.
-/
import BuildingAlerts.Rule.Basic

set_option autoImplicit false

namespace BuildingAlerts

/-- A finding about one field. -/
structure Issue where
  field : String
  code : String
  message : String
  recommendation : String

/-- What a check of a configuration found. -/
structure Validation where
  errors : List Issue
  warnings : List Issue
  suggestions : List Issue
  volume : Int
  cost : Float

namespace Volume

/-- The minutes of a day. -/
def minutesPerDay : Int := 1440

/-- How many evaluations in a hundred are taken to trigger an alert. -/
def triggerRate : Float := 0.05

/-- More alerts a day than this are too many. -/
def high : Int := 100

/-- What an alert costs. -/
def costPerAlert : Float := 0.10

/-- The quotient of two whole numbers as a double. -/
def quotient (a b : Int) : Except Fault Float :=
  orFault .outOfBounds (Decimal.ofQuotient? a b)

/-- The second number if it is less, else the first. -/
def smaller (x y : Float) : Float :=
  if y < x then y else x

/-- The alerts a day of one rule: its evaluations at the trigger rate, less the share of the
day that the cooldown takes, at most one for each cooldown and at least one in all. -/
def ofRule (window cooldown : Int) : Except Fault Float := do
  let evaluations ← quotient minutesPerDay window
  let share ← quotient (max cooldown 0) minutesPerDay
  let estimate := evaluations * triggerRate * (1.0 - share)
  let cap ← quotient minutesPerDay (max cooldown 1)
  let bounded := smaller estimate cap
  return if bounded < 1.0 then 1.0 else bounded

/-- The alerts a day of some rules given by window and cooldown. -/
def ofRules (rules : List (Int × Int)) : Except Fault Int := do
  let parts ← rules.mapM fun (window, cooldown) => ofRule window cooldown
  orFault .outOfBounds (Decimal.roundToInt? (parts.foldl (· + ·) 0.0))

/-- The alerts a day of the rules of a configuration that are evaluated at all. -/
def ofConfiguration (c : Configuration) : Except Fault Int :=
  ofRules ((c.rules.filter fun r => r.enabled && 0 < r.window).map fun r =>
    (r.window, r.cooldown))

end Volume

namespace Validation

/-- A finding without advice. -/
def issue (field code message : String) : Issue :=
  ⟨field, code, message, ""⟩

/-- A finding that is given if something is the case. -/
def when (b : Bool) (i : Issue) : List Issue :=
  if b then [i] else []

/-- The field of the rule at a place. -/
def ruleField (i : Nat) : String :=
  "rules[" ++ toString i ++ "]"

/-- The field of a condition of the rule at a place. -/
def conditionField (i j : Nat) : String :=
  ruleField i ++ ".conditions[" ++ toString j ++ "]"

/-- What is wrong with a condition. -/
def conditionErrors (i j : Nat) (c : Condition) : List Issue :=
  when (c.aggregation.minimumDataPoints < 0)
    (issue (conditionField i j ++ ".time_aggregation.minimum_data_points") "INVALID_VALUE"
      "Minimum data points cannot be negative")
  ++ match c.threshold with
    | .range low high =>
      when (high.lt low)
        (issue (conditionField i j ++ ".threshold") "INVALID_RANGE"
          ("Range low (" ++ low.text ++ ") is greater than high (" ++ high.text ++ ")"))
    | _ => []

/-- What is doubtful about a condition. -/
def conditionWarnings (i j : Nat) (c : Condition) : List Issue :=
  when (c.threshold.value.isZero && c.operator != .equals)
    ⟨conditionField i j ++ ".threshold", "SENSITIVE_THRESHOLD",
      "A zero threshold may trigger on every reading",
      "Set a threshold that reflects a meaningful deviation"⟩

/-- What is wrong with a rule. -/
def ruleErrors (i : Nat) (r : Rule) : List Issue :=
  when r.conditions.isEmpty
    (issue (ruleField i ++ ".conditions") "REQUIRED"
      ("Rule '" ++ r.name ++ "' must have at least one condition"))
  ++ when (r.window ≤ 0)
    (issue (ruleField i ++ ".evaluation_window") "INVALID_VALUE"
      "Evaluation window must be greater than 0 minutes")
  ++ when (r.cooldown < 0)
    (issue (ruleField i ++ ".cooldown_period") "INVALID_VALUE"
      "Cooldown period cannot be negative")
  ++ (r.conditions.mapIdx (conditionErrors i)).flatten

/-- What is doubtful about a rule. -/
def ruleWarnings (i : Nat) (r : Rule) : List Issue :=
  (r.conditions.mapIdx (conditionWarnings i)).flatten

/-- What could be better about a rule. -/
def ruleSuggestions (i : Nat) (r : Rule) : List Issue :=
  when (r.cooldown == 0)
    ⟨ruleField i ++ ".cooldown_period", "ADD_COOLDOWN", "Rule '" ++ r.name ++ "' has no cooldown",
      "Add a cooldown period to avoid repeated alerts"⟩
  ++ when (!r.suppressDuplicates)
    ⟨ruleField i ++ ".suppress_duplicates", "ENABLE_DUPLICATE_SUPPRESSION",
      "Rule '" ++ r.name ++ "' does not suppress duplicates",
      "Enable duplicate suppression to reduce alert noise"⟩

/-- What is wrong with a configuration. -/
def errorsOf (c : Configuration) : List Issue :=
  when (Text.isAllBlank c.name) (issue "name" "REQUIRED" "Configuration name is required")
  ++ when c.rules.isEmpty (issue "rules" "REQUIRED" "At least one rule is required")
  ++ (c.rules.mapIdx ruleErrors).flatten

/-- A warning of too many alerts. -/
def volumeWarnings (volume : Int) : List Issue :=
  when (Volume.high < volume)
    ⟨"rules", "HIGH_VOLUME", "Estimated " ++ toString volume ++ " alerts per day",
      "Increase evaluation windows or cooldown periods"⟩

/-- Checks a configuration. -/
def of (c : Configuration) : Except Fault Validation := do
  let volume ← Volume.ofConfiguration c
  let cost ← orFault .outOfBounds (Number.scale? (.whole volume) Volume.costPerAlert)
  let cost ← orFault .outOfBounds cost.toFloat?
  return {
    errors := errorsOf c
    warnings := (c.rules.mapIdx ruleWarnings).flatten ++ volumeWarnings volume
    suggestions := (c.rules.mapIdx ruleSuggestions).flatten
    volume := volume
    cost := Decimal.roundTo 2 cost }

/-- Whether nothing is wrong. -/
def isValid (v : Validation) : Bool :=
  v.errors.isEmpty

/-- Why a configuration was refused. -/
def message (v : Validation) : String :=
  "Invalid alert configuration: "
    ++ "; ".intercalate (v.errors.map fun e => e.field ++ ": " ++ e.message)

/-- The members of a finding. -/
def issueJson (i : Issue) : Json :=
  .object [("field", .text i.field), ("code", .text i.code), ("message", .text i.message),
    ("recommendation", .text i.recommendation)]

/-- The members of a validation. -/
def members (v : Validation) : List (String × Json) :=
  [("is_valid", .bool v.isValid), ("errors", .list (v.errors.map issueJson)),
    ("warnings", .list (v.warnings.map issueJson)),
    ("suggestions", .list (v.suggestions.map issueJson)),
    ("estimated_alert_volume", .whole v.volume),
    ("estimated_cost_impact", .real v.cost)]

/-- A validation as a document. -/
def toJson (v : Validation) : Json :=
  .object v.members

end Validation

end BuildingAlerts
