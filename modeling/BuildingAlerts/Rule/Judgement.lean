/-
What follows from the results of a rule's conditions.

Whether the rule triggers, how far the triggering can be trusted, how it is described and
what the responder is told to do.
-/
import BuildingAlerts.Condition.Basic
import BuildingAlerts.Rule.Basic

set_option autoImplicit false

namespace BuildingAlerts

/-- Whether the results trigger a rule. No results never do. -/
def Connective.holds (c : Connective) (results : List ConditionResult) : Bool :=
  match c with
  | .any => results.any (·.met)
  | .all => !results.isEmpty && results.all (·.met)

/-- The results that were met. -/
def metOf (results : List ConditionResult) : List ConditionResult :=
  results.filter (·.met)

namespace Confidence

/-- The trust in a rule none of whose conditions is met. -/
def base : Float := 0.5

/-- What is added when all conditions are met. -/
def metWeight : Float := 0.5

/-- The weight of the mean overshoot. -/
def overshootWeight : Float := 0.05

/-- The most that overshoot adds. -/
def overshootCap : Float := 0.1

/-- The most trust there is. -/
def most : Float := 0.95

/-- How far a result lies past its threshold, relative to the threshold. -/
def overshoot (r : ConditionResult) : Except Fault Float := do
  let scale := Number.greatest r.threshold.abs (.real 1.0)
  let ratio ← orFault .outOfBounds (r.deviation.abs.div? scale)
  let capped := Number.least ratio (.real 2.0)
  orFault .outOfBounds capped.toFloat?

/-- The second number if it is less, else the first. -/
def smaller (x y : Float) : Float :=
  if y < x then y else x

/-- The trust in a triggering, between zero and the most for results that are numbers. -/
def of (results : List ConditionResult) : Except Fault Float := do
  if results.isEmpty then return 0.0
  let met := metOf results
  let share := base + metWeight * Float.ofNat met.length / Float.ofNat results.length
  if met.isEmpty then return smaller share most
  let overshoots ← met.mapM overshoot
  let bonus := Summation.mean overshoots * overshootWeight
  return smaller (share + smaller bonus overshootCap) most

end Confidence

/-- A word with every underscore turned into a space. -/
def spaced (s : String) : String :=
  String.ofList (s.toList.map fun c => if c == '_' then ' ' else c)

/-- A number as a figure of a message. -/
def figure (n : Number) : Except Fault String :=
  orFault .outOfBounds n.figure?

/-- The description of an alert of a rule. -/
def describe (name description : String) (results : List ConditionResult) :
    Except Fault String := do
  let lead := if description.isEmpty then name else description
  match metOf results with
  | [r] =>
    let actual ← figure r.actual
    let threshold ← figure r.threshold
    return lead ++ ": Value " ++ actual ++ " " ++ spaced r.method ++ " threshold " ++ threshold
  | met =>
    return lead ++ ": Multiple conditions triggered (" ++ toString met.length ++ "/"
      ++ toString results.length ++ ")"

namespace Advice

/-- The most actions that are suggested. -/
def most : Nat := 5

/-- What to do about one condition that was met. -/
def ofResult (r : ConditionResult) : Except Fault (List String) := do
  let direction := if Number.le (.whole 0) r.deviation then "exceeded" else "fell below"
  let distance ← figure r.deviation.abs
  let half ← orFault .outOfBounds (r.threshold.abs.scale? 0.5)
  let urgent := if half.lt r.deviation.abs then
      ["Consider immediate investigation due to significant deviation"] else []
  return ("Investigate why " ++ r.conditionId ++ " " ++ direction ++ " threshold by " ++ distance)
    :: urgent ++ ["Check system logs for " ++ r.conditionId]

/-- What to do about an alert. -/
def of (results : List ConditionResult) (hasChanges : Bool) : Except Fault (List String) := do
  let parts ← (metOf results).mapM ofResult
  let changes := if hasChanges then
      ["Review recent system changes that may have caused this alert"] else []
  return (firsts (parts.flatten ++ "Verify sensor calibration and connectivity" :: changes)).take
    most

end Advice

end BuildingAlerts
