/-
Timing of operations.

An operation is reported when it ends: as slow from a threshold on, as failed if it failed,
and in passing otherwise. Durations are in milliseconds.
-/
import BuildingAlerts.Json.Shown
import BuildingAlerts.Logging.Setup

set_option autoImplicit false

namespace BuildingAlerts

/-- The report of an operation. -/
structure TimingReport where
  level : LogLevel
  message : String
  duration : Float
  arguments : Option String

namespace TimingReport

/-- Reports an operation that took some time, with the kind of its failure if it failed. -/
def of (name : String) (duration : Float) (threshold : Number) (failure : Option String)
    (arguments : Option String) : TimingReport :=
  let took := Decimal.fixed 1 duration ++ "ms"
  let rounded := Decimal.roundTo 2 duration
  match failure with
  | some kind => ⟨.error, name ++ " failed after " ++ took ++ ": " ++ kind, rounded, arguments⟩
  | none =>
    if threshold.le (.real duration) then
      ⟨.warning, "Slow operation: " ++ name ++ " took " ++ took, rounded, arguments⟩
    else ⟨.debug, name ++ " completed in " ++ took, rounded, arguments⟩

/-- The threshold of a timer, which takes zero as none given. -/
def timerThreshold (given : Option Number) : Number :=
  (given.filter (!·.isZero)).getD (.real slowThreshold)

/-- How many arguments of each sort are shown. -/
def shownArguments : Nat := 3

/-- How many characters of an argument are shown. -/
def shownLength : Nat := 100

/-- An argument, cut when it is long. -/
def showArgument (v : Json) : String :=
  let cs := v.shown.toList
  if shownLength < cs.length then String.ofList (cs.take shownLength) ++ "..."
  else String.ofList cs

/-- The arguments of an operation, given by position and by name. -/
def summarize (args : List Json) (named : List (String × Json)) : String :=
  let first := (args.take shownArguments).map showArgument
  let more := if shownArguments < args.length then
      ["... +" ++ toString (args.length - shownArguments) ++ " more args"] else []
  let byName := (named.take shownArguments).map fun (k, v) => k ++ "=" ++ showArgument v
  Json.commaSeparated (first ++ more ++ byName)

end TimingReport

end BuildingAlerts
