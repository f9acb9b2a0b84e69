/-
How the service logs.

The level and the form of log lines are chosen by hand or by the environment, and the
environment wins where it says something that is known.
-/
import BuildingAlerts.Document.Lenient
import BuildingAlerts.Setup.Environment

set_option autoImplicit false

namespace BuildingAlerts

/-- The levels of log lines. -/
inductive LogLevel where
  | debug | info | warning | error | critical
deriving DecidableEq

instance : Coded LogLevel where
  words := [.debug, .info, .warning, .error, .critical]
  code
    | .debug => "DEBUG"
    | .info => "INFO"
    | .warning => "WARNING"
    | .error => "ERROR"
    | .critical => "CRITICAL"
  title := "LogLevel"

/-- The forms of log lines. -/
inductive LogFormat where
  | document | console
deriving DecidableEq

instance : Coded LogFormat where
  words := [.document, .console]
  code
    | .document => "json"
    | .console => "console"
  title := "LogFormat"

/-- The name under which the service logs. -/
def serviceName : String := "building-alerts"

/-- Operations that take longer than this many milliseconds are slow. -/
def slowThreshold : Float := 1000.0

/-- How the service logs. -/
structure LoggingSetup where
  level : LogLevel := .info
  format : LogFormat := .document
  includeCaller : Bool := true
  slowThreshold : Number := .real BuildingAlerts.slowThreshold
  service : String := serviceName
  /-- The loggers of which only warnings are wanted. -/
  quiet : List String := ["asyncio", "aiohttp", "urllib3"]

namespace LoggingSetup

/-- The level of a name in any case. -/
def levelOf? (name : String) : Option LogLevel :=
  ofCode? (Text.upper name)

/-- The form of a name in any case. -/
def formatOf? (name : String) : Option LogFormat :=
  ofCode? (Text.lower name)

/-- How to log under some settings. -/
def ofEnvironment (e : Environment) : LoggingSetup where
  level := (levelOf? e.logLevel).getD .info
  format := (formatOf? e.logFormat).getD .document

/-- The setup with what the settings that were made say about it. -/
def override (s : LoggingSetup) (e : Environment) (made : List String) : LoggingSetup :=
  { s with
    level := if made.contains "log_level" then (levelOf? e.logLevel).getD s.level else s.level
    format := if made.contains "log_format" then (formatOf? e.logFormat).getD s.format
      else s.format }

/-- How a document says to log; what it leaves out is as usual. -/
def given (v : Json) : Except Fault LoggingSetup := do
  let standard : LoggingSetup := {}
  return ⟨← v.wordOr "level" standard.level, ← v.wordOr "format" standard.format,
    v.flagOr "include_caller" standard.includeCaller,
    v.numberOr "slow_threshold_ms" standard.slowThreshold,
    v.textOr "service_name" standard.service,
    if v.has "quiet_loggers" then v.textsAt "quiet_loggers" else standard.quiet⟩

/-- The members of how the service logs. -/
def toJson (s : LoggingSetup) : Json :=
  .object [("level", .text (code s.level)), ("format", .text (code s.format)),
    ("include_caller", .bool s.includeCaller), ("slow_threshold_ms", .number s.slowThreshold),
    ("service_name", .text s.service), ("quiet_loggers", .texts s.quiet)]

end LoggingSetup

end BuildingAlerts
