/-
Log lines.

A record becomes one line: a document for machines, or a coloured line for people. Both
carry what the line is about.
-/
import BuildingAlerts.Json.Printer
import BuildingAlerts.Json.Shown
import BuildingAlerts.Logging.Context
import BuildingAlerts.Logging.Message
import BuildingAlerts.Time.Written
import BuildingAlerts.Time.Reader
import BuildingAlerts.Fault

set_option autoImplicit false

namespace BuildingAlerts

/-- A failure that is logged: its kind, its text and the lines that show it. -/
structure LoggedFailure where
  kind : String
  text : String
  trace : String

/-- Something to log. The time is in seconds since 1970. -/
structure LogRecord where
  logger : String
  level : String
  path : String
  line : Json
  function : String
  message : String
  args : List Json
  created : Float
  extra : List (String × Json)
  failure : Option LoggedFailure

namespace LogRecord

/-- The message with its values. -/
def text (r : LogRecord) : Except Fault String :=
  Message.fill r.message r.args

/-! ## What a line carries -/

/-- The name that lines give to a level, which has others as well. -/
def levelName (level : String) : String :=
  match level with
  | "WARN" => "WARNING"
  | "FATAL" => "CRITICAL"
  | level => level

/-- The members that deliveries and timings add, in their order. -/
def extraNames : List String :=
  ["channel", "recipient", "escalation_level", "duration_ms", "extra_data"]

/-- The members that a line carries. -/
def fields (r : LogRecord) (c : LogContext) : List (String × Json) :=
  let extras := extraNames.filterMap fun name =>
    match r.extra.lookup name with
    | some .null | none => none
    | some v => some (name, v)
  Json.overlay c.members extras

/-- The microseconds of a count of seconds, with the fraction rounded by itself and a half to
the even neighbour. -/
def microsOf (seconds : Float) : Except Fault Int :=
  let whole := if seconds < 0.0 then seconds.ceil else seconds.floor
  match Decimal.roundToInt? whole, Decimal.roundToInt? ((seconds - whole) * 1000000.0) with
  | some n, some us =>
    if n.natAbs < Decimal.twoTo 63 then .ok (n * 1000000 + us) else .error .outOfBounds
  | _, _ => .error .outOfBounds

/-- The seconds that a calendar beyond the years 1 to 9999 covers, counted from 1970. Its years
since 1900 have 32 bits. -/
def isReckoned (seconds : Int) : Bool :=
  -67768040609740800 ≤ seconds && seconds ≤ 67768036191676799

/-- The moment of a record on the universal clock. -/
def moment (r : LogRecord) : Except Fault Moment := do
  let micros ← microsOf r.created
  let wall := Moment.epoch + micros
  if Moment.inCalendar wall then return .atUtc wall
  else if isReckoned (micros / Span.microsPerSecond) then
    .error (.moment "" (.year ((Moment.yearOf wall).bmod (Decimal.twoTo 32))))
  else .error .beyondReckoning

/-- The name of a file without what stands before and behind it. -/
def moduleOf (path : String) : String :=
  let name := (path.toList.reverse.takeWhile (· != '/')).reverse
  let ending := name.reverse.takeWhile (· != '.')
  let stem := name.take (name.length - ending.length - 1)
  String.ofList (if !name.contains '.' || stem.all (· == '.') then name else stem)

/-! ## Lines -/

/-- The members of a failure. -/
def failureJson (f : LoggedFailure) : Json :=
  .object [("type", .text f.kind), ("message", .text f.text), ("traceback", .text f.trace)]

/-- A record as a document on one line. -/
def toDocument (r : LogRecord) (c : LogContext) (service : String) (includeCaller : Bool) :
    Except Fault String := do
  let time ← r.moment
  let message ← r.text
  let base := [("timestamp", Json.text time.iso), ("level", .text r.level),
    ("logger", .text r.logger), ("message", .text message), ("service", .text service)]
  let caller := if includeCaller then
      [("module", Json.text (moduleOf r.path)), ("function", .text r.function), ("line", r.line)]
    else []
  let failure := match r.failure with
    | some f => [("exception", failureJson f)]
    | none => []
  return Json.write (.object (Json.overlay (Json.overlay (base ++ caller) (r.fields c)) failure))

/-- The mark that ends a colour. -/
def plainColor : String := "\x1b[0m"

/-- The mark that begins the colour of a level. -/
def color (level : String) : String :=
  match level with
  | "DEBUG" => "\x1b[36m"
  | "INFO" => "\x1b[32m"
  | "WARNING" => "\x1b[33m"
  | "ERROR" => "\x1b[31m"
  | "CRITICAL" => "\x1b[35m"
  | _ => plainColor

/-- The time of day with thousandths of a second. -/
def clock (m : Moment) : String :=
  m.secondsText ++ "." ++ String.ofList (Decimal.padded 3 (m.microsecond / 1000))

/-- A text with blanks behind it up to a width. -/
def wide (width : Nat) (s : String) : String :=
  s ++ String.ofList (List.replicate (width - s.length) ' ')

/-- A value, or a question mark if it does not count as present. -/
def orUnknown (v : Option Json) : String :=
  match v.filter (·.isPresent) with
  | some v => v.spoken
  | none => "?"

/-- A record as a line for people. -/
def toConsole (r : LogRecord) (c : LogContext) : Except Fault String := do
  let time ← r.moment
  let message ← r.text
  let fields := r.fields c
  let channel := fields.lookup "channel"
  let recipient := fields.lookup "recipient"
  let rest := fields.filter fun (k, _) => k != "channel" && k != "recipient"
  let head := color r.level ++ clock time ++ " " ++ wide 8 r.level ++ plainColor ++ " "
    ++ r.logger ++ ": " ++ message
  let delivery := if (channel.any (·.isPresent)) || (recipient.any (·.isPresent)) then
      " (" ++ orUnknown channel ++ " -> " ++ orUnknown recipient ++ ")"
    else ""
  let about := if rest.isEmpty then ""
    else " [" ++ Json.commaSeparated (rest.map fun (k, v) => k ++ "=" ++ v.spoken) ++ "]"
  let failure := match r.failure with
    | some f => "\n" ++ f.trace
    | none => ""
  return head ++ delivery ++ about ++ failure

end LogRecord

end BuildingAlerts
