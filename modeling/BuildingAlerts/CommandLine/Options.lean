/-
The options of the command line.

An option may be shortened as long as no other one starts the same way, and its value stands
behind it or behind an equals sign. Of an option that is given twice the last value counts.
-/
import BuildingAlerts.Decimal.Numeral
import BuildingAlerts.Number

set_option autoImplicit false

namespace BuildingAlerts

/-- What the command line asks for. -/
structure Options where
  configs : Option String := none
  snapshot : Option String := none
  validate : Bool := false
  repeated : Bool := false
  /-- The seconds between two passes. -/
  interval : Option Float := none
  /-- How many passes are made at most. -/
  passes : Option Int := none
  verbose : Bool := false

namespace Options

/-- The options by name. -/
inductive Key where
  | help | configs | snapshot | validate | repeated | interval | passes | verbose
deriving DecidableEq

/-- How an option is written. -/
def Key.name : Key → String
  | .help => "--help"
  | .configs => "--configs"
  | .snapshot => "--snapshot"
  | .validate => "--validate"
  | .repeated => "--loop"
  | .interval => "--interval"
  | .passes => "--passes"
  | .verbose => "--verbose"

/-- All options. -/
def Key.all : List Key :=
  [.help, .configs, .snapshot, .validate, .repeated, .interval, .passes, .verbose]

/-- Whether an option has a value. -/
def Key.hasValue : Key → Bool
  | .configs | .snapshot | .interval | .passes => true
  | _ => false

/-- What an argument is. -/
inductive Argument where
  /-- An option, perhaps with the value behind its equals sign. -/
  | option (k : Key) (value : Option String)
  /-- A value. -/
  | value (s : String)
  /-- The mark behind which everything is a value. -/
  | rest
  /-- Something that looks like an option and is none, or could be several. -/
  | unknown

/-- A text up to its first equals sign, and what is behind that. -/
def splitValue (s : String) : String × Option String :=
  let cs := s.toList
  let name := cs.takeWhile (· != '=')
  match cs.drop name.length with
  | [] => (s, none)
  | _ :: value => (String.ofList name, some (String.ofList value))

/-- Whether one text starts another. -/
def leads (lead whole : String) : Bool :=
  lead.toList.isPrefixOf whole.toList

/-- Digits, of which there is at least one, and perhaps the end of a line behind them. -/
def areDigits (cs : List Char) : Bool :=
  match cs.dropWhile Text.isDigit with
  | [] | ['\n'] => (cs.head?.map Text.isDigit).getD false
  | _ => false

/-- Whether a text is a negative number, which is no option. -/
def isNegative (s : String) : Bool :=
  match s.toList with
  | '-' :: cs =>
    areDigits cs || match cs.dropWhile Text.isDigit with
      | '.' :: fraction => areDigits fraction
      | _ => false
  | _ => false

/-- What an argument is that starts with a dash. -/
def readDashed (s : String) : Argument :=
  let (name, value) := splitValue s
  match Key.all.find? (·.name == name) with
  | some k => .option k value
  | none =>
    match Key.all.filter fun k => leads "--" name && leads name k.name with
    | [k] => .option k value
    | [] =>
      if leads "-h" s then .option .help none
      else if isNegative s || s.toList.contains ' ' then .value s
      else .unknown
    | _ => .unknown

/-- What an argument is. -/
def readArgument (s : String) : Argument :=
  if s == "--" then .rest
  else if s.length ≤ 1 || !leads "-" s then .value s
  else readDashed s

/-- Gives an option its value; none if the value is of no use to it. -/
def assign? (o : Options) (k : Key) (value : String) : Option Options :=
  match k with
  | .configs => some { o with configs := some value }
  | .snapshot => some { o with snapshot := some value }
  | .interval => (Decimal.realOfText? value).map fun x => { o with interval := some x }
  | .passes => (Decimal.wholeOfText? value).map fun n => { o with passes := some n }
  | _ => none

/-- Turns an option on that has no value; none for one that does or that asks for help. -/
def enable? (o : Options) : Key → Option Options
  | .validate => some { o with validate := true }
  | .repeated => some { o with repeated := true }
  | .verbose => some { o with verbose := true }
  | _ => none

/-- Reads arguments one after the other; none if they are not understood. -/
def readAll? : List Argument → Options → Option Options
  | [], o => some o
  | .option k (some value) :: rest, o =>
    if k.hasValue then (o.assign? k value).bind (readAll? rest) else none
  | .option k none :: .value s :: rest, o =>
    if k.hasValue then (o.assign? k s).bind (readAll? rest) else none
  | .option k none :: rest, o =>
    if k.hasValue then none else (o.enable? k).bind (readAll? rest)
  | _, _ => none

/-- Reads the arguments of the command line; none if they are not understood. -/
def read? (args : List String) : Option Options :=
  (readAll? (args.map readArgument) {}).filter (·.configs.isSome)

end Options

end BuildingAlerts
