/-
What can go wrong.

Every failure has a cause, and the wording of a cause is found in one place. Failures of
delivery and routing are told apart from the rest, because a pass survives them.
-/
import BuildingAlerts.Vocabulary
import BuildingAlerts.Json.Shown
import BuildingAlerts.Text.EncodedWord
import BuildingAlerts.Time.Reader
import BuildingAlerts.Time.Written

set_option autoImplicit false

namespace BuildingAlerts

/-- What may be wrong with a message that has places to fill in. -/
inductive FillingFlaw where
  /-- It ends inside a place. -/
  | unfinished
  /-- The name of a member is not closed. -/
  | openName
  /-- A width that is too large, and so a number of places. -/
  | tooWide | tooLong
  /-- A letter that stands for no conversion. -/
  | unknownLetter (letter : Char) (index : Nat)
deriving DecidableEq

/-- What may be wrong with a header of a mail. -/
inductive HeaderFlaw where
  /-- The value seems to hold a header of its own. -/
  | stray (shown : String)
  /-- The written header, which is shown, has a line that does not belong to it. -/
  | broken (shown : String)
  /-- The header cannot be read. -/
  | encoding (flaw : EncodingFlaw)
deriving DecidableEq

/-- The cause of a failure. -/
inductive Fault where
  /-- A date, a span or a number left its bounds. -/
  | outOfBounds
  /-- Values that have no order were compared, or a value was of no use where it stood. -/
  | unfit
  /-- A value was asked for a part that it does not have. -/
  | noPart
  /-- No route to a provider, with no more said. -/
  | unreachable
  /-- A time that no calendar reckons. -/
  | beyondReckoning
  /-- What is no number was to be written as a whole one. -/
  | notWhole
  /-- A message that cannot be filled in. -/
  | filling (flaw : FillingFlaw)
  /-- A member that is not there. -/
  | noMember (name : String)
  /-- A text that is no time of day. -/
  | timeOfDay (shown : String)
  /-- A text that is no period. -/
  | period (shown : String)
  /-- A text that is no moment. -/
  | moment (shown : String) (flaw : MomentFlaw)
  /-- A whole number with more digits than are read. -/
  | tooManyDigits (count : Nat)
  /-- A document with too many lists or objects, of which this is one, inside each other. -/
  | nesting (isList : Bool)
  /-- A time zone that is not known. -/
  | unknownZone (name : String)
  /-- A code that belongs to no word of a vocabulary. -/
  | unknownWord (shown title : String)
  /-- An operator that takes a range without the upper end of one. -/
  | rangeEnd (operator : Comparison)
  /-- A document that gives a range operator no upper end. -/
  | documentRangeEnd (operator : Comparison)
  /-- A threshold whose shape does not fit its operator. -/
  | thresholdShape (operator : Comparison) (expected found : String)
  /-- An operator that needs more than the two values. -/
  | notDirect (operator : Comparison)
  /-- A template that is not known. -/
  | unknownTemplate (name : String)
  /-- Stages whose levels do not rise. -/
  | levels (found : List Int)
  /-- A number of workers below zero. -/
  | concurrency
  /-- Routing was asked for without settings or without an alert. -/
  | nothingToRoute
  /-- A channel that nothing delivers on. -/
  | unsupportedChannel (channel : Channel)
  /-- A provider that refused or failed a delivery. -/
  | delivery (text : String)
  /-- A header that cannot be written or read. -/
  | header (flaw : HeaderFlaw)
  /-- An account name with a colon, which stands between a name and its password. -/
  | accountColon
  /-- An item that is no pair where pairs were expected, by its place and its length. -/
  | pairLength (place length : Nat)
  /-- Any other failure, told by its kind and its text. -/
  | other (kind text : String)
deriving DecidableEq

/-- The wording of what is wrong with a message. -/
def FillingFlaw.message : FillingFlaw → String
  | .unfinished => "incomplete format"
  | .openName => "incomplete format key"
  | .tooWide => "width too big"
  | .tooLong => "precision too big"
  | .unknownLetter letter index =>
    let plain := if 31 ≤ letter.toNat && letter.toNat ≤ 126 then letter else '?'
    "unsupported format character '" ++ String.singleton plain ++ "' (0x"
      ++ String.ofList (Nat.toDigits 16 letter.toNat) ++ ") at index " ++ toString index

/-- The wording of what is wrong with an encoded header. -/
def EncodingFlaw.message : EncodingFlaw → String
  | .base64 => "Base64 decoding error"
  | .characterSet name => "unknown encoding: " ++ name
  | .octets flaw => flaw.message

/-- The wording of what is wrong with a header. -/
def HeaderFlaw.message : HeaderFlaw → String
  | .stray shown => "header value appears to contain an embedded header: " ++ shown
  | .broken shown => "folded header contains newline: " ++ shown
  | .encoding flaw => flaw.message

/-- The wording of what is wrong with a written moment. -/
def MomentFlaw.message (shown : String) : MomentFlaw → String
  | .shape => "Invalid isoformat string: " ++ shown
  | .year n => "year " ++ toString n ++ " is out of range"
  | .month => "month must be in 1..12"
  | .day => "day is out of range for month"
  | .hour => "hour must be in 0..23"
  | .minute => "minute must be in 0..59"
  | .second => "second must be in 0..59"
  | .offset distance =>
    "offset must be a timedelta strictly between -timedelta(hours=24) and timedelta(hours=24), not "
      ++ distance.shown ++ "."

namespace Fault

/-- Whether the alerting side itself raises the failure. A pass goes on after such a one. -/
def isAlerting : Fault → Bool
  | .unsupportedChannel _ | .delivery _ => true
  | _ => false

/-- Whole numbers between brackets. -/
def listed (ns : List Int) : String :=
  "[" ++ Json.commaSeparated (ns.map toString) ++ "]"

/-- The wording of a failure. -/
def message : Fault → String
  | .outOfBounds | .unfit | .noPart | .unreachable | .beyondReckoning => ""
  | .filling flaw => flaw.message
  | .noMember name => name
  | .notWhole => "cannot convert float NaN to integer"
  | .timeOfDay shown => "Invalid time of day: " ++ shown
  | .period shown => "Invalid period: " ++ shown
  | .moment shown flaw => flaw.message shown
  | .tooManyDigits count =>
    "Exceeds the limit (" ++ toString Decimal.mostDigits
      ++ " digits) for integer string conversion: value has " ++ toString count
      ++ " digits; use sys.set_int_max_str_digits() to increase the limit"
  | .nesting isList =>
    "maximum recursion depth exceeded while decoding a JSON "
      ++ (if isList then "array" else "object") ++ " from a unicode string"
  | .unknownZone name => "No time zone found with key " ++ name
  | .unknownWord shown title => shown ++ " is not a valid " ++ title
  | .rangeEnd op => code op ++ " requires a secondary threshold"
  | .documentRangeEnd op => "Operator " ++ code op ++ " requires threshold.secondary_value"
  | .thresholdShape op expected found =>
    "Operator " ++ code op ++ " requires " ++ expected ++ ", got " ++ found
  | .notDirect op => "Operator " ++ code op ++ " cannot be compared directly"
  | .unknownTemplate name => "Unknown template: " ++ name
  | .levels found => "Escalation stage levels must be strictly increasing: " ++ listed found
  | .concurrency => "Semaphore initial value must be >= 0"
  | .nothingToRoute => "Notification settings and alert are required"
  | .unsupportedChannel channel => "Unsupported channel type: " ++ code channel
  | .delivery text => text
  | .header flaw => flaw.message
  | .accountColon => "A \":\" is not allowed in login (RFC 1945#section-11.1)"
  | .pairLength place length =>
    "dictionary update sequence element #" ++ toString place ++ " has length " ++ toString length
      ++ "; 2 is required"
  | .other _ text => text

end Fault

/-- The value of an option, or the fault that its absence means. -/
def orFault {α : Type} (f : Fault) : Option α → Except Fault α
  | some a => .ok a
  | none => .error f

end BuildingAlerts
