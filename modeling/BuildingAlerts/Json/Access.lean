/-
Lenient access to the members of a document.

A document that nobody checks is read member by member. A member that is missing or of another
kind than the one asked for stands for a value that the reader names.
-/
import BuildingAlerts.Decimal.Numeral
import BuildingAlerts.Json.Basic

set_option autoImplicit false

namespace BuildingAlerts.Json

/-- A member, or null when it is missing. -/
def part (v : Json) (name : String) : Json :=
  (v.member? name).getD .null

/-- Whether a member is there. -/
def has (v : Json) (name : String) : Bool :=
  (v.member? name).isSome

/-- The text of a value that is one. -/
def asText? : Json → Option String
  | .text s => some s
  | _ => none

/-- The text of a value, empty when it is none. -/
def asText (v : Json) : String :=
  v.asText?.getD ""

/-- The truth of a value that is one. -/
def asFlag? : Json → Option Bool
  | .bool b => some b
  | _ => none

/-- The items of a value, none when it is no list. -/
def items : Json → List Json
  | .list l => l
  | _ => []

/-- The members of a value, none when it is no object. -/
def members : Json → List (String × Json)
  | .object ms => ms
  | _ => []

/-- The whole number of a value; a double is rounded to the nearest. -/
def asWhole? : Json → Option Int
  | .number (.whole n) => some n
  | .number (.real x) => Decimal.roundToInt? x
  | _ => none

/-- The number of a value; a text may name one. -/
def toNumber? : Json → Option Number
  | .number n => some n
  | .text s => some (.real ((Decimal.realOfText? s).getD 0.0))
  | .bool b => some (.whole (if b then 1 else 0))
  | _ => none

/-- A text member. -/
def textOr (v : Json) (name standard : String) : String :=
  (v.part name).asText?.getD standard

/-- A text member, empty when it is missing. -/
def textAt (v : Json) (name : String) : String :=
  v.textOr name ""

/-- A member that is true or false. -/
def flagOr (v : Json) (name : String) (standard : Bool) : Bool :=
  (v.part name).asFlag?.getD standard

/-- A whole member. -/
def wholeOr (v : Json) (name : String) (standard : Int) : Int :=
  (v.part name).asWhole?.getD standard

/-- A member that is a number, if there is one. -/
def number? (v : Json) (name : String) : Option Number :=
  (v.part name).toNumber?

/-- A member that is a number. -/
def numberOr (v : Json) (name : String) (standard : Number) : Number :=
  (v.number? name).getD standard

/-- The items of a member. -/
def listAt (v : Json) (name : String) : List Json :=
  (v.part name).items

/-- The texts in a member. -/
def textsAt (v : Json) (name : String) : List String :=
  (v.listAt name).map asText

/-- The members of a member. -/
def membersAt (v : Json) (name : String) : List (String × Json) :=
  (v.part name).members

/-- The value of an option as a document value, null when there is none. -/
def orNull {α : Type} (f : α → Json) : Option α → Json
  | some a => f a
  | none => .null

end BuildingAlerts.Json
