/-
Values inside messages.

A message shows a value the way it would be written down by hand: texts between quotes,
lists and objects with their parts shown, and words for the values that are no numbers.
Standing alone, a text is shown without its quotes.
-/
import BuildingAlerts.Json.Basic
import BuildingAlerts.Text.Quoted

set_option autoImplicit false

namespace BuildingAlerts.Json

/-- Parts with commas between them. -/
def commaSeparated (parts : List String) : String :=
  ", ".intercalate parts

mutual

/-- A value as it is shown in a message. -/
def shown : Json → String
  | .null => "None"
  | .bool b => if b then "True" else "False"
  | .number n => n.text
  | .text s => Text.quoted s
  | .list items => "[" ++ commaSeparated (shownItems items) ++ "]"
  | .object ms => "\x7b" ++ commaSeparated (shownMembers ms) ++ "\x7d"

/-- The items of a list. -/
def shownItems : List Json → List String
  | [] => []
  | v :: vs => shown v :: shownItems vs

/-- The members of an object. -/
def shownMembers : List (String × Json) → List String
  | [] => []
  | (k, v) :: ms => (Text.quoted k ++ ": " ++ shown v) :: shownMembers ms

end

/-- A value standing alone in a message. -/
def spoken : Json → String
  | .text s => s
  | v => shown v

end BuildingAlerts.Json
