/-
Words and moments in documents that nobody checks.

Where a document gives no value, the reader's own stands for it. A word that is not in its
vocabulary and a text that is no moment are faults.
-/
import BuildingAlerts.Fault
import BuildingAlerts.Json.Access
import BuildingAlerts.Time.Reader

set_option autoImplicit false

namespace BuildingAlerts.Json

/-- A number in a member, zero when it is missing. -/
def numberAt (v : Json) (name : String) : Number :=
  v.numberOr name (.real 0.0)

/-- The word that a value is the code of. -/
def word {α : Type} [Coded α] (v : Json) : Except Fault α :=
  orFault (.unknownWord v.shown (Coded.title α)) (v.asText?.bind ofCode?)

/-- The word in a member. -/
def wordAt {α : Type} [Coded α] (v : Json) (name : String) : Except Fault α :=
  (v.part name).word

/-- The word in a member, if there is one. -/
def wordAt? {α : Type} [Coded α] (v : Json) (name : String) : Except Fault (Option α) :=
  match v.part name with
  | .null => .ok none
  | w => w.word.map some

/-- The word in a member, or another when it is missing. -/
def wordOr {α : Type} [Coded α] (v : Json) (name : String) (standard : α) : Except Fault α :=
  (v.wordAt? name).map (·.getD standard)

/-- The moment that a value is the text of. -/
def moment (v : Json) : Except Fault Moment :=
  match v with
  | .text s => (Moment.read s).mapError (.moment (Text.quoted s))
  | _ => .error .unfit

/-- The moment in a member. -/
def momentAt (v : Json) (name : String) : Except Fault Moment :=
  (v.part name).moment

/-- The moment in a member, if there is one. -/
def momentAt? (v : Json) (name : String) : Except Fault (Option Moment) :=
  match v.part name with
  | .null => .ok none
  | w => w.moment.map some

end BuildingAlerts.Json
