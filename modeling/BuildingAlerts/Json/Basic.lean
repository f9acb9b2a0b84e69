/-
Documents.

The values that a document can hold. Whole numbers and doubles are different kinds, and an
object keeps its members in the order in which they were written. Numbers and truth values are
equal when they are equal in value, whatever their kind.
-/
import BuildingAlerts.Number
import BuildingAlerts.Table

set_option autoImplicit false

namespace BuildingAlerts

/-! ## Values -/

/-- A value of a document. -/
inductive Json where
  | null
  | bool (b : Bool)
  | number (n : Number)
  | text (s : String)
  | list (items : List Json)
  | object (members : List (String × Json))

namespace Json

instance : Inhabited Json := ⟨.null⟩

/-- A whole number as a document value. -/
def whole (n : Int) : Json :=
  .number (.whole n)

/-- A double as a document value. -/
def real (x : Float) : Json :=
  .number (.real x)

/-- A text, or null when there is none. -/
def text? : Option String → Json
  | some s => .text s
  | none => .null

/-- A list of texts. -/
def texts (ss : List String) : Json :=
  .list (ss.map .text)

/-- The members of an object with the members of another laid over them. -/
def overlay (base extra : List (String × Json)) : List (String × Json) :=
  ((⟨base⟩ : Table Json).insertAll extra).entries

/-- The value of a member of an object. -/
def member? (name : String) : Json → Option Json
  | .object ms => ms.lookup name
  | _ => none

/-- Whether a value counts as present: not null, not zero and not empty. -/
def isPresent : Json → Bool
  | .null => false
  | .bool b => b
  | .number n => !n.isZero
  | .text s => !s.isEmpty
  | .list l => !l.isEmpty
  | .object ms => !ms.isEmpty

end Json

/-! ## Equality -/

namespace Json

/-- A truth value or a number as a number. -/
def asNumber? : Json → Option Number
  | .bool b => some (.whole (if b then 1 else 0))
  | .number n => some n
  | _ => none

mutual

/-- Equality in value. The order of the members of an object does not matter. -/
def equals : Json → Json → Bool
  | .null, w => match w with
    | .null => true
    | _ => false
  | .bool b, w => match w.asNumber? with
    | some n => Number.eqv (.whole (if b then 1 else 0)) n
    | none => false
  | .number m, w => match w.asNumber? with
    | some n => m.eqv n
    | none => false
  | .text s, w => match w with
    | .text t => s == t
    | _ => false
  | .list vs, w => match w with
    | .list ws => equalItems vs ws
    | _ => false
  | .object ms, w => match w with
    | .object ns => ms.length == ns.length && equalMembers ms ns
    | _ => false

/-- Equality item by item. -/
def equalItems : List Json → List Json → Bool
  | [], ws => ws.isEmpty
  | v :: vs, ws => match ws with
    | w :: rest => equals v w && equalItems vs rest
    | [] => false

/-- Every member has an equal one of the same name. -/
def equalMembers : List (String × Json) → List (String × Json) → Bool
  | [], _ => true
  | (k, v) :: ms, ns => (match ns.lookup k with
    | some w => equals v w
    | none => false) && equalMembers ms ns

end

end Json

end BuildingAlerts
