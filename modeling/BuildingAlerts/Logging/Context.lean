/-
What log lines are about.

Every log line carries the request that it belongs to, what caused the request, the alert at
hand and further members. Scopes are entered and left like brackets; leaving one brings back
what was there before it was entered.
-/
import BuildingAlerts.Fault
import BuildingAlerts.Json.Access
import BuildingAlerts.Json.Basic
import BuildingAlerts.Text.Quoted

set_option autoImplicit false

namespace BuildingAlerts

/-- What log lines are about. A value that does not count as present says that there is none. -/
structure LogContext where
  requestId : Json
  correlationId : Json
  alertId : Json
  extra : List (String × Json)

namespace LogContext

/-- About nothing. -/
def empty : LogContext := ⟨.text "", .text "", .text "", []⟩

/-- A member, unless its value does not count as present. -/
def presentMember (name : String) (v : Json) : List (String × Json) :=
  if v.isPresent then [(name, v)] else []

/-- The members that a log line carries. The cause is left out when it is the request itself;
further members win over the others. -/
def members (c : LogContext) : List (String × Json) :=
  let cause := if c.correlationId.equals c.requestId then .null else c.correlationId
  Json.overlay (presentMember "request_id" c.requestId ++ presentMember "correlation_id" cause
    ++ presentMember "alert_id" c.alertId) c.extra

end LogContext

/-- The identifier of a request with a given count. -/
def requestIdent (n : Nat) : String :=
  let ds := Text.hexDigits 32 n
  let part (start length : Nat) : String := String.ofList ((ds.drop start).take length)
  "-".intercalate [part 0 8, part 8 4, part 12 4, part 16 4, part 20 12]

/-- What may be said about a request. -/
def requestMembers : List String :=
  ["request_id", "correlation_id", "alert_id", "extra", "started_at", "_tokens"]

/-- What log lines are about within a request, of which a document tells. Without an identifier
it is given the one that follows those drawn so far, and it is its own cause if no other is
told. The count of identifiers drawn comes along. -/
def LogContext.ofRequest (v : Json) (drawn : Nat) : Except Fault (LogContext × Nat) := do
  if v.members.any fun (name, _) => !requestMembers.contains name then .error .unfit
  let (id, drawn) := if (v.part "request_id").isPresent then (v.part "request_id", drawn)
    else (.text (requestIdent (drawn + 1)), drawn + 1)
  let cause := if (v.part "correlation_id").isPresent then v.part "correlation_id" else id
  let extra ← match v.member? "extra" with
    | none => pure []
    | some (.object ms) => pure ms
    | some _ => .error .noPart
  return (⟨id, cause, (v.member? "alert_id").getD (.text ""), extra⟩, drawn)

/-- A request that log lines can be about. What is bound to it stays with it for the next time that
it is entered. While it is entered it keeps what it hides. -/
structure RequestScope where
  about : LogContext
  hidden : Option LogContext

/-- Adds members to what is told of a request. -/
def RequestScope.bind (r : RequestScope) (fields : List (String × Json)) : RequestScope :=
  { r with about := { r.about with extra := Json.overlay r.about.extra fields } }

/-- What has to be brought back when a scope is left. -/
inductive ScopeFrame where
  /-- The request at a place hides everything. -/
  | request (place : Nat)
  /-- An alert hides the alert and adds members. -/
  | alert (alertId : Json) (extra : List (String × Json))

/-- The place of a request that was entered. -/
def ScopeFrame.place? : ScopeFrame → Option Nat
  | .request place => some place
  | .alert _ _ => none

/-- The requests that were made, each at its place, and the scopes that have been entered, the
innermost first. -/
structure LogScopes where
  current : LogContext
  requests : List RequestScope
  frames : List ScopeFrame

namespace LogScopes

/-- Outside of all scopes. -/
def outside : LogScopes := ⟨.empty, [], []⟩

/-- Makes a request, which is not entered yet. -/
def make (s : LogScopes) (c : LogContext) : LogScopes :=
  { s with requests := s.requests ++ [⟨c, none⟩] }

/-- Enters the request at a place, if there is one. -/
def enter? (s : LogScopes) (place : Nat) : Option LogScopes :=
  s.requests[place]?.map fun r =>
    ⟨r.about, s.requests.set place ⟨r.about, some s.current⟩, .request place :: s.frames⟩

/-- Makes a request and enters it. -/
def enterRequest (s : LogScopes) (c : LogContext) : LogScopes :=
  ((s.make c).enter? s.requests.length).getD s

/-- Enters an alert within the request at hand. The alert is no member of its own. -/
def enterAlert (s : LogScopes) (alertId : Json) (fields : List (String × Json)) :
    Except Fault LogScopes :=
  if (fields.lookup "alert_id").isSome then .error .unfit
  else .ok { s with
    current := { s.current with alertId := alertId, extra := Json.overlay s.current.extra fields }
    frames := .alert s.current.alertId s.current.extra :: s.frames }

/-- The place of the innermost request that was entered. -/
def innermost? (s : LogScopes) : Option Nat :=
  s.frames.findSome? ScopeFrame.place?

/-- Binds members to the innermost request: they are added until the innermost scope is left, and
whenever the request is entered again. -/
def bind (s : LogScopes) (fields : List (String × Json)) : LogScopes :=
  { s with
    current := { s.current with extra := Json.overlay s.current.extra fields }
    requests := match s.innermost? with
      | some place => s.requests.modify place (·.bind fields)
      | none => s.requests }

/-- Leaves the innermost scope. A request brings back what it keeps hidden, if it keeps any. -/
def leave (s : LogScopes) : LogScopes :=
  match s.frames with
  | .request place :: rest =>
    match s.requests[place]? with
    | some ⟨about, some before⟩ => ⟨before, s.requests.set place ⟨about, none⟩, rest⟩
    | _ => { s with frames := rest }
  | .alert alertId extra :: rest =>
    { s with current := { s.current with alertId := alertId, extra := extra }, frames := rest }
  | [] => s

end LogScopes

end BuildingAlerts
