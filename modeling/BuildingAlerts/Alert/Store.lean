/-
The store of alerts.

Alerts are only ever added. One that comes under an identifier that is already there takes the
place of the earlier alert, which is kept for those who still work on it. An open alert of a rule that is younger than the rule's cooldown
stands for all further triggerings of the rule.
-/
import BuildingAlerts.Alert.Basic

set_option autoImplicit false

namespace BuildingAlerts

/-- All alerts in the order in which their identifiers came. -/
structure Store where
  /-- The alerts by their identifiers. -/
  alerts : Table Alert
  /-- For each identifier the alerts whose place was taken, in the order in which they came. -/
  former : Table (List Alert)

namespace Store

instance : Inhabited Store := ⟨⟨.empty, .empty⟩⟩

/-- No alerts. -/
def empty : Store := ⟨.empty, .empty⟩

/-- The alert of an identifier. -/
def get? (s : Store) (id : String) : Option Alert :=
  s.alerts.get? id

/-- The alerts of an identifier whose place was taken. -/
def formerOf (s : Store) (id : String) : List Alert :=
  (s.former.get? id).getD []

/-- Adds an alert. -/
def add (s : Store) (a : Alert) : Store where
  alerts := s.alerts.insert a.id a
  former := match s.get? a.id with
    | some b => s.former.insert a.id (s.formerOf a.id ++ [b])
    | none => s.former

/-- Changes the alert of an identifier. -/
def adjust (s : Store) (id : String) (f : Alert → Alert) : Store :=
  { s with alerts := s.alerts.adjust id f }

/-- Which alert an identifier stands for. -/
def ref (s : Store) (id : String) : AlertRef :=
  ⟨id, (s.formerOf id).length⟩

/-- The alert that is meant. -/
def find? (s : Store) (r : AlertRef) : Option Alert :=
  if r = s.ref r.id then s.get? r.id else (s.formerOf r.id)[r.place]?

/-- Changes the alert that is meant. -/
def adjustAt (s : Store) (r : AlertRef) (f : Alert → Alert) : Store :=
  if r = s.ref r.id then s.adjust r.id f
  else { s with former := s.former.insert r.id ((s.formerOf r.id).modify r.place f) }

/-- All alerts. -/
def all (s : Store) : List Alert :=
  s.alerts.values

/-- The open alerts, of one configuration if one is named. -/
def openAlerts (s : Store) (configurationId : Option String) : List Alert :=
  s.all.filter fun a => a.isOpen && configurationId.all (a.configurationId == ·)

/-- Whether an alert is an open one of a rule. -/
def isOpenOf (configurationId ruleId : String) (a : Alert) : Bool :=
  a.configurationId == configurationId && a.ruleId == ruleId && a.isOpen

/-- Whether an alert triggered at a moment or after it. -/
def triggeredSince (start : Moment) (a : Alert) : Except Fault Bool :=
  orFault .unfit (start.le? a.triggeredAt)

/-- The alert that triggered last, the first of several at one moment. -/
def latest? : List Alert → Option Alert
  | [] => none
  | a :: rest => some (rest.foldl (fun best b =>
      if (best.triggeredAt.lt? b.triggeredAt).getD false then b else best) a)

/-- The latest open alert of a rule that triggered within the cooldown before a moment. -/
def openDuplicate? (s : Store) (configurationId ruleId : String) (now : Moment)
    (cooldown : Int) : Except Fault (Option Alert) := do
  let span ← orFault .outOfBounds (Span.ofMinutes? cooldown)
  let start ← orFault .outOfBounds (now.minus? span)
  let candidates := s.all.filter (isOpenOf configurationId ruleId)
  let young ← candidates.filterM (triggeredSince start)
  return latest? young

/-- The alert that stands for a triggering of a rule: the open duplicate, if duplicates are
suppressed and there is one, or else a new alert, which is added. The answer says whether
the alert is new. -/
def openOrAdd (s : Store) (configurationId ruleId : String) (now : Moment) (cooldown : Int)
    (suppress : Bool) (create : Store → Drafting Alert) : Drafting (Alert × Bool × Store) := do
  let duplicate ← if suppress then
      (s.openDuplicate? configurationId ruleId now cooldown : Except Fault (Option Alert))
    else pure none
  match duplicate with
  | some a => return (a, false, s)
  | none =>
    let a ← create s
    return (a, true, s.add a)

end Store

end BuildingAlerts
