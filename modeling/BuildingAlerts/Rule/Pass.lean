/-
Passes.

A pass evaluates the enabled rules of all active configurations on one snapshot. A rule that
fails is left out and disturbs nothing else.
-/
import BuildingAlerts.Rule.Evaluation

set_option autoImplicit false

namespace BuildingAlerts

/-- The alerts and the identifiers given out so far. -/
structure Registry where
  store : Store
  ids : IdSource

instance : Inhabited Registry := ⟨⟨.empty, .fresh⟩⟩

/-- A configuration with the rules of it that a pass evaluates. -/
structure Assignment where
  configuration : Configuration
  rules : List Rule

namespace Assignment

/-- What a pass over some configurations evaluates. -/
def batch (cs : List Configuration) : List Assignment :=
  (cs.filter (·.isActive)).map fun c => ⟨c, c.enabledRules⟩

/-- Evaluates one rule and adds the identifier of its alert to those found before. -/
def step (c : Configuration) (s : Snapshot) (found : List String × Registry) (r : Rule) :
    List String × Registry :=
  let (result, ids) := (r.evaluate c s found.2.store).on found.2.ids
  match result with
  | .ok (some id, store) => (found.1 ++ [id], ⟨store, ids⟩)
  | .ok (none, store) => (found.1, ⟨store, ids⟩)
  | .error _ => (found.1, ⟨found.2.store, ids⟩)

/-- Evaluates the rules of one configuration in order. -/
def run (a : Assignment) (s : Snapshot) (g : Registry) : List String × Registry :=
  a.rules.foldl (step a.configuration s) ([], g)

end Assignment

/-- How many configurations a pass works on at a time; without a limit, or with a limit of
zero, on all of them. -/
abbrev Concurrency := Option Int

/-- A limit below zero is refused. -/
def Concurrency.check (c : Concurrency) : Except Fault Unit :=
  if c.any (· < 0) then .error .concurrency else .ok ()

namespace Registry

/-- Evaluates a batch, one configuration after the other. -/
def runAll (s : Snapshot) : List Assignment → Registry → List String × Registry
  | [], g => ([], g)
  | a :: rest, g =>
    let r := a.run s g
    let t := runAll s rest r.2
    (r.1 ++ t.1, t.2)

/-- Evaluates all active configurations: the alerts in order of configurations and rules. -/
def evaluate (g : Registry) (cs : List Configuration) (limit : Concurrency) (s : Snapshot) :
    Except Fault (List String × Registry) := do
  limit.check
  return runAll s (Assignment.batch cs) g

end Registry

/-- How many alerts there are, by status and by severity. -/
structure StoreStats where
  total : Nat
  openCount : Nat
  byStatus : Table Nat
  bySeverity : Table Nat

/-- Counts the occurrences of names. -/
def tally (names : List String) : Table Nat :=
  names.foldl (fun t n => t.insert n ((t.get? n).getD 0 + 1)) .empty

/-- Counts the alerts of a store. Every alert must have a severity. -/
def Store.stats (s : Store) : Except Fault StoreStats := do
  let severities ← orFault .noPart (s.all.mapM (·.severity))
  return ⟨s.all.length, (s.openAlerts none).length, tally (s.all.map fun a => code a.status),
    tally (severities.map code)⟩

end BuildingAlerts
