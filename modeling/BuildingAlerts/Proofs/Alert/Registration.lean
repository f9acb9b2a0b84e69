/-
Triggerings that ask the store for an alert at the same time.

Many passes may be under way, and each triggering of a rule asks the store for the alert that
stands for it. It looks for an open duplicate and registers a new alert if it finds none; the
two belong together under the lock of the rule. Here they are two moves of a reception, between
which anything else may happen: other triggerings come, look, register or give up, and alerts
are taken notice of, resolved or found false. All that is assumed of the locks is that no two
triggerings of one rule are inside at a time. `openOrAdd_on` says that a triggering that nothing
comes between does what the store's own `openOrAdd` does.

Whatever is done about an alert, it stays the alert of its rule and of its time, and one that is
closed is never opened again.
-/
import BuildingAlerts.Rule.Evaluation

set_option autoImplicit false

namespace BuildingAlerts

/-! ## What may become of an alert -/

/-- What is done about an alert. -/
inductive Remedy where
  | acknowledge (who : String) (now : Moment)
  | resolve (who notes : String) (now : Moment)
  | markFalsePositive (who : String) (now : Moment)

/-- The alert after something was done about it; as it was, if it does not allow that. -/
def Remedy.apply : Remedy → Alert → Alert
  | .acknowledge who now, a => (a.acknowledge? who now).getD a
  | .resolve who notes now, a => (a.resolve? who notes now).getD a
  | .markFalsePositive who now, a => a.markFalsePositive who now

namespace Alert

/-- What `a` may have become: the same alert, and no longer open unless `a` was. -/
structure Follows (b a : Alert) : Prop where
  id : b.id = a.id
  configurationId : b.configurationId = a.configurationId
  ruleId : b.ruleId = a.ruleId
  triggeredAt : b.triggeredAt = a.triggeredAt
  isOpen : b.isOpen = true → a.isOpen = true

theorem Follows.rfl {a : Alert} : a.Follows a :=
  ⟨.refl _, .refl _, .refl _, .refl _, fun h => h⟩

/-- Taking notice of an alert, resolving it and finding it false never open it. -/
theorem follows_remedy (m : Remedy) (a : Alert) : (m.apply a).Follows a := by
  cases m with
  | acknowledge who now =>
      unfold Remedy.apply acknowledge?
      dsimp only
      split
      · rename_i hs
        exact ⟨.refl _, .refl _, .refl _, .refl _, fun _ => by unfold isOpen; rw [hs]; rfl⟩
      · exact .rfl
  | resolve who notes now =>
      unfold Remedy.apply resolve?
      dsimp only
      split
      · rename_i ho
        exact ⟨.refl _, .refl _, .refl _, .refl _, fun _ => ho⟩
      · exact .rfl
  | markFalsePositive who now =>
      exact ⟨.refl _, .refl _, .refl _, .refl _, fun h => absurd h Bool.false_ne_true⟩

end Alert

namespace Store

/-- What has become of an open alert of a rule was an open alert of the rule before. -/
theorem isOpenOf_of_follows {configurationId ruleId : String} {a b : Alert} (h : b.Follows a)
    (ho : isOpenOf configurationId ruleId b = true) :
    isOpenOf configurationId ruleId a = true := by
  unfold isOpenOf at *
  rw [Bool.and_eq_true, Bool.and_eq_true, h.configurationId, h.ruleId] at ho
  rw [Bool.and_eq_true, Bool.and_eq_true]
  exact ⟨ho.1, h.isOpen ho.2⟩

end Store

/-! ## What a triggering asks for -/

/-- What a triggering of a rule asks the store for. -/
structure Triggering where
  configurationId : String
  ruleId : String
  now : Moment
  cooldown : Int
  suppress : Bool
  create : Store → Drafting Alert

namespace Triggering

/-- The rule that triggered, for which there is one lock. -/
def key (k : Triggering) : String × String :=
  (k.configurationId, k.ruleId)

/-- The open duplicate, if duplicates are suppressed and there is one. -/
def lookUp (k : Triggering) (s : Store) : Except Fault (Option Alert) :=
  if k.suppress then s.openDuplicate? k.configurationId k.ruleId k.now k.cooldown else .ok none

/-- The alerts that it creates are alerts of its rule and of its time. -/
def IsFaithful (k : Triggering) : Prop :=
  ∀ s ids a ids', (k.create s).on ids = (.ok a, ids') →
    a.configurationId = k.configurationId ∧ a.ruleId = k.ruleId ∧ a.triggeredAt = k.now

end Triggering

/-! ## Triggerings of rules -/

/-- A creation in two parts has a result exactly if both parts have one. -/
theorem Drafting.on_bind_eq_ok {α β : Type} {d : Drafting α} {f : α → Drafting β}
    {ids ids' : IdSource} {b : β} (h : (d >>= f).on ids = (.ok b, ids')) :
    ∃ a mid, d.on ids = (.ok a, mid) ∧ (f a).on mid = (.ok b, ids') := by
  simp only [Drafting.on, bind, ExceptT.bind, ExceptT.mk, StateT.bind, StateT.run] at h ⊢
  cases hd : d ids with
  | mk made mid =>
      rw [hd] at h
      cases made with
      | error f => exact nomatch (Prod.mk.inj h).1
      | ok a => exact ⟨a, mid, rfl, h⟩

namespace Rule

variable (r : Rule) (c : Configuration) (s : Snapshot) (results : List ConditionResult)

/-- What a rule asks the store for when its conditions hold. -/
def triggering : Triggering :=
  ⟨c.id, r.id, s.now, r.cooldown, r.suppressDuplicates, r.alert c s results⟩

/-- What a rule creates is known but for what is worked out of its results and surroundings. -/
theorem alert_eq_ok {store : Store} {ids ids' : IdSource} {a : Alert}
    (h : (r.alert c s results store).on ids = (.ok a, ids')) :
    ∃ id description values confidence surroundings actions, a = {
      id := id, configurationId := c.id, ruleId := r.id, severity := some r.priority,
      title := r.name ++ " - " ++ c.name, description := description, values := values,
      triggeredAt := s.now, status := .triggered, confidence := confidence,
      escalationLevel := 0, escalatedAt := none, acknowledgedAt := none, acknowledgedBy := none,
      resolvedAt := none, resolvedBy := none, notes := "", isFalsePositive := false,
      notifications := [], surroundings := surroundings, actions := actions } := by
  unfold alert at h
  obtain ⟨factors, _, -, h⟩ := Drafting.on_bind_eq_ok h
  obtain ⟨surroundings, _, -, h⟩ := Drafting.on_bind_eq_ok h
  obtain ⟨description, _, -, h⟩ := Drafting.on_bind_eq_ok h
  obtain ⟨confidence, _, -, h⟩ := Drafting.on_bind_eq_ok h
  obtain ⟨actions, _, -, h⟩ := Drafting.on_bind_eq_ok h
  obtain ⟨id, _, -, h⟩ := Drafting.on_bind_eq_ok h
  exact ⟨id, description, _, _, surroundings, actions, (Except.ok.inj (Prod.mk.inj h).1).symm⟩

/-- The alert of a rule is one of its configuration and of the time of the snapshot. -/
theorem isFaithful_triggering : (r.triggering c s results).IsFaithful := by
  intro store ids a ids' h
  obtain ⟨_, _, _, _, _, _, rfl⟩ := alert_eq_ok r c s results h
  exact ⟨rfl, rfl, rfl⟩

end Rule

/-! ## The reception -/

/-- How far a triggering has come. -/
inductive Phase where
  /-- It waits for the lock of its rule. -/
  | waiting
  /-- It has the lock and has found no duplicate. -/
  | inside
deriving DecidableEq

/-- A store and the triggerings that are under way at it. -/
structure Reception where
  store : Store
  ids : IdSource
  calls : List (Triggering × Phase)

namespace Reception

/-- Nothing is stored and nobody asks. -/
def fresh (ids : IdSource) : Reception := ⟨.empty, ids, []⟩

/-- Whether nobody is inside with the lock of a rule. -/
def isFree (d : Reception) (key : String × String) : Bool :=
  d.calls.all fun c => !(c.2 == .inside && c.1.key == key)

/-- The reception without the call at a place. -/
def drop (d : Reception) (place : Nat) : Reception :=
  { d with calls := d.calls.eraseIdx place }

/-- What may happen at a reception. -/
inductive Move where
  /-- A rule triggers. -/
  | ask (k : Triggering)
  /-- The call at a place takes the lock and looks for a duplicate. -/
  | look (place : Nat)
  /-- The call at a place, which found none, registers a new alert. -/
  | register (place : Nat)
  /-- The call at a place gives up waiting. -/
  | leave (place : Nat)
  /-- Something is done about an alert. -/
  | remedy (r : AlertRef) (m : Remedy)

/-- The reception after a call looked for a duplicate: if it found one, or failed, it is over. -/
def looked (d : Reception) (place : Nat) (k : Triggering) : Reception :=
  match k.lookUp d.store with
  | .ok none => { d with calls := d.calls.set place (k, .inside) }
  | _ => d.drop place

/-- The reception after a call registered what it created, if it could create it. -/
def registered (d : Reception) (place : Nat) (k : Triggering) : Reception :=
  match (k.create d.store).on d.ids with
  | (.ok a, ids) => { d.drop place with store := d.store.add a, ids := ids }
  | (.error _, ids) => { d.drop place with ids := ids }

/-- The reception after a move, if the move is possible. -/
def step (d : Reception) : Move → Option Reception
  | .ask k => some { d with calls := d.calls ++ [(k, .waiting)] }
  | .look place =>
    match d.calls[place]? with
    | some (k, .waiting) => if d.isFree k.key then some (d.looked place k) else none
    | _ => none
  | .register place =>
    match d.calls[place]? with
    | some (k, .inside) => some (d.registered place k)
    | _ => none
  | .leave place =>
    match d.calls[place]? with
    | some (_, .waiting) => some (d.drop place)
    | _ => none
  | .remedy r m => some { d with store := d.store.adjustAt r m.apply }

/-- The reception after some moves, if all of them are possible. -/
def play (d : Reception) : List Move → Option Reception
  | [] => some d
  | m :: ms => (d.step m).bind fun d => d.play ms

end Reception

/-! ## A triggering that nothing comes between -/

/-- What follows a look at the open alerts of a rule: the alert that was found, or a new one. -/
theorem Store.create_on (k : Triggering) (s : Store) (ids : IdSource)
    (found : Except Fault (Option Alert)) :
    Drafting.on ((found : Drafting (Option Alert)) >>= fun
      | some a => return (a, false, s)
      | none => do
        let a ← k.create s
        return (a, true, s.add a)) ids
      = match found with
        | .error f => (.error f, ids)
        | .ok (some a) => (.ok (a, false, s), ids)
        | .ok none =>
          let (made, ids) := (k.create s).on ids
          (made.map fun a => (a, true, s.add a), ids) := by
  rcases found with f | (_ | a)
  · rfl
  · have hthen : ∀ made : Except Fault Alert × IdSource,
        StateT.run (ExceptT.bindCont (fun a => (return (a, true, s.add a) : Drafting _)) made.1)
          made.2 = (made.1.map fun a => (a, true, s.add a), made.2) := by
      rintro ⟨f | a, ids'⟩
      · rfl
      · rfl
    exact hthen (k.create s ids)
  · rfl

/-- The store's own way to an alert is to look and to register one right after the other. -/
theorem Store.openOrAdd_on (k : Triggering) (s : Store) (ids : IdSource) :
    (s.openOrAdd k.configurationId k.ruleId k.now k.cooldown k.suppress k.create).on ids
      = match k.lookUp s with
        | .error f => (.error f, ids)
        | .ok (some a) => (.ok (a, false, s), ids)
        | .ok none =>
          let (made, ids) := (k.create s).on ids
          (made.map fun a => (a, true, s.add a), ids) := by
  unfold openOrAdd Triggering.lookUp
  cases k.suppress with
  | false => exact create_on k s ids (.ok none)
  | true =>
      exact create_on k s ids (s.openDuplicate? k.configurationId k.ruleId k.now k.cooldown)

end BuildingAlerts
