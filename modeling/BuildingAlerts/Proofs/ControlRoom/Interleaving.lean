/-
Configurations that are evaluated at the same time.

A pass takes down the active configurations with their enabled rules and evaluates them at the
same time, at most so many at a time as its limit allows. An evaluation may be interrupted before
it begins, after the conditions of a rule are judged, and after every rule; to look for a duplicate
and to register an alert is one piece of work. Meanwhile configurations are paused, activated,
archived or changed and rules are switched. The objects that are changed are those that the pass
holds, so every slot below is given new statuses, new stamps and new switches at any time.

None of it can be seen. Whoever comes when, every evaluation resembles the one that has the store
for itself after those of the configurations before it.
-/
import BuildingAlerts.Proofs.ControlRoom.Requests
import BuildingAlerts.Proofs.Lists
import BuildingAlerts.Proofs.Rule.Twins

set_option autoImplicit false

namespace BuildingAlerts

/-! ## What is done to configurations meanwhile -/

/-- What somebody may do to the configurations during a pass. -/
inductive Edit where
  /-- Pauses, activates or archives a configuration. -/
  | setStatus (id : String) (s : ConfigurationStatus)
  | setRuleEnabled (id ruleId : String) (on : Bool)
  | updateConfiguration (id : String) (ch : Change)

/-- The room after an edit. -/
def ControlRoom.edited (c : ControlRoom) (now : Moment) : Edit → ControlRoom
  | .setStatus id s => c.setStatus now id s
  | .setRuleEnabled id ruleId on => c.setRuleEnabled now id ruleId on
  | .updateConfiguration id ch => (c.updateConfiguration now id ch).2

/-- What the switch of a rule does to it. -/
def Rule.Retouched (r q : Rule) : Prop :=
  ∃ on, q = { r with enabled := on }

/-- What a change of status and the switches of rules do to a configuration. -/
def Configuration.Retouched (c d : Configuration) : Prop :=
  ∃ status stamp rules, List.Forall₂ Rule.Retouched c.rules rules ∧
    d = { c with status := status, updatedAt := stamp, rules := rules }

namespace Rule

variable {r q p : Rule}

theorem Retouched.rfl (r : Rule) : r.Retouched r :=
  ⟨r.enabled, .refl r⟩

theorem Retouched.trans (h : r.Retouched q) (h' : q.Retouched p) : r.Retouched p := by
  obtain ⟨on, rfl⟩ := h
  obtain ⟨off, rfl⟩ := h'
  exact ⟨off, .refl _⟩

theorem retouched_all_rfl (rs : List Rule) : List.Forall₂ Retouched rs rs :=
  List.forall₂_same.mpr fun r _ => .rfl r

theorem retouched_all_trans {rs qs ps : List Rule} (h : List.Forall₂ Retouched rs qs)
    (h' : List.Forall₂ Retouched qs ps) : List.Forall₂ Retouched rs ps := by
  induction h generalizing ps with
  | nil => exact h'
  | cons hr _ ih =>
      cases h' with
      | cons hq hrest => exact .cons (hr.trans hq) (ih hrest)

theorem retouched_enableFirst (id : String) (on : Bool) (rs : List Rule) :
    List.Forall₂ Retouched rs (ControlRoom.enableFirst id on rs) := by
  induction rs with
  | nil => exact .nil
  | cons r rs ih =>
      unfold ControlRoom.enableFirst
      split
      · exact .cons ⟨on, .refl _⟩ (retouched_all_rfl rs)
      · exact .cons (.rfl r) ih

end Rule

namespace Configuration

variable {c d e : Configuration}

theorem Retouched.rfl (c : Configuration) : c.Retouched c :=
  ⟨c.status, c.updatedAt, c.rules, Rule.retouched_all_rfl _, .refl c⟩

theorem Retouched.trans (h : c.Retouched d) (h' : d.Retouched e) : c.Retouched e := by
  obtain ⟨status, stamp, rules, hrules, rfl⟩ := h
  obtain ⟨status', stamp', rules', hrules', rfl⟩ := h'
  exact ⟨status', stamp', rules', Rule.retouched_all_trans hrules hrules', .refl _⟩

theorem Retouched.id (h : c.Retouched d) : d.id = c.id := by
  obtain ⟨status, stamp, rules, -, rfl⟩ := h
  rfl

end Configuration

/-- A configuration that was not replaced by an edit was retouched. -/
theorem ControlRoom.retouched_edited (c : ControlRoom) (now : Moment) (e : Edit) {id : String}
    {k : Configuration} (hk : c.configurations.get? id = some k) :
    ∃ d, (c.edited now e).configurations.get? id = some d ∧
      (k.Retouched d ∨ ∃ ch, e = .updateConfiguration id ch ∧ d = ch.apply k now) := by
  have htouch : ∀ (other : String) (f : Configuration → Configuration),
      (∀ k : Configuration, k.Retouched { f k with updatedAt := now }) →
      ∃ d, (c.touch now other f).configurations.get? id = some d ∧ k.Retouched d := by
    intro other f hf
    unfold touch
    dsimp only
    rw [Table.get?_adjust, hk]
    split
    · exact ⟨_, rfl, hf k⟩
    · exact ⟨k, rfl, .rfl k⟩
  cases e with
  | setStatus other s =>
      obtain ⟨d, hd, hkd⟩ := htouch other (fun k => { k with status := s }) fun k =>
        ⟨s, now, k.rules, Rule.retouched_all_rfl _, rfl⟩
      exact ⟨d, hd, .inl hkd⟩
  | setRuleEnabled other ruleId on =>
      show ∃ d, (c.setRuleEnabled now other ruleId on).configurations.get? id = some d ∧ _
      unfold setRuleEnabled
      split
      · exact ⟨k, hk, .inl (.rfl k)⟩
      · obtain ⟨d, hd, hkd⟩ := htouch other
          (fun k => { k with rules := enableFirst ruleId on k.rules }) fun k =>
          ⟨k.status, now, _, Rule.retouched_enableFirst ruleId on k.rules, rfl⟩
        exact ⟨d, hd, .inl hkd⟩
  | updateConfiguration other ch =>
      show ∃ d, (c.updateConfiguration now other ch).2.configurations.get? id = some d ∧ _
      have hsame : ∃ d, c.configurations.get? id = some d ∧ (k.Retouched d ∨
          ∃ ch', Edit.updateConfiguration other ch = .updateConfiguration id ch' ∧
            d = ch'.apply k now) :=
        ⟨k, hk, .inl (.rfl k)⟩
      unfold updateConfiguration
      split
      · exact hsame
      · rename_i k' hk'
        split
        · exact hsame
        · dsimp only
          split
          · exact hsame
          · show ∃ d, (c.configurations.insert other (ch.apply k' now)).get? id = some d ∧ _
            rw [Table.get?_insert]
            split
            · rename_i hid
              obtain rfl := hid
              obtain rfl := Option.some.inj (hk.symm.trans hk')
              exact ⟨_, rfl, .inr ⟨ch, rfl, rfl⟩⟩
            · exact hsame

/-- Edits are nothing to the alerts. -/
theorem ControlRoom.registry_edited (c : ControlRoom) (now : Moment) (e : Edit) :
    (c.edited now e).registry = c.registry := by
  cases e with
  | setStatus id s => rfl
  | setRuleEnabled id ruleId on =>
      show (c.setRuleEnabled now id ruleId on).registry = _
      unfold setRuleEnabled
      split
      · rfl
      · rfl
  | updateConfiguration id ch =>
      show (c.updateConfiguration now id ch).2.registry = _
      unfold updateConfiguration
      split
      · rfl
      · dsimp only
        split
        · rfl
        · split
          · rfl
          · rfl

/-! ## The slots of a pass -/

/-- How far the evaluation of a configuration has come. -/
inductive Progress where
  /-- It waits until the limit lets it in. -/
  | outside
  | inside
  | finished
deriving DecidableEq

/-- The evaluation of one configuration. -/
structure Slot where
  configuration : Configuration
  /-- The rules that are left, with the one that is under way. -/
  rules : List Rule
  /-- The results of the first rule if they make it trigger. -/
  triggered : Option (List ConditionResult)
  found : List String
  progress : Progress

namespace Slot

/-- The evaluation of an assignment before it begins. -/
def of (a : Assignment) : Slot :=
  ⟨a.configuration, a.rules, none, [], .outside⟩

/-- Judges the conditions of the next rule. A rule that fails or does not trigger is done. -/
def judge (x : Slot) (s : Snapshot) : Slot :=
  match x.rules with
  | [] => x
  | r :: rs =>
    match r.results s with
    | .ok results =>
      if r.connective.holds results then { x with triggered := some results }
      else { x with rules := rs }
    | .error _ => { x with rules := rs }

/-- Finds or opens the alert of the rule that triggered. -/
def alert (x : Slot) (s : Snapshot) (g : Registry) (r : Rule) (results : List ConditionResult) :
    Slot × Registry :=
  let (ids, g) := g.answer x.configuration s r results
  ({ x with rules := x.rules.tail, triggered := none, found := x.found ++ ids }, g)

/-- How many pieces of work are left. -/
def left (x : Slot) : Nat :=
  match x.progress with
  | .outside => 2 * x.rules.length + 3
  | .inside => 2 * x.rules.length + if x.triggered.isSome then 1 else 2
  | .finished => 0

/-- The objects of the slot were retouched. -/
structure Retouched (x y : Slot) : Prop where
  configuration : x.configuration.Retouched y.configuration
  rules : List.Forall₂ Rule.Retouched x.rules y.rules
  triggered : y.triggered = x.triggered
  found : y.found = x.found
  progress : y.progress = x.progress

end Slot

/-- Whether one more evaluation may begin beside some. -/
def Concurrency.admits (limit : Concurrency) (n : Nat) : Bool :=
  limit.all fun m => m == 0 || (n : Int) < m

/-- A pass that is under way. -/
structure Survey where
  room : ControlRoom
  slots : List Slot

namespace Survey

/-- A pass over some configurations before any evaluation begins. -/
def begin (c : ControlRoom) (cs : List Configuration) : Survey :=
  ⟨c, (Assignment.batch cs).map Slot.of⟩

/-- How many evaluations are under way. -/
def inside (v : Survey) : Nat :=
  v.slots.countP (·.progress = .inside)

/-- How many pieces of work are left. -/
def left (v : Survey) : Nat :=
  (v.slots.map Slot.left).sum

/-- Puts a slot in its place. -/
def put (v : Survey) (i : Nat) (x : Slot) : Survey :=
  { v with slots := v.slots.set i x }

/-- What the evaluations have found, in the order of the configurations. -/
def found (v : Survey) : List String :=
  v.slots.flatMap (·.found)

/-- All evaluations are over. -/
def IsOver (v : Survey) : Prop :=
  ∀ x ∈ v.slots, x.progress = .finished

/-- One piece of work of the evaluation at a place, if it may go on. -/
def workAt (limit : Concurrency) (s : Snapshot) (v : Survey) (i : Nat) : Option Survey :=
  match v.slots[i]? with
  | none => none
  | some x =>
    match x.progress with
    | .outside => if limit.admits v.inside then some (v.put i { x with progress := .inside }) else none
    | .inside =>
      match x.rules, x.triggered with
      | [], _ => some (v.put i { x with progress := .finished })
      | _ :: _, none => some (v.put i (x.judge s))
      | r :: _, some results =>
        let (y, g) := x.alert s v.room.registry r results
        some ⟨{ v.room with registry := g }, v.slots.set i y⟩
    | .finished => none

/-- What a pass may come to with so many pieces of work, and with edits at any time. -/
inductive Reaches (limit : Concurrency) (s : Snapshot) (v : Survey) : Nat → Survey → Prop
  | start : Reaches limit s v 0 v
  | work {n i : Nat} {a b : Survey} (ha : Reaches limit s v n a)
      (hb : a.workAt limit s i = some b) : Reaches limit s v (n + 1) b
  | edit {n : Nat} {a : Survey} {slots : List Slot} {now : Moment} {e : Edit}
      (ha : Reaches limit s v n a) (hslots : List.Forall₂ Slot.Retouched a.slots slots) :
      Reaches limit s v n ⟨a.room.edited now e, slots⟩

/-- What a piece of work may be. -/
inductive Works (s : Snapshot) (v : Survey) : Survey → Prop
  | enter {i : Nat} {x : Slot} (hx : v.slots[i]? = some x) (houtside : x.progress = .outside) :
      Works s v (v.put i { x with progress := .inside })
  | judge {i : Nat} {x : Slot} {r : Rule} {rs : List Rule} (hx : v.slots[i]? = some x)
      (hinside : x.progress = .inside) (hrules : x.rules = r :: rs)
      (htriggered : x.triggered = none) : Works s v (v.put i (x.judge s))
  | alert {i : Nat} {x : Slot} {r : Rule} {rs : List Rule} {results : List ConditionResult}
      (hx : v.slots[i]? = some x) (hinside : x.progress = .inside) (hrules : x.rules = r :: rs)
      (htriggered : x.triggered = some results) :
      Works s v
        ⟨{ v.room with registry := (x.alert s v.room.registry r results).2 },
          v.slots.set i (x.alert s v.room.registry r results).1⟩
  | leave {i : Nat} {x : Slot} (hx : v.slots[i]? = some x) (hinside : x.progress = .inside)
      (hrules : x.rules = []) : Works s v (v.put i { x with progress := .finished })

theorem works_of_workAt {limit : Concurrency} {s : Snapshot} {v w : Survey} {i : Nat}
    (h : v.workAt limit s i = some w) : v.Works s w := by
  unfold workAt at h
  cases hx : v.slots[i]? with
  | none =>
      rw [hx] at h
      exact nomatch h
  | some x =>
      rw [hx] at h
      dsimp only at h
      cases hp : x.progress with
      | outside =>
          rw [hp] at h
          dsimp only at h
          split at h
          · obtain rfl := Option.some.inj h
            exact .enter hx hp
          · exact nomatch h
      | inside =>
          rw [hp] at h
          dsimp only at h
          split at h
          · rename_i hrules
            obtain rfl := Option.some.inj h
            exact .leave hx hp hrules
          · rename_i hrules htriggered
            obtain rfl := Option.some.inj h
            exact .judge hx hp hrules htriggered
          · rename_i hrules htriggered
            obtain rfl := Option.some.inj h
            exact .alert hx hp hrules htriggered
      | finished =>
          rw [hp] at h
          exact nomatch h

end Survey

/-! ## What an evaluation is at -/

namespace Rule

variable {r q : Rule}

theorem Retouched.results (h : r.Retouched q) (s : Snapshot) : q.results s = r.results s := by
  obtain ⟨on, rfl⟩ := h
  rfl

theorem Retouched.connective (h : r.Retouched q) : q.connective = r.connective := by
  obtain ⟨on, rfl⟩ := h
  rfl

/-- Switches and statuses are nothing to an answer. -/
theorem Retouched.answer (h : r.Retouched q) {c d : Configuration} (hc : c.Retouched d)
    (g : Registry) (s : Snapshot) (results : List ConditionResult) :
    g.answer d s q results = g.answer c s r results := by
  obtain ⟨on, rfl⟩ := h
  obtain ⟨status, stamp, rules, -, rfl⟩ := hc
  rfl

end Rule

namespace Slot

variable {s : Snapshot} {old : Store} {g k : Registry} {e : Assignment × Registry} {x y : Slot}

/-- What a slot is at when the store came as far as `g`: what it has found resembles what the
evaluation that nothing comes between, which begins with what is there in `e`, has found after the
same rules. -/
structure Follows (s : Snapshot) (old : Store) (g : Registry) (e : Assignment × Registry)
    (x : Slot) : Prop where
  configuration : e.1.configuration.Retouched x.configuration
  comes : ∃ done left ps, e.1.rules = done ++ left ∧ List.Forall₂ Rule.Retouched left x.rules ∧
    Registry.Resembles old e.1.configuration.id ps (x.found, g)
      (done.foldl (Assignment.step e.1.configuration s) ([], e.2))
  triggered : ∀ results r rs, x.triggered = some results → x.rules = r :: rs →
    r.results s = .ok results ∧ r.connective.holds results = true
  finished : x.progress = .finished → x.rules = []

/-- Only the alerts of its own configuration matter to a slot. -/
theorem Follows.frame (h : x.Follows s old g e)
    (hview : k.store.ofConfiguration e.1.configuration.id
      = g.store.ofConfiguration e.1.configuration.id) : x.Follows s old k e := by
  obtain ⟨done, left, ps, hrules, hleft, hr⟩ := h.comes
  exact ⟨h.configuration,
    ⟨done, left, ps, hrules, hleft, hview.trans hr.left, hr.right, hr.found, hr.pairs⟩,
    h.triggered, h.finished⟩

theorem Follows.retouched (h : x.Follows s old g e) (hxy : x.Retouched y) :
    y.Follows s old g e where
  configuration := h.configuration.trans hxy.configuration
  comes := by
    obtain ⟨done, left, ps, hrules, hleft, hr⟩ := h.comes
    refine ⟨done, left, ps, hrules, Rule.retouched_all_trans hleft hxy.rules, ?_⟩
    rw [hxy.found]
    exact hr
  triggered := by
    intro results q qs hresults hqs
    have hrules := hxy.rules
    rw [hqs] at hrules
    cases hx : x.rules with
    | nil =>
        rw [hx] at hrules
        exact nomatch hrules
    | cons r rs =>
        rw [hx] at hrules
        cases hrules with
        | cons hrq _ =>
            rw [hrq.results, hrq.connective]
            exact h.triggered results r rs (hxy.triggered.symm.trans hresults) hx
  finished := by
    intro hover
    have hrules := hxy.rules
    rw [h.finished (hxy.progress.symm.trans hover)] at hrules
    exact List.forall₂_nil_left_iff.mp hrules

theorem Follows.moved {p : Progress} (h : x.Follows s old g e)
    (hp : p = .finished → x.rules = []) : ({ x with progress := p } : Slot).Follows s old g e :=
  ⟨h.configuration, h.comes, h.triggered, hp⟩

/-- The rule that is under way is one of the assignment. -/
theorem Follows.next (h : x.Follows s old g e) {q : Rule} {qs : List Rule}
    (hx : x.rules = q :: qs) : ∃ done r left ps, e.1.rules = done ++ r :: left ∧ r.Retouched q ∧
      List.Forall₂ Rule.Retouched left qs ∧
      Registry.Resembles old e.1.configuration.id ps (x.found, g)
        (done.foldl (Assignment.step e.1.configuration s) ([], e.2)) := by
  obtain ⟨done, left, ps, hrules, hleft, hr⟩ := h.comes
  rw [hx] at hleft
  cases hleft with
  | cons hq hqs => exact ⟨done, _, _, ps, hrules, hq, hqs, hr⟩

/-- Judging conditions. -/
theorem Follows.judge (h : x.Follows s old g e) {q : Rule} {qs : List Rule}
    (hx : x.rules = q :: qs) (hnone : x.triggered = none) (hin : x.progress = .inside) :
    (x.judge s).Follows s old g e := by
  obtain ⟨done, r, left, ps, hrules, hq, hqs, hr⟩ := h.next hx
  obtain ⟨d, rules, triggered, found, progress⟩ := x
  obtain rfl : rules = q :: qs := hx
  -- a rule that fails or does not trigger leaves both evaluations where they are
  have hskip : (∀ results, r.results s = .ok results → r.connective.holds results = false) →
      (⟨d, qs, triggered, found, progress⟩ : Slot).Follows s old g e := by
    intro hno
    refine ⟨h.configuration, ⟨done ++ [r], left, ps, by simp [hrules], hqs, ?_⟩, ?_, ?_⟩
    · rw [List.foldl_append]
      generalize done.foldl (Assignment.step e.1.configuration s) ([], e.2) = z at hr ⊢
      obtain ⟨ys, k⟩ := z
      have hstep : Assignment.step e.1.configuration s (ys, k) r = (ys, k) := by
        rw [Registry.step_eq]
        cases hresults : r.results s with
        | error f => rfl
        | ok results => simp [hno results hresults]
      rw [List.foldl_cons, List.foldl_nil, hstep]
      exact hr
    · intro results _ _ hsome _
      exact nomatch hnone.symm.trans hsome
    · intro hover
      exact nomatch hin.symm.trans hover
  unfold Slot.judge
  dsimp only
  rw [hq.results, hq.connective]
  cases hresults : r.results s with
  | error f =>
      apply hskip
      intro results hok
      exact nomatch hresults.symm.trans hok
  | ok results =>
      dsimp only
      by_cases hholds : r.connective.holds results = true
      · rw [if_pos hholds]
        refine ⟨h.configuration, h.comes, ?_, h.finished⟩
        intro results' q' qs' hsome hq'
        obtain rfl := Option.some.inj hsome
        obtain ⟨rfl, rfl⟩ := List.cons.inj hq'
        rw [hq.results, hq.connective]
        exact ⟨hresults, hholds⟩
      · rw [if_neg hholds]
        apply hskip
        intro results' hok
        obtain rfl := Except.ok.inj (hresults.symm.trans hok)
        exact Bool.eq_false_iff.mpr hholds

/-- **Finding or opening an alert.** -/
theorem Follows.alert {n : Nat} (h : x.Follows s old g e) {q : Rule} {qs : List Rule}
    (hx : x.rules = q :: qs) {results : List ConditionResult} (hsome : x.triggered = some results)
    (hin : x.progress = .inside) (hg : g.After old (n + 1))
    (he : e.2.After old e.1.rules.length) :
    (x.alert s g q results).1.Follows s old (x.alert s g q results).2 e := by
  obtain ⟨done, r, left, ps, hrules, hq, hqs, hr⟩ := h.next hx
  obtain ⟨hresults, hholds⟩ := h.triggered results q qs hsome hx
  rw [hq.results] at hresults
  rw [hq.connective] at hholds
  rw [hrules, List.length_append, List.length_cons] at he
  have hroom := (he.foldl (n := left.length + 1) e.1.configuration s []).1
  unfold Slot.alert
  rw [hq.answer h.configuration]
  generalize hz : done.foldl (Assignment.step e.1.configuration s) ([], e.2) = z at hr hroom
  obtain ⟨ys, k⟩ := z
  obtain ⟨ps', hr'⟩ := hr.answer hg hroom s r results
  have hstep : (done ++ [r]).foldl (Assignment.step e.1.configuration s) ([], e.2)
      = (ys ++ (k.answer e.1.configuration s r results).1,
          (k.answer e.1.configuration s r results).2) := by
    rw [List.foldl_append, hz, List.foldl_cons, List.foldl_nil, Registry.step_eq, hresults]
    exact if_pos hholds
  refine ⟨h.configuration, ⟨done ++ [r], left, ps', by simp [hrules], ?_, ?_⟩, ?_, ?_⟩
  · rw [hx]
    exact hqs
  · rw [hstep]
    exact hr'
  · intro _ _ _ hnone _
    exact nomatch hnone
  · intro hover
    exact nomatch hin.symm.trans hover

/-- Slots that are retouched go on following. -/
theorem forall₂_retouched {es : List (Assignment × Registry)} {xs ys : List Slot}
    (h : List.Forall₂ (fun e x => Slot.Follows s old g e x) es xs)
    (hxy : List.Forall₂ Retouched xs ys) :
    List.Forall₂ (fun e x => Slot.Follows s old g e x) es ys ∧
      ys.map (·.rules.length) = xs.map (·.rules.length) := by
  induction hxy generalizing es with
  | nil => exact ⟨h, rfl⟩
  | cons hr _ ih =>
      cases h with
      | cons hx hrest =>
          obtain ⟨hall, hlengths⟩ := ih hrest
          exact ⟨.cons (hx.retouched hr) hall,
            List.cons_eq_cons.mpr ⟨hr.rules.length_eq.symm, hlengths⟩⟩

theorem length_rules_judge (x : Slot) (s : Snapshot) :
    (x.judge s).rules.length ≤ x.rules.length := by
  unfold judge
  split
  · exact Nat.le_refl _
  · rename_i r rs hx
    have hlength : rs.length ≤ x.rules.length := by
      rw [hx]
      exact Nat.le_succ _
    split
    · split
      · exact Nat.le_refl _
      · exact hlength
    · exact hlength

end Slot

/-! ## What a pass is at -/

/-- A sum over a list with one member exchanged. -/
theorem sum_map_set {α : Type} (f : α → Nat) {xs : List α} {i : Nat} {x : α}
    (hx : xs[i]? = some x) (y : α) : ((xs.set i y).map f).sum + f x = (xs.map f).sum + f y := by
  induction xs generalizing i with
  | nil => exact nomatch hx
  | cons z zs ih =>
      cases i with
      | zero =>
          obtain rfl := Option.some.inj hx
          simp only [List.set_cons_zero, List.map_cons, List.sum_cons]
          omega
      | succ i =>
          have hrest := ih (i := i) hx
          simp only [List.set_cons_succ, List.map_cons, List.sum_cons]
          omega

namespace Survey

variable {limit : Concurrency} {s : Snapshot} {old : Store} {es : List (Assignment × Registry)}
  {v w : Survey}

/-- The rules that are left. -/
def rulesLeft (v : Survey) : Nat :=
  (v.slots.map (·.rules.length)).sum

/-- Every slot follows the evaluation that nothing comes between, and there is room for the alerts
of all rules that are left. -/
structure Tracks (s : Snapshot) (old : Store) (es : List (Assignment × Registry)) (v : Survey) :
    Prop where
  slots : List.Forall₂ (fun e x => Slot.Follows s old v.room.registry e x) es v.slots
  room : v.room.registry.After old v.rulesLeft
  others : ∀ configurationId, (∀ e ∈ es, e.1.configuration.id ≠ configurationId) →
    v.room.registry.store.ofConfiguration configurationId = old.ofConfiguration configurationId

/-- The slot at a place and what it follows. -/
theorem Tracks.slot (h : v.Tracks s old es) {i : Nat} {x : Slot} (hx : v.slots[i]? = some x) :
    ∃ e, es[i]? = some e ∧ x.Follows s old v.room.registry e :=
  exists_of_forall₂ h.slots hx

/-- Exchanging one slot, with what it does to the store. -/
theorem Tracks.set (h : v.Tracks s old es)
    (hids : (es.map (·.1.configuration.id)).Nodup) {i : Nat} {e : Assignment × Registry}
    (he : es[i]? = some e) {y : Slot} {g : Registry} (hy : y.Follows s old g e)
    (hview : ∀ configurationId, e.1.configuration.id ≠ configurationId →
      g.store.ofConfiguration configurationId
        = v.room.registry.store.ofConfiguration configurationId)
    (hroom : g.After old ((v.slots.set i y).map (·.rules.length)).sum) :
    (⟨{ v.room with registry := g }, v.slots.set i y⟩ : Survey).Tracks s old es where
  slots := by
    apply forall₂_set h.slots
    · intro e' he'
      obtain rfl := Option.some.inj (he.symm.trans he')
      exact hy
    · intro j e' x hj he' hx
      apply hx.frame
      apply hview
      -- another place is another configuration
      intro hsame
      have hlength : i < (es.map (·.1.configuration.id)).length := by
        rw [List.length_map]
        exact (List.getElem?_eq_some_iff.mp he).1
      refine hj ((List.getElem?_inj hlength hids).mp ?_).symm
      rw [List.getElem?_map, List.getElem?_map, he, he']
      exact congrArg some hsame
  room := hroom
  others := by
    intro configurationId hno
    exact (hview _ (hno e (List.mem_of_getElem? he))).trans (h.others configurationId hno)

/-- A slot with no more rules than before needs no more room. -/
theorem Tracks.room_set (h : v.Tracks s old es) {i : Nat} {x y : Slot}
    (hx : v.slots[i]? = some x) (hy : y.rules.length ≤ x.rules.length) :
    v.room.registry.After old ((v.slots.set i y).map (·.rules.length)).sum := by
  apply h.room.mono
  have hsum := sum_map_set (fun z : Slot => z.rules.length) hx y
  unfold rulesLeft
  omega

/-- **One piece of work.** -/
theorem Tracks.works (h : v.Tracks s old es) (hids : (es.map (·.1.configuration.id)).Nodup)
    (hes : ∀ e ∈ es, e.2.After old e.1.rules.length) (hw : v.Works s w) :
    w.Tracks s old es := by
  cases hw with
  | @enter i x hx houtside =>
      obtain ⟨e, he, hfollows⟩ := h.slot hx
      exact h.set hids he (hfollows.moved fun h => nomatch h) (fun _ _ => rfl)
        (h.room_set hx (Nat.le_refl _))
  | @judge i x r rs hx hinside hrules htriggered =>
      obtain ⟨e, he, hfollows⟩ := h.slot hx
      exact h.set hids he (hfollows.judge hrules htriggered hinside) (fun _ _ => rfl)
        (h.room_set hx (x.length_rules_judge s))
  | @alert i x r rs results hx hinside hrules htriggered =>
      obtain ⟨e, he, hfollows⟩ := h.slot hx
      have hsum := sum_map_set (fun z : Slot => z.rules.length) hx
        (x.alert s v.room.registry r results).1
      have hx1 : x.rules.length = rs.length + 1 := by
        rw [hrules]
        rfl
      have hy1 : (x.alert s v.room.registry r results).1.rules.length = rs.length := by
        show x.rules.tail.length = _
        rw [hrules]
        rfl
      have hroom : v.room.registry.After old
          (((v.slots.set i (x.alert s v.room.registry r results).1).map
            (·.rules.length)).sum + 1) := by
        apply h.room.mono
        unfold rulesLeft
        omega
      refine h.set hids he (hfollows.alert hrules htriggered hinside hroom
        (hes e (List.mem_of_getElem? he))) ?_ (hroom.answer _ s r results)
      intro configurationId hne
      exact hroom.ofConfiguration_answer
        (fun heq => hne (hfollows.configuration.id.symm.trans heq)) s r results
  | @leave i x hx hinside hrules =>
      obtain ⟨e, he, hfollows⟩ := h.slot hx
      exact h.set hids he (hfollows.moved fun _ => hrules) (fun _ _ => rfl)
        (h.room_set hx (Nat.le_refl _))

/-- **An edit.** -/
theorem Tracks.edited (h : v.Tracks s old es) {slots : List Slot} {now : Moment} {e : Edit}
    (hslots : List.Forall₂ Slot.Retouched v.slots slots) :
    (⟨v.room.edited now e, slots⟩ : Survey).Tracks s old es := by
  obtain ⟨hfollows, hlengths⟩ := Slot.forall₂_retouched h.slots hslots
  refine ⟨?_, ?_, ?_⟩
  · dsimp only
    rw [v.room.registry_edited]
    exact hfollows
  · unfold rulesLeft
    dsimp only
    rw [v.room.registry_edited, hlengths]
    exact h.room
  · dsimp only
    rw [v.room.registry_edited]
    exact h.others

/-! ## Passes come to an end -/

theorem left_set {i : Nat} {x y : Slot} (hx : v.slots[i]? = some x) (hy : y.left < x.left) :
    ((v.slots.set i y).map Slot.left).sum < v.left := by
  have hsum := sum_map_set Slot.left hx y
  unfold left
  omega

/-- Every piece of work leaves less to do. -/
theorem left_of_works (hw : v.Works s w) : w.left < v.left := by
  cases hw with
  | @enter i x hx houtside =>
      apply left_set hx
      unfold Slot.left
      rw [houtside]
      dsimp only
      split
      · omega
      · omega
  | @judge i x r rs hx hinside hrules htriggered =>
      apply left_set hx
      obtain ⟨d, rules, triggered, found, progress⟩ := x
      obtain rfl : rules = r :: rs := hrules
      obtain rfl : triggered = none := htriggered
      obtain rfl : progress = .inside := hinside
      have hskip : (⟨d, rs, none, found, .inside⟩ : Slot).left
          < (⟨d, r :: rs, none, found, .inside⟩ : Slot).left := by
        simp [Slot.left]
      unfold Slot.judge
      dsimp only
      split
      · split
        · simp [Slot.left]
        · exact hskip
      · exact hskip
  | @alert i x r rs results hx hinside hrules htriggered =>
      apply left_set hx
      obtain ⟨d, rules, triggered, found, progress⟩ := x
      obtain rfl : rules = r :: rs := hrules
      obtain rfl : triggered = some results := htriggered
      obtain rfl : progress = .inside := hinside
      show 2 * rs.length + 2 < 2 * (rs.length + 1) + 1
      omega
  | @leave i x hx hinside hrules =>
      apply left_set hx
      unfold Slot.left
      rw [hinside]
      dsimp only
      split
      · omega
      · omega

/-- There is always something to do until all is over. -/
theorem exists_workAt (hlimit : limit.check = .ok ()) (s : Snapshot) (h : ¬ v.IsOver) :
    ∃ i w, v.workAt limit s i = some w := by
  by_cases hinside : ∃ x ∈ v.slots, x.progress = .inside
  · obtain ⟨x, hx, hp⟩ := hinside
    obtain ⟨i, hi⟩ := List.getElem?_of_mem hx
    refine ⟨i, ?_⟩
    unfold workAt
    rw [hi]
    dsimp only
    rw [hp]
    dsimp only
    split
    · exact ⟨_, rfl⟩
    · exact ⟨_, rfl⟩
    · exact ⟨_, rfl⟩
  · -- nobody is inside, so every limit lets somebody in
    have hnobody : v.inside = 0 := by
      unfold inside
      rw [List.countP_eq_zero]
      intro x hx hp
      exact hinside ⟨x, hx, by simpa using hp⟩
    have hadmits : limit.admits v.inside = true := by
      rw [hnobody]
      unfold Concurrency.check at hlimit
      unfold Concurrency.admits
      cases limit with
      | none => rfl
      | some m =>
          split at hlimit
          · exact nomatch hlimit
          · rename_i hneg
            have hnot : ¬ m < 0 := by simpa using hneg
            have hor : m = 0 ∨ 0 < m := by omega
            simpa using hor
    obtain ⟨x, hx, hp⟩ : ∃ x ∈ v.slots, x.progress ≠ .finished := by
      simpa [IsOver] using h
    obtain ⟨i, hi⟩ := List.getElem?_of_mem hx
    refine ⟨i, ?_⟩
    unfold workAt
    rw [hi]
    dsimp only
    cases houtside : x.progress with
    | outside =>
        dsimp only
        rw [if_pos hadmits]
        exact ⟨_, rfl⟩
    | inside => exact absurd ⟨x, hx, houtside⟩ hinside
    | finished => exact absurd houtside hp

end Survey

/-- The configurations of a batch are some of those that there are. -/
theorem Assignment.nodup_batch {cs : List Configuration} (h : (cs.map (·.id)).Nodup) :
    ((Assignment.batch cs).map (·.configuration.id)).Nodup := by
  unfold batch
  rw [List.map_map]
  exact h.sublist ((List.filter_sublist).map _)

/-- As long as no alert of a configuration is added, what there is resembles what there is. -/
theorem Registry.HasRoom.resembles {g j k : Registry} {n : Nat} (hg : g.HasRoom n)
    {configurationId : String}
    (hj : j.store.ofConfiguration configurationId = g.store.ofConfiguration configurationId)
    (hk : k.store.ofConfiguration configurationId = g.store.ofConfiguration configurationId) :
    Resembles g.store configurationId
      ((g.store.ofConfiguration configurationId).map fun a => (a, a)) ([], j) ([], k) where
  left := by simp [Function.comp_def, hj]
  right := by simp [Function.comp_def, hk]
  found := .nil
  pairs := by
    intro p hp
    obtain ⟨a, ha, rfl⟩ := List.mem_map.mp hp
    exact .inl ⟨a, ((Store.mem_ofConfiguration_iff hg.keyed hg.once).mp ha).1, rfl⟩

namespace Survey

variable {limit : Concurrency} {s : Snapshot} {c : ControlRoom} {cs : List Configuration}
  {v : Survey} {n : Nat}

/-- The slots before any evaluation begins. -/
theorem tracks_begin (hids : (cs.map (·.id)).Nodup)
    (hroom : c.registry.HasRoom ((Assignment.batch cs).map (·.rules.length)).sum) (s : Snapshot) :
    (begin c cs).Tracks s c.registry.store
      (Registry.arrivals s (Assignment.batch cs) c.registry) where
  slots := by
    have hslots : (begin c cs).slots
        = (Registry.arrivals s (Assignment.batch cs) c.registry).map fun e => Slot.of e.1 := by
      show (Assignment.batch cs).map Slot.of = _
      conv_lhs => rw [← Registry.map_fst_arrivals s (Assignment.batch cs) c.registry]
      rw [List.map_map]
      rfl
    obtain ⟨-, -, harrive⟩ := hroom.after.runAll (n := 0) s (Assignment.nodup_batch hids)
    rw [hslots, List.forall₂_map_right_iff, List.forall₂_same]
    intro e he
    refine ⟨.rfl _, ⟨[], e.1.rules, _, rfl, Rule.retouched_all_rfl _,
      hroom.resembles rfl (harrive e he).2.1⟩, ?_, ?_⟩
    · intro _ _ _ hsome _
      exact nomatch hsome
    · intro hover
      exact nomatch hover
  room := by
    unfold rulesLeft begin
    rw [List.map_map]
    exact hroom.after
  others := fun _ _ => rfl

/-- **Every step keeps track.** -/
theorem Reaches.tracks (hids : (cs.map (·.id)).Nodup)
    (hroom : c.registry.HasRoom ((Assignment.batch cs).map (·.rules.length)).sum)
    (hv : (begin c cs).Reaches limit s n v) :
    v.Tracks s c.registry.store
      (Registry.arrivals s (Assignment.batch cs) c.registry) := by
  have hbatch := Assignment.nodup_batch hids
  obtain ⟨-, -, harrive⟩ := hroom.after.runAll (n := 0) s hbatch
  induction hv with
  | start => exact tracks_begin hids hroom s
  | work _ hb ih =>
      refine ih.works ?_ (fun e he => (harrive e he).1) (works_of_workAt hb)
      rw [← Registry.map_fst_arrivals s (Assignment.batch cs) c.registry, List.map_map] at hbatch
      exact hbatch
  | edit _ hslots ih => exact ih.edited hslots

theorem left_of_retouched {xs ys : List Slot} (h : List.Forall₂ Slot.Retouched xs ys) :
    ys.map Slot.left = xs.map Slot.left := by
  induction h with
  | nil => rfl
  | cons hxy _ ih =>
      refine List.cons_eq_cons.mpr ⟨?_, ih⟩
      unfold Slot.left
      rw [hxy.progress, hxy.triggered, hxy.rules.length_eq]

/-- Pieces of work are used up. -/
theorem Reaches.left (hv : (begin c cs).Reaches limit s n v) :
    n + v.left ≤ (begin c cs).left := by
  induction hv with
  | start => omega
  | work _ hb ih =>
      have hless := left_of_works (works_of_workAt hb)
      omega
  | edit _ hslots ih =>
      unfold Survey.left at ih ⊢
      rw [left_of_retouched hslots]
      exact ih

/-- **Whoever comes when, a pass comes to the same.** However evaluations and edits interleave, there
is something to do until all evaluations are over, and no more than so many pieces of work. And when
all are over, the pass has found, in the order of the configurations and of their rules, what it
finds when it evaluates what it took down in the beginning one configuration after the other: the
same alerts but for the identifiers that it gave out. -/
theorem Reaches.finds_in_order (hids : (cs.map (·.id)).Nodup) (hlimit : limit.check = .ok ())
    (hroom : c.registry.HasRoom ((Assignment.batch cs).map (·.rules.length)).sum)
    (hv : (begin c cs).Reaches limit s n v) :
    (¬ v.IsOver → ∃ i w, v.workAt limit s i = some w) ∧ n + v.left ≤ (begin c cs).left ∧
    (v.IsOver → ∃ found g, c.registry.evaluate cs limit s = .ok (found, g) ∧
      c.registry.store.Mirrors v.room.registry.store g.store ∧
      List.Forall₂ (v.room.registry.store.Faces g.store) v.found found) := by
  refine ⟨exists_workAt hlimit s, hv.left, ?_⟩
  intro hover
  have htracks := hv.tracks hids hroom
  obtain ⟨hend, hothers, harrive⟩ :=
    hroom.after.runAll (n := 0) s (Assignment.nodup_batch hids)
  generalize hes : Registry.arrivals s (Assignment.batch cs) c.registry = es at htracks harrive
  -- an evaluation that is over resembles a whole one
  have hwhole : ∀ e x, (e ∈ es ∧ x ∈ v.slots) → x.Follows s c.registry.store v.room.registry e →
      ∃ ps, Registry.Resembles c.registry.store e.1.configuration.id ps
        (x.found, v.room.registry)
        ((e.1.run s e.2).1, (Registry.runAll s (Assignment.batch cs) c.registry).2) := by
    rintro e x ⟨he, hx⟩ hfollows
    obtain ⟨done, left, ps, hrules, hleft, hr⟩ := hfollows.comes
    rw [hfollows.finished (hover x hx)] at hleft
    obtain rfl := List.forall₂_nil_right_iff.mp hleft
    rw [List.append_nil] at hrules
    rw [← hrules] at hr
    exact ⟨ps, hr.left, (harrive e he).2.2.trans hr.right, hr.found, hr.pairs⟩
  have hzip := List.forall₂_iff_zip.mp htracks.slots
  have hfound : List.Forall₂ (fun x e => List.Forall₂ (v.room.registry.store.Faces
      (Registry.runAll s (Assignment.batch cs) c.registry).2.store) x.found (e.1.run s e.2).1)
      v.slots es := by
    apply List.Forall₂.flip
    refine List.forall₂_iff_zip.mpr ⟨hzip.1, fun {e x} hex => ?_⟩
    obtain ⟨ps, hr⟩ := hwhole e x (List.of_mem_zip hex) (hzip.2 hex)
    exact hr.found.imp fun _ _ => Registry.faces_of_beside hr
  refine ⟨(Registry.runAll s (Assignment.batch cs) c.registry).1,
    (Registry.runAll s (Assignment.batch cs) c.registry).2, ?_, htracks.room.mirrors hend ?_, ?_⟩
  · unfold Registry.evaluate
    rw [hlimit]
    rfl
  · intro configurationId
    by_cases hmem : ∃ e ∈ es, e.1.configuration.id = configurationId
    · obtain ⟨e, he, rfl⟩ := hmem
      obtain ⟨i, hi⟩ := List.getElem?_of_mem he
      obtain ⟨x, hx, hfollows⟩ := exists_of_forall₂ (List.Forall₂.flip htracks.slots) hi
      obtain ⟨ps, hr⟩ := hwhole e x ⟨he, List.mem_of_getElem? hx⟩ hfollows
      exact ⟨ps, _, _, hr⟩
    · have hno : ∀ e ∈ es, e.1.configuration.id ≠ configurationId :=
        fun e he heq => hmem ⟨e, he, heq⟩
      refine ⟨_, _, _, hroom.resembles (htracks.others _ hno) (hothers _ ?_)⟩
      intro hin
      obtain ⟨b, hb, hid⟩ := List.mem_map.mp hin
      rw [← Registry.map_fst_arrivals s (Assignment.batch cs) c.registry, hes] at hb
      obtain ⟨e, he, rfl⟩ := List.mem_map.mp hb
      exact hno e he hid
  · rw [Registry.fst_runAll, hes]
    exact List.rel_flatMap hfound fun _ _ h => h

/-! ## Two wards -/

/-- What comes of work at some places, one after the other. -/
def play (limit : Concurrency) (s : Snapshot) (v : Survey) (places : List Nat) : Survey :=
  places.foldl (fun v i => (v.workAt limit s i).getD v) v

theorem reaches_play {w : Survey} (hw : v.Reaches limit s n w) (places : List Nat) :
    ∃ m, v.Reaches limit s m (w.play limit s places) := by
  induction places generalizing n w with
  | nil => exact ⟨n, hw⟩
  | cons i places ih =>
      show ∃ m, v.Reaches limit s m (((w.workAt limit s i).getD w).play limit s places)
      cases hb : w.workAt limit s i with
      | none => exact ih hw
      | some b => exact ih (.work hw hb)

open Office in
/-- Two wards that are too warm; the second one goes first. -/
def Sample.wards : Survey :=
  (begin (Sample.premises fun _ => .ok ⟨true, .null, none, none⟩).room
    [Sample.configuration "ward" .standard none, Sample.configuration "annex" .standard none]).play
      none Sample.snapshot [1, 0, 0, 1, 1, 0, 1, 0]

open Office in
set_option maxRecDepth 100000 in
/-- The alert of the first ward is found first, though it was opened last. -/
theorem finds_in_order_wards : Sample.wards.IsOver ∧
    Sample.wards.found = ["alert_0000000000000002", "alert_0000000000000001"] ∧
    ∃ found g, (Sample.premises fun _ => .ok ⟨true, .null, none, none⟩).room.registry.evaluate
      [Sample.configuration "ward" .standard none, Sample.configuration "annex" .standard none]
      none Sample.snapshot = .ok (found, g) ∧
      Store.empty.Mirrors Sample.wards.room.registry.store g.store ∧
      List.Forall₂ (Sample.wards.room.registry.store.Faces g.store) Sample.wards.found found := by
  have hover : Sample.wards.IsOver := by
    unfold IsOver
    decide +kernel
  refine ⟨hover, by decide +kernel, ?_⟩
  obtain ⟨m, hm⟩ := reaches_play .start [1, 0, 0, 1, 1, 0, 1, 0]
  have hlimit : Concurrency.check none = .ok () := rfl
  refine (Reaches.finds_in_order ?_ hlimit ⟨?_, ?_, ?_, ?_⟩ hm).2.2 hover
  · decide
  · exact fun _ h => nomatch h
  · exact List.nodup_nil
  · decide
  · exact fun _ _ _ => rfl

end Survey

end BuildingAlerts
