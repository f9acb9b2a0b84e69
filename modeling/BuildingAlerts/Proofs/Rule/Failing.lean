/-
Rules that fail.

A rule may fail at several depths: while its conditions are judged, while the store is asked for
an open duplicate, or while its alert is put together. Nothing has been done by then: an identifier
is drawn and an alert registered when nothing can fail any more. So whoever is evaluated after a
rule that fails, in the same configuration or in another one, finds what the rule itself found, and
a pass comes to the same as one over the configurations without the rules that fail.
-/
import BuildingAlerts.Proofs.Rule.Accepted
import BuildingAlerts.Proofs.Rule.Twins

set_option autoImplicit false

namespace BuildingAlerts

/-! ## A rule at its turn -/

namespace Rule

variable {c : Configuration} {s : Snapshot} {g : Registry} {r : Rule}

/-- Whether the evaluation of a rule fails on what is there when its turn comes. -/
def raises (r : Rule) (c : Configuration) (s : Snapshot) (g : Registry) : Bool :=
  !((r.evaluate c s g.store).on g.ids).1.isOk

/-- What the evaluation of a rule comes to, from one depth to the next. -/
theorem evaluate_on (r : Rule) (c : Configuration) (s : Snapshot) (g : Registry) :
    (r.evaluate c s g.store).on g.ids = match r.results s with
      | .error f => (.error f, g.ids)
      | .ok results => if r.connective.holds results then
          match (r.triggering c s results).lookUp g.store with
          | .error f => (.error f, g.ids)
          | .ok (some a) => (.ok (some a.id, g.store), g.ids)
          | .ok none => match r.sketch c s results with
            | .error f => (.error f, g.ids)
            | .ok a => (.ok (some (g.next c.id a).id, (g.opening c.id a).store),
                (g.opening c.id a).ids)
        else (.ok (none, g.store), g.ids) := by
  unfold evaluate
  rw [Drafting.on_except_bind]
  cases r.results s with
  | error f => rfl
  | ok results =>
      have hopen : (g.store.openOrAdd c.id r.id s.now r.cooldown r.suppressDuplicates
          (r.alert c s results)).on g.ids = _ :=
        Store.openOrAdd_on (r.triggering c s results) g.store g.ids
      have hmade : ((r.triggering c s results).create g.store).on g.ids = _ :=
        r.alert_on c s results g.store g.ids
      dsimp only
      split
      · rw [Drafting.on_bind, hopen, hmade]
        cases (r.triggering c s results).lookUp g.store with
        | error f => rfl
        | ok found =>
        cases found with
        | some a => rfl
        | none =>
            cases r.sketch c s results with
            | error f => rfl
            | ok a => rfl
      · rfl

/-- The depths at which a rule fails: its conditions, the open duplicate and the new alert. -/
theorem raises_iff : r.raises c s g = true ↔ (∃ f, r.results s = .error f) ∨
    ∃ results, r.results s = .ok results ∧ r.connective.holds results = true ∧
      ((∃ f, (r.triggering c s results).lookUp g.store = .error f) ∨
        (r.triggering c s results).lookUp g.store = .ok none ∧
          ∃ f, r.sketch c s results = .error f) := by
  unfold raises
  rw [evaluate_on]
  cases r.results s with
  | error f => simp [Except.isOk, Except.toBool]
  | ok results =>
      by_cases hholds : r.connective.holds results = true
      · rcases hfound : (r.triggering c s results).lookUp g.store with f | (_ | a)
        · simp [hholds, hfound, Except.isOk, Except.toBool]
        · cases hmade : r.sketch c s results with
          | error f => simp [hholds, hfound, hmade, Except.isOk, Except.toBool]
          | ok a => simp [hholds, hfound, hmade, Except.isOk, Except.toBool]
        · simp [hholds, hfound, Except.isOk, Except.toBool]
      · simp [hholds, Except.isOk, Except.toBool]

end Rule

namespace Assignment

variable {c : Configuration} {s : Snapshot} {g : Registry} {r : Rule} {xs : List String}
  {rs qs : List Rule}

/-- **A rule that fails leaves no trace**: nothing is found, no alert is registered and no
identifier is drawn. -/
theorem step_of_raises (h : r.raises c s g = true) : step c s (xs, g) r = (xs, g) := by
  rw [Registry.step_eq]
  rcases Rule.raises_iff.mp h with ⟨f, hf⟩ | ⟨results, hresults, hholds, hdeep⟩
  · rw [hf]
  · have hanswer : g.answer c s r results = ([], g) := by
      rw [Registry.answer_eq]
      rcases hdeep with ⟨f, hf⟩ | ⟨hnone, f, hf⟩
      · rw [hf]
      · rw [hnone, hf]
    rw [hresults]
    dsimp only
    rw [if_pos hholds, hanswer, List.append_nil]

/-- What a rule finds is added to what was found before, and what it leaves does not depend on
that. -/
theorem step_cons (c : Configuration) (s : Snapshot) (xs : List String) (g : Registry) (r : Rule) :
    step c s (xs, g) r = (xs ++ (step c s ([], g) r).1, (step c s ([], g) r).2) := by
  rw [Registry.step_eq, Registry.step_eq]
  cases r.results s with
  | error f => exact Prod.ext (List.append_nil xs).symm rfl
  | ok results =>
      dsimp only
      split
      · rfl
      · exact Prod.ext (List.append_nil xs).symm rfl

theorem batch_cons (c : Configuration) (cs : List Configuration) :
    batch (c :: cs) = if c.isActive then ⟨c, c.enabledRules⟩ :: batch cs else batch cs := by
  unfold batch
  rw [List.filter_cons]
  split
  · rfl
  · rfl

/-! ## Configurations without rules that fail -/

/-- What is there after a rule of a configuration. One that is not enabled has no turn. -/
def past (c : Configuration) (s : Snapshot) (g : Registry) (r : Rule) : Registry :=
  if r.enabled then (step c s ([], g) r).2 else g

/-- What is left of the rules of a configuration when some are taken out, each of which has its
turn in the evaluation of all of them and fails at it. -/
inductive Sheds (c : Configuration) (s : Snapshot) : Registry → List Rule → List Rule → Prop where
  | nil (g : Registry) : Sheds c s g [] []
  | kept {g : Registry} (r : Rule) {rs qs : List Rule} (h : Sheds c s (past c s g r) rs qs) :
      Sheds c s g (r :: rs) (r :: qs)
  | out {g : Registry} {r : Rule} {rs qs : List Rule} (henabled : r.enabled = true)
      (hraises : r.raises c s g = true) (h : Sheds c s (past c s g r) rs qs) :
      Sheds c s g (r :: rs) qs

/-- The induction is on the rules, and a rule that is taken out would have left what it found. -/
theorem Sheds.foldl (h : Sheds c s g rs qs) (xs : List String) :
    (qs.filter (·.enabled)).foldl (step c s) (xs, g)
      = (rs.filter (·.enabled)).foldl (step c s) (xs, g) := by
  induction h generalizing xs with
  | nil g => rfl
  | @kept g r rs qs h ih =>
      unfold past at ih
      cases henabled : r.enabled with
      | false => 
          rw [if_neg (by simp [henabled])] at ih
          rw [List.filter_cons_of_neg (by simp [henabled]), List.filter_cons_of_neg (by simp [henabled])]
          exact ih xs
      | true =>
          rw [if_pos henabled] at ih
          rw [List.filter_cons_of_pos henabled, List.filter_cons_of_pos henabled, List.foldl_cons,
            List.foldl_cons, step_cons]
          exact ih _
  | @out g r rs qs henabled hraises h ih =>
      unfold past at ih
      rw [if_pos henabled, step_of_raises hraises] at ih
      rw [List.filter_cons_of_pos henabled, List.foldl_cons, step_of_raises hraises]
      exact ih xs

/-- The rules of a configuration without all those that fail at their turn. -/
def sound (c : Configuration) (s : Snapshot) : Registry → List Rule → List Rule
  | _, [] => []
  | g, r :: rs =>
    if r.enabled && r.raises c s g then sound c s (past c s g r) rs
    else r :: sound c s (past c s g r) rs

theorem sheds_sound (g : Registry) (rs : List Rule) : Sheds c s g rs (sound c s g rs) := by
  induction rs generalizing g with
  | nil => exact .nil g
  | cons r rs ih =>
      unfold sound
      split
      · rename_i h
        obtain ⟨henabled, hraises⟩ := Bool.and_eq_true_iff.mp h
        exact .out henabled hraises (ih _)
      · exact .kept r (ih _)

end Assignment

namespace Registry

variable {g : Registry} {s : Snapshot} {cs ds : List Configuration}

/-- What is left of some configurations when rules are taken out that fail at their turn in a pass
over all of them. -/
inductive Sheds (s : Snapshot) : Registry → List Configuration → List Configuration → Prop where
  | nil (g : Registry) : Sheds s g [] []
  /-- The rules of a configuration that is not active have no turn. -/
  | idle {g : Registry} {c : Configuration} {cs ds : List Configuration}
      (hc : c.isActive = false) (h : Sheds s g cs ds) : Sheds s g (c :: cs) (c :: ds)
  | active {g : Registry} {c : Configuration} {qs : List Rule} {cs ds : List Configuration}
      (hc : c.isActive = true) (hrules : Assignment.Sheds c s g c.rules qs)
      (h : Sheds s ((⟨c, c.enabledRules⟩ : Assignment).run s g).2 cs ds) :
      Sheds s g (c :: cs) ({ c with rules := qs } :: ds)

/-- The configurations of a pass without all rules that fail at their turn. -/
def sound (s : Snapshot) : Registry → List Configuration → List Configuration
  | _, [] => []
  | g, c :: cs =>
    if c.isActive then { c with rules := Assignment.sound c s g c.rules }
      :: sound s ((⟨c, c.enabledRules⟩ : Assignment).run s g).2 cs
    else c :: sound s g cs

theorem sheds_sound (g : Registry) (cs : List Configuration) : Sheds s g cs (sound s g cs) := by
  induction cs generalizing g with
  | nil => exact .nil g
  | cons c cs ih =>
      unfold sound
      split
      · rename_i hc
        exact .active hc (Assignment.sheds_sound g c.rules) (ih _)
      · rename_i hc
        exact .idle (Bool.eq_false_iff.mpr hc) (ih g)

theorem runAll_cons (s : Snapshot) (a : Assignment) (bs : List Assignment) (g : Registry) :
    runAll s (a :: bs) g = ((a.run s g).1 ++ (runAll s bs (a.run s g).2).1,
      (runAll s bs (a.run s g).2).2) :=
  rfl

/-- **A pass goes on past rules that fail** as if they were not there: it finds the same alerts and
leaves the same store. Not even an identifier is lost on them. -/
theorem Sheds.evaluates_alike (h : Sheds s g cs ds) (limit : Concurrency) :
    g.evaluate ds limit s = g.evaluate cs limit s := by
  have hall : runAll s (Assignment.batch ds) g = runAll s (Assignment.batch cs) g := by
    induction h with
    | nil g => rfl
    | @idle g c cs ds hc h ih =>
        rw [Assignment.batch_cons, Assignment.batch_cons, hc]
        exact ih
    | @active g c qs cs ds hc hrules h ih =>
        have hrun : (⟨{ c with rules := qs }, Configuration.enabledRules { c with rules := qs }⟩ :
            Assignment).run s g = (⟨c, c.enabledRules⟩ : Assignment).run s g :=
          hrules.foldl []
        have hd : Configuration.isActive { c with rules := qs } = true := hc
        rw [Assignment.batch_cons, Assignment.batch_cons, if_pos hd, if_pos hc, runAll_cons,
          runAll_cons, hrun, ih]
  unfold evaluate
  rw [hall]

/-! ## A ward whose rule fails -/

set_option maxRecDepth 100000 in
/-- The cooldown of the first ward goes back beyond the calendar. The second one is evaluated as if
the first one had no rule. -/
theorem evaluates_alike_wards : ∃ c d s,
    (Configuration.load (.atUtc 0) (Sample.ward (10 ^ 12)) .fresh).1 = .ok c ∧
      (Configuration.load (.atUtc 0) (Sample.ward 30) .fresh).1 = .ok d ∧
      Snapshot.schema.check Sample.warmer = .ok s ∧
      (sound s ⟨.empty, .fresh⟩ [c, d]).map (·.rules.length) = [0, 1] ∧
      Sheds s ⟨.empty, .fresh⟩ [c, d] (sound s ⟨.empty, .fresh⟩ [c, d]) ∧
      ∃ found g, evaluate ⟨.empty, .fresh⟩ [c, d] none s = .ok (found, g) ∧
        evaluate ⟨.empty, .fresh⟩ (sound s ⟨.empty, .fresh⟩ [c, d]) none s = .ok (found, g) ∧
        found = ["alert_0000000000000001"] := by
  have hwards : ∃ c, (Configuration.load (.atUtc 0) (Sample.ward (10 ^ 12)) .fresh).1 = .ok c ∧
      ∃ d, (Configuration.load (.atUtc 0) (Sample.ward 30) .fresh).1 = .ok d ∧
        ∃ s, Snapshot.schema.check Sample.warmer = .ok s ∧
          (sound s ⟨.empty, .fresh⟩ [c, d]).map (·.rules.length) = [0, 1] ∧
          (runAll s (Assignment.batch [c, d]) ⟨.empty, .fresh⟩).1 = ["alert_0000000000000001"] := by
    decide +kernel
  obtain ⟨c, hc, d, hd, s, hs, hrules, hfound⟩ := hwards
  have hsheds := sheds_sound (s := s) ⟨.empty, .fresh⟩ [c, d]
  refine ⟨c, d, s, hc, hd, hs, hrules, hsheds, _, _, rfl, ?_, hfound⟩
  exact hsheds.evaluates_alike none

end Registry

end BuildingAlerts
