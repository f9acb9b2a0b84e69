/-
Which rules have alerts of their own.

A rule whose conditions are met opens an alert, unless it suppresses duplicates and finds an open
one under its identifier. So a configuration without alerts gets one for each rule that comes to an
alert by itself, as long as no rule that suppresses duplicates has the identifier of an earlier one.
-/
import BuildingAlerts.Proofs.Rule.Twins

set_option autoImplicit false

namespace BuildingAlerts

namespace Alert

variable {a b d : Alert}

theorem Alike.symm (h : a.Alike b) : b.Alike a where
  eq :=
    calc a = (a.under b.id b.surroundings.related).under a.id a.surroundings.related := .refl a
      _ = b.under a.id a.surroundings.related := by rw [← h.eq]

theorem Alike.trans (h : a.Alike b) (k : b.Alike d) : a.Alike d where
  eq :=
    calc d = b.under d.id d.surroundings.related := k.eq
      _ = (a.under b.id b.surroundings.related).under d.id d.surroundings.related := by rw [← h.eq]

theorem Alike.ruleId (h : a.Alike b) : b.ruleId = a.ruleId :=
  (congrArg Alert.ruleId h.eq :)

end Alert

namespace Rule

variable {r : Rule} {c : Configuration} {s : Snapshot} {results : List ConditionResult}

/-- Whether the conditions of a rule are met. -/
def isMet (r : Rule) (s : Snapshot) : Bool :=
  match r.results s with
  | .ok results => r.connective.holds results
  | .error _ => false

/-- Whether a rule is evaluated to the end when it has the store for itself. -/
def completes (r : Rule) (c : Configuration) (s : Snapshot) : Bool :=
  ((r.evaluate c s .empty).on .fresh).1.toBool

/-- Whether a rule by itself comes to an alert. -/
def yields (c : Configuration) (s : Snapshot) (r : Rule) : Bool :=
  r.isMet s && r.completes c s

/-- An alert is the one that a rule opens, but for identifiers. -/
structure Opens (c : Configuration) (s : Snapshot) (r : Rule) (a : Alert) : Prop where
  configurationId : a.configurationId = c.id
  ruleId : a.ruleId = r.id
  sketch : ∃ results b, r.results s = .ok results ∧ r.sketch c s results = .ok b ∧ b.Alike a

theorem ruleId_sketch {a : Alert} (h : r.sketch c s results = .ok a) : a.ruleId = r.id :=
  (r.isFaithful_triggering c s results _ _ a _ (Prod.ext h (.refl _))).2.1

theorem opens_of_sketch {a : Alert} (hresults : r.results s = .ok results)
    (h : r.sketch c s results = .ok a) : r.Opens c s a :=
  ⟨configurationId_sketch h, ruleId_sketch h, results, a, hresults, h, .rfl a⟩

theorem Opens.of_alike {a b : Alert} (h : r.Opens c s a) (hab : a.Alike b) : r.Opens c s b := by
  obtain ⟨results, d, hresults, hd, hda⟩ := h.sketch
  exact ⟨hab.configurationId.trans h.configurationId, hab.ruleId.trans h.ruleId,
    results, d, hresults, hd, hda.trans hab⟩

/-- No rule that suppresses duplicates has the identifier of an earlier one. -/
def Apart (rs : List Rule) : Prop :=
  rs.Pairwise fun q r => r.suppressDuplicates = true → q.id ≠ r.id

instance (rs : List Rule) : Decidable (Apart rs) :=
  inferInstanceAs (Decidable (rs.Pairwise _))

/-- No alert of a configuration is in the way of a rule. -/
def Free (c : Configuration) (store : Store) (r : Rule) : Prop :=
  r.suppressDuplicates = true → ∀ a ∈ store.ofConfiguration c.id, a.ruleId ≠ r.id

/-- A rule that nothing is in the way of looks up what it does by itself. -/
theorem Free.lookUp {store : Store} (h : r.Free c store) (results : List ConditionResult) :
    (r.triggering c s results).lookUp store = (r.triggering c s results).lookUp .empty := by
  unfold Triggering.lookUp triggering
  dsimp only
  split
  · rename_i hsuppress
    have hnone : store.all.filter (Store.isOpenOf c.id r.id) = [] := by
      rw [Store.filter_isOpenOf]
      refine List.filter_eq_nil_iff.mpr fun a ha hopen => ?_
      unfold Store.isOpenOf at hopen
      rw [Bool.and_eq_true, Bool.and_eq_true, beq_iff_eq, beq_iff_eq] at hopen
      exact h hsuppress a ha hopen.1.2
    unfold Store.openDuplicate?
    rw [hnone]
    rfl
  · rfl

/-- A rule by itself finds no duplicate. -/
theorem lookUp_empty_ne (a : Alert) : (r.triggering c s results).lookUp .empty ≠ .ok (some a) := by
  intro h
  unfold Triggering.lookUp triggering Store.openDuplicate? at h
  dsimp only at h
  split at h
  · obtain ⟨span, -, h⟩ := bind_eq_ok_iff.mp h
    obtain ⟨start, -, h⟩ := bind_eq_ok_iff.mp h
    exact nomatch h
  · exact nomatch h

/-- A rule whose conditions are met is evaluated to the end if nothing is in the way of its search
and its alert can be made out. -/
theorem completes_iff (hresults : r.results s = .ok results)
    (hholds : r.connective.holds results = true) : r.completes c s = true ↔
      (r.triggering c s results).lookUp .empty = .ok none ∧ ∃ a, r.sketch c s results = .ok a := by
  have hopen : (Store.empty.openOrAdd c.id r.id s.now r.cooldown r.suppressDuplicates
      (r.alert c s results)).on .fresh = _ :=
    Store.openOrAdd_on (r.triggering c s results) .empty .fresh
  unfold completes Rule.evaluate
  rw [Drafting.on_except_bind, hresults]
  dsimp only
  rw [if_pos hholds, Drafting.on_bind, hopen]
  cases hfound : (r.triggering c s results).lookUp .empty with
  | error f => exact iff_of_false (fun h => nomatch h) fun h => nomatch h.1
  | ok found =>
      cases found with
      | some a => exact absurd hfound (lookUp_empty_ne a)
      | none =>
          have hmade : ((r.triggering c s results).create .empty).on .fresh = _ :=
            r.alert_on c s results .empty .fresh
          dsimp only
          rw [hmade]
          cases r.sketch c s results with
          | error f => exact iff_of_false (fun h => nomatch h) fun ⟨_, _, h⟩ => nomatch h
          | ok a => exact iff_of_true rfl ⟨rfl, a, rfl⟩

end Rule

namespace Registry

variable {g : Registry} {old : Store} {n : Nat} {c : Configuration} {s : Snapshot}

/-- **A rule that nothing is in the way of** opens an alert if it comes to one by itself, and else
leaves everything as it was. -/
theorem step_of_free {r : Rule} (h : r.Free c g.store) (xs : List String) :
    (r.yields c s = true ∧ ∃ a, r.Opens c s a ∧
      Assignment.step c s (xs, g) r = (xs ++ [(g.ids.draw .alert).1], g.opening c.id a)) ∨
    (r.yields c s = false ∧ Assignment.step c s (xs, g) r = (xs, g)) := by
  rw [step_eq]
  unfold Rule.yields Rule.isMet
  cases hresults : r.results s with
  | error f => exact .inr ⟨rfl, rfl⟩
  | ok results =>
      dsimp only
      cases hholds : r.connective.holds results with
      | false => exact .inr ⟨rfl, rfl⟩
      | true =>
          rw [if_pos rfl, Bool.true_and, answer_eq, h.lookUp]
          have hcompletes := Rule.completes_iff (c := c) hresults hholds
          cases hfound : (r.triggering c s results).lookUp .empty with
          | error f =>
              rw [hfound] at hcompletes
              refine .inr ⟨Bool.eq_false_iff.mpr fun hc => ?_, by simp⟩
              exact nomatch (hcompletes.mp hc).1
          | ok found =>
              cases found with
              | some a => exact absurd hfound (Rule.lookUp_empty_ne a)
              | none =>
                  rw [hfound] at hcompletes
                  cases hsketch : r.sketch c s results with
                  | error f =>
                      rw [hsketch] at hcompletes
                      refine .inr ⟨Bool.eq_false_iff.mpr fun hc => ?_, by simp⟩
                      obtain ⟨-, a, ha⟩ := hcompletes.mp hc
                      exact nomatch ha
                  | ok a =>
                      rw [hsketch] at hcompletes
                      exact .inl ⟨hcompletes.mpr ⟨rfl, a, rfl⟩, a,
                        Rule.opens_of_sketch hresults hsketch, rfl⟩

/-- **Rules one after the other.** Each that comes to an alert by itself opens it, in order, and no
other does. -/
theorem After.foldl_yields {rs : List Rule} (hg : g.After old (rs.length + n))
    (hapart : Rule.Apart rs) (hfree : ∀ r ∈ rs, r.Free c g.store) (xs : List String) :
    ∃ as, (rs.foldl (Assignment.step c s) (xs, g)).2.store.ofConfiguration c.id
        = g.store.ofConfiguration c.id ++ as ∧
      (rs.foldl (Assignment.step c s) (xs, g)).1 = xs ++ as.map (·.id) ∧
      List.Forall₂ (Rule.Opens c s) (rs.filter (Rule.yields c s)) as := by
  induction rs generalizing g xs with
  | nil => exact ⟨[], (List.append_nil _).symm, (List.append_nil _).symm, .nil⟩
  | cons r rs ih =>
      obtain ⟨hfirst, hapart⟩ := List.pairwise_cons.mp hapart
      have hlength : (r :: rs).length + n = (rs.length + n) + 1 := by
        rw [List.length_cons]
        omega
      rw [hlength] at hg
      rw [List.foldl_cons]
      rcases step_of_free (s := s) (hfree r List.mem_cons_self) xs with
        ⟨hyields, a, ha, hstep⟩ | ⟨hyields, hstep⟩
      · have hopened := hg.ofConfiguration_opening a c.id c.id
        rw [if_pos ha.configurationId] at hopened
        have hnext : r.Opens c s (g.next c.id a) := ha.of_alike (Alert.alike_under a _ _ _ _)
        have hfree' : ∀ q ∈ rs, q.Free c (g.opening c.id a).store := by
          intro q hq hsuppress b hb
          rw [hopened] at hb
          rcases List.mem_append.mp hb with hb | hb
          · exact hfree q (List.mem_cons_of_mem r hq) hsuppress b hb
          · obtain rfl := List.mem_singleton.mp hb
            exact hnext.ruleId ▸ hfirst q hq hsuppress
        obtain ⟨as, hstore, hfound, hall⟩ := ih (hg.opening c.id a) hapart hfree'
          (xs ++ [(g.ids.draw .alert).1])
        refine ⟨g.next c.id a :: as, ?_, ?_, ?_⟩
        · rw [hstep, hstore, hopened, List.append_assoc]
          rfl
        · rw [hstep, hfound, List.append_assoc]
          rfl
        · rw [List.filter_cons_of_pos hyields]
          exact .cons hnext hall
      · obtain ⟨as, hstore, hfound, hall⟩ := ih (hg.mono (Nat.le_succ _)) hapart
          (fun q hq => hfree q (List.mem_cons_of_mem r hq)) xs
        rw [hstep, List.filter_cons_of_neg (Bool.eq_false_iff.mp hyields)]
        exact ⟨as, hstore, hfound, hall⟩

end Registry

end BuildingAlerts
