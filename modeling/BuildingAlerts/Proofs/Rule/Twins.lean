/-
Rules that are evaluated on two stores.

Whoever evaluates a rule of a configuration looks only at the alerts of that configuration. So on
two stores whose alerts of the configuration differ in nothing but the identifiers that were given
out, a rule comes to the same answer: it fails on both, or it finds open duplicates that stand at
the same place, or it opens alerts that differ again in nothing but identifiers. Alerts of other
configurations may differ as they like, and what the answer adds is nothing to them.
-/
import BuildingAlerts.Proofs.Alert.Growth
import BuildingAlerts.Proofs.Ident
import Mathlib.Data.List.Forall2
import Mathlib.Data.List.Nodup
import Mathlib.Data.List.Zip

set_option autoImplicit false

namespace BuildingAlerts

/-! ## Alerts that differ in identifiers -/

namespace Alert

/-- The alert under another identifier and beside others. -/
def under (a : Alert) (id : String) (related : List String) : Alert :=
  { a with id := id, surroundings := { a.surroundings with related := related } }

/-- Whether two alerts differ only in their identifiers and in those that stood beside them. -/
structure Alike (a b : Alert) : Prop where
  eq : b = a.under b.id b.surroundings.related

theorem Alike.rfl (a : Alert) : a.Alike a :=
  ⟨.refl a⟩

variable {a b : Alert}

theorem Alike.configurationId (h : a.Alike b) : b.configurationId = a.configurationId :=
  (congrArg Alert.configurationId h.eq :)

theorem Alike.triggeredAt (h : a.Alike b) : b.triggeredAt = a.triggeredAt :=
  (congrArg Alert.triggeredAt h.eq :)

theorem Alike.isOpen (h : a.Alike b) : b.isOpen = a.isOpen :=
  (congrArg Alert.isOpen h.eq :)

theorem Alike.isOpenOf (h : a.Alike b) (configurationId ruleId : String) :
    Store.isOpenOf configurationId ruleId b = Store.isOpenOf configurationId ruleId a :=
  (congrArg (Store.isOpenOf configurationId ruleId) h.eq :)

theorem alike_under (a : Alert) (x y : String) (xs ys : List String) :
    (a.under x xs).Alike (a.under y ys) :=
  ⟨.refl _⟩

/-- Alerts that differ only in identifiers, and in those as a correspondence says. -/
structure Twin (R : String → String → Prop) (a b : Alert) : Prop where
  alike : a.Alike b
  id : R a.id b.id
  related : List.Forall₂ R a.surroundings.related b.surroundings.related

theorem Twin.mono {R Q : String → String → Prop} (h : a.Twin R b) (hR : ∀ x y, R x y → Q x y) :
    a.Twin Q b :=
  ⟨h.alike, hR _ _ h.id, h.related.imp fun {_ _} => hR _ _⟩

end Alert

/-! ## The alerts of one configuration -/

namespace Store

/-- The alerts of a configuration, in the order in which they came. -/
def ofConfiguration (s : Store) (configurationId : String) : List Alert :=
  s.all.filter (·.configurationId == configurationId)

/-- The identifiers of alerts that stand at the same place among those of a configuration. -/
def Faces (s t : Store) (x y : String) : Prop :=
  ∃ configurationId, (x, y) ∈ List.zip ((s.ofConfiguration configurationId).map (·.id))
    ((t.ofConfiguration configurationId).map (·.id))

variable {s t : Store} {ps : List (Alert × Alert)} {configurationId : String} {a : Alert}

theorem filter_isOpenOf (s : Store) (configurationId ruleId : String) :
    s.all.filter (isOpenOf configurationId ruleId)
      = (s.ofConfiguration configurationId).filter (isOpenOf configurationId ruleId) := by
  unfold ofConfiguration
  rw [List.filter_filter]
  apply List.filter_congr
  intro a _
  unfold isOpenOf
  cases a.configurationId == configurationId with
  | true => simp
  | false => simp

theorem openAlerts_eq (s : Store) (configurationId : String) :
    s.openAlerts (some configurationId)
      = (s.ofConfiguration configurationId).filter (·.isOpen) := by
  unfold openAlerts ofConfiguration
  rw [List.filter_filter]
  rfl

/-- An alert under a new identifier comes last. -/
theorem all_add (h : s.get? a.id = none) : (s.add a).all = s.all ++ [a] :=
  Table.values_insert_of_new h a

theorem ofConfiguration_add (h : s.get? a.id = none) (configurationId : String) :
    (s.add a).ofConfiguration configurationId
      = s.ofConfiguration configurationId
        ++ if a.configurationId = configurationId then [a] else [] := by
  unfold ofConfiguration
  rw [all_add h, List.filter_append]
  congr 1
  by_cases hc : a.configurationId = configurationId
  · simp [hc]
  · simp [hc]

/-! ## Pairs of alerts -/

/-- Of pairs of alerts that triggered together, the latest on the one side is beside the latest on
the other. -/
theorem latest?_pairs (hps : ∀ p ∈ ps, p.1.Alike p.2) :
    ∃ found : Option (Alert × Alert), latest? (ps.map (·.1)) = found.map (·.1) ∧ latest? (ps.map (·.2)) = found.map (·.2) ∧
      ∀ p ∈ found, p ∈ ps := by
  cases ps with
  | nil => exact ⟨none, rfl, rfl, fun _ h => nomatch h⟩
  | cons p ps =>
      have hfold : ∀ (qs : List (Alert × Alert)) (best : Alert × Alert),
          best.1.Alike best.2 → (∀ q ∈ qs, q.1.Alike q.2) →
          ∃ q ∈ best :: qs,
            (qs.map (·.1)).foldl (fun best b =>
              if (best.triggeredAt.lt? b.triggeredAt).getD false then b else best) best.1 = q.1 ∧
            (qs.map (·.2)).foldl (fun best b =>
              if (best.triggeredAt.lt? b.triggeredAt).getD false then b else best) best.2 = q.2 := by
        intro qs
        induction qs with
        | nil => exact fun best _ _ => ⟨best, List.mem_cons_self, rfl, rfl⟩
        | cons q qs ih =>
            intro best hbest hqs
            have hq := hqs q List.mem_cons_self
            have hrest := fun r hr => hqs r (List.mem_cons_of_mem _ hr)
            simp only [List.map_cons, List.foldl_cons]
            rw [hbest.triggeredAt, hq.triggeredAt]
            by_cases hlt : (best.1.triggeredAt.lt? q.1.triggeredAt).getD false = true
            · rw [if_pos hlt, if_pos hlt]
              obtain ⟨r, hr, h1, h2⟩ := ih q hq hrest
              exact ⟨r, List.mem_cons_of_mem _ hr, h1, h2⟩
            · rw [if_neg hlt, if_neg hlt]
              obtain ⟨r, hr, h1, h2⟩ := ih best hbest hrest
              refine ⟨r, ?_, h1, h2⟩
              rcases List.mem_cons.mp hr with rfl | hr
              · exact List.mem_cons_self
              · exact List.mem_cons_of_mem _ (List.mem_cons_of_mem _ hr)
      obtain ⟨q, hq, h1, h2⟩ := hfold ps p (hps p List.mem_cons_self)
        fun r hr => hps r (List.mem_cons_of_mem _ hr)
      refine ⟨some q, congrArg some h1, congrArg some h2, ?_⟩
      intro r hr
      rwa [← Option.some.inj hr]

/-- Open duplicates on two stores stand at the same place. -/
theorem openDuplicate?_pairs (hs : s.ofConfiguration configurationId = ps.map (·.1))
    (ht : t.ofConfiguration configurationId = ps.map (·.2)) (hps : ∀ p ∈ ps, p.1.Alike p.2)
    (ruleId : String) (now : Moment) (cooldown : Int) :
    ∃ found : Except Fault (Option (Alert × Alert)),
      s.openDuplicate? configurationId ruleId now cooldown = found.map (·.map (·.1)) ∧
      t.openDuplicate? configurationId ruleId now cooldown = found.map (·.map (·.2)) ∧
      ∀ p, found = .ok (some p) → p ∈ ps := by
  unfold openDuplicate?
  cases orFault .outOfBounds (Span.ofMinutes? cooldown) with
  | error f => exact ⟨.error f, rfl, rfl, fun _ h => nomatch h⟩
  | ok span =>
  cases hstart : orFault .outOfBounds (now.minus? span) with
  | error f =>
      exact ⟨.error f, by simp [bind, Except.bind, hstart, Except.map],
        by simp [bind, Except.bind, hstart, Except.map], fun _ h => nomatch h⟩
  | ok start =>
  have hcandidates : ∀ qs : List (Alert × Alert), (∀ q ∈ qs, q.1.Alike q.2) →
      (qs.map (·.2)).filter (isOpenOf configurationId ruleId)
        = (qs.filter fun q => isOpenOf configurationId ruleId q.1).map (·.2) := by
    intro qs hqs
    rw [List.filter_map]
    congr 1
    exact List.filter_congr fun q hq => (hqs q hq).isOpenOf _ _
  have hleft : s.all.filter (isOpenOf configurationId ruleId)
      = (ps.filter fun q => isOpenOf configurationId ruleId q.1).map (·.1) := by
    rw [filter_isOpenOf, hs, List.filter_map]
    rfl
  have hright : t.all.filter (isOpenOf configurationId ruleId)
      = (ps.filter fun q => isOpenOf configurationId ruleId q.1).map (·.2) := by
    rw [filter_isOpenOf, ht, hcandidates ps hps]
  generalize hqs : ps.filter (fun q => isOpenOf configurationId ruleId q.1) = qs at hleft hright
  have hmem : ∀ q ∈ qs, q ∈ ps := by
    intro q hq
    rw [← hqs] at hq
    exact (List.mem_filter.mp hq).1
  -- the moments of a pair are one moment, so a test answers both alike
  have hyoung : qs.filterM (fun q => triggeredSince start q.2)
      = qs.filterM fun q => triggeredSince start q.1 := by
    apply filterM_congr
    intro q hq
    unfold triggeredSince
    rw [(hps q (hmem q hq)).triggeredAt]
  simp only [hleft, hright, filterM_map, hyoung, hstart, bind, Except.bind]
  cases hkept : qs.filterM fun q => triggeredSince start q.1 with
  | error f => exact ⟨.error f, rfl, rfl, fun _ h => nomatch h⟩
  | ok young =>
      have hin : ∀ q ∈ young, q ∈ qs := by
        intro q hq
        rw [(filterM_eq_ok hkept).2] at hq
        exact (List.mem_filter.mp hq).1
      obtain ⟨found, h1, h2, h3⟩ :=
        latest?_pairs fun q hq => hps q (hmem q (hin q hq))
      refine ⟨.ok found, congrArg Except.ok h1, congrArg Except.ok h2, ?_⟩
      intro p hp
      exact hmem p (hin p (h3 p (Except.ok.inj hp)))

/-- The open alerts on two stores stand at the same places. -/
theorem openAlerts_pairs (hs : s.ofConfiguration configurationId = ps.map (·.1))
    (ht : t.ofConfiguration configurationId = ps.map (·.2)) (hps : ∀ p ∈ ps, p.1.Alike p.2) :
    s.openAlerts (some configurationId) = (ps.filter (·.1.isOpen)).map (·.1) ∧
      t.openAlerts (some configurationId) = (ps.filter (·.1.isOpen)).map (·.2) := by
  rw [openAlerts_eq, openAlerts_eq, hs, ht, List.filter_map, List.filter_map]
  refine ⟨rfl, ?_⟩
  congr 1
  exact List.filter_congr fun p hp => (hps p hp).isOpen

end Store

/-! ## The alert that a rule opens -/

/-- A creation whose first part needs no identifier. -/
theorem Drafting.on_except_bind {α β : Type} (x : Except Fault α) (f : α → Drafting β)
    (ids : IdSource) : ((liftM x : Drafting α) >>= f).on ids = match x with
      | .error e => (.error e, ids)
      | .ok a => (f a).on ids := by
  cases x with
  | error e => rfl
  | ok a => rfl

namespace Rule

variable (r : Rule) (c : Configuration) (s : Snapshot) (results : List ConditionResult)

/-- The alert of a rule but for its identifier and for the alerts beside it. -/
def sketch : Except Fault Alert :=
  ((r.alert c s results .empty).on .fresh).1

/-- An identifier is drawn for an alert when nothing can fail any more. -/
theorem alert_on (store : Store) (ids : IdSource) :
    (r.alert c s results store).on ids = match r.sketch c s results with
      | .error f => (.error f, ids)
      | .ok a => (.ok (a.under (ids.draw .alert).1
          ((store.openAlerts (some c.id)).map (·.id))), (ids.draw .alert).2) := by
  unfold sketch alert
  simp only [Drafting.on_except_bind]
  cases s.factors with
  | error f => rfl
  | ok factors =>
  have hsurroundings : r.surroundings c s (List.zipWith (valueOf s factors) r.conditions results) store
      = (r.surroundings c s (List.zipWith (valueOf s factors) r.conditions results) .empty).map
          fun x => { x with related := (store.openAlerts (some c.id)).map (·.id) } := by
    unfold surroundings
    cases (List.zipWith (valueOf s factors) r.conditions results).mapM (summarize s) with
    | error f => rfl
    | ok sensors =>
    cases orFault .outOfBounds (Span.ofMinutes? r.window) with
    | error f => rfl
    | ok span =>
    simp only [bind, Except.bind]
    cases orFault .outOfBounds (s.now.minus? span) with
    | error f => rfl
    | ok since => rfl
  dsimp only
  rw [hsurroundings]
  cases r.surroundings c s (List.zipWith (valueOf s factors) r.conditions results) .empty with
  | error f => rfl
  | ok x =>
  cases describe r.name r.description results with
  | error f => rfl
  | ok description =>
  cases Confidence.of results with
  | error f => rfl
  | ok confidence =>
  dsimp only [Except.map]
  cases Advice.of results (!x.changes.isEmpty) with
  | error f => rfl
  | ok actions => rfl

end Rule

theorem Drafting.on_bind {α β : Type} (d : Drafting α) (f : α → Drafting β) (ids : IdSource) :
    (d >>= f).on ids = match d.on ids with
      | (.error e, ids) => (.error e, ids)
      | (.ok a, ids) => (f a).on ids := by
  show StateT.run (ExceptT.bindCont f (StateT.run d ids).1) (StateT.run d ids).2 = _
  unfold Drafting.on
  rcases StateT.run d ids with ⟨e | a, mid⟩
  · rfl
  · rfl

theorem Rule.configurationId_sketch {r : Rule} {c : Configuration} {s : Snapshot}
    {results : List ConditionResult} {a : Alert} (h : r.sketch c s results = .ok a) :
    a.configurationId = c.id :=
  (r.isFaithful_triggering c s results _ _ a _ (Prod.ext h (.refl _))).1

/-! ## What a rule that holds comes to -/

namespace Registry

/-- What comes of a rule whose conditions hold: the identifier of the alert that stands for it,
unless that fails, and what is there afterwards. -/
def answer (g : Registry) (c : Configuration) (s : Snapshot) (r : Rule)
    (results : List ConditionResult) : List String × Registry :=
  match (g.store.openOrAdd c.id r.id s.now r.cooldown r.suppressDuplicates
      (r.alert c s results)).on g.ids with
  | (.ok (a, _, store), ids) => ([a.id], ⟨store, ids⟩)
  | (.error _, ids) => ([], ⟨g.store, ids⟩)

/-- An alert under the next identifier, beside the open ones of a configuration. -/
def next (g : Registry) (configurationId : String) (a : Alert) : Alert :=
  a.under (g.ids.draw .alert).1 ((g.store.openAlerts (some configurationId)).map (·.id))

/-- What is there after an alert was opened under the next identifier. -/
def opening (g : Registry) (configurationId : String) (a : Alert) : Registry :=
  ⟨g.store.add (g.next configurationId a), (g.ids.draw .alert).2⟩

variable {g k : Registry} {c : Configuration} {s : Snapshot} {r : Rule}
  {results : List ConditionResult} {ps : List (Alert × Alert)} {n : Nat}

/-- The answer once it is known whether there is a duplicate. -/
theorem answer_eq (g : Registry) (c : Configuration) (s : Snapshot) (r : Rule)
    (results : List ConditionResult) :
    g.answer c s r results = match (r.triggering c s results).lookUp g.store with
      | .error _ => ([], g)
      | .ok (some a) => ([a.id], g)
      | .ok none => match r.sketch c s results with
        | .error _ => ([], g)
        | .ok a => ([(g.ids.draw .alert).1], g.opening c.id a) := by
  have hopen := Store.openOrAdd_on (r.triggering c s results) g.store g.ids
  unfold answer
  show (match Drafting.on (g.store.openOrAdd (r.triggering c s results).configurationId
      (r.triggering c s results).ruleId (r.triggering c s results).now
      (r.triggering c s results).cooldown (r.triggering c s results).suppress
      (r.triggering c s results).create) g.ids with
    | (.ok (a, _, store), ids) => ([a.id], (⟨store, ids⟩ : Registry))
    | (.error _, ids) => ([], ⟨g.store, ids⟩)) = _
  rw [hopen]
  cases (r.triggering c s results).lookUp g.store with
  | error f => rfl
  | ok found =>
  cases found with
  | some a => rfl
  | none =>
      have hmade : ((r.triggering c s results).create g.store).on g.ids = _ :=
        r.alert_on c s results g.store g.ids
      rw [hmade]
      cases r.sketch c s results with
      | error f => rfl
      | ok a => rfl

/-- **Answers on two stores.** Both fail, both name duplicates of one pair, or both open alerts that
differ only in identifiers. -/
theorem answer_pairs (hg : g.store.ofConfiguration c.id = ps.map (·.1))
    (hk : k.store.ofConfiguration c.id = ps.map (·.2)) (hps : ∀ p ∈ ps, p.1.Alike p.2) :
    (g.answer c s r results = ([], g) ∧ k.answer c s r results = ([], k)) ∨
    (∃ p ∈ ps, g.answer c s r results = ([p.1.id], g) ∧ k.answer c s r results = ([p.2.id], k)) ∨
    ∃ a, a.configurationId = c.id ∧
      g.answer c s r results = ([(g.ids.draw .alert).1], g.opening c.id a) ∧
      k.answer c s r results = ([(k.ids.draw .alert).1], k.opening c.id a) := by
  have hfound : ∃ found : Except Fault (Option (Alert × Alert)),
      (r.triggering c s results).lookUp g.store = found.map (·.map (·.1)) ∧
      (r.triggering c s results).lookUp k.store = found.map (·.map (·.2)) ∧
      ∀ p, found = .ok (some p) → p ∈ ps := by
    unfold Triggering.lookUp
    split
    · exact Store.openDuplicate?_pairs hg hk hps _ _ _
    · exact ⟨.ok none, rfl, rfl, fun _ h => nomatch h⟩
  obtain ⟨found, hleft, hright, hin⟩ := hfound
  rw [answer_eq, answer_eq, hleft, hright]
  rcases found with f | (_ | p)
  · exact .inl ⟨rfl, rfl⟩
  · cases hsketch : r.sketch c s results with
    | error f => exact .inl ⟨rfl, rfl⟩
    | ok a => exact .inr (.inr ⟨a, Rule.configurationId_sketch hsketch, rfl, rfl⟩)
  · exact .inr (.inl ⟨p, hin p rfl, rfl, rfl⟩)

/-- An answer changes nothing, or opens an alert of the configuration. -/
theorem answer_cases (g : Registry) (c : Configuration) (s : Snapshot) (r : Rule)
    (results : List ConditionResult) :
    (g.answer c s r results).2 = g ∨
      ∃ a, a.configurationId = c.id ∧ (g.answer c s r results).2 = g.opening c.id a := by
  have hdiagonal : ∀ as : List Alert, (as.map fun a => (a, a)).map (·.1) = as ∧
      (as.map fun a => (a, a)).map (·.2) = as := by
    intro as
    simp [Function.comp_def]
  obtain ⟨h1, h2⟩ := hdiagonal (g.store.ofConfiguration c.id)
  have hps : ∀ p ∈ (g.store.ofConfiguration c.id).map (fun a => (a, a)), p.1.Alike p.2 := by
    intro p hp
    obtain ⟨a, -, rfl⟩ := List.mem_map.mp hp
    exact .rfl a
  rcases answer_pairs (s := s) (r := r) h1.symm h2.symm hps with
    ⟨h, -⟩ | ⟨p, -, h, -⟩ | ⟨a, ha, h, -⟩
  · exact .inl (congrArg Prod.snd h)
  · exact .inl (congrArg Prod.snd h)
  · exact .inr ⟨a, ha, congrArg Prod.snd h⟩

/-- One rule of an evaluation: its conditions are judged, and if they hold an alert is found or
opened. -/
theorem step_eq (c : Configuration) (s : Snapshot) (xs : List String) (g : Registry) (r : Rule) :
    Assignment.step c s (xs, g) r = match r.results s with
      | .error _ => (xs, g)
      | .ok results => if r.connective.holds results
        then (xs ++ (g.answer c s r results).1, (g.answer c s r results).2) else (xs, g) := by
  unfold Assignment.step Rule.evaluate
  dsimp only
  rw [Drafting.on_except_bind]
  cases r.results s with
  | error f => simp
  | ok results =>
      dsimp only
      by_cases hholds : r.connective.holds results = true
      · rw [if_pos hholds, if_pos hholds, Drafting.on_bind]
        unfold answer
        rcases Drafting.on (g.store.openOrAdd c.id r.id s.now r.cooldown r.suppressDuplicates
          (r.alert c s results)) g.ids with ⟨f | ⟨a, new, store⟩, ids⟩
        · simp
        · rfl
      · rw [if_neg hholds, if_neg hholds]
        rfl

/-! ## Room for new alerts -/

/-- The store is in order, and so many identifiers that come next are not in it. -/
structure HasRoom (g : Registry) (n : Nat) : Prop where
  keyed : g.store.Keyed
  once : g.store.alerts.keys.Nodup
  digits : g.ids.drawn .alert + n < 16 ^ identWidth
  unused : ∀ m, g.ids.drawn .alert < m → m ≤ g.ids.drawn .alert + n →
    g.store.get? (IdKind.alert.ident m) = none

/-- What there is after an old store: its alerts are still there, and there is room for more. -/
structure After (g : Registry) (old : Store) (n : Nat) : Prop extends g.HasRoom n where
  kept : ∀ id a, old.get? id = some a → g.store.get? id = some a

variable {old : Store}

theorem HasRoom.after (hg : g.HasRoom n) : g.After g.store n :=
  ⟨hg, fun _ _ h => h⟩

theorem After.mono {m : Nat} (hg : g.After old n) (h : m ≤ n) : g.After old m where
  keyed := hg.keyed
  once := hg.once
  digits := by
    have := hg.digits
    omega
  unused := fun i hi hm => hg.unused i hi (by omega)
  kept := hg.kept

/-- The next identifier is new. -/
theorem HasRoom.get?_draw (hg : g.HasRoom (n + 1)) :
    g.store.get? (g.ids.draw .alert).1 = none :=
  hg.unused _ (by omega) (by omega)

theorem After.opening (hg : g.After old (n + 1)) (configurationId : String) (a : Alert) :
    (g.opening configurationId a).After old n := by
  have hdrawn : (g.opening configurationId a).ids.drawn .alert = g.ids.drawn .alert + 1 :=
    IdSource.drawn_draw g.ids .alert
  have hdigits := hg.digits
  have hnext : (g.next configurationId a).id = IdKind.alert.ident (g.ids.drawn .alert + 1) := rfl
  refine ⟨⟨Store.keyed_add hg.keyed _, Table.nodup_keys_insert hg.once _ _, by omega, ?_⟩, ?_⟩
  · intro m hm hmn
    show (g.store.add (g.next configurationId a)).get? _ = none
    rw [Store.get?_add, hnext, if_neg]
    · exact hg.unused m (by omega) (by omega)
    · intro heq
      have hsame := IdKind.ident_inj (by omega) (by omega) heq
      omega
  · intro id b hb
    have hgb := hg.kept id b hb
    show (g.store.add (g.next configurationId a)).get? _ = some b
    rw [Store.get?_add, if_neg]
    · exact hgb
    · rintro rfl
      exact nomatch (hg.get?_draw).symm.trans hgb

theorem After.answer (hg : g.After old (n + 1)) (c : Configuration) (s : Snapshot) (r : Rule)
    (results : List ConditionResult) : (g.answer c s r results).2.After old n := by
  rcases g.answer_cases c s r results with h | ⟨a, -, h⟩
  · rw [h]
    exact hg.mono (by omega)
  · rw [h]
    exact hg.opening c.id a

theorem HasRoom.ofConfiguration_opening (hg : g.HasRoom (n + 1)) (a : Alert)
    (configurationId other : String) :
    (g.opening configurationId a).store.ofConfiguration other
      = g.store.ofConfiguration other
        ++ if a.configurationId = other then [g.next configurationId a] else [] :=
  Store.ofConfiguration_add hg.get?_draw other

/-- An answer for one configuration is nothing to another. -/
theorem HasRoom.ofConfiguration_answer (hg : g.HasRoom (n + 1)) {configurationId : String}
    (h : c.id ≠ configurationId) (s : Snapshot) (r : Rule) (results : List ConditionResult) :
    (g.answer c s r results).2.store.ofConfiguration configurationId
      = g.store.ofConfiguration configurationId := by
  rcases g.answer_cases c s r results with heq | ⟨a, ha, heq⟩
  · rw [heq]
  · rw [heq, hg.ofConfiguration_opening, ha, if_neg h, List.append_nil]

/-! ## Two evaluations of one configuration -/

/-- The identifiers that are beside each other in some pairs. -/
def Beside (ps : List (Alert × Alert)) (x y : String) : Prop :=
  (x, y) ∈ ps.map fun p => (p.1.id, p.2.id)

/-- What two evaluations of one configuration have found and what they leave: the alerts of the
configuration come in pairs, and so do those that were found. A pair is an alert that was there
before, or two that were not and that differ only in identifiers. -/
structure Resembles (old : Store) (configurationId : String) (ps : List (Alert × Alert))
    (x y : List String × Registry) : Prop where
  left : x.2.store.ofConfiguration configurationId = ps.map (·.1)
  right : y.2.store.ofConfiguration configurationId = ps.map (·.2)
  found : List.Forall₂ (Beside ps) x.1 y.1
  pairs : ∀ p ∈ ps, (∃ a, old.get? a.id = some a ∧ p = (a, a)) ∨
    old.get? p.1.id = none ∧ old.get? p.2.id = none ∧ p.1.Twin (Beside ps) p.2

theorem Resembles.alike {configurationId : String} {x y : List String × Registry}
    (h : Resembles old configurationId ps x y) : ∀ p ∈ ps, p.1.Alike p.2 := by
  intro p hp
  rcases h.pairs p hp with ⟨a, -, rfl⟩ | ⟨-, -, htwin⟩
  · exact .rfl a
  · exact htwin.alike

theorem beside_of_mem {p : Alert × Alert} (hp : p ∈ ps) : Beside ps p.1.id p.2.id :=
  List.mem_map_of_mem hp

theorem forall₂_beside {qs : List (Alert × Alert)} (hqs : ∀ q ∈ qs, q ∈ ps) :
    List.Forall₂ (Beside ps) (qs.map (·.1.id)) (qs.map (·.2.id)) := by
  induction qs with
  | nil => exact .nil
  | cons q qs ih =>
      exact .cons (beside_of_mem (hqs q List.mem_cons_self))
        (ih fun p hp => hqs p (List.mem_cons_of_mem _ hp))

/-- **A rule goes on alike.** What a rule that holds comes to in the one evaluation resembles what
it comes to in the other. -/
theorem Resembles.answer {xs ys : List String} {m : Nat}
    (h : Resembles old c.id ps (xs, g) (ys, k)) (hg : g.After old (m + 1))
    (hk : k.After old (n + 1)) (s : Snapshot) (r : Rule) (results : List ConditionResult) :
    ∃ qs, Resembles old c.id qs
      (xs ++ (g.answer c s r results).1, (g.answer c s r results).2)
      (ys ++ (k.answer c s r results).1, (k.answer c s r results).2) := by
  rcases answer_pairs (s := s) (r := r) h.left h.right h.alike with
    ⟨h1, h2⟩ | ⟨p, hp, h1, h2⟩ | ⟨a, ha, h1, h2⟩
  · rw [h1, h2]
    exact ⟨ps, by simpa using h⟩
  · rw [h1, h2]
    exact ⟨ps, h.left, h.right, List.rel_append h.found (.cons (beside_of_mem hp) .nil), h.pairs⟩
  · rw [h1, h2]
    obtain ⟨hopen, kopen⟩ := Store.openAlerts_pairs h.left h.right h.alike
    have hmono : ∀ x y, Beside ps x y →
        Beside (ps ++ [(g.next c.id a, k.next c.id a)]) x y := by
      intro x y hxy
      unfold Beside at hxy ⊢
      rw [List.map_append]
      exact List.mem_append_left _ hxy
    have hlast : Beside (ps ++ [(g.next c.id a, k.next c.id a)])
        (g.ids.draw .alert).1 (k.ids.draw .alert).1 := by
      unfold Beside
      rw [List.map_append]
      exact List.mem_append_right _ (List.mem_singleton_self _)
    -- nothing that was there before has an identifier that is drawn now
    have hnew : ∀ {j : Registry} {i : Nat}, j.After old (i + 1) →
        old.get? (j.ids.draw .alert).1 = none := by
      intro j i hj
      cases hold : old.get? (j.ids.draw .alert).1 with
      | none => rfl
      | some b => exact nomatch hj.get?_draw.symm.trans (hj.kept _ _ hold)
    have hrelated : List.Forall₂ (Beside ps)
        ((g.store.openAlerts (some c.id)).map (·.id))
        ((k.store.openAlerts (some c.id)).map (·.id)) := by
      rw [hopen, kopen, List.map_map, List.map_map]
      exact forall₂_beside fun q hq => (List.mem_filter.mp hq).1
    refine ⟨ps ++ [(g.next c.id a, k.next c.id a)], ?_, ?_, ?_, ?_⟩
    · show (g.opening c.id a).store.ofConfiguration c.id = _
      rw [hg.ofConfiguration_opening, if_pos ha, h.left, List.map_append]
      rfl
    · show (k.opening c.id a).store.ofConfiguration c.id = _
      rw [hk.ofConfiguration_opening, if_pos ha, h.right, List.map_append]
      rfl
    · exact List.rel_append (h.found.imp hmono) (.cons hlast .nil)
    · intro p hp
      rcases List.mem_append.mp hp with hp | hp
      · rcases h.pairs p hp with hsame | ⟨hp1, hp2, htwin⟩
        · exact .inl hsame
        · exact .inr ⟨hp1, hp2, htwin.mono hmono⟩
      · obtain rfl := List.mem_singleton.mp hp
        exact .inr ⟨hnew hg, hnew hk, Alert.alike_under a _ _ _ _, hlast, hrelated.imp hmono⟩

end Registry

/-! ## Stores that differ in identifiers -/

namespace Store

/-- Two stores that came of an old one and differ in nothing but the identifiers that were given
out since: what stands at the same place corresponds one to one. -/
structure Mirrors (old s t : Store) : Prop where
  one : ∀ x y x' y', s.Faces t x y → s.Faces t x' y' → (x = x' ↔ y = y')
  kept : ∀ x a, old.get? x = some a →
    s.Faces t x x ∧ s.get? x = some a ∧ t.get? x = some a
  new : ∀ x y, s.Faces t x y → old.get? x = none → old.get? y = none ∧
    ∃ a b, s.get? x = some a ∧ t.get? y = some b ∧ a.Twin (s.Faces t) b

variable {old s t : Store}

theorem mem_ofConfiguration_iff {a : Alert} (hs : s.Keyed) (honce : s.alerts.keys.Nodup)
    {configurationId : String} : a ∈ s.ofConfiguration configurationId ↔
      s.get? a.id = some a ∧ a.configurationId = configurationId := by
  unfold ofConfiguration
  rw [List.mem_filter, beq_iff_eq]
  exact and_congr_left fun _ => Table.KeyedBy.mem_values_iff hs honce

theorem nodup_ofConfiguration (hs : s.Keyed) (honce : s.alerts.keys.Nodup)
    (configurationId : String) : (s.ofConfiguration configurationId).Nodup := by
  have hids : (s.all.map (·.id)).Nodup := by
    have hkeys : s.all.map (·.id) = s.alerts.keys := hs.map_values
    rw [hkeys]
    exact honce
  exact (List.Nodup.of_map _ hids).filter _

end Store

/-- A member of a list without repetition has one partner. -/
theorem eq_of_mem_zip {α β : Type} {xs : List α} {ys : List β} {p q : α × β} (hxs : xs.Nodup)
    (hp : p ∈ xs.zip ys) (hq : q ∈ xs.zip ys) (h : p.1 = q.1) : p = q := by
  obtain ⟨i, hi, rfl⟩ := List.getElem_of_mem hp
  obtain ⟨j, hj, rfl⟩ := List.getElem_of_mem hq
  rw [List.getElem_zip, List.getElem_zip] at h
  have hij : i = j := (List.Nodup.getElem_inj_iff hxs).mp h
  subst hij
  rfl

namespace Registry

variable {g k : Registry} {old : Store} {m n : Nat}

theorem faces_of_beside {configurationId : String} {ps : List (Alert × Alert)}
    {x y : List String × Registry} (h : Resembles old configurationId ps x y) {i j : String}
    (hij : Beside ps i j) : x.2.store.Faces y.2.store i j := by
  refine ⟨configurationId, ?_⟩
  rw [h.left, h.right, List.map_map, List.map_map, List.zip_map']
  exact hij

/-- Evaluations that resemble each other for every configuration leave stores that differ in
identifiers. -/
theorem After.mirrors (hg : g.After old m) (hk : k.After old n)
    (h : ∀ configurationId, ∃ ps xs ys,
      Resembles old configurationId ps (xs, g) (ys, k)) : old.Mirrors g.store k.store := by
  -- who face each other stand at the same place of some configuration
  have hpair : ∀ x y, g.store.Faces k.store x y → ∃ configurationId,
      ∃ p ∈ List.zip (g.store.ofConfiguration configurationId)
        (k.store.ofConfiguration configurationId),
        p.1.id = x ∧ p.2.id = y ∧ g.store.get? x = some p.1 ∧ k.store.get? y = some p.2 ∧
          p.1.configurationId = configurationId ∧ p.2.configurationId = configurationId := by
    rintro x y ⟨configurationId, hxy⟩
    rw [List.zip_map] at hxy
    obtain ⟨p, hp, heq⟩ := List.mem_map.mp hxy
    obtain ⟨rfl, rfl⟩ := Prod.mk.inj heq
    obtain ⟨h1, h2⟩ := List.of_mem_zip hp
    obtain ⟨hget1, hid1⟩ := (Store.mem_ofConfiguration_iff hg.keyed hg.once).mp h1
    obtain ⟨hget2, hid2⟩ := (Store.mem_ofConfiguration_iff hk.keyed hk.once).mp h2
    exact ⟨configurationId, p, hp, .refl _, .refl _, hget1, hget2, hid1, hid2⟩
  refine ⟨?_, ?_, ?_⟩
  · intro x y x' y' hxy hxy'
    obtain ⟨i, p, hp, hx, hy, hp1, hp2, hi1, hi2⟩ := hpair x y hxy
    obtain ⟨j, q, hq, hx', hy', hq1, hq2, hj1, hj2⟩ := hpair x' y' hxy'
    constructor
    · rintro rfl
      have heq : p.1 = q.1 := Option.some.inj (hp1.symm.trans hq1)
      have hij : i = j := hi1.symm.trans ((congrArg _ heq).trans hj1)
      subst hij
      have hpq := eq_of_mem_zip (Store.nodup_ofConfiguration hg.keyed hg.once i) hp hq heq
      rw [← hy, ← hy', hpq]
    · rintro rfl
      have heq : p.2 = q.2 := Option.some.inj (hp2.symm.trans hq2)
      have hij : i = j := hi2.symm.trans ((congrArg _ heq).trans hj2)
      subst hij
      have hswap : ∀ e ∈ List.zip (g.store.ofConfiguration i) (k.store.ofConfiguration i),
          e.swap ∈ List.zip (k.store.ofConfiguration i) (g.store.ofConfiguration i) := by
        intro e he
        rw [← List.zip_swap]
        exact List.mem_map_of_mem he
      have hpq := eq_of_mem_zip (Store.nodup_ofConfiguration hk.keyed hk.once i)
        (hswap p hp) (hswap q hq) heq
      rw [← hx, ← hx', Prod.swap_inj.mp hpq]
  · intro x a ha
    have hga := hg.kept x a ha
    have hid : a.id = x := hg.keyed.of_get? hga
    subst hid
    obtain ⟨ps, xs, ys, hr⟩ := h a.configurationId
    have hmem : a ∈ g.store.ofConfiguration a.configurationId :=
      (Store.mem_ofConfiguration_iff hg.keyed hg.once).mpr ⟨hga, rfl⟩
    have hps : a ∈ ps.map (·.1) := hr.left ▸ hmem
    obtain ⟨p, hp, rfl⟩ := List.mem_map.mp hps
    refine ⟨?_, hga, hk.kept _ _ ha⟩
    rcases hr.pairs p hp with ⟨b, -, rfl⟩ | ⟨hno, -, -⟩
    · exact faces_of_beside hr (beside_of_mem hp)
    · exact nomatch hno.symm.trans ha
  · intro x y hxy hx
    obtain ⟨configurationId, p, hp, rfl, rfl, h1, h2, -, -⟩ := hpair x y hxy
    obtain ⟨ps, xs, ys, hr⟩ := h configurationId
    rw [← List.zip_of_prod hr.left.symm hr.right.symm] at hp
    rcases hr.pairs p hp with ⟨b, hb, rfl⟩ | ⟨-, hno, htwin⟩
    · exact nomatch hx.symm.trans hb
    · exact ⟨hno, p.1, p.2, h1, h2, htwin.mono fun _ _ => faces_of_beside hr⟩

end Registry

/-! ## Batches -/

namespace Registry

variable {g : Registry} {old : Store} {n : Nat} {c : Configuration}

/-- One rule needs room for one alert, and is nothing to other configurations. -/
theorem After.step (hg : g.After old (n + 1)) (c : Configuration) (s : Snapshot) (xs : List String)
    (r : Rule) :
    (Assignment.step c s (xs, g) r).2.After old n ∧ ∀ configurationId, c.id ≠ configurationId →
      (Assignment.step c s (xs, g) r).2.store.ofConfiguration configurationId
        = g.store.ofConfiguration configurationId := by
  have hsame := hg.mono (Nat.le_succ n)
  rw [step_eq]
  cases r.results s with
  | error f => exact ⟨hsame, fun _ _ => rfl⟩
  | ok results =>
      dsimp only
      split
      · exact ⟨hg.answer c s r results, fun _ h => hg.ofConfiguration_answer h s r results⟩
      · exact ⟨hsame, fun _ _ => rfl⟩

/-- The induction is on the rules. -/
theorem After.foldl {rs : List Rule} (hg : g.After old (rs.length + n)) (c : Configuration)
    (s : Snapshot) (xs : List String) :
    (rs.foldl (Assignment.step c s) (xs, g)).2.After old n ∧
      ∀ configurationId, c.id ≠ configurationId →
        (rs.foldl (Assignment.step c s) (xs, g)).2.store.ofConfiguration configurationId
          = g.store.ofConfiguration configurationId := by
  induction rs generalizing g xs with
  | nil =>
      rw [List.length_nil, Nat.zero_add] at hg
      exact ⟨hg, fun _ _ => rfl⟩
  | cons r rs ih =>
      have hlength : (r :: rs).length + n = (rs.length + n) + 1 := by
        rw [List.length_cons]
        omega
      rw [hlength] at hg
      obtain ⟨hstep, hview⟩ := hg.step c s xs r
      obtain ⟨hrest, hviews⟩ := ih hstep (Assignment.step c s (xs, g) r).1
      exact ⟨hrest, fun i hi => (hviews i hi).trans (hview i hi)⟩

/-- What is there when each of some evaluations that follow each other begins. -/
def arrivals (s : Snapshot) : List Assignment → Registry → List (Assignment × Registry)
  | [], _ => []
  | a :: rest, g => (a, g) :: arrivals s rest (a.run s g).2

theorem map_fst_arrivals (s : Snapshot) (bs : List Assignment) (g : Registry) :
    (arrivals s bs g).map (·.1) = bs := by
  induction bs generalizing g with
  | nil => rfl
  | cons b bs ih => exact congrArg (b :: ·) (ih _)

theorem fst_runAll (s : Snapshot) (bs : List Assignment) (g : Registry) :
    (runAll s bs g).1 = (arrivals s bs g).flatMap fun e => (e.1.run s e.2).1 := by
  induction bs generalizing g with
  | nil => rfl
  | cons b bs ih =>
      unfold runAll arrivals
      rw [List.flatMap_cons, ← ih]

/-- **One configuration after the other.** Each finds its own alerts as they were in the beginning,
and leaves them as they will be in the end. -/
theorem After.runAll {bs : List Assignment} (s : Snapshot)
    (hg : g.After old ((bs.map (·.rules.length)).sum + n))
    (hids : (bs.map (·.configuration.id)).Nodup) :
    (Registry.runAll s bs g).2.After old n ∧
    (∀ configurationId, configurationId ∉ bs.map (·.configuration.id) →
      (Registry.runAll s bs g).2.store.ofConfiguration configurationId
        = g.store.ofConfiguration configurationId) ∧
    ∀ e ∈ arrivals s bs g, e.2.After old e.1.rules.length ∧
      e.2.store.ofConfiguration e.1.configuration.id
        = g.store.ofConfiguration e.1.configuration.id ∧
      (Registry.runAll s bs g).2.store.ofConfiguration e.1.configuration.id
        = (e.1.run s e.2).2.store.ofConfiguration e.1.configuration.id := by
  induction bs generalizing g with
  | nil =>
      rw [List.map_nil, List.sum_nil, Nat.zero_add] at hg
      exact ⟨hg, fun _ _ => rfl, fun _ he => absurd he List.not_mem_nil⟩
  | cons b bs ih =>
      rw [List.map_cons, List.sum_cons, Nat.add_assoc] at hg
      rw [List.map_cons, List.nodup_cons] at hids
      obtain ⟨hrun, hother⟩ := hg.foldl b.configuration s []
      obtain ⟨hend, hviews, harrive⟩ := ih (g := (b.run s g).2) hrun hids.2
      refine ⟨hend, ?_, ?_⟩
      · intro i hi
        rw [List.map_cons, List.mem_cons, not_or] at hi
        exact (hviews i hi.2).trans (hother i fun h => hi.1 h.symm)
      · intro e he
        rcases List.mem_cons.mp he with rfl | he
        · exact ⟨hg.mono (Nat.le_add_right _ _), rfl, hviews _ hids.1⟩
        · obtain ⟨hroom, hbefore, hafter⟩ := harrive e he
          refine ⟨hroom, hbefore.trans (hother _ ?_), hafter⟩
          -- configurations of a batch are different ones
          rintro hsame
          have hmem : e.1.configuration.id ∈ bs.map (·.configuration.id) := by
            have hbs : e.1 ∈ bs := by
              rw [← map_fst_arrivals s bs (b.run s g).2]
              exact List.mem_map_of_mem he
            exact List.mem_map_of_mem hbs
          exact hids.1 (hsame ▸ hmem)

end Registry

end BuildingAlerts
