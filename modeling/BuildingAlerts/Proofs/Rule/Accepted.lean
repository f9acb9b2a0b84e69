/-
Rules of accepted configurations.

Validation keeps out windows that are empty and cooldowns below zero, so the windows of an accepted
configuration begin before the snapshot, and all that is left to ask is whether the calendar goes
back to their beginnings. The stores that evaluation can meet are those of `Registry.Reached`, which
begin empty; that all their alerts are dated is the invariant that the search for duplicates needs.
-/
import BuildingAlerts.Proofs.Rule.Reach
import BuildingAlerts.Rule.Change
import BuildingAlerts.Rule.Pass

set_option autoImplicit false

namespace BuildingAlerts

variable {s : Snapshot}

/-! ## What validation rules out -/

namespace Validation

theorem eq_false_of_when_eq_nil {b : Bool} {i : Issue} (h : when b i = []) : b = false := by
  cases b with
  | false => rfl
  | true => cases h

/-- A rule without errors has a window, and no cooldown below zero. -/
theorem window_pos_of_ruleErrors {i : Nat} {r : Rule} (h : ruleErrors i r = []) :
    0 < r.window ∧ 0 ≤ r.cooldown := by
  unfold ruleErrors at h
  obtain ⟨h, -⟩ := List.append_eq_nil_iff.mp h
  obtain ⟨h, hcooldown⟩ := List.append_eq_nil_iff.mp h
  obtain ⟨-, hwindow⟩ := List.append_eq_nil_iff.mp h
  have hwindow := of_decide_eq_false (eq_false_of_when_eq_nil hwindow)
  have hcooldown := of_decide_eq_false (eq_false_of_when_eq_nil hcooldown)
  exact ⟨Int.not_le.mp hwindow, Int.not_lt.mp hcooldown⟩

/-- A check that ends gives the errors of the configuration. -/
theorem errors_of_of {c : Configuration} {v : Validation} (h : Validation.of c = .ok v) :
    v.errors = errorsOf c := by
  obtain ⟨volume, -, h⟩ := bind_eq_ok_iff.mp h
  obtain ⟨cost, -, h⟩ := bind_eq_ok_iff.mp h
  obtain ⟨amount, -, h⟩ := bind_eq_ok_iff.mp h
  cases h
  rfl

end Validation

namespace Configuration

variable {c : Configuration} {v : Validation}

theorem accept_eq_ok_iff : c.accept = .ok v ↔ Validation.of c = .ok v ∧ v.isValid = true := by
  unfold accept
  constructor
  · intro h
    split at h
    · cases h
    · rename_i w hw
      split at h
      · rename_i hvalid
        cases h
        exact ⟨hw, hvalid⟩
      · cases h
  · rintro ⟨hof, hvalid⟩
    rw [hof]
    exact if_pos hvalid

/-- Nothing is wrong with a configuration that was accepted. -/
theorem errorsOf_of_accept (h : c.accept = .ok v) : Validation.errorsOf c = [] := by
  obtain ⟨hof, hvalid⟩ := accept_eq_ok_iff.mp h
  rw [← Validation.errors_of_of hof]
  exact List.isEmpty_iff.mp hvalid

/-- The rules of a configuration that was accepted. -/
theorem window_pos_of_accept (h : c.accept = .ok v) :
    ∀ r ∈ c.rules, 0 < r.window ∧ 0 ≤ r.cooldown := by
  obtain ⟨-, hrules⟩ := List.append_eq_nil_iff.mp (errorsOf_of_accept h)
  intro r hr
  obtain ⟨i, hi, rfl⟩ := List.mem_iff_getElem.mp hr
  refine Validation.window_pos_of_ruleErrors (i := i) ?_
  refine List.flatten_eq_nil_iff.mp hrules _ ?_
  exact List.mem_mapIdx.mpr ⟨i, hi, rfl⟩

end Configuration

/-! ## Passes -/

namespace Registry

/-- What becomes of an empty store: rules are evaluated at snapshots with an offset, whatever comes
of it, and alerts go on without being triggered anew. -/
inductive Reached : Registry → Prop where
  | fresh (ids : IdSource) : Reached ⟨.empty, ids⟩
  | step {g : Registry} (hg : Reached g) {s : Snapshot} (hs : s.now.offset.isSome = true)
      (c : Configuration) (r : Rule) (found : List String) :
      Reached (Assignment.step c s (found, g) r).2
  | adjust {g : Registry} (hg : Reached g) (ref : AlertRef) {f : Alert → Alert}
      (hf : ∀ a, (f a).Follows a) : Reached { g with store := g.store.adjustAt ref f }

theorem Reached.isDated {g : Registry} (h : g.Reached) : g.store.IsDated := by
  induction h with
  | fresh ids => exact Store.isDated_empty
  | step hg hs c r found ih =>
      rename_i g s
      unfold Assignment.step
      dsimp only
      cases he : (r.evaluate c s g.store).on g.ids with
      | mk result ids =>
          dsimp only
          match result with
          | .ok (some id, store) => exact Rule.isDated_evaluate he hs ih
          | .ok (none, store) => exact Rule.isDated_evaluate he hs ih
          | .error f => exact ih
  | adjust hg ref hf ih => exact ih.adjustAt hf

/-- A pass stays among these stores. The induction is on the configurations and, within one, on
its rules. -/
theorem Reached.runAll {g : Registry} (h : g.Reached) (hs : s.now.offset.isSome = true)
    (batch : List Assignment) : (Registry.runAll s batch g).2.Reached := by
  have hrun : ∀ (c : Configuration) (rs : List Rule) (found : List String) (k : Registry),
      k.Reached → (rs.foldl (Assignment.step c s) (found, k)).2.Reached := by
    intro c rs
    induction rs with
    | nil => exact fun _ _ hk => hk
    | cons r rs ih => exact fun found k hk => ih _ _ (hk.step hs c r found)
  induction batch generalizing g with
  | nil => exact h
  | cons a batch ih => exact ih (hrun a.configuration a.rules [] g h)

/-- **Rules of accepted configurations are evaluated.** A rule of a configuration that was loaded
and accepted is evaluated to the end on every snapshot that it reaches, so a pass does not leave
it out. -/
theorem Reached.evaluates {g : Registry} (hg : g.Reached) {now : Moment} {v w : Json}
    {ids ids' : IdSource} {c : Configuration} {k : Validation} {r : Rule}
    (hload : Configuration.load now v ids = (.ok c, ids')) (haccept : c.accept = .ok k)
    (hsnapshot : Snapshot.schema.check w = .ok s) (hr : r ∈ c.rules) (hreach : r.Reaches s) :
    ∃ found store rest, (r.evaluate c s g.store).on g.ids = (.ok (found, store), rest) ∧
      ∀ earlier, Assignment.step c s (earlier, g) r = (earlier ++ found.toList, ⟨store, rest⟩) := by
  have hnow : s.now.IsDated := Snapshot.yields_schema.of_check hsnapshot
  obtain ⟨hwindow, hcooldown⟩ := Configuration.window_pos_of_accept haccept r hr
  have hends : ∃ found store rest,
      (r.evaluate c s g.store).on g.ids = (.ok (found, store), rest) :=
    hreach.exists_evaluate (Configuration.isReal_of_load hload r hr) hnow (Int.le_of_lt hwindow)
      hcooldown hg.isDated
  obtain ⟨found, store, rest, he⟩ := hends
  refine ⟨found, store, rest, he, fun earlier => ?_⟩
  unfold Assignment.step
  rw [he]
  cases found with
  | none => exact congrArg (·, _) (List.append_nil earlier).symm
  | some id => rfl

end Registry

/-! ## A ward -/

section Decidable

instance decidableExistsOk {ε α : Type} {x : Except ε α} {P : α → Prop} [DecidablePred P] :
    Decidable (∃ a, x = .ok a ∧ P a) :=
  match x with
  | .ok a => decidable_of_iff (P a) ⟨fun h => ⟨a, rfl, h⟩, fun ⟨_, h, hp⟩ => by cases h; exact hp⟩
  | .error _ => isFalse fun ⟨_, h, _⟩ => by cases h

instance (micros : Int) : Decidable (s.Covers micros) :=
  inferInstanceAs (Decidable (_ = true))

instance : DecidablePred FieldValue.IsBounded
  | .plain (.number (.whole n)) => inferInstanceAs (Decidable ((Decimal.ofInt? n).isSome = true))
  | .plain (.number (.real _)) | .plain .null | .plain (.bool _) | .plain (.text _)
  | .plain (.list _) | .plain (.object _) | .moment _ => .isTrue trivial

instance (f : ReadingFilter) : Decidable f.Weighs :=
  inferInstanceAs (Decidable (_ ∨ _))

instance (f : ReadingFilter) (r : Reading) : Decidable (f.IsBounded r) :=
  inferInstanceAs (Decidable (_ → _))

instance : (t : Threshold) → Decidable (t.Reaches s)
  | .percentChange _ _ => inferInstanceAs (Decidable (∃ span, _ = Except.ok span ∧ _))
  | .scalar _ | .range _ _ => .isTrue trivial

instance (c : Condition) : Decidable (c.Reaches s) :=
  decidable_of_iff (s.Covers (c.aggregation.period * Span.microsPerMinute) ∧
      c.threshold.Reaches s ∧
      ∀ f ∈ c.filters, ∀ r ∈ s.readings, c.metric.selects r = true → f.IsBounded r)
    ⟨fun ⟨h, h', h''⟩ => ⟨h, h', h''⟩, fun h => ⟨h.window, h.baseline, h.filters⟩⟩

instance (o : Occupancy) : Decidable o.IsBounded :=
  inferInstanceAs (Decidable (_ → _))

instance (r : Rule) : Decidable (r.Reaches s) :=
  decidable_of_iff (r.window * Span.microsPerMinute ≤ s.now.wall ∧
      (r.suppressDuplicates = true → r.cooldown * Span.microsPerMinute ≤ s.now.wall) ∧
      (∀ c ∈ r.conditions, c.Reaches s) ∧ ∀ o ∈ s.occupancy, o.IsBounded)
    ⟨fun ⟨h, h', h'', h'''⟩ => ⟨h, h', h'', h'''⟩,
      fun h => ⟨h.window, h.cooldown, h.conditions, h.occupancy⟩⟩

end Decidable

namespace Sample

/-- A ward that is too warm above twenty degrees, in readings that count, and has grown much
warmer than it was. -/
def ward (cooldown : Int) : Json :=
  .object [("name", .text "Ward"), ("rules", .list [.object [("name", .text "Warm"),
    ("cooldown_period", .whole cooldown),
    ("conditions", .list [
      .object [("metric", .object [("type", .text "temperature")]),
        ("operator", .text "greater_than"), ("threshold", .object [("value", .whole 20)]),
        ("filters", .list [.object [("field", .text "value"), ("operator", .text "less_than"),
          ("value", .whole 60)]])],
      .object [("metric", .object [("type", .text "temperature")]),
        ("operator", .text "percentage_change"), ("threshold", .object [("value", .whole 10),
          ("baseline_period", .text "2w")])]])]])]

/-- A reading of a temperature. -/
def degrees (seconds value : Int) : Json :=
  .object [("sensor_id", .text "ward-1"), ("timestamp", .whole seconds), ("value", .whole value),
    ("metric_type", .text "temperature")]

/-- The ward has got warmer within a day. -/
def warmer : Json :=
  .object [("current_time", .whole 1717596000), ("sensor_readings", .list [degrees 1717595940 27]),
    ("historical_data", .list [degrees 1717509600 21]),
    ("occupancy", .object [("current", .whole 9), ("capacity", .whole 10)])]

end Sample

set_option maxRecDepth 100000 in
/-- The rule of the ward reaches what it needs. -/
theorem Registry.evaluates_ward : ∃ c k s r ids,
    Configuration.load (.atUtc 0) (Sample.ward 30) .fresh = (.ok c, ids) ∧ c.accept = .ok k ∧
      Snapshot.schema.check Sample.warmer = .ok s ∧ r ∈ c.rules ∧ r.Reaches s ∧
      ∃ found store rest, (r.evaluate c s .empty).on ids = (.ok (found, store), rest) := by
  have hreaches : ∃ c, (Configuration.load (.atUtc 0) (Sample.ward 30) .fresh).1 = .ok c ∧
      (∃ k, c.accept = .ok k ∧ True) ∧ ∃ s, Snapshot.schema.check Sample.warmer = .ok s ∧
        ∃ r ∈ c.rules, r.Reaches s := by
    decide +kernel
  obtain ⟨c, hload, ⟨k, hk, -⟩, s, hs, r, hr, hreach⟩ := hreaches
  have hload : Configuration.load (.atUtc 0) (Sample.ward 30) .fresh = (.ok c, _) :=
    Prod.ext hload rfl
  obtain ⟨found, store, rest, he, -⟩ := (Reached.fresh _).evaluates hload hk hs hr hreach
  exact ⟨c, k, s, r, _, hload, hk, hs, hr, hreach, found, store, rest, he⟩

set_option maxRecDepth 100000 in
/-- A cooldown that goes back beyond the calendar is accepted, and the rule fails. -/
theorem Registry.evaluation_fails_beyond_calendar : ∃ now v ids c ids' k w s,
    Configuration.load now v ids = (.ok c, ids') ∧ c.accept = .ok k ∧
      Snapshot.schema.check w = .ok s ∧ ∃ r ∈ c.rules, ∃ f rest,
        (r.evaluate c s .empty).on ids' = (.error f, rest) ∧
        Assignment.step c s ([], ⟨.empty, ids'⟩) r = ([], ⟨.empty, rest⟩) := by
  have hfails : ∃ c, (Configuration.load (.atUtc 0) (Sample.ward (10 ^ 12)) .fresh).1 = .ok c ∧
      (∃ k, c.accept = .ok k ∧ True) ∧ ∃ s, Snapshot.schema.check Sample.warmer = .ok s ∧
        ∃ r ∈ c.rules, ((r.evaluate c s .empty).on
          (Configuration.load (.atUtc 0) (Sample.ward (10 ^ 12)) .fresh).2).1.isOk = false := by
    decide +kernel
  obtain ⟨c, hload, ⟨k, hk, -⟩, s, hs, r, hr, hfails⟩ := hfails
  refine ⟨_, _, _, c, _, k, _, s, Prod.ext hload rfl, hk, hs, r, hr, ?_⟩
  cases he : (r.evaluate c s .empty).on
      (Configuration.load (.atUtc 0) (Sample.ward (10 ^ 12)) .fresh).2 with
  | mk result rest =>
      rw [he] at hfails
      cases result with
      | ok a => cases hfails
      | error f =>
          refine ⟨f, rest, rfl, ?_⟩
          unfold Assignment.step
          rw [he]

end BuildingAlerts
