/-
Changes of configurations.

Configurations stand in the room under their identifiers, each of them once, and nothing is wrong
with any. What is rejected leaves the office as it was, whatever it was rejected for. A change that
is not rejected exchanges one configuration in its place: the new one differs from the old in the
fields that the change names and in its stamp, and passed the check.
-/
import BuildingAlerts.Proofs.ControlRoom.Directory
import BuildingAlerts.Proofs.Rule.Accepted

set_option autoImplicit false

namespace BuildingAlerts

open Agenda

/-! ## Tables with an entry exchanged -/

namespace Table

variable {α : Type} {t : Table α} {name : String} {value : α}

/-- A write to a name that is there once exchanges its entry in its place. -/
theorem exists_entries_insert (ht : t.keys.Nodup) (h : t.get? name = some value) :
    ∃ before after, t.entries = before ++ (name, value) :: after ∧
      (∀ e ∈ before ++ after, e.1 ≠ name) ∧
      ∀ x, (t.insert name x).entries = before ++ (name, x) :: after := by
  obtain ⟨before, after, hentries, hbefore⟩ := List.lookup_eq_some_iff.mp h
  have hfirst : ∀ e ∈ before, e.1 ≠ name := fun e he heq => by
    have := hbefore e he
    rw [heq] at this
    simp at this
  refine ⟨before, after, hentries, fun e he heq => ?_, fun x => ?_⟩
  · rcases List.mem_append.mp he with he | he
    · exact hfirst e he heq
    · unfold keys at ht
      rw [hentries, List.map_append, List.map_cons] at ht
      exact (List.nodup_cons.mp (List.nodup_append.mp ht).2.1).1 (List.mem_map.mpr ⟨e, he, heq⟩)
  · unfold insert
    rw [hentries]
    clear hentries hbefore
    induction before with
    | nil => exact if_pos (beq_self_eq_true name)
    | cons e before ih =>
        have hne : ¬ (e.1 == name) = true := fun h => hfirst e List.mem_cons_self (eq_of_beq h)
        show setEntry name x (e :: (before ++ (name, value) :: after)) = _
        rw [setEntry, if_neg hne]
        exact congrArg (e :: ·) (ih fun d hd => hfirst d (List.mem_cons_of_mem e hd))

@[simp] theorem keys_adjust (t : Table α) (name : String) (f : α → α) :
    (t.adjust name f).keys = t.keys := by
  unfold keys adjust
  rw [List.map_map]
  refine List.map_congr_left fun e _ => ?_
  dsimp only [Function.comp_apply]
  split <;> rfl

end Table

/-- What a change makes of a configuration: the fields that it names have the new values, the stamp
is that of the moment, and everything else is as it was. -/
structure Change.Makes (ch : Change) (now : Moment) (old new : Configuration) : Prop where
  id : new.id = old.id
  name : new.name = ch.name.getD old.name
  rules : new.rules = ch.rules.getD old.rules
  routing : new.routing = ch.routing.getD old.routing
  policy : new.policy = ch.policy.getD old.policy
  metadata : new.metadata = ch.metadata.getD old.metadata
  status : new.status = old.status
  description : new.description = ch.description.getD old.description
  userId : new.userId = old.userId
  organizationId : new.organizationId = old.organizationId
  createdAt : new.createdAt = old.createdAt
  updatedAt : new.updatedAt = now

theorem Change.makes_apply (ch : Change) (old : Configuration) (now : Moment) :
    ch.Makes now old (ch.apply old now) :=
  ⟨rfl, rfl, rfl, rfl, rfl, rfl, rfl, rfl, rfl, rfl, rfl, rfl⟩

/-! ## What the check cannot see -/

namespace ControlRoom

/-- Turning a rule on or off makes no difference to what does not look whether rules are on. -/
theorem mapIdx_enableFirst {β : Type} (id : String) (on : Bool) (rs : List Rule) {f : Nat → Rule → β}
    (hf : ∀ i r, f i { r with enabled := on } = f i r) :
    (enableFirst id on rs).mapIdx f = rs.mapIdx f := by
  induction rs generalizing f with
  | nil => rfl
  | cons r rs ih =>
      unfold enableFirst
      split
      · rw [List.mapIdx_cons, List.mapIdx_cons, hf]
      · rw [List.mapIdx_cons, List.mapIdx_cons, ih fun i s => hf (i + 1) s]

theorem errorsOf_enableFirst (k : Configuration) (ruleId : String) (on : Bool) :
    Validation.errorsOf { k with rules := enableFirst ruleId on k.rules } = Validation.errorsOf k := by
  have hempty : (enableFirst ruleId on k.rules).isEmpty = k.rules.isEmpty := by
    cases k.rules with
    | nil => rfl
    | cons r rs =>
        unfold enableFirst
        split <;> rfl
  unfold Validation.errorsOf
  rw [hempty, mapIdx_enableFirst ruleId on k.rules fun i r => rfl]

end ControlRoom

/-! ## What becomes of the configurations -/

/-- The configurations after a request: as they were, or with an accepted one put in place, or with
one changed in a way that its check cannot see. -/
inductive Refiled (t : Table Configuration) : Table Configuration → Prop where
  | same : Refiled t t
  | put {k : Configuration} {v : Validation} (hk : k.accept = .ok v) : Refiled t (t.insert k.id k)
  | touched (id : String) {f : Configuration → Configuration} (hid : ∀ k, (f k).id = k.id)
      (herrors : ∀ k, Validation.errorsOf (f k) = Validation.errorsOf k) : Refiled t (t.adjust id f)

/-- Configurations that stand under their identifiers, each of them once, and have no errors. -/
structure WellKept (t : Table Configuration) : Prop where
  keyed : t.KeyedBy (·.id)
  once : t.keys.Nodup
  faultless : ∀ k ∈ t.values, Validation.errorsOf k = []

theorem WellKept.refiled {t t' : Table Configuration} (ht : WellKept t) (h : Refiled t t') :
    WellKept t' := by
  cases h with
  | same => exact ht
  | put hk =>
      refine ⟨ht.keyed.insert rfl, Table.nodup_keys_insert ht.once _ _, fun x hx => ?_⟩
      rcases Table.mem_values_insert hx with rfl | hx
      · exact Configuration.errorsOf_of_accept hk
      · exact ht.faultless x hx
  | touched id hid herrors =>
      refine ⟨ht.keyed.adjust fun k hk => (hid k).trans hk, ?_, fun x hx => ?_⟩
      · rw [Table.keys_adjust]
        exact ht.once
      · obtain ⟨k, hk, rfl | rfl⟩ := Table.mem_values_adjust hx
        · exact ht.faultless _ hk
        · exact (herrors k).trans (ht.faultless k hk)

namespace ControlRoom

variable {c : ControlRoom}

theorem refiled_addConfiguration (c : ControlRoom) (k : Configuration) :
    Refiled c.configurations (c.addConfiguration k).2.configurations := by
  unfold addConfiguration
  split
  · exact .same
  · rename_i v hv
    exact .put hv

theorem refiled_addFromTemplate (c : ControlRoom) (now : Moment) (key : String) (u : TemplateUse) :
    Refiled c.configurations (c.addFromTemplate now key u).2.configurations := by
  unfold addFromTemplate
  split
  · exact .same
  · rename_i t _
    have hdraft : (c.drafting (t.configuration u now)).2.configurations = c.configurations := rfl
    split
    · rename_i f d hd
      rw [hd] at hdraft
      exact hdraft ▸ .same
    · rename_i k d hd
      rw [hd] at hdraft
      have hadd := refiled_addConfiguration d k
      rw [hdraft] at hadd
      split
      · rename_i e d' hd'
        rw [hd'] at hadd
        exact hadd
      · rename_i v d' hd'
        rw [hd'] at hadd
        exact hadd

/-! ## Changes that are made -/

theorem addConfiguration_state {k : Configuration} {e : Rejection}
    (h : (c.addConfiguration k).1 = .error e) : (c.addConfiguration k).2 = c := by
  unfold addConfiguration at h ⊢
  split at h
  · rfl
  · exact nomatch h

/-- A change is rejected if it is for no configuration, names fields that cannot be changed or has a
result that the check does not pass, and is made otherwise. -/
theorem updateConfiguration_eq_ok_iff {now : Moment} {id : String} {ch : Change}
    {k : Configuration} : (c.updateConfiguration now id ch).1 = .ok k ↔
      ∃ old v, c.configurations.get? id = some old ∧ ch.others = [] ∧ k = ch.apply old now ∧
        k.accept = .ok v := by
  unfold updateConfiguration
  constructor
  · intro h
    split at h
    · exact nomatch h
    · rename_i old hold
      split at h
      · exact nomatch h
      · rename_i hothers
        rw [Bool.not_eq_true', Bool.not_eq_false, List.isEmpty_iff] at hothers
        dsimp only at h
        split at h
        · exact nomatch h
        · rename_i v hv
          obtain rfl := Except.ok.inj h
          exact ⟨old, v, hold, hothers, rfl, hv⟩
  · rintro ⟨old, v, hold, hothers, rfl, hv⟩
    rw [hold, hothers]
    show (if (!true) = true then _ else _ : Except Rejection Configuration × ControlRoom).1 = _
    rw [if_neg (by decide)]
    dsimp only
    rw [hv]

theorem updateConfiguration_eq_error_iff {now : Moment} {id : String} {ch : Change}
    {e : Rejection} : (c.updateConfiguration now id ch).1 = .error e ↔
      (c.configurations.get? id = none ∧ e = .unknown id) ∨
      ∃ old, c.configurations.get? id = some old ∧
        ((ch.others ≠ [] ∧ e = .fields ch.others) ∨
          (ch.others = [] ∧ (ch.apply old now).accept = .error e)) := by
  unfold updateConfiguration
  cases hold : c.configurations.get? id with
  | none => simp [eq_comm]
  | some old =>
      cases hothers : ch.others with
      | cons f fs => simp [eq_comm]
      | nil =>
          cases hv : (ch.apply old now).accept with
          | error f => simp [hv]
          | ok v => simp [hv]

/-- What a change leaves when it is rejected, and when it is made. -/
theorem updateConfiguration_state (c : ControlRoom) (now : Moment) (id : String) (ch : Change) :
    (∀ e, (c.updateConfiguration now id ch).1 = .error e → (c.updateConfiguration now id ch).2 = c) ∧
      ∀ k, (c.updateConfiguration now id ch).1 = .ok k → (c.updateConfiguration now id ch).2
        = { c with configurations := c.configurations.insert id k }.index k.routing := by
  unfold updateConfiguration
  split
  · exact ⟨fun _ _ => rfl, fun _ h => nomatch h⟩
  · split
    · exact ⟨fun _ _ => rfl, fun _ h => nomatch h⟩
    · dsimp only
      split
      · exact ⟨fun _ _ => rfl, fun _ h => nomatch h⟩
      · exact ⟨fun _ h => (nomatch h), fun k h => by rw [Except.ok.inj h]⟩

theorem refiled_updateConfiguration (hc : c.configurations.KeyedBy (·.id)) (now : Moment)
    (id : String) (ch : Change) :
    Refiled c.configurations (c.updateConfiguration now id ch).2.configurations := by
  obtain ⟨hrejected, hmade⟩ := c.updateConfiguration_state now id ch
  cases h : (c.updateConfiguration now id ch).1 with
  | error e => exact (hrejected e h).symm ▸ .same
  | ok k =>
      obtain ⟨old, v, hold, -, hk, hv⟩ := updateConfiguration_eq_ok_iff.mp h
      have hid : k.id = id :=
        calc k.id = (ch.apply old now).id := congrArg Configuration.id hk
          _ = old.id := rfl
          _ = id := hc.of_get? hold
      rw [hmade k h]
      exact hid ▸ .put hv

end ControlRoom

namespace Office

variable {p : Premises} {h : Past} {o : Office}

theorem configurations_settleAlert (o : Office) (id : String) (f : Alert → Option Alert) :
    (o.settleAlert id f).2.state.configurations = o.state.configurations := by
  unfold settleAlert
  split
  · rfl
  · rename_i a _
    have hstate := (rebooked_cancelAlert (o.adjust (·.adjustAlert (o.ref id) fun _ => a)) id).state
    dsimp only
    rw [hstate]
    rfl

/-- **Whatever is asked for** puts accepted configurations in place, or changes nothing that the
check can see. -/
theorem refiled_serve (hn : Agenda.Numbered o) (hkeyed : o.state.configurations.KeyedBy (·.id))
    (q : Request) : Refiled o.state.configurations (serve o q).state.configurations := by
  have hsame : ∀ {b : Office}, b.state = o.state →
      Refiled o.state.configurations b.state.configurations := fun hb => hb ▸ .same
  cases q with
  | addConfiguration k => exact ControlRoom.refiled_addConfiguration _ k
  | addFromTemplate key u => exact ControlRoom.refiled_addFromTemplate _ _ key u
  | updateConfiguration id ch => exact ControlRoom.refiled_updateConfiguration hkeyed _ id ch
  | setStatus id s =>
      exact .touched (f := fun k => { k with status := s, updatedAt := o.clock }) id (fun _ => rfl)
        fun _ => rfl
  | setRuleEnabled id ruleId on =>
      show Refiled _ (o.state.setRuleEnabled o.clock id ruleId on).configurations
      unfold ControlRoom.setRuleEnabled
      split
      · exact .same
      · exact .touched (f := fun k => { k with
            rules := ControlRoom.enableFirst ruleId on k.rules, updatedAt := o.clock }) id
          (fun _ => rfl) fun k => ControlRoom.errorsOf_enableFirst k ruleId on
  | openLine channel carrier => exact .same
  | pass s => exact .same
  | retry entries most => exact .same
  | escalate id p level => exact .same
  | acknowledge id who => exact (configurations_settleAlert o id _).symm ▸ .same
  | resolve id who notes => exact (configurations_settleAlert o id _).symm ▸ .same
  | markFalsePositive id who => exact (configurations_settleAlert o id _).symm ▸ .same
  | bookRetries entries => exact hsame (rebooked_bookAll _ hn).state
  | bookEscalation id p =>
      show Refiled _ (o.bookEscalation id p).2.state.configurations
      unfold bookEscalation
      split
      · exact .same
      · exact hsame (rebooked_bookAll _ hn).state
  | shutdown => exact hsame (rebooked_cancelBookings o).state

/-- **In every room of a run** the configurations stand under their identifiers, each of them once,
and nothing is wrong with any. -/
theorem Premises.Run.wellKept (hr : p.Run h o) : WellKept o.state.configurations := by
  induction hr with
  | idle => exact ⟨fun _ he => absurd he List.not_mem_nil, List.nodup_nil,
      fun _ hk => absurd hk List.not_mem_nil⟩
  | @step h o b place hr hb ih =>
      have hstate := state_of_stepAt (Premises.Run.keeps hr).numbered hb
      cases hs : o.stintAt? place with
      | none =>
          rw [hs] at hstate
          rw [show b.state = o.state from hstate]
          exact ih
      | some n =>
          rw [hs] at hstate
          obtain ⟨-, -, _, -, hof⟩ := stintAt?_eq_some hs
          rw [show b.state = (n.turn ControlRoom.program).state from hstate]
          unfold Stint.turn
          rw [(ControlRoom.settings_program n.now n.state n.body n.wake).1, hof.state]
          exact ih
  | pass _ _ _ ih =>
      rw [state_passTo]
      exact ih
  | serve hr hb ih =>
      obtain ⟨q, rfl⟩ := hb
      exact ih.refiled (refiled_serve (Premises.Run.keeps hr).numbered ih.keyed q)

/-- **What a rejection and a change do to the configurations.** Whatever is rejected leaves the whole
office as it was. A change is rejected exactly if it is for no configuration, names fields that
cannot be changed, or has a result that the check does not pass. Otherwise it exchanges the only
configuration of its identifier in its place for one that differs in the fields that it names and in
the stamp, that passes the check, and whose recipients become known; nothing else changes. -/
theorem Premises.Run.exchanges (hr : p.Run h o) :
    (∀ k e, (o.state.addConfiguration k).1 = .error e → serve o (.addConfiguration k) = o) ∧
    ∀ id ch,
      (∀ e, (o.state.updateConfiguration o.clock id ch).1 = .error e →
        serve o (.updateConfiguration id ch) = o) ∧
      (∀ e, (o.state.updateConfiguration o.clock id ch).1 = .error e ↔
        (o.state.configurations.get? id = none ∧ e = .unknown id) ∨
        ∃ old, o.state.configurations.get? id = some old ∧
          ((ch.others ≠ [] ∧ e = .fields ch.others) ∨
            (ch.others = [] ∧ (ch.apply old o.clock).accept = .error e))) ∧
      ∀ k, (o.state.updateConfiguration o.clock id ch).1 = .ok k →
        ∃ old before after,
          o.state.configurations.entries = before ++ (id, old) :: after ∧
          (∀ e ∈ before ++ after, e.1 ≠ id) ∧
          serve o (.updateConfiguration id ch) = { o with state := { o.state with
            configurations := ⟨before ++ (id, k) :: after⟩
            directory := o.state.directory.insertAll k.routing.directory } } ∧
          old.id = id ∧ ch.Makes o.clock old k ∧
          ∃ v, Validation.of k = .ok v ∧ v.isValid = true := by
  have hkept := hr.wellKept
  refine ⟨fun k e he => ?_, fun id ch => ⟨fun e he => ?_, fun e => ?_, fun k hk => ?_⟩⟩
  · show { o with state := (o.state.addConfiguration k).2 } = o
    rw [ControlRoom.addConfiguration_state he]
  · show { o with state := (o.state.updateConfiguration o.clock id ch).2 } = o
    rw [(o.state.updateConfiguration_state o.clock id ch).1 e he]
  · exact ControlRoom.updateConfiguration_eq_error_iff
  · obtain ⟨old, v, hold, -, hmade, hv⟩ := ControlRoom.updateConfiguration_eq_ok_iff.mp hk
    obtain ⟨before, after, hentries, hothers, hwrite⟩ :=
      Table.exists_entries_insert hkept.once hold
    refine ⟨old, before, after, hentries, hothers, ?_, hkept.keyed.of_get? hold,
      hmade ▸ ch.makes_apply old o.clock, v, Configuration.accept_eq_ok_iff.mp hv⟩
    show { o with state := (o.state.updateConfiguration o.clock id ch).2 } = _
    rw [(o.state.updateConfiguration_state o.clock id ch).2 k hk]
    have htable : o.state.configurations.insert id k = ⟨before ++ (id, k) :: after⟩ :=
      congrArg Table.mk (hwrite k)
    rw [htable]
    rfl

/-! ## The ward is renamed -/

namespace Sample

/-- An office that was told of the ward and of the annex. -/
def furnished : Past × Office :=
  (premises fun _ => .ok ⟨true, .null, none, none⟩).play
    [.ask (.addConfiguration (configuration "ward" .standard none)),
      .ask (.addConfiguration (configuration "annex" .standard none))]

/-- A new name for a configuration. -/
def eastWard : Change :=
  { name := some "East ward" }

end Sample

set_option maxRecDepth 100000 in
/-- The ward is given a new name before the annex, and its rules are those that it had. -/
theorem exchanges_ward : ∃ k old before after,
    (Sample.furnished.2.state.updateConfiguration Sample.furnished.2.clock "ward"
      Sample.eastWard).1 = .ok k ∧
    Sample.furnished.2.state.configurations.entries = before ++ ("ward", old) :: after ∧
    (serve Sample.furnished.2 (.updateConfiguration "ward" Sample.eastWard)).state.configurations.entries
      = before ++ ("ward", k) :: after ∧
    k.name = "East ward" ∧ k.rules = old.rules ∧ k.createdAt = old.createdAt := by
  have hmade : (Sample.furnished.2.state.updateConfiguration Sample.furnished.2.clock "ward"
      Sample.eastWard).1.toOption.isSome = true := by
    decide +kernel
  have hrun : (Sample.premises fun _ => .ok ⟨true, .null, none, none⟩).Run Sample.furnished.1
      Sample.furnished.2 := Premises.run_play _ _
  cases hk : (Sample.furnished.2.state.updateConfiguration Sample.furnished.2.clock "ward"
      Sample.eastWard).1 with
  | error e =>
      rw [hk] at hmade
      exact nomatch hmade
  | ok k =>
      obtain ⟨old, before, after, hentries, -, hserve, -, hmakes, -⟩ :=
        (hrun.exchanges.2 "ward" Sample.eastWard).2.2 k hk
      exact ⟨k, old, before, after, rfl, hentries, by rw [hserve], hmakes.name, hmakes.rules,
        hmakes.createdAt⟩

end Office

end BuildingAlerts
