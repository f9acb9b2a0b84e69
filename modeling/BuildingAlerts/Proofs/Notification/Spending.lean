/-
What a call takes from the limits.

A call that admits somebody is charged to the keys of those whom it admits, or once to the key of
its configuration, and is noted as the last of its rule. A call that admits nobody is charged to no
key and is not noted: all that may have become of the limiter is that it has forgotten what is a day
old.
-/
import BuildingAlerts.Proofs.Notification.Windows
import Mathlib.Data.List.Nodup

set_option autoImplicit false

namespace BuildingAlerts.Limiter

variable {known : Bool} {now : Moment} {limits : FrequencyLimits} {l l' : Limiter}
  {key : CounterKey}

/-! ## Counters -/

/-- A counter has got so many entries of a moment. What it has forgotten was a day old. -/
def Gains (now : Moment) (count : Nat) (before after : List Moment) : Prop :=
  ∃ old kept, before = old ++ kept ∧ (∀ m ∈ old, m.instant + day.micros ≤ now.instant) ∧
    after = kept ++ List.replicate count now

theorem gains_rfl (now : Moment) (ms : List Moment) : Gains now 0 ms ms :=
  ⟨[], ms, rfl, fun _ h => absurd h List.not_mem_nil, (List.append_nil ms).symm⟩

/-- **Counting one key** gives its counter an entry if it is admitted, and no other. -/
theorem record_gains (limits : FrequencyLimits) (hnow : now.offset.isSome = known)
    (hl : OnOneClock known l) (k : CounterKey) :
    ∃ admitted l', StateT.run (record limits now k) l = (.ok admitted, l') ∧
      OnOneClock known l' ∧ l'.lastSimilar = l.lastSimilar ∧
      Gains now (if admitted then 1 else 0) (l.sent k) (l'.sent k) ∧
      ∀ key, key ≠ k → l'.sent key = l.sent key := by
  obtain ⟨admitted, l', hrun, hl'⟩ := keeps_record limits hnow k l hl
  refine ⟨admitted, l', hrun, hl', ?_⟩
  obtain ⟨old, hsent, hold⟩ := exists_prune now (l.sent k)
  rw [run_record] at hrun
  dsimp only at hrun
  split at hrun
  · exact nomatch (Prod.mk.inj hrun).1
  · obtain ⟨hadmitted, rfl⟩ := Prod.mk.inj hrun
    obtain rfl := Except.ok.inj hadmitted
    refine ⟨rfl, ⟨old, prune now (l.sent k), hsent, hold, ?_⟩, fun key hkey => assign_of_ne hkey⟩
    exact (assign_self ..).trans (List.append_nil _).symm
  · obtain ⟨hadmitted, rfl⟩ := Prod.mk.inj hrun
    obtain rfl := Except.ok.inj hadmitted
    refine ⟨rfl, ⟨old, prune now (l.sent k), hsent, hold, ?_⟩, fun key hkey => ?_⟩
    · dsimp only
      rw [assign_self, assign_self]
      rfl
    · dsimp only
      rw [assign_of_ne hkey, assign_of_ne hkey]

/-- **Counting keys** gives the counters of those that are admitted one entry each. -/
theorem recordAll_gains (limits : FrequencyLimits) (hnow : now.offset.isSome = known)
    {keys : List CounterKey} (hkeys : keys.Nodup) (hl : OnOneClock known l) :
    (recordAll limits now keys l).1.Sublist keys ∧
      (recordAll limits now keys l).2.lastSimilar = l.lastSimilar ∧
      ∀ key, (key ∉ keys → (recordAll limits now keys l).2.sent key = l.sent key) ∧
        Gains now ((recordAll limits now keys l).1.count key) (l.sent key)
          ((recordAll limits now keys l).2.sent key) := by
  induction keys generalizing l with
  | nil => exact ⟨.slnil, rfl, fun key => ⟨fun _ => rfl, gains_rfl now _⟩⟩
  | cons k keys ih =>
      obtain ⟨hk, hkeys⟩ := List.nodup_cons.mp hkeys
      obtain ⟨admitted, l', hrun, hl', hsimilar, hgains, hothers⟩ := record_gains limits hnow hl k
      obtain ⟨hsub, hsimilar', hall⟩ := ih hkeys hl'
      unfold recordAll
      rw [hrun]
      dsimp only
      have hnone : (recordAll limits now keys l').1.count k = 0 :=
        List.count_eq_zero.mpr fun h => hk (hsub.subset h)
      refine ⟨?_, hsimilar'.trans hsimilar, fun key => ⟨fun hkey => ?_, ?_⟩⟩
      · cases admitted with
        | true => exact hsub.cons_cons k
        | false => exact hsub.cons k
      · obtain ⟨hne, hkey⟩ := List.ne_and_not_mem_of_not_mem_cons hkey
        rw [(hall key).1 hkey, hothers key hne]
      · by_cases hkey : key = k
        · -- the keys that follow are others, so the counter stays as it was left
          subst hkey
          rw [(hall key).1 hk]
          cases admitted with
          | true =>
              rw [if_pos rfl, List.count_cons_self, hnone]
              exact hgains
          | false =>
              rw [if_neg Bool.false_ne_true, hnone]
              exact hgains
        · have hcount : (if admitted = true then k :: (recordAll limits now keys l').1
              else (recordAll limits now keys l').1).count key
                = (recordAll limits now keys l').1.count key := by
            cases admitted with
            | true => exact List.count_cons_of_ne (Ne.symm hkey)
            | false => rfl
          rw [hcount, ← hothers key hkey]
          exact (hall key).2

/-- A filter over recipients admits those whose keys are admitted one after the other. -/
theorem run_filterM (limits : FrequencyLimits) (hnow : now.offset.isSome = known)
    (hl : OnOneClock known l) (rs : List String) :
    ∃ ids : List String, StateT.run (rs.filterM fun r => record limits now ⟨.recipient, r⟩ :
        Limiting (List String)) l
          = (.ok ids, (recordAll limits now (rs.map fun r => ⟨.recipient, r⟩) l).2) ∧
      ids.Sublist rs ∧ (recordAll limits now (rs.map fun r => ⟨.recipient, r⟩) l).1
        = ids.map fun r => ⟨.recipient, r⟩ := by
  have haux : ∀ (rs acc : List String) (l : Limiter), OnOneClock known l →
      ∃ ids : List String, StateT.run (rs.filterAuxM (fun r => record limits now ⟨.recipient, r⟩) acc :
          Limiting (List String)) l
            = (.ok (ids.reverse ++ acc),
              (recordAll limits now (rs.map fun r => ⟨.recipient, r⟩) l).2) ∧
        ids.Sublist rs ∧ (recordAll limits now (rs.map fun r => ⟨.recipient, r⟩) l).1
          = ids.map fun r => ⟨.recipient, r⟩ := by
    intro rs
    induction rs with
    | nil => exact fun acc l _ => ⟨[], rfl, .slnil, rfl⟩
    | cons r rs ih =>
        intro acc l hl
        obtain ⟨admitted, l', hrun, hl', -⟩ := record_gains limits hnow hl ⟨.recipient, r⟩
        obtain ⟨ids, hids, hsub, hkeys⟩ := ih (bif admitted then r :: acc else acc) l' hl'
        unfold List.filterAuxM
        rw [run_bind_of_ok hrun, List.map_cons, recordAll, hrun]
        dsimp only
        rw [hids, hkeys]
        cases admitted with
        | true =>
            refine ⟨r :: ids, ?_, hsub.cons_cons r, rfl⟩
            rw [List.reverse_cons, List.append_assoc]
            rfl
        | false => exact ⟨ids, rfl, hsub.cons r, rfl⟩
  obtain ⟨ids, hrun, hsub, hkeys⟩ := haux rs [] l hl
  refine ⟨ids, (run_bind_of_ok hrun).trans ?_, hsub, hkeys⟩
  rw [List.append_nil]
  show (Except.ok ids.reverse.reverse, _) = _
  rw [List.reverse_reverse]

/-! ## Calls -/

/-- A limiter after some keys were charged for a call at a moment: each counter has got one entry for
each time that its key is charged, and if any is, the call is noted as the last of its rule. -/
structure Charged (now : Moment) (rule : RuleKey) (keys : List CounterKey) (l l' : Limiter) :
    Prop where
  counters : ∀ key, Gains now (keys.count key) (l.sent key) (l'.sent key)
  noted : l'.lastSimilar
    = if keys.isEmpty then l.lastSimilar else assign l.lastSimilar rule (some now)

theorem charged_rfl (now : Moment) (rule : RuleKey) (l : Limiter) : Charged now rule [] l l :=
  ⟨fun _ => gains_rfl now _, rfl⟩

/-- The keys that are charged when a call admits some recipients. -/
def Call.charges (c : Call) (ids : List String) : List CounterKey :=
  match c.limits.scope with
  | .recipient => ids.map fun r => ⟨.recipient, r⟩
  | .configuration => if ids.isEmpty then [] else [⟨.configuration, c.rule.configurationId⟩]

/-- A call is charged if it admits somebody. -/
theorem Call.isEmpty_charges (c : Call) (ids : List String) :
    (c.charges ids).isEmpty = ids.isEmpty := by
  unfold Call.charges
  cases c.limits.scope with
  | recipient => exact List.isEmpty_map
  | configuration => cases ids <;> rfl

/-- The limiter after a call that admits some recipients is noted. -/
def noted (rule : RuleKey) (now : Moment) (ids : List String) (l : Limiter) : Limiter :=
  if ids.isEmpty then l else { l with lastSimilar := assign l.lastSimilar rule (some now) }

theorem sent_noted (rule : RuleKey) (now : Moment) (ids : List String) (l : Limiter) :
    (noted rule now ids l).sent = l.sent := by
  cases ids <;> rfl

theorem lastSimilar_noted (rule : RuleKey) (now : Moment) (ids : List String) (l : Limiter) :
    (noted rule now ids l).lastSimilar
      = if ids.isEmpty then l.lastSimilar else assign l.lastSimilar rule (some now) := by
  cases ids <;> rfl

theorem run_noted (rule : RuleKey) (now : Moment) (ids : List String) (l : Limiter) :
    StateT.run (do
      if !ids.isEmpty then
        modify fun l => { l with lastSimilar := assign l.lastSimilar rule (some now) }
      return ids : Limiting (List String)) l = (.ok ids, noted rule now ids l) := by
  cases ids with
  | nil => rfl
  | cons r rs => rfl

/-- A call that has to wait admits nobody. -/
theorem Call.on_of_cooling {c : Call}
    (h : isCooling c.limits c.now (l.lastSimilar c.rule) = .ok true) : c.on l = (.ok [], l) := by
  unfold Call.on allow
  rw [run_bind_of_ok (x := get) (a := l) rfl, h]
  rfl

/-- A call that has not to wait counts its keys, admits the recipients whose keys are admitted, and
is noted if there are any. -/
theorem Call.on_of_not_cooling {c : Call} (hnow : c.now.offset.isSome = known)
    (hl : OnOneClock known l) (hne : c.recipients ≠ [])
    (hcooling : isCooling c.limits c.now (l.lastSimilar c.rule) = .ok false) :
    ∃ ids, c.on l = (.ok ids, noted c.rule c.now ids (recordAll c.limits c.now c.keys l).2) ∧
      ids.Sublist c.recipients ∧ (recordAll c.limits c.now c.keys l).1 = c.charges ids := by
  unfold Call.on allow Call.keys Call.charges
  rw [run_bind_of_ok (x := get) (a := l) rfl, hcooling]
  cases c.limits.scope with
  | recipient =>
      obtain ⟨ids, hrun, hids⟩ := run_filterM c.limits hnow hl c.recipients
      exact ⟨ids, (run_bind_of_ok hrun).trans (run_noted c.rule c.now ids _), hids⟩
  | configuration =>
      obtain ⟨admitted, l', hrun, -⟩ :=
        record_gains c.limits hnow hl ⟨.configuration, c.rule.configurationId⟩
      dsimp only
      unfold recordAll
      rw [hrun]
      cases admitted with
      | true =>
          refine ⟨c.recipients, (run_bind_of_ok hrun).trans (run_noted c.rule c.now _ _), .refl _, ?_⟩
          rw [if_neg (mt List.isEmpty_iff.mp hne)]
          rfl
      | false =>
          exact ⟨[], (run_bind_of_ok hrun).trans (run_noted c.rule c.now [] _),
            List.nil_sublist _, rfl⟩

/-- **What a call takes from the limits.** The keys for which it records an admission are charged;
they are those of the recipients whom it admits, or that of the configuration if it admits any. A
call that fails charges nothing. -/
theorem Call.on_charged {c : Call} (hnow : c.now.offset.isSome = known) (hl : OnOneClock known l)
    (hrecipients : c.recipients.Nodup) (hne : c.recipients ≠ []) :
    Charged c.now c.rule (c.recorded l) l (c.on l).2 ∧
      ((∃ f, (c.on l).1 = .error f ∧ c.recorded l = []) ∨
        ∃ ids, (c.on l).1 = .ok ids ∧ ids.Sublist c.recipients ∧
          c.recorded l = c.charges ids) := by
  have hnone : c.charges [] = [] := List.isEmpty_iff.mp (c.isEmpty_charges [])
  cases hcooling : isCooling c.limits c.now (l.lastSimilar c.rule) with
  | error f =>
      have hon : c.on l = (.error f, l) := by
        unfold Call.on allow
        rw [run_bind_of_ok (x := get) (a := l) rfl, hcooling]
        rfl
      unfold Call.recorded
      rw [hcooling, hon]
      exact ⟨charged_rfl c.now c.rule l, .inl ⟨f, rfl, rfl⟩⟩
  | ok cooling =>
      cases cooling with
      | true =>
          unfold Call.recorded
          rw [hcooling, Call.on_of_cooling hcooling]
          exact ⟨charged_rfl c.now c.rule l, .inr ⟨[], rfl, List.nil_sublist _, hnone.symm⟩⟩
      | false =>
          obtain ⟨ids, hon, hsub, hids⟩ := Call.on_of_not_cooling hnow hl hne hcooling
          have hkeys : c.keys.Nodup := by
            unfold Call.keys
            split
            · exact hrecipients.map fun r r' h => (CounterKey.mk.inj h).2
            · exact List.nodup_singleton _
          obtain ⟨-, hsimilar, hall⟩ := recordAll_gains c.limits hnow hkeys hl
          unfold Call.recorded
          rw [hcooling, hon]
          refine ⟨⟨fun key => ?_, ?_⟩, .inr ⟨ids, rfl, hsub, hids⟩⟩
          · dsimp only
            rw [sent_noted]
            exact (hall key).2
          · dsimp only
            rw [lastSimilar_noted, hsimilar, hids, c.isEmpty_charges]

end BuildingAlerts.Limiter
