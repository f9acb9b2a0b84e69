/-
Limits that are asked on one clock.

The moments that a limiter remembers come from the clock that asks it, so they can always be
compared with the present one. Counting therefore never fails, and the only failure of a limiter
is that of a cooldown that no calendar holds. It is found before anything is written down.
-/
import BuildingAlerts.Notification.Limiter
import BuildingAlerts.Proofs.Fault
import BuildingAlerts.Proofs.Time.Order

set_option autoImplicit false

namespace BuildingAlerts.Limiter

variable {α β : Type}

/-! ## Steps that do not fail -/

/-- A step that has a result and keeps to an invariant wherever that holds. -/
def Keeps (I : Limiter → Prop) (x : Limiting α) : Prop :=
  ∀ l, I l → ∃ a l', StateT.run x l = (.ok a, l') ∧ I l'

variable {I : Limiter → Prop}

theorem keeps_pure (a : α) : Keeps I (pure a) :=
  fun l hl => ⟨a, l, rfl, hl⟩

/-- What two steps come to when the first has a result. -/
theorem run_bind_of_ok {x : Limiting α} {f : α → Limiting β} {l l' : Limiter} {a : α}
    (h : StateT.run x l = (.ok a, l')) : StateT.run (x >>= f : Limiting β) l = StateT.run (f a) l' := by
  simp only [bind, ExceptT.bind, ExceptT.mk, StateT.bind, StateT.run] at h ⊢
  rw [h]
  rfl

theorem Keeps.bind {x : Limiting α} {f : α → Limiting β} (hx : Keeps I x)
    (hf : ∀ a, Keeps I (f a)) : Keeps I (x >>= f) := by
  intro l hl
  obtain ⟨a, m, hrun, hm⟩ := hx l hl
  rw [run_bind_of_ok hrun]
  exact hf a m hm

theorem keeps_modify {f : Limiter → Limiter} (hf : ∀ l, I l → I (f l)) :
    Keeps I (modify f : Limiting Unit) :=
  fun l hl => ⟨(), f l, rfl, hf l hl⟩

theorem keeps_filterM {p : α → Limiting Bool} (hp : ∀ a, Keeps I (p a)) (as : List α) :
    Keeps I (as.filterM p) := by
  have haux : ∀ (as acc : List α), Keeps I (as.filterAuxM p acc) := by
    intro as
    induction as with
    | nil => exact fun acc => keeps_pure acc
    | cons a as ih => exact fun acc => (hp a).bind fun b => ih _
  exact (haux as []).bind fun r => keeps_pure _

/-! ## One clock -/

/-- All moments that are remembered have an offset, or none has. -/
structure OnOneClock (known : Bool) (l : Limiter) : Prop where
  sent : ∀ key, ∀ m ∈ l.sent key, m.offset.isSome = known
  lastSimilar : ∀ rule m, l.lastSimilar rule = some m → m.offset.isSome = known

variable {known : Bool} {now : Moment} {l : Limiter} {limits : FrequencyLimits}

theorem onOneClock_fresh (known : Bool) : OnOneClock known fresh :=
  ⟨fun _ _ h => absurd h List.not_mem_nil, fun _ _ h => nomatch h⟩

theorem OnOneClock.assign (hl : OnOneClock known l) (key : CounterKey) {ms : List Moment}
    (hms : ∀ m ∈ ms, m.offset.isSome = known) :
    OnOneClock known { l with sent := BuildingAlerts.assign l.sent key ms } := by
  refine ⟨fun k m hm => ?_, hl.lastSimilar⟩
  unfold BuildingAlerts.assign at hm
  dsimp only at hm
  split at hm
  · exact hms m hm
  · exact hl.sent k m hm

theorem isWithin_eq_ok (hnow : now.offset.isSome = known) {m : Moment}
    (hm : m.offset.isSome = known) (window : Span) : ∃ b, isWithin now window m = .ok b := by
  unfold isWithin
  rw [Moment.since?_of_isSome_eq (hnow.trans hm.symm)]
  exact ⟨_, rfl⟩

theorem countIn_eq_ok (hnow : now.offset.isSome = known) {ms : List Moment}
    (hms : ∀ m ∈ ms, m.offset.isSome = known) (window : Span) :
    ∃ n, countIn ms now window = .ok n := by
  obtain ⟨recent, hrecent⟩ :=
    exists_filterM_eq_ok fun m hm => isWithin_eq_ok hnow (hms m hm) window
  exact ⟨recent.length, bind_eq_ok_iff.mpr ⟨recent, hrecent, rfl⟩⟩

theorem isFull_eq_ok (limits : FrequencyLimits) (hnow : now.offset.isSome = known)
    {ms : List Moment} (hms : ∀ m ∈ ms, m.offset.isSome = known) :
    ∃ b, isFull limits now ms = .ok b := by
  obtain ⟨inHour, hhour⟩ := countIn_eq_ok hnow hms hour
  obtain ⟨inDay, hday⟩ := countIn_eq_ok hnow hms day
  unfold isFull
  by_cases hfull : limits.hourly ≤ inHour
  · exact ⟨true, bind_eq_ok_iff.mpr ⟨inHour, hhour, if_pos hfull⟩⟩
  · refine ⟨decide (limits.daily ≤ inDay), bind_eq_ok_iff.mpr ⟨inHour, hhour, ?_⟩⟩
    rw [if_neg hfull]
    exact bind_eq_ok_iff.mpr ⟨inDay, hday, rfl⟩

/-- What counting an admission comes to. -/
theorem run_record (limits : FrequencyLimits) (now : Moment) (key : CounterKey) (l : Limiter) :
    StateT.run (record limits now key) l =
      let l := { l with sent := BuildingAlerts.assign l.sent key (prune now (l.sent key)) }
      match isFull limits now (l.sent key) with
      | .error f => (.error f, l)
      | .ok true => (.ok false, l)
      | .ok false =>
        (.ok true, { l with sent := BuildingAlerts.assign l.sent key (l.sent key ++ [now]) }) := by
  unfold record
  dsimp only
  show StateT.run (ExceptT.bind (monadLift (isFull limits now _) : Limiting Bool) _) _ = _
  cases isFull limits now (BuildingAlerts.assign l.sent key (prune now (l.sent key)) key) with
  | error f => rfl
  | ok b => cases b <;> rfl
/-- Counting an admission does not fail. -/
theorem keeps_record (limits : FrequencyLimits) (hnow : now.offset.isSome = known)
    (key : CounterKey) : Keeps (OnOneClock known) (record limits now key) := by
  intro l hl
  have hpruned : ∀ m ∈ prune now (l.sent key), m.offset.isSome = known :=
    fun m hm => hl.sent key m ((List.dropWhile_sublist _).mem hm)
  have hl' := hl.assign key hpruned
  obtain ⟨full, hfull⟩ := isFull_eq_ok limits hnow (hl'.sent key)
  rw [run_record]
  dsimp only at hfull ⊢
  rw [hfull]
  cases full with
  | true => exact ⟨false, _, rfl, hl'⟩
  | false =>
      refine ⟨true, _, rfl, hl'.assign key fun m hm => ?_⟩
      rcases List.mem_append.mp hm with hm | hm
      · exact hl'.sent key m hm
      · obtain rfl := List.mem_singleton.mp hm
        exact hnow

theorem OnOneClock.note (hl : OnOneClock known l) (hnow : now.offset.isSome = known)
    (rule : RuleKey) : OnOneClock known
      { l with lastSimilar := BuildingAlerts.assign l.lastSimilar rule (some now) } := by
  refine ⟨hl.sent, fun r m hm => ?_⟩
  unfold BuildingAlerts.assign at hm
  dsimp only at hm
  split at hm
  · obtain rfl := Option.some.inj hm
    exact hnow
  · exact hl.lastSimilar r m hm

/-- **A limiter fails only before it writes anything down**, for want of a cooldown. -/
theorem run_allow (limits : FrequencyLimits) (rule : RuleKey) (recipients : List String)
    (hnow : now.offset.isSome = known) (hl : OnOneClock known l) :
    ∃ result l', StateT.run (allow limits rule recipients now) l = (result, l') ∧
      OnOneClock known l' ∧ ((∃ f, result = .error f) → l' = l) := by
  have hnote : ∀ admitted : List String, Keeps (OnOneClock known) (do
      if !admitted.isEmpty then
        modify fun l => { l with lastSimilar := BuildingAlerts.assign l.lastSimilar rule (some now) }
      return admitted : Limiting (List String)) := by
    intro admitted
    dsimp only
    split
    · exact (keeps_modify fun l hl => hl.note hnow rule).bind fun _ => keeps_pure _
    · exact keeps_pure _
  unfold allow
  rw [run_bind_of_ok (x := get) (a := l) rfl]
  cases hc : isCooling limits now (l.lastSimilar rule) with
  | error f => exact ⟨.error f, l, rfl, hl, fun _ => rfl⟩
  | ok cooling =>
      cases cooling with
      | true => exact ⟨.ok [], l, rfl, hl, fun _ => rfl⟩
      | false =>
          cases limits.scope with
          | recipient =>
              obtain ⟨admitted, l', hrun, hl'⟩ :=
                (keeps_filterM (fun r => keeps_record limits hnow ⟨.recipient, r⟩) recipients).bind
                  hnote l hl
              exact ⟨.ok admitted, l', hrun, hl', fun ⟨_, h⟩ => nomatch h⟩
          | configuration =>
              obtain ⟨b, m, hb, hm⟩ :=
                keeps_record limits hnow ⟨.configuration, rule.configurationId⟩ l hl
              obtain ⟨admitted, l', hrun, hl'⟩ := hnote (if b then recipients else []) m hm
              refine ⟨.ok admitted, l', (run_bind_of_ok hb).trans ?_, hl', fun ⟨_, h⟩ => nomatch h⟩
              cases b with
              | true => exact hrun
              | false => exact hrun
end BuildingAlerts.Limiter
