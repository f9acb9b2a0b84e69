/-
A limiter that forgets, beside one that does not.

What is dropped from the front of a queue is a day old, and as time goes on it stays out of the
hour and of the day before each call. The two limiters therefore find the same admissions in both,
answer alike, and go on from each other like before: what one has dropped is the only difference.
-/
import BuildingAlerts.Proofs.Notification.Windows

set_option autoImplicit false

namespace BuildingAlerts.Limiter

variable {α β : Type} {known : Bool} {now : Moment} {time : Int} {l w : Limiter}

/-! ## A limiter that keeps the whole history -/

/-- Admits one notification of a key and records it, unless a limit is used up. Nothing is
forgotten. -/
def recordWhole (limits : FrequencyLimits) (now : Moment) (key : CounterKey) : Limiting Bool := do
  let l ← get
  if ← (isFull limits now (l.sent key) : Except Fault Bool) then return false
  set { l with sent := assign l.sent key (l.sent key ++ [now]) }
  return true

/-- Admits a notification of a rule to some recipients, by the way in which a key is counted. -/
def allowBy (count : CounterKey → Limiting Bool) (limits : FrequencyLimits) (rule : RuleKey)
    (recipients : List String) (now : Moment) : Limiting (List String) := do
  let l ← get
  if ← (isCooling limits now (l.lastSimilar rule) : Except Fault Bool) then return []
  let admitted ← match limits.scope with
    | .recipient => recipients.filterM fun r => count ⟨.recipient, r⟩
    | .configuration => do
      if ← count ⟨.configuration, rule.configurationId⟩ then pure recipients
      else pure []
  if !admitted.isEmpty then
    modify fun l => { l with lastSimilar := assign l.lastSimilar rule (some now) }
  return admitted

/-- What a limiter does that keeps the whole history. -/
def Call.onWhole (c : Call) (l : Limiter) : Except Fault (List String) × Limiter :=
  StateT.run (allowBy (recordWhole c.limits c.now) c.limits c.rule c.recipients c.now) l

/-- The answers to some calls, one after the other. -/
def answers (ask : Call → Limiter → Except Fault (List String) × Limiter) :
    List Call → Limiter → List (Except Fault (List String))
  | [], _ => []
  | c :: cs, l => (ask c l).1 :: answers ask cs (ask c l).2

/-- The two limiters differ in the counting of a key only. -/
theorem allow_eq_allowBy (limits : FrequencyLimits) (rule : RuleKey) (recipients : List String)
    (now : Moment) : allow limits rule recipients now
      = allowBy (record limits now) limits rule recipients now := rfl

/-- What counting an admission comes to when nothing is forgotten. -/
theorem run_recordWhole (limits : FrequencyLimits) (now : Moment) (key : CounterKey)
    (l : Limiter) : StateT.run (recordWhole limits now key) l =
      match isFull limits now (l.sent key) with
      | .error f => (.error f, l)
      | .ok true => (.ok false, l)
      | .ok false =>
        (.ok true, { l with sent := assign l.sent key (l.sent key ++ [now]) }) := by
  unfold recordWhole
  show StateT.run (ExceptT.bind (monadLift (isFull limits now _) : Limiting Bool) _) _ = _
  cases isFull limits now (l.sent key) with
  | error f => rfl
  | ok b => cases b <;> rfl

/-! ## What the one has forgotten -/

/-- A limiter remembers what another one recorded up to a time, but for admissions that were a day
old. -/
structure Remembers (known : Bool) (time : Int) (l whole : Limiter) : Prop where
  clock : OnOneClock known whole
  lastSimilar : l.lastSimilar = whole.lastSimilar
  sent : ∀ key, ∃ forgotten, whole.sent key = forgotten ++ l.sent key ∧
    ∀ m ∈ forgotten, m.instant + day.micros ≤ time

theorem remembers_fresh (known : Bool) (time : Int) : Remembers known time fresh fresh where
  clock := onOneClock_fresh known
  lastSimilar := rfl
  sent _ := ⟨[], rfl, fun _ h => absurd h List.not_mem_nil⟩

theorem Remembers.later (h : Remembers known time l w) {time' : Int} (hle : time ≤ time') :
    Remembers known time' l w := by
  refine ⟨h.clock, h.lastSimilar, fun key => ?_⟩
  obtain ⟨forgotten, hsent, hold⟩ := h.sent key
  exact ⟨forgotten, hsent, fun m hm => (hold m hm).trans hle⟩

/-- Forgetting what is a day old. -/
theorem Remembers.prune (h : Remembers known now.instant l w) (k : CounterKey) :
    Remembers known now.instant { l with sent := assign l.sent k (prune now (l.sent k)) } w := by
  refine ⟨h.clock, h.lastSimilar, fun key => ?_⟩
  obtain ⟨forgotten, hsent, hold⟩ := h.sent key
  dsimp only
  by_cases hk : key = k
  · subst hk
    obtain ⟨old, hpruned, hday⟩ := exists_prune now (l.sent key)
    refine ⟨forgotten ++ old, ?_, fun m hm => ?_⟩
    · rw [assign_self, List.append_assoc, ← hpruned]
      exact hsent
    · exact (List.mem_append.mp hm).elim (hold m) (hday m)
  · rw [assign_of_ne hk]
    exact ⟨forgotten, hsent, hold⟩

/-- Both write an admission down. -/
theorem Remembers.admit (h : Remembers known now.instant l w) (hnow : now.offset.isSome = known)
    (k : CounterKey) : Remembers known now.instant
      { l with sent := assign l.sent k (l.sent k ++ [now]) }
      { w with sent := assign w.sent k (w.sent k ++ [now]) } := by
  refine ⟨h.clock.assign k fun m hm => ?_, h.lastSimilar, fun key => ?_⟩
  · rcases List.mem_append.mp hm with hm | hm
    · exact h.clock.sent k m hm
    · exact List.mem_singleton.mp hm ▸ hnow
  · obtain ⟨forgotten, hsent, hold⟩ := h.sent key
    dsimp only
    by_cases hk : key = k
    · subst hk
      refine ⟨forgotten, ?_, hold⟩
      rw [assign_self, assign_self, hsent, List.append_assoc]
    · rw [assign_of_ne hk, assign_of_ne hk]
      exact ⟨forgotten, hsent, hold⟩

/-- Both note a notification of a rule. -/
theorem Remembers.note (h : Remembers known now.instant l w) (hnow : now.offset.isSome = known)
    (rule : RuleKey) : Remembers known now.instant
      { l with lastSimilar := assign l.lastSimilar rule (some now) }
      { w with lastSimilar := assign w.lastSimilar rule (some now) } :=
  ⟨h.clock.note hnow rule, congrArg (assign · rule (some now)) h.lastSimilar, h.sent⟩

/-- Within a day, what is remembered counts as much as the whole history. -/
theorem Remembers.countIn_eq (h : Remembers known now.instant l w)
    (hnow : now.offset.isSome = known) (key : CounterKey) {window : Span}
    (hw : window.micros ≤ day.micros) :
    countIn (l.sent key) now window = countIn (w.sent key) now window := by
  obtain ⟨forgotten, hsent, hold⟩ := h.sent key
  have hclock := h.clock.sent key
  rw [hsent] at hclock ⊢
  -- what was forgotten is a day old, so no window of a day reaches it
  have hnone : forgotten.countP (fun x => now.instant - window.micros < x.instant) = 0 := by
    refine List.countP_eq_zero.mpr fun m hm hlt => ?_
    have hday := hold m hm
    have hlt := of_decide_eq_true hlt
    omega
  rw [Limiter.countIn_eq hnow hclock, List.countP_append, hnone, Nat.zero_add,
    Limiter.countIn_eq hnow fun m hm => hclock m (List.mem_append_right _ hm)]

/-- What is remembered tells whether a limit is used up. -/
theorem Remembers.isFull_eq (h : Remembers known now.instant l w)
    (hnow : now.offset.isSome = known) (limits : FrequencyLimits) (key : CounterKey) :
    isFull limits now (l.sent key) = isFull limits now (w.sent key) := by
  unfold isFull
  rw [h.countIn_eq hnow key (by decide), h.countIn_eq hnow key (by decide)]

/-! ## Steps that are taken alike -/

/-- Two steps from related limiters have the same result and leave related limiters. -/
def Alike (R : Limiter → Limiter → Prop) (x y : Limiting α) : Prop :=
  ∀ l w, R l w → (StateT.run x l).1 = (StateT.run y w).1 ∧ R (StateT.run x l).2 (StateT.run y w).2

variable {R : Limiter → Limiter → Prop}

theorem alike_pure (a : α) : Alike R (pure a) (pure a) :=
  fun _ _ h => ⟨rfl, h⟩

theorem Alike.bind {x y : Limiting α} {f g : α → Limiting β} (hxy : Alike R x y)
    (hfg : ∀ a, Alike R (f a) (g a)) : Alike R (x >>= f) (y >>= g) := by
  intro l w h
  obtain ⟨hresult, hnext⟩ := hxy l w h
  rcases hx : StateT.run x l with ⟨e | a, l'⟩
  · rw [hx] at hresult hnext
    have hy : StateT.run y w = (.error e, (StateT.run y w).2) := Prod.ext hresult.symm rfl
    rw [run_bind_of_error hx, run_bind_of_error hy]
    exact ⟨rfl, hnext⟩
  · rw [hx] at hresult hnext
    have hy : StateT.run y w = (.ok a, (StateT.run y w).2) := Prod.ext hresult.symm rfl
    rw [run_bind_of_ok hx, run_bind_of_ok hy]
    exact hfg a _ _ hnext

theorem alike_filterM {p q : α → Limiting Bool} (h : ∀ a, Alike R (p a) (q a)) (as : List α) :
    Alike R (as.filterM p) (as.filterM q) := by
  have haux : ∀ (as acc : List α), Alike R (as.filterAuxM p acc) (as.filterAuxM q acc) := by
    intro as
    induction as with
    | nil => exact fun acc => alike_pure acc
    | cons a as ih => exact fun acc => (h a).bind fun b => ih _
  exact (haux as []).bind fun r => alike_pure _

/-- A key is counted alike. -/
theorem alike_record (limits : FrequencyLimits) (hnow : now.offset.isSome = known)
    (key : CounterKey) :
    Alike (Remembers known now.instant) (record limits now key) (recordWhole limits now key) := by
  intro l w h
  have hpruned := h.prune key
  have hfull := hpruned.isFull_eq hnow limits key
  rw [run_record, run_recordWhole]
  dsimp only at hfull ⊢
  rw [hfull]
  cases isFull limits now (w.sent key) with
  | error f => exact ⟨rfl, hpruned⟩
  | ok full =>
      cases full with
      | true => exact ⟨rfl, hpruned⟩
      | false => exact ⟨rfl, hpruned.admit hnow key⟩

/-- A call is answered alike. -/
theorem Remembers.on {c : Call} (h : Remembers known c.now.instant l w)
    (hnow : c.now.offset.isSome = known) :
    (c.on l).1 = (c.onWhole w).1 ∧
      Remembers known c.now.instant (c.on l).2 (c.onWhole w).2 := by
  have hnote : ∀ admitted : List String, Alike (Remembers known c.now.instant)
      (do
        if !admitted.isEmpty then
          modify fun l => { l with lastSimilar := assign l.lastSimilar c.rule (some c.now) }
        return admitted : Limiting (List String))
      (do
        if !admitted.isEmpty then
          modify fun l => { l with lastSimilar := assign l.lastSimilar c.rule (some c.now) }
        return admitted : Limiting (List String)) := by
    intro admitted l w h
    cases admitted with
    | nil => exact ⟨rfl, h⟩
    | cons r rs => exact ⟨rfl, h.note hnow c.rule⟩
  unfold Call.on Call.onWhole
  rw [allow_eq_allowBy]
  unfold allowBy
  rw [run_bind_of_ok (x := get) (a := l) rfl, run_bind_of_ok (x := get) (a := w) rfl,
    h.lastSimilar]
  -- the cooldown is read off the same note, so both wait or neither does
  cases isCooling c.limits c.now (w.lastSimilar c.rule) with
  | error f => exact ⟨rfl, h⟩
  | ok cooling =>
      cases cooling with
      | true => exact ⟨rfl, h⟩
      | false =>
          cases c.limits.scope with
          | recipient =>
              exact ((alike_filterM (fun r => alike_record c.limits hnow ⟨.recipient, r⟩)
                c.recipients).bind hnote) l w h
          | configuration =>
              refine ((alike_record c.limits hnow ⟨.configuration,
                c.rule.configurationId⟩).bind fun b => ?_) l w h
              cases b with
              | true => exact (alike_pure c.recipients).bind hnote
              | false => exact (alike_pure []).bind hnote

/-! ## Runs -/

/-- Calls that are asked one after the other on one clock are answered alike. -/
theorem Remembers.answers_eq {cs : List Call}
    (hcs : cs.Pairwise fun c d => c.now.le? d.now = some true)
    (hknown : ∀ c ∈ cs, c.now.offset.isSome = known) (htime : ∀ c ∈ cs, time ≤ c.now.instant)
    (h : Remembers known time l w) :
    answers Call.on cs l = answers Call.onWhole cs w := by
  induction cs generalizing l w time with
  | nil => rfl
  | cons c cs ih =>
      obtain ⟨hc, hcs⟩ := List.pairwise_cons.mp hcs
      -- time has gone on, so what was forgotten before is old enough for this call
      obtain ⟨hanswer, hnext⟩ :=
        (h.later (htime c List.mem_cons_self)).on (hknown c List.mem_cons_self)
      have hrest := ih hcs (fun d hd => hknown d (List.mem_cons_of_mem _ hd))
        (fun d hd => (Moment.le?_eq_some_true_iff.mp (hc d hd)).2) hnext
      unfold answers
      rw [hanswer, hrest]

/-- **Forgetting makes no difference.** Whatever a limiter is asked, one call after the other with
times that do not go back, it answers each call like a limiter that keeps the whole history. -/
theorem answers_whole {cs : List Call} (hcs : cs.Pairwise fun c d => c.now.le? d.now = some true) :
    answers Call.on cs fresh = answers Call.onWhole cs fresh := by
  cases cs with
  | nil => rfl
  | cons c cs =>
      have hlater : ∀ d ∈ c :: cs, c.now.offset.isSome = d.now.offset.isSome ∧
          c.now.instant ≤ d.now.instant := by
        intro d hd
        rcases List.mem_cons.mp hd with rfl | hd
        · exact ⟨rfl, le_refl _⟩
        · exact Moment.le?_eq_some_true_iff.mp ((List.pairwise_cons.mp hcs).1 d hd)
      exact (remembers_fresh _ _).answers_eq hcs (fun d hd => (hlater d hd).1.symm)
        fun d hd => (hlater d hd).2

/-- The limits, the scope and the recipients change, and after a day and an hour the first admission
of the keeper has been forgotten by the one limiter only. -/
theorem answers_whole_keeper :
    let whole : Call := ⟨⟨2, 2, 0, .configuration⟩, ⟨"ward", "warm"⟩, ["keeper", "guard"],
      .atUtc (45 * Span.microsPerMinute)⟩
    let cs := [Call.sparing 0, Call.sparing 30, whole, Call.sparing 1500]
    let key : CounterKey := ⟨.recipient, "keeper"⟩
    (cs.Pairwise fun c d => c.now.le? d.now = some true) ∧
      (answers Call.on cs fresh).map Except.toOption
        = [some ["keeper"], some [], some ["keeper", "guard"], some ["keeper"]] ∧
      ((cs.foldl (fun l c => (c.on l).2) fresh).sent key).length = 1 ∧
      ((cs.foldl (fun l c => (c.onWhole l).2) fresh).sent key).length = 2 ∧
      answers Call.on cs fresh = answers Call.onWhole cs fresh := by
  intro whole cs key
  have hcs : cs.Pairwise fun c d => c.now.le? d.now = some true := by decide
  exact ⟨hcs, by decide +kernel, by decide +kernel, by decide +kernel, answers_whole hcs⟩

end BuildingAlerts.Limiter
