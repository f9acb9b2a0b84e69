/-
How far the notifications of one rule lie apart.

Calls ask a limiter at the same time. A call waits for the lock of its rule, looks at the cooldown,
counts its keys one after the other and is noted as the last of its rule if it admits somebody;
between any two of these steps other calls come, go on, end or are given up. All that is assumed of
the locks is that no two calls of one rule are past the first step at a time. The moments that the
calls bring were read before they had to wait, so they come in any order. `Gate.play_alone` says
that a call that nothing comes between does what the limiter's own `allow` does.

The moment noted as the last of a rule is the latest that a call of the rule was ever admitted
with: a call gets past the first step only if it brings a moment a cooldown later than that, and
until it is over nobody else of the rule is noted.
-/
import BuildingAlerts.Proofs.Alert.Spacing
import BuildingAlerts.Proofs.Notification.Spending

set_option autoImplicit false

/-! ## Moments a cooldown apart -/

namespace BuildingAlerts.Moment

/-- Two moments that can be compared and are at least some minutes apart, whichever of them is the
later one. -/
def SpacedBy (minutes : Int) (a b : Moment) : Prop :=
  ∃ s, a.since? b = some s ∧ minutes * Span.microsPerMinute ≤ |s.micros|

theorem SpacedBy.symm {minutes : Int} {a b : Moment} (h : a.SpacedBy minutes b) :
    b.SpacedBy minutes a := by
  obtain ⟨s, hs, hle⟩ := h
  obtain ⟨hoffset, hmicros⟩ := since?_eq_some_iff.mp hs
  refine ⟨_, since?_of_isSome_eq hoffset.symm, ?_⟩
  rw [hmicros, abs_sub_comm] at hle
  exact hle

theorem LeadsBy.spacedBy {minutes : Int} {a b : Moment} (h : a.LeadsBy minutes b) :
    b.SpacedBy minutes a := by
  obtain ⟨hoffset, hle⟩ := h
  refine ⟨_, since?_of_isSome_eq hoffset.symm, le_trans ?_ (le_abs_self _)⟩
  dsimp only
  omega

end BuildingAlerts.Moment

namespace BuildingAlerts.Limiter

variable {rule : RuleKey} {minutes : Int} {l : Limiter}

/-! ## Calls that are asked at the same time -/

/-- How far a call has come. -/
inductive Progress where
  /-- It waits for the lock of its rule. -/
  | waiting
  /-- It has the lock and is not in a cooldown. Some keys are left to be counted, and some were
  counted and admitted. -/
  | counting (left admitted : List CounterKey)
  /-- It is over. -/
  | finished (answer : Except Fault (List String))
  /-- It was given up before it was over. -/
  | givenUp

/-- Whether a call has the lock of its rule. -/
def Progress.isInside : Progress → Bool
  | .counting _ _ => true
  | _ => false

/-- The recipients whom a call has admitted, once it is over. -/
def Progress.answered : Progress → List String
  | .finished (.ok ids) => ids
  | _ => []

/-- The recipients whom a call admits when some of its keys were admitted. -/
def Call.admits (c : Call) (admitted : List CounterKey) : List String :=
  match c.limits.scope with
  | .recipient => admitted.map (·.id)
  | .configuration => if admitted.isEmpty then [] else c.recipients

/-- The next step of a call that may go on, and what it makes of the limiter. Counting a key waits
for nothing once it has begun, so it is one step. -/
def Call.advance (c : Call) (l : Limiter) : Progress → Progress × Limiter
  | .waiting =>
    match isCooling c.limits c.now (l.lastSimilar c.rule) with
    | .error f => (.finished (.error f), l)
    | .ok true => (.finished (.ok []), l)
    | .ok false => (.counting c.keys [], l)
  | .counting (key :: left) admitted =>
    match StateT.run (record c.limits c.now key) l with
    | (.error f, l) => (.finished (.error f), l)
    | (.ok b, l) => (.counting left (if b then admitted ++ [key] else admitted), l)
  | .counting [] admitted =>
    (.finished (.ok (c.admits admitted)), noted c.rule c.now (c.admits admitted) l)
  | p => (p, l)

/-- A limiter and all calls that were ever asked of it, with how far each has come. -/
structure Gate where
  limiter : Limiter
  calls : List (Call × Progress)

namespace Gate

/-- Whether nobody has the lock of a rule. -/
def isFree (g : Gate) (rule : RuleKey) : Bool :=
  g.calls.all fun e => !(e.2.isInside && e.1.rule == rule)

/-- Whether a call may go on: only the first step has to wait for the lock. -/
def mayAdvance (g : Gate) (c : Call) : Progress → Bool
  | .waiting => g.isFree c.rule
  | .counting _ _ => true
  | _ => false

/-- The gate after the call at a place took its next step. -/
def advanced (g : Gate) (place : Nat) (c : Call) (p : Progress) : Gate :=
  ⟨(c.advance g.limiter p).2, g.calls.set place (c, (c.advance g.limiter p).1)⟩

/-- What may happen at a gate. -/
inductive Move where
  /-- A limiter is asked. -/
  | ask (c : Call)
  /-- The call at a place takes its next step. -/
  | advance (place : Nat)
  /-- The call at a place is given up. -/
  | giveUp (place : Nat)

/-- The gate after a move, if the move is possible. -/
def step (g : Gate) : Move → Option Gate
  | .ask c => some { g with calls := g.calls ++ [(c, .waiting)] }
  | .advance place =>
    match g.calls[place]? with
    | some (c, p) => if g.mayAdvance c p then some (g.advanced place c p) else none
    | none => none
  | .giveUp place =>
    match g.calls[place]? with
    | some (_, .finished _) => none
    | some (c, _) => some { g with calls := g.calls.set place (c, .givenUp) }
    | none => none

/-- The gate after some moves, if all of them are possible. -/
def play (g : Gate) : List Move → Option Gate
  | [] => some g
  | m :: ms => (g.step m).bind fun g => g.play ms

theorem play_append (g : Gate) (ms ns : List Move) :
    g.play (ms ++ ns) = (g.play ms).bind fun g => g.play ns := by
  induction ms generalizing g with
  | nil => rfl
  | cons m ms ih =>
      rw [List.cons_append, play, play]
      cases g.step m with
      | none => rfl
      | some g' => exact ih g'

end Gate

/-! ## A call that nothing comes between -/

/-- A call that is alone at a limiter gets from one point to another by its own steps. -/
def Call.Reaches (c : Call) (l : Limiter) (p : Progress) (l' : Limiter) (p' : Progress) : Prop :=
  ∃ n, (Gate.mk l [(c, p)]).play (List.replicate n (.advance 0)) = some ⟨l', [(c, p')]⟩

theorem Call.Reaches.rfl {c : Call} {l : Limiter} {p : Progress} : c.Reaches l p l p :=
  ⟨0, Eq.refl _⟩

theorem Call.Reaches.trans {c : Call} {l l' l'' : Limiter} {p p' p'' : Progress}
    (h : c.Reaches l p l' p') (h' : c.Reaches l' p' l'' p'') : c.Reaches l p l'' p'' := by
  obtain ⟨n, hn⟩ := h
  obtain ⟨n', hn'⟩ := h'
  refine ⟨n + n', ?_⟩
  rw [List.replicate_add, Gate.play_append, hn]
  exact hn'

/-- A call that is not over takes its next step. -/
theorem Call.reaches_advance {c : Call} {l : Limiter} {p : Progress}
    (hp : (Gate.mk l [(c, p)]).mayAdvance c p = true) :
    c.Reaches l p (c.advance l p).2 (c.advance l p).1 := by
  refine ⟨1, ?_⟩
  show ((if (Gate.mk l [(c, p)]).mayAdvance c p then
    some ((Gate.mk l [(c, p)]).advanced 0 c p) else none).bind some) = _
  rw [if_pos hp]
  exact rfl

/-- Counting the keys of recipients one after the other is what a filter over them does. -/
theorem Call.reaches_filterAuxM (c : Call) (rs acc : List String) (l : Limiter) :
    match StateT.run (rs.filterAuxM (fun r => record c.limits c.now ⟨.recipient, r⟩) acc :
        Limiting (List String)) l with
    | (.error f, l') =>
      c.Reaches l (.counting (rs.map (⟨.recipient, ·⟩)) (acc.reverse.map (⟨.recipient, ·⟩)))
        l' (.finished (.error f))
    | (.ok ids, l') =>
      c.Reaches l (.counting (rs.map (⟨.recipient, ·⟩)) (acc.reverse.map (⟨.recipient, ·⟩)))
        l' (.counting [] (ids.reverse.map (⟨.recipient, ·⟩))) := by
  induction rs generalizing acc l with
  | nil => exact .rfl
  | cons r rs ih =>
      have hnext := c.reaches_advance (l := l)
        (p := .counting ((r :: rs).map (⟨.recipient, ·⟩)) (acc.reverse.map (⟨.recipient, ·⟩)))
        rfl
      unfold List.filterAuxM
      unfold Call.advance at hnext
      rw [List.map_cons] at hnext ⊢
      dsimp only at hnext
      rcases hr : StateT.run (record c.limits c.now ⟨.recipient, r⟩) l with ⟨f | b, l'⟩
      · rw [hr] at hnext
        rw [run_bind_of_error hr]
        exact hnext
      · rw [hr] at hnext
        rw [run_bind_of_ok hr]
        have hadmitted : (if b = true then acc.reverse.map (⟨.recipient, ·⟩) ++ [⟨.recipient, r⟩]
            else acc.reverse.map (⟨.recipient, ·⟩) : List CounterKey)
              = (bif b then r :: acc else acc).reverse.map (⟨.recipient, ·⟩) := by
          cases b with
          | true => simp
          | false => exact rfl
        dsimp only at hnext
        rw [hadmitted] at hnext
        have hrest := ih (bif b then r :: acc else acc) l'
        split at hrest
        · exact hnext.trans hrest
        · exact hnext.trans hrest

/-- The keys that a call is admitted for stand for the recipients whom it admits. -/
theorem Call.admits_recipients {c : Call} (h : c.limits.scope = .recipient) (ids : List String) :
    c.admits (ids.map (⟨.recipient, ·⟩)) = ids := by
  unfold Call.admits
  rw [h, List.map_map]
  exact List.map_id ids

/-- What a call does once it has the lock and is not in a cooldown, up to its end. -/
def Call.counted (c : Call) : Limiting (List String) :=
  match c.limits.scope with
  | .recipient => c.recipients.filterM fun r => record c.limits c.now ⟨.recipient, r⟩
  | .configuration => do
    if ← record c.limits c.now ⟨.configuration, c.rule.configurationId⟩ then pure c.recipients
    else pure []

/-- A call that is not in a cooldown counts and is noted. -/
theorem Call.on_eq_counted {c : Call} {l : Limiter}
    (hcooling : isCooling c.limits c.now (l.lastSimilar c.rule) = .ok false) :
    c.on l = match StateT.run c.counted l with
      | (.error f, l) => (.error f, l)
      | (.ok ids, l) => (.ok ids, noted c.rule c.now ids l) := by
  unfold Call.on allow Call.counted
  rw [run_bind_of_ok (x := get) (a := l) rfl, hcooling]
  cases c.limits.scope with
  | recipient =>
      dsimp only
      rcases hrun : StateT.run (c.recipients.filterM
        (fun r => record c.limits c.now ⟨.recipient, r⟩) : Limiting (List String)) l
        with ⟨f | ids, l'⟩
      · exact (run_bind_of_error hrun).trans rfl
      · exact (run_bind_of_ok hrun).trans (run_noted c.rule c.now ids l')
  | configuration =>
      dsimp only
      rcases hrun : StateT.run (record c.limits c.now ⟨.configuration, c.rule.configurationId⟩) l
        with ⟨f | b, l'⟩
      · rw [run_bind_of_error hrun]
        exact (run_bind_of_error hrun).trans rfl
      · rw [run_bind_of_ok hrun]
        refine (run_bind_of_ok hrun).trans ?_
        cases b with
        | true => exact run_noted c.rule c.now c.recipients l'
        | false => exact run_noted c.rule c.now [] l'

/-- Alone at a limiter, a call counts its keys as it would all at once. -/
theorem Call.reaches_counted (c : Call) (l : Limiter) :
    match StateT.run c.counted l with
    | (.error f, l') => c.Reaches l (.counting c.keys []) l' (.finished (.error f))
    | (.ok ids, l') => ∃ admitted, c.admits admitted = ids ∧
        c.Reaches l (.counting c.keys []) l' (.counting [] admitted) := by
  unfold Call.counted Call.keys
  cases hscope : c.limits.scope with
  | recipient =>
      have hcounted := c.reaches_filterAuxM c.recipients [] l
      dsimp only
      rcases hrun : StateT.run (c.recipients.filterAuxM
        (fun r => record c.limits c.now ⟨.recipient, r⟩) [] : Limiting (List String)) l
        with ⟨f | ids, l'⟩
      · rw [hrun] at hcounted
        rw [show StateT.run (c.recipients.filterM _ : Limiting (List String)) l = _ from
          run_bind_of_error hrun]
        exact hcounted
      · rw [hrun] at hcounted
        rw [show StateT.run (c.recipients.filterM _ : Limiting (List String)) l = _ from
          run_bind_of_ok hrun]
        exact ⟨_, c.admits_recipients hscope ids.reverse, hcounted⟩
  | configuration =>
      have hcounted := c.reaches_advance (l := l)
        (p := .counting [⟨.configuration, c.rule.configurationId⟩] []) rfl
      unfold Call.advance at hcounted
      dsimp only at hcounted ⊢
      rcases hrun : StateT.run (record c.limits c.now ⟨.configuration, c.rule.configurationId⟩) l
        with ⟨f | b, l'⟩
      · rw [hrun] at hcounted
        rw [run_bind_of_error hrun]
        exact hcounted
      · rw [hrun] at hcounted
        rw [run_bind_of_ok hrun]
        unfold Call.admits
        rw [hscope]
        cases b with
        | true => exact ⟨_, rfl, hcounted⟩
        | false => exact ⟨_, rfl, hcounted⟩

/-- **A call that nothing comes between** ends with the answer of the limiter's own `allow`, and
leaves the limiter as `allow` leaves it. -/
theorem Gate.play_alone (c : Call) (l : Limiter) :
    ∃ n, (Gate.mk l []).play (.ask c :: List.replicate n (.advance 0))
      = some ⟨(c.on l).2, [(c, .finished (c.on l).1)]⟩ := by
  show c.Reaches l .waiting (c.on l).2 (.finished (c.on l).1)
  have hfirst := c.reaches_advance (l := l) (p := .waiting) rfl
  unfold Call.advance at hfirst
  dsimp only at hfirst
  cases hcooling : isCooling c.limits c.now (l.lastSimilar c.rule) with
  | error f =>
      have hon : c.on l = (.error f, l) := by
        unfold Call.on allow
        rw [run_bind_of_ok (x := get) (a := l) rfl, hcooling]
        exact rfl
      rw [hcooling] at hfirst
      rw [hon]
      exact hfirst
  | ok cooling =>
      rw [hcooling] at hfirst
      cases cooling with
      | true =>
          rw [Call.on_of_cooling hcooling]
          exact hfirst
      | false =>
          have hcounted := c.reaches_counted l
          rw [Call.on_eq_counted hcooling]
          rcases hrun : StateT.run c.counted l with ⟨f | ids, l'⟩
          · rw [hrun] at hcounted
            exact hfirst.trans hcounted
          · rw [hrun] at hcounted
            obtain ⟨admitted, rfl, hcounted⟩ := hcounted
            have hclosed := c.reaches_advance (l := l') (p := .counting [] admitted) rfl
            exact (hfirst.trans hcounted).trans hclosed

/-- A call that is not in a cooldown brings a moment a cooldown later than the last of its rule. -/
theorem leadsBy_of_isCooling {limits : FrequencyLimits} {now : Moment} {last : Option Moment}
    (hpos : 0 < limits.cooldown) (h : isCooling limits now last = .ok false) {t : Moment}
    (ht : last = some t) : t.LeadsBy limits.cooldown now := by
  unfold isCooling at h
  rw [if_neg (by omega)] at h
  obtain ⟨span, hspan, h⟩ := bind_eq_ok_iff.mp h
  rw [ht] at h
  obtain ⟨s, hs, hlong⟩ := Option.map_eq_some_iff.mp (orFault_eq_ok_iff.mp h)
  obtain ⟨hoffset, hmicros⟩ := Moment.since?_eq_some_iff.mp hs
  have hle := of_decide_eq_false hlong
  rw [Span.micros_of_ofMinutes? (orFault_eq_ok_iff.mp hspan)] at hle
  exact ⟨hoffset.symm, by omega⟩

/-! ## One step of a call -/

theorem lastSimilar_record (limits : FrequencyLimits) (now : Moment) (key : CounterKey)
    (l : Limiter) : (StateT.run (record limits now key) l).2.lastSimilar = l.lastSimilar := by
  rw [run_record]
  dsimp only
  split
  · rfl
  · rfl
  · rfl

/-- A step of a call that is under way either answers nobody and notes nothing, and has the lock
only if it had it or is not in a cooldown; or it is the last step of a call that had the lock,
answers with the recipients whom it admits, and notes the moment of the call. -/
theorem Call.advance_cases {c : Call} {l : Limiter} {p : Progress} (hp : p = .waiting ∨ p.isInside) :
    ((c.advance l p).1.answered = [] ∧ (c.advance l p).2.lastSimilar = l.lastSimilar ∧
      ((c.advance l p).1.isInside = true → p.isInside = true ∨
        p = .waiting ∧ isCooling c.limits c.now (l.lastSimilar c.rule) = .ok false)) ∨
    (p.isInside = true ∧ (c.advance l p).1.isInside = false ∧
      (c.advance l p).2.lastSimilar = assign l.lastSimilar c.rule (some c.now)) := by
  cases p with
  | waiting =>
      left
      unfold advance
      dsimp only
      cases hcooling : isCooling c.limits c.now (l.lastSimilar c.rule) with
      | error f => exact ⟨rfl, rfl, fun h => nomatch h⟩
      | ok cooling =>
          cases cooling with
          | true => exact ⟨rfl, rfl, fun h => nomatch h⟩
          | false => exact ⟨rfl, rfl, fun _ => .inr ⟨rfl, rfl⟩⟩
  | counting left admitted =>
      cases left with
      | nil =>
          unfold advance
          dsimp only
          rw [lastSimilar_noted]
          cases hids : c.admits admitted with
          | nil => exact .inl ⟨rfl, rfl, fun _ => .inl rfl⟩
          | cons r rs => exact .inr ⟨rfl, rfl, rfl⟩
      | cons key left =>
          left
          have hsame := lastSimilar_record c.limits c.now key l
          unfold advance
          dsimp only
          rcases hrun : StateT.run (record c.limits c.now key) l with ⟨f | b, l'⟩
          · rw [hrun] at hsame
            exact ⟨rfl, hsame, fun _ => .inl rfl⟩
          · rw [hrun] at hsame
            exact ⟨rfl, hsame, fun _ => .inl rfl⟩
  | finished answer => exact absurd hp (by simp [Progress.isInside])
  | givenUp => exact absurd hp (by simp [Progress.isInside])

/-! ## The invariant -/

namespace Gate

/-- A call of a rule that has admitted somebody. -/
def Admits (rule : RuleKey) (e : Call × Progress) : Prop :=
  e.1.rule = rule ∧ e.2.answered ≠ []

/-- What holds at the gate at every moment. -/
structure Spaced (rule : RuleKey) (minutes : Int) (g : Gate) : Prop where
  cooldown : ∀ e ∈ g.calls, e.1.rule = rule → e.1.limits.cooldown = minutes
  /-- No two calls of one rule have the lock. -/
  alone : g.calls.Pairwise fun d e =>
    d.2.isInside = true → e.2.isInside = true → d.1.rule ≠ e.1.rule
  /-- No call of the rule was admitted with a later moment than the one that is noted. -/
  noted : ∀ e ∈ g.calls, Admits rule e →
    ∃ t, g.limiter.lastSimilar rule = some t ∧ e.1.now.LeadsBy 0 t
  /-- A call of the rule that has the lock brings a moment a cooldown later than the noted one. -/
  cooled : ∀ e ∈ g.calls, e.1.rule = rule → e.2.isInside = true →
    ∀ t, g.limiter.lastSimilar rule = some t → t.LeadsBy minutes e.1.now
  apart : g.calls.Pairwise fun d e =>
    Admits rule d → Admits rule e → d.1.now.SpacedBy minutes e.1.now

/-- Nobody has asked yet. -/
theorem spaced_nil (rule : RuleKey) (minutes : Int) (l : Limiter) : Spaced rule minutes ⟨l, []⟩ where
  cooldown := fun _ h => absurd h List.not_mem_nil
  alone := List.Pairwise.nil
  noted := fun _ h => absurd h List.not_mem_nil
  cooled := fun _ h => absurd h List.not_mem_nil
  apart := List.Pairwise.nil

/-- A member after one was exchanged is the new one or one of the others. -/
theorem mem_set_cases {α : Type} {l : List α} {i : Nat} {x y : α} (h : x ∈ l.set i y) :
    x = y ∨ x ∈ l.eraseIdx i := by
  obtain ⟨j, hj⟩ := List.mem_iff_getElem?.mp h
  rw [List.getElem?_set] at hj
  split at hj
  · split at hj
    · exact .inl (Option.some.inj hj).symm
    · exact nomatch hj
  · rename_i hne
    exact .inr (List.mem_eraseIdx_iff_getElem?.mpr ⟨j, fun h => hne h.symm, hj⟩)

/-- The relations of the invariant do not depend on which of two calls comes first. -/
theorem alone_symm (d e : Call × Progress)
    (h : d.2.isInside = true → e.2.isInside = true → d.1.rule ≠ e.1.rule) :
    e.2.isInside = true → d.2.isInside = true → e.1.rule ≠ d.1.rule :=
  fun he hd => (h hd he).symm

theorem apart_symm (d e : Call × Progress)
    (h : Admits rule d → Admits rule e → d.1.now.SpacedBy minutes e.1.now) :
    Admits rule e → Admits rule d → e.1.now.SpacedBy minutes d.1.now :=
  fun he hd => (h hd he).symm

/-- A call that comes and waits keeps the invariant. -/
theorem Spaced.ask {g : Gate} (h : Spaced rule minutes g) {c : Call}
    (hc : c.rule = rule → c.limits.cooldown = minutes) :
    Spaced rule minutes { g with calls := g.calls ++ [(c, .waiting)] } := by
  have hnot : ¬ Admits rule (c, .waiting) := fun hadmits => hadmits.2 rfl
  refine ⟨?_, ?_, ?_, ?_, ?_⟩
  · intro e he hrule
    rcases List.mem_append.mp he with he | he
    · exact h.cooldown e he hrule
    · obtain rfl := List.mem_singleton.mp he
      exact hc hrule
  · refine List.pairwise_append.mpr ⟨h.alone, List.pairwise_singleton _ _, ?_⟩
    intro d _ e he _ hin
    obtain rfl := List.mem_singleton.mp he
    exact nomatch hin
  · intro e he hadmits
    rcases List.mem_append.mp he with he | he
    · exact h.noted e he hadmits
    · obtain rfl := List.mem_singleton.mp he
      exact absurd hadmits hnot
  · intro e he hrule hin
    rcases List.mem_append.mp he with he | he
    · exact h.cooled e he hrule hin
    · obtain rfl := List.mem_singleton.mp he
      exact nomatch hin
  · refine List.pairwise_append.mpr ⟨h.apart, List.pairwise_singleton _ _, ?_⟩
    intro d _ e he _ hadmits
    obtain rfl := List.mem_singleton.mp he
    exact absurd hadmits hnot

/-- A step by which nobody is admitted keeps the invariant, if a call that gets the lock by it finds
the lock free and the cooldown over. -/
theorem Spaced.put {g : Gate} (h : Spaced rule minutes g) {place : Nat} {c : Call}
    {p p' : Progress} {l : Limiter} (hx : g.calls[place]? = some (c, p)) (hnone : p'.answered = [])
    (hlast : l.lastSimilar = g.limiter.lastSimilar)
    (hin : p'.isInside = true → p.isInside = true ∨ g.isFree c.rule = true ∧
      (c.rule = rule → ∀ t, g.limiter.lastSimilar rule = some t → t.LeadsBy minutes c.now)) :
    Spaced rule minutes ⟨l, g.calls.set place (c, p')⟩ := by
  have hmem := List.mem_of_getElem? hx
  have hnot : ¬ Admits rule (c, p') := fun hadmits => hadmits.2 hnone
  refine ⟨?_, ?_, ?_, ?_, ?_⟩
  · intro e he
    rcases List.mem_or_eq_of_mem_set he with he | rfl
    · exact h.cooldown e he
    · exact h.cooldown (c, p) hmem
  · refine pairwise_set alone_symm h.alone fun e he hine hinc => ?_
    rcases hin hinc with hold | ⟨hfree, -⟩
    · exact (pairwise_of_mem_eraseIdx alone_symm h.alone hx he hold hine).symm
    · have hout := List.all_eq_true.mp hfree e (List.mem_of_mem_eraseIdx he)
      rw [hine, Bool.true_and, Bool.not_eq_true', beq_eq_false_iff_ne] at hout
      exact hout
  · intro e he hadmits
    dsimp only
    rw [hlast]
    rcases List.mem_or_eq_of_mem_set he with he | rfl
    · exact h.noted e he hadmits
    · exact absurd hadmits hnot
  · intro e he hrule hine
    dsimp only
    rw [hlast]
    rcases List.mem_or_eq_of_mem_set he with he | rfl
    · exact h.cooled e he hrule hine
    · rcases hin hine with hold | ⟨-, hover⟩
      · exact h.cooled (c, p) hmem hrule hold
      · exact hover hrule
  · exact pairwise_set apart_symm h.apart fun e _ _ hadmits => absurd hadmits hnot

/-- A call that has the lock and ends with somebody admitted keeps the invariant: it brings a moment
a cooldown later than all that were admitted, and nobody else of the rule has the lock. -/
theorem Spaced.admit {g : Gate} (h : Spaced rule minutes g) (hpos : 0 < minutes) {place : Nat}
    {c : Call} {p p' : Progress} {l : Limiter} (hx : g.calls[place]? = some (c, p))
    (hin : p.isInside = true) (hout : p'.isInside = false)
    (hlast : l.lastSimilar = assign g.limiter.lastSimilar c.rule (some c.now)) :
    Spaced rule minutes ⟨l, g.calls.set place (c, p')⟩ := by
  have hmem := List.mem_of_getElem? hx
  have hkept : c.rule ≠ rule → l.lastSimilar rule = g.limiter.lastSimilar rule := fun hne => by
    rw [hlast, assign_of_ne (Ne.symm hne)]
  have hself : c.rule = rule → l.lastSimilar rule = some c.now := fun heq => by
    rw [hlast, heq, assign_self]
  have hbehind : c.rule = rule → ∀ e ∈ g.calls, Admits rule e → e.1.now.LeadsBy minutes c.now := by
    intro hrule e he hadmits
    obtain ⟨t, ht, hle⟩ := h.noted e he hadmits
    exact hle.of_le (h.cooled (c, p) hmem hrule hin t ht)
  refine ⟨?_, ?_, ?_, ?_, ?_⟩
  · intro e he
    rcases List.mem_or_eq_of_mem_set he with he | rfl
    · exact h.cooldown e he
    · exact h.cooldown (c, p) hmem
  · refine pairwise_set alone_symm h.alone fun e _ _ hinc => ?_
    exact absurd (hout.symm.trans hinc) Bool.false_ne_true
  · intro e he hadmits
    dsimp only
    by_cases hrule : c.rule = rule
    · rw [hself hrule]
      refine ⟨c.now, rfl, ?_⟩
      rcases List.mem_or_eq_of_mem_set he with he | rfl
      · exact (hbehind hrule e he hadmits).le hpos.le
      · exact Moment.leadsBy_self c.now
    · rw [hkept hrule]
      rcases List.mem_or_eq_of_mem_set he with he | rfl
      · exact h.noted e he hadmits
      · exact absurd hadmits.1 hrule
  · intro e he hrule hine t ht
    rcases mem_set_cases he with rfl | he
    · exact absurd (hout.symm.trans hine) Bool.false_ne_true
    · have hne := pairwise_of_mem_eraseIdx alone_symm h.alone hx he hin hine
      rw [hrule] at hne
      dsimp only at ht
      rw [hkept hne] at ht
      exact h.cooled e (List.mem_of_mem_eraseIdx he) hrule hine t ht
  · refine pairwise_set apart_symm h.apart fun e he hadmits hadmits' => ?_
    exact (hbehind hadmits'.1 e (List.mem_of_mem_eraseIdx he) hadmits).spacedBy.symm

/-- What a move may bring to the gate: a call of the rule comes with the one cooldown. -/
def Move.Fits (rule : RuleKey) (minutes : Int) : Move → Prop
  | .ask c => c.rule = rule → c.limits.cooldown = minutes
  | _ => True

/-- Every move keeps the invariant. -/
theorem Spaced.step {g g' : Gate} (h : Spaced rule minutes g) (hpos : 0 < minutes) {m : Move}
    (hm : m.Fits rule minutes) (hstep : g.step m = some g') : Spaced rule minutes g' := by
  cases m with
  | ask c =>
      rw [← Option.some.inj hstep]
      exact h.ask hm
  | advance place =>
      unfold Gate.step at hstep
      dsimp only at hstep
      split at hstep
      · rename_i c p hx
        split at hstep
        · rename_i hmay
          rw [← Option.some.inj hstep]
          have hunder : p = .waiting ∨ p.isInside = true := by
            cases p with
            | waiting => exact .inl rfl
            | counting left admitted => exact .inr rfl
            | finished answer => exact nomatch hmay
            | givenUp => exact nomatch hmay
          rcases Call.advance_cases (c := c) (l := g.limiter) hunder with
            ⟨hnone, hlast, hin⟩ | ⟨hin, hout, hlast⟩
          · refine h.put hx hnone hlast fun hinside => (hin hinside).imp_right ?_
            rintro ⟨rfl, hcooling⟩
            refine ⟨hmay, fun hrule t ht => ?_⟩
            have hcooldown := h.cooldown _ (List.mem_of_getElem? hx) hrule
            dsimp only at hcooldown
            rw [← hrule] at ht
            rw [← hcooldown] at hpos ⊢
            exact leadsBy_of_isCooling hpos hcooling ht
          · exact h.admit hpos hx hin hout hlast
        · exact nomatch hstep
      · exact nomatch hstep
  | giveUp place =>
      unfold Gate.step at hstep
      dsimp only at hstep
      split at hstep
      · exact nomatch hstep
      · rename_i c p _ hx
        rw [← Option.some.inj hstep]
        exact h.put hx rfl rfl fun hinside => nomatch hinside
      · exact nomatch hstep

/-- So does every row of moves. -/
theorem Spaced.play {ms : List Move} {g g' : Gate} (h : Spaced rule minutes g) (hpos : 0 < minutes)
    (hms : ∀ m ∈ ms, m.Fits rule minutes) (hplay : g.play ms = some g') : Spaced rule minutes g' := by
  induction ms generalizing g with
  | nil =>
      rw [← Option.some.inj hplay]
      exact h
  | cons m ms ih =>
      obtain ⟨e, he, hplay⟩ := Option.bind_eq_some_iff.mp hplay
      exact ih (h.step hpos (hms m List.mem_cons_self) he)
        (fun n hn => hms n (List.mem_cons_of_mem _ hn)) hplay

/-! ## The spacing of admissions -/

/-- **Admissions of a rule lie a cooldown apart.** However the calls at a gate come and go and
whatever moments they bring, as long as those of the rule come with the same cooldown, any two of
them that admitted somebody brought moments that are at least the cooldown apart. -/
theorem admissions_spacedBy (hpos : 0 < minutes) {ms : List Move} {g : Gate}
    (hms : ∀ m ∈ ms, m.Fits rule minutes) (hplay : (Gate.mk l []).play ms = some g) :
    g.calls.Pairwise fun d e =>
      d.1.rule = rule ∧ d.2.answered ≠ [] → e.1.rule = rule ∧ e.2.answered ≠ [] →
        d.1.now.SpacedBy minutes e.1.now :=
  ((spaced_nil rule minutes l).play hpos hms hplay).apart

/-- A call at some minutes after the start of the calendar, with similar ones an hour apart and one
admission in each hour. -/
def hourly (minute : Int) (scope : FrequencyScope) (recipients : List String) : Call :=
  ⟨⟨1, 9, 60, scope⟩, ⟨"ward", "warm"⟩, recipients, .atUtc (minute * Span.microsPerMinute)⟩

/-- Two calls overlap, and the one of the later moment gets the lock first: it is admitted for one of
its two recipients, since a call of another rule was for the other. The one of the earlier moment
finds the cooldown running, and one of a later hour is admitted. -/
def overlapping : List Move :=
  [.ask { hourly 0 .recipient ["porter"] with rule := ⟨"ward", "cold"⟩ }, .advance 0, .advance 0,
    .advance 0, .ask (hourly 10 .recipient ["keeper", "porter"]), .ask (hourly 5 .recipient ["keeper"]),
    .advance 1, .advance 1, .advance 1, .advance 1, .advance 2, .ask (hourly 70 .configuration ["keeper"]),
    .advance 3, .advance 3, .advance 3]

theorem admissions_spacedBy_overlapping :
    ∃ g, (Gate.mk fresh []).play overlapping = some g ∧
      g.calls.map (fun e => e.2.answered) = [["porter"], ["keeper"], [], ["keeper"]] ∧
      g.calls.Pairwise fun d e =>
        d.1.rule = ⟨"ward", "warm"⟩ ∧ d.2.answered ≠ [] →
          e.1.rule = ⟨"ward", "warm"⟩ ∧ e.2.answered ≠ [] → d.1.now.SpacedBy 60 e.1.now := by
  have hanswered : ((Gate.mk fresh []).play overlapping).map
      (fun g => g.calls.map fun e => e.2.answered)
        = some [["porter"], ["keeper"], [], ["keeper"]] := by decide +kernel
  obtain ⟨g, hplay, hcalls⟩ := Option.map_eq_some_iff.mp hanswered
  refine ⟨g, hplay, hcalls, admissions_spacedBy (by decide) (fun m hm => ?_) hplay⟩
  simp only [overlapping, List.mem_cons, List.not_mem_nil, or_false] at hm
  rcases hm with rfl | rfl | rfl | rfl | rfl | rfl | rfl | rfl | rfl | rfl | rfl | rfl | rfl | rfl | rfl
  all_goals first | exact fun _ => rfl | trivial

end Gate

end BuildingAlerts.Limiter
