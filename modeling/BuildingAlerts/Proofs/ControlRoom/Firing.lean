/-
Stages that are fired.

A booked escalation fires a stage when the next one is due, and the alert rises to the level of the
stage when its deliveries have ended. What was fired is related to the level of the alert and to the
work that goes on with it: it stays at or below the level that the work has reached, and there is no
more of it than that level says. A policy that fires no stage from its greatest number on then fires
no more than that number.
-/
import BuildingAlerts.Proofs.ControlRoom.Begun
import BuildingAlerts.Proofs.ControlRoom.Handover
import BuildingAlerts.Proofs.Notification.Stages

set_option autoImplicit false

namespace BuildingAlerts

open Agenda

/-! ## Policies -/

/-- What an alert and a policy must be like for a stage to be the next one. -/
structure Alert.Allows (a : Alert) (p : Policy) (s : Stage) : Prop where
  isOpen : a.isOpen = true
  most : a.escalationLevel < p.most
  stage : s ∈ p.stages
  level : a.escalationLevel < s.level
  acknowledged : ¬ (s.skipIfAcknowledged = true ∧ a.isAcknowledged = true)

/-- A stage comes next for an open alert that has not reached the most, unless it is skipped because
somebody has taken notice. -/
theorem Alert.nextStage?_eq_some {a : Alert} {p : Policy} {level : Int} {s : Stage} :
    a.nextStage? p level = some s ↔ a.isOpen = true ∧ level < p.most ∧ p.stageAfter level = some s ∧
      ¬ (s.skipIfAcknowledged = true ∧ a.isAcknowledged = true) := by
  have hskip : (!(s.skipIfAcknowledged && a.isAcknowledged)) = true ↔
      ¬ (s.skipIfAcknowledged = true ∧ a.isAcknowledged = true) := by
    rw [Bool.not_eq_true', ← Bool.not_eq_true, Bool.and_eq_true]
  unfold nextStage?
  split
  · rename_i hno
    rw [Bool.or_eq_true, Bool.not_eq_true', decide_eq_true_iff] at hno
    refine ⟨nofun, fun ⟨hopen, hmost, _⟩ => ?_⟩
    rcases hno with hno | hno
    · exact nomatch hno.symm.trans hopen
    · exact absurd hmost (Int.not_lt.mpr hno)
  · rename_i hgo
    rw [Bool.or_eq_true, Bool.not_eq_true', decide_eq_true_iff, not_or, Bool.not_eq_false] at hgo
    rw [Option.filter_eq_some_iff, hskip]
    exact ⟨fun h => ⟨hgo.1, Int.not_le.mp hgo.2, h⟩, fun h => h.2.2⟩

theorem Alert.allows_of_nextStage? {a : Alert} {p : Policy} {s : Stage}
    (h : a.nextStage? p a.escalationLevel = some s) : a.Allows p s := by
  obtain ⟨hopen, hmost, hafter, hskip⟩ := nextStage?_eq_some.mp h
  obtain ⟨hstage, hlevel⟩ := Policy.of_stageAfter hafter
  exact ⟨hopen, hmost, hstage, hlevel, hskip⟩

namespace ControlRoom

variable {c : ControlRoom} {now : Moment} {r : AlertRef} {p : Policy}

/-! ## Escalations -/

/-- The stage of an alert that a booked escalation fires, if one is due. -/
def dueStage? (c : ControlRoom) (now : Moment) (r : AlertRef) (p : Policy) : Option Stage := do
  let a ← c.store.find? r
  let s ← a.nextStage? p a.escalationLevel
  match a.untilDue (c.entriesOf a) s now with
  | .ok left => if 0 < left.micros then none else some s
  | .error _ => none

theorem dueStage?_eq_some {s : Stage} (h : c.dueStage? now r p = some s) :
    ∃ a left, c.store.find? r = some a ∧ a.nextStage? p a.escalationLevel = some s ∧
      a.untilDue (c.entriesOf a) s now = .ok left ∧ ¬ 0 < left.micros := by
  obtain ⟨a, ha, h⟩ := Option.bind_eq_some_iff.mp h
  obtain ⟨s', hs, h⟩ := Option.bind_eq_some_iff.mp h
  split at h
  · rename_i left hleft
    split at h
    · exact nomatch h
    · rename_i hdue
      obtain rfl := Option.some.inj h
      exact ⟨a, left, ha, hs, hleft, hdue⟩
  · exact nomatch h

/-- An escalation that is due sends its deliveries, or the alert rises at once. -/
theorem beginEscalation_of_due {s : Stage} (h : c.dueStage? now r p = some s) :
    (∃ rs : List DeliveryRequest, c.beginEscalation now r p none
      = c.goOn (.gather (rs.map fun x => .deliver x s.level) (.escalating r p s now true))) ∨
    c.beginEscalation now r p none = (c.rise r s now []).endEscalation now r p true [] := by
  obtain ⟨a, left, ha, hs, hleft, hdue⟩ := dueStage?_eq_some h
  unfold beginEscalation
  rw [ha]
  dsimp only [Option.getD_none, Option.isNone_none]
  rw [hs]
  dsimp only
  rw [hleft]
  dsimp only
  rw [if_neg hdue]
  split
  · exact .inr rfl
  · exact .inl ⟨_, rfl⟩

/-- An escalation that is not due ends. -/
theorem beginEscalation_of_not_due (h : c.dueStage? now r p = none) :
    (∃ f, c.beginEscalation now r p none = c.fail f) ∨
      c.beginEscalation now r p none = c.endEscalation now r p true [] := by
  unfold beginEscalation
  split
  · exact .inl ⟨_, rfl⟩
  · rename_i a ha
    dsimp only [Option.getD_none, Option.isNone_none]
    split
    · exact .inr rfl
    · rename_i s hs
      split
      · exact .inl ⟨_, rfl⟩
      · rename_i left hleft
        split
        · exact .inr rfl
        · rename_i hdue
          refine absurd h ?_
          unfold dueStage?
          rw [ha]
          dsimp only [Option.bind_eq_bind, Option.bind_some]
          rw [hs]
          dsimp only [Option.bind_some]
          rw [hleft]
          dsimp only
          rw [if_neg hdue]
          exact nofun

/-- An escalation goes on unless it is stopped. -/
theorem program_escalate (now : Instant) (c : ControlRoom) (q : AlertRef) (p : Policy)
    (level : Option Int) (wake : Wake Yield) :
    ((c.clock? now = none ∨ ∃ st, wake = .stopped st) ∧
        ∃ st, program now c (.escalate q p level) wake = c.stop st) ∨
      ∃ m, c.clock? now = some m ∧ (∀ st, wake ≠ .stopped st) ∧
        program now c (.escalate q p level) wake = c.beginEscalation m q p level := by
  unfold program
  split
  · rename_i m hm
    cases wake with
    | stopped st => exact .inl ⟨.inr ⟨st, rfl⟩, st, rfl⟩
    | _ => exact .inr ⟨m, hm, nofun, rfl⟩
  · rename_i hm
    exact .inl ⟨.inl hm, _, rfl⟩

/-- The alert rises when all deliveries of a stage have ended, unless the escalation is stopped. -/
theorem program_escalating (now : Instant) (c : ControlRoom) (q : AlertRef) (p : Policy)
    (s : Stage) (since : Moment) (booked : Bool) (wake : Wake Yield) :
    (∃ st, program now c (.escalating q p s since booked) wake = c.stop st) ∨
      ∃ m ys es, wake = .gathered ys ∧ program now c (.escalating q p s since booked) wake
        = (c.rise q s since es).endEscalation m q p booked es := by
  unfold program
  split
  · rename_i m _
    cases wake with
    | stopped st => exact .inl ⟨st, rfl⟩
    | gathered ys => exact .inr ⟨m, ys, _, rfl, rfl⟩
    | _ => exact .inl ⟨.cancelled, rfl⟩
  · exact .inl ⟨_, rfl⟩

/-- An alert that is there rises to the level of the stage. -/
theorem levelOf_rise (c : ControlRoom) {a : Alert} (ha : c.store.find? r = some a) (s : Stage)
    (since : Moment) (es : List String) : (c.rise r s since es).levelOf r = s.level := by
  refine Store.levelOf_of_find? (a := a.escalate s since es) ?_
  show (c.store.adjustAt r fun a => a.escalate s since es).find? r = _
  rw [Store.find?_adjustAt, if_pos rfl, ha]
  rfl

/-- A notification hands on to its deliveries, and those to the first escalation. -/
theorem successors_notification (now : Instant) (c : ControlRoom) {w : Work}
    (hw : w = .notify r ∨ ∃ left es sequel, w = .collecting r left es sequel)
    (wake : Wake Yield) : successors r (program now c w wake) = [] ∨
      ∃ v, successors r (program now c w wake) = [v] ∧
        ((∃ left es sequel, v = .collecting r left es sequel) ∨ ∃ p, v = .escalate r p none) := by
  unfold program
  rcases hw with rfl | ⟨left, es, sequel, rfl⟩
  · split
    · rename_i m _
      cases wake with
      | stopped st => exact .inl rfl
      | _ => exact (successors_beginAnnouncement c m r).imp_right And.right
    · exact .inl rfl
  · split
    · rename_i m _
      cases wake with
      | stopped st => exact .inl (successors_of_heirs_nil (heirs_stopNotification c st sequel))
      | arrived os => exact (successors_takeIn c m r left es sequel os).imp_right And.right
      | _ => exact .inl rfl
    · exact .inl (successors_of_heirs_nil (heirs_stopNotification c _ sequel))

/-- **Work that does not concern an alert leaves it on its level.** -/
theorem levelOf_program (now : Instant) (c : ControlRoom) {w : Work} (hw : w.IsManaged)
    (hr : w.concerns r = false) (wake : Wake Yield) :
    (program now c w wake).state.levelOf r = c.levelOf r := by
  refine (writes_program now c hw wake).levelOf ?_ ?_
  · rintro p level rfl
    exact of_decide_eq_false hr rfl
  · rintro p s since booked rfl
    exact of_decide_eq_false hr rfl

end ControlRoom

/-! ## What is fired -/

/-- What is fired of an alert: the stages, each with the policy that it belongs to. -/
abbrev Fired := List (Policy × Stage)

namespace Fired

/-- The latest first: the levels rise, the stages belong to their policies, and no policy fires more
stages than it may. -/
structure Fair (x : Fired) : Prop where
  rising : x.Pairwise fun y z => z.2.level < y.2.level
  stage : ∀ y ∈ x, y.2 ∈ y.1.stages
  most : ∀ y ∈ x, (x.length : Int) ≤ y.1.most
  one : ∀ y ∈ x, ∀ z ∈ x, y.1 = z.1

/-- All that was fired is of a policy and not above a level, and there is no more of it than the
level says. -/
structure Within (x : Fired) (p : Policy) (level : Int) : Prop where
  policy : ∀ y ∈ x, y.1 = p
  below : ∀ y ∈ x, y.2.level ≤ level
  count : (x.length : Int) ≤ level

theorem fair_nil : Fair [] :=
  ⟨.nil, fun _ h => absurd h List.not_mem_nil, fun _ h => absurd h List.not_mem_nil,
    fun _ h => absurd h List.not_mem_nil⟩

theorem within_nil (p : Policy) {level : Int} (h : 0 ≤ level) : Within [] p level :=
  ⟨fun _ h => absurd h List.not_mem_nil, fun _ h => absurd h List.not_mem_nil, h⟩

variable {x : Fired} {p : Policy} {s : Stage} {a : Alert}

/-- Firing the next stage. -/
theorem Within.fire (hw : Within x p a.escalationLevel) (ha : a.Allows p s) :
    Within ((p, s) :: x) p s.level where
  policy := List.forall_mem_cons.mpr ⟨rfl, hw.policy⟩
  below := List.forall_mem_cons.mpr ⟨Int.le_refl _, fun y hy =>
    Int.le_trans (hw.below y hy) (Int.le_of_lt ha.level)⟩
  count := by
    have hcount := hw.count
    have hlevel := ha.level
    rw [List.length_cons]
    omega

theorem Fair.fire (hx : Fair x) (hw : Within x p a.escalationLevel) (ha : a.Allows p s) :
    Fair ((p, s) :: x) where
  rising := List.pairwise_cons.mpr
    ⟨fun y hy => Int.lt_of_le_of_lt (hw.below y hy) ha.level, hx.rising⟩
  stage := List.forall_mem_cons.mpr ⟨ha.stage, hx.stage⟩
  most := by
    have hlength : (((p, s) :: x).length : Int) ≤ p.most := by
      have hcount := hw.count
      have hmost := ha.most
      rw [List.length_cons]
      omega
    exact List.forall_mem_cons.mpr ⟨hlength, fun y hy => hw.policy y hy ▸ hlength⟩
  one := by
    have hall : ∀ y ∈ (p, s) :: x, y.1 = p := (hw.fire ha).policy
    exact fun y hy z hz => (hall y hy).trans (hall z hz).symm

/-- What was fired of an alert suits the work that goes on with it. -/
def Suits (x : Fired) (level : Int) : Work → Prop
  | .notify _ | .collecting _ _ _ _ => x = []
  | .escalate _ p none => x.Within p level
  | .escalating _ p s _ true => x.Within p s.level
  | .escalate _ _ (some _) | .escalating _ _ _ _ false => False
  | _ => True

end Fired

/-- A task was told to stop, or one that it waited for has failed. -/
def Wake.isStopped {ρ : Type} : Wake ρ → Bool
  | .stopped _ => true
  | _ => false

theorem Wake.isStopped_eq_false {ρ : Type} {w : Wake ρ} :
    w.isStopped = false ↔ ∀ st, w ≠ .stopped st := by
  cases w with
  | stopped st => exact ⟨nofun, fun h => absurd rfl (h st)⟩
  | _ => exact ⟨fun _ => nofun, fun _ => rfl⟩

/-- The stage that a stint fires: it is an escalation of the alert that was booked and goes on, and
a stage is due. -/
def fired? (r : AlertRef) (n : Doing) : Option (Policy × Stage) :=
  match n.body with
  | .escalate q p none =>
    if q = r ∧ n.wake.isStopped = false then (n.state.clock? n.now).bind fun now =>
      (n.state.dueStage? now r p).map fun s => (p, s)
    else none
  | _ => none

/-- The stages of an alert that were fired, the latest first. -/
def fired (r : AlertRef) (h : Past) : Fired :=
  h.filterMap (fired? r)

theorem fired_cons (r : AlertRef) (n : Doing) (h : Past) :
    fired r (n :: h) = (fired? r n).toList ++ fired r h := by
  unfold fired
  rw [List.filterMap_cons]
  split
  · rename_i hn
    rw [hn]
    rfl
  · rename_i x hx
    rw [hx]
    rfl

/-- Only a booked escalation that goes on fires a stage. -/
theorem fired?_eq_some {r : AlertRef} {n : Doing} {x : Policy × Stage} (h : fired? r n = some x) :
    n.body = .escalate r x.1 none ∧ (∀ st, n.wake ≠ .stopped st) ∧
      ∃ now, n.state.clock? n.now = some now ∧ n.state.dueStage? now r x.1 = some x.2 := by
  unfold fired? at h
  split at h
  · rename_i q p hbody
    split at h
    · rename_i hq
      obtain ⟨now, hnow, h⟩ := Option.bind_eq_some_iff.mp h
      obtain ⟨s, hs, rfl⟩ := Option.map_eq_some_iff.mp h
      exact ⟨hq.1 ▸ hbody, Wake.isStopped_eq_false.mp hq.2, now, hnow, hs⟩
    · exact nomatch h
  · exact nomatch h

/-- A stage that is fired is allowed by its alert. -/
theorem allows_of_fired? {r : AlertRef} {n : Doing} {x : Policy × Stage}
    (h : fired? r n = some x) : ∃ a, n.state.store.find? r = some a ∧ a.Allows x.1 x.2 := by
  obtain ⟨-, -, now, -, hdue⟩ := fired?_eq_some h
  obtain ⟨a, -, ha, hs, -⟩ := ControlRoom.dueStage?_eq_some hdue
  exact ⟨a, ha, Alert.allows_of_nextStage? hs⟩

theorem fired?_of_ne {r : AlertRef} {n : Doing} (h : ∀ p, n.body ≠ .escalate r p none) :
    fired? r n = none := by
  cases hx : fired? r n with
  | none => rfl
  | some x => exact absurd (fired?_eq_some hx).1 (h x.1)

/-- What a booked escalation fires when it goes on is the stage that is due. -/
theorem fired?_of_escalate {r : AlertRef} {n : Doing} {p : Policy} {m : Moment}
    (hbody : n.body = .escalate r p none) (hm : n.state.clock? n.now = some m)
    (hgo : ∀ st, n.wake ≠ .stopped st) :
    fired? r n = (n.state.dueStage? m r p).map fun s => (p, s) := by
  unfold fired?
  rw [hbody]
  dsimp only
  rw [if_pos ⟨rfl, Wake.isStopped_eq_false.mpr hgo⟩, hm]
  rfl

/-- **What a booked escalation comes to.** If it fires nothing it ends and leaves all as it is. If it
fires a stage it starts the deliveries of the stage, or the alert rises at once. -/
theorem turn_of_escalate {r : AlertRef} {n : Doing} {p : Policy}
    (hbody : n.body = .escalate r p none) :
    (fired? r n = none ∧ (n.turn ControlRoom.program).state = n.state ∧
        ∃ out, (n.turn ControlRoom.program).next = .finish out) ∨
      ∃ s m, fired? r n = some (p, s) ∧
        (((n.turn ControlRoom.program).state = n.state ∧ ∃ rs : List DeliveryRequest,
            (n.turn ControlRoom.program).next
              = .gather (rs.map fun x => .deliver x s.level) (.escalating r p s m true)) ∨
          (n.turn ControlRoom.program).state = n.state.rise r s m [] ∧
            ∃ out, (n.turn ControlRoom.program).next = .finish out) := by
  have hends : ∀ (c : ControlRoom) (m : Moment) (es : List String),
      ∃ out, (c.endEscalation m r p true es).next = .finish out := fun c m es =>
    (ControlRoom.shaped_endEscalation (N := fun n => ∃ out, n = .finish out) (fun o => ⟨o, rfl⟩)
      m r p true es).next
  have hturn : n.turn ControlRoom.program
      = ControlRoom.program n.now n.state (.escalate r p none) n.wake := by
    unfold Stint.turn
    rw [hbody]
  rw [hturn]
  rcases ControlRoom.program_escalate n.now n.state r p none n.wake with
    ⟨hstop, st, hst⟩ | ⟨m, hm, hgo, hst⟩
  · rw [hst]
    refine .inl ⟨?_, rfl, _, rfl⟩
    cases hf : fired? r n with
    | none => rfl
    | some x =>
        obtain ⟨-, hwake, now, hnow, -⟩ := fired?_eq_some hf
        rcases hstop with hclock | ⟨st, hst⟩
        · exact nomatch hclock.symm.trans hnow
        · exact absurd hst (hwake st)
  · rw [hst, fired?_of_escalate hbody hm hgo]
    cases hdue : n.state.dueStage? m r p with
    | none =>
        refine .inl ⟨rfl, ?_⟩
        rcases ControlRoom.beginEscalation_of_not_due hdue with ⟨f, hf⟩ | hf
        · rw [hf]
          exact ⟨rfl, _, rfl⟩
        · rw [hf]
          exact ⟨ControlRoom.endEscalation_state .., hends ..⟩
    | some s =>
        refine .inr ⟨s, m, rfl, ?_⟩
        rcases ControlRoom.beginEscalation_of_due hdue with ⟨rs, hf⟩ | hf
        · rw [hf]
          exact .inl ⟨rfl, rs, rfl⟩
        · rw [hf]
          exact .inr ⟨ControlRoom.endEscalation_state .., hends ..⟩

namespace Fired

variable {r : AlertRef} {h : Past} {n : Doing}

/-- What the work on an alert hands on: one heir at most, which what was fired suits again. -/
structure HandsOn (r : AlertRef) (x : Fired) (t : Stretch) : Prop where
  fair : x.Fair
  level : 0 ≤ t.state.levelOf r
  one : (ControlRoom.successors r t).length ≤ 1
  suits : ∀ w ∈ ControlRoom.successors r t, x.Suits (t.state.levelOf r) w

/-- Work that hands nothing on. -/
theorem handsOn_nil {x : Fired} {t : Stretch} (hx : x.Fair) (hlevel : 0 ≤ t.state.levelOf r)
    (ht : ControlRoom.successors r t = []) : HandsOn r x t :=
  ⟨hx, hlevel, ht ▸ Nat.zero_le _, fun _ hw => absurd (ht ▸ hw) List.not_mem_nil⟩

theorem handsOn_singleton {x : Fired} {t : Stretch} {w : Work} (hx : x.Fair)
    (hlevel : 0 ≤ t.state.levelOf r) (ht : ControlRoom.successors r t = [w])
    (hw : x.Suits (t.state.levelOf r) w) : HandsOn r x t := by
  refine ⟨hx, hlevel, ht ▸ Nat.le_refl _, ?_⟩
  rw [ht]
  exact List.forall_mem_singleton.mpr hw

/-- An escalation that has ended hands on to the next one. -/
theorem handsOn_endEscalation {x : Fired} {c : ControlRoom} {p : Policy} (hx : x.Fair)
    (hw : x.Within p (c.levelOf r)) (now : Moment) (es : List String) :
    HandsOn r x (c.endEscalation now r p true es) := by
  have hlevel : 0 ≤ c.levelOf r := Int.le_trans (Int.natCast_nonneg _) hw.count
  have hstate := ControlRoom.endEscalation_state c now r p true es
  rcases ControlRoom.successors_endEscalation (r := r) c now r p true es with h | ⟨-, -, h⟩
  · refine handsOn_nil hx ?_ h
    rw [hstate]
    exact hlevel
  · refine handsOn_singleton hx ?_ h ?_
    · rw [hstate]
      exact hlevel
    · rw [hstate]
      exact hw

/-- **What a booked escalation hands on.** If it fires a stage, the alert is on the way to the level
of that stage. -/
theorem handsOn_escalate {p : Policy} (hbody : n.body = .escalate r p none)
    (hx : (fired r h).Fair) (hw : (fired r h).Within p (n.state.levelOf r))
    {a : Alert} (ha : n.state.store.find? r = some a) :
    HandsOn r (fired r (n :: h)) (n.turn ControlRoom.program) := by
  have hlevel : 0 ≤ n.state.levelOf r := Int.le_trans (Int.natCast_nonneg _) hw.count
  have hnone : fired? r n = none → fired r (n :: h) = fired r h := by
    intro hn
    rw [fired_cons, hn]
    rfl
  unfold Stint.turn
  rw [hbody]
  rcases ControlRoom.program_escalate n.now n.state r p none n.wake with
    ⟨hstop, st, hturn⟩ | ⟨m, hm, hgo, hturn⟩
  · rw [hturn, hnone ?_]
    · exact handsOn_nil hx hlevel rfl
    · cases hf : fired? r n with
      | none => rfl
      | some x =>
          obtain ⟨-, hwake, now, hnow, -⟩ := fired?_eq_some hf
          rcases hstop with hclock | ⟨st, hst⟩
          · exact nomatch hclock.symm.trans hnow
          · exact absurd hst (hwake st)
  · rw [hturn]
    have hfired := fired?_of_escalate hbody hm hgo
    cases hdue : n.state.dueStage? m r p with
    | none =>
        rw [hnone (by rw [hfired, hdue]; rfl)]
        rcases ControlRoom.beginEscalation_of_not_due hdue with ⟨f, hf⟩ | hf
        · rw [hf]
          exact handsOn_nil hx hlevel rfl
        · rw [hf]
          exact handsOn_endEscalation hx hw m []
    | some s =>
        obtain ⟨a', -, ha', hnext, -⟩ := ControlRoom.dueStage?_eq_some hdue
        obtain rfl := Option.some.inj (ha.symm.trans ha')
        have hallows := Alert.allows_of_nextStage? hnext
        have hlevelOf : n.state.levelOf r = a.escalationLevel := Store.levelOf_of_find? ha
        rw [hlevelOf] at hw
        have hcons : fired r (n :: h) = (p, s) :: fired r h := by
          rw [fired_cons, hfired, hdue]
          rfl
        rw [hcons]
        rcases ControlRoom.beginEscalation_of_due hdue with ⟨rs, hf⟩ | hf
        · rw [hf]
          refine handsOn_singleton (w := .escalating r p s m true) (hx.fire hw hallows) hlevel ?_
            (hw.fire hallows)
          exact (List.filter_cons_of_pos (Work.concerns_escalating.mpr rfl)).trans
            (congrArg (List.cons _) (ControlRoom.filter_concerns_map (fun _ => rfl) rs))
        · rw [hf]
          refine handsOn_endEscalation (hx.fire hw hallows) ?_ m []
          rw [ControlRoom.levelOf_rise n.state ha]
          exact hw.fire hallows

/-- The alert rises to the level of a stage that was fired. -/
theorem handsOn_escalating {p : Policy} {s : Stage} {since : Moment}
    (hbody : n.body = .escalating r p s since true) (hx : (fired r h).Fair)
    (hw : (fired r h).Within p s.level) (hlevel : 0 ≤ n.state.levelOf r)
    {a : Alert} (ha : n.state.store.find? r = some a) :
    HandsOn r (fired r (n :: h)) (n.turn ControlRoom.program) := by
  have hsame : fired r (n :: h) = fired r h := by
    rw [fired_cons, fired?_of_ne fun q hq => nomatch hbody.symm.trans hq]
    rfl
  unfold Stint.turn
  rw [hsame, hbody]
  rcases ControlRoom.program_escalating n.now n.state r p s since true n.wake with
    ⟨st, hturn⟩ | ⟨m, -, es, -, hturn⟩
  · rw [hturn]
    exact handsOn_nil hx hlevel rfl
  · rw [hturn]
    refine handsOn_endEscalation hx ?_ m es
    rw [ControlRoom.levelOf_rise n.state ha]
    exact hw

/-- Before its first escalation no stage of an alert was fired. -/
theorem handsOn_notification
    (hbody : n.body = .notify r ∨ ∃ left es sequel, n.body = .collecting r left es sequel)
    (hmanaged : n.body.IsManaged) (hx : fired r h = []) (hlevel : 0 ≤ n.state.levelOf r) :
    HandsOn r (fired r (n :: h)) (n.turn ControlRoom.program) := by
  have hescalate : ∀ q p level, n.body ≠ .escalate q p level := by
    intro q p l he
    rcases hbody with hb | ⟨left, es, sequel, hb⟩
    · exact nomatch hb.symm.trans he
    · exact nomatch hb.symm.trans he
  have hescalating : ∀ p s since booked, n.body ≠ .escalating r p s since booked := by
    intro p s since booked he
    rcases hbody with hb | ⟨left, es, sequel, hb⟩
    · exact nomatch hb.symm.trans he
    · exact nomatch hb.symm.trans he
  have hsame : fired r (n :: h) = [] := by
    rw [fired_cons, fired?_of_ne fun p => hescalate r p none, hx]
    rfl
  have hstate : (n.turn ControlRoom.program).state.levelOf r = n.state.levelOf r :=
    (ControlRoom.writes_program n.now n.state hmanaged n.wake).levelOf (hescalate r) hescalating
  rw [hsame]
  rw [← hstate] at hlevel
  rcases ControlRoom.successors_notification n.now n.state hbody n.wake with
    ht | ⟨w, ht, ⟨left, es, sequel, rfl⟩ | ⟨p, rfl⟩⟩
  · exact handsOn_nil fair_nil hlevel ht
  · exact handsOn_singleton fair_nil hlevel ht rfl
  · exact handsOn_singleton fair_nil hlevel ht (within_nil p hlevel)

/-- **Work on an alert hands on to one task at most**, which what was fired suits. -/
theorem handsOn_turn (hmanaged : n.body.IsManaged) (hbody : n.body.concerns r = true)
    (hx : (fired r h).Fair) (hsuits : (fired r h).Suits (n.state.levelOf r) n.body)
    (hlevel : 0 ≤ n.state.levelOf r) {a : Alert} (ha : n.state.store.find? r = some a) :
    HandsOn r (fired r (n :: h)) (n.turn ControlRoom.program) := by
  cases hn : n.body with
  | notify q =>
      rw [hn] at hbody hsuits
      obtain rfl := Work.concerns_notify.mp hbody
      exact handsOn_notification (.inl hn) hmanaged hsuits hlevel
  | collecting q left es sequel =>
      rw [hn] at hbody hsuits
      obtain rfl := Work.concerns_collecting.mp hbody
      exact handsOn_notification (.inr ⟨_, _, _, hn⟩) hmanaged hsuits hlevel
  | escalate q p level =>
      rw [hn] at hbody hsuits
      obtain rfl := Work.concerns_escalate.mp hbody
      cases level with
      | some l => exact hsuits.elim
      | none => exact handsOn_escalate hn hx hsuits ha
  | escalating q p s since booked =>
      rw [hn] at hbody hsuits
      obtain rfl := Work.concerns_escalating.mp hbody
      cases booked with
      | false => exact hsuits.elim
      | true => exact handsOn_escalating hn hx hsuits hlevel ha
  | _ =>
      rw [hn] at hbody
      exact nomatch hbody

end Fired

end BuildingAlerts
