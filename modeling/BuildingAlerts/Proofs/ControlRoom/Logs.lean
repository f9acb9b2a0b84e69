/-
The logs of alerts.

Only a wave of deliveries writes to the log of an alert, to that of its own alert, when all its
deliveries have ended, and what it writes are the identifiers that it carries. So the log of an
alert can be read off the history.
-/
import BuildingAlerts.Proofs.ControlRoom.Booked

set_option autoImplicit false

namespace BuildingAlerts

open Agenda

namespace Store

variable {s : Store} {r : AlertRef}

/-- The log of an alert, empty before it is there. -/
def logOf (s : Store) (r : AlertRef) : List String :=
  s.read (·.notifications) [] r

/-- What is added to the log of an alert. -/
theorem logOf_adjustAt {f : Alert → Alert} {q : AlertRef} {ids : List String}
    (hf : ∀ a, (f a).notifications = a.notifications ++ ids) (r : AlertRef) :
    (s.adjustAt q f).logOf r
      = s.logOf r ++ if q = r ∧ (s.find? r).isSome = true then ids else [] := by
  unfold logOf read
  rw [find?_adjustAt]
  by_cases hq : r = q
  · rw [if_pos hq]
    cases h : s.find? r with
    | none => rw [if_neg fun hq => nomatch hq.2]; rfl
    | some a =>
        rw [if_pos ⟨hq.symm, rfl⟩]
        exact hf a
  · rw [if_neg hq, if_neg fun h => hq h.1.symm, List.append_nil]

end Store

/-- Whether a wave has heard of all its deliveries, and well. -/
def Work.completes : Work → Wake Yield → Bool
  | .collecting _ left _ _, .arrived os =>
    (ControlRoom.arrivals os).2.isNone && decide (left - os.length = 0)
  | .escalating .., .gathered _ => true
  | _, _ => false

namespace ControlRoom

/-- What work writes to the log of an alert. -/
def logged (c : ControlRoom) (now : Instant) (w : Work) (wake : Wake Yield) (r : AlertRef) :
    List String :=
  if w.completes wake = true ∧ (c.clock? now).isSome = true ∧ w.concerns r = true ∧
    (c.store.find? r).isSome = true then w.carried wake else []

theorem logged_of_not_completes {c : ControlRoom} {now : Instant} {w : Work} {wake : Wake Yield}
    (hw : w.completes wake = false) (r : AlertRef) : c.logged now w wake r = [] :=
  if_neg fun h => Bool.false_ne_true (hw.symm.trans h.1)

/-- What a notification takes in completes it, or it waits on. -/
theorem completes_of_finish {now : Instant} {c : ControlRoom} {r : AlertRef} {left : Nat}
    {es : List String} {sequel : Sequel} {os : List (Outcome Yield)} {m : Moment}
    (hclock : c.clock? now = some m) (hnone : (arrivals os).2 = none) {out : Outcome Yield}
    (hends : (program now c (.collecting r left es sequel) (.arrived os)).next = .finish out) :
    (Work.collecting r left es sequel).completes (.arrived os) = true := by
  rw [program_of_clock hclock] at hends
  show ((arrivals os).2.isNone && decide (left - os.length = 0)) = true
  rw [hnone]
  have hends : (c.takeIn m r left es sequel os).next = .finish out := hends
  unfold takeIn at hends
  split at hends
  · rename_i harrivals
    rw [harrivals] at hnone
    exact nomatch hnone
  · dsimp only at hends
    split at hends
    · rename_i hleft
      exact decide_eq_true hleft
    · exact nomatch hends

/-- A notification that is told of deliveries writes when these were the last ones. -/
theorem logOf_takeIn (c : ControlRoom) (now : Moment) (q : AlertRef) (left : Nat)
    (es : List String) (sequel : Sequel) (os : List (Outcome Yield)) (r : AlertRef) :
    (c.takeIn now q left es sequel os).state.store.logOf r = c.store.logOf r ++
      if (Work.collecting q left es sequel).completes (.arrived os) = true ∧ q = r ∧
        (c.store.find? r).isSome = true then es ++ (arrivals os).1 else [] := by
  have hcompletes : (Work.collecting q left es sequel).completes (.arrived os) = true ↔
      (arrivals os).2 = none ∧ left - os.length = 0 := by
    show (_ && _) = true ↔ _
    rw [Bool.and_eq_true, Option.isNone_iff_eq_none, decide_eq_true_iff]
  unfold takeIn
  split
  · rename_i st harrivals
    rw [stopNotification_state, if_neg fun h => ?_, List.append_nil]
    rw [hcompletes, harrivals] at h
    exact nomatch h.1.1
  · rename_i ids harrivals
    rw [harrivals] at hcompletes ⊢
    dsimp only
    split
    · rename_i hleft
      rw [endNotification_state]
      have hadd : ∀ a : Alert, ({ a with notifications := a.notifications ++ (es ++ ids) } :
          Alert).notifications = a.notifications ++ (es ++ ids) := fun _ => rfl
      refine (Store.logOf_adjustAt hadd r).trans ?_
      congr 1
      exact if_congr (iff_and_self.mpr fun _ => hcompletes.mpr ⟨rfl, hleft⟩) rfl rfl
    · rename_i hleft
      rw [if_neg fun h => hleft (hcompletes.mp h.1).2, List.append_nil]
      rfl

theorem allowsNew_logOf (r : AlertRef) :
    Store.AllowsNew fun s t => t.logOf r = s.logOf r where
  refl _ := rfl
  trans h k := k.trans h
  add s _ ha := s.read_add ha.log r

/-- Work that completes no wave leaves all logs as they are. -/
theorem Writes.logOf {c : ControlRoom} {w : Work} {s : Store} (h : Writes c w s)
    (hcollecting : ∀ q left es sequel, w ≠ .collecting q left es sequel)
    (hescalating : ∀ q p s since booked, w ≠ .escalating q p s since booked) (r : AlertRef) :
    s.logOf r = c.store.logOf r := by
  cases h with
  | nothing => rfl
  | arrivals b s => exact (allowsNew_logOf r).run b s c.registry
  | logged q left es sequel ids => exact absurd rfl (hcollecting q left es sequel)
  | risen q p level s since =>
      exact Store.read_adjustAt q (fun a _ => List.append_nil a.notifications) r
  | rises q p s since booked ids => exact absurd rfl (hescalating q p s since booked)

/-- **What work writes to the logs of alerts.** -/
theorem logOf_program (now : Instant) (c : ControlRoom) {w : Work} (hw : w.IsManaged)
    (wake : Wake Yield) (r : AlertRef) :
    (program now c w wake).state.store.logOf r = c.store.logOf r ++ c.logged now w wake r := by
  cases hclock : c.clock? now with
  | none =>
      rw [program_of_no_clock hclock, stopWork_state c _ hw, logged, hclock,
        if_neg fun h => Bool.false_ne_true h.2.1, List.append_nil]
  | some m =>
      have hsome : (c.clock? now).isSome = true := by rw [hclock]; rfl
      have hnothing : w.completes wake = false →
          (program now c w wake).state.store.logOf r = c.store.logOf r →
            (program now c w wake).state.store.logOf r
              = c.store.logOf r ++ c.logged now w wake r := by
        intro hcompletes hsame
        rw [hsame, logged_of_not_completes hcompletes, List.append_nil]
      have hwrites := writes_program now c hw wake
      cases w with
      | collecting q left es sequel =>
          cases wake with
          | arrived os =>
              rw [program_of_clock hclock]
              refine (logOf_takeIn c m q left es sequel os r).trans ?_
              congr 1
              exact if_congr (and_congr_right fun _ => by
                rw [Work.concerns_collecting]
                exact ⟨fun h => ⟨hsome, h⟩, And.right⟩) rfl rfl
          | stopped st =>
              refine hnothing rfl ?_
              rw [program_of_clock hclock]
              exact congrArg (·.store.logOf r) (stopNotification_state c st sequel)
          | _ =>
              refine hnothing rfl ?_
              rw [program_of_clock hclock]
              rfl
      | escalating q p s since booked =>
          cases wake with
          | gathered ys =>
              rw [program_of_clock hclock]
              show (endEscalation _ m q p booked _).state.store.logOf r = _
              rw [endEscalation_state]
              have hadd : ∀ a : Alert, (a.escalate s since (ys.flatMap (·.ids))).notifications
                = a.notifications ++ ys.flatMap (·.ids) := fun _ => rfl
              refine (Store.logOf_adjustAt hadd r).trans ?_
              congr 1
              exact if_congr (by
                rw [Work.concerns_escalating]
                exact ⟨fun h => ⟨rfl, hsome, h⟩, fun h => h.2.2⟩) rfl rfl
          | stopped st =>
              refine hnothing rfl ?_
              rw [program_of_clock hclock]
              rfl
          | _ =>
              refine hnothing rfl ?_
              rw [program_of_clock hclock]
              rfl
      | _ =>
          exact hnothing rfl (hwrites.logOf (fun _ _ _ _ => nofun) (fun _ _ _ _ _ => nofun) r)

end ControlRoom

namespace Office

variable {p : Premises} {h : Past} {o : Office} {r : AlertRef}

/-! ## Logs in a run -/

/-- What a stint writes to the log of an alert. -/
def logged (r : AlertRef) (n : Doing) : List String :=
  n.state.logged n.now n.body n.wake r

/-- **The log of an alert is what its waves have written**, one after the other. The induction is on
the run. -/
theorem Premises.Run.logOf_eq (hr : p.Run h o) (r : AlertRef) :
    o.state.store.logOf r = h.reverse.flatMap (logged r) := by
  induction hr with
  | idle =>
      show (Store.empty.find? r).elim _ _ = _
      rw [Store.find?_eq_line]
      rfl
  | @step h a b place hr hb ih =>
      have hrun : p.Run h a := hr
      have hstep : p.Run _ b := hrun.step hb
      have hstate := state_of_stepAt hrun.keeps.numbered hb
      cases hs : Agenda.stintAt? a place with
      | none =>
          rw [hs] at hstate
          rw [hstate]
          exact ih
      | some n =>
          rw [hs] at hstate hstep
          obtain ⟨-, -, q, -, hof⟩ := stintAt?_eq_some hs
          have hmanaged := (hstep.mayBeDone n List.mem_cons_self).1
          have hlog := ControlRoom.logOf_program n.now n.state hmanaged n.wake r
          show b.state.store.logOf r = (n :: h).reverse.flatMap (logged r)
          rw [List.reverse_cons, List.flatMap_append, List.flatMap_singleton, ← ih, ← hof.state, hstate]
          exact hlog
  | @pass h a time hr hready htime ih =>
      rw [state_passTo]
      exact ih
  | @serve h a b hr hb ih =>
      obtain ⟨q, rfl⟩ := hb
      have hn : Agenda.Numbered a := (Premises.Run.keeps hr).numbered
      exact (read_serve hn q (fun hremedy h => (spared_of_remedy? hremedy h).2) r).trans ih

end Office

end BuildingAlerts
