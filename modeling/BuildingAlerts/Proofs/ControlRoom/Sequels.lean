/-
What comes after work on an alert.

Unless something fails, a notification that ends books the next escalation of its alert, if there
is one, and so does an escalation that was booked. On the way there they wait for their deliveries,
and an escalation that waits is one of the stage that is next.
-/
import BuildingAlerts.Proofs.ControlRoom.Appointments
import BuildingAlerts.Proofs.ControlRoom.Firing
import BuildingAlerts.Proofs.ControlRoom.Isolation

set_option autoImplicit false

namespace BuildingAlerts

open Agenda

/-! ## Giving up -/

/-- A delivery of which a notification hears was stopped. -/
def Wake.bringsFailure : Wake Yield → Bool
  | .arrived os => (ControlRoom.arrivals os).2.isSome
  | _ => false

/-- Somebody fails, or is stopped, or gives up. -/
def Office.Falters (n : Doing) : Prop :=
  Office.Fails n ∨ Office.GivesUp n ∨ n.wake.isStopped = true ∨ n.wake.bringsFailure = true

instance (n : Doing) : Decidable (Office.Falters n) :=
  inferInstanceAs (Decidable (_ ∨ _))

namespace ControlRoom

variable {c : ControlRoom} {now : Moment} {r : AlertRef} {p : Policy} {es : List String}

/-! ## The end of the work -/

/-- Work that ends books retries, and the next escalation of an alert if there is one. -/
structure Hands (r : AlertRef) (p : Policy) (t : Stretch) : Prop where
  ends : ∃ o, t.next = .finish o
  books : ∀ m ∈ t.appointments, (∃ e, IsRetryOf t.state e m) ∨ IsNextOf t.state r p m
  next : ∀ a s, t.state.store.find? r = some a → a.nextStage? p a.escalationLevel = some s →
    ∃ m ∈ t.appointments, IsNextOf t.state r p m

/-- Whoever asks for the next escalation gets an appointment if there is a next stage. -/
theorem isNextOf_of_nextStage? {m? : Option (Appointment Work)}
    (hm : c.escalationAppointment? now r p = .ok m?) {a : Alert} {s : Stage}
    (ha : c.store.find? r = some a) (hs : a.nextStage? p a.escalationLevel = some s) :
    ∃ m, m? = some m ∧ IsNextOf c r p m := by
  have hok := hm
  unfold escalationAppointment? at hm
  rw [ha] at hm
  dsimp only at hm
  rw [hs] at hm
  obtain ⟨left, -, hleft⟩ := bind_eq_ok_iff.mp hm
  obtain rfl := Except.ok.inj hleft
  exact ⟨_, rfl, isNextOf_of_eq hok⟩

/-- A notification of a pass that ends well. -/
theorem hands_endNotification
    (hok : ∀ st, (c.endNotification now r es (.book (some p))).next ≠ .finish (.error st)) :
    Hands r p (c.endNotification now r es (.book (some p))) := by
  have hbooks : ∀ m ∈ (c.endNotification now r es (.book (some p))).appointments,
      (∃ e, IsRetryOf c e m) ∨ IsNextOf c r p m := by
    intro m hm
    obtain ⟨policy, hpolicy, ⟨e, -, h⟩ | ⟨q, rfl, h⟩⟩ := mem_endNotification hm
    · exact .inl ⟨e, h⟩
    · obtain rfl := Option.some.inj (Sequel.book.inj hpolicy)
      exact .inr h
  have hstate := endNotification_state c now r es (.book (some p))
  refine ⟨?_, ?_, fun a s ha hs => ?_⟩
  · unfold endNotification
    dsimp only
    split
    · exact ⟨_, rfl⟩
    · exact ⟨_, rfl⟩
    · split
      · exact ⟨_, rfl⟩
      · exact ⟨_, rfl⟩
  · rw [hstate]
    exact hbooks
  · rw [hstate] at ha ⊢
    unfold endNotification at hok ⊢
    dsimp only at hok ⊢
    split at hok
    · exact absurd rfl (hok _)
    · rename_i hp
      exact nomatch hp
    · rename_i q hq
      obtain rfl := Option.some.inj hq
      split at hok
      · exact absurd rfl (hok _)
      · rename_i m? hm
        obtain ⟨m, rfl, hnext⟩ := isNextOf_of_nextStage? hm ha hs
        exact ⟨m, List.mem_append_right _ (Option.mem_toList.mpr rfl), hnext⟩

/-- A booked escalation that ends well. -/
theorem hands_endEscalation
    (hok : ∀ st, (c.endEscalation now r p true es).next ≠ .finish (.error st)) :
    Hands r p (c.endEscalation now r p true es) := by
  have hstate := endEscalation_state c now r p true es
  have hend : c.endEscalation now r p true es = c.followUp now r p es := rfl
  refine ⟨?_, fun m hm => ?_, fun a s ha hs => ?_⟩
  · rw [hend]
    unfold followUp
    dsimp only
    split
    · exact ⟨_, rfl⟩
    · split
      · exact ⟨_, rfl⟩
      · exact ⟨_, rfl⟩
  · rw [hstate]
    exact (mem_endEscalation hm).2.imp_left fun ⟨e, _, h⟩ => ⟨e, h⟩
  · rw [hstate] at ha ⊢
    rw [hend] at hok ⊢
    unfold followUp at hok ⊢
    dsimp only at hok ⊢
    split at hok
    · exact absurd rfl (hok _)
    · split at hok
      · exact absurd rfl (hok _)
      · rename_i m? hm
        obtain ⟨m, rfl, hnext⟩ := isNextOf_of_nextStage? hm ha hs
        exact ⟨m, List.mem_append_right _ (Option.mem_toList.mpr rfl), hnext⟩

/-! ## The work -/

/-- A notification goes on waiting for its deliveries. -/
def Collects (r : AlertRef) (p : Policy) (t : Stretch) : Prop :=
  ∃ left es, t.next.body? = some (.collecting r left es (.book (some p)))

/-- The next stage of an alert is fired, and waits for its deliveries. -/
structure Fires (r : AlertRef) (p : Policy) (c : ControlRoom) (t : Stretch) : Prop where
  state : t.state = c
  stage : ∃ a s since, c.store.find? r = some a ∧ a.nextStage? p a.escalationLevel = some s ∧
    t.next.body? = some (.escalating r p s since true)
  booksNothing : t.appointments = []

theorem sequels_beginNotification {s : Routing} {a : Alert} (ha : c.store.find? r = some a)
    (hroutes : ∀ f, (c.requests now s r a).1 ≠ .error f)
    (hok : ∀ st, (c.beginNotification now r s (.book (some p))).next ≠ .finish (.error st)) :
    Collects r p (c.beginNotification now r s (.book (some p))) ∨
      Hands r p (c.beginNotification now r s (.book (some p))) := by
  unfold beginNotification at hok ⊢
  rw [ha] at hok ⊢
  dsimp only at hok ⊢
  generalize c.requests now s r a = x at hroutes hok
  obtain ⟨result, d⟩ := x
  cases result with
  | error f => exact absurd rfl (hroutes f)
  | ok rs =>
      cases rs with
      | nil => exact .inr (hands_endNotification hok)
      | cons q rs => exact .inl ⟨_, _, rfl⟩

theorem sequels_takeIn {left : Nat} {os : List (Outcome Yield)}
    (hfine : (arrivals os).2 = none)
    (hok : ∀ st, (c.takeIn now r left es (.book (some p)) os).next ≠ .finish (.error st)) :
    Collects r p (c.takeIn now r left es (.book (some p)) os) ∨
      Hands r p (c.takeIn now r left es (.book (some p)) os) := by
  unfold takeIn at hok ⊢
  generalize arrivals os = x at hfine hok
  obtain ⟨ids, st⟩ := x
  obtain rfl := hfine
  dsimp only at hok ⊢
  split
  · rename_i hleft
    rw [if_pos hleft] at hok
    exact .inr (hands_endNotification hok)
  · exact .inl ⟨_, _, rfl⟩

theorem sequels_beginEscalation
    (hok : ∀ st, (c.beginEscalation now r p none).next ≠ .finish (.error st)) :
    Fires r p c (c.beginEscalation now r p none) ∨
      Hands r p (c.beginEscalation now r p none) := by
  have hend : ∀ {d : ControlRoom},
      (∀ st, (d.endEscalation now r p true []).next ≠ .finish (.error st)) →
        Hands r p (d.endEscalation now r p true []) :=
    hands_endEscalation
  unfold beginEscalation at hok ⊢
  split
  · rename_i hnone
    rw [hnone] at hok
    exact absurd rfl (hok _)
  · rename_i a ha
    rw [ha] at hok
    dsimp only at hok
    split
    · rename_i hs
      rw [hs] at hok
      exact .inr (hend hok)
    · rename_i s hs
      rw [hs] at hok
      dsimp only at hok
      split
      · rename_i f hf
        rw [hf] at hok
        exact absurd rfl (hok _)
      · rename_i left hleft
        rw [hleft] at hok
        dsimp only at hok
        split
        · rename_i hdue
          rw [if_pos hdue] at hok
          exact .inr (hend hok)
        · rename_i hdue
          rw [if_neg hdue] at hok
          split
          · rename_i hrs
            rw [hrs] at hok
            exact .inr (hend hok)
          · exact .inl ⟨rfl, ⟨a, s, now, ha, hs, rfl⟩, rfl⟩

end ControlRoom

namespace Office

variable {n : Doing} {r : AlertRef} {p : Policy}

/-- Whoever does not fail ends with no error. -/
theorem next_of_not_falters (hn : ¬ Falters n) (st : Stop) :
    (n.turn ControlRoom.program).next ≠ .finish (.error st) :=
  fun h => hn (.inl ⟨st, h⟩)

/-- What becomes of a notification when it begins. -/
theorem sequels_notify (hbody : n.body = .notify r) (hwake : n.wake = .start) (hn : ¬ Falters n)
    {a : Alert} {k : Configuration} (ha : n.state.store.find? r = some a)
    (hk : n.state.configurations.get? a.configurationId = some k) (hp : k.policy = some p) :
    ControlRoom.Collects r p (n.turn ControlRoom.program) ∨
      ControlRoom.Hands r p (n.turn ControlRoom.program) := by
  have hok := next_of_not_falters hn
  unfold Stint.turn at hok ⊢
  rw [hbody, hwake] at hok ⊢
  cases hclock : n.state.clock? n.now with
  | none =>
      rw [ControlRoom.program_of_no_clock hclock] at hok
      exact absurd rfl (hok _)
  | some m =>
      rw [ControlRoom.program_of_clock hclock] at hok ⊢
      have hturn : n.state.goOnWith m (.notify r) .start
          = n.state.beginNotification m r k.routing (.book (some p)) := by
        show n.state.beginAnnouncement m r = _
        unfold ControlRoom.beginAnnouncement
        rw [ha, Option.bind_some, hk, ← hp]
      rw [hturn] at hok ⊢
      refine ControlRoom.sequels_beginNotification ha (fun f hf => hn (.inr (.inl ?_))) hok
      exact .inl ⟨r, hbody, m, a, k, f, hclock, ha, hk, hf⟩

/-- What becomes of a notification that waits for its deliveries. -/
theorem sequels_collecting {left : Nat} {es : List String}
    (hbody : n.body = .collecting r left es (.book (some p))) (hn : ¬ Falters n) :
    ControlRoom.Collects r p (n.turn ControlRoom.program) ∨
      ControlRoom.Hands r p (n.turn ControlRoom.program) := by
  have hok := next_of_not_falters hn
  have hstop : n.wake.isStopped = false :=
    Bool.not_eq_true _ ▸ fun h => hn (.inr (.inr (.inl h)))
  have hfine : n.wake.bringsFailure = false :=
    Bool.not_eq_true _ ▸ fun h => hn (.inr (.inr (.inr h)))
  unfold Stint.turn at hok ⊢
  rw [hbody] at hok ⊢
  generalize n.wake = wake at hok hstop hfine
  cases hclock : n.state.clock? n.now with
  | none =>
      rw [ControlRoom.program_of_no_clock hclock] at hok
      exact absurd rfl (hok _)
  | some m =>
      rw [ControlRoom.program_of_clock hclock] at hok ⊢
      cases wake with
      | arrived os =>
          exact ControlRoom.sequels_takeIn (Option.not_isSome_iff_eq_none.mp (by
            rw [show (ControlRoom.arrivals os).2.isSome = false from hfine]
            exact Bool.false_ne_true)) hok
      | stopped st => exact nomatch hstop
      | _ => exact absurd rfl (hok _)

/-- What becomes of an escalation that was booked. -/
theorem sequels_escalate (hbody : n.body = .escalate r p none) (hn : ¬ Falters n) :
    ControlRoom.Fires r p n.state (n.turn ControlRoom.program) ∨
      ControlRoom.Hands r p (n.turn ControlRoom.program) := by
  have hok := next_of_not_falters hn
  unfold Stint.turn at hok ⊢
  rw [hbody] at hok ⊢
  rcases ControlRoom.program_escalate n.now n.state r p none n.wake with
    ⟨-, st, h⟩ | ⟨m, -, -, h⟩
  · rw [h] at hok
    exact absurd rfl (hok st)
  · rw [h] at hok ⊢
    exact ControlRoom.sequels_beginEscalation hok

/-- What becomes of an escalation that waits for its deliveries. -/
theorem hands_escalating {s : Stage} {since : Moment}
    (hbody : n.body = .escalating r p s since true) (hn : ¬ Falters n) :
    ControlRoom.Hands r p (n.turn ControlRoom.program) := by
  have hok := next_of_not_falters hn
  unfold Stint.turn at hok ⊢
  rw [hbody] at hok ⊢
  cases hclock : n.state.clock? n.now with
  | none =>
      rw [ControlRoom.program_of_no_clock hclock] at hok
      exact absurd rfl (hok _)
  | some m =>
      rw [ControlRoom.program_of_clock hclock] at hok ⊢
      generalize n.wake = wake at hok
      cases wake with
      | gathered ys => exact ControlRoom.hands_endEscalation hok
      | _ => exact absurd rfl (hok _)

end Office

end BuildingAlerts
