/-
What work books.

The appointment for a retry names the delivery in its key and is made for the alert of the
delivery; the one for an escalation names the alert and the level of the next stage. Here is told
which work books which of them: a wave of deliveries that ends books retries of what it carried
and the next escalation of its alert, and a retry that was booked books another one of what it was
asked for.
-/
import BuildingAlerts.Proofs.ControlRoom.Booked

set_option autoImplicit false

namespace BuildingAlerts

open Agenda

namespace ControlRoom

variable {c d : ControlRoom} {now : Moment} {q : AlertRef} {p : Policy} {es : List String}
  {e : String} {m : Appointment Work}

/-! ## Appointments -/

/-- The appointment for a retry of a delivery. -/
structure IsRetryOf (c : ControlRoom) (e : String) (m : Appointment Work) : Prop where
  entry : ∃ x, c.journal.get? e = some x ∧ m.alertId = some x.alertId
  key : m.key = retryKey e
  body : m.body = .retry [e] c.setup.maxRetries true

/-- The appointment for the next escalation of an alert. -/
structure IsNextOf (c : ControlRoom) (q : AlertRef) (p : Policy) (m : Appointment Work) : Prop where
  stage : ∃ a s, c.store.find? q = some a ∧ a.nextStage? p a.escalationLevel = some s ∧
    m.key = escalationKey q.id s.level
  alertId : m.alertId = some q.id
  body : m.body = .escalate q p none

theorem IsRetryOf.congr (hm : IsRetryOf c e m) (hsetup : d.setup = c.setup)
    (hjournal : d.journal = c.journal) : IsRetryOf d e m where
  entry := hjournal ▸ hm.entry
  key := hm.key
  body := hsetup ▸ hm.body

theorem isRetryOf_of_mem (hm : m ∈ (c.retryAppointments now es).1) :
    ∃ e ∈ es, IsRetryOf c e m := by
  induction es with
  | nil => exact absurd hm List.not_mem_nil
  | cons e es ih =>
      unfold retryAppointments at hm
      split at hm
      · exact absurd hm List.not_mem_nil
      · rename_i m? he
        rcases List.mem_append.mp hm with hm | hm
        · obtain rfl := Option.mem_toList.mp hm
          obtain ⟨hbody, x, hx, -⟩ := of_retryAppointment? he
          unfold retryAppointment? at he
          obtain ⟨d?, -, hd⟩ := bind_eq_ok_iff.mp he
          obtain ⟨d, rfl, rfl⟩ := Option.map_eq_some_iff.mp (Except.ok.inj hd)
          refine ⟨e, List.mem_cons_self, ⟨x, hx, ?_⟩, rfl, hbody⟩
          dsimp only
          rw [hx]
          rfl
        · obtain ⟨e', he', h⟩ := ih hm
          exact ⟨e', List.mem_cons_of_mem e he', h⟩

theorem isNextOf_of_eq (hm : c.escalationAppointment? now q p = .ok (some m)) :
    IsNextOf c q p m := by
  have hbody := body_of_escalationAppointment? hm
  unfold escalationAppointment? at hm
  split at hm
  · exact nomatch hm
  · rename_i a ha
    split at hm
    · exact nomatch hm
    · rename_i s hs
      obtain ⟨left, -, hm⟩ := bind_eq_ok_iff.mp hm
      obtain rfl := Option.some.inj (Except.ok.inj hm)
      exact ⟨⟨a, s, ha, hs, rfl⟩, rfl, hbody⟩

/-! ## Who books -/

theorem appointments_of_heirs_nil {s : Stretch} (hs : s.heirs = []) : s.appointments = [] :=
  List.map_eq_nil_iff.mp (List.append_eq_nil_iff.mp (List.append_eq_nil_iff.mp hs).2).1

theorem mem_endNotification {sequel : Sequel}
    (hm : m ∈ (c.endNotification now q es sequel).appointments) :
    ∃ policy, sequel = .book policy ∧
      ((∃ e ∈ es, IsRetryOf c e m) ∨ ∃ p, policy = some p ∧ IsNextOf c q p m) := by
  unfold endNotification at hm
  split at hm
  · exact absurd hm List.not_mem_nil
  · rename_i policy
    refine ⟨policy, rfl, ?_⟩
    dsimp only at hm
    split at hm
    · exact .inl (isRetryOf_of_mem hm)
    · exact .inl (isRetryOf_of_mem hm)
    · rename_i p _
      split at hm
      · exact .inl (isRetryOf_of_mem hm)
      · rename_i m? hm?
        rcases List.mem_append.mp hm with hm | hm
        · exact .inl (isRetryOf_of_mem hm)
        · obtain rfl := Option.mem_toList.mp hm
          exact .inr ⟨p, rfl, isNextOf_of_eq hm?⟩

theorem mem_endEscalation {booked : Bool}
    (hm : m ∈ (c.endEscalation now q p booked es).appointments) :
    booked = true ∧ ((∃ e ∈ es, IsRetryOf c e m) ∨ IsNextOf c q p m) := by
  unfold endEscalation at hm
  split at hm
  · rename_i hbooked
    refine ⟨hbooked, ?_⟩
    unfold followUp at hm
    dsimp only at hm
    split at hm
    · exact .inl (isRetryOf_of_mem hm)
    · split at hm
      · exact .inl (isRetryOf_of_mem hm)
      · rename_i m? hm?
        rcases List.mem_append.mp hm with hm | hm
        · exact .inl (isRetryOf_of_mem hm)
        · obtain rfl := Option.mem_toList.mp hm
          exact .inr (isNextOf_of_eq hm?)
  · exact absurd hm List.not_mem_nil

theorem mem_endRetry {tried : List String} {most : Int} {again : Bool}
    (hm : m ∈ (c.endRetry now tried es most again).appointments) :
    again = true ∧ ∃ e ∈ es, IsRetryOf (c.endRetry now tried es most again).state e m := by
  unfold endRetry at hm ⊢
  dsimp only at hm ⊢
  split at hm
  · rename_i hagain
    rw [if_pos hagain]
    exact ⟨hagain, isRetryOf_of_mem hm⟩
  · exact absurd hm List.not_mem_nil

/-- Who books which appointment, with the room after the work. -/
inductive Books (d : ControlRoom) (m : Appointment Work) : Work → Wake Yield → Prop where
  /-- A notification has ended, and one of its deliveries is tried again. -/
  | notified {q : AlertRef} {left : Nat} {es : List String} {policy : Option Policy}
      {wake : Wake Yield} {e : String}
      (he : e ∈ (Work.collecting q left es (.book policy)).carried wake) (hm : IsRetryOf d e m) :
      Books d m (.collecting q left es (.book policy)) wake
  /-- An escalation has ended, and one of its deliveries is tried again. -/
  | escalated {q : AlertRef} {p : Policy} {s : Stage} {since : Moment} {wake : Wake Yield}
      {e : String} (he : e ∈ (Work.escalating q p s since true).carried wake)
      (hm : IsRetryOf d e m) : Books d m (.escalating q p s since true) wake
  /-- A retry found nothing to do yet. -/
  | waited {es : List String} {most : Int} {wake : Wake Yield} {e : String} (he : e ∈ es)
      (hm : IsRetryOf d e m) : Books d m (.retry es most true) wake
  /-- A retry has ended, and the delivery is tried once more. -/
  | retried {es : List String} {most : Int} {wake : Wake Yield} {e : String} (he : e ∈ es)
      (hm : IsRetryOf d e m) : Books d m (.retrying es most true) wake
  /-- The next escalation of an alert. -/
  | next {q : AlertRef} {p : Policy} {w : Work} {wake : Wake Yield}
      (hw : w.concerns q = true) (hm : IsNextOf d q p m) : Books d m w wake

theorem books_beginNotification {r : Routing} {policy : Option Policy} {wake : Wake Yield}
    (hm : m ∈ (c.beginNotification now q r (.book policy)).appointments) :
    Books (c.beginNotification now q r (.book policy)).state m (.notify q) wake := by
  unfold beginNotification at hm ⊢
  split at hm
  · exact absurd hm List.not_mem_nil
  · split at hm
    · rw [appointments_of_heirs_nil (heirs_stopNotification _ _ _)] at hm
      exact absurd hm List.not_mem_nil
    · rename_i a _ d hd
      obtain ⟨_, -, ⟨e, he, -⟩ | ⟨p, -, hm⟩⟩ := mem_endNotification hm
      · exact absurd he List.not_mem_nil
      · refine .next (decide_eq_true rfl) (p := p) ?_
        rw [endNotification_state]
        exact hm
    · exact absurd hm List.not_mem_nil

theorem books_beginAnnouncement {wake : Wake Yield}
    (hm : m ∈ (c.beginAnnouncement now q).appointments) :
    Books (c.beginAnnouncement now q).state m (.notify q) wake := by
  unfold beginAnnouncement at hm ⊢
  split at hm
  · exact absurd hm List.not_mem_nil
  · exact books_beginNotification hm

theorem books_takeIn {left : Nat} {sequel : Sequel} {os : List (Outcome Yield)}
    (hm : m ∈ (c.takeIn now q left es sequel os).appointments) :
    Books (c.takeIn now q left es sequel os).state m (.collecting q left es sequel)
      (.arrived os) := by
  unfold takeIn at hm ⊢
  split at hm
  · rw [appointments_of_heirs_nil (heirs_stopNotification _ _ _)] at hm
    exact absurd hm List.not_mem_nil
  · rename_i ids harrived
    dsimp only at hm ⊢
    split at hm
    · rename_i hleft
      rw [if_pos hleft, endNotification_state]
      obtain ⟨policy, rfl, ⟨e, he, hm⟩ | ⟨p, -, hm⟩⟩ := mem_endNotification hm
      · refine .notified (e := e) ?_ hm
        show e ∈ es ++ (arrivals os).1
        rw [harrived]
        exact he
      · exact .next (decide_eq_true rfl) hm
    · exact absurd hm List.not_mem_nil

theorem books_beginRetry {most : Int} {again : Bool} {wake : Wake Yield}
    (hm : m ∈ (c.beginRetry now es most again).appointments) :
    Books (c.beginRetry now es most again).state m (.retry es most again) wake := by
  unfold beginRetry at hm ⊢
  split at hm
  · exact absurd hm List.not_mem_nil
  · obtain ⟨rfl, e, he, hm⟩ := mem_endRetry hm
    exact .waited he hm
  · exact absurd hm List.not_mem_nil

theorem books_beginEscalation {level : Option Int} {wake : Wake Yield}
    (hm : m ∈ (c.beginEscalation now q p level).appointments) :
    Books (c.beginEscalation now q p level).state m (.escalate q p level) wake := by
  have hend : ∀ {d : ControlRoom}, m ∈ (d.endEscalation now q p level.isNone []).appointments →
      Books (d.endEscalation now q p level.isNone []).state m (.escalate q p level) wake := by
    intro d hm
    rw [endEscalation_state]
    obtain ⟨-, ⟨e, he, -⟩ | hm⟩ := mem_endEscalation hm
    · exact absurd he List.not_mem_nil
    · exact .next (decide_eq_true rfl) hm
  unfold beginEscalation at hm ⊢
  split at hm
  · exact absurd hm List.not_mem_nil
  · split at hm
    · exact hend hm
    · split at hm
      · exact absurd hm List.not_mem_nil
      · split at hm
        · rename_i hdue
          rw [if_pos hdue]
          exact hend hm
        · rename_i hdue
          rw [if_neg hdue]
          split at hm
          · exact hend hm
          · exact absurd hm List.not_mem_nil

/-- **Who books what.** -/
theorem books_program (now : Instant) (c : ControlRoom) {w : Work} (hw : w.IsManaged)
    {wake : Wake Yield} (hm : m ∈ (program now c w wake).appointments) :
    Books (program now c w wake).state m w wake := by
  have hnil : (program now c w wake).appointments = [] → Books (program now c w wake).state m w wake :=
    fun h => absurd hm (h ▸ List.not_mem_nil)
  by_cases hpass : w.IsOfPass
  · obtain ⟨n, hn⟩ := program_of_isOfPass now c hpass wake
    exact hnil (by rw [hn])
  · by_cases hdelivery : w.IsDelivery
    · exact hnil (appointments_of_isDelivery now c hdelivery wake)
    · cases hclock : c.clock? now with
      | none =>
          refine hnil ?_
          rw [program_of_no_clock hclock]
          exact appointments_of_heirs_nil (heirs_stopWork c _ hw)
      | some t =>
          rw [program_of_clock hclock] at hm hnil ⊢
          unfold goOnWith at hm hnil ⊢
          split at hm
          · exact hnil (appointments_of_heirs_nil (heirs_stopWork c _ hw))
          · exact hw.elim
          · exact hw.elim
          · exact absurd (isOfPass_of_isManaged hw (.inl ⟨_, rfl⟩)).2 hpass
          · exact absurd (isOfPass_of_isManaged hw (.inr (.inl ⟨_, rfl⟩))).2 hpass
          · exact absurd (isOfPass_of_isManaged hw (.inr (.inr ⟨_, rfl⟩))).2 hpass
          · exact absurd hm List.not_mem_nil
          · exact books_beginAnnouncement hm
          · exact hw.elim
          · exact books_takeIn hm
          · exact absurd (.inl ⟨_, _, rfl⟩) hdelivery
          · exact absurd (.inr ⟨_, decide_eq_true rfl⟩) hdelivery
          · exact absurd (.inr ⟨_, decide_eq_true rfl⟩) hdelivery
          · exact absurd (.inr ⟨_, decide_eq_true rfl⟩) hdelivery
          · exact absurd (.inr ⟨_, decide_eq_true rfl⟩) hdelivery
          · exact absurd (.inr ⟨_, decide_eq_true rfl⟩) hdelivery
          · exact hw.elim
          · exact hw.elim
          · exact books_beginRetry hm
          · obtain ⟨rfl, e, he, hm⟩ := mem_endRetry hm
            exact .retried he hm
          · exact books_beginEscalation hm
          · dsimp only at hm ⊢
            rw [endEscalation_state]
            obtain ⟨rfl, ⟨e, he, hm⟩ | hm⟩ := mem_endEscalation hm
            · exact .escalated he hm
            · exact .next (decide_eq_true rfl) hm
          · exact absurd hm List.not_mem_nil

end ControlRoom

end BuildingAlerts
