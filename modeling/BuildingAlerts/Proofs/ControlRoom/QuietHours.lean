/-
When deliveries are attempted.

Quiet hours are looked at where a notification begins, and all deliveries of the notification
begin in that same instant: none of them is attempted while the alert is to be held back. Nothing
looks at quiet hours after that. Retries and escalations do what they do whatever the
configurations are, so they attempt deliveries in quiet hours as at any other time.
-/
import BuildingAlerts.Proofs.ControlRoom.Passes

set_option autoImplicit false

namespace BuildingAlerts

open Agenda

namespace QuietHours

/-- An alert is to be held back: it is neither critical nor an exception, the quiet hours are in
force, and the moment is within them. -/
structure Holds (q : QuietHours) (a : Alert) (m : Moment) : Prop where
  enabled : q.enabled = true
  severity : a.severity ≠ some .critical
  exception : a.id ∉ q.exceptions
  within : isWithinHours m q.start q.finish q.zone = .ok true

theorem suppresses_iff_holds {q : QuietHours} {a : Alert} {m : Moment} :
    q.suppresses a.id a.severity m = .ok true ↔ q.Holds a m := by
  unfold suppresses
  constructor
  · intro h
    split at h
    · exact nomatch Except.ok.inj h
    · rename_i hlets
      simp only [Bool.or_eq_true, Bool.not_eq_true', beq_iff_eq, List.contains_iff_mem,
        not_or, Bool.not_eq_false] at hlets
      exact ⟨hlets.1.1, hlets.1.2, hlets.2, h⟩
  · intro h
    rw [if_neg, h.within]
    simp only [Bool.or_eq_true, Bool.not_eq_true', beq_iff_eq, List.contains_iff_mem,
      not_or, Bool.not_eq_false]
    exact ⟨⟨h.enabled, h.severity⟩, h.exception⟩

instance (q : QuietHours) (a : Alert) (m : Moment) : Decidable (q.Holds a m) :=
  decidable_of_iff _ suppresses_iff_holds

end QuietHours

/-- The room with other configurations. -/
def ControlRoom.under (c : ControlRoom) (cs : Table Configuration) : ControlRoom :=
  { c with configurations := cs }

/-- A stretch of work, but for the configurations that are there after it. -/
def Turn.under (t : Stretch) (cs : Table Configuration) : Stretch :=
  { t with state := t.state.under cs }

namespace ControlRoom

/-! ## What a notification delivers -/

/-- Only an alert that is not held back has requests. -/
theorem not_suppressed_of_requests {c d : ControlRoom} {now : Moment} {r : Routing}
    {alert : AlertRef} {a : Alert} {qs : List DeliveryRequest}
    (h : c.requests now r alert a = (.ok qs, d)) (hne : qs ≠ []) :
    r.quietHours.suppresses a.id a.severity now = .ok false ∧ ∀ q ∈ qs, q.alert = alert := by
  unfold requests at h
  split at h
  · exact nomatch (Prod.mk.inj h).1
  · rename_i ts hts
    have hadmitted : ∀ us, (c.admitted now r a ts).1 = .ok us →
        qs = us.map ((c.admitted now r a ts).2.requestFor alert a) := by
      intro us hus
      dsimp only at h
      rw [hus] at h
      exact (Except.ok.inj (Prod.mk.inj h).1).symm
    obtain ⟨us, hus⟩ : ∃ us, (c.admitted now r a ts).1 = .ok us := by
      cases hus : (c.admitted now r a ts).1 with
      | error f =>
          dsimp only at h
          rw [hus] at h
          exact nomatch (Prod.mk.inj h).1
      | ok us => exact ⟨us, rfl⟩
    have hqs := hadmitted us hus
    refine ⟨?_, fun q hq => ?_⟩
    · unfold candidates at hts
      obtain ⟨held, hheld, hts⟩ := bind_eq_ok_iff.mp hts
      cases held with
      | false => exact hheld
      | true =>
          -- where the alert is held back there is nobody to admit
          obtain rfl : [] = ts := Except.ok.inj hts
          have hempty : (c.admitted now r a []).1 = .ok [] := rfl
          obtain rfl := Except.ok.inj (hempty.symm.trans hus)
          exact absurd hqs hne
    · rw [hqs] at hq
      obtain ⟨t, -, rfl⟩ := List.mem_map.mp hq
      rfl

/-- A notification that starts a delivery was not to be held back. -/
theorem not_held_of_notification {now : Instant} {c : ControlRoom} {r : AlertRef} {w : Work}
    (hw : w ∈ (program now c (.notify r) .start).next.children) :
    ∃ a k m q, c.store.find? r = some a ∧ c.configurations.get? a.configurationId = some k ∧
      c.clock? now = some m ∧ w = .deliver q 0 ∧ q.alert = r ∧
      k.routing.quietHours.suppresses a.id a.severity m = .ok false := by
  unfold program at hw
  split at hw
  · rename_i m hm
    have hbegin : c.goOnWith m (.notify r) .start = c.beginAnnouncement m r := rfl
    rw [hbegin] at hw
    unfold beginAnnouncement at hw
    split at hw
    · exact absurd hw List.not_mem_nil
    · rename_i k hk
      obtain ⟨a, ha, hk⟩ := Option.bind_eq_some_iff.mp hk
      unfold beginNotification at hw
      rw [ha] at hw
      dsimp only at hw
      have hend : ∀ (d : ControlRoom) (f : Stop) (es : List String) (sequel : Sequel),
          (d.endNotification m r es sequel).next.children = [] ∧
            (d.stopNotification f sequel).next.children = [] := by
        intro d f es sequel
        have hleads := (shaped_endNotification (N := fun n => n.children = []) (c := d)
          (fun _ => rfl) m r es sequel).next
        exact ⟨hleads, (shaped_stopNotification (N := fun n => n.children = []) (c := d)
          (fun _ => rfl) f sequel).next⟩
      split at hw
      · rename_i f d _
        rw [(hend d (.failed f) [] _).2] at hw
        exact absurd hw List.not_mem_nil
      · rename_i d _
        rw [(hend d .cancelled [] _).1] at hw
        exact absurd hw List.not_mem_nil
      · rename_i qs d hne hqs
        obtain ⟨hfree, halert⟩ := not_suppressed_of_requests hqs hne
        obtain ⟨q, hq, rfl⟩ := List.mem_map.mp hw
        exact ⟨a, k, m, q, ha, hk, hm, rfl, halert q hq, hfree⟩
  · exact absurd hw List.not_mem_nil

/-! ## Work that looks at no configuration -/

variable (c : ControlRoom) (cs : Table Configuration) (now : Moment)

theorem retryAppointments_under (es : List String) :
    (c.under cs).retryAppointments now es = c.retryAppointments now es := by
  induction es with
  | nil => rfl
  | cons e es ih =>
      have hone : (c.under cs).retryAppointment? now e = c.retryAppointment? now e := rfl
      unfold retryAppointments
      rw [hone, ih]

theorem endRetry_under (tried asked : List String) (most : Int) (again : Bool) :
    (c.under cs).endRetry now tried asked most again
      = (c.endRetry now tried asked most again).under cs := by
  unfold endRetry
  have hbury : (c.under cs).buryLost most tried = (c.buryLost most tried).under cs := rfl
  rw [hbury]
  dsimp only
  cases again with
  | false => rfl
  | true =>
      rw [if_pos rfl, if_pos rfl, retryAppointments_under]
      rfl

theorem beginRetry_under (es : List String) (most : Int) (again : Bool) :
    (c.under cs).beginRetry now es most again = (c.beginRetry now es most again).under cs := by
  have hall : ∀ (ids : List String) (d : ControlRoom),
      ids.foldl (fun d id => d.adjustEntry id (·.beginRetry now)) (d.under cs)
        = (ids.foldl (fun d id => d.adjustEntry id (·.beginRetry now)) d).under cs := by
    intro ids
    induction ids with
    | nil => exact fun _ => rfl
    | cons id ids ih => exact fun d => ih (d.adjustEntry id (·.beginRetry now))
  have heligible : (c.under cs).eligible now most es = c.eligible now most es := rfl
  unfold beginRetry
  rw [heligible]
  cases c.eligible now most es with
  | error f => rfl
  | ok tried =>
      cases tried with
      | nil => exact endRetry_under c cs now [] es most again
      | cons id ids =>
          dsimp only
          rw [hall]
          rfl

theorem endEscalation_under (alert : AlertRef) (p : Policy) (booked : Bool) (es : List String) :
    (c.under cs).endEscalation now alert p booked es
      = (c.endEscalation now alert p booked es).under cs := by
  have hnext : (c.under cs).escalationAppointment? now alert p
      = c.escalationAppointment? now alert p := rfl
  unfold endEscalation followUp
  cases booked with
  | false => rfl
  | true =>
      rw [if_pos rfl, if_pos rfl, retryAppointments_under, hnext]
      dsimp only
      split
      · rfl
      · split
        · rfl
        · rfl

theorem beginEscalation_under (alert : AlertRef) (p : Policy) (level : Option Int) :
    (c.under cs).beginEscalation now alert p level
      = (c.beginEscalation now alert p level).under cs := by
  have hfind : (c.under cs).store.find? alert = c.store.find? alert := rfl
  have hentries : ∀ a, (c.under cs).entriesOf a = c.entriesOf a := fun _ => rfl
  have hrequests : ∀ a s, (c.under cs).stageRequests alert a s = c.stageRequests alert a s :=
    fun _ _ => rfl
  unfold beginEscalation
  rw [hfind]
  cases c.store.find? alert with
  | none => rfl
  | some a =>
      dsimp only
      cases a.nextStage? p (level.getD a.escalationLevel) with
      | none => exact endEscalation_under c cs now alert p level.isNone []
      | some s =>
          dsimp only
          rw [hentries]
          cases a.untilDue (c.entriesOf a) s now with
          | error f => rfl
          | ok left =>
              dsimp only
              rw [hrequests]
              split
              · exact endEscalation_under c cs now alert p level.isNone []
              · cases c.stageRequests alert a s with
                | nil => exact endEscalation_under (c.rise alert s now []) cs now alert p level.isNone []
                | cons q qs => rfl

/-- **Retries and escalations do not depend on the configurations.** -/
theorem program_under (now : Instant) {w : Work} (hw : IsBooked w) :
    program now (c.under cs) w .start = (program now c w .start).under cs := by
  have hclock : (c.under cs).clock? now = c.clock? now := rfl
  unfold program
  rw [hclock]
  cases c.clock? now with
  | none =>
      rcases hw with ⟨es, most, again, rfl⟩ | ⟨r, p, level, rfl⟩
      · rfl
      · rfl
  | some m =>
      rcases hw with ⟨es, most, again, rfl⟩ | ⟨r, p, level, rfl⟩
      · exact beginRetry_under c cs m es most again
      · exact beginEscalation_under c cs m r p level

end ControlRoom

/-! ## Attempts -/

namespace Work

/-- A delivery is attempted, for the first time or once more. -/
def IsAttempt : Work → Prop
  | .deliver .. | .attempt _ => True
  | _ => False

instance (w : Work) : Decidable w.IsAttempt := by
  unfold IsAttempt
  split <;> infer_instance

/-- Attempts are started by notifications, and by what is booked. -/
theorem Leads.of_attempt {w : Work} {n : Next Work Yield} (hn : w.Leads n) {a : Work}
    (ha : a.IsAttempt) (hc : a ∈ n.children) :
    (∃ r, w = .notify r) ∨ ControlRoom.IsBooked w := by
  cases hn with
  | collecting r rs sequel => exact .inl ⟨r, rfl⟩
  | retrying es tried most again => exact .inr (.inl ⟨_, _, _, rfl⟩)
  | escalating r p level rs s since booked => exact .inr (.inr ⟨_, _, _, rfl⟩)
  | evaluating | notifying =>
      obtain ⟨x, -, rfl⟩ := List.mem_map.mp hc
      exact ha.elim
  | _ => exact absurd hc List.not_mem_nil

end Work

namespace Office

variable {p : Premises} {h : Past} {o : Office}

/-- A notification delivers an alert that its configuration does not hold back at the time of the
attempt. -/
def Announces (n d : Doing) : Prop :=
  ∃ r q a k m, n.body = .notify r ∧ d.body = .deliver q 0 ∧ q.alert = r ∧
    n.state.store.find? r = some a ∧ n.state.configurations.get? a.configurationId = some k ∧
    d.state.clock? d.now = some m ∧ ¬ k.routing.quietHours.Holds a m

/-- A retry or an escalation does the same under any configurations. -/
def IsBlind (n : Doing) : Prop :=
  ControlRoom.IsBooked n.body ∧
    ∀ cs, ControlRoom.program n.now (n.state.under cs) n.body n.wake
      = (n.turn ControlRoom.program).under cs

/-- **When deliveries are attempted.** An attempt is made in the instant of the task that started
it. If that is a notification, the alert is not to be held back at that time. Otherwise it is a
retry or an escalation, and that does what it does under any configurations. -/
theorem Premises.Run.attempted (hr : p.Run h o) {d : Doing} (hd : d ∈ h)
    (hattempt : d.body.IsAttempt) :
    ∃ n ∈ h, d.audience = .task n.task ∧ n.now = d.now ∧
      n.Starts ControlRoom.program d.task d.body ∧ (Announces n d ∨ IsBlind n) := by
  obtain ⟨e, he⟩ := History.exists_suffix_of_mem hd
  have hfirst : d.body.IsFirst := by
    revert hattempt
    cases d.body <;> first | exact fun _ => trivial | exact False.elim
  have houter : ¬ d.body.IsOuter := by
    revert hattempt
    cases d.body <;> first | exact fun _ => id | exact False.elim
  obtain ⟨n, hn, haudience, hnow, hstarts⟩ := hr.origin he hfirst houter
  have hnm : n ∈ h := he.subset (List.mem_cons_of_mem _ hn)
  obtain ⟨i, hi, -⟩ := id hstarts
  have hchild := List.mem_of_getElem? hi
  refine ⟨n, hnm, haudience, hnow, hstarts, ?_⟩
  rcases (hr.shaped hnm).next.of_attempt hattempt hchild with ⟨r, hbody⟩ | hbooked
  · have hwake := (hr.first hnm (by rw [hbody]; trivial)).2
    unfold Stint.turn at hchild
    rw [hbody, hwake] at hchild
    obtain ⟨a, k, m, q, ha, hk, hm, hdbody, halert, hfree⟩ :=
      ControlRoom.not_held_of_notification hchild
    refine .inl ⟨r, q, a, k, m, hbody, hdbody, halert, ha, hk, ?_, fun hholds => ?_⟩
    · have hopened : d.state.opened = n.state.opened :=
        ((hr.later.2.1 d hd).1.opened).trans (hr.later.2.1 n hnm).1.opened.symm
      rw [← hnow]
      unfold ControlRoom.clock? at hm ⊢
      rw [hopened]
      exact hm
    · exact nomatch (QuietHours.suppresses_iff_holds.mpr hholds).symm.trans hfree
  · refine .inr ⟨hbooked, fun cs => ?_⟩
    have hwake : n.wake = .start := by
      refine (hr.first hnm ?_).2
      rcases hbooked with ⟨es, most, again, hw⟩ | ⟨r, p, level, hw⟩
      · rw [hw]; trivial
      · rw [hw]; trivial
    unfold Stint.turn
    rw [hwake]
    exact ControlRoom.program_under n.state cs n.now hbooked

/-! ## Attempts in quiet hours -/

/-- The alert that an attempt is about. -/
def alertOf? (d : Doing) : Option Alert :=
  match d.body with
  | .deliver q _ => d.state.store.find? q.alert
  | .attempt entry => do
    let q ← (d.state.journal.get? entry).bind (·.request)
    d.state.store.find? q.alert
  | _ => none

/-- An attempt begins while its alert is to be held back. -/
def Disturbs (d : Doing) : Prop :=
  d.body.IsAttempt ∧ ∃ a ∈ alertOf? d, ∃ k ∈ d.state.configurations.get? a.configurationId,
    ∃ m ∈ d.state.clock? d.now, k.routing.quietHours.Holds a m

instance (d : Doing) : Decidable (Disturbs d) :=
  inferInstanceAs (Decidable (_ ∧ _))

namespace Sample

/-- From ten at night to six in the morning. -/
def night : QuietHours :=
  ⟨true, "22:00", "06:00", "UTC", []⟩

/-- The keeper is told again after a minute. -/
def policy : Policy :=
  ⟨"keeper", "Keeper", [⟨1, 1, ["keeper"], [.email], true, 15, true, ""⟩], 3, rfl⟩

/-- The mailbox is full at first. -/
def mailbox : Premises :=
  premises fun n => .ok ⟨n != 0, .null, if n = 0 then some "Mailbox full" else none, none⟩

/-- An alert just before the quiet hours, its retry after a second and its escalation later. -/
def evening : Past × Office :=
  mailbox.play (.ask (.addConfiguration (configuration "ward" night (some policy))) ::
    .ask (.pass snapshot) :: List.replicate 20 (.turn 0) ++
    .wait Instant.perSecond :: List.replicate 20 (.turn 0) ++
    .wait (62 * Instant.perSecond) :: List.replicate 20 (.turn 0))

theorem run_evening : mailbox.Run evening.1 evening.2 :=
  mailbox.run_play _

end Sample

set_option maxRecDepth 100000 in
/-- Deliveries are attempted in the evening. -/
theorem attempted_evening : ∃ d ∈ Sample.evening.1, d.body.IsAttempt ∧
    ∃ n ∈ Sample.evening.1, d.audience = .task n.task ∧ n.now = d.now ∧
      n.Starts ControlRoom.program d.task d.body ∧ (Announces n d ∨ IsBlind n) := by
  have hattempt : ∃ d ∈ Sample.evening.1, d.body.IsAttempt := by decide +kernel
  obtain ⟨d, hd, hbody⟩ := hattempt
  exact ⟨d, hd, hbody, Sample.run_evening.attempted hd hbody⟩

set_option maxRecDepth 100000 in
/-- A retry and an escalation that attempt a delivery in the quiet hours. -/
theorem disturbed_evening : ∃ (p : Premises) (h : Past) (o : Office), p.Run h o ∧
    ∃ d ∈ h, ∃ e ∈ h, d.now ≠ e.now ∧ Disturbs d ∧ Disturbs e := by
  have hdisturbs : ∃ d ∈ Sample.evening.1, ∃ e ∈ Sample.evening.1,
      d.now ≠ e.now ∧ Disturbs d ∧ Disturbs e := by decide +kernel
  exact ⟨_, _, _, Sample.run_evening, hdisturbs⟩

end Office

end BuildingAlerts
