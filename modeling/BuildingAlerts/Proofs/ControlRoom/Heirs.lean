/-
What work is followed by.

Notifications, escalations and retries hand on to the tasks that they book when their deliveries
have ended. What is booked is told here exactly: retries of single deliveries that failed, and the
next escalation of the alert under the same policy. Work that `concerns` an alert notifies of it or
escalates it, and such work has one heir at most that concerns the alert too. Other work leaves the
alert as it is.
-/
import BuildingAlerts.Proofs.Agenda.Roster
import BuildingAlerts.Proofs.ControlRoom.Levels

set_option autoImplicit false

namespace BuildingAlerts

open Agenda

namespace ControlRoom

variable {c : ControlRoom} {now : Moment} {r q : AlertRef} {p : Policy} {es : List String}

/-! ## What is booked -/

/-- A retry that is booked is one of a single delivery. -/
theorem of_retryAppointment? {e : String} {m : Appointment Work}
    (hm : c.retryAppointment? now e = .ok (some m)) :
    m.body = .retry [e] c.setup.maxRetries true ∧
      ∃ x, c.journal.get? e = some x ∧ x.isRetriable c.setup.maxRetries = true := by
  unfold retryAppointment? at hm
  obtain ⟨d?, hd, hm⟩ := bind_eq_ok_iff.mp hm
  obtain ⟨d, rfl, rfl⟩ := Option.map_eq_some_iff.mp (Except.ok.inj hm)
  refine ⟨rfl, ?_⟩
  unfold retryDelay? at hd
  split at hd
  · exact nomatch Except.ok.inj hd
  · rename_i x hx
    split at hd
    · rename_i hretriable
      exact ⟨x, hx, hretriable⟩
    · exact nomatch Except.ok.inj hd

/-- The deliveries whose retries are booked: some of those that were asked for, in their order. -/
theorem map_body_retryAppointments (c : ControlRoom) (now : Moment) (es : List String) :
    ∃ xs : List String, xs.Sublist es ∧ (∀ e ∈ xs, ∃ x, c.journal.get? e = some x ∧
        x.isRetriable c.setup.maxRetries = true) ∧
      (c.retryAppointments now es).1.map (·.body)
        = xs.map fun e => .retry [e] c.setup.maxRetries true := by
  induction es with
  | nil => exact ⟨[], .slnil, fun _ he => absurd he List.not_mem_nil, rfl⟩
  | cons e es ih =>
      unfold retryAppointments
      split
      · exact ⟨[], List.nil_sublist _, fun _ he => absurd he List.not_mem_nil, rfl⟩
      · rename_i m? hm
        obtain ⟨xs, hxs, hretriable, hbodies⟩ := ih
        cases m? with
        | none => exact ⟨xs, hxs.cons e, hretriable, hbodies⟩
        | some m =>
            obtain ⟨hbody, hx⟩ := of_retryAppointment? hm
            refine ⟨e :: xs, hxs.cons_cons e, List.forall_mem_cons.mpr ⟨hx, hretriable⟩, ?_⟩
            exact congrArg₂ List.cons hbody hbodies

/-- The next escalation of an alert is under the same policy. -/
theorem body_of_escalationAppointment? {m : Appointment Work}
    (hm : c.escalationAppointment? now q p = .ok (some m)) : m.body = .escalate q p none := by
  unfold escalationAppointment? at hm
  split at hm
  · exact nomatch hm
  · split at hm
    · exact nomatch hm
    · obtain ⟨left, -, hm⟩ := bind_eq_ok_iff.mp hm
      rw [← Option.some.inj (Except.ok.inj hm)]

/-! ## Heirs -/

theorem heirs_done (c : ControlRoom) (ids : List String) : (c.done ids).heirs = [] := rfl

/-- Work that ends with appointments has what is booked for its heirs. -/
theorem heirs_finish (c : ControlRoom) (ms : List (Appointment Work)) (o : Outcome Yield) :
    (⟨c, ms, .finish o⟩ : Stretch).heirs = ms.map (·.body) :=
  List.append_nil _

/-- Retries and the next escalation. -/
theorem heirs_followUp (c : ControlRoom) (now : Moment) (q : AlertRef) (p : Policy)
    (es : List String) : ∃ x, (x = [] ∨ x = [.escalate q p none]) ∧
      (c.followUp now q p es).heirs = (c.retryAppointments now es).1.map (·.body) ++ x := by
  unfold followUp
  dsimp only
  split
  · exact ⟨[], .inl rfl, by rw [heirs_finish, List.append_nil]⟩
  · split
    · exact ⟨[], .inl rfl, by rw [heirs_finish, List.append_nil]⟩
    · rename_i m? hm
      cases m? with
      | none => exact ⟨[], .inl rfl, by rw [heirs_finish, List.map_append]; rfl⟩
      | some m =>
          refine ⟨[m.body], .inr (congrArg (fun w => [w]) (body_of_escalationAppointment? hm)), ?_⟩
          rw [heirs_finish, List.map_append]
          rfl

/-- A notification that ends is followed like an escalation, if it is one of a pass. -/
theorem heirs_endNotification (c : ControlRoom) (now : Moment) (q : AlertRef) (es : List String)
    (sequel : Sequel) : (c.endNotification now q es sequel).heirs = [] ∨
      ∃ policy x, sequel = .book policy ∧
        (x = [] ∨ ∃ p, policy = some p ∧ x = [.escalate q p none]) ∧
        (c.endNotification now q es sequel).heirs
          = (c.retryAppointments now es).1.map (·.body) ++ x := by
  unfold endNotification
  split
  · exact .inl rfl
  · rename_i policy
    refine .inr ⟨policy, ?_⟩
    dsimp only
    split
    · exact ⟨[], rfl, .inl rfl, by rw [heirs_finish, List.append_nil]⟩
    · exact ⟨[], rfl, .inl rfl, by rw [heirs_finish, List.append_nil]⟩
    · rename_i p _
      split
      · exact ⟨[], rfl, .inl rfl, by rw [heirs_finish, List.append_nil]⟩
      · rename_i m? hm
        cases m? with
        | none => exact ⟨[], rfl, .inl rfl, by rw [heirs_finish, List.map_append]; rfl⟩
        | some m =>
            refine ⟨[m.body], rfl, .inr ⟨p, rfl,
              congrArg (fun w => [w]) (body_of_escalationAppointment? hm)⟩, ?_⟩
            rw [heirs_finish, List.map_append]
            rfl

/-- Retries that end are followed by the next ones, if they were booked. -/
theorem heirs_endRetry (c : ControlRoom) (now : Moment) (tried asked : List String) (most : Int)
    (again : Bool) : (c.endRetry now tried asked most again).heirs
      = if again then ((c.buryLost most tried).retryAppointments now asked).1.map (·.body)
        else [] := by
  unfold endRetry
  dsimp only
  split
  · exact heirs_finish _ _ _
  · rfl

/-! ## Work on one alert -/

end ControlRoom

namespace Work

/-- Work on the notification or on the escalations of an alert. -/
def concerns (r : AlertRef) : Work → Bool
  | .notify q | .collecting q _ _ _ | .escalate q _ _ | .escalating q _ _ _ _ => decide (q = r)
  | _ => false

theorem concerns_notify {r q : AlertRef} : (notify q).concerns r = true ↔ q = r :=
  decide_eq_true_iff

theorem concerns_collecting {r q : AlertRef} {left : Nat} {es : List String} {sequel : Sequel} :
    (collecting q left es sequel).concerns r = true ↔ q = r :=
  decide_eq_true_iff

theorem concerns_escalate {r q : AlertRef} {p : Policy} {level : Option Int} :
    (escalate q p level).concerns r = true ↔ q = r :=
  decide_eq_true_iff

theorem concerns_escalating {r q : AlertRef} {p : Policy} {s : Stage} {since : Moment}
    {booked : Bool} : (escalating q p s since booked).concerns r = true ↔ q = r :=
  decide_eq_true_iff

end Work

namespace ControlRoom

variable {c : ControlRoom} {now : Moment} {r q : AlertRef} {p : Policy} {es : List String}

/-- The heirs of a stretch that go on with an alert. -/
def successors (r : AlertRef) (s : Stretch) : List Work :=
  s.heirs.filter (·.concerns r)

theorem successors_of_heirs_nil {s : Stretch} (hs : s.heirs = []) : successors r s = [] := by
  unfold successors
  rw [hs]
  rfl

/-- Work of a kind that concerns no alert. -/
theorem filter_concerns_map {α : Type} {f : α → Work} (hf : ∀ x, (f x).concerns r = false)
    (xs : List α) : (xs.map f).filter (·.concerns r) = [] := by
  refine List.filter_eq_nil_iff.mpr fun w hw => ?_
  obtain ⟨x, -, rfl⟩ := List.mem_map.mp hw
  rw [hf x]
  exact Bool.false_ne_true

theorem filter_concerns_retries (c : ControlRoom) (now : Moment) (es : List String) :
    ((c.retryAppointments now es).1.map (·.body)).filter (·.concerns r) = [] := by
  obtain ⟨xs, -, -, hxs⟩ := map_body_retryAppointments c now es
  rw [hxs]
  exact filter_concerns_map (fun _ => rfl) xs

/-- A wave of deliveries of an alert is followed by the next escalation under the policy at most. -/
theorem successors_of_heirs {s : Stretch} {x : List Work}
    (hx : x = [] ∨ x = [.escalate q p none])
    (hs : s.heirs = (c.retryAppointments now es).1.map (·.body) ++ x) :
    successors r s = [] ∨ q = r ∧ successors r s = [.escalate r p none] := by
  unfold successors
  rw [hs, List.filter_append, filter_concerns_retries, List.nil_append]
  rcases hx with rfl | rfl
  · exact .inl rfl
  · by_cases hq : q = r
    · obtain rfl := hq
      exact .inr ⟨rfl, List.filter_cons_of_pos (Work.concerns_escalate.mpr rfl)⟩
    · exact .inl (List.filter_cons_of_neg fun h => hq (Work.concerns_escalate.mp h))

theorem successors_endEscalation (c : ControlRoom) (now : Moment) (q : AlertRef) (p : Policy)
    (booked : Bool) (es : List String) :
    successors r (c.endEscalation now q p booked es) = [] ∨ q = r ∧ booked = true ∧
      successors r (c.endEscalation now q p booked es) = [.escalate r p none] := by
  unfold endEscalation
  split
  · rename_i hbooked
    obtain ⟨x, hx, hs⟩ := heirs_followUp c now q p es
    rcases successors_of_heirs (r := r) hx hs with h | ⟨hq, h⟩
    · exact .inl h
    · exact .inr ⟨hq, hbooked, h⟩
  · exact .inl rfl

theorem successors_endNotification (c : ControlRoom) (now : Moment) (q : AlertRef) (es : List String)
    (sequel : Sequel) : successors r (c.endNotification now q es sequel) = [] ∨
      q = r ∧ ∃ p, successors r (c.endNotification now q es sequel) = [.escalate r p none] := by
  rcases heirs_endNotification c now q es sequel with h | ⟨policy, x, -, hx, hs⟩
  · exact .inl (successors_of_heirs_nil h)
  · rcases hx with rfl | ⟨p, -, rfl⟩
    · exact .inl (by
        unfold successors
        rw [hs, List.append_nil]
        exact filter_concerns_retries c now es)
    · rcases successors_of_heirs (r := r) (.inr rfl) hs with h | ⟨hq, h⟩
      · exact .inl h
      · exact .inr ⟨hq, p, h⟩

theorem heirs_stopNotification (c : ControlRoom) (s : Stop) (sequel : Sequel) :
    (c.stopNotification s sequel).heirs = [] := by
  unfold stopNotification
  split
  · rfl
  · split
    · split
      · rfl
      · rfl
    · rfl

/-- A notification goes on with its deliveries, or it has ended. -/
theorem successors_beginNotification (c : ControlRoom) (now : Moment) (q : AlertRef) (s : Routing)
    (sequel : Sequel) : successors r (c.beginNotification now q s sequel) = [] ∨
      q = r ∧ ∃ w, successors r (c.beginNotification now q s sequel) = [w] ∧
        ((∃ left es, w = .collecting r left es sequel) ∨ ∃ p, w = .escalate r p none) := by
  unfold beginNotification
  split
  · exact .inl rfl
  · split
    · exact .inl (successors_of_heirs_nil (heirs_stopNotification _ _ _))
    · rename_i d _
      rcases successors_endNotification (r := r) d now q [] sequel with h | ⟨hq, p, h⟩
      · exact .inl h
      · exact .inr ⟨hq, _, h, .inr ⟨p, rfl⟩⟩
    · rename_i rs d _ _
      have hdeliver : (rs.map fun x => Work.deliver x 0).filter (·.concerns r) = [] :=
        filter_concerns_map (fun _ => rfl) rs
      by_cases hq : q = r
      · obtain rfl := hq
        refine .inr ⟨rfl, .collecting q rs.length [] sequel, ?_, .inl ⟨_, _, rfl⟩⟩
        exact (List.filter_cons_of_pos (Work.concerns_collecting.mpr rfl)).trans
          (congrArg (List.cons _) hdeliver)
      · refine .inl ((List.filter_cons_of_neg fun h => hq ?_).trans hdeliver)
        exact Work.concerns_collecting.mp h

theorem successors_beginAnnouncement (c : ControlRoom) (now : Moment) (q : AlertRef) :
    successors r (c.beginAnnouncement now q) = [] ∨
      q = r ∧ ∃ w, successors r (c.beginAnnouncement now q) = [w] ∧
        ((∃ left es sequel, w = .collecting r left es sequel) ∨ ∃ p, w = .escalate r p none) := by
  unfold beginAnnouncement
  split
  · exact .inl rfl
  · rcases successors_beginNotification (r := r) c now q _ _ with h | ⟨hq, w, h, hw⟩
    · exact .inl h
    · exact .inr ⟨hq, w, h, hw.imp_left fun ⟨left, es, hw⟩ => ⟨left, es, _, hw⟩⟩

/-- A wave of deliveries goes on, or the notification has ended. -/
theorem successors_takeIn (c : ControlRoom) (now : Moment) (q : AlertRef) (left : Nat)
    (es : List String) (sequel : Sequel) (os : List (Outcome Yield)) :
    successors r (c.takeIn now q left es sequel os) = [] ∨
      q = r ∧ ∃ w, successors r (c.takeIn now q left es sequel os) = [w] ∧
        ((∃ left es sequel, w = .collecting r left es sequel) ∨ ∃ p, w = .escalate r p none) := by
  unfold takeIn
  split
  · exact .inl (successors_of_heirs_nil (heirs_stopNotification _ _ _))
  · rename_i ids _
    dsimp only
    split
    · rcases successors_endNotification (r := r) _ now q (es ++ ids) sequel with h | ⟨hq, p, h⟩
      · exact .inl h
      · exact .inr ⟨hq, _, h, .inr ⟨p, rfl⟩⟩
    · by_cases hq : q = r
      · obtain rfl := hq
        exact .inr ⟨rfl, _, List.filter_cons_of_pos (Work.concerns_collecting.mpr rfl),
          .inl ⟨_, _, _, rfl⟩⟩
      · exact .inl (List.filter_cons_of_neg fun h => hq (Work.concerns_collecting.mp h))

/-- **Work leaves alerts alone** that it does not concern, unless they come in with it. -/
theorem Writes.receives {w : Work} {s : Store} (h : Writes c w s) (hr : w.concerns r = false) :
    Store.Receives r c.store s := by
  have hother : ∀ {q : AlertRef} (f : Alert → Alert), q ≠ r →
      Store.Receives r c.store (c.store.adjustAt q f) := by
    intro q f hq
    apply Store.receives_of_find?
    rw [Store.find?_adjustAt, if_neg hq.symm]
  cases h with
  | nothing => exact .rfl
  | arrivals b s => exact (Store.allowsNew_receives r).run b s c.registry
  | logged q left es sequel ids => exact hother _ (of_decide_eq_false hr)
  | risen q p level s since => exact hother _ (of_decide_eq_false hr)
  | rises q p s since booked ids => exact hother _ (of_decide_eq_false hr)

/-! ## All work -/

theorem heirs_stopWork (c : ControlRoom) (s : Stop) {w : Work} (hw : w.IsManaged) :
    (c.stopWork s w).heirs = [] := by
  unfold stopWork
  split
  · exact hw.elim
  · exact hw.elim
  · obtain ⟨rfl, -⟩ := isOfPass_of_isManaged hw (.inl ⟨_, rfl⟩)
    rfl
  · obtain ⟨rfl, -⟩ := isOfPass_of_isManaged hw (.inr (.inl ⟨_, rfl⟩))
    rfl
  · obtain ⟨rfl, -⟩ := isOfPass_of_isManaged hw (.inr (.inr ⟨_, rfl⟩))
    rfl
  · exact heirs_stopNotification c s _
  · rfl

theorem successors_beginPass (c : ControlRoom) (s : Snapshot) :
    successors r (c.beginPass .caller s) = [] := by
  unfold beginPass
  dsimp only
  split
  · rfl
  · split
    · rfl
    · rename_i bs _
      exact filter_concerns_map (f := fun b => Work.evaluate b s) (fun _ => rfl) _

theorem heirs_conclude (c : ControlRoom) (now : Moment) (e : String)
    (result : Except Fault DeliveryResult) : (c.conclude now e result).heirs = [] := by
  unfold conclude
  split
  · rfl
  · split
    · rfl
    · rfl

theorem successors_beginAttempt (c : ControlRoom) (now : Moment) (e : String) :
    successors r (c.beginAttempt now e) = [] := by
  unfold beginAttempt
  split
  · rfl
  · rfl
  · rfl
  · split
    · rfl
    · split
      · exact successors_of_heirs_nil (heirs_conclude _ _ _ _)
      · rfl

theorem successors_endRetry (c : ControlRoom) (now : Moment) (tried asked : List String) (most : Int)
    (again : Bool) : successors r (c.endRetry now tried asked most again) = [] := by
  unfold successors
  rw [heirs_endRetry]
  split
  · exact filter_concerns_retries _ now asked
  · rfl

theorem successors_beginRetry (c : ControlRoom) (now : Moment) (entries : List String) (most : Int)
    (again : Bool) : successors r (c.beginRetry now entries most again) = [] := by
  unfold beginRetry
  split
  · rfl
  · exact successors_endRetry c now _ _ _ _
  · rename_i tried _ _
    exact filter_concerns_map (f := .attempt) (fun _ => rfl) tried

/-- An escalation of another alert. -/
theorem successors_beginEscalation_of_ne (hq : q ≠ r) (c : ControlRoom) (now : Moment) (p : Policy)
    (level : Option Int) : successors r (c.beginEscalation now q p level) = [] := by
  have hend : ∀ (d : ControlRoom) (booked : Bool),
      successors r (d.endEscalation now q p booked []) = [] := fun d booked =>
    (successors_endEscalation d now q p booked []).resolve_right fun h => hq h.1
  unfold beginEscalation
  split
  · rfl
  · split
    · exact hend _ _
    · split
      · rfl
      · split
        · exact hend _ _
        · split
          · exact hend _ _
          · refine (List.filter_cons_of_neg fun h => hq ?_).trans
              (filter_concerns_map (fun _ => rfl) _)
            exact Work.concerns_escalating.mp h

/-- **Work that does not concern an alert has no heirs that do**, unless it announces the alert. -/
theorem successors_program (now : Instant) (c : ControlRoom) {w : Work} (hw : w.IsManaged)
    (hconcerns : w.concerns r = false) (hne : ∀ known, w ≠ .evaluating .caller known) (wake : Wake Yield) :
    successors r (program now c w wake) = [] := by
  have hother : ∀ {q : AlertRef}, decide (q = r) = false → q ≠ r := of_decide_eq_false
  unfold program
  split
  · unfold goOnWith
    split
    · exact successors_of_heirs_nil (heirs_stopWork c _ hw)
    · exact hw.elim
    · exact hw.elim
    · obtain ⟨rfl, -⟩ := isOfPass_of_isManaged hw (.inl ⟨_, rfl⟩)
      exact successors_beginPass c _
    · obtain ⟨rfl, -⟩ := isOfPass_of_isManaged hw (.inr (.inl ⟨_, rfl⟩))
      exact absurd rfl (hne _)
    · obtain ⟨rfl, -⟩ := isOfPass_of_isManaged hw (.inr (.inr ⟨_, rfl⟩))
      rfl
    · rfl
    · exact (successors_beginAnnouncement c _ _).resolve_right fun h => hother hconcerns h.1
    · exact hw.elim
    · exact (successors_takeIn c _ _ _ _ _ _).resolve_right fun h => hother hconcerns h.1
    · exact successors_beginAttempt _ _ _
    · exact successors_beginAttempt c _ _
    · rfl
    · exact successors_of_heirs_nil (heirs_conclude c _ _ _)
    · rfl
    · rfl
    · exact hw.elim
    · exact hw.elim
    · exact successors_beginRetry c _ _ _ _
    · exact successors_endRetry c _ _ _ _ _
    · exact successors_beginEscalation_of_ne (hother hconcerns) c _ _ _
    · exact (successors_endEscalation _ _ _ _ _ _).resolve_right fun h => hother hconcerns h.1
    · rfl
  · exact successors_of_heirs_nil (heirs_stopWork c _ hw)

/-- Of distinct identifiers one at most is that of an alert. -/
theorem filter_concerns_notify {ids : List String} (hids : ids.Nodup) (s : Store) :
    ((ids.map fun id => Work.notify (s.ref id)).filter (·.concerns r)) = [] ∨
      r.id ∈ ids ∧ s.ref r.id = r ∧
        (ids.map fun id => Work.notify (s.ref id)).filter (·.concerns r) = [.notify r] := by
  induction ids with
  | nil => exact .inl rfl
  | cons id ids ih =>
      obtain ⟨hid, hids⟩ := List.nodup_cons.mp hids
      rw [List.map_cons, List.filter_cons]
      by_cases heq : s.ref id = r
      · rw [if_pos (Work.concerns_notify.mpr heq)]
        have hrid : r.id = id := by
          rw [← heq]
          rfl
        refine .inr ⟨hrid ▸ List.mem_cons_self, hrid ▸ heq, ?_⟩
        rcases ih hids with h | ⟨hmem, -, -⟩
        · rw [h, heq]
        · exact absurd (hrid ▸ hmem) hid
      · rw [if_neg fun h => heq (Work.concerns_notify.mp h)]
        exact (ih hids).imp_right fun ⟨hmem, h⟩ => ⟨List.mem_cons_of_mem _ hmem, h⟩

/-- A pass announces an alert that it did not know, and each once. -/
theorem successors_evaluating (now : Instant) (c : ControlRoom) (known : List String)
    (wake : Wake Yield) :
    successors r (program now c (.evaluating .caller known) wake) = [] ∨
      ∃ ys, wake = .gathered ys ∧ r.id ∈ unknown known (ys.flatMap (·.ids)) ∧
        c.store.ref r.id = r ∧
        successors r (program now c (.evaluating .caller known) wake) = [.notify r] := by
  obtain ⟨n, hn⟩ := program_of_isOfPass now c (w := .evaluating .caller known) trivial wake
  have hnext := next_evaluating now c known wake
  rw [hn] at hnext ⊢
  rcases hnext with ⟨-, st, rfl⟩ | ⟨ys, hys, rfl⟩
  · exact .inl rfl
  · have hnodup : (unknown known (ys.flatMap (·.ids))).Nodup := nodup_firsts _
    generalize hnew : unknown known (ys.flatMap (·.ids)) = new at hnodup
    cases new with
    | nil => exact .inl rfl
    | cons id ids =>
        rcases filter_concerns_notify (r := r) hnodup c.store with h | ⟨hmem, href, h⟩
        · exact .inl h
        · exact .inr ⟨ys, hys, hnew ▸ hmem, href, h⟩

end ControlRoom

end BuildingAlerts
