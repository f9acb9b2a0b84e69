/-
The levels of alerts.

An alert starts on level zero and rises by escalations only: evaluations, notifications, retries
and whatever somebody does about an alert leave all levels as they are. An alert that is not there
counts as one on level zero, so that a new alert changes no level.

Somebody closes an alert, nothing else does: work leaves an alert as open as it was.
-/
import BuildingAlerts.Proofs.Alert.Growth
import BuildingAlerts.Proofs.ControlRoom.Passes

set_option autoImplicit false

namespace BuildingAlerts

open Agenda

namespace Store

variable {s t : Store} {r : AlertRef} {a : Alert}

variable {β : Type} {v : Alert → β} {x : β}

/-- What is read of an alert, and what counts for it before it is there. -/
def read (s : Store) (v : Alert → β) (x : β) (r : AlertRef) : β :=
  (s.find? r).elim x v

theorem read_of_find? (h : s.find? r = some a) : s.read v x r = v a := by
  unfold read
  rw [h]
  rfl

/-- A new alert of which nothing else is read than before it was there. -/
theorem read_add (s : Store) (ha : v a = x) (r : AlertRef) : (s.add a).read v x r = s.read v x r := by
  unfold read
  rw [find?_eq_line, find?_eq_line, line_add]
  split
  · rcases Nat.lt_trichotomy r.place (s.line r.id).length with hlt | heq | hgt
    · rw [List.getElem?_append_left hlt]
    · rw [heq, List.getElem?_concat_length, List.getElem?_eq_none (Nat.le_refl _)]
      exact ha
    · rw [List.getElem?_eq_none (Nat.le_of_lt hgt), List.getElem?_eq_none]
      rw [List.length_append]
      exact hgt
  · rfl

/-- A change that spares what is read. -/
theorem read_adjustAt {f : Alert → Alert} (q : AlertRef)
    (hf : ∀ a, s.find? q = some a → v (f a) = v a) (r : AlertRef) :
    (s.adjustAt q f).read v x r = s.read v x r := by
  unfold read
  rw [find?_adjustAt]
  split
  · rename_i hr
    cases h : s.find? r with
    | none => rfl
    | some a => exact hf a (hr ▸ h)
  · rfl

/-- The level of an alert, zero before it is there. -/
def levelOf (s : Store) (r : AlertRef) : Int :=
  (s.find? r).elim 0 (·.escalationLevel)

theorem levelOf_of_find? (h : s.find? r = some a) : s.levelOf r = a.escalationLevel :=
  read_of_find? h

/-- A change that spares the level. -/
theorem levelOf_adjustAt {f : Alert → Alert} (q : AlertRef)
    (hf : ∀ a, s.find? q = some a → (f a).escalationLevel = a.escalationLevel) (r : AlertRef) :
    (s.adjustAt q f).levelOf r = s.levelOf r :=
  read_adjustAt q hf r

/-- The same levels. -/
def SameLevels (s t : Store) : Prop :=
  ∀ r, t.levelOf r = s.levelOf r

theorem SameLevels.rfl : s.SameLevels s :=
  fun _ => .refl _

theorem SameLevels.trans {u : Store} (h : s.SameLevels t) (k : t.SameLevels u) :
    s.SameLevels u :=
  fun r => (k r).trans (h r)

theorem allowsNew_sameLevels : AllowsNew SameLevels where
  refl := fun _ => .rfl
  trans := SameLevels.trans
  add := fun s _ ha => s.read_add ha.level

end Store

namespace ControlRoom

variable {c d e : ControlRoom}

/-- The level of an alert. -/
def levelOf (c : ControlRoom) (r : AlertRef) : Int :=
  c.store.levelOf r

/-- The same levels. -/
def SameLevels (c d : ControlRoom) : Prop :=
  c.store.SameLevels d.store

/-! ## Deliveries and retries -/

theorem store_handOver (c : ControlRoom) (now : Moment) (r : DeliveryRequest)
    (entry : Option String) : (c.handOver now r entry).2.store = c.store := by
  unfold handOver
  split
  · rfl
  · split
    · dsimp only
      unfold sendThrough
      split
      · rfl
      · rfl
    · rfl

theorem store_conclude (c : ControlRoom) (now : Moment) (entry : String)
    (result : Except Fault DeliveryResult) : (c.conclude now entry result).state.store = c.store := by
  unfold conclude
  split
  · rfl
  · split
    · rfl
    · rfl

theorem store_beginAttempt (c : ControlRoom) (now : Moment) (entry : String) :
    (c.beginAttempt now entry).state.store = c.store := by
  unfold beginAttempt
  split
  · rfl
  · rfl
  · rfl
  · rename_i r limit _ _ _
    have hhand := store_handOver c now r (some entry)
    split
    · rename_i f d hd
      rw [hd] at hhand
      exact hhand
    · rename_i h d hd
      rw [hd] at hhand
      split
      · exact (store_conclude d now entry _).trans hhand
      · exact hhand

theorem store_beginDelivery (c : ControlRoom) (now : Moment) (r : DeliveryRequest)
    (level : Int) : (c.beginDelivery now r level).state.store = c.store :=
  store_beginAttempt _ now _

theorem store_endRetry (c : ControlRoom) (now : Moment) (tried asked : List String) (most : Int)
    (again : Bool) : (c.endRetry now tried asked most again).state.store = c.store := by
  unfold endRetry
  dsimp only
  split
  · rfl
  · rfl

theorem store_beginRetry (c : ControlRoom) (now : Moment) (entries : List String) (most : Int)
    (again : Bool) : (c.beginRetry now entries most again).state.store = c.store := by
  have hall : ∀ (ids : List String) (d : ControlRoom),
      (ids.foldl (fun d id => d.adjustEntry id (·.beginRetry now)) d).store = d.store := by
    intro ids
    induction ids with
    | nil => exact fun _ => rfl
    | cons id ids ih => exact fun d => ih (d.adjustEntry id _)
  unfold beginRetry
  split
  · rfl
  · exact store_endRetry c now _ _ _ _
  · exact hall _ c

/-! ## Notifications -/

theorem store_admitted (c : ControlRoom) (now : Moment) (r : Routing) (a : Alert)
    (ts : List Target) : (c.admitted now r a ts).2.store = c.store := by
  unfold admitted
  split
  · rfl
  · rfl

theorem store_requests (c : ControlRoom) (now : Moment) (r : Routing) (alert : AlertRef)
    (a : Alert) : (c.requests now r alert a).2.store = c.store := by
  unfold requests
  split
  · rfl
  · exact store_admitted c now r a _

theorem store_beginNotification (c : ControlRoom) (now : Moment) (alert : AlertRef) (r : Routing)
    (sequel : Sequel) : (c.beginNotification now alert r sequel).state.store = c.store := by
  unfold beginNotification
  split
  · rfl
  · rename_i a _
    have hreq := store_requests c now r alert a
    split
    · rename_i f d hd
      rw [hd] at hreq
      rw [stopNotification_state]
      exact hreq
    · rename_i d hd
      rw [hd] at hreq
      rw [endNotification_state]
      exact hreq
    · rename_i rs d _ hd
      rw [hd] at hreq
      exact hreq

theorem store_beginAnnouncement (c : ControlRoom) (now : Moment) (alert : AlertRef) :
    (c.beginAnnouncement now alert).state.store = c.store := by
  unfold beginAnnouncement
  split
  · rfl
  · exact store_beginNotification c now alert _ _

/-- Deliveries that have ended are listed in the log of the alert. -/
theorem store_takeIn (c : ControlRoom) (now : Moment) (alert : AlertRef) (left : Nat)
    (entries : List String) (sequel : Sequel) (os : List (Outcome Yield)) :
    (c.takeIn now alert left entries sequel os).state.store = c.store ∨
      ∃ ids, (c.takeIn now alert left entries sequel os).state.store
        = c.store.adjustAt alert fun a => { a with notifications := a.notifications ++ ids } := by
  unfold takeIn
  split
  · rw [stopNotification_state]
    exact .inl rfl
  · dsimp only
    split
    · rw [endNotification_state]
      exact .inr ⟨_, rfl⟩
    · exact .inl rfl

/-! ## Escalations -/

/-- An escalation that has nobody to turn to lets the alert rise at once. -/
theorem store_beginEscalation (c : ControlRoom) (now : Moment) (alert : AlertRef) (p : Policy)
    (level : Option Int) :
    (c.beginEscalation now alert p level).state.store = c.store ∨
      ∃ s since, (c.beginEscalation now alert p level).state.store
        = c.store.adjustAt alert fun a => a.escalate s since [] := by
  unfold beginEscalation
  split
  · exact .inl rfl
  · split
    · rw [endEscalation_state]
      exact .inl rfl
    · split
      · exact .inl rfl
      · split
        · rw [endEscalation_state]
          exact .inl rfl
        · split
          · rw [endEscalation_state]
            exact .inr ⟨_, _, rfl⟩
          · exact .inl rfl

/-! ## All work -/

/-- Passes are only made for somebody who asked for them. -/
theorem isOfPass_of_isManaged {p : PassFor} {w : Work} (hw : w.IsManaged)
    (hp : (∃ s, w = .pass p s) ∨ (∃ known, w = .evaluating p known) ∨
      ∃ found, w = .notifying p found) : p = .caller ∧ w.IsOfPass := by
  cases p with
  | caller =>
      refine ⟨rfl, ?_⟩
      rcases hp with ⟨s, rfl⟩ | ⟨known, rfl⟩ | ⟨found, rfl⟩
      · trivial
      · trivial
      · trivial
  | single => rcases hp with ⟨s, rfl⟩ | ⟨known, rfl⟩ | ⟨found, rfl⟩ <;> exact hw.elim
  | row most made awaited =>
      rcases hp with ⟨s, rfl⟩ | ⟨known, rfl⟩ | ⟨found, rfl⟩ <;> exact hw.elim

/-- Work that is stopped leaves the room as it is. -/
theorem stopWork_state (c : ControlRoom) (s : Stop) {w : Work} (hw : w.IsManaged) :
    (c.stopWork s w).state = c := by
  unfold stopWork
  split
  · exact hw.elim
  · exact hw.elim
  · obtain ⟨rfl, -⟩ := isOfPass_of_isManaged hw (.inl ⟨_, rfl⟩)
    rfl
  · obtain ⟨rfl, -⟩ := isOfPass_of_isManaged hw (.inr (.inl ⟨_, rfl⟩))
    rfl
  · obtain ⟨rfl, -⟩ := isOfPass_of_isManaged hw (.inr (.inr ⟨_, rfl⟩))
    rfl
  · exact stopNotification_state c s _
  · rfl

/-- What becomes of the alerts in a stretch of work: evaluations let alerts come in, a notification
that has ended is put down in the log of its alert, and an escalation lets its alert rise. -/
inductive Writes (c : ControlRoom) : Work → Store → Prop where
  | nothing (w : Work) : Writes c w c.store
  | arrivals (b : Assignment) (s : Snapshot) :
      Writes c (.evaluate b s) (b.run s c.registry).2.store
  | logged (q : AlertRef) (left : Nat) (es : List String) (sequel : Sequel) (ids : List String) :
      Writes c (.collecting q left es sequel)
        (c.store.adjustAt q fun a => { a with notifications := a.notifications ++ ids })
  | risen (q : AlertRef) (p : Policy) (level : Option Int) (s : Stage) (since : Moment) :
      Writes c (.escalate q p level) (c.store.adjustAt q fun a => a.escalate s since [])
  | rises (q : AlertRef) (p : Policy) (s : Stage) (since : Moment) (booked : Bool)
      (ids : List String) :
      Writes c (.escalating q p s since booked) (c.store.adjustAt q fun a => a.escalate s since ids)

theorem writes_of_store {w : Work} {s : Store} (h : s = c.store) : Writes c w s :=
  h ▸ .nothing w

/-- **Only escalations change levels**, each that of its own alert. -/
theorem Writes.levelOf {w : Work} {s : Store} (h : Writes c w s) {r : AlertRef}
    (hescalate : ∀ p level, w ≠ .escalate r p level)
    (hescalating : ∀ p s since booked, w ≠ .escalating r p s since booked) :
    s.levelOf r = c.levelOf r := by
  have hrise : ∀ {q : AlertRef} (f : Alert → Alert), q ≠ r →
      (c.store.adjustAt q f).levelOf r = c.levelOf r := by
    intro q f hq
    unfold ControlRoom.levelOf Store.levelOf
    rw [Store.find?_adjustAt, if_neg hq.symm]
  cases h with
  | nothing => rfl
  | arrivals b s => exact Store.allowsNew_sameLevels.run b s c.registry r
  | logged q left es sequel ids =>
      refine Store.levelOf_adjustAt (s := c.store) q ?_ r
      intro a _
      rfl
  | risen q p level s since =>
      exact hrise _ fun hq => hescalate p level (hq ▸ rfl)
  | rises q p s since booked ids =>
      exact hrise _ fun hq => hescalating p s since booked (hq ▸ rfl)

/-- **What work does to the alerts.** -/
theorem writes_program (now : Instant) (c : ControlRoom) {w : Work} (hw : w.IsManaged)
    (wake : Wake Yield) : Writes c w (program now c w wake).state.store := by
  by_cases hpass : w.IsOfPass
  · obtain ⟨n, hn⟩ := program_of_isOfPass now c hpass wake
    rw [hn]
    exact .nothing w
  · unfold program
    split
    · unfold goOnWith
      split
      · rw [stopWork_state c _ hw]
        exact .nothing _
      · exact hw.elim
      · exact hw.elim
      · exact absurd (isOfPass_of_isManaged hw (.inl ⟨_, rfl⟩)).2 hpass
      · exact absurd (isOfPass_of_isManaged hw (.inr (.inl ⟨_, rfl⟩))).2 hpass
      · exact absurd (isOfPass_of_isManaged hw (.inr (.inr ⟨_, rfl⟩))).2 hpass
      · exact .arrivals _ _
      · exact writes_of_store (store_beginAnnouncement c _ _)
      · exact writes_of_store (store_beginNotification c _ _ _ _)
      · rename_i m _ _ _ alert left entries sequel os
        rcases store_takeIn c _ alert left entries sequel os with h | ⟨ids, h⟩
        · exact writes_of_store h
        · rw [h]
          exact .logged alert left entries sequel ids
      · exact writes_of_store (store_beginDelivery c _ _ _)
      · exact writes_of_store (store_beginAttempt c _ _)
      · exact .nothing _
      · exact writes_of_store (store_conclude c _ _ _)
      · exact .nothing _
      · exact .nothing _
      · exact hw.elim
      · exact .nothing _
      · exact writes_of_store (store_beginRetry c _ _ _ _)
      · exact writes_of_store (store_endRetry c _ _ _ _ _)
      · rename_i m _ _ _ alert p level _
        rcases store_beginEscalation c _ alert p level with h | ⟨s, since, h⟩
        · exact writes_of_store h
        · rw [h]
          exact .risen alert p level s since
      · rw [endEscalation_state]
        exact .rises _ _ _ _ _ _
      · exact .nothing _
    · rw [stopWork_state c _ hw]
      exact .nothing w

/-! ## Requests -/

theorem store_addConfiguration (c : ControlRoom) (k : Configuration) :
    (c.addConfiguration k).2.store = c.store := by
  unfold addConfiguration
  split
  · rfl
  · rfl

theorem store_addFromTemplate (c : ControlRoom) (now : Moment) (key : String) (u : TemplateUse) :
    (c.addFromTemplate now key u).2.store = c.store := by
  unfold addFromTemplate
  split
  · rfl
  · rename_i t _
    have hdraft : (c.drafting (t.configuration u now)).2.store = c.store := rfl
    split
    · rename_i f d hd
      rw [hd] at hdraft
      exact hdraft
    · rename_i k d hd
      rw [hd] at hdraft
      have hadd := store_addConfiguration d k
      split
      · rename_i e d' hd'
        rw [hd'] at hadd
        exact hadd.trans hdraft
      · rename_i v d' hd'
        rw [hd'] at hadd
        exact hadd.trans hdraft

theorem store_updateConfiguration (c : ControlRoom) (now : Moment) (id : String) (ch : Change) :
    (c.updateConfiguration now id ch).2.store = c.store := by
  unfold updateConfiguration
  split
  · rfl
  · split
    · rfl
    · dsimp only
      split
      · rfl
      · rfl

theorem store_setRuleEnabled (c : ControlRoom) (now : Moment) (id ruleId : String) (on : Bool) :
    (c.setRuleEnabled now id ruleId on).store = c.store := by
  unfold setRuleEnabled
  split
  · rfl
  · rfl

end ControlRoom

namespace Office

/-- What somebody does about an alert leaves what it spares. -/
theorem read_settleAlert {β : Type} {v : Alert → β} {x : β} (o : Office) (id : String)
    {f : Alert → Option Alert} (hf : ∀ a b, f a = some b → v b = v a) (r : AlertRef) :
    (o.settleAlert id f).2.state.store.read v x r = o.state.store.read v x r := by
  unfold settleAlert
  split
  · rfl
  · rename_i b hb
    obtain ⟨a, ha, hfa⟩ := Option.bind_eq_some_iff.mp hb
    have hstate := (rebooked_cancelAlert (o.adjust (·.adjustAlert (o.ref id) fun _ => b)) id).state
    dsimp only
    rw [hstate]
    refine Store.read_adjustAt (o.ref id) (fun x hx => ?_) r
    have hfound : o.state.store.get? id = some x := (Store.find?_ref _ id).symm.trans hx
    rw [← Option.some.inj (ha.symm.trans hfound)]
    exact hf a b hfa

/-- What a request does about an alert. -/
def Request.remedy? (o : Office) : Request → Option (String × (Alert → Option Alert))
  | .acknowledge id who => some (id, (·.acknowledge? who o.clock))
  | .resolve id who notes => some (id, (·.resolve? who notes o.clock))
  | .markFalsePositive id who => some (id, fun a => some (a.markFalsePositive who o.clock))
  | _ => none

theorem serve_of_remedy? {o : Office} {q : Request} {id : String} {f : Alert → Option Alert}
    (h : q.remedy? o = some (id, f)) : serve o q = (o.settleAlert id f).2 := by
  cases q with
  | acknowledge | resolve | markFalsePositive =>
      obtain ⟨rfl, rfl⟩ := Prod.mk.inj (Option.some.inj h)
      rfl
  | _ => exact nomatch h

/-- Nothing else that is asked for is about the alerts. -/
theorem store_serve {o : Office} (hn : Agenda.Numbered o) {q : Request}
    (h : q.remedy? o = none) : (serve o q).state.store = o.state.store := by
  cases q with
  | addConfiguration k => exact ControlRoom.store_addConfiguration _ k
  | addFromTemplate key u => exact ControlRoom.store_addFromTemplate _ _ key u
  | updateConfiguration id ch => exact ControlRoom.store_updateConfiguration _ _ id ch
  | setStatus id s => rfl
  | setRuleEnabled id ruleId on => exact ControlRoom.store_setRuleEnabled _ _ id ruleId on
  | openLine channel carrier => rfl
  | pass s => rfl
  | retry entries most => rfl
  | escalate id p level => rfl
  | acknowledge | resolve | markFalsePositive => exact nomatch h
  | bookRetries entries =>
      exact congrArg ControlRoom.store
        (rebooked_bookAll (o.state.retryAppointments o.clock entries).1 hn).state
  | bookEscalation id p =>
      show (o.bookEscalation id p).2.state.store = o.state.store
      unfold bookEscalation
      split
      · rfl
      · rename_i m _
        exact congrArg ControlRoom.store (rebooked_bookAll m.toList hn).state
  | shutdown => exact congrArg ControlRoom.store (rebooked_cancelBookings o).state

/-- What somebody does about an alert is about its status. -/
theorem spared_of_remedy? {o : Office} {q : Request} {id : String} {f : Alert → Option Alert}
    (hremedy : q.remedy? o = some (id, f)) {a b : Alert} (h : f a = some b) :
    b.escalationLevel = a.escalationLevel ∧ b.notifications = a.notifications := by
  cases q with
  | acknowledge id who =>
      obtain ⟨rfl, rfl⟩ := Prod.mk.inj (Option.some.inj hremedy)
      unfold Alert.acknowledge? at h
      dsimp only at h
      split at h
      · rw [← Option.some.inj h]
        exact ⟨rfl, rfl⟩
      · exact nomatch h
  | resolve id who notes =>
      obtain ⟨rfl, rfl⟩ := Prod.mk.inj (Option.some.inj hremedy)
      unfold Alert.resolve? at h
      dsimp only at h
      split at h
      · rw [← Option.some.inj h]
        exact ⟨rfl, rfl⟩
      · exact nomatch h
  | markFalsePositive id who =>
      obtain ⟨rfl, rfl⟩ := Prod.mk.inj (Option.some.inj hremedy)
      rw [← Option.some.inj h]
      exact ⟨rfl, rfl⟩
  | _ => exact nomatch hremedy

/-- What all that somebody does about alerts spares is read as before. -/
theorem read_serve {β : Type} {v : Alert → β} {x : β} {o : Office} (hn : Agenda.Numbered o)
    (q : Request) (hv : ∀ {id f a b}, q.remedy? o = some (id, f) → f a = some b → v b = v a)
    (r : AlertRef) : (serve o q).state.store.read v x r = o.state.store.read v x r := by
  cases hremedy : q.remedy? o with
  | none => rw [store_serve hn hremedy]
  | some y =>
      obtain ⟨id, f⟩ := y
      rw [serve_of_remedy? hremedy]
      exact read_settleAlert o id (fun a b h => hv hremedy h) r

/-- **Nothing that is asked for changes levels.** -/
theorem sameLevels_serve {o : Office} (hn : Agenda.Numbered o) (q : Request) :
    o.state.SameLevels (serve o q).state :=
  read_serve hn q fun hremedy h => (spared_of_remedy? hremedy h).1

end Office

/-! ## Open and closed alerts -/

namespace Store

variable {s t : Store} {r : AlertRef}

/-- No other alert has come under the identifier of this one. -/
def Sole (r : AlertRef) (s : Store) : Prop :=
  ∀ q a, q.id = r.id → s.find? q = some a → q = r

theorem Sole.of_grows (ht : t.Sole r) (h : s.Grows t) : s.Sole r := by
  intro q a hq ha
  obtain ⟨b, hb, -⟩ := h.kept q a ha
  exact ht q b hq hb

/-- An alert is closed. -/
def Closed (r : AlertRef) (s : Store) : Prop :=
  ∃ a, s.find? r = some a ∧ a.isOpen = false

instance (r : AlertRef) (s : Store) : Decidable (s.Closed r) :=
  decidable_of_iff (∃ a ∈ s.find? r, a.isOpen = false) .rfl

end Store

namespace ControlRoom

variable {c : ControlRoom} {w : Work} {s : Store} {r : AlertRef}

/-- **Work closes no alert**: one that is closed afterwards was closed before. -/
theorem Writes.closed (h : Writes c w s) (hs : s.Closed r) : c.store.Closed r := by
  obtain ⟨a, ha, hclosed⟩ := hs
  have hkeep : ∀ {q : AlertRef} {f : Alert → Alert}, (c.store.adjustAt q f).find? r = some a →
      (∀ b, (f b).status = b.status) → ∃ b, c.store.find? r = some b ∧ b.isOpen = false := by
    intro q f ha hf
    rw [Store.find?_adjustAt] at ha
    split at ha
    · obtain ⟨b, hb, rfl⟩ := Option.map_eq_some_iff.mp ha
      unfold Alert.isOpen at hclosed
      rw [hf b] at hclosed
      exact ⟨b, hb, hclosed⟩
    · exact ⟨a, ha, hclosed⟩
  cases h with
  | nothing => exact ⟨a, ha, hclosed⟩
  | arrivals b s =>
      rcases ((Store.allowsNew_receives r).run b s c.registry).new a ha with h | h
      · exact ⟨a, h, hclosed⟩
      · exact nomatch hclosed.symm.trans h
  | logged q left es sequel ids => exact hkeep ha fun b => .refl b.status
  | risen q p level s since => exact hkeep ha fun b => .refl b.status
  | rises q p s since booked ids => exact hkeep ha fun b => .refl b.status

/-- **Work leaves alerts as open as they are**, and in no other state. -/
theorem Writes.status (h : Writes c w s) {a : Alert} (ha : c.store.find? r = some a) :
    ∃ b, s.find? r = some b ∧ b.status = a.status := by
  have hkeep : ∀ {q : AlertRef} {f : Alert → Alert}, (∀ b, (f b).status = b.status) →
      ∃ b, (c.store.adjustAt q f).find? r = some b ∧ b.status = a.status := by
    intro q f hf
    rw [Store.find?_adjustAt, ha]
    split
    · exact ⟨f a, rfl, hf a⟩
    · exact ⟨a, rfl, rfl⟩
  cases h with
  | nothing => exact ⟨a, ha, rfl⟩
  | arrivals b s => exact ⟨a, ((Store.allowsNew_receives r).run b s c.registry).kept a ha, rfl⟩
  | logged q left es sequel ids => exact hkeep fun b => .refl b.status
  | risen q p level s since => exact hkeep fun b => .refl b.status
  | rises q p s since booked ids => exact hkeep fun b => .refl b.status

end ControlRoom

end BuildingAlerts
