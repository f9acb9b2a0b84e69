/-
What becomes of a log entry.

The books of the room are the journal of all deliveries and the list of those that were given up.
Only two kinds of work write into them: attempts at a delivery and retries of it. Each of them
writes about its own deliveries, so that all other work leaves an entry as it is. An attempt ends
with the entry sent or failed; a retry counts itself and takes the time, and gives a delivery up
when it has failed once more and no retry is left.
-/
import BuildingAlerts.Proofs.ControlRoom.Heirs

set_option autoImplicit false

namespace BuildingAlerts

open Agenda

/-! ## Work on a delivery -/

namespace Work

/-- Work of an attempt at a delivery that has an entry. -/
def tries (id : String) : Work → Bool
  | .attempt e | .sending e _ | .lapsing e _ => decide (e = id)
  | _ => false

theorem of_tries {id : String} {w : Work} (h : w.tries id = true) :
    w = .attempt id ∨ (∃ r, w = .sending id r) ∨ ∃ n, w = .lapsing id n := by
  cases w with
  | attempt e => exact .inl (congrArg _ (of_decide_eq_true h))
  | sending e r => exact .inr (.inl ⟨r, congrArg (sending · r) (of_decide_eq_true h)⟩)
  | lapsing e n => exact .inr (.inr ⟨n, congrArg (lapsing · n) (of_decide_eq_true h)⟩)
  | _ => exact nomatch h

/-- Work on retries, of a delivery among others. -/
def retries (id : String) : Work → Bool
  | .retry es _ _ | .retrying es _ _ => decide (id ∈ es)
  | _ => false

end Work

namespace ControlRoom

variable {c d e : ControlRoom} {id : String}

/-- The identifier of the next delivery. -/
def nextEntry (c : ControlRoom) : String :=
  (c.draw .notification).1

/-! ## The books -/

/-- Nothing was written about a delivery. -/
structure Leaves (id : String) (c d : ControlRoom) : Prop where
  setup : d.setup = c.setup
  entry : d.journal.get? id = c.journal.get? id
  letters : d.deadLetters.count id = c.deadLetters.count id

theorem Leaves.rfl : Leaves id c c :=
  ⟨.refl _, .refl _, .refl _⟩

theorem Leaves.trans (h : Leaves id c d) (k : Leaves id d e) : Leaves id c e :=
  ⟨k.setup.trans h.setup, k.entry.trans h.entry, k.letters.trans h.letters⟩

/-- Nothing was written at all. -/
structure SameBooks (c d : ControlRoom) : Prop where
  setup : d.setup = c.setup
  journal : d.journal = c.journal
  deadLetters : d.deadLetters = c.deadLetters

theorem SameBooks.rfl : SameBooks c c :=
  ⟨.refl _, .refl _, .refl _⟩

theorem SameBooks.trans (h : SameBooks c d) (k : SameBooks d e) : SameBooks c e :=
  ⟨k.setup.trans h.setup, k.journal.trans h.journal, k.deadLetters.trans h.deadLetters⟩

theorem SameBooks.leaves (h : SameBooks c d) : Leaves id c d where
  setup := h.setup
  entry := by rw [h.journal]
  letters := by rw [h.deadLetters]

theorem leaves_adjustEntry (c : ControlRoom) {e : String} (he : e ≠ id) (f : LogEntry → LogEntry) :
    Leaves id c (c.adjustEntry e f) where
  setup := .refl _
  entry := by
    show (c.journal.adjust e f).get? id = _
    rw [Table.get?_adjust, if_neg he.symm]
  letters := .refl _

/-! ## Notifications, escalations and passes -/

theorem sameBooks_handOver (c : ControlRoom) (now : Moment) (r : DeliveryRequest)
    (entry : Option String) : SameBooks c (c.handOver now r entry).2 := by
  unfold handOver
  split
  · exact .rfl
  · split
    · dsimp only
      unfold sendThrough
      split
      · exact .rfl
      · exact ⟨rfl, rfl, rfl⟩
    · exact ⟨rfl, rfl, rfl⟩

theorem sameBooks_requests (c : ControlRoom) (now : Moment) (r : Routing) (alert : AlertRef)
    (a : Alert) : SameBooks c (c.requests now r alert a).2 := by
  unfold requests
  split
  · exact .rfl
  · dsimp only
    unfold admitted
    split
    · exact .rfl
    · exact ⟨rfl, rfl, rfl⟩

theorem sameBooks_beginNotification (c : ControlRoom) (now : Moment) (alert : AlertRef)
    (r : Routing) (sequel : Sequel) :
    SameBooks c (c.beginNotification now alert r sequel).state := by
  unfold beginNotification
  split
  · exact .rfl
  · rename_i a _
    have hbooks := sameBooks_requests c now r alert a
    split
    · rename_i f d hd
      rw [hd] at hbooks
      rw [stopNotification_state]
      exact hbooks
    · rename_i d hd
      rw [hd] at hbooks
      rw [endNotification_state]
      exact hbooks
    · rename_i rs d _ hd
      rw [hd] at hbooks
      exact hbooks

theorem sameBooks_takeIn (c : ControlRoom) (now : Moment) (alert : AlertRef) (left : Nat)
    (entries : List String) (sequel : Sequel) (os : List (Outcome Yield)) :
    SameBooks c (c.takeIn now alert left entries sequel os).state := by
  unfold takeIn
  split
  · rw [stopNotification_state]
    exact .rfl
  · dsimp only
    split
    · rw [endNotification_state]
      exact ⟨rfl, rfl, rfl⟩
    · exact .rfl

theorem sameBooks_beginEscalation (c : ControlRoom) (now : Moment) (alert : AlertRef) (p : Policy)
    (level : Option Int) : SameBooks c (c.beginEscalation now alert p level).state := by
  unfold beginEscalation
  split
  · exact .rfl
  · split
    · rw [endEscalation_state]
      exact .rfl
    · split
      · exact .rfl
      · split
        · rw [endEscalation_state]
          exact .rfl
        · split
          · rw [endEscalation_state]
            exact ⟨rfl, rfl, rfl⟩
          · exact .rfl

/-! ## Attempts -/

theorem program_of_clock {now : Instant} {m : Moment} (h : c.clock? now = some m) (w : Work)
    (wake : Wake Yield) : program now c w wake = c.goOnWith m w wake := by
  unfold program
  rw [h]

theorem program_of_no_clock {now : Instant} (h : c.clock? now = none) (w : Work)
    (wake : Wake Yield) : program now c w wake = c.stopWork (.failed .outOfBounds) w := by
  unfold program
  rw [h]

end ControlRoom

/-- What becomes of an entry when an attempt at its delivery ends: it is sent or failed. -/
structure LogEntry.Follows (after before : LogEntry) : Prop where
  alertId : after.alertId = before.alertId
  request : after.request = before.request
  sentAt : after.sentAt = before.sentAt
  retries : after.retries = before.retries
  escalationLevel : after.escalationLevel = before.escalationLevel
  status : after.status = .sent ∨ after.status = .failed

namespace ControlRoom

variable {c d e : ControlRoom} {id : String}

/-- How an attempt at a delivery goes: it fails without a trace, it goes on, or it ends with the
entry sent or failed. -/
inductive Tries (id : String) (before after : Option LogEntry) (t : Stretch) : Prop where
  | fails (hentry : after = before) (hheirs : t.heirs = []) {st : Stop}
      (hnext : t.next = .finish (.error st))
  | goesOn (hentry : after = before) {w : Work} (hw : w.tries id = true)
      (hattempt : w ≠ .attempt id) (hheirs : t.heirs = [w]) (hnext : t.next.body? = some w)
  | ends {f : LogEntry → LogEntry} (hentry : after = before.map f) (hf : ∀ e, (f e).Follows e)
      (hheirs : t.heirs = []) (hnext : t.next = .finish (.ok (.names [id])))

/-- An attempt at a delivery writes into its entry only. -/
structure Tried (id : String) (c : ControlRoom) (t : Stretch) : Prop where
  setup : t.state.setup = c.setup
  deadLetters : t.state.deadLetters = c.deadLetters
  others : ∀ e, e ≠ id → t.state.journal.get? e = c.journal.get? e
  tries : Tries id (c.journal.get? id) (t.state.journal.get? id) t

variable {t : Stretch}

theorem Tried.leaves (ht : Tried id c t) {e : String} (he : e ≠ id) : Leaves e c t.state where
  setup := ht.setup
  entry := ht.others e he
  letters := by rw [ht.deadLetters]

/-- An attempt that ends with a result names its delivery. -/
theorem Tried.ids (ht : Tried id c t) {y : Yield} (hy : t.next = .finish (.ok y)) :
    y.ids = [id] := by
  cases ht.tries with
  | fails _ _ hnext =>
      rw [hy] at hnext
      cases hnext
  | goesOn _ _ _ _ hnext =>
      rw [hy] at hnext
      cases hnext
  | ends _ _ _ hnext =>
      obtain rfl := Except.ok.inj (Next.finish.inj (hy.symm.trans hnext))
      rfl

/-- Nothing was written before. -/
theorem Tried.after (ht : Tried id d t) (h : SameBooks c d) : Tried id c t where
  setup := ht.setup.trans h.setup
  deadLetters := ht.deadLetters.trans h.deadLetters
  others := h.journal ▸ ht.others
  tries := h.journal ▸ ht.tries

theorem tried_stop (c : ControlRoom) (st : Stop) : Tried id c (c.stop st) :=
  ⟨rfl, rfl, fun _ _ => rfl, .fails rfl rfl rfl⟩

/-- An attempt goes on with the next of its works. -/
theorem tried_goOn (c : ControlRoom) {n : Next Work Yield} {w : Work} (hw : w.tries id = true)
    (hattempt : w ≠ .attempt id) (hnext : n.body? = some w) (hchildren : n.children = []) :
    Tried id c (c.goOn n) := by
  refine ⟨rfl, rfl, fun _ _ => rfl, .goesOn rfl hw hattempt ?_ hnext⟩
  show n.body?.toList ++ ([] ++ n.children) = [w]
  rw [hnext, hchildren]
  rfl

/-- An attempt that ends is put down. -/
theorem tried_done (c : ControlRoom) {f : LogEntry → LogEntry} (hf : ∀ e, (f e).Follows e) :
    Tried id c ((c.adjustEntry id f).done [id]) := by
  refine ⟨rfl, rfl, fun e he => (leaves_adjustEntry c he.symm f).entry, .ends ?_ hf rfl rfl⟩
  show (c.journal.adjust id f).get? id = _
  rw [Table.get?_adjust, if_pos rfl]

theorem tried_timeOut (c : ControlRoom) : Tried id c (c.timeOut id) :=
  tried_done c fun _ => ⟨rfl, rfl, rfl, rfl, rfl, .inr rfl⟩

theorem tried_conclude (c : ControlRoom) (now : Moment) (result : Except Fault DeliveryResult) :
    Tried id c (c.conclude now id result) := by
  unfold conclude
  split
  · refine tried_done c fun e => ?_
    unfold LogEntry.answered
    split
    · exact ⟨rfl, rfl, rfl, rfl, rfl, .inl rfl⟩
    · exact ⟨rfl, rfl, rfl, rfl, rfl, .inr rfl⟩
  · split
    · exact tried_stop c _
    · exact tried_done c fun _ => ⟨rfl, rfl, rfl, rfl, rfl, .inr rfl⟩

theorem tried_beginAttempt (c : ControlRoom) (now : Moment) (id : String) :
    Tried id c (c.beginAttempt now id) := by
  have hself : decide (id = id) = true := decide_eq_true rfl
  unfold beginAttempt
  split
  · exact tried_stop c _
  · exact tried_done c fun _ => ⟨rfl, rfl, rfl, rfl, rfl, .inr rfl⟩
  · exact tried_goOn c (w := .lapsing id lapseTurns) hself nofun rfl rfl
  · rename_i r limit _ _ _
    have hbooks := sameBooks_handOver c now r (some id)
    split
    · rename_i f d hd
      rw [hd] at hbooks
      exact (tried_stop d _).after hbooks
    · rename_i h d hd
      rw [hd] at hbooks
      split
      · exact (tried_conclude d now _).after hbooks
      · exact (tried_goOn d (w := .sending id h.result) hself nofun rfl rfl).after hbooks

/-- **Work on an attempt writes into its entry only.** -/
theorem tried_program (now : Instant) (c : ControlRoom) {w : Work} (hw : w.tries id = true)
    (wake : Wake Yield) : Tried id c (program now c w wake) := by
  have hself : decide (id = id) = true := decide_eq_true rfl
  cases hclock : c.clock? now with
  | none =>
      rw [program_of_no_clock hclock]
      rcases Work.of_tries hw with rfl | ⟨r, rfl⟩ | ⟨n, rfl⟩
      · exact tried_stop c _
      · exact tried_stop c _
      · exact tried_stop c _
  | some m =>
      rw [program_of_clock hclock]
      rcases Work.of_tries hw with rfl | ⟨r, rfl⟩ | ⟨n, rfl⟩
      · cases wake with
        | stopped st => exact tried_stop c st
        | _ => exact tried_beginAttempt c m id
      · cases wake with
        | stopped st => exact tried_stop c st
        | expired => exact tried_timeOut c
        | _ => exact tried_conclude c m r
      · cases wake with
        | stopped st => exact tried_stop c st
        | _ =>
            cases n with
            | zero => exact tried_timeOut c
            | succ n => exact tried_goOn c (w := .lapsing id n) hself nofun rfl rfl

/-- A new delivery begins with an entry that waits for its first attempt. -/
theorem tried_beginDelivery (c : ControlRoom) (now : Moment) (r : DeliveryRequest) (level : Int) :
    ∃ d : ControlRoom, d.setup = c.setup ∧ d.deadLetters = c.deadLetters ∧
      (∀ e, e ≠ c.nextEntry → d.journal.get? e = c.journal.get? e) ∧
      d.journal.get? c.nextEntry = some (.begin c.nextEntry r level now) ∧
      Tried c.nextEntry d (c.beginDelivery now r level) := by
  refine ⟨{ (c.draw .notification).2 with
    journal := c.journal.insert c.nextEntry (.begin c.nextEntry r level now) }, rfl, rfl,
    fun e he => ?_, ?_, tried_beginAttempt _ now _⟩
  · show (c.journal.insert c.nextEntry _).get? e = _
    rw [Table.get?_insert, if_neg he]
  · show (c.journal.insert c.nextEntry _).get? c.nextEntry = _
    rw [Table.get?_insert, if_pos rfl]

/-- A delivery begins, or it is stopped before that. -/
theorem program_deliver (now : Instant) (c : ControlRoom) (r : DeliveryRequest) (level : Int)
    (wake : Wake Yield) :
    (∃ st, program now c (.deliver r level) wake = c.stop st) ∨
      ∃ m, c.clock? now = some m ∧
        program now c (.deliver r level) wake = c.beginDelivery m r level := by
  unfold program
  split
  · rename_i m hm
    cases wake with
    | stopped st => exact .inl ⟨st, rfl⟩
    | _ => exact .inr ⟨m, hm, rfl⟩
  · exact .inl ⟨_, rfl⟩

/-! ## Retries -/

/-- What is tried again is among what was asked for, and each of it is eligible. -/
theorem of_eligible {now : Moment} {most : Int} {es tried : List String}
    (h : c.eligible now most es = .ok tried) : tried.Sublist es ∧
      ∀ id ∈ tried, ∃ e, c.journal.get? id = some e ∧
        e.isEligible now most c.setup.backoffCap = .ok true := by
  obtain ⟨hall, rfl⟩ := filterM_eq_ok h
  refine ⟨List.filter_sublist, fun id hid => ?_⟩
  obtain ⟨hmem, heligible⟩ := List.mem_filter.mp hid
  obtain ⟨b, hb⟩ := hall id hmem
  rw [hb] at heligible
  obtain rfl : b = true := by
    cases b with
    | true => rfl
    | false => exact nomatch heligible
  split at hb
  · rename_i e he
    exact ⟨e, he, hb⟩
  · exact nomatch hb

end ControlRoom

/-- An eligible delivery has failed, has a retry left and has waited for long enough. -/
theorem LogEntry.of_isEligible {e : LogEntry} {now : Moment} {most : Int} {cap : Number}
    (h : e.isEligible now most cap = .ok true) : e.status = .failed ∧ e.retries < most ∧
      ∃ waited, e.elapsed now = .ok waited ∧ (backoff e.retries cap).le (.real waited) = true := by
  unfold isEligible at h
  split at h
  · exact nomatch Except.ok.inj h
  · rename_i hgo
    rw [Bool.or_eq_true, not_or, Bool.not_eq_true', Bool.not_eq_false] at hgo
    unfold isRetriable at hgo
    rw [Bool.and_eq_true, beq_iff_eq, decide_eq_true_iff] at hgo
    obtain ⟨waited, hwaited, h⟩ := bind_eq_ok_iff.mp h
    exact ⟨hgo.2.1, hgo.2.2, waited, hwaited, Except.ok.inj h⟩

namespace ControlRoom

variable {c d : ControlRoom} {id : String}

/-- The room when retries of some deliveries begin. -/
def beginTries (c : ControlRoom) (now : Moment) (tried : List String) : ControlRoom :=
  tried.foldl (fun c id => c.adjustEntry id (·.beginRetry now)) c

/-- Retries begin, or they are stopped before that. -/
theorem program_retry (now : Instant) (c : ControlRoom) (es : List String) (most : Int)
    (again : Bool) (wake : Wake Yield) :
    (∃ st, program now c (.retry es most again) wake = c.stop st) ∨
      ∃ m, c.clock? now = some m ∧
        program now c (.retry es most again) wake = c.beginRetry m es most again := by
  unfold program
  split
  · rename_i m hm
    cases wake with
    | stopped st => exact .inl ⟨st, rfl⟩
    | _ => exact .inr ⟨m, hm, rfl⟩
  · exact .inl ⟨_, rfl⟩

/-- How retries begin. -/
theorem beginRetry_cases (c : ControlRoom) (now : Moment) (es : List String) (most : Int)
    (again : Bool) :
    (∃ f, c.eligible now most es = .error f ∧ c.beginRetry now es most again = c.fail f) ∨
      c.eligible now most es = .ok [] ∧
        c.beginRetry now es most again = c.endRetry now [] es most again ∨
      ∃ tried, tried ≠ [] ∧ c.eligible now most es = .ok tried ∧
        c.beginRetry now es most again = (c.beginTries now tried).goOn
          (.gather (tried.map .attempt) (.retrying tried most again)) := by
  unfold beginRetry
  split
  · rename_i f hf
    exact .inl ⟨f, hf, rfl⟩
  · rename_i hnil
    exact .inr (.inl ⟨hnil, rfl⟩)
  · rename_i tried hne htried
    exact .inr (.inr ⟨tried, hne, htried, rfl⟩)

/-- Retries that are under way go on when all attempts have ended, or are stopped. -/
theorem program_retrying (now : Instant) (c : ControlRoom) (es : List String) (most : Int)
    (again : Bool) (wake : Wake Yield) :
    (∃ st, program now c (.retrying es most again) wake = c.stop st) ∨
      ∃ m ys, wake = .gathered ys ∧
        program now c (.retrying es most again) wake = c.endRetry m es es most again := by
  unfold program
  split
  · rename_i m hm
    cases wake with
    | stopped st => exact .inl ⟨st, rfl⟩
    | gathered ys => exact .inr ⟨m, ys, rfl, rfl⟩
    | _ => exact .inl ⟨_, rfl⟩
  · exact .inl ⟨_, rfl⟩

theorem leaves_beginTries (now : Moment) {tried : List String} (hid : id ∉ tried) :
    Leaves id c (c.beginTries now tried) := by
  unfold beginTries
  induction tried generalizing c with
  | nil => exact .rfl
  | cons e es ih =>
      have he : e ≠ id := fun h => hid (h ▸ List.mem_cons_self)
      exact (leaves_adjustEntry c he _).trans (ih fun h => hid (List.mem_cons_of_mem e h))

theorem endRetry_state (c : ControlRoom) (now : Moment) (tried asked : List String) (most : Int)
    (again : Bool) : (c.endRetry now tried asked most again).state = c.buryLost most tried := by
  unfold endRetry
  dsimp only
  split
  · rfl
  · rfl

/-- Nothing else is given up. -/
theorem leaves_buryLost (most : Int) {tried : List String} (hid : id ∉ tried) :
    Leaves id c (c.buryLost most tried) where
  setup := rfl
  entry := rfl
  letters := by
    show (c.deadLetters ++ _).count id = _
    rw [List.count_append, List.count_eq_zero.mpr fun h => hid (List.mem_filter.mp h).1,
      Nat.add_zero]

/-- A delivery is given up if it is lost. -/
theorem buryLost_singleton (c : ControlRoom) (most : Int) (id : String) :
    (c.buryLost most [id]).deadLetters
      = c.deadLetters ++ if (c.journal.get? id).any (·.isLost most) then [id] else [] := by
  show c.deadLetters ++ [id].filter _ = _
  rw [List.filter_singleton, Bool.cond_eq_ite]

/-- Retries of other deliveries. -/
theorem leaves_retries (now : Instant) (c : ControlRoom) {w : Work}
    (hw : (∃ es most again, w = .retry es most again) ∨ ∃ es most again, w = .retrying es most again)
    (hid : w.retries id = false) (wake : Wake Yield) : Leaves id c (program now c w wake).state := by
  rcases hw with ⟨es, most, again, rfl⟩ | ⟨es, most, again, rfl⟩
  · have hes : id ∉ es := of_decide_eq_false hid
    rcases program_retry now c es most again wake with ⟨st, h⟩ | ⟨m, -, h⟩
    · rw [h]
      exact .rfl
    · rw [h]
      rcases beginRetry_cases c m es most again with ⟨f, -, h⟩ | ⟨-, h⟩ | ⟨tried, -, htried, h⟩
      · rw [h]
        exact .rfl
      · rw [h, endRetry_state]
        exact leaves_buryLost most List.not_mem_nil
      · rw [h]
        exact leaves_beginTries m fun h => hes ((of_eligible htried).1.subset h)
  · rcases program_retrying now c es most again wake with ⟨st, h⟩ | ⟨m, ys, -, h⟩
    · rw [h]
      exact .rfl
    · rw [h, endRetry_state]
      exact leaves_buryLost most (of_decide_eq_false hid)

/-! ## All work -/

/-- Work that is neither an attempt nor a retry writes nothing. -/
theorem sameBooks_program (now : Instant) (c : ControlRoom) {w : Work} (hw : w.IsManaged)
    (htries : ∀ id, w.tries id = false) (hretries : ∀ es most again, w ≠ .retry es most again ∧
      w ≠ .retrying es most again) (hdeliver : ∀ r level, w ≠ .deliver r level)
    (wake : Wake Yield) : SameBooks c (program now c w wake).state := by
  by_cases hpass : w.IsOfPass
  · obtain ⟨n, hn⟩ := program_of_isOfPass now c hpass wake
    rw [hn]
    exact .rfl
  · have hself : ∀ id : String, decide (id = id) ≠ false := fun id h => of_decide_eq_false h rfl
    unfold program
    split
    · unfold goOnWith
      split
      · rw [stopWork_state c _ hw]
        exact .rfl
      · exact hw.elim
      · exact hw.elim
      · exact absurd (isOfPass_of_isManaged hw (.inl ⟨_, rfl⟩)).2 hpass
      · exact absurd (isOfPass_of_isManaged hw (.inr (.inl ⟨_, rfl⟩))).2 hpass
      · exact absurd (isOfPass_of_isManaged hw (.inr (.inr ⟨_, rfl⟩))).2 hpass
      · exact ⟨rfl, rfl, rfl⟩
      · unfold beginAnnouncement
        split
        · exact .rfl
        · exact sameBooks_beginNotification c _ _ _ _
      · exact hw.elim
      · exact sameBooks_takeIn c _ _ _ _ _ _
      · exact absurd rfl (hdeliver _ _)
      · exact absurd (htries _) (hself _)
      · exact absurd (htries _) (hself _)
      · exact absurd (htries _) (hself _)
      · exact absurd (htries _) (hself _)
      · exact absurd (htries _) (hself _)
      · exact hw.elim
      · exact hw.elim
      · exact absurd rfl (hretries _ _ _).1
      · exact absurd rfl (hretries _ _ _).2
      · exact sameBooks_beginEscalation c _ _ _ _
      · rw [endEscalation_state]
        exact ⟨rfl, rfl, rfl⟩
      · exact .rfl
    · rw [stopWork_state c _ hw]
      exact .rfl

/-- **Work on other deliveries leaves an entry as it is.** -/
theorem leaves_program (now : Instant) (c : ControlRoom) {w : Work} (hw : w.IsManaged)
    (htries : w.tries id = false) (hretries : w.retries id = false)
    (hdeliver : ∀ r level, w = .deliver r level → c.nextEntry ≠ id) (wake : Wake Yield) :
    Leaves id c (program now c w wake).state := by
  by_cases hother : ∃ e, w.tries e = true
  · obtain ⟨e, he⟩ := hother
    refine (tried_program now c he wake).leaves fun h => ?_
    rw [h, he] at htries
    exact nomatch htries
  by_cases hretry : (∃ es most again, w = .retry es most again) ∨
      ∃ es most again, w = .retrying es most again
  · exact leaves_retries now c hretry hretries wake
  by_cases hnew : ∃ r level, w = .deliver r level
  · obtain ⟨r, level, rfl⟩ := hnew
    have hne := hdeliver r level rfl
    rcases program_deliver now c r level wake with ⟨st, h⟩ | ⟨m, -, h⟩
    · rw [h]
      exact .rfl
    · obtain ⟨d, hsetup, hletters, hothers, -, htried⟩ := tried_beginDelivery c m r level
      have hd : Leaves id c d := ⟨hsetup, hothers id hne.symm, by rw [hletters]⟩
      rw [h]
      exact hd.trans (htried.leaves hne.symm)
  · refine (sameBooks_program now c hw (fun e => ?_) (fun es most again => ⟨fun h => ?_, fun h => ?_⟩)
      (fun r level h => hnew ⟨r, level, h⟩) wake).leaves
    · exact Bool.not_eq_true _ ▸ fun h => hother ⟨e, h⟩
    · exact hretry (.inl ⟨es, most, again, h⟩)
    · exact hretry (.inr ⟨es, most, again, h⟩)

end ControlRoom

/-! ## Requests -/

namespace Office

/-- What somebody does about an alert is not written into the books. -/
theorem sameBooks_settleAlert (o : Office) (id : String) (f : Alert → Option Alert) :
    ControlRoom.SameBooks o.state (o.settleAlert id f).2.state := by
  unfold settleAlert
  split
  · exact .rfl
  · dsimp only
    rw [(rebooked_cancelAlert _ id).state]
    exact ⟨rfl, rfl, rfl⟩

/-- **Nothing that is asked for is written into the books.** -/
theorem sameBooks_serve {o : Office} (hn : Agenda.Numbered o) (q : Request) :
    ControlRoom.SameBooks o.state (serve o q).state := by
  have heq : ∀ {c : ControlRoom}, c = o.state → ControlRoom.SameBooks o.state c :=
    fun h => h ▸ .rfl
  have hadd : ∀ (c : ControlRoom) (k : Configuration),
      ControlRoom.SameBooks c (c.addConfiguration k).2 := by
    intro c k
    unfold ControlRoom.addConfiguration
    split
    · exact .rfl
    · exact ⟨rfl, rfl, rfl⟩
  cases q with
  | addConfiguration k => exact hadd o.state k
  | addFromTemplate key u =>
      show ControlRoom.SameBooks o.state (o.state.addFromTemplate o.clock key u).2
      unfold ControlRoom.addFromTemplate
      split
      · exact .rfl
      · rename_i t _
        have hdraft : ControlRoom.SameBooks o.state
            (o.state.drafting (t.configuration u o.clock)).2 := ⟨rfl, rfl, rfl⟩
        split
        · rename_i f d hd
          rw [hd] at hdraft
          exact hdraft
        · rename_i k d hd
          rw [hd] at hdraft
          have hkeep := hadd d k
          split
          · rename_i e d' hd'
            rw [hd'] at hkeep
            exact hdraft.trans hkeep
          · rename_i v d' hd'
            rw [hd'] at hkeep
            exact hdraft.trans hkeep
  | updateConfiguration id ch =>
      show ControlRoom.SameBooks o.state (o.state.updateConfiguration o.clock id ch).2
      unfold ControlRoom.updateConfiguration
      split
      · exact .rfl
      · split
        · exact .rfl
        · dsimp only
          split
          · exact .rfl
          · exact ⟨rfl, rfl, rfl⟩
  | setStatus id s => exact ⟨rfl, rfl, rfl⟩
  | setRuleEnabled id ruleId on =>
      show ControlRoom.SameBooks o.state (o.state.setRuleEnabled o.clock id ruleId on)
      unfold ControlRoom.setRuleEnabled
      split
      · exact .rfl
      · exact ⟨rfl, rfl, rfl⟩
  | openLine channel carrier => exact ⟨rfl, rfl, rfl⟩
  | pass s => exact .rfl
  | retry entries most => exact .rfl
  | escalate id p level => exact .rfl
  | acknowledge id who => exact sameBooks_settleAlert o id _
  | resolve id who notes => exact sameBooks_settleAlert o id _
  | markFalsePositive id who => exact sameBooks_settleAlert o id _
  | bookRetries entries =>
      exact heq (rebooked_bookAll (o.state.retryAppointments o.clock entries).1 hn).state
  | bookEscalation id p =>
      show ControlRoom.SameBooks o.state (o.bookEscalation id p).2.state
      unfold bookEscalation
      split
      · exact .rfl
      · rename_i m _
        exact heq (rebooked_bookAll m.toList hn).state
  | shutdown => exact heq (rebooked_cancelBookings o).state

end Office

end BuildingAlerts
