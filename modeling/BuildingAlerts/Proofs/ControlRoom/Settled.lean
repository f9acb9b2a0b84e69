/-
What an attempt leaves in the log.

An attempt that ends is put down in one of two ways. After a success the entry has the time of the
delivery and no error, after anything else a reason that is not empty and nothing of a delivery:
no time, and no name for the message. Retries that come one after the other find a delivery only
while it has failed, so a success is never written over.
-/
import BuildingAlerts.Proofs.ControlRoom.Retries
import Mathlib.Data.List.Infix

set_option autoImplicit false

namespace BuildingAlerts

open Agenda

/-! ## Reasons -/

theorem Fault.remark_ne_empty (f : Fault) : f.remark ≠ "" := by
  unfold remark
  split
  · rename_i hmessage
    rw [Bool.not_eq_true', String.isEmpty_eq_false_iff] at hmessage
    exact hmessage
  · split <;> decide

theorem DeliveryResult.refusal_ne_empty (r : DeliveryResult) : r.refusal ≠ "" := by
  unfold refusal
  cases herror : r.error.filter (!·.isEmpty) with
  | none => exact nofun
  | some text =>
      obtain ⟨-, htext⟩ := Option.filter_eq_some_iff.mp herror
      rw [Bool.not_eq_true', String.isEmpty_eq_false_iff] at htext
      exact htext

/-! ## Entries -/

namespace LogEntry

variable {e : LogEntry}

/-- Nothing is known of a delivery. -/
structure IsUndelivered (e : LogEntry) : Prop where
  deliveredAt : e.deliveredAt = none
  messageId : e.messageId = .null

/-- The first attempt has not ended. -/
structure IsPending (e : LogEntry) : Prop extends IsUndelivered e where
  status : e.status = .pending

/-- The latest attempt has failed, for a reason. -/
structure IsRefused (e : LogEntry) : Prop extends IsUndelivered e where
  status : e.status = .failed
  error : ∃ reason, e.error = some reason ∧ reason ≠ ""

/-- An attempt has succeeded. -/
structure IsDelivered (e : LogEntry) : Prop where
  status : e.status = .sent
  error : e.error = none
  deliveredAt : ∃ m, e.deliveredAt = some m

/-- What an attempt leaves. -/
def IsSettled (e : LogEntry) : Prop :=
  e.IsDelivered ∨ e.IsRefused

theorem isPending_begin (id : String) (r : DeliveryRequest) (level : Int) (now : Moment) :
    (begin id r level now).IsPending :=
  ⟨⟨rfl, rfl⟩, rfl⟩

theorem isDelivered_markSent (e : LogEntry) (r : DeliveryResult) (now : Moment) :
    (e.markSent r now).IsDelivered :=
  ⟨rfl, rfl, _, rfl⟩

theorem IsUndelivered.markFailed (he : e.IsUndelivered) {reason : String} (hreason : reason ≠ "") :
    (e.markFailed reason).IsRefused :=
  ⟨⟨he.deliveredAt, he.messageId⟩, rfl, reason, rfl, hreason⟩

theorem IsUndelivered.answered (he : e.IsUndelivered) (r : DeliveryResult) (now : Moment) :
    (e.answered r now).IsSettled := by
  unfold LogEntry.answered
  split
  · exact .inl (isDelivered_markSent e r now)
  · exact .inr (he.markFailed r.refusal_ne_empty)

theorem IsUndelivered.timedOut (he : e.IsUndelivered) (limit : Number) :
    (e.timedOut limit).IsRefused :=
  he.markFailed fun hempty => by
    have hlength := congrArg String.length hempty
    rw [String.length_append, String.length_append] at hlength
    have hsome : 0 < "Delivery timed out after ".length := by decide
    have hnone : "".length = 0 := rfl
    omega

/-- A retry that begins leaves the reason of the failure. -/
theorem IsRefused.beginRetry (he : e.IsRefused) (now : Moment) : (e.beginRetry now).IsRefused :=
  ⟨⟨he.deliveredAt, he.messageId⟩, he.status, he.error⟩

theorem IsPending.ne_sent (he : e.IsPending) : e.status ≠ .sent := by
  rw [he.status]
  exact nofun

theorem IsRefused.ne_sent (he : e.IsRefused) : e.status ≠ .sent := by
  rw [he.status]
  exact nofun

end LogEntry

/-! ## Ends of attempts -/

namespace ControlRoom

variable {c : ControlRoom} {id : String} {e : LogEntry}

/-- A stretch that ends leaves the delivery settled, unless its channel has no line. -/
def Settles (id : String) (t : Stretch) : Prop :=
  ∀ x, t.next = .finish x → (∃ e, t.state.journal.get? id = some e ∧ e.IsSettled) ∨
    ∃ channel, x = .error (.failed (.unsupportedChannel channel))

theorem settles_done (he : c.journal.get? id = some e) {f : LogEntry → LogEntry}
    (hf : (f e).IsSettled) : Settles id ((c.adjustEntry id f).done [id]) := by
  refine fun _ _ => .inl ⟨f e, ?_, hf⟩
  show (c.journal.adjust id f).get? id = _
  rw [Table.get?_adjust, if_pos rfl, he]
  rfl

theorem settles_fail_unsupported (c : ControlRoom) (channel : Channel) :
    Settles id (c.fail (.unsupportedChannel channel)) :=
  fun _ hx => .inr ⟨channel, (Next.finish.inj hx).symm⟩

theorem settles_of_body? {t : Stretch} {w : Work} (ht : t.next.body? = some w) : Settles id t := by
  intro x hx
  rw [hx] at ht
  exact nomatch ht

theorem settles_timeOut (he : c.journal.get? id = some e) (hopen : e.IsUndelivered) :
    Settles id (c.timeOut id) :=
  settles_done he (.inr (hopen.timedOut c.setup.dispatchTimeout))

theorem settles_conclude (he : c.journal.get? id = some e) (hopen : e.IsUndelivered) (now : Moment)
    (result : Except Fault DeliveryResult) : Settles id (c.conclude now id result) := by
  unfold conclude
  split
  · rename_i r
    exact settles_done he (hopen.answered r now)
  · rename_i f
    split
    · rename_i hunsupported
      cases f with
      | unsupportedChannel channel => exact settles_fail_unsupported c channel
      | _ => exact nomatch hunsupported
    · exact settles_done he (.inr (hopen.markFailed f.remark_ne_empty))

/-- A message that cannot be handed over has no line. -/
theorem handOver_eq_error {now : Moment} {r : DeliveryRequest} {entry : Option String} {f : Fault}
    {d : ControlRoom} (h : c.handOver now r entry = (.error f, d)) :
    f = .unsupportedChannel r.channel := by
  unfold handOver at h
  split at h
  · exact (Except.error.inj (Prod.mk.inj h).1).symm
  · split at h
    · exact nomatch (Prod.mk.inj h).1
    · exact nomatch (Prod.mk.inj h).1

theorem settles_beginAttempt (he : c.journal.get? id = some e) (hopen : e.IsUndelivered)
    (hrequest : e.request.isSome = true) (now : Moment) : Settles id (c.beginAttempt now id) := by
  unfold beginAttempt
  split
  · rename_i hnone
    rw [he] at hnone
    have hnone : e.request = none := hnone
    rw [hnone] at hrequest
    exact nomatch hrequest
  · exact settles_done he (.inr (hopen.markFailed (by decide)))
  · exact settles_of_body? (w := .lapsing id lapseTurns) rfl
  · rename_i r limit _ _ _
    have hbooks := sameBooks_handOver c now r (some id)
    split
    · rename_i f d hd
      rw [handOver_eq_error hd]
      exact settles_fail_unsupported d r.channel
    · rename_i h d hd
      rw [hd] at hbooks
      split
      · refine settles_conclude ?_ hopen now h.result
        rw [hbooks.journal]
        exact he
      · exact settles_of_body? (w := .sending id h.result) rfl

theorem settles_beginDelivery (c : ControlRoom) (now : Moment) (r : DeliveryRequest) (level : Int) :
    Settles c.nextEntry (c.beginDelivery now r level) := by
  refine settles_beginAttempt (e := .begin c.nextEntry r level now) ?_
    (LogEntry.isPending_begin c.nextEntry r level now).toIsUndelivered rfl now
  show (c.journal.insert c.nextEntry _).get? c.nextEntry = _
  rw [Table.get?_insert, if_pos rfl]
  rfl

/-- Who tries a delivery and is stopped ends there. -/
theorem stopWork_of_tries (c : ControlRoom) (st : Stop) {w : Work} (hw : w.tries id = true) :
    c.stopWork st w = c.stop st := by
  rcases Work.of_tries hw with rfl | ⟨r, rfl⟩ | ⟨n, rfl⟩ <;> rfl

/-- **An attempt that goes on and ends settles its delivery**, whatever the provider did. -/
theorem settles_goOnWith (he : c.journal.get? id = some e) (hopen : e.IsUndelivered)
    (hrequest : e.request.isSome = true) (now : Moment) {w : Work} (hw : w.tries id = true)
    {wake : Wake Yield} (hwake : ∀ st, wake ≠ .stopped st) : Settles id (c.goOnWith now w wake) := by
  rcases Work.of_tries hw with rfl | ⟨r, rfl⟩ | ⟨n, rfl⟩
  · cases wake with
    | stopped st => exact absurd rfl (hwake st)
    | _ => exact settles_beginAttempt he hopen hrequest now
  · cases wake with
    | stopped st => exact absurd rfl (hwake st)
    | expired => exact settles_timeOut he hopen
    | _ => exact settles_conclude he hopen now r
  · cases wake with
    | stopped st => exact absurd rfl (hwake st)
    | _ =>
        cases n with
        | zero => exact settles_timeOut he hopen
        | succ n => exact settles_of_body? (w := .lapsing id n) rfl

/-! ## Retries that begin -/

/-- What every retry that begins leaves true of an entry stays true of it. -/
theorem get?_beginTries {P : LogEntry → Prop} {now : Moment}
    (hP : ∀ {e : LogEntry}, P e → P (e.beginRetry now)) {tried : List String}
    (he : ∃ e, c.journal.get? id = some e ∧ P e) :
    ∃ e, (c.beginTries now tried).journal.get? id = some e ∧ P e := by
  unfold beginTries
  induction tried generalizing c with
  | nil => exact he
  | cons x xs ih =>
      refine ih ?_
      obtain ⟨e, he, hPe⟩ := he
      have hget : (c.adjustEntry x (·.beginRetry now)).journal.get? id
          = if id = x then (c.journal.get? id).map (·.beginRetry now) else c.journal.get? id :=
        Table.get?_adjust c.journal x id _
      rw [he] at hget
      split at hget
      · exact ⟨_, hget, hP hPe⟩
      · exact ⟨e, hget, hPe⟩

end ControlRoom

namespace Office

variable {p : Premises} {h k : Past} {o o' : Office} {id : String} {n : Doing} {t u : TaskId}

/-- The retries of a delivery come one after the other. Each names it once at most, and when one
tries it again, the attempts that those before have started at it have ended. -/
structure RetriedInTurn (id : String) (h : Past) : Prop where
  once : ∀ n ∈ h, ∀ es most again, n.body = .retry es most again → es.count id ≤ 1
  earlier : ∀ n k, n :: k <:+ h → triesAgain id n = true → ∀ s ∈ k, triesAgain id s = true →
    ∀ t, s.Starts ControlRoom.program t (.attempt id) →
      ∃ q ∈ k, q.task = t ∧ ∃ x, q.Ends ControlRoom.program x

theorem RetriedInTurn.of_suffix (hh : RetriedInTurn id h) (hk : k <:+ h) : RetriedInTurn id k where
  once n hn := hh.once n (hk.subset hn)
  earlier n l hn := hh.earlier n l (hn.trans hk)

/-- **Retries that return before the next begins come one after the other.** A retry returns only
when the attempts that it has started have ended. -/
theorem Premises.Run.retriedInTurn (hr : p.Run h o)
    (hone : ∀ n ∈ h, ∀ es most again, n.body = .retry es most again → es.count id ≤ 1)
    (hreturns : ∀ n k, n :: k <:+ h → triesAgain id n = true → ∀ s ∈ k, triesAgain id s = true →
      ∃ q ∈ k, q.task = s.task ∧ ∃ y, q.Ends ControlRoom.program (.ok y)) :
    RetriedInTurn id h := by
  refine ⟨hone, fun n k hn hagain s hs hsagain t hstarts => ?_⟩
  obtain ⟨q, hq, htask, y, hends⟩ := hreturns n k hn hagain s hs hsagain
  have hkh : k <:+ h := (List.suffix_cons n k).trans hn
  have hsh := hkh.subset hs
  have hqh := hkh.subset hq
  obtain ⟨es, most, again, m, tried, hbody, -, -, -, hturn⟩ := hr.turn_of_triesAgain hsh hsagain
  have hgoes : (s.turn ControlRoom.program).next.body? = some (.retrying tried most again) := by
    rw [hturn]
    rfl
  have hcoherent := hr.keeps.coherent.of_suffix hkh
  -- the retry has gone on after it had started the attempts
  have hne : q ≠ s := by
    rintro rfl
    rw [show (q.turn ControlRoom.program).next = .finish (.ok y) from hends] at hgoes
    exact nomatch hgoes
  obtain ⟨d, e, hd, hdtask, hlatest⟩ := (History.latest_or_next hs).resolve_left fun hlatest => by
    have hlast := hcoherent.latest_of_ends hq hends
    rw [htask, hlatest] at hlast
    exact hne (Option.some.inj hlast).symm
  obtain ⟨-, -, hleads⟩ := hcoherent.next hd hdtask hlatest
  have hdbody : d.body = .retrying tried most again :=
    Option.some.inj (hleads.body.symm.trans hgoes)
  have hdturn : d.turn ControlRoom.program
      = ControlRoom.program d.now d.state (.retrying tried most again) d.wake := by
    rw [← hdbody]
    rfl
  rcases ControlRoom.program_retrying d.now d.state tried most again d.wake with
    ⟨st, hst⟩ | ⟨-, ys, hwake, -⟩
  · have hstops : d.Ends ControlRoom.program (.error st) := by
      unfold Stint.Ends
      rw [hdturn, hst]
      rfl
    obtain rfl := hcoherent.ends_unique (hd.subset List.mem_cons_self) hq hstops hends
      (hdtask.trans htask.symm)
    exact nomatch Next.finish.inj (hstops.symm.trans hends)
  · rw [hwake] at hleads
    obtain ⟨cs, -, hys⟩ := hleads.of_gathered
    obtain ⟨r, -, hended⟩ :=
      History.exists_result_of_child hys (History.mem_childIds.mpr ⟨_, hstarts⟩)
    obtain ⟨f, hf, hftask, -, hfends⟩ := hended.of_ok
    exact ⟨f, ((List.suffix_cons d e).trans hd).subset hf, hftask, .ok r, hfends⟩

/-! ## What a stint does to an entry -/

/-- A stint that neither tries a delivery, nor draws it, nor tries it again leaves the entry as it
is and has no heirs that try it. -/
theorem Premises.Step.untried (hs : p.Step h o n o') (htries : n.body.tries id = false)
    (hdraws : draws id n = false) (hagain : triesAgain id n = false) :
    o'.state.journal.get? id = o.state.journal.get? id ∧
      ∀ v ∈ (n.turn ControlRoom.program).heirs, v.tries id = false := by
  rw [hs.leaves, ← hs.state]
  by_cases hretries : n.body.retries id = true
  · have hstop : ∀ {st : Stop}, ∀ v ∈ (n.state.stop st).heirs, v.tries id = false :=
      fun v hv => absurd hv List.not_mem_nil
    have hturn : n.turn ControlRoom.program
        = ControlRoom.program n.now n.state n.body n.wake := rfl
    rw [hturn]
    cases hbody : n.body with
    | retry es most again =>
        rcases ControlRoom.program_retry n.now n.state es most again n.wake with
          ⟨st, h⟩ | ⟨m, hclock, h⟩
        · rw [h]
          exact ⟨rfl, hstop⟩
        · rw [h]
          rcases ControlRoom.beginRetry_cases n.state m es most again with
            ⟨f, -, h⟩ | ⟨-, h⟩ | ⟨tried, -, htried, h⟩
          · rw [h]
            exact ⟨rfl, hstop⟩
          · rw [h, ControlRoom.endRetry_state]
            exact ⟨rfl, ControlRoom.tries_endRetry n.state m [] es most again⟩
          · have hid : id ∉ tried := fun hid => Bool.false_ne_true (hagain.symm.trans
              (triesAgain_iff.mpr ⟨es, most, again, m, tried, hbody, hclock, htried, hid⟩))
            rw [h, ControlRoom.heirs_tryAgain]
            refine ⟨(ControlRoom.leaves_beginTries m hid).entry,
              List.forall_mem_cons.mpr ⟨rfl, fun v hv => ?_⟩⟩
            obtain ⟨x, hx, rfl⟩ := List.mem_map.mp hv
            exact decide_eq_false fun hxid => hid (hxid ▸ hx)
    | retrying es most again =>
        rcases ControlRoom.program_retrying n.now n.state es most again n.wake with
          ⟨st, h⟩ | ⟨m, ys, -, h⟩
        · rw [h]
          exact ⟨rfl, hstop⟩
        · rw [h, ControlRoom.endRetry_state]
          exact ⟨rfl, ControlRoom.tries_endRetry n.state m es es most again⟩
    | _ =>
        rw [hbody] at hretries
        exact absurd hretries Bool.false_ne_true
  · obtain ⟨hleaves, hnone, -⟩ := hs.aside htries (Bool.not_eq_true _ ▸ hretries) hdraws
    exact ⟨hleaves.entry, hnone⟩

/-! ## Attempts that end -/

/-- An attempt breaks off: it is stopped, the calendar is over, or its channel has no line. -/
inductive EndsUnsettled (n : Doing) : Outcome Yield → Prop
  | stopped {st : Stop} (hwake : n.wake = .stopped st) : EndsUnsettled n (.error st)
  | late (hclock : n.state.clock? n.now = none) : EndsUnsettled n (.error (.failed .outOfBounds))
  | unsupported (channel : Channel) : EndsUnsettled n (.error (.failed (.unsupportedChannel channel)))

/-- A stint leaves a delivery settled. -/
def LeavesSettled (id : String) (n : Doing) : Prop :=
  ∃ e, (n.turn ControlRoom.program).state.journal.get? id = some e ∧ e.IsSettled

/-- **An attempt that ends settles its delivery, or it breaks off.** -/
theorem settled_of_tries (htries : n.body.tries id = true) {e : LogEntry}
    (he : n.state.journal.get? id = some e) (hopen : e.IsUndelivered)
    (hrequest : e.request.isSome = true) {x : Outcome Yield}
    (hends : n.Ends ControlRoom.program x) : LeavesSettled id n ∨ EndsUnsettled n x := by
  have hturn : n.turn ControlRoom.program
      = ControlRoom.program n.now n.state n.body n.wake := rfl
  cases hclock : n.state.clock? n.now with
  | none =>
      rw [ControlRoom.program_of_no_clock hclock, ControlRoom.stopWork_of_tries _ _ htries] at hturn
      unfold Stint.Ends at hends
      rw [hturn] at hends
      exact .inr (Next.finish.inj hends ▸ .late hclock)
  | some m =>
      rw [ControlRoom.program_of_clock hclock] at hturn
      by_cases hstop : ∃ st, n.wake = .stopped st
      · obtain ⟨st, hwake⟩ := hstop
        have hstopped : n.state.goOnWith m n.body (.stopped st) = n.state.stopWork st n.body := rfl
        rw [hwake, hstopped, ControlRoom.stopWork_of_tries _ _ htries] at hturn
        unfold Stint.Ends at hends
        rw [hturn] at hends
        exact .inr (Next.finish.inj hends ▸ .stopped hwake)
      · have hsettles := ControlRoom.settles_goOnWith he hopen hrequest m htries (not_exists.mp hstop)
        rw [← hturn] at hsettles
        exact (hsettles x hends).imp_right fun ⟨channel, hx⟩ => hx ▸ .unsupported channel

/-- The first attempt settles the delivery as well. -/
theorem Premises.Run.settled_of_draws (hr : p.Run h o) (hn : n ∈ h) (hdraws : draws id n = true)
    {x : Outcome Yield} (hends : n.Ends ControlRoom.program x) :
    LeavesSettled id n ∨ EndsUnsettled n x := by
  obtain ⟨r, level, m, -, -, rfl, hturn⟩ := hr.turn_of_draws hn hdraws
  have hsettles := ControlRoom.settles_beginDelivery n.state m r level
  rw [← hturn] at hsettles
  exact (hsettles x hends).imp_right fun ⟨channel, hx⟩ => hx ▸ .unsupported channel

/-! ## Entries and attempts -/

/-- A retry has started a task for a delivery. -/
def StartedAgain (id : String) (t : TaskId) (h : Past) : Prop :=
  ∃ s ∈ h, triesAgain id s = true ∧ s.Starts ControlRoom.program t (.attempt id)

theorem StartedAgain.mono (hs : StartedAgain id t h) (hk : ∀ s ∈ h, s ∈ k) : StartedAgain id t k :=
  let ⟨s, hsm, hrest⟩ := hs
  ⟨s, hk s hsm, hrest⟩

/-- The entry of a delivery is pending or settled. Whoever tries the delivery finds it pending, or
refused if a retry has started him. -/
structure Settling (id : String) (h : Past) (o : Office) : Prop where
  tries : Sole (·.tries id) o
  drawn : ∀ {e}, o.state.journal.get? id = some e → ∃ d ∈ h, draws id d = true
  entry : ∀ {e}, o.state.journal.get? id = some e →
    e.request.isSome = true ∧ (e.IsPending ∨ e.IsSettled)
  trying : ∀ {t j}, Agenda.job? o t = some j → j.2.tries id = true →
    ∃ e, o.state.journal.get? id = some e ∧ (e.IsPending ∨ e.IsRefused ∧ StartedAgain id t h)
  sent : ∀ s ∈ h, ∀ e, (s.turn ControlRoom.program).state.journal.get? id = some e →
    e.status = .sent → o.state.journal.get? id = some e

theorem settling_idle (id : String) (p : Premises) : Settling id [] (.idle p.room) where
  tries := sole_idle _
  drawn he := nomatch he
  entry he := nomatch he
  trying hj := nomatch hj
  sent _ hs := absurd hs List.not_mem_nil

/-- Nothing becomes of an entry while nobody tries the delivery. -/
theorem Settling.lose (hk : Settling id h o)
    (hentry : o'.state.journal.get? id = o.state.journal.get? id)
    (hjobs : ∀ {t j}, Agenda.job? o' t = some j → j.2.tries id = true → Agenda.job? o t = some j)
    {k : Past} (hquiet : ∀ n ∈ k, (n.turn ControlRoom.program).state = o'.state) :
    Settling id (k ++ h) o' := by
  have hmem : ∀ s ∈ h, s ∈ k ++ h := fun s hs => List.mem_append_right k hs
  refine {
    tries := ⟨fun hj hj' ht ht' => hk.tries.eq (hjobs hj ht) (hjobs hj' ht') ht ht'⟩
    drawn := fun he => ?_
    entry := fun he => hk.entry (hentry ▸ he)
    trying := fun hj ht => ?_
    sent := fun s hs e he hsent => ?_ }
  · obtain ⟨d, hd, hdraws⟩ := hk.drawn (hentry ▸ he)
    exact ⟨d, hmem d hd, hdraws⟩
  · obtain ⟨e, he, hopen⟩ := hk.trying (hjobs hj ht) ht
    exact ⟨e, hentry ▸ he, hopen.imp_right (.imp_right (·.mono hmem))⟩
  · rcases List.mem_append.mp hs with hs | hs
    · rw [← hquiet s hs]
      exact he
    · rw [hentry]
      exact hk.sent s hs e he hsent

/-- An attempt goes on, or it ends and settles the delivery. -/
theorem Settling.tried (hk : Settling id h o) (hs : p.Step h o n o') {c : ControlRoom}
    (htried : ControlRoom.Tried id c (n.turn ControlRoom.program)) {e : LogEntry}
    (he : c.journal.get? id = some e) (hrequest : e.request.isSome = true)
    (hopen : e.IsPending ∨ e.IsRefused ∧ StartedAgain id n.task h)
    (hends : ∀ y, n.Ends ControlRoom.program (.ok y) → LeavesSettled id n)
    (hdrawn : ∃ d ∈ n :: h, draws id d = true)
    (hsole : n.body.tries id = true ∨ ∀ u j, Agenda.job? o u = some j → j.2.tries id = false)
    (hunsent : ∀ x, o.state.journal.get? id = some x → x.status ≠ .sent) :
    Settling id (n :: h) o' := by
  have hmem : ∀ s ∈ h, s ∈ n :: h := fun s => List.mem_cons_of_mem n
  refine {
    tries := hs.sole hk.tries (Nat.le_trans (List.length_filter_le _ _) htried.length_heirs)
      fun _ => hsole
    drawn := fun _ => hdrawn
    entry := fun {x} hx => ?_
    trying := fun hj ht => ?_
    sent := fun s hsm x hx hsent => ?_ }
  · have hsame : o'.state.journal.get? id = c.journal.get? id →
        x.request.isSome = true ∧ (x.IsPending ∨ x.IsSettled) := fun hsame => by
      obtain rfl := Option.some.inj (hx.symm.trans (hsame.trans he))
      exact ⟨hrequest, hopen.imp_right fun hrefused => .inr hrefused.1⟩
    rw [hs.leaves] at hx hsame
    cases htried.tries with
    | fails hentry _ _ => exact hsame hentry
    | goesOn hentry _ _ _ _ => exact hsame hentry
    | ends hentry hf _ hnext =>
        obtain ⟨x', hx', hsettled⟩ := hends _ hnext
        obtain rfl := Option.some.inj (hx.symm.trans hx')
        rw [he] at hentry
        obtain rfl := Option.some.inj (hx.symm.trans hentry)
        exact ⟨(hf e).request ▸ hrequest, .inr hsettled⟩
  · rcases hs.of_tried htried hj with ⟨hne, hold⟩ | ⟨rfl, -, hentry⟩
    · rcases hsole with hn | hnone
      · exact absurd (hk.tries.eq hold hs.job ht hn) hne
      · exact nomatch ht.symm.trans (hnone _ _ hold)
    · exact ⟨e, hentry.trans he, hopen.imp_right (.imp_right (·.mono hmem))⟩
  · rcases List.mem_cons.mp hsm with rfl | hsm
    · rw [hs.leaves]
      exact hx
    · exact absurd hsent (hunsent x (hk.sent s hsm x hx hsent))

/-- Whoever tries a delivery finds its entry without a success. -/
theorem Settling.entry_of_tries (hk : Settling id h o) (hs : p.Step h o n o')
    (htries : n.body.tries id = true) : ∃ e, n.state.journal.get? id = some e ∧
      e.request.isSome = true ∧ (e.IsPending ∨ e.IsRefused ∧ StartedAgain id n.task h) := by
  obtain ⟨e, he, hopen⟩ := hk.trying hs.job htries
  exact ⟨e, hs.state ▸ he, (hk.entry he).1, hopen⟩

/-- **An attempt that ends settles its delivery, or it breaks off.** -/
theorem Settling.settled (hk : Settling id h o) (hs : p.Step h o n o')
    (htries : n.body.tries id = true) {x : Outcome Yield}
    (hends : n.Ends ControlRoom.program x) : LeavesSettled id n ∨ EndsUnsettled n x := by
  obtain ⟨e, he, hrequest, hopen⟩ := hk.entry_of_tries hs htries
  have hundelivered : e.IsUndelivered :=
    hopen.elim (·.toIsUndelivered) fun hrefused => hrefused.1.toIsUndelivered
  exact settled_of_tries htries he hundelivered hrequest hends

/-- An attempt that is under way. -/
theorem Settling.attempt (hk : Settling id h o) (hs : p.Step h o n o')
    (htries : n.body.tries id = true) : Settling id (n :: h) o' := by
  obtain ⟨e, he, hrequest, hopen⟩ := hk.entry_of_tries hs htries
  obtain ⟨d, hd, hdraws⟩ := hk.drawn (hs.state ▸ he)
  refine hk.tried hs (ControlRoom.tried_program n.now n.state htries n.wake) he hrequest hopen
    (fun y hends => (hk.settled hs htries hends).resolve_right nofun)
    ⟨d, List.mem_cons_of_mem n hd, hdraws⟩ (.inl htries) fun x hx => ?_
  obtain rfl := Option.some.inj (he.symm.trans (hs.state ▸ hx))
  exact hopen.elim (·.ne_sent) fun hrefused => hrefused.1.ne_sent

/-- The first attempt. -/
theorem Settling.draw (hk : Settling id h o) (hs : p.Step h o n o') (hone : GivenOnce id (n :: h))
    (hdraws : draws id n = true) : Settling id (n :: h) o' := by
  have hn : n ∈ n :: h := List.mem_cons_self
  obtain ⟨r, level, m, hbody, -, hid, hturn⟩ := hs.after.turn_of_draws hn hdraws
  obtain ⟨c, -, -, -, hbegin, htried⟩ := ControlRoom.tried_beginDelivery n.state m r level
  rw [← hturn, hid] at htried
  rw [hid] at hbegin
  -- the identifier is new, so there is no entry yet and nobody tries the delivery
  have hfirst := (hs.after.first hn (by rw [hbody]; trivial)).1
  have hnone : ∀ x, o.state.journal.get? id ≠ some x := fun x hx => by
    obtain ⟨d, hd, hdd⟩ := hk.drawn hx
    exact hs.coherent.ne_of_first (List.suffix_refl _) hfirst d hd
      (hone d (List.mem_cons_of_mem n hd) n hn hdd hdraws)
  refine hk.tried hs htried hbegin rfl (.inl (LogEntry.isPending_begin id r level m))
    (fun y hends => (hs.after.settled_of_draws hn hdraws hends).resolve_right nofun)
    ⟨n, hn, hdraws⟩ (.inr fun u j hj => Bool.not_eq_true _ ▸ fun ht => ?_)
    fun x hx => absurd hx (hnone x)
  obtain ⟨x, hx, -⟩ := hk.trying hj ht
  exact hnone x hx

/-- A retry that tries a delivery again finds it refused and nobody who tries it. -/
theorem Settling.idle_of_triesAgain (hk : Settling id h o) (hs : p.Step h o n o')
    (hturns : RetriedInTurn id (n :: h)) (hagain : triesAgain id n = true) :
    (∃ e, o.state.journal.get? id = some e ∧ e.IsRefused ∧ e.request.isSome = true) ∧
      ∀ u j, Agenda.job? o u = some j → j.2.tries id = false := by
  obtain ⟨es, most, again, m, tried, -, -, htried, hid⟩ := triesAgain_iff.mp hagain
  obtain ⟨e, he, heligible⟩ := (ControlRoom.of_eligible htried).2 id hid
  obtain ⟨hfailed, -⟩ := LogEntry.of_isEligible heligible
  rw [hs.state] at he
  obtain ⟨hrequest, hstate⟩ := hk.entry he
  have hrefused : e.IsRefused := by
    rcases hstate with hpending | hdelivered | hrefused
    · exact nomatch hfailed.symm.trans hpending.status
    · exact nomatch hfailed.symm.trans hdelivered.status
    · exact hrefused
  refine ⟨⟨e, he, hrefused, hrequest⟩, fun u j hj => Bool.not_eq_true _ ▸ fun ht => ?_⟩
  obtain ⟨x, hx, hpending | ⟨-, s, hsm, hsagain, hstarts⟩⟩ := hk.trying hj ht
  · obtain rfl := Option.some.inj (he.symm.trans hx)
    exact nomatch hfailed.symm.trans hpending.status
  · -- the attempts of earlier retries are over
    obtain ⟨q, hq, rfl, y, hends⟩ :=
      hturns.earlier n h (List.suffix_refl _) hagain s hsm hsagain u hstarts
    exact nomatch hj.symm.trans (hs.before.job?_of_ends hq hends)

/-- A retry tries the delivery again. -/
theorem Settling.resend (hk : Settling id h o) (hs : p.Step h o n o')
    (hturns : RetriedInTurn id (n :: h)) (hagain : triesAgain id n = true) :
    Settling id (n :: h) o' := by
  have hn : n ∈ n :: h := List.mem_cons_self
  obtain ⟨⟨e, he, hrefused, hrequest⟩, hidle⟩ := hk.idle_of_triesAgain hs hturns hagain
  obtain ⟨es, most, again, m, tried, hbody, hclock, htried, hid, hturn⟩ :=
    hs.after.turn_of_triesAgain hn hagain
  obtain ⟨x, hx, hxrefused, hxrequest⟩ : ∃ x, o'.state.journal.get? id = some x ∧
      x.IsRefused ∧ x.request.isSome = true := by
    rw [hs.leaves, hturn]
    refine ControlRoom.get?_beginTries (fun hP => ⟨hP.1.beginRetry m, hP.2⟩) ⟨e, ?_, hrefused, hrequest⟩
    rw [hs.state]
    exact he
  have hheirs : (n.turn ControlRoom.program).heirs
      = .retrying tried most again :: tried.map .attempt := by
    rw [hturn]
    rfl
  have hstarted : ∀ {u j}, Agenda.job? o' u = some j → j.2.tries id = true →
      n.Starts ControlRoom.program u (.attempt id) := by
    intro u j hj ht
    cases hs.comes hj with
    | stays _ hold => exact nomatch ht.symm.trans (hidle u j hold)
    | goesOn _ _ hgoes =>
        rw [hturn] at hgoes
        rw [← Option.some.inj hgoes] at ht
        exact nomatch ht
    | @added i hu hi =>
        unfold Stint.jobs at hi
        rw [hturn] at hi
        obtain ⟨w, hw, rfl⟩ := Option.map_eq_some_iff.mp (List.getElem?_map .. ▸ hi)
        have hmem : w ∈ (n.turn ControlRoom.program).next.children := by
          rw [hturn]
          exact List.mem_of_getElem? hw
        obtain ⟨rfl, -⟩ := (hs.after.shaped hn).next.of_tries_child hmem ht
        unfold Stint.Starts Stint.firstChild
        rw [hturn]
        exact ⟨i, hw, by rw [hu, hs.started]; rfl⟩
  obtain ⟨d, hd, hdraws⟩ := hk.drawn he
  refine {
    tries := hs.sole hk.tries ?_ fun _ => .inr hidle
    drawn := fun _ => ⟨d, List.mem_cons_of_mem n hd, hdraws⟩
    entry := fun {y} hy => ?_
    trying := fun hj ht => ⟨x, hx, .inr ⟨hxrefused, n, hn, hagain, hstarted hj ht⟩⟩
    sent := fun s hsm y hy hsent => ?_ }
  · have hcount : ((tried.map Work.attempt).filter (·.tries id)).length = tried.count id := by
      rw [List.filter_map, List.length_map, List.count_eq_length_filter]
      rfl
    rw [hheirs, List.filter_cons_of_neg Bool.false_ne_true, hcount]
    exact Nat.le_trans ((ControlRoom.of_eligible htried).1.count_le id)
      (hturns.once n hn es most again hbody)
  · obtain rfl := Option.some.inj (hx.symm.trans hy)
    exact ⟨hxrequest, .inr (.inr hxrefused)⟩
  · rcases List.mem_cons.mp hsm with rfl | hsm
    · rw [hs.leaves]
      exact hy
    · obtain rfl := Option.some.inj (he.symm.trans (hk.sent s hsm y hy hsent))
      exact absurd hsent hrefused.ne_sent

/-- **Every stint leaves the entry pending or settled, and a success as it is.** -/
theorem Settling.stint (hk : Settling id h o) (hs : p.Step h o n o')
    (hone : GivenOnce id (n :: h)) (hturns : RetriedInTurn id (n :: h)) :
    Settling id (n :: h) o' := by
  by_cases htries : n.body.tries id = true
  · exact hk.attempt hs htries
  by_cases hdraws : draws id n = true
  · exact hk.draw hs hone hdraws
  by_cases hagain : triesAgain id n = true
  · exact hk.resend hs hturns hagain
  · obtain ⟨hentry, hheirs⟩ := hs.untried (Bool.not_eq_true _ ▸ htries)
      (Bool.not_eq_true _ ▸ hdraws) (Bool.not_eq_true _ ▸ hagain)
    refine hk.lose hentry (fun {t j} hj ht => ?_) (k := [n]) fun s hsm => ?_
    · rcases (hs.comes hj).stays_or_heir with ⟨-, hold⟩ | hheir
      · exact hold
      · exact nomatch ht.symm.trans (hheirs j.2 hheir)
    · obtain rfl := List.mem_singleton.mp hsm
      exact hs.leaves.symm

/-- Nothing that is asked for begins with an attempt. -/
theorem tries_of_mem_begun {q : Request} {j : Audience × Work} (hj : j ∈ o.begun q) :
    j.2.tries id = false := by
  have hcalls := callsFor_of_mem_begun hj
  generalize j.2 = w at hcalls
  cases hcalls <;> rfl

theorem Premises.Run.settling (hr : p.Run h o) (hone : GivenOnce id h)
    (hturns : RetriedInTurn id h) : Settling id h o := by
  induction hr with
  | idle => exact settling_idle id p
  | @step h a b place hr hb ih =>
      have hrun : p.Run h a := hr
      have hstep := hrun.step hb
      cases hs : Agenda.stintAt? a place with
      | none =>
          rw [hs] at hone hturns
          have hstate := state_of_stepAt hrun.keeps.numbered hb
          rw [hs] at hstate
          have hstate : b.state = a.state := hstate
          refine (ih hone hturns).lose (by rw [hstate]) (fun {t j} hj _ => ?_) (k := []) fun s hsm =>
            absurd hsm List.not_mem_nil
          rcases job?_of_no_stint hs hb t with h | ⟨h, -⟩
          · rw [← h]
            exact hj
          · exact nomatch h.symm.trans hj
      | some n =>
          rw [hs] at hone hturns hstep
          have hold : GivenOnce id h := hone.of_subset fun d hd => List.mem_cons_of_mem n hd
          exact (ih hold (hturns.of_suffix (List.suffix_cons n h))).stint
            ⟨hrun, hstep, place, hs, hb⟩ hone hturns
  | @pass h a time hr hready htime ih =>
      refine (ih hone hturns).lose (by rw [state_passTo]) (fun {t j} hj _ => ?_) (k := [])
        fun s hsm => absurd hsm List.not_mem_nil
      rw [job?_passTo] at hj
      exact hj
  | @serve h a b hr hb ih =>
      have hn : Agenda.Numbered a := Premises.Run.keeps (p := p) hr |>.numbered
      obtain ⟨q, rfl⟩ := hb
      refine (ih hone hturns).lose (by rw [(sameBooks_serve hn q).journal]) (fun {t j} hj ht => ?_)
        (k := []) fun s hsm => absurd hsm List.not_mem_nil
      rcases (adding_serve hn q).cases hj with hold | hnew
      · exact hold
      · exact nomatch ht.symm.trans (tries_of_mem_begun hnew)

/-- **An attempt settles its delivery, and a success is never written over.** Of a delivery whose
identifier was given once and whose retries come one after the other, each attempt that ends leaves
the entry settled, unless it broke off, and once the entry is sent it stays as it is. -/
theorem Premises.Run.settles_and_stays (hr : p.Run h o) (hone : GivenOnce id h)
    (hturns : RetriedInTurn id h) :
    (∀ n ∈ h, n.body.tries id = true ∨ draws id n = true → ∀ x, n.Ends ControlRoom.program x →
        LeavesSettled id n ∨ EndsUnsettled n x) ∧
      ∀ n ∈ h, ∀ e, (n.turn ControlRoom.program).state.journal.get? id = some e →
        e.status = .sent → o.state.journal.get? id = some e := by
  refine ⟨fun n hn hattempt x hends => ?_, (hr.settling hone hturns).sent⟩
  rcases hattempt with htries | hdraws
  · obtain ⟨k, hn⟩ := History.exists_suffix_of_mem hn
    have hk : k <:+ h := (List.suffix_cons n k).trans hn
    obtain ⟨b, c, hs⟩ := hr.stepped hn
    have hb := hs.before.settling (hone.of_subset fun d => (hk.subset ·)) (hturns.of_suffix hk)
    exact hb.settled hs htries hends
  · exact hr.settled_of_draws hn hdraws hends

/-! ## A delivery that succeeds at last -/

namespace Sample

/-- An office whose mail line refuses the first two messages, and that tries none again by itself. -/
def reluctant : Premises :=
  { premises fun number => if number < 2 then .ok ⟨false, .null, none, none⟩
      else .ok ⟨true, .text "taken", none, none⟩ with
    setup := { maxRetries := 0 } }

/-- Somebody asks for a retry of the first delivery, and it is made. -/
def insist : List Move :=
  .ask (.retry ["notif_0000000000000001"] 3) :: List.replicate 4 (.turn 0)

/-- A pass with one delivery, and three times that somebody asks for a retry. -/
def insisted : Past × Office :=
  reluctant.play ([.ask (.addConfiguration (configuration "ward" .standard none)),
    .ask (.pass snapshot)] ++ List.replicate 12 (.turn 0) ++
    .wait Instant.perSecond :: insist ++ .wait (Instant.perSecond * 3) :: insist ++
    .wait (Instant.perSecond * 9) :: insist)

theorem run_insisted : reluctant.Run insisted.1 insisted.2 :=
  reluctant.run_play _

end Sample

instance (n : Doing) : Decidable (∃ x, n.Ends ControlRoom.program x) :=
  match hnext : (n.turn ControlRoom.program).next with
  | .finish x => .isTrue ⟨x, hnext⟩
  | .pause _ => .isFalse fun ⟨_, hx⟩ => nomatch hnext.symm.trans hx
  | .sleep .. => .isFalse fun ⟨_, hx⟩ => nomatch hnext.symm.trans hx
  | .gather .. => .isFalse fun ⟨_, hx⟩ => nomatch hnext.symm.trans hx
  | .collect .. => .isFalse fun ⟨_, hx⟩ => nomatch hnext.symm.trans hx
  | .await _ => .isFalse fun ⟨_, hx⟩ => nomatch hnext.symm.trans hx

/-- How often a retry that begins names a delivery. -/
def namedBy (id : String) (n : Doing) : Nat :=
  match n.body with
  | .retry es _ _ => es.count id
  | _ => 0

/-- A delivery that is refused twice, and then sent, is not tried again. -/
theorem settles_and_stays_insisted :
    (Sample.insisted.2.state.journal.get? "notif_0000000000000001").any
        (fun e => e.status = .sent ∧ e.retries = 2) = true ∧
      GivenOnce "notif_0000000000000001" Sample.insisted.1 ∧
      RetriedInTurn "notif_0000000000000001" Sample.insisted.1 ∧
      (∀ n ∈ Sample.insisted.1, n.body.tries "notif_0000000000000001" = true ∨
        draws "notif_0000000000000001" n = true → ∀ x, n.Ends ControlRoom.program x →
          LeavesSettled "notif_0000000000000001" n ∨ EndsUnsettled n x) ∧
      ∀ n ∈ Sample.insisted.1, ∀ e,
        (n.turn ControlRoom.program).state.journal.get? "notif_0000000000000001" = some e →
        e.status = .sent →
        Sample.insisted.2.state.journal.get? "notif_0000000000000001" = some e := by
  have hone : GivenOnce "notif_0000000000000001" Sample.insisted.1 := by decide +kernel
  have honce : ∀ n ∈ Sample.insisted.1,
      namedBy "notif_0000000000000001" n ≤ 1 := by decide +kernel
  have hover : ∀ l ∈ Sample.insisted.1.tails, ∀ n ∈ l.head?,
      triesAgain "notif_0000000000000001" n = true →
      ∀ s ∈ l.tail, triesAgain "notif_0000000000000001" s = true →
        ∀ t ∈ s.childIds ControlRoom.program,
          ∃ q ∈ l.tail, q.task = t ∧ ∃ x, q.Ends ControlRoom.program x := by decide +kernel
  have hturns : RetriedInTurn "notif_0000000000000001" Sample.insisted.1 := by
    refine ⟨fun n hn es most again hbody => ?_, fun n k hn hagain s hs hsagain t hstarts => ?_⟩
    · have hle := honce n hn
      unfold namedBy at hle
      rw [hbody] at hle
      exact hle
    · exact hover (n :: k) ((List.mem_tails _ _).mpr hn) n rfl hagain s hs hsagain t
        (History.mem_childIds.mpr ⟨_, hstarts⟩)
  exact ⟨by decide +kernel, hone, hturns,
    Sample.run_insisted.settles_and_stays hone hturns⟩

end Office

end BuildingAlerts
