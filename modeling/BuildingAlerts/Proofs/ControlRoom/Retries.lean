/-
The attempts at a delivery.

However passes, escalations and requests go on beside each other, a delivery is attempted by one
task at a time, and not again once it has succeeded. A retry waits for its time since the attempt
before, and when the retries that the setup allows are used up the delivery is given up, once.

An attempt ends with an answer of the provider of its channel, at once or after some time, unless
it takes too long, is stopped or finds no provider. An answer that reports success is written into
the entry of the delivery, which stays so whatever happens afterwards.
-/
import BuildingAlerts.Proofs.ControlRoom.Tracking

set_option autoImplicit false

namespace BuildingAlerts

open Agenda

/-- The wait after an attempt that was preceded by so many retries. -/
theorem LogEntry.backoff_natCast (k : Nat) (cap : Number) :
    backoff k cap = (Number.whole ((2 ^ k : Nat) : Int)).least cap := by
  unfold backoff
  rw [if_pos (Int.natCast_nonneg k)]
  rfl

/-- The time since the latest attempt. -/
theorem LogEntry.of_elapsed {e : LogEntry} {now : Moment} {waited : Float}
    (h : e.elapsed now = .ok waited) : ∃ span, now.since? e.sentAt = some span ∧
      waited = span.toSeconds := by
  unfold elapsed at h
  cases hspan : now.since? e.sentAt with
  | none =>
      rw [hspan] at h
      exact nomatch h
  | some span =>
      rw [hspan] at h
      exact ⟨span, rfl, (Except.ok.inj h).symm⟩

namespace Office

variable {p : Premises} {h k : Past} {o : Office} {id : String} {n : Doing}

/-- The wait of a retry is over: since the delivery was sent for the last time as many seconds have
passed as the power of two for the retries before, or as the cap. -/
def WaitIsOver (id : String) (cap : Number) (n : Doing) (k : Past) : Prop :=
  ∃ now last rest span, n.state.clock? n.now = some now ∧ sendings id k = last :: rest ∧
    now.since? last = some span ∧
    ((Number.whole ((2 ^ rest.length : Nat) : Int)).least cap).le (.real span.toSeconds) = true

/-! ## What a stint finds -/

/-- What was known of a delivery when a stint was made. -/
theorem Premises.SteadyRun.tracked_before (hr : p.SteadyRun id h o) (hone : GivenOnce id h)
    (hn : n :: k <:+ h) : ∃ b c, Tracked id p k b ∧ p.Step k b n c := by
  obtain ⟨b, c, place, hrun, hs, hb⟩ := hr.before hn
  have hold : GivenOnce id k := hone.of_subset fun d hd => hn.subset (List.mem_cons_of_mem n hd)
  have hstep := hrun.step hb
  rw [hs] at hstep
  exact ⟨b, c, Premises.SteadyRun.tracked hrun hold, Premises.SteadyRun.run hrun, Premises.SteadyRun.run hstep,
    place, hs, hb⟩

/-- **A retry waits for its time** since the attempt before. -/
theorem Premises.SteadyRun.waits (hr : p.SteadyRun id h o) (hone : GivenOnce id h)
    (hn : n :: k <:+ h) (hagain : triesAgain id n = true) :
    WaitIsOver id p.setup.backoffCap n k := by
  obtain ⟨b, c, hk, hs⟩ := hr.tracked_before hone hn
  obtain ⟨es, most, again, now, tried, hbody, hclock, htried, hid⟩ := triesAgain_iff.mp hagain
  obtain ⟨-, heach⟩ := ControlRoom.of_eligible htried
  obtain ⟨e, he, heligible⟩ := heach id hid
  obtain ⟨-, -, waited, hwaited, hle⟩ := LogEntry.of_isEligible heligible
  obtain ⟨span, hspan, rfl⟩ := LogEntry.of_elapsed hwaited
  have hentry := hk.entry
  rw [hs.state] at he
  rw [he] at hentry
  cases hsent : sendings id k with
  | nil =>
      rw [hsent] at hentry
      exact nomatch hentry
  | cons last rest =>
      rw [hsent] at hentry
      obtain ⟨e', he', rfl, hcount, -⟩ := hentry
      obtain rfl := Option.some.inj he'
      rw [hcount, LogEntry.backoff_natCast, hs.state, hk.setup] at hle
      exact ⟨now, _, rest, span, hclock, hsent, hspan, hle⟩

/-- Who starts an attempt tries the delivery again. -/
theorem Premises.Run.triesAgain_of_child (hr : p.Run h o) (hn : n ∈ h)
    (hc : .attempt id ∈ (n.turn ControlRoom.program).next.children) : triesAgain id n = true := by
  obtain ⟨-, es, most, again, hbody⟩ :=
    (hr.shaped hn).next.of_tries_child hc (decide_eq_true rfl)
  unfold Stint.turn at hc
  rw [hbody] at hc
  rcases ControlRoom.program_retry n.now n.state es most again n.wake with ⟨st, h⟩ | ⟨m, hm, h⟩
  · rw [h] at hc
    exact absurd hc List.not_mem_nil
  · rw [h] at hc
    rcases ControlRoom.beginRetry_cases n.state m es most again with
      ⟨f, -, h⟩ | ⟨-, h⟩ | ⟨tried, -, htried, h⟩
    · rw [h] at hc
      exact absurd hc List.not_mem_nil
    · rw [h] at hc
      unfold ControlRoom.endRetry at hc
      dsimp only at hc
      split at hc
      · exact absurd hc List.not_mem_nil
      · exact absurd hc List.not_mem_nil
    · rw [h] at hc
      obtain ⟨e, he, heq⟩ := List.mem_map.mp hc
      obtain rfl := Work.attempt.inj heq
      exact triesAgain_iff.mpr ⟨es, most, again, m, tried, hbody, hm, htried, he⟩

/-- Every attempt but the first begins in the instant in which a retry begins. -/
theorem Premises.Run.retry_of_attempt (hr : p.Run h o) (hn : n :: k <:+ h)
    (hbody : n.body = .attempt id) : ∃ q ∈ k, triesAgain id q = true ∧ q.now = n.now := by
  obtain ⟨q, hq, -, hnow, i, hi, -⟩ :=
    hr.origin hn (by rw [hbody]; trivial) (by rw [hbody]; exact fun h => h)
  rw [hbody] at hi
  have hqh := hn.subset (List.mem_cons_of_mem n hq)
  exact ⟨q, hq, hr.triesAgain_of_child hqh (List.mem_of_getElem? hi), hnow⟩

/-- **Nothing is attempted after a success.** -/
theorem Premises.SteadyRun.unsent_before (hr : p.SteadyRun id h o) (hone : GivenOnce id h)
    (hn : n :: k <:+ h) (hattempts : attempts id n = true) :
    ∀ s ∈ k, ¬ IsSent id (s.turn ControlRoom.program).state := by
  obtain ⟨b, c, hk, hs⟩ := hr.tracked_before hone hn
  have hunsent : ¬ IsSent id b.state := by
    rcases attempts_iff.mp hattempts with hbody | hdraws
    · exact hk.unsent hs.job (by rw [hbody]; exact decide_eq_true rfl)
    · exact (hk.unknown hs (hone.of_subset fun d => (hn.subset ·)) hdraws).2.2.1
  exact fun s hsm hsent => hunsent (hk.sent s hsm hsent)

/-! ## The attempts of a run -/

/-- **Retries keep to their order.** A delivery whose identifier was given once is attempted by one
task at a time, once and then as often as the setup allows retries at most. Every attempt but the
first belongs to a retry, which begins only when its wait is over; nothing is attempted after a
success. The delivery is given up once at most, and then it has failed and its retries are used
up. -/
theorem Premises.SteadyRun.retries_in_order (hr : p.SteadyRun id h o) (hone : GivenOnce id h) :
    Sole (·.tries id) o ∧
      ((h.filter (attempts id)).length : Int) ≤ 1 + max 0 p.setup.maxRetries ∧
      (∀ n k, n :: k <:+ h → n.body = .attempt id →
        ∃ q ∈ k, triesAgain id q = true ∧ q.now = n.now) ∧
      (∀ n k, n :: k <:+ h → triesAgain id n = true → WaitIsOver id p.setup.backoffCap n k) ∧
      (∀ n k, n :: k <:+ h → attempts id n = true →
        ∀ s ∈ k, ¬ IsSent id (s.turn ControlRoom.program).state) ∧
      o.state.deadLetters.count id ≤ 1 ∧
      (id ∈ o.state.deadLetters → IsLost id p.setup.maxRetries o.state) := by
  have hk := hr.tracked hone
  refine ⟨hk.tries, ?_, fun n k hn => (Premises.SteadyRun.run hr).retry_of_attempt hn,
    fun n k hn => hr.waits hone hn, fun n k hn => hr.unsent_before hone hn, hk.once,
    fun hid => (hk.lost hid).1⟩
  exact Int.le_trans (Int.ofNat_le.mpr hk.count) hk.bound

/-! ## A delivery that fails for good -/

namespace Sample

/-- An office whose mail line refuses whatever it is given, and that tries it again once. -/
def refusing : Premises :=
  { premises fun _ => .ok ⟨false, .null, none, none⟩ with setup := { maxRetries := 1 } }

/-- A pass, and what becomes of its only delivery within a second. -/
def refused : Past × Office :=
  refusing.play ([.ask (.addConfiguration (configuration "ward" .standard none)),
    .ask (.pass snapshot)] ++ List.replicate 12 (.turn 0) ++
    .wait Instant.perSecond :: List.replicate 4 (.turn 0))

theorem steadyRun_refused (id : String) : refusing.SteadyRun id refused.1 refused.2 := by
  refine run_after (x := ([], .idle refusing.room)) (fun q hq o => ⟨q, ?_, rfl⟩) .idle
  rcases List.mem_append.mp hq with hq | hq
  · rcases List.mem_append.mp hq with hq | hq
    · rcases List.mem_cons.mp hq with hq | hq
      · rw [Move.ask.inj hq]
        trivial
      · rw [Move.ask.inj (List.mem_singleton.mp hq)]
        trivial
    · exact nomatch List.eq_of_mem_replicate hq
  · rcases List.mem_cons.mp hq with hq | hq
    · exact nomatch hq
    · exact nomatch List.eq_of_mem_replicate hq

end Sample

instance (id : String) (h : Past) : Decidable (GivenOnce id h) :=
  inferInstanceAs (Decidable (∀ d ∈ h, ∀ e ∈ h, draws id d = true → draws id e = true →
    d.task = e.task))

set_option maxRecDepth 100000 in
/-- A delivery that is refused is attempted once more after a second, and given up. -/
theorem retries_in_order_refused :
    (Sample.refused.1.filter (attempts "notif_0000000000000001")).length = 2 ∧
      Sample.refused.2.state.deadLetters = ["notif_0000000000000001"] ∧
      GivenOnce "notif_0000000000000001" Sample.refused.1 ∧
      Sole (·.tries "notif_0000000000000001") Sample.refused.2 ∧
      ((Sample.refused.1.filter (attempts "notif_0000000000000001")).length : Int) ≤ 1 + max 0 1 ∧
      (∀ n k, n :: k <:+ Sample.refused.1 → n.body = .attempt "notif_0000000000000001" →
        ∃ q ∈ k, triesAgain "notif_0000000000000001" q = true ∧ q.now = n.now) ∧
      (∀ n k, n :: k <:+ Sample.refused.1 → triesAgain "notif_0000000000000001" n = true →
        WaitIsOver "notif_0000000000000001" (.real 60.0) n k) ∧
      (∀ n k, n :: k <:+ Sample.refused.1 → attempts "notif_0000000000000001" n = true →
        ∀ s ∈ k, ¬ IsSent "notif_0000000000000001" (s.turn ControlRoom.program).state) ∧
      Sample.refused.2.state.deadLetters.count "notif_0000000000000001" ≤ 1 ∧
      ("notif_0000000000000001" ∈ Sample.refused.2.state.deadLetters →
        IsLost "notif_0000000000000001" 1 Sample.refused.2.state) := by
  have hone : GivenOnce "notif_0000000000000001" Sample.refused.1 := by decide +kernel
  exact ⟨by decide +kernel, by decide +kernel, hone,
    (Sample.steadyRun_refused "notif_0000000000000001").retries_in_order hone⟩

end Office

/-! ## What providers answer -/

namespace ControlRoom

/-- What a provider answers at once to an attempt, if there is time for one. -/
def replyAtOnce? (c : ControlRoom) (now : Moment) (entry : String) :
    Option (Except Fault DeliveryResult) :=
  match (c.journal.get? entry).bind (·.request), Delay.of? c.setup.dispatchTimeout with
  | some _, some .zero => none
  | some r, some _ =>
    match (c.handOver now r (some entry)).1 with
    | .ok h => if h.delay = .zero then some h.result else none
    | .error _ => none
  | _, _ => none

/-- An answer that is given at once is written down. -/
theorem beginAttempt_of_replyAtOnce? {c : ControlRoom} {now : Moment} {entry : String}
    {result : Except Fault DeliveryResult} (h : c.replyAtOnce? now entry = some result) :
    ∃ d : ControlRoom, d.journal = c.journal ∧
      c.beginAttempt now entry = d.conclude now entry result := by
  unfold replyAtOnce? at h
  unfold beginAttempt
  split at h
  · exact nomatch h
  · rename_i r limit hzero hr hl
    split
    · rename_i hnone
      exact nomatch hr.symm.trans hnone
    · rename_i hnone
      exact nomatch hl.symm.trans hnone
    · rename_i hl'
      exact absurd (Option.some.inj (hl.symm.trans hl')) hzero
    · rename_i r' limit' _ hr' hl'
      obtain rfl := Option.some.inj (hr.symm.trans hr')
      have hbooks := sameBooks_handOver c now r (some entry)
      generalize c.handOver now r (some entry) = x at h hbooks
      obtain ⟨handled, d⟩ := x
      dsimp only at h hbooks ⊢
      split at h
      · rename_i hl
        split at h
        · rename_i hzero
          obtain rfl := Option.some.inj h
          dsimp only
          rw [if_pos hzero]
          exact ⟨d, hbooks.journal, rfl⟩
        · exact nomatch h
      · exact nomatch h
  · exact nomatch h

/-- Who reports success gets the entry of the delivery marked as sent. -/
theorem isSent_conclude {c : ControlRoom} {now : Moment} {entry : String} {r : DeliveryResult}
    (hr : r.success = true) {e : LogEntry} (he : c.journal.get? entry = some e) :
    Office.IsSent entry (c.conclude now entry (.ok r)).state := by
  refine ⟨e.markSent r now, ?_, rfl⟩
  show (c.journal.adjust entry (·.answered r now)).get? entry = _
  rw [Table.get?_adjust, if_pos rfl, he]
  show some (if r.success then _ else _) = _
  rw [if_pos hr]

/-- The room when a delivery is begun, before its first attempt. -/
def drawn (c : ControlRoom) (now : Moment) (r : DeliveryRequest) (level : Int) : ControlRoom :=
  { (c.draw .notification).2 with
    journal := c.journal.insert c.nextEntry (.begin c.nextEntry r level now) }

end ControlRoom

namespace Office

variable {p : Premises} {h : Past} {o : Office} {id : String} {n : Doing}

/-- What the provider has answered to an attempt that ends with a stint. -/
def reply? (id : String) (n : Doing) : Option (Except Fault DeliveryResult) :=
  match n.state.clock? n.now, n.body, n.wake with
  | some m, .deliver q level, .start =>
    if n.state.nextEntry = id then (n.state.drawn m q level).replyAtOnce? m id else none
  | some m, .attempt e, .start => if e = id then n.state.replyAtOnce? m id else none
  | some _, .sending e result, .resumed => if e = id then some result else none
  | _, _, _ => none

/-- A delivery succeeds: its provider reports so in time. -/
def Succeeds (id : String) (n : Doing) : Prop :=
  ∃ r, reply? id n = some (.ok r) ∧ r.success = true

/-- A delivery that is tried has an entry. -/
theorem Tracked.exists_entry (hk : Tracked id p h o) {t : TaskId} {j : Audience × Work}
    (hj : Agenda.job? o t = some j) (htries : j.2.tries id = true) :
    ∃ x, o.state.journal.get? id = some x := by
  obtain ⟨d, hd, hdraws⟩ : ∃ d ∈ h, draws id d = true := by
    rcases hk.origin hj htries with ⟨d, hd, hdraws, -⟩ | ⟨d, hd, hdraws, -⟩
    · exact ⟨d, hd, hdraws⟩
    · exact ⟨d, hd, hdraws⟩
  obtain ⟨-, ⟨m, hm⟩, -⟩ := draws_iff.mp hdraws
  have hsending : sending? id d = some m := by
    unfold sending?
    rw [hdraws, Bool.true_or, if_pos rfl]
    exact hm
  have hmem : m ∈ sendings id h := List.mem_filterMap.mpr ⟨d, hd, hsending⟩
  have hentry := hk.entry
  cases hsendings : sendings id h with
  | nil =>
      rw [hsendings] at hmem
      exact absurd hmem List.not_mem_nil
  | cons m' ms =>
      rw [hsendings] at hentry
      obtain ⟨x, hx, -⟩ := hentry
      exact ⟨x, hx⟩

/-- **What a provider reports is written down.** -/
theorem Premises.SteadyRun.isSent_of_succeeds (hr : p.SteadyRun id h o) (hone : GivenOnce id h)
    (hn : n ∈ h) (hsucceeds : Succeeds id n) : IsSent id (n.turn ControlRoom.program).state := by
  obtain ⟨r, hreply, hsuccess⟩ := hsucceeds
  obtain ⟨k, hk⟩ := History.exists_suffix_of_mem hn
  obtain ⟨b, c, htracked, hs⟩ := hr.tracked_before hone hk
  -- an attempt that answers at once leaves the entry that it found
  have hattempt : ∀ {d : ControlRoom} {m : Moment},
      d.replyAtOnce? m id = some (.ok r) → IsSent id (d.beginAttempt m id).state := by
    intro d m hd
    obtain ⟨e, hjournal, hbegin⟩ := ControlRoom.beginAttempt_of_replyAtOnce? hd
    have hentry : ∃ x, d.journal.get? id = some x := by
      unfold ControlRoom.replyAtOnce? at hd
      split at hd
      · exact nomatch hd
      · rename_i hrequest _
        obtain ⟨x, hx, -⟩ := Option.bind_eq_some_iff.mp hrequest
        exact ⟨x, hx⟩
      · exact nomatch hd
    obtain ⟨x, hx⟩ := hentry
    rw [hbegin]
    exact ControlRoom.isSent_conclude hsuccess (hjournal ▸ hx)
  unfold Stint.turn
  unfold reply? at hreply
  split at hreply
  · rename_i m q level hclock hbody hwake
    split at hreply
    · rename_i hid
      rw [hbody, hwake, ControlRoom.program_of_clock hclock]
      have hsent := hattempt hreply
      rw [← hid] at hsent ⊢
      exact hsent
    · exact nomatch hreply
  · rename_i m e hclock hbody hwake
    split at hreply
    · rename_i hid
      rw [hbody, hwake, ControlRoom.program_of_clock hclock, hid]
      exact hattempt hreply
    · exact nomatch hreply
  · rename_i m e result hclock hbody hwake
    split at hreply
    · rename_i hid
      obtain rfl := Option.some.inj hreply
      rw [hbody, hwake, ControlRoom.program_of_clock hclock, hid]
      -- the entry is there, as the delivery was sent before
      have htries : n.body.tries id = true := by
        rw [hbody]
        exact decide_eq_true hid
      obtain ⟨x, hx⟩ := htracked.exists_entry hs.job htries
      exact ControlRoom.isSent_conclude hsuccess (hs.state ▸ hx)
    · exact nomatch hreply
  · exact nomatch hreply

end Office

end BuildingAlerts
