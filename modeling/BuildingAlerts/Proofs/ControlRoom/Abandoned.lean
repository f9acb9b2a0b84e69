/-
Deliveries that fail.

While nobody deals with an alert, a delivery in its log that has failed waits for its next retry
or was given up. A delivery drops out of this in three ways: the setup allows no retries at all,
whoever was to book its next retry has failed before that, or it belongs to an escalation that was
not booked.
-/
import BuildingAlerts.Proofs.ControlRoom.Closing
import BuildingAlerts.Proofs.ControlRoom.Completion

set_option autoImplicit false

namespace BuildingAlerts

open Agenda

theorem LogEntry.isRetriable_iff {e : LogEntry} {most : Int} :
    e.isRetriable most = true ↔ e.status = .failed ∧ e.retries < most := by
  unfold isRetriable
  rw [Bool.and_eq_true, beq_iff_eq, decide_eq_true_iff]

namespace ControlRoom

variable {c : ControlRoom} {now : Moment} {q : AlertRef} {p : Policy} {es : List String}
  {id : String} {m : Appointment Work} {t : Stretch}

/-- A delivery has failed. -/
def HasFailed (id : String) (c : ControlRoom) : Prop :=
  ∃ e, c.journal.get? id = some e ∧ e.status = .failed

instance (id : String) (c : ControlRoom) : Decidable (HasFailed id c) :=
  decidable_of_iff (∃ e ∈ c.journal.get? id, e.status = .failed) .rfl

/-- A delivery has failed, and there may be a further retry. -/
def Retriable (id : String) (c : ControlRoom) : Prop :=
  ∃ e, c.journal.get? id = some e ∧ e.isRetriable c.setup.maxRetries = true

theorem HasFailed.congr {d : ControlRoom} (h : HasFailed id c)
    (hentry : d.journal.get? id = c.journal.get? id) : HasFailed id d :=
  h.imp fun _ he => ⟨hentry.trans he.1, he.2⟩

theorem Retriable.congr {d : ControlRoom} (h : Retriable id c)
    (hentry : d.journal.get? id = c.journal.get? id) (hsetup : d.setup = c.setup) :
    Retriable id d :=
  h.imp fun _ he => ⟨hentry.trans he.1, hsetup ▸ he.2⟩

/-! ## Who books the next retry -/

/-- Only deliveries of which there may be a further retry are booked. -/
theorem retriable_of_mem (hm : m ∈ (c.retryAppointments now es).1) (hretry : IsRetryOf c id m) :
    Retriable id c := by
  obtain ⟨xs, -, hretriable, hbodies⟩ := map_body_retryAppointments c now es
  have hbody : m.body ∈ xs.map fun e => Work.retry [e] c.setup.maxRetries true :=
    hbodies ▸ List.mem_map_of_mem hm
  obtain ⟨x, hx, heq⟩ := List.mem_map.mp hbody
  obtain ⟨hxs, -⟩ := Work.retry.inj (heq.trans hretry.body)
  obtain rfl := (List.cons.inj hxs).1
  exact hretriable x hx

/-- Where nothing fails, every delivery is booked of which there may be a further retry. -/
theorem exists_retry_of_retriable (hid : id ∈ es) (hr : Retriable id c)
    (hok : (c.retryAppointments now es).2 = none) :
    ∃ m ∈ (c.retryAppointments now es).1, m.key = retryKey id := by
  induction es with
  | nil => exact absurd hid List.not_mem_nil
  | cons e es ih =>
      unfold retryAppointments at hok ⊢
      split at hok
      · exact nomatch hok
      · rename_i m? hm
        by_cases he : id = e
        · subst he
          obtain ⟨x, hx, hretriable⟩ := hr
          unfold retryAppointment? retryDelay? at hm
          rw [hx] at hm
          dsimp only at hm
          rw [if_pos hretriable] at hm
          generalize x.nextDelay now c.setup.backoffCap = delay at hm
          cases delay with
          | error f => exact nomatch hm
          | ok d =>
              obtain rfl := Except.ok.inj hm
              exact ⟨_, List.mem_cons_self, rfl⟩
        · obtain ⟨m, hmem, hkey⟩ := ih ((List.mem_cons.mp hid).resolve_left he) hok
          exact ⟨m, List.mem_append_right _ hmem, hkey⟩

/-- What becomes of a delivery of which a stretch is to book the next retry: it is booked, or
nothing is, as the stretch fails before or there may be no further retry. -/
inductive SeesTo (id : String) (c : ControlRoom) (t : Stretch) : Prop where
  | books {m : Appointment Work} (hm : m ∈ t.appointments) (hretry : IsRetryOf c id m)
      (hretriable : Retriable id c)
  | fails {st : Stop} (hnext : t.next = .finish (.error st))
      (hnone : ∀ m ∈ t.appointments, m.key ≠ retryKey id)
  | spent (hover : ¬ Retriable id c) (hnone : ∀ m ∈ t.appointments, m.key ≠ retryKey id)

/-- A stretch that books the retries of deliveries, and nothing else under their keys. -/
theorem seesTo_of_retries (ms : List (Appointment Work)) (hid : id ∈ es)
    (hbooks : t.appointments = (c.retryAppointments now es).1 ++ ms)
    (hms : ∀ m ∈ ms, m.key ≠ retryKey id)
    (hnext : (c.retryAppointments now es).2 ≠ none → ∃ st, t.next = .finish (.error st)) :
    SeesTo id c t := by
  by_cases hbooked : ∃ m ∈ (c.retryAppointments now es).1, m.key = retryKey id
  · obtain ⟨m, hm, hkey⟩ := hbooked
    obtain ⟨e, -, hretry⟩ := isRetryOf_of_mem hm
    obtain rfl := retryKey_inj (hretry.key.symm.trans hkey)
    exact .books (hbooks ▸ List.mem_append_left _ hm) hretry (retriable_of_mem hm hretry)
  · have hnone : ∀ m ∈ t.appointments, m.key ≠ retryKey id := by
      intro m hm hkey
      rcases List.mem_append.mp (hbooks ▸ hm) with hm | hm
      · exact hbooked ⟨m, hm, hkey⟩
      · exact hms m hm hkey
    by_cases hok : (c.retryAppointments now es).2 = none
    · exact .spent (fun hr => hbooked (exists_retry_of_retriable hid hr hok)) hnone
    · obtain ⟨st, hst⟩ := hnext hok
      exact .fails hst hnone

/-- The next escalation is booked under another key. -/
theorem key_ne_of_escalationAppointment? {m? : Option (Appointment Work)}
    (hm : c.escalationAppointment? now q p = .ok m?) : ∀ m ∈ m?.toList, m.key ≠ retryKey id := by
  intro m hmem hkey
  obtain rfl := Option.mem_toList.mp hmem
  obtain ⟨a, s, -, -, hnext⟩ := (isNextOf_of_eq hm).stage
  exact retryKey_ne_escalationKey _ _ _ (hkey.symm.trans hnext)

/-- A stretch that books the retries of deliveries, and nothing else. -/
theorem seesTo_of_only_retries (hid : id ∈ es)
    (hbooks : t.appointments = (c.retryAppointments now es).1)
    (hnext : (c.retryAppointments now es).2 ≠ none → ∃ st, t.next = .finish (.error st)) :
    SeesTo id c t :=
  seesTo_of_retries [] hid (hbooks.trans (List.append_nil _).symm) (List.forall_mem_nil _) hnext

/-- Who books the next escalation books the retries first. -/
theorem seesTo_followUp (now : Moment) (q : AlertRef) (p : Policy) (hid : id ∈ es) :
    SeesTo id c (c.followUp now q p es) := by
  unfold followUp
  dsimp only
  split
  · exact seesTo_of_only_retries hid rfl fun _ => ⟨_, rfl⟩
  · rename_i hf
    split
    · exact seesTo_of_only_retries hid rfl fun _ => ⟨_, rfl⟩
    · rename_i m? hm
      exact seesTo_of_retries m?.toList hid rfl (key_ne_of_escalationAppointment? hm) fun hno =>
        absurd hf hno

/-- A notification of a pass that ends. -/
theorem seesTo_endNotification (now : Moment) (q : AlertRef) (policy : Option Policy)
    (hid : id ∈ es) : SeesTo id c (c.endNotification now q es (.book policy)) := by
  cases policy with
  | none =>
      unfold endNotification
      dsimp only
      split
      · exact seesTo_of_only_retries hid rfl fun _ => ⟨_, rfl⟩
      · rename_i hf _
        exact seesTo_of_only_retries hid rfl fun hno => absurd hf hno
      · rename_i h
        exact nomatch h
  | some p =>
      have hfollows : c.endNotification now q es (.book (some p)) = c.followUp now q p es := by
        unfold endNotification followUp
        dsimp only
        cases (c.retryAppointments now es).2 <;> rfl
      exact hfollows ▸ seesTo_followUp now q p hid

/-- A booked retry that ends, after those that it has given up. -/
theorem seesTo_endRetry (now : Moment) (tried : List String) (most : Int) (hid : id ∈ es) :
    SeesTo id (c.buryLost most tried) (c.endRetry now tried es most true) := by
  unfold endRetry
  dsimp only
  rw [if_pos rfl]
  refine seesTo_of_only_retries hid rfl fun hno => ?_
  obtain ⟨f, hf⟩ := Option.ne_none_iff_exists'.mp hno
  refine ⟨.failed f, ?_⟩
  dsimp only
  rw [hf]

theorem finishes_endRetry (c : ControlRoom) (now : Moment) (tried asked : List String) (most : Int)
    (again : Bool) : ∃ out, (c.endRetry now tried asked most again).next = .finish out := by
  unfold endRetry
  dsimp only
  split
  · exact ⟨_, rfl⟩
  · exact ⟨_, rfl⟩

/-! ## Waves that end -/

/-- A wave that has heard of all its deliveries ends as a notification or as an escalation. -/
theorem program_of_completes {now : Instant} {m : Moment} (hclock : c.clock? now = some m)
    {w : Work} {wake : Wake Yield} (hw : w.completes wake = true) :
    ∃ (d : ControlRoom) (q : AlertRef), d.journal = c.journal ∧ d.setup = c.setup ∧
      ((∃ left es sequel, w = .collecting q left es sequel ∧
          program now c w wake = d.endNotification m q (w.carried wake) sequel) ∨
        ∃ pol s since booked, w = .escalating q pol s since booked ∧
          program now c w wake = d.endEscalation m q pol booked (w.carried wake)) := by
  rw [program_of_clock hclock]
  unfold Work.completes at hw
  split at hw
  · rename_i q left es sequel os
    rw [Bool.and_eq_true, Option.isNone_iff_eq_none, decide_eq_true_iff] at hw
    obtain ⟨hnone, hleft⟩ := hw
    refine ⟨c.adjustAlert q fun a =>
        { a with notifications := a.notifications ++ (es ++ (arrivals os).1) }, q, rfl, rfl,
      .inl ⟨left, es, sequel, rfl, ?_⟩⟩
    show c.takeIn m q left es sequel os = _
    unfold takeIn
    split
    · rename_i st harrivals
      rw [harrivals] at hnone
      exact nomatch hnone
    · rename_i ids harrivals
      dsimp only
      rw [if_pos hleft]
      unfold Work.carried
      dsimp only
      rw [harrivals]
  · rename_i q pol s since booked ys
    exact ⟨c.rise q s since (ys.flatMap (·.ids)), q, rfl, rfl,
      .inr ⟨pol, s, since, booked, rfl, rfl⟩⟩
  · exact nomatch hw

/-- A notification that begins is one that books retries when it ends. -/
theorem sequel_of_notify {now : Instant} {r : AlertRef} {wake : Wake Yield} {left : Nat}
    {sequel : Sequel}
    (hn : (program now c (.notify r) wake).next.body? = some (.collecting r left es sequel)) :
    ∃ policy, sequel = .book policy := by
  cases hclock : c.clock? now with
  | none =>
      rw [program_of_no_clock hclock] at hn
      exact nomatch hn
  | some m =>
      rw [program_of_clock hclock] at hn
      have hn : (c.beginAnnouncement m r).next.body? = some (.collecting r left es sequel) := by
        cases wake with
        | stopped st => exact nomatch hn
        | _ => exact hn
      unfold beginAnnouncement at hn
      split at hn
      · exact nomatch hn
      · rename_i k _
        have hmem : .collecting r left es sequel ∈
            successors r (c.beginNotification m r k.routing (.book k.policy)) :=
          List.mem_filter.mpr ⟨List.mem_append_left _ (Option.mem_toList.mpr hn),
            Work.concerns_collecting.mpr rfl⟩
        rcases successors_beginNotification (r := r) c m r k.routing (.book k.policy) with
          h | ⟨-, w, h, ⟨left', es', rfl⟩ | ⟨p, rfl⟩⟩
        · exact absurd (h ▸ hmem) List.not_mem_nil
        · rw [h] at hmem
          exact ⟨k.policy, (Work.collecting.inj (List.mem_singleton.mp hmem)).2.2.2⟩
        · rw [h] at hmem
          exact nomatch List.mem_singleton.mp hmem

end ControlRoom

namespace Store

variable {s : Store} {r : AlertRef}

/-- Nobody has taken notice of an alert or closed it. -/
def Untouched (r : AlertRef) (s : Store) : Prop :=
  ∃ a, s.find? r = some a ∧ a.status = .triggered

instance (r : AlertRef) (s : Store) : Decidable (s.Untouched r) :=
  decidable_of_iff (∃ a ∈ s.find? r, a.status = .triggered) .rfl

end Store

namespace Office

variable {p : Premises} {r : AlertRef} {h k : Past} {o o' : Office} {id : String} {n : Doing}

/-! ## What becomes of a delivery -/

/-- A retry of a delivery is pending: its task waits for its time, or for its attempt. -/
def RetryPending (id : String) (o : Office) : Prop :=
  ∃ b v w, o.timetable.bookings.get? (retryKey id) = some b ∧
    Agenda.job? o b.task = some (v, w) ∧ w.retries id = true

/-- Nobody attempts a delivery. -/
def Idle (id : String) (o : Office) : Prop :=
  ∀ t j, Agenda.job? o t = some j → j.2.tries id = false

/-- A retry of a delivery is pending, and it finds what it is booked for. -/
structure Awaits (id : String) (p : Premises) (o : Office) : Prop where
  pending : RetryPending id o
  retriable : ∀ {t v}, Agenda.job? o t = some (v, .retry [id] p.setup.maxRetries true) →
    Idle id o ∧ ControlRoom.Retriable id o.state

/-- Nobody attempts a delivery any more: it was given up, or it has not failed. -/
structure Rests (id : String) (o : Office) : Prop where
  idle : Idle id o
  unretried : ∀ {t j}, Agenda.job? o t = some j → j.2.retries id = false
  settled : id ∈ o.state.deadLetters ∨ ¬ ControlRoom.HasFailed id o.state

/-- A stint that is in charge of a delivery, as the last one of its wave or as one of a retry of it,
books no further retry: it fails before, or it belongs to an escalation that was not booked. -/
inductive Abandons (id : String) (n : Doing) : Prop where
  | fails (hcharge : n.body.retries id = true ∨ id ∈ n.body.carried n.wake) (hfails : Fails n)
      (hnone : ∀ m ∈ (n.turn ControlRoom.program).appointments, m.key ≠ retryKey id)
  | unbooked {q : AlertRef} {pol : Policy} {s : Stage} {since : Moment}
      (hbody : n.body = .escalating q pol s since false) (hid : id ∈ n.body.carried n.wake)

/-- What has become of a delivery since its wave has ended. -/
inductive Kept (id : String) (p : Premises) (h : Past) (o : Office) : Prop where
  | awaits (h : Awaits id p o)
  | rests (h : Rests id o)
  | unretried (hmost : p.setup.maxRetries ≤ 0)
  | abandoned {n : Doing} (hn : n ∈ h) (habandons : Abandons id n)

/-! ## What leaves a delivery alone -/

/-- A delivery is left alone: nothing is written about it, nobody new is at it, and a retry of it
that is pending stays so. -/
structure Unmoved (id : String) (o o' : Office) : Prop where
  leaves : ControlRoom.Leaves id o.state o'.state
  jobs : ∀ {t j}, Agenda.job? o' t = some j → j.2.tries id = true ∨ j.2.retries id = true →
    Agenda.job? o t = some j
  pending : RetryPending id o → RetryPending id o'

theorem Idle.unmoved (hi : Idle id o) (hu : Unmoved id o o') : Idle id o' :=
  fun t j hj => Bool.not_eq_true _ ▸ fun ht =>
    nomatch ht.symm.trans (hi t j (hu.jobs hj (.inl ht)))

theorem Kept.unmoved (hk : Kept id p h o) (hu : Unmoved id o o') (hsub : ∀ n ∈ h, n ∈ k) :
    Kept id p k o' := by
  cases hk with
  | awaits ha =>
      refine .awaits ⟨hu.pending ha.pending, fun hj => ?_⟩
      obtain ⟨hidle, hretriable⟩ := ha.retriable
        (hu.jobs hj (.inr (decide_eq_true (List.mem_singleton_self id))))
      exact ⟨hidle.unmoved hu, hretriable.congr hu.leaves.entry hu.leaves.setup⟩
  | rests hr =>
      refine .rests ⟨hr.idle.unmoved hu, fun hj => ?_,
        hr.settled.imp (fun hid => ?_) fun hno hf => ?_⟩
      · exact Bool.not_eq_true _ ▸ fun ht =>
          nomatch ht.symm.trans (hr.unretried (hu.jobs hj (.inr ht)))
      · rw [← List.count_pos_iff, hu.leaves.letters]
        exact List.count_pos_iff.mpr hid
      · exact hno (hf.congr hu.leaves.entry.symm)
  | unretried hmost => exact .unretried hmost
  | abandoned hn ha => exact .abandoned (hsub _ hn) ha

/-- A pending retry stays pending beside other work that books nothing under its key. -/
theorem Premises.Step.retryPending (hs : p.Step h o n o') (hp : RetryPending id o)
    (hretries : n.body.retries id = false)
    (hnone : ∀ m ∈ (n.turn ControlRoom.program).appointments, m.key ≠ retryKey id) :
    RetryPending id o' := by
  obtain ⟨b, v, w, hb, hjob, hw⟩ := hp
  obtain ⟨place, hplace, hstep⟩ := hs.taken
  have hne : b.task ≠ n.task := fun heq => by
    rw [heq, hs.job] at hjob
    obtain ⟨-, rfl⟩ := Prod.mk.inj (Option.some.inj hjob)
    exact nomatch hw.symm.trans hretries
  obtain ⟨x, hx, -⟩ := job?_eq_some.mp hjob
  have hafter : Agenda.job? o' b.task = some (v, w) := by
    rw [job?_of_stint hs.numbered hplace hstep, if_neg hne, if_pos (hs.numbered hx)]
    exact hjob
  refine ⟨b, v, w, hs.before.tidy.kept_stepAt hstep hb ?_ fun s hs' => ?_, hafter, hw⟩
  · exact fun hgone => nomatch hafter.symm.trans (job?_eq_none.mpr hgone)
  · obtain rfl := Option.some.inj (hplace.symm.trans hs')
    exact hnone

/-- Without a stint nothing becomes of a delivery. -/
theorem Premises.Run.unmoved_of_no_stint (hr : p.Run h o) {place : Nat}
    (hs : Agenda.stintAt? o place = none) (hb : o.stepAt ControlRoom.program place = some o') :
    Unmoved id o o' := by
  have hstate : o'.state = o.state := by
    have h := state_of_stepAt hr.keeps.numbered hb
    rw [hs] at h
    exact h
  refine ⟨hstate ▸ .rfl, fun {t j} hj _ => ?_, fun ⟨b, v, w, hbook, hjob, hw⟩ => ?_⟩
  · rcases job?_of_no_stint hs hb t with h | ⟨h, -⟩
    · exact h.symm.trans hj
    · exact nomatch hj.symm.trans h
  · -- a task that is booked was not told to stop
    obtain ⟨x, hx, hkey⟩ := hr.tidy.booked hbook
    have hsame := job?_of_unmarked hs hb hx fun hbegun =>
      hr.faithful.spared hx hkey hbegun ⟨_, hbook, rfl⟩
    rw [hjob] at hsame
    refine ⟨b, v, w, hr.tidy.kept_stepAt hb hbook ?_ (fun s hs' => nomatch hs.symm.trans hs'),
      hsame, hw⟩
    exact fun hgone => nomatch hsame.symm.trans (job?_eq_none.mpr hgone)

/-- Nothing becomes of a delivery while time passes. -/
theorem unmoved_passTo (o : Office) (time : Instant) : Unmoved id o (o.passTo time) := by
  refine ⟨?_, fun hj _ => (job?_passTo time).symm.trans hj, fun ⟨b, v, w, hb, hjob, hw⟩ => ?_⟩
  · rw [state_passTo]
    exact .rfl
  · refine ⟨b, v, w, ?_, (job?_passTo time).trans hjob, hw⟩
    rw [(moves_passTo o time).timetable]
    exact hb

/-! ## Work on a delivery -/

/-- What is booked under the key of a delivery is a retry of it. -/
theorem Premises.Step.isRetryOf_of_key (hs : p.Step h o n o') {m : Appointment Work}
    (hm : m ∈ (n.turn ControlRoom.program).appointments) (hkey : m.key = retryKey id) :
    ControlRoom.IsRetryOf o'.state id m := by
  have hmanaged := (hs.after.mayBeDone n List.mem_cons_self).1
  have hbooks : ControlRoom.Books o'.state m n.body n.wake :=
    hs.leaves ▸ ControlRoom.books_program n.now n.state hmanaged hm
  have hsame : ∀ {e}, ControlRoom.IsRetryOf o'.state e m → ControlRoom.IsRetryOf o'.state id m :=
    fun hretry => retryKey_inj (hretry.key.symm.trans hkey) ▸ hretry
  generalize n.body = w at hbooks
  generalize n.wake = wake at hbooks
  cases hbooks with
  | notified _ hretry => exact hsame hretry
  | escalated _ hretry => exact hsame hretry
  | waited _ hretry => exact hsame hretry
  | retried _ hretry => exact hsame hretry
  | next _ hnext =>
      obtain ⟨a, s, -, -, hnkey⟩ := hnext.stage
      exact absurd (hkey.symm.trans hnkey) (retryKey_ne_escalationKey _ _ _)

/-- A retry of a delivery is booked under its key. -/
theorem Premises.Step.key_of_retries (hs : p.Step h o n o') {m : Appointment Work}
    (hm : m ∈ (n.turn ControlRoom.program).appointments) (hretries : m.body.retries id = true) :
    m.key = retryKey id := by
  have hmanaged := (hs.after.mayBeDone n List.mem_cons_self).1
  have hbooks := ControlRoom.books_program n.now n.state hmanaged hm
  have hsame : ∀ {c e}, ControlRoom.IsRetryOf c e m → m.key = retryKey id := by
    intro c e hretry
    rw [hretry.body] at hretries
    obtain rfl := List.mem_singleton.mp (of_decide_eq_true hretries)
    exact hretry.key
  generalize (ControlRoom.program n.now n.state n.body n.wake).state = c at hbooks
  generalize n.body = w at hbooks
  generalize n.wake = wake at hbooks
  cases hbooks with
  | notified _ hretry => exact hsame hretry
  | escalated _ hretry => exact hsame hretry
  | waited _ hretry => exact hsame hretry
  | retried _ hretry => exact hsame hretry
  | next _ hnext =>
      rw [hnext.body] at hretries
      exact nomatch hretries

/-- Who is in charge of a delivery and ends, while nobody attempts the delivery, has the next retry
booked, or abandons the delivery, or there is none to be booked. -/
theorem Premises.Step.kept_of_seesTo (hs : p.Step h o n o') {c : ControlRoom}
    (hsees : ControlRoom.SeesTo id c (n.turn ControlRoom.program))
    (hjournal : o'.state.journal = c.journal) (hsetup : o'.state.setup = c.setup)
    (hcharge : n.body.retries id = true ∨ id ∈ n.body.carried n.wake)
    (hends : ∃ out, n.Ends ControlRoom.program out) (hidle : Idle id o)
    (hsole : ∀ u j, Agenda.job? o u = some j → j.2.retries id = true → u = n.task)
    (hover : ¬ ControlRoom.Retriable id o'.state →
      id ∈ o'.state.deadLetters ∨ ¬ ControlRoom.HasFailed id o'.state) :
    Kept id p (n :: h) o' := by
  have hentry : o'.state.journal.get? id = c.journal.get? id := congrArg (·.get? id) hjournal
  have hcomes : ∀ {t j}, Agenda.job? o' t = some j → t ≠ n.task ∧ Agenda.job? o t = some j ∨
      ∃ m ∈ (n.turn ControlRoom.program).appointments, m.body = j.2 := by
    intro t j hj
    refine (hs.comes hj).stays_or_heir.imp_right fun hheir => ?_
    obtain ⟨out, hends⟩ := hends
    unfold Turn.heirs at hheir
    rw [show (n.turn ControlRoom.program).next = .finish out from hends] at hheir
    have hbooked := (List.mem_append.mp hheir).resolve_left List.not_mem_nil
    exact List.mem_map.mp ((List.mem_append.mp hbooked).resolve_right List.not_mem_nil)
  have hidle' : Idle id o' := by
    intro t j hj
    rcases hcomes hj with ⟨-, hold⟩ | ⟨m, hm, hbody⟩
    · exact hidle t j hold
    · rcases (hs.after.shaped List.mem_cons_self).booked m hm with
        ⟨es, most, again, h⟩ | ⟨q, pol, level, h⟩
      · rw [← hbody, h]
        rfl
      · rw [← hbody, h]
        rfl
  cases hsees with
  | @books m hm hretry hretriable =>
      obtain ⟨place, hplace, hb⟩ := hs.taken
      obtain ⟨x, y, hx, hy, -, m', hm', hkey, hbody⟩ := hs.before.tidy.booked_stepAt hb hplace hm
      rw [hretry.key] at hx hkey
      refine .awaits ⟨⟨x, y.audience, y.body, hx, job?_eq_some.mpr ⟨y, hy, rfl, rfl⟩, ?_⟩,
        fun _ => ⟨hidle', hretriable.congr hentry hsetup⟩⟩
      rw [hbody, (hs.isRetryOf_of_key hm' hkey).body]
      exact decide_eq_true (List.mem_singleton_self id)
  | fails hnext hnone => exact .abandoned List.mem_cons_self (.fails hcharge ⟨_, hnext⟩ hnone)
  | spent hno hnone =>
      refine .rests ⟨hidle', fun {t j} hj => Bool.not_eq_true _ ▸ fun hr => ?_,
        hover fun hr => hno (hr.congr hentry.symm hsetup.symm)⟩
      rcases hcomes hj with ⟨hne, hold⟩ | ⟨m, hm, hbody⟩
      · exact hne (hsole t j hold hr)
      · exact hnone m hm (hs.key_of_retries hm (hbody ▸ hr))

/-- A retry that is stopped abandons its delivery. -/
theorem kept_of_stop (hretries : n.body.retries id = true) {st : Stop}
    (hst : n.turn ControlRoom.program = n.state.stop st) : Kept id p (n :: h) o := by
  refine .abandoned List.mem_cons_self (.fails (.inl hretries) ⟨st, ?_⟩ ?_)
  · exact congrArg (·.next) hst
  · rw [hst]
    exact List.forall_mem_nil _

/-- A retry that begins goes on with an attempt, or finds that it has to wait. -/
theorem Awaits.retry (ha : Awaits id p o) (hk : Tracked id p h o) (hs : p.Step h o n o')
    (hbody : n.body = .retry [id] p.setup.maxRetries true) : Kept id p (n :: h) o' := by
  have hself : ∀ {most again}, (Work.retry [id] most again).retries id = true :=
    decide_eq_true (List.mem_singleton_self id)
  have hretries : n.body.retries id = true := hbody ▸ hself
  have hjob := hs.job
  rw [hbody] at hjob
  obtain ⟨hidle, hretriable⟩ := ha.retriable hjob
  have hsole : ∀ u j, Agenda.job? o u = some j → j.2.retries id = true → u = n.task :=
    fun u j hj hr => hk.retries.eq hj hs.job hr hretries
  have hturn : n.turn ControlRoom.program
      = ControlRoom.program n.now n.state (.retry [id] p.setup.maxRetries true) n.wake := by
    rw [← hbody]
    rfl
  rcases ControlRoom.program_retry n.now n.state [id] p.setup.maxRetries true n.wake with
    ⟨st, hst⟩ | ⟨m, -, hbegin⟩
  · exact kept_of_stop hretries (hturn.trans hst)
  · rw [hbegin] at hturn
    rcases ControlRoom.beginRetry_cases n.state m [id] p.setup.maxRetries true with
      ⟨f, -, h⟩ | ⟨-, h⟩ | ⟨tried, hne, htried, h⟩
    · exact kept_of_stop hretries (hturn.trans h)
    · rw [h] at hturn
      have hstate : o'.state = n.state.buryLost p.setup.maxRetries [] := by
        rw [hs.leaves, hturn, ControlRoom.endRetry_state]
      refine hs.kept_of_seesTo (c := n.state.buryLost p.setup.maxRetries []) ?_
        (congrArg (·.journal) hstate) (congrArg (·.setup) hstate) (.inl hretries) ?_ hidle hsole
        fun hno => absurd ?_ hno
      · rw [hturn]
        exact ControlRoom.seesTo_endRetry m [] p.setup.maxRetries (List.mem_singleton_self id)
      · unfold Stint.Ends
        rw [hturn]
        exact ControlRoom.finishes_endRetry n.state m [] [id] p.setup.maxRetries true
      · rw [hs.state] at hstate
        exact hretriable.congr (by rw [hstate]; rfl) (by rw [hstate]; rfl)
    · -- the task keeps its booking while it waits for the attempt
      obtain rfl := (List.sublist_singleton.mp (ControlRoom.of_eligible htried).1).resolve_left hne
      rw [h] at hturn
      obtain ⟨place, hplace, hstep⟩ := hs.taken
      obtain ⟨b, v, w, hb, hwjob, hw⟩ := ha.pending
      have htask : b.task = n.task := hsole _ _ hwjob hw
      have hafter := job?_of_stint (u := n.task) hs.numbered hplace hstep
      rw [if_pos rfl, hturn] at hafter
      have hafter : Agenda.job? o' b.task
          = some (n.audience, .retrying [id] p.setup.maxRetries true) := htask ▸ hafter
      refine .awaits ⟨⟨b, _, _, hs.before.tidy.kept_stepAt hstep hb ?_ fun s hs' => ?_, hafter, ?_⟩,
        fun {t v} hj => ?_⟩
      · exact fun hgone => nomatch hafter.symm.trans (job?_eq_none.mpr hgone)
      · obtain rfl := Option.some.inj (hplace.symm.trans hs')
        rw [hturn]
        exact List.forall_mem_nil _
      · exact decide_eq_true (List.mem_singleton_self id)
      · rcases (hs.comes hj).stays_or_heir with ⟨hne, hold⟩ | hheir
        · exact absurd (hsole t _ hold hself) hne
        · rw [hturn] at hheir
          have hheir : Work.retry [id] p.setup.maxRetries true ∈
              [.retrying [id] p.setup.maxRetries true, .attempt id] := hheir
          rcases List.mem_cons.mp hheir with heq | hheir
          · exact nomatch heq
          · exact nomatch List.mem_singleton.mp hheir

/-- A retry whose attempt is over leaves the delivery to the next one, or gives it up. -/
theorem Tracked.kept_of_retrying (hk : Tracked id p h o) (hs : p.Step h o n o')
    (hbody : n.body = .retrying [id] p.setup.maxRetries true) : Kept id p (n :: h) o' := by
  have hretries : n.body.retries id = true := by
    rw [hbody]
    exact decide_eq_true (List.mem_singleton_self id)
  have hturn : n.turn ControlRoom.program
      = ControlRoom.program n.now n.state (.retrying [id] p.setup.maxRetries true) n.wake := by
    rw [← hbody]
    rfl
  rcases ControlRoom.program_retrying n.now n.state [id] p.setup.maxRetries true n.wake with
    ⟨st, hst⟩ | ⟨m, ys, hwake, hend⟩
  · exact kept_of_stop hretries (hturn.trans hst)
  · rw [hend] at hturn
    have hstate : o'.state = n.state.buryLost p.setup.maxRetries [id] := by
      rw [hs.leaves, hturn, ControlRoom.endRetry_state]
    refine hs.kept_of_seesTo (c := n.state.buryLost p.setup.maxRetries [id]) ?_
      (congrArg (·.journal) hstate) (congrArg (·.setup) hstate) (.inl hretries) ?_
      (fun u j hj => ?_) (fun u j hj hr => hk.retries.eq hj hs.job hr hretries) fun hno => ?_
    · rw [hturn]
      exact ControlRoom.seesTo_endRetry m [id] p.setup.maxRetries (List.mem_singleton_self id)
    · unfold Stint.Ends
      rw [hturn]
      exact ControlRoom.finishes_endRetry n.state m [id] [id] p.setup.maxRetries true
    · exact Bool.not_eq_true _ ▸ fun ht => hk.idle_of_retrying hs hbody hwake hj ht
    · -- a delivery whose retries are used up is given up
      by_cases hfailed : ControlRoom.HasFailed id o'.state
      · obtain ⟨e, he, hstatus⟩ := hfailed
        have hused : p.setup.maxRetries ≤ e.retries := by
          refine Int.not_lt.mp fun hlt => hno ⟨e, he, LogEntry.isRetriable_iff.mpr ⟨hstatus, ?_⟩⟩
          rw [hstate]
          show e.retries < n.state.setup.maxRetries
          rw [hs.state, hk.setup]
          exact hlt
        have hlost : e.isLost p.setup.maxRetries = true := by
          unfold LogEntry.isLost
          rw [hstatus, decide_eq_true hused]
          rfl
        have he : n.state.journal.get? id = some e := by
          rw [hstate] at he
          exact he
        refine .inl ?_
        rw [hstate, ControlRoom.buryLost_singleton, he, Option.any_some, hlost]
        exact List.mem_append_right _ (List.mem_singleton_self id)
      · exact .inr hfailed

/-- An attempt leaves the retry that waits for it pending. -/
theorem Kept.attempt (hkept : Kept id p h o) (hs : p.Step h o n o')
    (htries : n.body.tries id = true) : Kept id p (n :: h) o' := by
  have htried := ControlRoom.tried_program n.now n.state htries n.wake
  cases hkept with
  | awaits ha =>
      refine .awaits ⟨hs.retryPending ha.pending (Work.retries_of_tries htries) ?_,
        fun {t v} hj => ?_⟩
      · rw [show (n.turn ControlRoom.program).appointments = [] from htried.appointments]
        exact List.forall_mem_nil _
      · rcases (hs.comes hj).stays_or_heir with ⟨-, hold⟩ | hheir
        · exact nomatch htries.symm.trans ((ha.retriable hold).1 _ _ hs.job)
        · have hretries : (Work.retry [id] p.setup.maxRetries true).retries id = true :=
            decide_eq_true (List.mem_singleton_self id)
          exact nomatch hretries.symm.trans (htried.retries_heirs _ hheir)
  | rests hr => exact nomatch htries.symm.trans (hr.idle _ _ hs.job)
  | unretried hmost => exact .unretried hmost
  | abandoned hn ha => exact .abandoned (List.mem_cons_of_mem n hn) ha

/-- Other work leaves a delivery alone whose wave has ended. -/
theorem Tracked.unmoved_of_other (hk : Tracked id p h o) (hs : p.Step h o n o')
    (hone : GivenOnce id (n :: h)) (hhanded : Handed id h) (htries : n.body.tries id = false)
    (hretries : n.body.retries id = false) (hdraws : draws id n = false) : Unmoved id o o' := by
  obtain ⟨hleaves, hnone, hbooks⟩ := hs.aside htries hretries hdraws
  rw [← hs.leaves, hs.state] at hleaves
  have hcarried : (n.body.carried n.wake).count id = 0 := by
    refine List.count_eq_zero.mpr fun hid => ?_
    obtain ⟨place, hplace, -⟩ := hs.taken
    obtain ⟨hwave, hover⟩ := (hs.before.carried_once hs.after hone hplace).2 hid
    exact (hk.first_over hs hone hdraws hwave hover).2.1 hhanded
  rw [hcarried] at hbooks
  have hunretried := hbooks.forall
  refine ⟨hleaves, fun hj hjob => ?_, fun hp => hs.retryPending hp hretries fun m hm hkey => ?_⟩
  · rcases (hs.comes hj).stays_or_heir with ⟨-, hold⟩ | hheir
    · exact hold
    · rcases hjob with h | h
      · exact nomatch h.symm.trans (hnone _ hheir)
      · exact nomatch h.symm.trans (hunretried _ hheir)
  · have hheir : m.body ∈ (n.turn ControlRoom.program).heirs :=
      List.mem_append_right _ (List.mem_append_left _ (List.mem_map_of_mem hm))
    have hbody := hunretried _ hheir
    rw [(hs.isRetryOf_of_key hm hkey).body] at hbody
    exact of_decide_eq_false hbody (List.mem_singleton_self id)

/-- **Any stint keeps a delivery** whose wave has ended. -/
theorem Kept.stint (hkept : Kept id p h o) (hk : Tracked id p h o) (hs : p.Step h o n o')
    (hone : GivenOnce id (n :: h)) (hhanded : Handed id h) : Kept id p (n :: h) o' := by
  by_cases htries : n.body.tries id = true
  · exact hkept.attempt hs htries
  rw [Bool.not_eq_true] at htries
  have hdraws : draws id n = false := Bool.not_eq_true _ ▸ fun hdraws =>
    (hk.unknown hs hone hdraws).1 hhanded
  by_cases hretries : n.body.retries id = true
  · have hshape : n.body = .retry [id] p.setup.maxRetries true ∨
      n.body = .retrying [id] p.setup.maxRetries true ∧ _ := hk.shape hs.job hretries
    rcases hshape with hbody | ⟨hbody, -⟩
    · cases hkept with
      | awaits ha => exact ha.retry hk hs hbody
      | rests hr => exact nomatch hretries.symm.trans (hr.unretried hs.job)
      | unretried hmost => exact .unretried hmost
      | abandoned hn ha => exact .abandoned (List.mem_cons_of_mem n hn) ha
    · exact hk.kept_of_retrying hs hbody
  · rw [Bool.not_eq_true] at hretries
    exact hkept.unmoved (hk.unmoved_of_other hs hone hhanded htries hretries hdraws) fun d =>
      List.mem_cons_of_mem n

/-! ## Waves that end -/

/-- A delivery whose wave has not ended was sent once at most. The induction is on the history. -/
theorem Premises.SteadyRun.sendings_of_not_handed (hr : p.SteadyRun id h o) (hone : GivenOnce id h)
    (hnot : ¬ Handed id h) : (sendings id h).length ≤ 1 := by
  have hall : ∀ k, k <:+ h → (sendings id k).length ≤ 1 := by
    intro k
    induction k with
    | nil => exact fun _ => Nat.zero_le 1
    | cons n k ih =>
        intro hn
        have hkh : k <:+ h := (List.suffix_cons n k).trans hn
        rw [sendings_cons]
        cases hsend : sending? id n with
        | none => exact ih hkh
        | some m =>
            obtain ⟨b, c, hk, hs⟩ := hr.tracked_before hone hn
            by_cases hdraws : draws id n = true
            · obtain ⟨-, hnil, -⟩ := hk.unknown hs (hone.of_subset fun d => (hn.subset ·)) hdraws
              rw [hnil]
              exact Nat.le_refl 1
            · -- it is tried again only when its wave has ended
              have hagain : triesAgain id n = true := by
                rw [Bool.not_eq_true] at hdraws
                unfold sending? at hsend
                rw [hdraws, Bool.false_or] at hsend
                split at hsend
                · rename_i h
                  exact h
                · exact nomatch hsend
              obtain ⟨es, most, again, now, tried, hbody, -, htried, hid⟩ :=
                triesAgain_iff.mp hagain
              have hretries : n.body.retries id = true := by
                rw [hbody]
                exact decide_eq_true ((ControlRoom.of_eligible htried).1.subset hid)
              exact absurd ((hk.handed hs.job hretries).mono fun d => (hkh.subset ·)) hnot
  exact hall h (List.suffix_refl h)

/-- A delivery that has failed in its wave may be tried again, if retries are allowed at all. -/
theorem Premises.SteadyRun.retriable_of_not_handed (hr : p.SteadyRun id h o)
    (hone : GivenOnce id h) (hnot : ¬ Handed id h) (hmost : 0 < p.setup.maxRetries)
    (hfailed : ControlRoom.HasFailed id o.state) : ControlRoom.Retriable id o.state := by
  obtain ⟨e, he, hstatus⟩ := hfailed
  have hk := hr.tracked hone
  have hlength := hr.sendings_of_not_handed hone hnot
  have hrecords := hk.entry
  rw [he] at hrecords
  have hcount : e.retries = 0 := by
    cases hsendings : sendings id h with
    | nil =>
        rw [hsendings] at hrecords
        exact nomatch hrecords
    | cons first rest =>
        rw [hsendings] at hrecords hlength
        obtain ⟨e', he', -, hcount, -⟩ := hrecords
        obtain rfl := Option.some.inj he'
        rw [List.length_cons] at hlength
        rw [hcount]
        omega
  refine ⟨e, he, LogEntry.isRetriable_iff.mpr ⟨hstatus, ?_⟩⟩
  rw [hcount, hk.setup]
  exact hmost

/-- Every notification of a run books the retries of its deliveries when it ends. -/
theorem Premises.Run.sequel_of_notification (hr : p.Run h o) {e : Past} (hn : n :: e <:+ h)
    {q : AlertRef} {left : Nat} {es : List String} {sequel : Sequel} {os : List (Outcome Yield)}
    (hbody : n.body = .collecting q left es sequel) (hwake : n.wake = .arrived os) :
    ∃ policy, sequel = .book policy := by
  obtain ⟨s, hs, rs, -, -, -, ⟨-, hnext⟩, -⟩ := hr.told_of_notification hn hbody hwake
  have hleads := (hr.shaped (hn.subset (List.mem_cons_of_mem n hs))).next
  have hnotify : s.body = .notify q := by
    generalize (s.turn ControlRoom.program).next = next at hnext hleads
    generalize s.body = w at hleads
    cases hleads with
    | collecting => rw [(Work.collecting.inj (Next.collect.inj hnext).2).1]
    | _ => exact nomatch hnext
  have hgoes : (s.turn ControlRoom.program).next.body?
      = some (.collecting q rs.length [] sequel) := by
    rw [hnext]
    rfl
  unfold Stint.turn at hgoes
  rw [hnotify] at hgoes
  exact ControlRoom.sequel_of_notify hgoes

/-- **A wave that writes a delivery to a log** books its first retry, or the delivery needs none, or
it is abandoned. -/
theorem Premises.Step.kept_of_logged (hs : p.Step h o n o') (hr : p.SteadyRun id h o)
    (hone : GivenOnce id (n :: h)) (hid : id ∈ logged r n) : Kept id p (n :: h) o' := by
  have hold : GivenOnce id h := hone.of_subset fun d => List.mem_cons_of_mem n
  have hk := hr.tracked hold
  unfold logged ControlRoom.logged at hid
  split at hid
  · rename_i hwrites
    obtain ⟨hcompletes, hclock, -⟩ := hwrites
    obtain ⟨m, hm⟩ := Option.isSome_iff_exists.mp hclock
    obtain ⟨place, hplace, -⟩ := hs.taken
    obtain ⟨hwave, hover⟩ := (hs.before.carried_once hs.after hone hplace).2 hid
    have hdraws : draws id n = false := draws_eq_false fun q level hbody => by
      rw [hbody] at hwave
      exact hwave
    obtain ⟨-, hnot, hidle⟩ := hk.first_over hs hone hdraws hwave hover
    have hends : ∃ out, n.Ends ControlRoom.program out :=
      ControlRoom.finishes_of_completes (hs.after.mayBeDone n List.mem_cons_self).1 hcompletes
    by_cases hmost : p.setup.maxRetries ≤ 0
    · exact .unretried hmost
    have hkept : ∀ {d : ControlRoom}, ControlRoom.SeesTo id d (n.turn ControlRoom.program) →
        d.journal = n.state.journal → d.setup = n.state.setup → o'.state.journal = d.journal →
          o'.state.setup = d.setup → Kept id p (n :: h) o' := by
      intro d hsees hdjournal hdsetup hjournal hsetup
      refine hs.kept_of_seesTo hsees hjournal hsetup (.inr hid) hends
        (fun u j hj => Bool.not_eq_true _ ▸ fun ht => hidle hj ht)
        (fun u j hj hretries => absurd (hk.handed hj hretries) hnot) fun hno =>
          .inr fun hfailed => ?_
      rw [hs.state] at hdjournal hdsetup
      have hentry : o.state.journal.get? id = o'.state.journal.get? id :=
        congrArg (·.get? id) (hjournal.trans hdjournal).symm
      exact hno ((hr.retriable_of_not_handed hold hnot (Int.not_le.mp hmost)
        (hfailed.congr hentry)).congr hentry.symm (hsetup.trans hdsetup))
    obtain ⟨d, q, hdjournal, hdsetup, ⟨left, es, sequel, hbody, hturn⟩ |
      ⟨pol, s, since, booked, hbody, hturn⟩⟩ := ControlRoom.program_of_completes hm hcompletes
    · obtain ⟨os, hwake⟩ : ∃ os, n.wake = .arrived os := by
        rw [hbody] at hcompletes
        generalize n.wake = wake at hcompletes
        cases wake with
        | arrived os => exact ⟨os, rfl⟩
        | _ => exact nomatch hcompletes
      obtain ⟨policy, rfl⟩ := hs.after.sequel_of_notification (List.suffix_refl _) hbody hwake
      have hstate : o'.state = d := by
        rw [hs.leaves]
        exact (congrArg (·.state) hturn).trans (ControlRoom.endNotification_state _ _ _ _ _)
      refine hkept ?_ hdjournal hdsetup (congrArg (·.journal) hstate) (congrArg (·.setup) hstate)
      exact (show n.turn ControlRoom.program = _ from hturn) ▸
        ControlRoom.seesTo_endNotification m q policy hid
    · cases booked with
      | false => exact .abandoned List.mem_cons_self (.unbooked hbody hid)
      | true =>
          have hstate : o'.state = d := by
            rw [hs.leaves]
            exact (congrArg (·.state) hturn).trans (ControlRoom.endEscalation_state _ _ _ _ _ _)
          refine hkept ?_ hdjournal hdsetup (congrArg (·.journal) hstate)
            (congrArg (·.setup) hstate)
          exact (show n.turn ControlRoom.program = _ from hturn) ▸
            ControlRoom.seesTo_followUp m q pol hid
  · exact absurd hid List.not_mem_nil

/-- What is in the log of an alert was begun for the alert, and its wave has ended. -/
theorem Premises.Run.handed_of_mem_logOf (hr : p.Run h o) (hone : GivenOnce id h)
    (hid : id ∈ o.state.store.logOf r) : DrawnFor id r.id h ∧ Handed id h := by
  rw [hr.logOf_eq r] at hid
  obtain ⟨n, hn, hid⟩ := List.mem_flatMap.mp hid
  have hn := List.mem_reverse.mp hn
  obtain ⟨d, hd, hdraws, haudience, q, level, hbody, rfl⟩ := hr.drawn_of_logged hn hid
  obtain ⟨-, -, -, hends⟩ := hr.of_mem_logged hone hd hdraws hbody hn hid
  exact ⟨⟨d, hd, hdraws, q, level, hbody, rfl⟩, d, hd, hdraws, n, hn, haudience, hends⟩

/-! ## Requests -/

/-- A request that leaves the retries of a delivery to the room, and does not shut it down. -/
def LeavesBookings (id : String) (q : Request) : Prop :=
  LeavesRetries id q ∧ q ≠ .shutdown

/-- Whoever deals with an alert leaves a trace on it. -/
theorem Request.status_of_remedy? {q : Request} {i : String} {f : Alert → Option Alert}
    (hq : q.remedy? o = some (i, f)) {a b : Alert} (hf : f a = some b) : b.status ≠ .triggered := by
  cases q with
  | acknowledge i who =>
      obtain ⟨-, rfl⟩ := Prod.mk.inj (Option.some.inj hq)
      unfold Alert.acknowledge? at hf
      dsimp only at hf
      split at hf
      · obtain rfl := Option.some.inj hf
        exact nofun
      · exact nomatch hf
  | resolve i who notes =>
      obtain ⟨-, rfl⟩ := Prod.mk.inj (Option.some.inj hq)
      unfold Alert.resolve? at hf
      dsimp only at hf
      split at hf
      · obtain rfl := Option.some.inj hf
        exact nofun
      · exact nomatch hf
  | markFalsePositive i who =>
      obtain ⟨-, rfl⟩ := Prod.mk.inj (Option.some.inj hq)
      obtain rfl := Option.some.inj hf
      exact nofun
  | _ => exact nomatch hq

/-- An alert of which nobody has taken notice was so before, and nothing was done about it. -/
theorem untouched_of_serve (ht : Tidy o) (hsole : o.state.store.Sole r) {q : Request}
    (hafter : (serve o q).state.store.Untouched r) : o.state.store.Untouched r ∧
      ∀ f, q.remedy? o = some (r.id, f) → serve o q = o := by
  cases hremedy : q.remedy? o with
  | none =>
      rw [store_serve ht.numbered hremedy] at hafter
      exact ⟨hafter, nofun⟩
  | some y =>
      obtain ⟨i, f⟩ := y
      have hserve := serve_of_remedy? hremedy
      rcases settleAlert_cases ht i f with h | ⟨b, hb, hstate, -⟩
      · rw [h] at hserve
        exact ⟨hserve ▸ hafter, fun _ _ => hserve⟩
      · obtain ⟨a, ha, hfa⟩ := Option.bind_eq_some_iff.mp hb
        rw [← hserve] at hstate
        obtain ⟨x, hx, hstatus⟩ := hafter
        rw [hstate] at hx
        have hx : (o.state.store.adjustAt (o.ref i) fun _ => b).find? r = some x := hx
        have hfound : o.state.store.find? (o.ref i) = some a := (Store.find?_ref _ _).trans ha
        have hother : r ≠ o.ref i := by
          rintro rfl
          rw [Store.find?_adjustAt, if_pos rfl, hfound] at hx
          obtain rfl := Option.some.inj hx
          exact Request.status_of_remedy? hremedy hfa hstatus
        rw [Store.find?_adjustAt, if_neg hother] at hx
        refine ⟨⟨x, hx, hstatus⟩, fun g hg => ?_⟩
        obtain ⟨rfl, -⟩ := Prod.mk.inj (Option.some.inj hg)
        exact absurd (hsole (o.ref r.id) a rfl hfound).symm hother

/-- **Requests leave a delivery alone** if they are not about its alert. -/
theorem Premises.Run.unmoved_serve (hr : p.Run h o) (hone : GivenOnce id h)
    (hdrawn : DrawnFor id r.id h) {q : Request} (hq : LeavesBookings id q)
    (hother : ∀ f, q.remedy? o ≠ some (r.id, f)) : Unmoved id o (serve o q) := by
  have ht := hr.tidy
  have hadding := adding_serve ht.numbered q
  refine ⟨(sameBooks_serve ht.numbered q).leaves, fun hj hjob => ?_,
    fun ⟨b, v, w, hb, hjob, hw⟩ => ?_⟩
  · rcases hadding.cases hj with hj | hj
    · exact hj
    · obtain ⟨ht, hr⟩ := asks_of_leavesRetries hq.1 hj
      rcases hjob with h | h
      · exact nomatch h.symm.trans ht
      · exact nomatch h.symm.trans hr
  · obtain ⟨x, hx, -⟩ := job?_eq_some.mp hjob
    have hafter : Agenda.job? (serve o q) b.task = some (v, w) := by
      rw [hadding b.task, if_pos (ht.numbered hx)]
      exact hjob
    refine ⟨b, v, w, ?_, hafter, hw⟩
    generalize hs : serve o q = o'
    have hserves : Serves o q o' := hs ▸ serves o q
    clear hs
    cases hserves with
    | adjusted f => exact hb
    | @settled _ i f hremedy =>
        rcases settleAlert_cases ht i f with h | ⟨a, -, -, hget⟩
        · rw [h]
          exact hb
        · rw [hget, hb]
          refine Option.filter_eq_some_iff.mpr ⟨rfl, decide_eq_true fun hbid => ?_⟩
          rcases hr.isFor hb with ⟨e, i', hkey, hfor, hbid'⟩ | ⟨i', level, hkey, -⟩
          · obtain rfl := retryKey_inj hkey
            obtain rfl := hr.drawnFor_unique hone hdrawn hfor
            obtain rfl := Option.some.inj (hbid.symm.trans hbid')
            exact hother f hremedy
          · exact retryKey_ne_escalationKey _ _ _ hkey
    | launched => exact hb
    | booked =>
        refine (get?_bookAll_of_ne _ o fun m hm hkey => ?_).trans hb
        cases asksFor_of_mem hm with
        | retry he hretry =>
            obtain rfl := retryKey_inj (hretry.key.symm.trans hkey)
            exact hq.1 he
        | next hnext =>
            obtain ⟨a, s, -, -, hnkey⟩ := hnext.stage
            exact retryKey_ne_escalationKey _ _ _ (hkey.symm.trans hnkey)
    | shut => exact absurd rfl hq.2

/-! ## Runs -/

/-- What an office may come to while nobody shuts it down and all requests leave the retries of a
delivery to the room. -/
abbrev Premises.LastingRun (p : Premises) (id : String) : Past → Office → Prop :=
  Agenda.Run ControlRoom.program (fun o o' => ∃ q, LeavesBookings id q ∧ o' = serve o q)
    (.idle p.room)

theorem Premises.LastingRun.steady (hr : p.LastingRun id h o) : p.SteadyRun id h o :=
  hr.mono fun ⟨q, hq, hb⟩ => ⟨q, hq.1, hb⟩

/-- Work takes no notice of alerts: one with a log that nobody has taken notice of was so before. -/
theorem Premises.Step.untouched (hs : p.Step h o n o') (hid : id ∈ o.state.store.logOf r)
    (hafter : o'.state.store.Untouched r) : o.state.store.Untouched r := by
  have hmanaged := (hs.after.mayBeDone n List.mem_cons_self).1
  cases hfound : o.state.store.find? r with
  | none =>
      unfold Store.logOf Store.read at hid
      rw [hfound] at hid
      exact absurd hid List.not_mem_nil
  | some x =>
      obtain ⟨y, hy, hstatus⟩ :=
        (ControlRoom.writes_program n.now n.state hmanaged n.wake).status (hs.state ▸ hfound)
      obtain ⟨z, hz, hopen⟩ := hafter
      rw [hs.leaves] at hz
      obtain rfl := Option.some.inj (hy.symm.trans hz)
      exact ⟨x, hfound, hstatus.symm.trans hopen⟩

/-- What is in the log of an alert of which nobody has taken notice is kept. The induction is on the
run. -/
theorem Premises.LastingRun.kept (hr : p.LastingRun id h o) (hone : GivenOnce id h)
    (hsole : o.state.store.Sole r) (hopen : o.state.store.Untouched r)
    (hid : id ∈ o.state.store.logOf r) : Kept id p h o := by
  induction hr with
  | idle =>
      obtain ⟨a, ha, -⟩ := hopen
      have ha : Store.empty.find? r = some a := ha
      rw [Store.find?_eq_line] at ha
      exact nomatch ha
  | @step h a b place hr hb ih =>
      have hsteady : p.SteadyRun id h a := Premises.LastingRun.steady hr
      have hrun : p.Run h a := hsteady.run
      have hstep := hrun.step hb
      have hstate := state_of_stepAt hrun.keeps.numbered hb
      cases hs : Agenda.stintAt? a place with
      | none =>
          rw [hs] at hstate hone
          have hstate : b.state = a.state := hstate
          rw [hstate] at hsole hopen hid
          exact (ih hone hsole hopen hid).unmoved (hrun.unmoved_of_no_stint hs hb) fun _ hn => hn
      | some n =>
          rw [hs] at hstep hone
          have hs : p.Step h a n b := ⟨hrun, hstep, place, hs, hb⟩
          have hold : GivenOnce id h := hone.of_subset fun d => List.mem_cons_of_mem n
          have hmanaged := (hs.after.mayBeDone n List.mem_cons_self).1
          have hlog := ControlRoom.logOf_program n.now n.state hmanaged n.wake r
          rw [hs.leaves, show (n.turn ControlRoom.program).state.store.logOf r = _ from hlog,
            hs.state] at hid
          rcases List.mem_append.mp hid with hid | hid
          · -- the alert was there, and work has not touched it either
            have hgrows := (later_turn n).grows
            rw [hs.state, ← hs.leaves] at hgrows
            exact (ih hold (hsole.of_grows hgrows) (hs.untouched hid hopen) hid).stint
              (hsteady.tracked hold) hs hone (hrun.handed_of_mem_logOf hold hid).2
          · refine hs.kept_of_logged hsteady hone (r := r) ?_
            unfold logged
            rw [hs.state]
            exact hid
  | @pass h a time hr hready htime ih =>
      rw [state_passTo] at hsole hopen hid
      exact (ih hone hsole hopen hid).unmoved (unmoved_passTo a time) fun _ hn => hn
  | @serve h a b hr hb ih =>
      have hrun : p.Run h a := (Premises.LastingRun.steady hr).run
      have hn : Agenda.Numbered a := hrun.keeps.numbered
      obtain ⟨q, hq, rfl⟩ := hb
      have hsole := hsole.of_grows (kept_serve hn q).grows
      have hlog : (serve a q).state.store.logOf r = a.state.store.logOf r :=
        read_serve hn q (fun hremedy h => (spared_of_remedy? hremedy h).2) r
      rw [hlog] at hid
      obtain ⟨huntouched, hsame⟩ := untouched_of_serve hrun.tidy hsole hopen
      have hold := ih hone hsole huntouched hid
      by_cases hmine : ∃ f, q.remedy? a = some (r.id, f)
      · obtain ⟨f, hf⟩ := hmine
        rw [hsame f hf]
        exact hold
      · refine hold.unmoved (hrun.unmoved_serve hone (hrun.handed_of_mem_logOf hone hid).1 hq ?_)
          fun _ hn => hn
        exact fun f hf => hmine ⟨f, hf⟩

/-- **What becomes of a failed delivery** in the log of an alert of which nobody has taken notice:
its next retry is pending, or it was given up, unless the setup allows no retries or somebody who
was in charge of the delivery has abandoned it. -/
theorem Premises.LastingRun.pending_or_dead (hr : p.LastingRun id h o) (hone : GivenOnce id h)
    (hsole : o.state.store.Sole r) (hopen : o.state.store.Untouched r)
    (hid : id ∈ o.state.store.logOf r) (hfailed : ControlRoom.HasFailed id o.state) :
    RetryPending id o ∨ id ∈ o.state.deadLetters ∨ p.setup.maxRetries ≤ 0 ∨
      ∃ n ∈ h, Abandons id n := by
  cases hr.kept hone hsole hopen hid with
  | awaits ha => exact .inl ha.pending
  | rests hrests => exact .inr (.inl (hrests.settled.resolve_right fun hno => hno hfailed))
  | unretried hmost => exact .inr (.inr (.inl hmost))
  | abandoned hn ha => exact .inr (.inr (.inr ⟨_, hn, ha⟩))

/-! ## A delivery that is refused -/

namespace Sample

/-- A pass over the ward, and what becomes of its only delivery within a second. -/
def attended (p : Premises) : Past × Office :=
  p.play ([.ask (.addConfiguration (configuration "ward" .standard none)),
    .ask (.pass snapshot)] ++ List.replicate 12 (.turn 0) ++
    .wait Instant.perSecond :: List.replicate 6 (.turn 0))

theorem lastingRun_attended (p : Premises) (id : String) :
    p.LastingRun id (attended p).1 (attended p).2 := by
  refine run_after (x := ([], .idle p.room)) (fun q hq o => ⟨q, ?_, rfl⟩) .idle
  rcases List.mem_append.mp hq with hq | hq
  · rcases List.mem_append.mp hq with hq | hq
    · rcases List.mem_cons.mp hq with hq | hq
      · rw [Move.ask.inj hq]
        exact ⟨trivial, nofun⟩
      · rw [Move.ask.inj (List.mem_singleton.mp hq)]
        exact ⟨trivial, nofun⟩
    · exact nomatch List.eq_of_mem_replicate hq
  · rcases List.mem_cons.mp hq with hq | hq
    · exact nomatch hq
    · exact nomatch List.eq_of_mem_replicate hq

/-- An office that tries nothing again. -/
def hasty : Premises :=
  { refusing with setup := { maxRetries := 0 } }

/-- An office whose mail line refuses the first message, and takes no other. -/
def severed : Premises :=
  premises fun number => if number = 0 then .ok ⟨false, .null, none, none⟩
    else .error (.unsupportedChannel .email)

end Sample

set_option maxRecDepth 100000 in
/-- A delivery that is refused twice where it is tried again once. -/
theorem pending_or_dead_refused :
    GivenOnce "notif_0000000000000001" (Sample.attended Sample.refusing).1 ∧
      (Sample.attended Sample.refusing).2.state.store.Sole Sample.warm ∧
      (Sample.attended Sample.refusing).2.state.store.Untouched Sample.warm ∧
      "notif_0000000000000001" ∈ (Sample.attended Sample.refusing).2.state.store.logOf Sample.warm ∧
      ControlRoom.HasFailed "notif_0000000000000001" (Sample.attended Sample.refusing).2.state ∧
      (RetryPending "notif_0000000000000001" (Sample.attended Sample.refusing).2 ∨
        "notif_0000000000000001" ∈ (Sample.attended Sample.refusing).2.state.deadLetters ∨
        Sample.refusing.setup.maxRetries ≤ 0 ∨
        ∃ n ∈ (Sample.attended Sample.refusing).1, Abandons "notif_0000000000000001" n) := by
  have hone : GivenOnce "notif_0000000000000001" (Sample.attended Sample.refusing).1 := by
    decide +kernel
  have hsole : (Sample.attended Sample.refusing).2.state.store.Sole Sample.warm :=
    Sample.sole_warm (by decide +kernel)
  have hopen : (Sample.attended Sample.refusing).2.state.store.Untouched Sample.warm := by
    decide +kernel
  have hid : "notif_0000000000000001" ∈
      (Sample.attended Sample.refusing).2.state.store.logOf Sample.warm := by
    decide +kernel
  have hfailed : ControlRoom.HasFailed "notif_0000000000000001"
      (Sample.attended Sample.refusing).2.state := by
    decide +kernel
  exact ⟨hone, hsole, hopen, hid, hfailed,
    (Sample.lastingRun_attended _ _).pending_or_dead hone hsole hopen hid hfailed⟩

/-- Nothing is under way, and a delivery in the log of an alert of which nobody has taken notice has
failed, has no retry that is pending and was not given up. -/
def Forsaken (id : String) (r : AlertRef) (o : Office) : Prop :=
  o.processes.length = 0 ∧ o.state.store.Untouched r ∧ id ∈ o.state.store.logOf r ∧
    ControlRoom.HasFailed id o.state ∧ (o.timetable.bookings.get? (retryKey id)).isNone = true ∧
    id ∉ o.state.deadLetters

instance (id : String) (r : AlertRef) (o : Office) : Decidable (Forsaken id r o) :=
  inferInstanceAs (Decidable (_ ∧ _))

/-- The office can forget a delivery that was begun once. -/
def Premises.Forsakes (p : Premises) : Prop :=
  ∃ id r h o, p.LastingRun id h o ∧ GivenOnce id h ∧ o.state.store.Sole r ∧ Forsaken id r o

namespace Sample

theorem forsakes_of_attended (p : Premises)
    (hone : GivenOnce "notif_0000000000000001" (attended p).1)
    (hline : ((attended p).2.state.store.line warm.id).length ≤ 1)
    (hforsaken : Forsaken "notif_0000000000000001" warm (attended p).2) : p.Forsakes :=
  ⟨_, _, _, _, lastingRun_attended p _, hone, sole_warm hline, hforsaken⟩

end Sample

set_option maxRecDepth 100000 in
/-- Deliveries that fail are forgotten: where nothing is tried again, and where a retry finds that
nobody takes its message. -/
theorem forsaken_ward : Sample.hasty.Forsakes ∧ Sample.severed.Forsakes :=
  ⟨Sample.forsakes_of_attended _ (by decide +kernel) (by decide +kernel) (by decide +kernel),
    Sample.forsakes_of_attended _ (by decide +kernel) (by decide +kernel) (by decide +kernel)⟩

end Office

end BuildingAlerts
