/-
How a delivery goes through the history.

A delivery begins with the stint that draws its identifier, and each retry begins with a stint that
finds it eligible; these are the times at which something is sent. Attempts descend from them, and
the waves that deliveries belong to, notifications and escalations, carry a delivery once at most
and only when its first attempt is over.
-/
import BuildingAlerts.Proofs.Agenda.News
import BuildingAlerts.Proofs.ControlRoom.Attempts
import BuildingAlerts.Proofs.ControlRoom.Begun

set_option autoImplicit false

namespace BuildingAlerts

open Agenda

/-! ## Waves of deliveries -/

namespace Work

variable {id : String} {w b : Work} {n : Next Work Yield}

/-- Notifications and escalations: work that starts deliveries and waits for them. -/
def IsWave : Work → Prop
  | .notify _ | .collecting .. | .escalate .. | .escalating .. => True
  | _ => False

/-- Waves go on as waves, and nothing else does. -/
theorem Leads.isWave_iff (hn : w.Leads n) (hb : n.body? = some b) : b.IsWave ↔ w.IsWave := by
  cases hn with
  | finish _ o => exact nomatch hb
  | sending _ entry d l result hw =>
      obtain rfl := Option.some.inj hb
      rcases hw with ⟨r, level, rfl⟩ | ⟨e, rfl⟩ <;> exact .rfl
  | lapsing _ entry turns hw =>
      obtain rfl := Option.some.inj hb
      rcases hw with ⟨r, level, rfl⟩ | ⟨e, rfl⟩ | ⟨e, m, rfl⟩ <;> exact .rfl
  | _ =>
      obtain rfl := Option.some.inj hb
      exact .rfl

/-- Waves start deliveries. -/
theorem Leads.deliver_of_isWave (hn : w.Leads n) (hw : w.IsWave) {v : Work} (hv : v ∈ n.children) :
    ∃ r level, v = .deliver r level := by
  have hmap : ∀ {α : Type} {f : α → DeliveryRequest × Int} {xs : List α},
      v ∈ xs.map (fun x => .deliver (f x).1 (f x).2) → ∃ r level, v = .deliver r level := by
    intro α f xs hv
    obtain ⟨x, -, rfl⟩ := List.mem_map.mp hv
    exact ⟨_, _, rfl⟩
  cases hn with
  | collecting r rs sequel => exact hmap (f := fun q => (q, 0)) hv
  | escalating r p level rs s since booked => exact hmap (f := fun q => (q, s.level)) hv
  | evaluating s bs known => exact hw.elim
  | notifying known refs found => exact hw.elim
  | retrying es tried most again => exact hw.elim
  | _ => exact absurd hv List.not_mem_nil

/-- Work on a delivery or on an attempt. -/
def IsDelivery (w : Work) : Prop :=
  (∃ r level, w = .deliver r level) ∨ ∃ e, w.tries e = true

/-- Deliveries go on as attempts. -/
theorem Leads.isDelivery (hn : w.Leads n) (hw : w.IsDelivery) (hb : n.body? = some b) :
    b.IsDelivery := by
  have hself : ∀ e : String, decide (e = e) = true := fun e => decide_eq_true rfl
  cases hn with
  | finish _ o => exact nomatch hb
  | sending _ entry d l result _ =>
      obtain rfl := Option.some.inj hb
      exact .inr ⟨entry, hself entry⟩
  | lapsing _ entry turns _ =>
      obtain rfl := Option.some.inj hb
      exact .inr ⟨entry, hself entry⟩
  | _ => rcases hw with ⟨r, level, h⟩ | ⟨e, h⟩ <;> exact nomatch h

/-- Only deliveries go on as attempts. -/
theorem Leads.of_tries (hn : w.Leads n) (hb : n.body? = some b) (htries : b.tries id = true) :
    w.IsDelivery := by
  have hself : ∀ e : String, decide (e = e) = true := fun e => decide_eq_true rfl
  cases hn with
  | finish _ o => exact nomatch hb
  | sending _ entry d l result hw =>
      rcases hw with ⟨r, level, rfl⟩ | ⟨e, rfl⟩
      · exact .inl ⟨r, level, rfl⟩
      · exact .inr ⟨e, hself e⟩
  | lapsing _ entry turns hw =>
      rcases hw with ⟨r, level, rfl⟩ | ⟨e, rfl⟩ | ⟨e, m, rfl⟩
      · exact .inl ⟨r, level, rfl⟩
      · exact .inr ⟨e, hself e⟩
      · exact .inr ⟨e, hself e⟩
  | _ =>
      obtain rfl := Option.some.inj hb
      exact nomatch htries

/-- Only a retry starts attempts. -/
theorem Leads.of_tries_child (hn : w.Leads n) {v : Work} (hv : v ∈ n.children)
    (htries : v.tries id = true) :
    v = .attempt id ∧ ∃ es most again, w = .retry es most again := by
  have hmap : ∀ {α : Type} {f : α → Work} {xs : List α}, (∀ y, (f y).tries id = false) →
      v ∉ xs.map f := by
    intro α f xs hf hv
    obtain ⟨y, -, rfl⟩ := List.mem_map.mp hv
    exact nomatch (hf y).symm.trans htries
  cases hn with
  | retrying es tried most again =>
      obtain ⟨y, -, rfl⟩ := List.mem_map.mp hv
      exact ⟨congrArg _ (of_decide_eq_true htries), es, most, again, rfl⟩
  | evaluating s bs known => exact absurd hv (hmap fun _ => rfl)
  | notifying known refs found => exact absurd hv (hmap fun _ => rfl)
  | collecting r rs sequel => exact absurd hv (hmap fun _ => rfl)
  | escalating r p level rs s since booked => exact absurd hv (hmap fun _ => rfl)
  | _ => exact absurd hv List.not_mem_nil

end Work

namespace Office

variable {p : Premises} {h : Past} {o : Office} {id : String} {n : Doing}

/-! ## What is sent when -/

/-- A stint draws the identifier of a delivery and attempts it for the first time. -/
def draws (id : String) (n : Doing) : Bool :=
  match n.body with
  | .deliver _ _ => (n.state.clock? n.now).isSome && decide (n.state.nextEntry = id)
  | _ => false

/-- A stint tries a delivery again. -/
def triesAgain (id : String) (n : Doing) : Bool :=
  match n.body with
  | .retry es most _ => (n.state.clock? n.now).any fun now =>
      (n.state.eligible now most es).toOption.any fun tried => decide (id ∈ tried)
  | _ => false

/-- The time at which a stint sends something, for the first time or again. -/
def sending? (id : String) (n : Doing) : Option Moment :=
  if draws id n || triesAgain id n then n.state.clock? n.now else none

/-- The times at which a delivery was sent, the latest first. -/
def sendings (id : String) (h : Past) : List Moment :=
  h.filterMap (sending? id)

/-- A stint begins an attempt at a delivery. -/
def attempts (id : String) (n : Doing) : Bool :=
  match n.body with
  | .attempt e => decide (e = id)
  | _ => draws id n

/-- An identifier was given to one delivery at most. -/
def GivenOnce (id : String) (h : Past) : Prop :=
  ∀ d ∈ h, ∀ e ∈ h, draws id d = true → draws id e = true → d.task = e.task

theorem GivenOnce.of_subset {k : Past} (hh : GivenOnce id h) (hk : ∀ d ∈ k, d ∈ h) :
    GivenOnce id k :=
  fun d hd e he => hh d (hk d hd) e (hk e he)

theorem draws_iff : draws id n = true ↔ (∃ r level, n.body = .deliver r level) ∧
    (∃ m, n.state.clock? n.now = some m) ∧ n.state.nextEntry = id := by
  unfold draws
  split
  · rename_i r level hbody
    rw [Bool.and_eq_true, decide_eq_true_iff, Option.isSome_iff_exists]
    exact ⟨fun ⟨h, k⟩ => ⟨⟨r, level, hbody⟩, h, k⟩, fun ⟨_, h, k⟩ => ⟨h, k⟩⟩
  · rename_i hno
    exact ⟨nofun, fun ⟨⟨r, level, h⟩, _⟩ => absurd h (hno r level)⟩

theorem triesAgain_iff : triesAgain id n = true ↔ ∃ es most again m tried,
    n.body = .retry es most again ∧ n.state.clock? n.now = some m ∧
      n.state.eligible m most es = .ok tried ∧ id ∈ tried := by
  unfold triesAgain
  split
  · rename_i es most again hbody
    rw [Option.any_eq_true]
    constructor
    · rintro ⟨m, hm, h⟩
      cases htried : n.state.eligible m most es with
      | error f =>
          rw [htried] at h
          exact nomatch h
      | ok tried =>
          rw [htried] at h
          exact ⟨es, most, again, m, tried, hbody, hm, htried, of_decide_eq_true h⟩
    · rintro ⟨es', most', again', m, tried, hbody', hm, htried, hid⟩
      obtain ⟨rfl, rfl, rfl⟩ := Work.retry.inj (hbody.symm.trans hbody')
      refine ⟨m, hm, ?_⟩
      rw [htried]
      exact decide_eq_true hid
  · rename_i hno
    exact ⟨nofun, fun ⟨es, most, again, _, _, h, _⟩ => absurd h (hno es most again)⟩

theorem sendings_cons (id : String) (n : Doing) (h : Past) :
    sendings id (n :: h) = (sending? id n).toList ++ sendings id h := by
  unfold sendings
  rw [List.filterMap_cons]
  split
  · rename_i hn
    rw [hn]
    rfl
  · rename_i x hx
    rw [hx]
    rfl

/-- Work that neither draws an identifier nor retries sends nothing. -/
theorem sending?_eq_none (hdraws : draws id n = false) (htries : triesAgain id n = false) :
    sending? id n = none := by
  unfold sending?
  rw [hdraws, htries]
  rfl

theorem sending?_of_no_clock (hclock : n.state.clock? n.now = none) : sending? id n = none := by
  unfold sending?
  rw [hclock]
  exact ite_self none

theorem draws_eq_false (hbody : ∀ r level, n.body ≠ .deliver r level) : draws id n = false :=
  Bool.not_eq_true _ ▸ fun hdraws => by
    obtain ⟨⟨r, level, hdeliver⟩, -⟩ := draws_iff.mp hdraws
    exact hbody r level hdeliver

theorem triesAgain_eq_false
    (hbody : ∀ es most again, n.body = .retry es most again → id ∉ es) :
    triesAgain id n = false :=
  Bool.not_eq_true _ ▸ fun hagain => by
    obtain ⟨es, most, again, m, tried, hretry, -, htried, hid⟩ := triesAgain_iff.mp hagain
    exact hbody es most again hretry ((ControlRoom.of_eligible htried).1.subset hid)

theorem attempts_iff : attempts id n = true ↔ n.body = .attempt id ∨ draws id n = true := by
  unfold attempts
  split
  · rename_i e hbody
    rw [decide_eq_true_iff]
    constructor
    · rintro rfl
      exact .inl hbody
    · rintro (h | h)
      · exact Work.attempt.inj (hbody.symm.trans h)
      · obtain ⟨⟨r, level, hdeliver⟩, -⟩ := draws_iff.mp h
        exact nomatch hbody.symm.trans hdeliver
  · rename_i hno
    exact ⟨.inr, fun h => h.resolve_left (hno id)⟩

/-- Whoever draws an identifier goes on with its first attempt. -/
theorem Premises.Run.turn_of_draws (hr : p.Run h o) (hn : n ∈ h) (hdraws : draws id n = true) :
    ∃ r level m, n.body = .deliver r level ∧ n.state.clock? n.now = some m ∧
      n.state.nextEntry = id ∧ n.turn ControlRoom.program = n.state.beginDelivery m r level := by
  obtain ⟨⟨r, level, hbody⟩, ⟨m, hm⟩, hid⟩ := draws_iff.mp hdraws
  obtain ⟨-, hwake⟩ := hr.first hn (by rw [hbody]; trivial)
  refine ⟨r, level, m, hbody, hm, hid, ?_⟩
  unfold Stint.turn
  rw [hbody, hwake, ControlRoom.program_of_clock hm]
  rfl

/-- Whoever tries a delivery again starts attempts at all that is eligible. -/
theorem Premises.Run.turn_of_triesAgain (hr : p.Run h o) (hn : n ∈ h)
    (hagain : triesAgain id n = true) : ∃ es most again m tried,
      n.body = .retry es most again ∧ n.state.clock? n.now = some m ∧
      n.state.eligible m most es = .ok tried ∧ id ∈ tried ∧
      n.turn ControlRoom.program = (n.state.beginTries m tried).goOn
        (.gather (tried.map .attempt) (.retrying tried most again)) := by
  obtain ⟨es, most, again, m, tried, hbody, hclock, htried, hid⟩ := triesAgain_iff.mp hagain
  obtain ⟨-, hwake⟩ := hr.first hn (by rw [hbody]; trivial)
  have hturn : n.turn ControlRoom.program = n.state.beginRetry m es most again := by
    unfold Stint.turn
    rw [hbody, hwake, ControlRoom.program_of_clock hclock]
    rfl
  refine ⟨es, most, again, m, tried, hbody, hclock, htried, hid, hturn.trans ?_⟩
  rcases ControlRoom.beginRetry_cases n.state m es most again with
    ⟨f, hf, -⟩ | ⟨hnil, -⟩ | ⟨tried', -, htried', hbegins⟩
  · exact nomatch hf.symm.trans htried
  · obtain rfl := Except.ok.inj (hnil.symm.trans htried)
    exact absurd hid List.not_mem_nil
  · obtain rfl := Except.ok.inj (htried'.symm.trans htried)
    exact hbegins

/-! ## Where attempts come from -/

/-- What a turn goes on with is among its heirs. -/
theorem mem_heirs_of_body? {t : Stretch} {w : Work} (hw : t.next.body? = some w) : w ∈ t.heirs :=
  List.mem_append_left _ (Option.mem_toList.mpr hw)

/-- Attempts go on from attempts at the same delivery, or from the stint that drew it. -/
theorem Premises.Run.tries_before (hr : p.Run h o) {d : Doing} (hd : d ∈ h) {w : Work}
    (hw : (d.turn ControlRoom.program).next.body? = some w) (htries : w.tries id = true) :
    d.body.tries id = true ∨ draws id d = true := by
  have hheir := mem_heirs_of_body? hw
  have hother : ∀ {e : String} {c : ControlRoom}, ControlRoom.Tried e c
      (d.turn ControlRoom.program) → e = id := by
    intro e c htried
    by_contra he
    exact nomatch (htried.tries_heirs he w hheir).symm.trans htries
  rcases (hr.shaped hd).next.of_tries hw htries with ⟨r, level, hbody⟩ | ⟨e, he⟩
  · refine .inr (draws_iff.mpr ⟨⟨r, level, hbody⟩, ?_⟩)
    have hturn : d.turn ControlRoom.program
      = ControlRoom.program d.now d.state (.deliver r level) d.wake := by
      unfold Stint.turn
      rw [hbody]
    rcases ControlRoom.program_deliver d.now d.state r level d.wake with ⟨st, hst⟩ | ⟨m, hm, hst⟩
    · rw [hturn, hst] at hw
      exact nomatch hw
    · obtain ⟨c, -, -, -, -, htried⟩ := ControlRoom.tried_beginDelivery d.state m r level
      rw [← hst, ← hturn] at htried
      exact ⟨⟨m, hm⟩, hother htried⟩
  · obtain rfl := hother (ControlRoom.tried_program d.now d.state he d.wake)
    exact .inl he

/-- **Every attempt descends** from the stint that drew the delivery, or from a task that a retry
has started for it. The induction is on the history before the attempt. -/
theorem Premises.Run.descends (hr : p.Run h o) {f : Doing} {e : Past} (hf : f :: e <:+ h)
    (htries : f.body.tries id = true) : ∃ d ∈ f :: e, d.task = f.task ∧
      (draws id d = true ∨ d.body = .attempt id) := by
  induction hlen : e.length using Nat.strongRecOn generalizing f e with
  | ind m ih =>
      have hfollows := hr.keeps.coherent f e hf
      have hmem : f ∈ h := hf.subset List.mem_cons_self
      have heh : ∀ d ∈ e, d ∈ h := fun d hd => hf.subset (List.mem_cons_of_mem f hd)
      unfold History.Follows at hfollows
      split at hfollows
      · -- the task has just begun, so another one has started it
        obtain ⟨u, hu⟩ : ∃ u, f.audience = .task u := by
          by_contra hno
          have houter := (hr.mayBeDone f hmem).2 fun t ht => hno ⟨t, ht⟩
          rcases Work.of_tries htries with hw | ⟨r, hw⟩ | ⟨k, hw⟩
          · rw [hw] at houter
            exact houter
          · rw [hw] at houter
            exact houter
          · rw [hw] at houter
            exact houter
        obtain ⟨q, hq, -, -, i, hi, -⟩ := hfollows.2.2 u hu
        have hbody := (hr.shaped (heh q hq)).next.of_tries_child (List.mem_of_getElem? hi) htries
        exact ⟨f, List.mem_cons_self, rfl, .inr hbody.1⟩
      · rename_i q hlatest
        obtain ⟨hq, htask⟩ := History.latest_eq_some hlatest
        rcases hr.tries_before (heh q hq) hfollows.2.2.body htries with hqtries | hdraws
        · obtain ⟨k, hk⟩ := History.exists_suffix_of_mem hq
          have hshorter : k.length < m := by
            rw [← hlen]
            exact Nat.lt_of_lt_of_le (Nat.lt_succ_self _) hk.length_le
          obtain ⟨d, hd, hdtask, hd'⟩ := ih k.length hshorter
            (hk.trans ((List.suffix_cons f e).trans hf)) hqtries rfl
          exact ⟨d, List.mem_cons_of_mem f (hk.subset hd), hdtask.trans htask, hd'⟩
        · exact ⟨q, List.mem_cons_of_mem f hq, htask, .inl hdraws⟩

/-! ## Deliveries of a wave -/

/-- A task that is a wave has been one since it began. -/
theorem Premises.Run.isWave_of_task (hr : p.Run h o) {n q : Doing} (hn : n ∈ h)
    (hwave : n.body.IsWave) (hq : q ∈ h) (htask : q.task = n.task) : q.body.IsWave := by
  have hcoherent := hr.keeps.coherent
  obtain ⟨s, hs, hstask, hsfirst, -⟩ := hcoherent.exists_first hn
  have hbefore : s.body.IsWave := by
    by_contra hno
    exact hcoherent.kind (F := fun w => ¬ w.IsWave)
      (fun s hs b hb hw => fun hb' => hw (((hr.shaped hs).next.isWave_iff hb).mp hb')) hs hn hsfirst
      hstask.symm hno hwave
  exact hcoherent.kind (F := Work.IsWave)
    (fun s hs b hb hw => ((hr.shaped hs).next.isWave_iff hb).mpr hw) hs hq hsfirst
    (htask.trans hstask.symm) hbefore

/-- The tasks that a wave starts begin with a delivery. -/
theorem Premises.Run.deliver_of_child (hr : p.Run h o) {n f : Doing} (hn : n ∈ h)
    (hwave : n.body.IsWave) (hf : f ∈ h) (haudience : f.audience = .task n.task) :
    ∃ d ∈ h, d.task = f.task ∧ d.first = true ∧ d.audience = f.audience ∧
      ∃ r level, d.body = .deliver r level := by
  have hcoherent := hr.keeps.coherent
  obtain ⟨d, hd, htask, hfirst, hda⟩ := hcoherent.exists_first hf
  obtain ⟨e, he⟩ := History.exists_suffix_of_mem hd
  obtain ⟨q, hq, hqtask, -, hstarts⟩ := hcoherent.origin he hfirst (hda.trans haudience)
  have hqh : q ∈ h := he.subset (List.mem_cons_of_mem d hq)
  have hqwave : q.body.IsWave := hr.isWave_of_task hn hwave hqh hqtask
  obtain ⟨i, hi, -⟩ := hstarts
  exact ⟨d, hd, htask, hfirst, hda,
    (hr.shaped hqh).next.deliver_of_isWave hqwave (List.mem_of_getElem? hi)⟩

/-- **What a delivery of a wave ends with** is the identifier that its task has drawn. -/
theorem Premises.Run.drawn_of_child (hr : p.Run h o) {n f : Doing} (hn : n ∈ h)
    (hwave : n.body.IsWave) (hf : f ∈ h) (haudience : f.audience = .task n.task) {y : Yield}
    (hends : f.Ends ControlRoom.program (.ok y)) :
    ∃ id, y.ids = [id] ∧ ∃ d ∈ h, draws id d = true ∧ d.task = f.task ∧ d.audience = f.audience := by
  have hcoherent := hr.keeps.coherent
  obtain ⟨d, hd, htask, hfirst, hda, r, level, hbody⟩ := hr.deliver_of_child hn hwave hf haudience
  have hdelivery : f.body.IsDelivery := hcoherent.kind (F := Work.IsDelivery)
    (fun s hs b hb hw => (hr.shaped hs).next.isDelivery hw hb) hd hf hfirst htask.symm
    (.inl ⟨r, level, hbody⟩)
  have hend : (f.turn ControlRoom.program).next = .finish (.ok y) := hends
  rcases hdelivery with ⟨r', level', hf'⟩ | ⟨e, he⟩
  · -- the delivery ends with the stint that draws the identifier
    have hturn : f.turn ControlRoom.program
      = ControlRoom.program f.now f.state (.deliver r' level') f.wake := by
      unfold Stint.turn
      rw [hf']
    rcases ControlRoom.program_deliver f.now f.state r' level' f.wake with ⟨st, hst⟩ | ⟨m, hm, hst⟩
    · rw [hturn, hst] at hend
      exact nomatch hend
    · obtain ⟨c, -, -, -, -, htried⟩ := ControlRoom.tried_beginDelivery f.state m r' level'
      rw [← hst, ← hturn] at htried
      exact ⟨_, htried.ids hend, f, hf, draws_iff.mpr ⟨⟨r', level', hf'⟩, ⟨m, hm⟩, rfl⟩, rfl, rfl⟩
  · -- it ends with a later one, and that descends from the first
    refine ⟨e, (ControlRoom.tried_program f.now f.state he f.wake).ids hend, ?_⟩
    obtain ⟨k, hk⟩ := History.exists_suffix_of_mem hf
    obtain ⟨q, hq, hqtask, hq'⟩ := hr.descends hk he
    have hqh : q ∈ h := hk.subset hq
    have hqfirst : q.body.IsFirst → q = d := fun hqb => hcoherent.first_unique hqh hd
      (hr.first hqh hqb).1 hfirst (hqtask.trans htask.symm)
    rcases hq' with hdraws | hattempt
    · obtain ⟨⟨r', level', hq'⟩, -⟩ := draws_iff.mp hdraws
      obtain rfl := hqfirst (by rw [hq']; trivial)
      exact ⟨q, hqh, hdraws, hqtask, hda⟩
    · obtain rfl := hqfirst (by rw [hattempt]; trivial)
      exact nomatch hattempt.symm.trans hbody

/-- **What a wave is told of was drawn by one of its deliveries**, which tells of nothing else. -/
theorem Premises.Run.drawn_of_ends (hr : p.Run h o) {n f : Doing} (hn : n ∈ h)
    (hwave : n.body.IsWave) (hf : f ∈ h) (haudience : f.audience = .task n.task) {y : Yield}
    (hends : f.Ends ControlRoom.program (.ok y)) (hid : id ∈ y.ids) :
    y.ids = [id] ∧ ∃ d ∈ h, draws id d = true ∧ d.task = f.task ∧ d.audience = f.audience := by
  obtain ⟨e, hy, hdrawn⟩ := hr.drawn_of_child hn hwave hf haudience hends
  rw [hy] at hid
  obtain rfl := List.mem_singleton.mp hid
  exact ⟨hy, hdrawn⟩

end Office

end BuildingAlerts
