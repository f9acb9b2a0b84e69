/-
Keys.

A task keeps the key under which it was booked, whatever it goes on with, and a task that was not
booked has none. So what the tasks of a key do follows from what is booked under the key and from
what the program makes of that. In the timetable every booking stands as it was made.
-/
import BuildingAlerts.Proofs.Agenda.Keeping

set_option autoImplicit false

namespace BuildingAlerts.Agenda

variable {σ β ρ : Type} {P : Program σ β ρ} {a b c : Agenda σ β ρ} {t u : TaskId} {key : String}

/-! ## Who has a key -/

/-- Who has a key had it before. -/
def KeysStay (a b : Agenda σ β ρ) : Prop :=
  ∀ u q key, b.process? u = some q → q.key = some key →
    ∃ p, a.process? u = some p ∧ p.key = some key

theorem KeysStay.rfl : KeysStay a a :=
  fun _ q _ hq hkey => ⟨q, hq, hkey⟩

theorem KeysStay.trans (h : KeysStay a b) (k : KeysStay b c) : KeysStay a c := by
  intro u q key hq hkey
  obtain ⟨p, hp, hpkey⟩ := k u q key hq hkey
  exact h u p key hp hpkey

theorem Moves.keysStay (h : Moves a b) : KeysStay a b := by
  intro u q key hq hkey
  obtain ⟨p, hp, hpq⟩ := h.of_some hq
  exact ⟨p, hp, hpq.key.symm.trans hkey⟩

theorem keysStay_adjust {f : Process β ρ → Process β ρ} (hf : ∀ p, (f p).key = p.key) :
    KeysStay a (a.adjust t f) := by
  intro u q key hq hkey
  rw [process?_adjust] at hq
  split at hq
  · obtain ⟨p, hp, rfl⟩ := Option.map_eq_some_iff.mp hq
    exact ⟨p, hp, (hf p).symm.trans hkey⟩
  · exact ⟨q, hq, hkey⟩

theorem keysStay_launchAll (ha : a.Numbered) (bodies : List β) :
    KeysStay a (a.launchAll t bodies) := by
  intro u q key hq hkey
  rw [(launched_launchAll t bodies ha).process] at hq
  split at hq
  · exact ⟨q, hq, hkey⟩
  · obtain ⟨body, -, rfl⟩ := Option.map_eq_some_iff.mp hq
    exact nomatch hkey

theorem keysStay_lay (body : β) (delay limit : Delay) (w : Wake ρ) :
    KeysStay a (a.lay t body delay limit w) := by
  obtain ⟨v, -, hprocess, -⟩ := lay_parks a t body delay limit w
  intro u q key hq hkey
  rw [hprocess] at hq
  exact keysStay_adjust (f := fun p => { p with body := body, waiting := v }) (fun _ => .refl _)
    u q key hq hkey

theorem keysStay_finish (p : Process β ρ) (o : Outcome ρ) : KeysStay a (a.finish t p o) := by
  intro u q key hq hkey
  rw [(process?_timetable_finish a t p o).1] at hq
  split at hq
  · exact nomatch hq
  · exact ⟨q, hq, hkey⟩

/-- A task that stops working starts no task with a key. -/
theorem keysStay_settleTurn (ha : a.Numbered) (p : Process β ρ) (next : Next β ρ) :
    KeysStay a (a.settleTurn t p next) := by
  have hunmark : ∀ (b : Agenda σ β ρ),
      KeysStay b (b.adjust t fun p => { p with stopping := false }) :=
    fun _ => keysStay_adjust fun _ => rfl
  have hstop : ∀ {b : Agenda σ β ρ}, KeysStay a b → KeysStay a (if p.stopping then
      (b.adjust t fun p => { p with stopping := false }).cancel t else b) := by
    intro b hb
    split
    · exact hb.trans ((hunmark b).trans (moves_cancel _ t).keysStay)
    · exact hb
  have hpark : ∀ (b : Agenda σ β ρ) (body : β) (w : Waiting ρ), KeysStay b (b.park t body w) :=
    fun _ _ _ => keysStay_adjust fun _ => rfl
  unfold settleTurn
  cases next with
  | finish o => exact keysStay_finish _ _
  | pause body => exact hpark a body _
  | sleep delay limit body =>
      dsimp only
      split
      · have hlay := keysStay_lay (a := a) (t := t) body delay limit .resumed
        refine (hlay.trans (hunmark _)).trans ?_
        exact keysStay_adjust (a := (a.lay t body delay limit .resumed).adjust t
          fun p => { p with stopping := false }) (t := t)
          (f := fun p => { p with waiting := .queued (.stopped .cancelled) }) fun _ => rfl
      · exact keysStay_lay body delay limit .resumed
  | gather children body => exact hstop ((keysStay_launchAll ha children).trans (hpark _ body _))
  | collect children body => exact hstop ((keysStay_launchAll ha children).trans (hpark _ body _))
  | await body => exact hstop (hpark a body _)

/-- Those who are booked have the next numbers, and the keys of their bookings. -/
theorem key_bookAll (ms : List (Appointment β)) (ha : a.Numbered) {i : Nat} {q : Process β ρ}
    (hq : (a.bookAll ms).process? (a.started + i) = some q) :
    q.key = (ms[i]?).map (·.key) := by
  induction ms generalizing a i with
  | nil => exact absurd (ha hq) (Nat.not_lt.mpr (Nat.le_add_right _ _))
  | cons m ms ih =>
      have hcancel := rebooked_cancelKey a m.key
      have hnumbered : (a.book m).Numbered := (rebooked_book ha m).numbered ha
      have hstarted : (a.book m).started = a.started + 1 :=
        congrArg (· + 1) (started_cancelKey a m.key)
      cases i with
      | zero =>
          have hnew : (a.book m).process? a.started = some (.booked m.key m.delay m.body) := by
            have hkey : Numbered (a.cancelKey m.key).2 := hcancel.numbered ha
            have hstart := Numbered.process?_start (u := a.started) hkey
              (.booked m.key m.delay m.body)
            rw [started_cancelKey, if_pos rfl] at hstart
            exact hstart
          obtain ⟨r, hr, hrq⟩ := (heeds_bookAll ms hnumbered).kept nofun hnew
          obtain rfl := Option.some.inj (hr.symm.trans hq)
          exact hrq.key
      | succ i =>
          have hq : ((a.book m).bookAll ms).process? ((a.book m).started + i) = some q := by
            rw [hstarted, Nat.add_assoc, Nat.add_comm 1 i]
            exact hq
          exact (ih hnumbered hq).trans (by rw [List.getElem?_cons_succ])

/-! ## Steps -/

/-- **Who is new after a stint** has the key of its booking, or none if it was started otherwise. -/
theorem key_of_new (ha : a.Numbered) {place : Nat} {s : Stint σ β ρ}
    (hs : a.stintAt? place = some s) (hb : a.stepAt P place = some b) {i : Nat} {q : Process β ρ}
    (hq : b.process? (a.started + i) = some q) :
    q.key = ((s.turn P).appointments[i]?).map (·.key) := by
  obtain ⟨hi, hstint, -⟩ := stintAt?_eq_some hs
  unfold stepAt at hb
  rw [hi] at hb
  obtain rfl := Option.some.inj hb
  have hstint : (a.taken place).stint? s.task = some s := hstint
  have hq : ((a.taken place).run P s.task).process? (a.started + i) = some q := hq
  cases runsTo P (a.taken place) s.task with
  | idle _ h _ => exact nomatch hstint.symm.trans h
  | dropped _ _ _ _ h _ => exact nomatch hstint.symm.trans h
  | delayed _ _ _ _ h _ => exact nomatch hstint.symm.trans h
  | @works p w v hp hw hv hbegun h hr =>
      obtain ⟨r, -, -, hwork⟩ := work_eq_settleTurn (a := a.taken place) ha hp p.body v (P := P)
      have hturn : s.turn P = P (a.taken place).now (a.taken place).state p.body v := by
        rw [Option.some.inj (hstint.symm.trans h)]
        rfl
      rw [hr, hwork, ← hturn] at hq
      have hnumbered : ((a.taken place).atWork s.task (s.turn P).state).Numbered :=
        Numbered.atWork (a := a.taken place) ha _
      have hbooked : (((a.taken place).atWork s.task (s.turn P).state).bookAll
          (s.turn P).appointments).Numbered :=
        (rebooked_bookAll (s.turn P).appointments hnumbered).numbered hnumbered
      have hne : some s.task ≠ some (a.started + i) := by
        intro h
        have hlt : s.task < a.started := ha hp
        rw [Option.some.inj h] at hlt
        exact absurd hlt (Nat.not_lt.mpr (Nat.le_add_right _ _))
      cases hx : (((a.taken place).atWork s.task (s.turn P).state).bookAll
          (s.turn P).appointments).process? (a.started + i) with
      | some x =>
          obtain ⟨z, hz, hxz⟩ := (heeds_settleTurn hbooked r (s.turn P).next).kept hne hx
          obtain rfl := Option.some.inj (hz.symm.trans hq)
          exact hxz.key.trans (key_bookAll (a := (a.taken place).atWork s.task (s.turn P).state)
            (s.turn P).appointments hnumbered hx)
      | none =>
          have hjob := job?_bookAll (u := a.started + i) (s.turn P).appointments hnumbered
          rw [job?_eq_none.mpr hx] at hjob
          have hge : ¬ a.started + i < a.started := Nat.not_lt.mpr (Nat.le_add_right _ _)
          have hjob : none = ((s.turn P).appointments[a.started + i - a.started]?).map
              fun m => (Audience.nobody, m.body) := hjob.trans (if_neg hge)
          rw [Nat.add_sub_cancel_left] at hjob
          rw [Option.map_eq_none_iff.mp hjob.symm]
          cases hkey : q.key with
          | none => rfl
          | some key =>
              obtain ⟨y, hy, -⟩ := keysStay_settleTurn hbooked r _ _ q key hq hkey
              exact nomatch hx.symm.trans hy

/-- Where a task comes from that is there after a step: it was there and did the same, it had its
turn, or it was booked or started then. -/
inductive KeyComes (P : Program σ β ρ) (a : Agenda σ β ρ) (place : Nat) (u : TaskId)
    (q : Process β ρ) : Prop where
  | stays {p : Process β ρ} (hp : a.process? u = some p) (hkey : q.key = p.key)
      (hbody : q.body = p.body)
  | goesOn {p : Process β ρ} {s : Stint σ β ρ} (hs : a.stintAt? place = some s) (ht : s.task = u)
      (hp : a.process? u = some p) (hkey : q.key = p.key)
      (hbody : (s.turn P).next.body? = some q.body)
  | booked {s : Stint σ β ρ} {m : Appointment β} (hs : a.stintAt? place = some s)
      (hm : m ∈ (s.turn P).appointments) (hkey : q.key = some m.key) (hbody : q.body = m.body)
  | started {s : Stint σ β ρ} (hs : a.stintAt? place = some s) (hkey : q.key = none)
      (hbody : q.body ∈ (s.turn P).next.children)

theorem Tidy.proceeds_stepAt (ha : Tidy a) {place : Nat} (hb : a.stepAt P place = some b) :
    Proceeds a b := by
  rw [stepAt_eq_afterAll ha.numbered hb]
  exact (ha.afterAll (a.eventsAt P place)).2

/-- **Who is there after a step, and under which key.** -/
theorem Tidy.key_of_stepAt (ha : Tidy a) {place : Nat} (hb : a.stepAt P place = some b)
    {q : Process β ρ} (hq : b.process? u = some q) : KeyComes P a place u q := by
  have hjob : b.job? u = some (q.audience, q.body) := job?_eq_some.mpr ⟨q, hq, rfl, rfl⟩
  have hold : u < a.started → ∃ p, a.process? u = some p ∧ q.key = p.key := by
    intro hu
    obtain ⟨p, hp, hpq⟩ := (ha.proceeds_stepAt hb).old hu hq
    exact ⟨p, hp, hpq.key⟩
  have hstays : a.job? u = some (q.audience, q.body) → KeyComes P a place u q := by
    intro h
    obtain ⟨r, hr, -, hbody⟩ := job?_eq_some.mp h
    obtain ⟨p, hp, hkey⟩ := hold (ha.numbered hr)
    obtain rfl := Option.some.inj (hp.symm.trans hr)
    exact .stays hp hkey hbody.symm
  cases hs : a.stintAt? place with
  | none =>
      rcases job?_of_no_stint hs hb u with h | ⟨h, -⟩
      · exact hstays (h.symm.trans hjob)
      · exact nomatch hjob.symm.trans h
  | some s =>
      cases comes_of_stint ha.numbered hs hb hjob with
      | stays hu hj => exact hstays hj
      | goesOn hu haudience hbody =>
          obtain ⟨r, hr, -⟩ := job?_eq_some.mp (job?_of_stintAt hs)
          obtain ⟨p, hp, hkey⟩ := hold (hu ▸ ha.numbered hr)
          exact .goesOn hs hu.symm hp hkey hbody
      | @added i hu hj =>
          rw [hu] at hq
          have hkey := key_of_new ha.numbered hs hb hq
          unfold Stint.jobs at hj
          rw [List.getElem?_append] at hj
          split at hj
          · rw [List.getElem?_map] at hj
            obtain ⟨m, hm, hmq⟩ := Option.map_eq_some_iff.mp hj
            rw [hm] at hkey
            exact .booked hs (List.mem_of_getElem? hm) hkey (Prod.mk.inj hmq).2.symm
          · rename_i hi
            rw [List.length_map] at hi hj
            rw [List.getElem?_eq_none (Nat.le_of_not_lt hi)] at hkey
            rw [List.getElem?_map] at hj
            obtain ⟨c, hc, hcq⟩ := Option.map_eq_some_iff.mp hj
            exact .started hs hkey ((Prod.mk.inj hcq).2 ▸ List.mem_of_getElem? hc)

/-! ## Requests -/

/-- Who is there after some bookings was there before, or was booked. -/
theorem Tidy.key_of_bookAll (ha : Tidy a) {ms : List (Appointment β)} {q : Process β ρ}
    (hq : (a.bookAll ms).process? u = some q) :
    (∃ p, a.process? u = some p ∧ q.key = p.key ∧ q.body = p.body) ∨
      ∃ m ∈ ms, q.key = some m.key ∧ q.body = m.body := by
  rcases Nat.lt_or_ge u a.started with hu | hu
  · obtain ⟨p, hp, hpq⟩ := (heeds_bookAll ms ha.numbered).of_some nofun hu hq
    exact .inl ⟨p, hp, hpq.key, hpq.body⟩
  · obtain ⟨i, rfl⟩ := Nat.exists_eq_add_of_le hu
    have hjob := job?_bookAll (u := a.started + i) ms ha.numbered
    have hqjob : (a.bookAll ms).job? (a.started + i) = some (q.audience, q.body) :=
      job?_eq_some.mpr ⟨q, hq, rfl, rfl⟩
    rw [hqjob, if_neg (Nat.not_lt.mpr hu), Nat.add_sub_cancel_left] at hjob
    obtain ⟨m, hm, hmq⟩ := Option.map_eq_some_iff.mp hjob.symm
    have hkey := key_bookAll ms ha.numbered hq
    rw [hm] at hkey
    exact .inr ⟨m, List.mem_of_getElem? hm, hkey, (Prod.mk.inj hmq).2.symm⟩

/-- Where all tasks keep their jobs they keep their keys. -/
theorem Heeds.key_of (hab : Heeds none a b) (hjob : b.job? u = a.job? u) {q : Process β ρ}
    (hq : b.process? u = some q) : ∃ p, a.process? u = some p ∧ q.key = p.key ∧ q.body = p.body := by
  have hqjob : b.job? u = some (q.audience, q.body) := job?_eq_some.mpr ⟨q, hq, .refl _, .refl _⟩
  obtain ⟨p, hp, -⟩ := job?_eq_some.mp (hjob.symm.trans hqjob)
  obtain ⟨r, hr, hpr⟩ := hab.kept nofun hp
  obtain rfl := Option.some.inj (hr.symm.trans hq)
  exact ⟨p, hp, hpr.key, hpr.body⟩

/-! ## What is booked -/

/-- What is booked after some bookings was booked before, or is one of them. -/
theorem Tidy.get?_bookAll (ms : List (Appointment β)) (ha : Tidy a) {x : Booking}
    (hx : (a.bookAll ms).timetable.bookings.get? key = some x) :
    a.timetable.bookings.get? key = some x ∨ ∃ m ∈ ms, m.key = key ∧ x.alertId = m.alertId := by
  induction ms generalizing a with
  | nil => exact .inl hx
  | cons m ms ih =>
      rcases ih (ha.obey (.book m)).1 hx with h | ⟨y, hy, h⟩
      · rw [ha.get?_obey (.book m) key] at h
        unfold Order.leaves at h
        dsimp only at h
        split at h
        · rename_i hkey
          rw [← Option.some.inj h]
          exact .inr ⟨m, List.mem_cons_self, hkey.symm, rfl⟩
        · exact .inl h
      · exact .inr ⟨y, List.mem_cons_of_mem m hy, h⟩

theorem Tidy.bookAll (ha : Tidy a) (ms : List (Appointment β)) :
    Tidy (a.bookAll ms) ∧ Proceeds a (a.bookAll ms) := by
  rw [← afterAll_book]
  exact ha.afterAll _

/-- Who books under other keys leaves a booking. -/
theorem get?_bookAll_of_ne (ms : List (Appointment β)) (a : Agenda σ β ρ)
    (hkey : ∀ m ∈ ms, m.key ≠ key) :
    (a.bookAll ms).timetable.bookings.get? key = a.timetable.bookings.get? key := by
  induction ms generalizing a with
  | nil => rfl
  | cons m ms ih =>
      refine (ih _ fun y hy => hkey y (List.mem_cons_of_mem m hy)).trans ?_
      rw [get?_bookings_book, if_neg (hkey m List.mem_cons_self).symm]

/-- Whatever is booked has a booking of a new task. -/
theorem get?_bookAll_of_mem (ms : List (Appointment β)) (ha : a.Numbered) {m : Appointment β}
    (hm : m ∈ ms) : ∃ x, (a.bookAll ms).timetable.bookings.get? m.key = some x ∧
      a.started ≤ x.task := by
  induction ms generalizing a m with
  | nil => exact absurd hm List.not_mem_nil
  | cons y ms ih =>
      have hbook := rebooked_book ha y
      by_cases hrest : m ∈ ms
      · obtain ⟨x, hx, hle⟩ := ih (hbook.numbered ha) hrest
        exact ⟨x, hx, Nat.le_trans hbook.started hle⟩
      · obtain rfl := (List.mem_cons.mp hm).resolve_right hrest
        by_cases hagain : ∃ z ∈ ms, z.key = m.key
        · obtain ⟨z, hz, hkey⟩ := hagain
          obtain ⟨x, hx, hle⟩ := ih (hbook.numbered ha) hz
          exact ⟨x, hkey ▸ hx, Nat.le_trans hbook.started hle⟩
        · refine ⟨⟨m.alertId, a.started⟩, ?_, Nat.le_refl _⟩
          refine (get?_bookAll_of_ne ms _ fun z hz hkey => hagain ⟨z, hz, hkey⟩).trans ?_
          rw [get?_bookings_book, if_pos rfl]

/-- A step with a stint: the task has its turn, changes the room, books and stops. -/
theorem stepAt_eq_stop (ha : a.Numbered) {place : Nat} {s : Stint σ β ρ}
    (hs : a.stintAt? place = some s) (hb : a.stepAt P place = some b) :
    b = (((a.after (.turn place)).after (.edit (s.turn P).state)).bookAll
      (s.turn P).appointments).after (.stop s.task (s.turn P).next) := by
  rw [stepAt_eq_afterAll ha hb]
  unfold eventsAt
  rw [hs, ← afterAll_book]
  exact afterAll_append ((a.after (.turn place)).after (.edit (s.turn P).state))
    ((s.turn P).appointments.map fun m => .order (.book m)) [.stop s.task (s.turn P).next]

/-- **What is booked after a step** was booked before, or by the stint. -/
theorem Tidy.get?_stepAt (ha : Tidy a) {place : Nat} (hb : a.stepAt P place = some b) {x : Booking}
    (hx : b.timetable.bookings.get? key = some x) :
    a.timetable.bookings.get? key = some x ∨ ∃ s, a.stintAt? place = some s ∧
      ∃ m ∈ (s.turn P).appointments, m.key = key ∧ x.alertId = m.alertId := by
  have hturn := ha.keeps_after (e := .turn place) rfl
  cases hs : a.stintAt? place with
  | none =>
      rw [stepAt_eq_afterAll ha.numbered hb] at hx
      unfold eventsAt at hx
      rw [hs] at hx
      exact .inl (hturn.old hx)
  | some s =>
      rw [stepAt_eq_stop ha.numbered hs hb] at hx
      have hedit := hturn.tidy.keeps_after (e := .edit (s.turn P).state) rfl
      have hbooked := (hedit.tidy.bookAll (s.turn P).appointments).1
      have hx := (hbooked.keeps_after (e := .stop s.task (s.turn P).next) rfl).old hx
      rcases hedit.tidy.get?_bookAll _ hx with h | ⟨m, hm, h⟩
      · exact .inl (hturn.old (hedit.old h))
      · exact .inr ⟨s, rfl, m, hm, h⟩

/-- **A booking stays** while its task is under way and nobody books under its key. -/
theorem Tidy.kept_stepAt (ha : Tidy a) {place : Nat} (hb : a.stepAt P place = some b) {x : Booking}
    (hx : a.timetable.bookings.get? key = some x) (hthere : b.process? x.task ≠ none)
    (hkey : ∀ s, a.stintAt? place = some s → ∀ m ∈ (s.turn P).appointments, m.key ≠ key) :
    b.timetable.bookings.get? key = some x := by
  obtain ⟨p, hp, -⟩ := ha.booked hx
  have hlt := ha.numbered hp
  have hturn := ha.keeps_after (e := .turn place) rfl
  -- who is gone on the way is gone afterwards
  have hstill : ∀ {c : Agenda σ β ρ}, Proceeds c b → x.task < c.started →
      c.process? x.task ≠ none := by
    intro c hc hlt hgone
    obtain ⟨q, hq⟩ := Option.ne_none_iff_exists'.mp hthere
    obtain ⟨r, hr, -⟩ := hc.old hlt hq
    exact nomatch hgone.symm.trans hr
  cases hs : a.stintAt? place with
  | none =>
      have hb := stepAt_eq_afterAll ha.numbered hb
      unfold eventsAt at hb
      rw [hs] at hb
      have hb : b = a.after (.turn place) := hb
      rcases hturn.kept hx with h | ⟨-, h⟩
      · rw [hb]
        exact h
      · rw [← hb] at h
        exact absurd h hthere
  | some s =>
      have hb := stepAt_eq_stop ha.numbered hs hb
      have hedit := hturn.tidy.keeps_after (e := .edit (s.turn P).state) rfl
      have hbooked := hedit.tidy.bookAll (s.turn P).appointments
      have hstop := hbooked.1.keeps_after (e := .stop s.task (s.turn P).next) rfl
      rw [← hb] at hstop
      have hafter : (a.after (.turn place)).timetable.bookings.get? key = some x :=
        (hturn.kept hx).resolve_right fun h => hstill
          (hedit.proceeds.trans (hbooked.2.trans hstop.proceeds))
          (Nat.lt_of_lt_of_le hlt hturn.proceeds.started) h.2
      refine (hstop.kept ?_).resolve_right fun h => hthere h.2
      rw [get?_bookAll_of_ne _ _ (hkey s hs)]
      exact hafter

/-- **What a stint books is under way** and has its booking. -/
theorem Tidy.booked_stepAt (ha : Tidy a) {place : Nat} (hb : a.stepAt P place = some b)
    {s : Stint σ β ρ} (hs : a.stintAt? place = some s) {m : Appointment β}
    (hm : m ∈ (s.turn P).appointments) : ∃ x q, b.timetable.bookings.get? m.key = some x ∧
      b.process? x.task = some q ∧ q.key = some m.key ∧
      ∃ y ∈ (s.turn P).appointments, y.key = m.key ∧ q.body = y.body := by
  have hturn := ha.keeps_after (e := .turn place) rfl
  have hedit := hturn.tidy.keeps_after (e := .edit (s.turn P).state) rfl
  have hbooked := hedit.tidy.bookAll (s.turn P).appointments
  have hstop := hbooked.1.keeps_after (e := .stop s.task (s.turn P).next) rfl
  obtain ⟨x, hx, hnew⟩ := get?_bookAll_of_mem (s.turn P).appointments hedit.tidy.numbered hm
  rw [← stepAt_eq_stop ha.numbered hs hb] at hstop
  have hnew : a.started ≤ x.task :=
    Nat.le_trans (hturn.proceeds.trans hedit.proceeds).started hnew
  obtain ⟨r, hr, -⟩ := job?_eq_some.mp (job?_of_stintAt hs)
  have hx := (hstop.kept hx).resolve_right fun h =>
    absurd (ha.numbered hr) (Nat.not_lt.mpr ((Option.some.inj h.1) ▸ hnew))
  obtain ⟨q, hq, hkey⟩ := hstop.tidy.booked hx
  refine ⟨x, q, hx, hq, hkey, ?_⟩
  cases ha.key_of_stepAt hb hq with
  | stays hp => exact absurd (ha.numbered hp) (Nat.not_lt.mpr hnew)
  | goesOn _ _ hp => exact absurd (ha.numbered hp) (Nat.not_lt.mpr hnew)
  | @booked s' y hs' hy hkey' hbody =>
      obtain rfl := Option.some.inj (hs.symm.trans hs')
      exact ⟨y, hy, Option.some.inj (hkey'.symm.trans hkey), hbody⟩
  | started _ hnone => exact nomatch hkey.symm.trans hnone

/-- Without a stint all tasks stay that have begun or were not told to stop. -/
theorem job?_of_unmarked {place : Nat} (hs : a.stintAt? place = none)
    (hb : a.stepAt P place = some b) {p : Process β ρ} (hp : a.process? u = some p)
    (hm : p.begun = false → ¬ p.Marked) : b.job? u = a.job? u := by
  refine (job?_of_no_stint hs hb u).resolve_right fun h => ?_
  obtain ⟨-, q, hq, hbegun, hmarked⟩ := h
  obtain rfl := Option.some.inj (hp.symm.trans hq)
  exact hm hbegun hmarked

end BuildingAlerts.Agenda
