/-
Booked tasks keep to their bookings.

A booked task that still has its booking is not told to stop before it begins, so it does begin. One
that has lost its booking goes on only to stop. `Faithful` is the invariant that says both; it holds of
every run in which work of the kind `F` that is stopped ends there, which is what `Layered` asks of the
program.
-/
import BuildingAlerts.Proofs.Agenda.Fated

set_option autoImplicit false

namespace BuildingAlerts

variable {σ β ρ : Type}

/-- What may become of a task that nobody tells to stop when it does not have its turn. -/
structure Process.Quiet (p q : Process β ρ) : Prop extends p.Heeds q where
  fresh : q.begun = false → q.Marked → p.Marked
  all : ∀ cs got, q.waiting = .all cs got → ∃ got', p.waiting = .all cs got'

theorem Process.Quiet.rfl {p : Process β ρ} : p.Quiet p :=
  ⟨.rfl, fun _ h => h, fun _ got h => ⟨got, h⟩⟩

theorem Process.Quiet.trans {p q r : Process β ρ} (h : p.Quiet q) (k : q.Quiet r) : p.Quiet r where
  toHeeds := h.toHeeds.trans k.toHeeds
  fresh := fun hr hm => h.fresh (k.begun ▸ hr) (k.fresh hr hm)
  all := by
    intro cs got hw
    obtain ⟨got', hw'⟩ := k.all cs got hw
    exact h.all cs got' hw'

/-- A task that does not stop yet waits for something else, though not for others. -/
theorem Process.quiet_waiting {p : Process β ρ} (hp : ∀ st, p.waiting ≠ .queued (.stopped st))
    {w : Waiting ρ} (hstop : p.begun = false → ∀ st, w ≠ .queued (.stopped st))
    (hall : ∀ cs got, w = .all cs got → ∃ got', p.waiting = .all cs got') :
    p.Quiet { p with waiting := w } where
  toHeeds := Process.heeds_waiting hp w
  fresh := by
    rintro hb (h | ⟨st, h⟩)
    · exact .inl h
    · exact absurd h (hstop hb st)
  all := hall

namespace Agenda

variable {P : Program σ β ρ} {G F L : β → Prop} {h : History σ β ρ} {a b c : Agenda σ β ρ}
  {t : TaskId} {busy : Option TaskId}

/-! ## Changes in which nobody is told to stop -/

/-- The tasks stay, nothing is booked or taken out, and nobody is told to stop. -/
structure Quiet (a b : Agenda σ β ρ) : Prop where
  started : b.started = a.started
  timetable : b.timetable = a.timetable
  kept : ∀ {u p}, a.process? u = some p → ∃ q, b.process? u = some q ∧ p.Quiet q
  gone : ∀ {u}, a.process? u = none → b.process? u = none

theorem Quiet.rfl : Quiet a a :=
  ⟨.refl _, .refl _, fun hp => ⟨_, hp, .rfl⟩, id⟩

theorem Quiet.trans (h : Quiet a b) (k : Quiet b c) : Quiet a c where
  started := k.started.trans h.started
  timetable := k.timetable.trans h.timetable
  kept := by
    intro u p hp
    obtain ⟨q, hq, hpq⟩ := h.kept hp
    obtain ⟨r, hr, hqr⟩ := k.kept hq
    exact ⟨r, hr, hpq.trans hqr⟩
  gone := fun hu => k.gone (h.gone hu)

theorem Quiet.heeds (h : Quiet a b) : Heeds none a b where
  started := Nat.le_of_eq h.started.symm
  kept := by
    intro u p _ hp
    obtain ⟨q, hq, hpq⟩ := h.kept hp
    exact ⟨q, hq, hpq.toHeeds⟩
  gone := fun _ hu => h.gone hu

/-- What is there afterwards was there before. -/
theorem Quiet.of_some (h : Quiet a b) {u : TaskId} {q : Process β ρ} (hq : b.process? u = some q) :
    ∃ p, a.process? u = some p ∧ p.Quiet q := by
  cases hp : a.process? u with
  | none => exact nomatch hq.symm.trans (h.gone hp)
  | some p =>
      obtain ⟨r, hr, hpr⟩ := h.kept hp
      obtain rfl := Option.some.inj (hr.symm.trans hq)
      exact ⟨p, .refl _, hpr⟩

/-- What is ready, the timers, the room, the time and the answer do not matter. -/
theorem quiet_edit (hprocess : b.processes = a.processes) (hstarted : b.started = a.started)
    (htable : b.timetable = a.timetable) : Quiet a b := by
  have hp : b.process? = a.process? := by
    funext u
    unfold process?
    rw [hprocess]
  exact ⟨hstarted, htable, fun h => ⟨_, hp ▸ h, .rfl⟩, fun h => hp ▸ h⟩

theorem quiet_adjust {f : Process β ρ → Process β ρ}
    (hf : ∀ p, a.process? t = some p → p.Quiet (f p)) : Quiet a (a.adjust t f) where
  started := .refl _
  timetable := .refl _
  kept := by
    intro u p hp
    rw [process?_adjust]
    by_cases hu : u = t
    · subst hu
      rw [if_pos (.refl u), hp]
      exact ⟨f p, .refl _, hf p hp⟩
    · rw [if_neg hu]
      exact ⟨p, hp, .rfl⟩
  gone := (process?_adjust_eq_none a).mpr

theorem quiet_wake {p : Process β ρ} (hp : a.process? t = some p)
    (hw : ∀ st, p.waiting ≠ .queued (.stopped st)) {w : Wake ρ}
    (hstop : p.begun = false → ∀ st, w ≠ .stopped st) : Quiet a (a.wake t w) := by
  have hadjust : Quiet a (a.adjust t fun p => { p with waiting := .queued w }) := by
    refine quiet_adjust fun q hq => ?_
    obtain rfl := Option.some.inj (hp.symm.trans hq)
    exact Process.quiet_waiting hw (fun hb st h => hstop hb st (Waiting.queued.inj h))
      fun _ _ h => nomatch h
  exact hadjust.trans (quiet_edit (.refl _) (.refl _) (.refl _))

/-- A task is told how one that it started has ended. -/
theorem quiet_report (ha : Tidy a) (t child : TaskId) (o : Outcome ρ) :
    Quiet a (a.report t child o) := by
  unfold report
  cases hp : a.process? t with
  | none => exact .rfl
  | some p =>
      have hbegun : p.begun = false → p.Waits := ha.waits hp
      have hadjust : ∀ w : Waiting ρ, p.Quiet { p with waiting := w } →
          Quiet a (a.adjust t fun p => { p with waiting := w }) := by
        intro w hw
        refine quiet_adjust fun q hq => ?_
        obtain rfl := Option.some.inj (hp.symm.trans hq)
        exact hw
      dsimp only
      cases hw : p.waiting with
      | all children got =>
          -- a task that waits for others has begun
          have hb : p.begun ≠ false := by
            intro hb
            rcases hbegun hb with h | ⟨w, h⟩
            · exact nomatch hw.symm.trans h
            · exact nomatch hw.symm.trans h
          have hwake : ∀ w, Quiet a (a.wake t w) := fun w =>
            quiet_wake hp (by simp [hw]) fun h => absurd h hb
          dsimp only
          split
          · cases o with
            | error st => exact hwake _
            | ok r =>
                dsimp only
                split
                · exact hwake _
                · refine hadjust _ (Process.quiet_waiting (by simp [hw]) (by simp) fun cs got' h => ?_)
                  exact ⟨got, hw.trans (by rw [(Waiting.all.inj h).1])⟩
          · exact .rfl
      | any => exact quiet_wake hp (by simp [hw]) fun _ _ h => nomatch h
      | queued w =>
          cases w with
          | arrived os =>
              exact hadjust _ (Process.quiet_waiting (by simp [hw]) (by simp) (by simp))
          | _ => exact .rfl
      | _ => exact .rfl

/-- Sleepers wake up while time passes. -/
theorem quiet_passTo (ha : Sound P none h a) (time : Instant) : Quiet a (a.passTo time) := by
  -- no timer is set for a turn to stop
  have hall : ∀ (ms : List (Timer ρ)) (b : Agenda σ β ρ), Quiet a b → (∀ m ∈ ms, m ∈ a.timers) →
      Quiet b (ms.foldl goOff b) := by
    intro ms
    induction ms with
    | nil => exact fun _ _ _ => .rfl
    | cons m ms ih =>
        intro b hb hms
        have hfirst : Quiet b (b.goOff m) := by
          unfold goOff
          cases hq : b.process? m.task with
          | none => exact .rfl
          | some q =>
              dsimp only
              cases hw : q.waiting with
              | asleep =>
                  refine quiet_wake hq (by simp [hw]) fun hbegun st hst => ?_
                  obtain ⟨p, hp, hpq⟩ := hb.of_some hq
                  obtain ⟨-, -, hsleeps⟩ := ha.timed m (hms m List.mem_cons_self)
                  have hrouses := (hsleeps p hp).2
                  rw [← hpq.begun, hbegun] at hrouses
                  exact nomatch hst.symm.trans hrouses
              | _ => exact .rfl
        exact hfirst.trans (ih _ (hb.trans hfirst) fun n hn => hms n (List.mem_cons_of_mem m hn))
  unfold passTo
  rw [List.partition_eq_filter_filter]
  have hlater : ∀ ms, Quiet a { a with now := time, timers := ms } :=
    fun _ => quiet_edit (.refl _) (.refl _) (.refl _)
  refine (hlater _).trans (hall _ _ (hlater _) fun m hm => ?_)
  exact List.mem_of_mem_filter ((List.mergeSort_perm _ _).mem_iff.mp hm)

/-! ## The invariant -/

/-- Booked tasks keep to their bookings, apart from the one whose turn it is. -/
structure Faithful (P : Program σ β ρ) (F L : β → Prop) (busy : Option TaskId)
    (h : History σ β ρ) (a : Agenda σ β ρ) : Prop where
  lean : Leaning P F L h a
  fated : ∀ {t p key}, busy ≠ some t → a.process? t = some p → p.key = some key →
    ¬ a.Registered key t → Fated P F L h a t
  spared : ∀ {t p key}, a.process? t = some p → p.key = some key → p.begun = false →
    a.Registered key t → ¬ p.Marked

theorem faithful_idle (s : σ) : Faithful P F L busy h (idle s) where
  lean := fun _ _ _ _ hp => nomatch hp
  fated := fun _ hp => nomatch hp
  spared := fun hp => nomatch hp

theorem Faithful.quiet (ha : Faithful P F L busy h a) (hab : Quiet a b) :
    Faithful P F L busy h b where
  lean := by
    intro u q cs got hq hw
    obtain ⟨p, hp, hpq⟩ := hab.of_some hq
    obtain ⟨got', hw'⟩ := hpq.all cs got hw
    exact (ha.lean u p cs got' hp hw').heeds hab.heeds hpq.body
  fated := by
    intro u q key hu hq hkey hno
    obtain ⟨p, hp, hpq⟩ := hab.of_some hq
    refine (ha.fated hu hp (hpq.key ▸ hkey) ?_).heeds hab.heeds
    unfold Registered at hno ⊢
    rwa [hab.timetable] at hno
  spared := by
    intro u q key hq hkey hbegun hreg hm
    obtain ⟨p, hp, hpq⟩ := hab.of_some hq
    refine ha.spared hp (hpq.key ▸ hkey) (hpq.begun ▸ hbegun) ?_ (hpq.fresh hbegun hm)
    unfold Registered at hreg ⊢
    rwa [hab.timetable] at hreg

/-! ## Taking out bookings -/

/-- A task has one booking at most. -/
theorem Tidy.key_eq (ha : Tidy a) {key : String} {p : Process β ρ} (hr : a.Registered key t)
    (hp : a.process? t = some p) : p.key = some key := by
  obtain ⟨x, hx, rfl⟩ := hr
  obtain ⟨q, hq, hkey⟩ := ha.booked hx
  obtain rfl := Option.some.inj (hp.symm.trans hq)
  exact hkey

theorem Faithful.cancelKey (ha : Faithful P F L busy h a) (ht : Tidy a) (hc : Calm F a)
    (key : String) : Faithful P F L busy h (a.cancelKey key).2 := by
  have hrebooked := rebooked_cancelKey a key
  have hheeds := heeds_cancelKey a key
  have hget := get?_cancelKey a key
  have hlean := ha.lean.rebooked hrebooked hheeds
  have hnumbered : ∀ {u q}, (a.cancelKey key).2.process? u = some q → u < a.started := by
    intro u q hq
    rw [← started_cancelKey a key]
    exact (ht.cancelKey key).numbered hq
  cases hx : a.timetable.bookings.get? key with
  | none =>
      have hsame : (a.cancelKey key).2 = a := by
        unfold Agenda.cancelKey
        rw [hx]
      rw [hsame]
      exact ha
  | some x =>
      obtain ⟨p, hp, hpkey⟩ := ht.booked hx
      have hF : F p.body := (hc.booked x (Table.mem_values_of_get? hx)).2 p hp
      obtain ⟨d, hd, hcancel⟩ : ∃ d : Agenda σ β ρ, (d.processes = a.processes ∧
          d.started = a.started) ∧ (a.cancelKey key).2 = d.cancel x.task := by
        refine ⟨{ a with timetable := a.timetable.forget key x.task }, ⟨rfl, rfl⟩, ?_⟩
        unfold Agenda.cancelKey
        rw [hx]
      have hleand := ha.lean.edit hd.1 hd.2
      have hdp : d.process? = a.process? := by
        funext u
        unfold process?
        rw [hd.1]
      refine ⟨hlean, ?_, ?_⟩
      · intro u q k hu hq hk hno
        by_cases hux : u = x.task
        · -- its booking has just been taken out
          subst hux
          rw [hcancel]
          refine fated_cancel hleand ?_ (hdp ▸ hp) hF
          intro v r hr
          rw [hd.2]
          exact ht.numbered (hdp ▸ hr)
        · obtain ⟨r, hr, hrq⟩ := hheeds.of_some nofun (hnumbered hq) hq
          refine (ha.fated hu hr (hrq.key ▸ hk) ?_).heeds hheeds
          rintro ⟨y, hy, rfl⟩
          refine hno ⟨y, ?_, rfl⟩
          rw [hget, if_neg]
          · exact hy
          · rintro rfl
            exact hux (congrArg Booking.task (Option.some.inj (hy.symm.trans hx)))
      · intro u q k hq hk hbegun hreg hm
        obtain ⟨y, hy, rfl⟩ := hreg
        rw [hget] at hy
        split at hy
        · exact nomatch hy
        · rename_i hne
          have hyx : y.task ≠ x.task := by
            intro heq
            have hr := ht.key_eq ⟨y, hy, heq⟩ hp
            exact hne (Option.some.inj (hr.symm.trans hpkey))
          have hsame : d.process? y.task = some q := by
            rw [hcancel] at hq
            exact process?_cancelWithin _ hleand hyx hq (by rw [hk]; nofun)
          exact ha.spared (hdp ▸ hsame) hk hbegun ⟨y, hy, rfl⟩ hm

theorem Faithful.cancelAlert (ha : Faithful P F L busy h a) (ht : Tidy a) (hc : Calm F a)
    (alertId : String) : Faithful P F L busy h (a.cancelAlert alertId).2 := by
  have hall : ∀ (keys : List String) {b : Agenda σ β ρ}, Faithful P F L busy h b → Tidy b →
      Calm F b → Faithful P F L busy h (b.cancelKeys keys).2 := by
    intro keys
    induction keys with
    | nil => exact fun hb _ _ => hb
    | cons key keys ih =>
        exact fun hb ht hc => ih (hb.cancelKey ht hc key) (ht.cancelKey key) (hc.cancelKey key)
  exact hall _ ha ht hc

/-- Everybody who is booked is told to stop. -/
theorem Faithful.cancelBookings (ha : Faithful P F L busy h a) (ht : Tidy a) (hc : Calm F a) :
    Faithful P F L busy h a.cancelBookings := by
  have hall : ∀ (ts : List TaskId) {b : Agenda σ β ρ}, Leaning P F L h b → b.Numbered →
      (∀ t ∈ ts, b.IsOf F t) → Leaning P F L h (ts.foldl cancel b) ∧
        ∀ t ∈ ts, ∀ q, (ts.foldl cancel b).process? t = some q →
          Fated P F L h (ts.foldl cancel b) t := by
    intro ts
    induction ts with
    | nil => exact fun hb _ _ => ⟨hb, fun t ht => absurd ht List.not_mem_nil⟩
    | cons t ts ih =>
        intro b hb hn hts
        have hheeds := heeds_cancel b t
        have hrebooked := rebooked_cancel b t
        obtain ⟨hlean, hfated⟩ := ih (hb.rebooked hrebooked hheeds) (hrebooked.numbered hn)
          fun u hu => (hts u (List.mem_cons_of_mem t hu)).rebooked hrebooked
        refine ⟨hlean, fun u hu q hq => ?_⟩
        rcases List.mem_cons.mp hu with rfl | hu
        · obtain ⟨hlt, hF⟩ := hts u List.mem_cons_self
          have hrest : Heeds none b (ts.foldl cancel (b.cancel u)) :=
            hheeds.trans (heeds_foldl_cancel ts _)
          obtain ⟨p, hp, -⟩ := hrest.of_some nofun hlt hq
          exact (fated_cancel hb hn hp (hF p hp)).heeds (heeds_foldl_cancel ts _)
        · exact hfated u hu q hq
  have hheeds : Heeds none a a.cancelBookings :=
    (heeds_foldl_cancel a.timetable.tasks a).trans (heeds_edit rfl rfl)
  obtain ⟨hlean, hfated⟩ := hall a.timetable.tasks ha.lean ht.numbered fun t htask => by
    obtain ⟨x, hx, rfl⟩ := List.mem_map.mp htask
    exact hc.booked x hx
  refine ⟨hlean.edit rfl rfl, fun {u q key} hu hq hkey _ => ?_, fun _ _ _ hreg => ?_⟩
  · by_cases hr : a.Registered key u
    · obtain ⟨x, hx, rfl⟩ := hr
      exact (hfated x.task (List.mem_map_of_mem (Table.mem_values_of_get? hx)) q hq).heeds
        (heeds_edit rfl rfl)
    · have hlt : u < a.started := by
        have hn := ht.cancelBookings.numbered hq
        have hstarted : a.cancelBookings.started = a.started := by
          obtain ⟨hmoves, -⟩ := doomed_foldl_cancel a.timetable.tasks a
          exact hmoves.started
        exact hstarted ▸ hn
      obtain ⟨p, hp, hpq⟩ := hheeds.of_some nofun hlt hq
      exact (ha.fated hu hp (hpq.key ▸ hkey) hr).heeds hheeds
  · obtain ⟨x, hx, -⟩ := hreg
    exact nomatch hx

/-! ## Booking -/

/-- A task is started that has its booking, if it is to have one. -/
theorem Faithful.start (ha : Faithful P F L busy h a) (hn : a.Numbered) {p : Process β ρ}
    (hw : p.waiting = .queued .start) (hs : p.stopping = false) {tt : Timetable}
    (hold : ∀ key x, x.task < a.started →
      (tt.bookings.get? key = some x ↔ a.timetable.bookings.get? key = some x))
    (hnew : ∀ key, p.key = some key → ∃ x, tt.bookings.get? key = some x ∧ x.task = a.started) :
    Faithful P F L busy h (Agenda.start { a with timetable := tt } p) := by
  have hprocess : ∀ u, (Agenda.start { a with timetable := tt } p).process? u
      = if u = a.started then some p else a.process? u :=
    Numbered.process?_start (a := { a with timetable := tt }) hn p
  have hheeds : Heeds none a (Agenda.start { a with timetable := tt } p) := by
    have htable : Heeds none a { a with timetable := tt } := heeds_edit rfl rfl
    exact htable.trans (heeds_start (a := { a with timetable := tt }) hn p)
  refine ⟨?_, ?_, ?_⟩
  · intro u q cs got hq hwait
    rw [hprocess] at hq
    split at hq
    · rw [← Option.some.inj hq, hw] at hwait
      exact nomatch hwait
    · exact (ha.lean u q cs got hq hwait).heeds hheeds rfl
  · intro u q key hu hq hkey hno
    rw [hprocess] at hq
    split at hq
    · rename_i heq
      obtain rfl := Option.some.inj hq
      obtain ⟨x, hx, hxu⟩ := hnew key hkey
      exact absurd ⟨x, hx, hxu.trans heq.symm⟩ hno
    · refine (ha.fated hu hq hkey ?_).heeds hheeds
      rintro ⟨x, hx, rfl⟩
      exact hno ⟨x, (hold key x (hn hq)).mpr hx, rfl⟩
  · intro u q key hq hkey hbegun hreg
    rw [hprocess] at hq
    split at hq
    · rw [← Option.some.inj hq]
      rintro (h | ⟨st, h⟩)
      · exact nomatch hs.symm.trans h
      · exact nomatch hw.symm.trans h
    · obtain ⟨x, hx, rfl⟩ := hreg
      exact ha.spared hq hkey hbegun ⟨x, (hold key x (hn hq)).mp hx, rfl⟩

theorem Faithful.launch (ha : Faithful P F L busy h a) (hn : a.Numbered) (w : Audience)
    (body : β) : Faithful P F L busy h (a.launch w body) :=
  ha.start (p := .fresh body w) hn rfl rfl (fun _ _ _ => .rfl) nofun

theorem Faithful.book (ha : Faithful P F L busy h a) (ht : Tidy a) (hc : Calm F a)
    (m : Appointment β) : Faithful P F L busy h (a.book m) := by
  have hkey := ha.cancelKey ht hc m.key
  have hgone : (a.cancelKey m.key).2.timetable.bookings.get? m.key = none := by
    rw [get?_cancelKey, if_pos rfl]
  refine hkey.start (p := .booked m.key m.delay m.body) (ht.cancelKey m.key).numbered rfl rfl
    (fun key x hx => ?_) fun key hm => ?_
  · rw [Timetable.get?_book]
    split
    · rename_i heq
      rw [heq, hgone]
      refine ⟨fun hy => ?_, nofun⟩
      rw [← Option.some.inj hy] at hx
      exact absurd hx (Nat.lt_irrefl _)
    · exact .rfl
  · obtain rfl := Option.some.inj hm
    exact ⟨_, by rw [Timetable.get?_book, if_pos rfl], rfl⟩

theorem Faithful.bookAll (ha : Faithful P F L busy h a) (ht : Tidy a) (hc : Calm F a)
    {ms : List (Appointment β)} (hms : ∀ m ∈ ms, F m.body) :
    Faithful P F L busy h (a.bookAll ms) := by
  induction ms generalizing a with
  | nil => exact ha
  | cons m ms ih =>
      exact ih (ha.book ht hc m) (ht.book m) (hc.book ht.numbered (hms m List.mem_cons_self))
        fun n hn => hms n (List.mem_cons_of_mem m hn)

end Agenda

end BuildingAlerts
