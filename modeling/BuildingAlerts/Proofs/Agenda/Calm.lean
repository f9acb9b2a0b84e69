/-
Tasks that nobody tells to stop.

Only what is booked is ever taken out of an agenda, so it is enough to know of what kind the
booked tasks are, and that whatever they start is of that kind too: all other tasks work without
being told to stop. `Calm` is the invariant, for the kind `F` of the tasks that may be told.
-/
import BuildingAlerts.Proofs.Agenda.Beside
import BuildingAlerts.Proofs.Agenda.Only
import BuildingAlerts.Proofs.Table

set_option autoImplicit false

namespace BuildingAlerts.Agenda

variable {σ β ρ : Type} {P : Program σ β ρ} {G F : β → Prop} {a b : Agenda σ β ρ} {t : TaskId}

/-- Among the work of a kind `G`, tasks stay of the kind `F` or not, only such are booked, and such
tasks start only such. -/
structure Divides (P : Program σ β ρ) (G F : β → Prop) : Prop where
  booked : ∀ now s body w, G body → ∀ m ∈ (P now s body w).appointments, F m.body
  keeps : ∀ now s body w, G body → ∀ b, (P now s body w).next.body? = some b → (F b ↔ F body)
  children : ∀ now s body w, G body → F body → ∀ c ∈ (P now s body w).next.children, F c

/-- A number stands for tasks of a kind only. -/
def IsOf (F : β → Prop) (a : Agenda σ β ρ) (t : TaskId) : Prop :=
  t < a.started ∧ ∀ p, a.process? t = some p → F p.body

/-- Tasks of a kind wait for tasks of that kind only. -/
def WaitsFor (F : β → Prop) (a : Agenda σ β ρ) : Prop :=
  ∀ t p cs got, a.process? t = some p → F p.body → p.waiting = .all cs got → ∀ c ∈ cs, a.IsOf F c

/-- Only tasks of the kind `F` were told to stop, or are booked. -/
structure Calm (F : β → Prop) (a : Agenda σ β ρ) : Prop where
  unmarked : ∀ t p, a.process? t = some p → ¬ F p.body → p.stopping = false
  booked : ∀ x ∈ a.timetable.bookings.values, a.IsOf F x.task
  waits : a.WaitsFor F

/-! ## Telling tasks of the kind to stop -/

/-- The tasks that are not of the kind are as they were. -/
def Spares (F : β → Prop) (a b : Agenda σ β ρ) : Prop :=
  ∀ u p, a.process? u = some p → ¬ F p.body → b.process? u = some p

theorem Spares.rfl : Spares F a a :=
  fun _ _ hp _ => hp

theorem Spares.trans {c : Agenda σ β ρ} (h : Spares F a b) (k : Spares F b c) : Spares F a c :=
  fun u p hp hF => k u p (h u p hp hF) hF

theorem IsOf.rebooked (hb : a.Rebooked b) (hs : a.IsOf F t) : b.IsOf F t := by
  refine ⟨Nat.lt_of_lt_of_le hs.1 hb.started, fun q hq => ?_⟩
  rcases hb.process?_eq_some hq with ⟨p, hp, hpq⟩ | ⟨-, hle, -, -⟩
  · rw [hpq.body]
    exact hs.2 p hp
  · exact absurd hs.1 (Nat.not_lt.mpr hle)

theorem WaitsFor.rebooked (hb : a.Rebooked b) (hw : a.WaitsFor F) : b.WaitsFor F := by
  intro u q cs got hq hF hqw c hc
  rcases hb.process?_eq_some hq with ⟨p, hp, hpq⟩ | ⟨-, -, -, houter⟩
  · rcases hpq.waiting with heq | ⟨-, heq⟩
    · exact (hw u p cs got hp (hpq.body ▸ hF) (heq ▸ hqw) c hc).rebooked hb
    · exact nomatch heq.symm.trans hqw
  · exact nomatch houter.waiting.symm.trans hqw

/-- A change of a task of the kind. -/
theorem spares_adjust (ht : a.IsOf F t) (f : Process β ρ → Process β ρ) :
    Spares F a (a.adjust t f) := by
  intro u p hp hF
  have hne : u ≠ t := fun he => hF (ht.2 p (he ▸ hp))
  rw [process?_adjust_of_ne a f hne]
  exact hp

theorem spares_wake (ht : a.IsOf F t) (w : Wake ρ) : Spares F a (a.wake t w) := by
  intro u p hp hF
  have hne : u ≠ t := fun he => hF (ht.2 p (he ▸ hp))
  rw [process?_wake, if_neg hne]
  exact hp

private theorem spares_cancelAll {depth : Nat}
    (h : ∀ {a : Agenda σ β ρ} {t : TaskId}, a.WaitsFor F → a.IsOf F t →
      Spares F a (a.cancelWithin t depth).2)
    (ts : List TaskId) {a : Agenda σ β ρ} (hw : a.WaitsFor F) (hts : ∀ t ∈ ts, a.IsOf F t) :
    Spares F a (a.cancelAll ts depth).2 := by
  induction ts generalizing a with
  | nil =>
      unfold cancelAll
      exact .rfl
  | cons t ts ih =>
      unfold cancelAll
      have hb := rebooked_cancelWithin depth a t
      exact (h hw (hts t List.mem_cons_self)).trans (ih (hw.rebooked hb)
        fun u hu => (hts u (List.mem_cons_of_mem _ hu)).rebooked hb)

/-- Whoever tells a task of the kind to stop tells no other. -/
theorem spares_cancelWithin (depth : Nat) {a : Agenda σ β ρ} {t : TaskId} (hw : a.WaitsFor F)
    (ht : a.IsOf F t) : Spares F a (a.cancelWithin t depth).2 := by
  induction depth generalizing a t with
  | zero =>
      unfold cancelWithin
      exact .rfl
  | succ depth ih =>
      unfold cancelWithin
      split
      · exact .rfl
      · rename_i p hp
        split
        · exact spares_adjust ht _
        · exact spares_adjust ht _
        · exact spares_wake ht _
        · exact spares_wake ht _
        · rename_i children got hpw
          have hall := spares_cancelAll ih children hw (hw t p _ _ hp (ht.2 p hp) hpw)
          dsimp only
          split
          · exact hall
          · exact hall.trans
              (spares_adjust (ht.rebooked (rebooked_cancelAll depth children a)) _)

/-- Telling and booking keep the calm if they spare what is not of the kind. -/
theorem Calm.rebooked (ha : Calm F a) (hb : a.Rebooked b) (hs : Spares F a b)
    (hnew : ∀ u q, b.process? u = some q → a.process? u = none → ¬ F q.body → q.stopping = false)
    (hbooked : ∀ x ∈ b.timetable.bookings.values, b.IsOf F x.task) : Calm F b where
  unmarked := by
    intro u q hq hF
    rcases hb.process?_eq_some hq with ⟨p, hp, hpq⟩ | ⟨hnone, -⟩
    · have hpF : ¬ F p.body := hpq.body ▸ hF
      obtain rfl := Option.some.inj (hq.symm.trans (hs u p hp hpF))
      exact ha.unmarked u q hp hF
    · exact hnew u q hq hnone hF
  booked := hbooked
  waits := ha.waits.rebooked hb

/-- A task of the kind is told to stop. -/
theorem Calm.cancel (ha : Calm F a) (ht : a.IsOf F t) : Calm F (a.cancel t) := by
  have hb := rebooked_cancel a t
  obtain ⟨hstarted, htable⟩ := cancelWithin_keeps (a.started + 1) a t
  refine ha.rebooked hb (spares_cancelWithin _ ha.waits ht) (fun u q hq hnone _ => ?_) fun x hx => ?_
  · obtain ⟨hle, hlt, -⟩ := hb.added hq hnone
    exact absurd hle (Nat.not_le.mpr (hstarted ▸ hlt))
  · rw [show (a.cancel t).timetable = a.timetable from htable] at hx
    exact (ha.booked x hx).rebooked hb

/-! ## Taking out bookings, and booking -/

/-- Bookings are only taken out. -/
theorem mem_bookings_of_mem_forget {tt : Timetable} {key : String} {task : TaskId} {x : Booking}
    (hx : x ∈ (tt.forget key task).bookings.values) : x ∈ tt.bookings.values := by
  unfold Timetable.forget at hx
  split at hx
  · exact hx
  · split at hx
    · exact Table.mem_values_of_mem_erase hx
    · exact hx

theorem Calm.timetable (ha : Calm F a) {tt : Timetable}
    (htt : ∀ x ∈ tt.bookings.values, x ∈ a.timetable.bookings.values) :
    Calm F { a with timetable := tt } :=
  ⟨ha.unmarked, fun x hx => ha.booked x (htt x hx), ha.waits⟩

theorem Calm.cancelKey (ha : Calm F a) (key : String) : Calm F (a.cancelKey key).2 := by
  unfold Agenda.cancelKey
  split
  · exact ha
  · rename_i x hx
    refine (ha.timetable fun y hy => mem_bookings_of_mem_forget hy).cancel ?_
    exact ha.booked x (Table.mem_values_of_get? hx)

theorem Calm.cancelAlert (ha : Calm F a) (alertId : String) :
    Calm F (a.cancelAlert alertId).2 := by
  have hall : ∀ (keys : List String) {b : Agenda σ β ρ}, Calm F b → Calm F (b.cancelKeys keys).2 := by
    intro keys
    induction keys with
    | nil => exact fun hb => hb
    | cons key keys ih => exact fun hb => ih (hb.cancelKey key)
  exact hall _ ha

theorem Calm.cancelBookings (ha : Calm F a) : Calm F a.cancelBookings := by
  have hall : ∀ (ts : List TaskId) {b : Agenda σ β ρ}, Calm F b → (∀ t ∈ ts, b.IsOf F t) →
      Calm F (ts.foldl Agenda.cancel b) := by
    intro ts
    induction ts with
    | nil => exact fun hb _ => hb
    | cons t ts ih =>
        intro b hb hts
        refine ih (hb.cancel (hts t List.mem_cons_self)) fun u hu => ?_
        exact (hts u (List.mem_cons_of_mem _ hu)).rebooked (rebooked_cancel b t)
  refine (hall a.timetable.tasks ha fun t ht => ?_).timetable
    fun x hx => absurd hx List.not_mem_nil
  obtain ⟨x, hx, rfl⟩ := List.mem_map.mp ht
  exact ha.booked x hx

/-- A task is started, of the kind if it is booked. -/
theorem Calm.start (ha : Calm F a) (hn : a.Numbered) {p : Process β ρ} (hp : p.Outer)
    (hstop : p.stopping = false) {tt : Timetable}
    (htt : ∀ x ∈ tt.bookings.values, x ∈ a.timetable.bookings.values ∨
      x.task = a.started ∧ F p.body) :
    Calm F (Agenda.start { a with timetable := tt } p) := by
  have hb : Rebooked a (Agenda.start { a with timetable := tt } p) :=
    (rebooked_timetable a tt).trans (rebooked_start (a := { a with timetable := tt }) hn hp)
  have hprocess : ∀ u, (Agenda.start { a with timetable := tt } p).process? u
      = if u = a.started then some p else a.process? u :=
    Numbered.process?_start (a := { a with timetable := tt }) hn p
  refine ha.rebooked hb (fun u q hq _ => ?_) (fun u q hq hnone _ => ?_) fun x hx => ?_
  · rw [hprocess, if_neg (Nat.ne_of_lt (hn hq))]
    exact hq
  · rw [hprocess] at hq
    split at hq
    · rw [← Option.some.inj hq]
      exact hstop
    · exact nomatch hnone.symm.trans hq
  · rcases htt x hx with hx | ⟨hx, hF⟩
    · exact (ha.booked x hx).rebooked hb
    · refine ⟨Nat.lt_succ_of_le (Nat.le_of_eq hx), fun q hq => ?_⟩
      rw [hprocess, if_pos hx] at hq
      rw [← Option.some.inj hq]
      exact hF

theorem Calm.launch (ha : Calm F a) (hn : a.Numbered) {w : Audience} (hw : ∀ t, w ≠ .task t)
    (body : β) : Calm F (a.launch w body) :=
  ha.start (p := .fresh body w) hn ⟨hw, rfl, rfl⟩ rfl fun _ hx => .inl hx

theorem Calm.book (ha : Calm F a) (hn : a.Numbered) {m : Appointment β} (hm : F m.body) :
    Calm F (a.book m) := by
  refine (ha.cancelKey m.key).start (p := .booked m.key m.delay m.body)
    ((rebooked_cancelKey a m.key).numbered hn) ⟨nofun, rfl, rfl⟩ rfl fun x hx => ?_
  rcases Table.mem_values_insert hx with rfl | hx
  · exact .inr ⟨rfl, hm⟩
  · exact .inl hx

theorem Calm.bookAll (ha : Calm F a) (hn : a.Numbered) {ms : List (Appointment β)}
    (hms : ∀ m ∈ ms, F m.body) : Calm F (a.bookAll ms) := by
  induction ms generalizing a with
  | nil => exact ha
  | cons m ms ih =>
      exact ih (ha.book hn (hms m List.mem_cons_self)) ((rebooked_book hn m).numbered hn)
        fun n hn' => hms n (List.mem_cons_of_mem _ hn')

/-! ## Working -/

/-- Tasks go on, with work of their kind, or are no longer there; none is marked anew, and who
waits for others waits for none that it did not wait for. -/
theorem Calm.goOn (ha : Calm F a) (hstarted : b.started = a.started)
    (htable : ∀ x ∈ b.timetable.bookings.values, x ∈ a.timetable.bookings.values)
    (hprocess : ∀ u q, b.process? u = some q → ∃ p, a.process? u = some p ∧
      (F q.body ↔ F p.body) ∧ (q.stopping = true → p.stopping = true) ∧
      ∀ cs got, q.waiting = .all cs got → (∃ got', p.waiting = .all cs got') ∨
        (F p.body → ∀ c ∈ cs, a.IsOf F c)) : Calm F b := by
  have hof : ∀ {c}, a.IsOf F c → b.IsOf F c := by
    refine fun hc => ⟨hstarted ▸ hc.1, fun q hq => ?_⟩
    obtain ⟨p, hp, hF, -⟩ := hprocess _ q hq
    exact hF.mpr (hc.2 p hp)
  refine ⟨fun u q hq hF => ?_, fun x hx => hof (ha.booked x (htable x hx)), ?_⟩
  · obtain ⟨p, hp, hFp, hstop, -⟩ := hprocess u q hq
    have hno := ha.unmarked u p hp fun h => hF (hFp.mpr h)
    cases hs : q.stopping with
    | false => rfl
    | true => exact nomatch hno.symm.trans (hstop hs)
  · intro u q cs got hq hF hw c hc
    obtain ⟨p, hp, hFp, -, hwait⟩ := hprocess u q hq
    rcases hwait cs got hw with ⟨got', hpw⟩ | hall
    · exact hof (ha.waits u p cs got' hp (hFp.mp hF) hpw c hc)
    · exact hof (hall (hFp.mp hF) c hc)

/-- One task changes in such a way. -/
theorem Calm.adjust (ha : Calm F a) {p : Process β ρ} (hp : a.process? t = some p)
    {f : Process β ρ → Process β ρ} (hF : F (f p).body ↔ F p.body)
    (hstop : (f p).stopping = true → p.stopping = true)
    (hwait : ∀ cs got, (f p).waiting = .all cs got → (∃ got', p.waiting = .all cs got') ∨
      (F p.body → ∀ c ∈ cs, a.IsOf F c)) : Calm F (a.adjust t f) := by
  refine ha.goOn rfl (fun _ hx => hx) fun u q hq => ?_
  rw [process?_adjust] at hq
  split at hq
  · rename_i hu
    rw [hu, hp] at hq
    rw [hu, ← Option.some.inj hq]
    exact ⟨p, hp, hF, hstop, hwait⟩
  · exact ⟨q, hq, .rfl, fun h => h, fun cs got h => .inl ⟨got, h⟩⟩

/-- A mark is taken off. -/
theorem Calm.unmark (ha : Calm F a) (t : TaskId) :
    Calm F (a.adjust t fun p => { p with stopping := false }) := by
  refine ha.goOn rfl (fun _ hx => hx) fun u q hq => ?_
  rw [process?_adjust] at hq
  split at hq
  · obtain ⟨p, hp, rfl⟩ := Option.map_eq_some_iff.mp hq
    exact ⟨p, hp, .rfl, fun h => absurd h Bool.false_ne_true, fun cs got h => .inl ⟨got, h⟩⟩
  · exact ⟨q, hq, .rfl, fun h => h, fun cs got h => .inl ⟨got, h⟩⟩

/-- Items and timers do not matter. -/
theorem Calm.edit (ha : Calm F a) (hprocess : b.process? = a.process?)
    (hstarted : b.started = a.started) (htable : b.timetable = a.timetable) : Calm F b := by
  refine ha.goOn hstarted (fun _ hx => htable ▸ hx) fun u q hq => ?_
  rw [hprocess] at hq
  exact ⟨q, hq, .rfl, fun h => h, fun cs got h => .inl ⟨got, h⟩⟩

theorem Calm.wake (ha : Calm F a) (w : Wake ρ) : Calm F (a.wake t w) := by
  cases hp : a.process? t with
  | none =>
      refine ha.goOn rfl (fun _ hx => hx) fun u q hq => ?_
      rw [process?_wake] at hq
      split at hq
      · rename_i hu
        rw [hu, hp] at hq
        exact nomatch hq
      · exact ⟨q, hq, .rfl, fun h => h, fun cs got h => .inl ⟨got, h⟩⟩
  | some p =>
      have hadjust := ha.adjust hp (f := fun p => { p with waiting := .queued w }) .rfl
        (fun h => h) fun _ _ h => nomatch h
      exact hadjust.edit rfl rfl rfl

theorem Calm.finish (ha : Calm F a) (p : Process β ρ) (o : Outcome ρ) :
    Calm F (a.finish t p o) := by
  have hprocess : ∀ u, (a.finish t p o).process? u = if u = t then none else a.process? u := by
    intro u
    rw [← process?_remove]
    unfold Agenda.finish
    cases p.key <;> cases p.audience <;> rfl
  have htable : (a.finish t p o).timetable
      = p.key.elim a.timetable fun key => a.timetable.forget key t := by
    unfold Agenda.finish
    cases p.key <;> cases p.audience <;> rfl
  refine ha.goOn ?_ (fun x hx => ?_) fun u q hq => ?_
  · unfold Agenda.finish
    cases p.key <;> cases p.audience <;> rfl
  · rw [htable] at hx
    cases hk : p.key with
    | none =>
        rw [hk] at hx
        exact hx
    | some key =>
        rw [hk] at hx
        exact mem_bookings_of_mem_forget hx
  · rw [hprocess] at hq
    split at hq
    · exact nomatch hq
    · exact ⟨q, hq, .rfl, fun h => h, fun cs got h => .inl ⟨got, h⟩⟩

/-- A task waits, with work of its kind. -/
theorem Calm.park (ha : Calm F a) {p : Process β ρ} (hp : a.process? t = some p) {body : β}
    {w : Waiting ρ} (hF : F body ↔ F p.body)
    (hw : ∀ cs got, w = .all cs got → F p.body → ∀ c ∈ cs, a.IsOf F c) :
    Calm F (a.park t body w) :=
  ha.adjust hp hF (fun h => h) fun cs got h => .inr (hw cs got h)

theorem Calm.lay (ha : Calm F a) {p : Process β ρ} (hp : a.process? t = some p) {body : β}
    (hF : F body ↔ F p.body) (delay limit : Delay) (w : Wake ρ) :
    Calm F (a.lay t body delay limit w) := by
  unfold Agenda.lay
  split
  · exact (ha.park hp (w := .queued w) hF fun _ _ h => nomatch h).edit rfl rfl rfl
  · exact (ha.park hp (w := .asleep) hF fun _ _ h => nomatch h).edit rfl rfl rfl

/-- Tasks are started that others wait for. -/
theorem Calm.launchAll (ha : Calm F a) (hn : a.Numbered) (bodies : List β) :
    Calm F (a.launchAll t bodies) := by
  have hl := launched_launchAll t bodies hn
  have hle : a.started ≤ (a.launchAll t bodies).started := by
    rw [hl.started]
    exact Nat.le_add_right _ _
  have hcase : ∀ {u q}, (a.launchAll t bodies).process? u = some q →
      a.process? u = some q ∨ ∃ body, q = .fresh body (.task t) := by
    intro u q hq
    rw [hl.process] at hq
    split at hq
    · exact .inl hq
    · obtain ⟨body, -, rfl⟩ := Option.map_eq_some_iff.mp hq
      exact .inr ⟨body, rfl⟩
  have hof : ∀ {c}, a.IsOf F c → (a.launchAll t bodies).IsOf F c := by
    refine fun hc => ⟨Nat.lt_of_lt_of_le hc.1 hle, fun q hq => ?_⟩
    rw [hl.process, if_pos hc.1] at hq
    exact hc.2 q hq
  have htable : (a.launchAll t bodies).timetable = a.timetable := timetable_launchAll t bodies a
  refine ⟨fun u q hq hF => ?_, fun x hx => hof (ha.booked x (htable ▸ hx)), ?_⟩
  · rcases hcase hq with hq | ⟨body, rfl⟩
    · exact ha.unmarked u q hq hF
    · rfl
  · intro u q cs got hq hF hw c hc
    rcases hcase hq with hq | ⟨body, rfl⟩
    · exact hof (ha.waits u q cs got hq hF hw c hc)
    · exact nomatch hw

/-- What a task does when it stops working keeps the calm. -/
theorem Calm.settleTurn (ha : Calm F a) (hn : a.Numbered) {p : Process β ρ}
    (hp : a.process? t = some p) {next : Next β ρ}
    (hkeeps : ∀ body, next.body? = some body → (F body ↔ F p.body))
    (hchildren : F p.body → ∀ c ∈ next.children, F c) : Calm F (a.settleTurn t p next) := by
  have hlt : t < a.started := hn hp
  have hl := launched_launchAll t next.children hn
  have hlaunch := ha.launchAll (t := t) hn next.children
  have hlp : (a.launchAll t next.children).process? t = some p := by
    rw [hl.process, if_pos hlt]
    exact hp
  have hwait : F p.body → ∀ c ∈ List.range' a.started next.children.length,
      (a.launchAll t next.children).IsOf F c := by
    intro hF c hc
    obtain ⟨hle, hlt'⟩ := List.mem_range'_1.mp hc
    refine ⟨by rw [hl.started]; exact hlt', fun q hq => ?_⟩
    rw [hl.process, if_neg (Nat.not_lt.mpr hle)] at hq
    obtain ⟨body, hbody, rfl⟩ := Option.map_eq_some_iff.mp hq
    exact hchildren hF body (List.mem_of_getElem? hbody)
  -- a task that was told to stop at work is one of the kind
  have hstop : ∀ {b : Agenda σ β ρ} {q : Process β ρ}, Calm F b → b.process? t = some q →
      (F q.body ↔ F p.body) → b.started = (a.launchAll t next.children).started →
      Calm F (if p.stopping then
        (b.adjust t fun p => { p with stopping := false }).cancel t else b) := by
    intro b q hb hq hF hs
    split
    · rename_i hmarked
      have hFp : F p.body := by
        by_contra hF'
        exact nomatch (ha.unmarked t p hp hF').symm.trans hmarked
      refine (hb.unmark t).cancel ?_
      refine ⟨?_, fun r hr => ?_⟩
      · show t < b.started
        rw [hs, hl.started]
        exact Nat.lt_of_lt_of_le hlt (Nat.le_add_right _ _)
      · rw [process?_adjust_self, hq] at hr
        rw [← Option.some.inj hr]
        exact hF.mpr hFp
    · exact hb
  unfold Agenda.settleTurn
  cases next with
  | finish o => exact ha.finish _ _
  | pause body =>
      exact (ha.park hp (w := .queued .resumed) (hkeeps body rfl) fun _ _ h => nomatch h).edit
        rfl rfl rfl
  | sleep delay limit body =>
      have hlay := ha.lay hp (hkeeps body rfl) delay limit .resumed
      dsimp only
      split
      · exact (hlay.unmark t).wake _
      · exact hlay
  | gather children body =>
      have hpark := hlaunch.park hlp (w := .all (List.range' a.started children.length) [])
        (hkeeps body rfl) fun cs got h => by
          obtain ⟨rfl, -⟩ := Waiting.all.inj h
          exact hwait
      exact hstop hpark ((process?_park _ t t _ _).trans ((if_pos rfl).trans (congrArg _ hlp)))
        (hkeeps body rfl) rfl
  | collect children body =>
      have hpark := hlaunch.park hlp (w := .any) (hkeeps body rfl) fun _ _ h => nomatch h
      exact hstop hpark ((process?_park _ t t _ _).trans ((if_pos rfl).trans (congrArg _ hlp)))
        (hkeeps body rfl) rfl
  | await body =>
      have hpark := ha.park hp (w := .any) (hkeeps body rfl) fun _ _ h => nomatch h
      exact hstop hpark ((process?_park _ t t _ _).trans ((if_pos rfl).trans (congrArg _ hp)))
        (hkeeps body rfl) rfl

/-- A task that begins to work is not marked. -/
theorem Calm.atWork (ha : Calm F a) (s : σ) : Calm F (a.atWork t s) := by
  refine ha.goOn rfl (fun _ hx => hx) fun u q hq => ?_
  rw [process?_atWork] at hq
  split at hq
  · obtain ⟨r, hr, rfl⟩ := Option.map_eq_some_iff.mp hq
    exact ⟨r, hr, .rfl, fun h => absurd h Bool.false_ne_true, fun _ _ h => nomatch h⟩
  · exact ⟨q, hq, .rfl, fun h => h, fun cs got h => .inl ⟨got, h⟩⟩

/-- A turn of a task keeps the calm. -/
theorem Calm.run (hP : Divides P G F) (ha : Calm F a) (hG : Only (fun _ => G) a) (hn : a.Numbered)
    (t : TaskId) : Calm F (a.run P t) := by
  cases runsTo P a t with
  | idle hw hs hr =>
      rw [hr]
      exact ha
  | dropped hp hb hw hst hs hr =>
      rw [hr]
      exact ha.finish _ _
  | @delayed p w d hp hb hw hd hs hr =>
      rw [hr]
      have hundelayed : (a.adjust t fun p => { p with delay := none }).process? t
          = some { p with delay := none } := by
        rw [process?_adjust_self, hp]
        rfl
      exact (ha.adjust hp .rfl (fun h => h) fun cs got h => .inl ⟨got, h⟩).lay hundelayed .rfl _ _ _
  | @works p w v hp hw hv hb hs hr =>
      rw [hr]
      obtain ⟨q, hq, hpq, hwork⟩ := work_eq_settleTurn hn hp p.body v (P := P)
      rw [hwork]
      have hbook := rebooked_bookAll (P a.now a.state p.body v).appointments
        (hn.atWork (t := t) (P a.now a.state p.body v).state)
      have hGp := hG t p hp
      refine ((ha.atWork _).bookAll (hn.atWork _) (hP.booked _ _ _ _ hGp)).settleTurn
        (hbook.numbered (hn.atWork _)) hq (fun body hbody => ?_) fun hF => ?_
      · rw [hpq.body]
        exact hP.keeps _ _ _ _ hGp body hbody
      · rw [hpq.body] at hF
        exact hP.children _ _ _ _ hGp hF

/-- A report keeps the calm. -/
theorem Calm.report (ha : Calm F a) (child : TaskId) (o : Outcome ρ) :
    Calm F (a.report t child o) := by
  unfold Agenda.report
  split
  · exact ha
  · rename_i p hp
    split
    · rename_i children got hw
      split
      · split
        · exact ha.wake _
        · dsimp only
          split
          · exact ha.wake _
          · refine ha.adjust hp .rfl (fun h => h) fun cs got' h => .inl ⟨got, ?_⟩
            rw [← (Waiting.all.inj h).1]
            exact hw
      · exact ha
    · exact ha.wake _
    · exact ha.adjust hp .rfl (fun h => h) (by rintro _ _ ⟨⟩)
    · exact ha

theorem Calm.step (hP : Divides P G F) (ha : Calm F a) (hG : Only (fun _ => G) a) (hn : a.Numbered)
    {place : Nat} (hb : a.stepAt P place = some b) : Calm F b := by
  unfold stepAt at hb
  obtain ⟨i, -, rfl⟩ := Option.map_eq_some_iff.mp hb
  have htaken : Calm F (a.taken place) := ha.edit rfl rfl rfl
  cases i with
  | run t => exact htaken.run hP hG hn t
  | report t c o => exact htaken.report c o

theorem Calm.passTo (ha : Calm F a) (time : Instant) : Calm F (a.passTo time) := by
  have hall : ∀ (ms : List (Timer ρ)) {b : Agenda σ β ρ}, Calm F b → Calm F (ms.foldl goOff b) := by
    intro ms
    induction ms with
    | nil => exact fun hb => hb
    | cons m ms ih =>
        intro b hb
        refine ih ?_
        unfold goOff
        split
        · split
          · exact hb.wake _
          · exact hb
        · exact hb
  exact hall _ (ha.edit rfl rfl rfl)

/-- **Nobody is told to stop but tasks of the kind**, in any run that starts so and is served
so. -/
theorem Run.calm {Serve : Agenda σ β ρ → Agenda σ β ρ → Prop} {start : Agenda σ β ρ}
    {h : History σ β ρ} (hclosed : Closed P fun _ => G) (hP : Divides P G F)
    (hstart : Sound P none [] start) (hout : ∀ {a b}, a.Numbered → Serve a b → a.Outside b)
    (honly : Only (fun _ => G) start) (hserveOnly : ∀ {a b}, Only (fun _ => G) a → Serve a b → Only (fun _ => G) b)
    (hcalm : Calm F start) (hserve : ∀ {a b}, a.Numbered → Calm F a → Serve a b → Calm F b)
    (hr : Run P Serve start h a) : Calm F a := by
  induction hr with
  | idle => exact hcalm
  | step hr hb ih =>
      exact ih.step hP (hr.only hclosed hstart hout honly hserveOnly).1
        (hr.sound hstart hout).numbered hb
  | pass _ _ _ ih => exact ih.passTo _
  | serve hr hb ih => exact hserve (hr.sound hstart hout).numbered ih hb

end BuildingAlerts.Agenda
