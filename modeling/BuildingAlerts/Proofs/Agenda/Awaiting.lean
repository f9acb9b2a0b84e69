/-
Whoever waits for others hears of them.

A task that waits for all of some others has heard of each of them, or it is still under way, or
its report is among the ready items; and at least one of them it has not heard of. So no task
waits in vain. When it goes on because of a failure, that failure is the end of a stint of one of
the tasks that it started, unless that one was of the kind `F` of the tasks that may be told to
stop.
-/
import BuildingAlerts.Proofs.Agenda.Reporting

set_option autoImplicit false

namespace BuildingAlerts

variable {σ β ρ : Type} {P : Program σ β ρ} {G F : β → Prop}

/-- A task that `t` started ended in some way with a stint of its own, or it was of a kind. -/
def History.Owns (P : Program σ β ρ) (F : β → Prop) (h : History σ β ρ) (t c : TaskId)
    (o : Outcome ρ) : Prop :=
  (∃ f ∈ h, f.task = c ∧ f.audience = .task t ∧ f.Ends P o) ∨
    ∃ s ∈ h, s.task = t ∧ ∃ body, s.Starts P c body ∧ F body

theorem History.Owns.mono {h k : History σ β ρ} (hk : ∀ s ∈ h, s ∈ k) {t c : TaskId} {o : Outcome ρ}
    (ho : h.Owns P F t c o) : k.Owns P F t c o := by
  rcases ho with ⟨f, hf, ho⟩ | ⟨s, hs, ho⟩
  · exact .inl ⟨f, hk f hf, ho⟩
  · exact .inr ⟨s, hk s hs, ho⟩

namespace Agenda

variable {h : History σ β ρ} {a b c : Agenda σ β ρ} {t : TaskId}

/-! ## The invariant -/

/-- A task that `t` waits for is under way, or its end is still to be told. -/
def Outstanding (a : Agenda σ β ρ) (t c : TaskId) : Prop :=
  (∃ q, a.process? c = some q ∧ q.audience = .task t) ∨ ∃ o, .report t c o ∈ a.ready

/-- How a task waits for all that it started, with `s` for its latest stint. -/
inductive Attends (P : Program σ β ρ) (F : β → Prop) (h : History σ β ρ) (a : Agenda σ β ρ)
    (s : Stint σ β ρ) (p : Process β ρ) : Prop where
  | waiting {got : List (TaskId × ρ)} (hw : p.waiting = .all (s.childIds P) got)
      (hc : ∀ c ∈ s.childIds P, c ∈ got.map (·.1) ∨ a.Outstanding s.task c)
      (hl : s.childIds P ≠ [] → ∃ c ∈ s.childIds P, c ∉ got.map (·.1))
  | gathered {rs : List ρ} (hw : p.waiting = .queued (.gathered rs))
  | stopped {st : Stop} (hw : p.waiting = .queued (.stopped st))
      (hf : ∃ c ∈ s.childIds P, h.Owns P F s.task c (.error st))

/-- All tasks wait so, and what is to be told is true. -/
structure Attentive (P : Program σ β ρ) (F : β → Prop) (h : History σ β ρ) (a : Agenda σ β ρ) :
    Prop where
  waits : ∀ t p s, a.process? t = some p → h.latest t = some s →
    (∃ cs body, (s.turn P).next = .gather cs body) → Attends P F h a s p
  honest : ∀ t c o, .report t c o ∈ a.ready → h.Owns P F t c o

/-- What others do matters to no task that waits, as long as those that it waits for are under way
or ready to be told of. -/
theorem Attends.frame {k : History σ β ρ} {s : Stint σ β ρ} {p q : Process β ρ}
    (hp : Attends P F h a s p) (hk : ∀ d ∈ h, d ∈ k)
    (hb : ∀ c, a.Outstanding s.task c → b.Outstanding s.task c) (hq : p.Told q) :
    Attends P F k b s q := by
  cases hp with
  | waiting hw hc hl =>
      rcases hq.waiting with heq | ⟨hw' | hw', -⟩
      · exact .waiting (heq.trans hw) (fun c hmem => (hc c hmem).imp_right (hb c)) hl
      · exact nomatch hw.symm.trans hw'
      · exact nomatch hw.symm.trans hw'
  | gathered hw =>
      rcases hq.waiting with heq | ⟨hw' | hw', -⟩
      · exact .gathered (heq.trans hw)
      · exact nomatch hw.symm.trans hw'
      · exact nomatch hw.symm.trans hw'
  | stopped hw hf =>
      rcases hq.waiting with heq | ⟨hw' | hw', -⟩
      · exact .stopped (heq.trans hw) (hf.imp fun c hc => ⟨hc.1, hc.2.mono hk⟩)
      · exact nomatch hw.symm.trans hw'
      · exact nomatch hw.symm.trans hw'

theorem Outstanding.rebooked {u : TaskId} (ho : a.Outstanding t u) (hb : a.Rebooked b) :
    b.Outstanding t u := by
  rcases ho with ⟨r, hr, hra⟩ | ⟨o, ho⟩
  · obtain ⟨r', hr', hrr⟩ := hb.kept hr
    exact .inl ⟨r', hr', hrr.audience.trans hra⟩
  · exact .inr ⟨o, hb.mem_ready ho⟩

/-- Telling, booking and asking from outside. -/
theorem Attentive.rebooked (ha : Sound P none h a) (hat : Attentive P F h a) (hb : a.Rebooked b) :
    Attentive P F h b where
  waits := by
    intro u q s hq hs hgather
    rcases hb.process?_eq_some hq with ⟨p, hp, hpq⟩ | ⟨-, hle, -, -⟩
    · exact (hat.waits u p s hp hs hgather).frame (fun _ hd => hd) (fun _ hc => hc.rebooked hb) hpq
    · obtain ⟨hmem, rfl⟩ := History.latest_eq_some hs
      exact absurd (ha.past s hmem) (Nat.not_lt.mpr hle)
  honest := by
    intro u c o hr
    obtain ⟨ts, hts⟩ := hb.ready
    rw [hts] at hr
    rcases List.mem_append.mp hr with hr | hr
    · exact hat.honest u c o hr
    · obtain ⟨v, -, hv⟩ := List.mem_map.mp hr
      exact nomatch hv

/-! ## The kind of what a task started -/

theorem Rests.body {s : Stint σ β ρ} {p : Process β ρ} (hp : Rests P h a s p) :
    (s.turn P).next.body? = some p.body := by
  cases hp with
  | queued hw hl => exact hl.body
  | asleep hw hs => rw [hs]; rfl
  | collecting hw hs => rw [hs]; rfl
  | awaiting hw hs => rw [hs]; rfl
  | gathering hw hs hn hg => rw [hs]; rfl

/-- A task that another one started does work of the kind for which it was started. The induction
is on the history. -/
theorem kind_of_stint (hP : Divides P G F) (hh : h.Coherent P) (hG : ∀ s ∈ h, G s.body)
    {f : Stint σ β ρ} (hf : f ∈ h) {u : TaskId} (hu : f.audience = .task u) :
    ∃ s ∈ h, s.task = u ∧ ∃ body, s.Starts P f.task body ∧ (F body ↔ F f.body) := by
  induction h generalizing f with
  | nil => exact absurd hf List.not_mem_nil
  | cons d h ih =>
      have hrest := fun {f} => ih (hh.of_suffix (List.suffix_cons d h))
        (fun s hs => hG s (List.mem_cons_of_mem d hs)) (f := f)
      have hwiden : ∀ {c : TaskId} {F' : β → Prop}, (∃ s ∈ h, s.task = u ∧ ∃ body,
          s.Starts P c body ∧ F' body) → ∃ s ∈ d :: h, s.task = u ∧ ∃ body,
            s.Starts P c body ∧ F' body :=
        fun ⟨s, hs, hrest⟩ => ⟨s, List.mem_cons_of_mem d hs, hrest⟩
      rcases List.mem_cons.mp hf with rfl | hf
      · have hfollows := hh _ _ (List.suffix_refl _)
        unfold History.Follows at hfollows
        split at hfollows
        · obtain ⟨s, hs, hsu, -, hstarts⟩ := hfollows.2.2 u hu
          exact hwiden ⟨s, hs, hsu, f.body, hstarts, .rfl⟩
        · rename_i q hq
          obtain ⟨-, haudience, hleads⟩ := hfollows
          obtain ⟨hmem, htask⟩ := History.latest_eq_some hq
          have hkeeps := hP.keeps q.now q.state q.body q.wake
            (hG q (List.mem_cons_of_mem f hmem)) f.body hleads.body
          obtain ⟨s, hs, hsu, body, hstarts, hF⟩ := hrest hmem (haudience.symm.trans hu)
          exact hwiden ⟨s, hs, hsu, body, htask ▸ hstarts, hF.trans hkeeps.symm⟩
      · exact hwiden (hrest hf hu)

theorem Sound.kind (hP : Divides P G F) (ha : Sound P none h a) (hG : ∀ s ∈ h, G s.body)
    {p : Process β ρ} (hp : a.process? t = some p) {u : TaskId} (hu : p.audience = .task u) :
    ∃ s ∈ h, s.task = u ∧ ∃ body, s.Starts P t body ∧ (F body ↔ F p.body) := by
  have hstands := ha.stands t nofun p hp
  unfold Stands at hstands
  split at hstands
  · obtain ⟨s, hs, hsu, -, hstarts⟩ := hstands.started u hu
    exact ⟨s, hs, hsu, p.body, hstarts, .rfl⟩
  · rename_i f hf
    obtain ⟨-, haudience, hrests⟩ := hstands
    obtain ⟨hmem, htask⟩ := History.latest_eq_some hf
    obtain ⟨s, hs, hsu, body, hstarts, hF⟩ :=
      kind_of_stint hP ha.coherent hG hmem (haudience.symm.trans hu)
    exact ⟨s, hs, hsu, body, htask ▸ hstarts,
      hF.trans (hP.keeps f.now f.state f.body f.wake (hG f hmem) p.body hrests.body).symm⟩

/-! ## What keeps the tasks attentive -/

/-- What a turn of a task leaves of the ready items. -/
theorem Reports.mem_ready (hr : Reports P F a t b) {i : Item ρ} (hi : i ∈ a.ready) :
    i ∈ b.ready := by
  cases hr with
  | none hb hp =>
      obtain ⟨ts, hts⟩ := hb
      rw [hts]
      exact List.mem_append_left _ hi
  | ends hp hb hr hi' ho => exact hi' i hi

/-- A turn of another task leaves a task under way, or its end is to be told. -/
theorem Outstanding.run {u v : TaskId} (ho : a.Outstanding u v) {place : Nat}
    (hi : a.ready[place]? = some (.run t))
    (hreports : Reports P F (a.taken place) t ((a.taken place).run P t))
    (hothers : ∀ {w p}, w ≠ t → a.process? w = some p →
      ∃ q, ((a.taken place).run P t).process? w = some q ∧ p.Told q) :
    ((a.taken place).run P t).Outstanding u v := by
  rcases ho with ⟨q, hq, hqu⟩ | ⟨o, ho⟩
  · by_cases hv : v = t
    · subst hv
      cases hreports with
      | none _ hp =>
          obtain ⟨r, hr, haudience⟩ := hp q hq
          exact .inl ⟨r, hr, haudience.trans hqu⟩
      | @ends p o hp hready _ _ _ =>
          obtain rfl := Option.some.inj (hp.symm.trans hq)
          exact .inr ⟨o, hready u hqu⟩
    · obtain ⟨r, hr, htold⟩ := hothers hv hq
      exact .inl ⟨r, hr, htold.audience.trans hqu⟩
  · exact .inr ⟨o, hreports.mem_ready (mem_eraseIdx_of_ne hi ho nofun)⟩

/-- What a turn of a task reports, where only tasks of the kind are told to stop. -/
theorem Sound.reports_run (hP : Divides P G F) (ha : Sound P none h a) (hcalm : Calm F a)
    (hG : Only (fun _ => G) a) (place : Nat) (t : TaskId) :
    Reports P F (a.taken place) t ((a.taken place).run P t) := by
  have hn : (a.taken place).Numbered := ha.numbered
  refine Agenda.reports_run hP hn (hcalm.edit rfl rfl rfl) hG fun p hp hbegun u hu => ?_
  exact (((ha.stands t nofun p hp).fresh hbegun).2.child u hu).2

/-- A task that works waits for all that it has started, and has heard of none. -/
theorem attends_work (ha : a.Numbered) {p : Process β ρ} (hp : a.process? t = some p)
    {s : Stint σ β ρ} (ht : s.task = t) (hfirst : s.firstChild P
      = ((a.atWork t (s.turn P).state).bookAll (s.turn P).appointments).started)
    (hturn : P a.now a.state s.body s.wake = s.turn P)
    (hgather : ∃ cs body, (s.turn P).next = .gather cs body) {q : Process β ρ}
    (hq : (a.work P t s.body s.wake).process? t = some q) :
    Attends P F h (a.work P t s.body s.wake) s q := by
  obtain ⟨cs, body, hnext⟩ := hgather
  obtain ⟨r, hr, -, hwork⟩ := work_eq_settleTurn ha hp s.body s.wake (P := P)
  rw [hturn] at hr hwork
  have hbook := rebooked_bookAll (s.turn P).appointments (ha.atWork (t := t) (s.turn P).state)
  have hnumbered : ((a.atWork t (s.turn P).state).bookAll (s.turn P).appointments).Numbered :=
    hbook.numbered (ha.atWork _)
  have hgoes : ∀ o, (s.turn P).next ≠ .finish o := fun o ho => nomatch hnext.symm.trans ho
  obtain ⟨q', hq', -, hwait⟩ := process?_settleTurn hnumbered hr hgoes
  have hids : s.childIds P = List.range'
      ((a.atWork t (s.turn P).state).bookAll (s.turn P).appointments).started cs.length := by
    unfold Stint.childIds
    rw [hfirst, hnext]
    rfl
  rw [hwork] at hq ⊢
  obtain rfl := Option.some.inj (hq'.symm.trans hq)
  have hwaits : q'.waiting = .all (s.childIds P) [] := by
    rw [hids]
    exact hwait cs body hnext
  refine .waiting hwaits (fun c hc => .inr (.inl ?_)) fun hne => ?_
  · obtain ⟨b, i, hi, rfl⟩ := History.mem_childIds.mp hc
    obtain ⟨x, hx, htold⟩ := children_settleTurn hnumbered hr hi
    rw [hfirst, ht]
    exact ⟨x, hx, htold.audience⟩
  · obtain ⟨c, hc⟩ := List.exists_mem_of_ne_nil _ hne
    exact ⟨c, hc, List.not_mem_nil⟩

/-- A turn of a task keeps all tasks attentive. -/
theorem Attentive.run (hP : Divides P G F) (ha : Sound P none h a) (hcalm : Calm F a)
    (hG : Only (fun _ => G) a) (hGh : ∀ s ∈ h, G s.body) (hat : Attentive P F h a) {place : Nat}
    (hi : a.ready[place]? = some (.run t)) :
    Attentive P F ((a.stint? t).toList ++ h) ((a.taken place).run P t) := by
  have hb := ha.run hi
  have hn : (a.taken place).Numbered := ha.numbered
  have hreports := ha.reports_run hP hcalm hG place t
  have hbeside := beside_run P (a := a.taken place) hn t
  have hwider : ∀ d ∈ h, d ∈ (a.stint? t).toList ++ h := fun d hd => List.mem_append_right _ hd
  have hout : ∀ u x, a.Outstanding u x → ((a.taken place).run P t).Outstanding u x :=
    fun _ _ ho => ho.run hi hreports hbeside.others
  refine ⟨fun u q s hq hs hgather => ?_, fun u x o ho => ?_⟩
  · by_cases hu : u = t
    · subst hu
      cases runsTo P (a.taken place) u with
      | idle hw hstint hr =>
          have hstint' : a.stint? u = none := hstint
          rw [hr] at hq hout ⊢
          rw [hstint'] at hs ⊢
          exact (hat.waits u q s hq hs hgather).frame (fun _ hd => hd) (hout s.task) .rfl
      | @dropped p w st hp hbegun _ _ hstint _ =>
          have hstint' : a.stint? u = none := hstint
          rw [hstint'] at hs
          exact nomatch ((ha.stands u nofun p hp).fresh hbegun).1.symm.trans hs
      | @delayed p w d hp hbegun _ _ hstint _ =>
          have hstint' : a.stint? u = none := hstint
          rw [hstint'] at hs
          exact nomatch ((ha.stands u nofun p hp).fresh hbegun).1.symm.trans hs
      | @works p w v hp hw hv hbegun hstint hr =>
          have hstint' : a.stint? u = _ := hstint
          rw [hstint'] at hs ⊢
          obtain rfl := Option.some.inj ((History.latest_cons_self (h := h) rfl).symm.trans hs)
          rw [hr] at hq ⊢
          refine attends_work hn hp rfl ?_ rfl hgather hq
          unfold Stint.firstChild
          rw [started_bookAll]
          rfl
    · have hlatest : History.latest ((a.stint? t).toList ++ h) u = h.latest u := by
        cases hstint : a.stint? t with
        | none => rfl
        | some d =>
            obtain ⟨p, -, hof⟩ := stint?_eq_some hstint
            exact History.latest_cons_of_ne fun he => hu (he.symm.trans hof.task)
      rw [hlatest] at hs
      -- the task was under way before, or it would have ended
      cases hp : a.process? u with
      | none =>
          obtain ⟨o, ho⟩ := (ha.living u nofun s hs).mp hp
          exact nomatch hq.symm.trans ((hb.living u nofun s (hlatest ▸ hs)).mpr ⟨o, ho⟩)
      | some p =>
          obtain ⟨r, hr, htold⟩ := hbeside.others hu hp
          obtain rfl := Option.some.inj (hr.symm.trans hq)
          exact (hat.waits u p s hp hs hgather).frame hwider (hout s.task) htold
  · have hold : .report u x o ∈ a.ready → History.Owns P F ((a.stint? t).toList ++ h) u x o :=
      fun h' => (hat.honest u x o h').mono hwider
    cases hreports with
    | none hadds _ =>
        obtain ⟨ts, hts⟩ := hadds
        rw [hts] at ho
        rcases List.mem_append.mp ho with ho | ho
        · exact hold (List.mem_of_mem_eraseIdx ho)
        · obtain ⟨v, -, hv⟩ := List.mem_map.mp ho
          exact nomatch hv
    | @ends p o' hp _ hcase _ howns =>
        rcases hcase _ ho with ho | ⟨v, hv⟩ | ⟨v, hv, heq⟩
        · exact hold (List.mem_of_mem_eraseIdx ho)
        · exact nomatch hv
        · obtain ⟨rfl, rfl, rfl⟩ := Item.report.inj heq
          rcases howns u hv with hF | ⟨s, hs, hends⟩
          · obtain ⟨s, hs, hsu, body, hstarts, hbody⟩ := ha.kind hP hGh hp hv
            exact .inr ⟨s, hwider s hs, hsu, body, hstarts, hbody.mpr hF⟩
          · obtain ⟨r, hr, hof⟩ := stint?_eq_some hs
            obtain rfl := Option.some.inj (hp.symm.trans hr)
            exact .inl ⟨s, List.mem_append_left _ (Option.mem_toList.mpr hs), hof.task,
              hof.audience.trans hv, hends⟩

/-- A task that is told of another one gets its turn at most, and stays what it is. -/
theorem adds_report (a : Agenda σ β ρ) (t c : TaskId) (o : Outcome ρ) :
    a.Adds (a.report t c o) := by
  unfold Agenda.report
  split
  · exact .rfl
  · split
    · split
      · split
        · exact adds_wake a t _
        · dsimp only
          split
          · exact adds_wake a t _
          · exact .rfl
      · exact .rfl
    · exact adds_wake a t _
    · exact .rfl
    · exact .rfl

theorem process?_report (t c : TaskId) (o : Outcome ρ) {u : TaskId} {q : Process β ρ}
    (hq : a.process? u = some q) :
    ∃ r, (a.report t c o).process? u = some r ∧ r.audience = q.audience := by
  by_cases hu : u = t
  · subst hu
    have hadjust : ∀ f : Process β ρ → Process β ρ, (∀ p, (f p).audience = p.audience) →
        ∃ r, (a.adjust u f).process? u = some r ∧ r.audience = q.audience := by
      intro f hf
      refine ⟨f q, ?_, hf q⟩
      rw [process?_adjust_self, hq]
      rfl
    have hwake : ∀ w, ∃ r, (a.wake u w).process? u = some r ∧ r.audience = q.audience :=
      fun w => hadjust (fun p => { p with waiting := .queued w }) fun _ => rfl
    unfold Agenda.report
    split
    · exact ⟨q, hq, rfl⟩
    · split
      · split
        · split
          · exact hwake _
          · dsimp only
            split
            · exact hwake _
            · exact hadjust _ fun _ => rfl
        · exact ⟨q, hq, rfl⟩
      · exact hwake _
      · exact hadjust _ fun _ => rfl
      · exact ⟨q, hq, rfl⟩
  · obtain ⟨r, hr, htold⟩ := (beside_report (t := t) (a := a) c o).others hu hq
    exact ⟨r, hr, htold.audience⟩

/-- Of two lists of tasks without repetitions, one within the other, the longer has a task more. -/
theorem exists_not_heard {ids got : List TaskId} (hids : ids.Nodup) (hgot : got.Nodup)
    (hsub : ∀ c ∈ got, c ∈ ids) (hne : got.length ≠ ids.length) : ∃ c ∈ ids, c ∉ got := by
  by_contra hall
  have hback : ∀ c ∈ ids, c ∈ got := fun c hc => by
    by_contra hno
    exact hall ⟨c, hc, hno⟩
  have hle := (List.subperm_of_subset hgot hsub).length_le
  have hge := (List.subperm_of_subset hids hback).length_le
  exact hne (Nat.le_antisymm hle hge)

/-- A task that waits for others hears of one of them: it goes on, or it waits for the rest. -/
theorem attends_report {p q : Process β ρ} {s : Stint σ β ρ} (hp : b.process? t = some p)
    (hs : h.latest t = some s) (hattends : Attends P F h a s p) {c : TaskId} {o : Outcome ρ}
    (hended : h.Owns P F t c o) (hout : ∀ x, x ≠ c → a.Outstanding t x →
      (b.report t c o).Outstanding t x) (hb : Sound P none h (b.report t c o))
    (hq : (b.report t c o).process? t = some q) : Attends P F h (b.report t c o) s q := by
  obtain ⟨-, rfl⟩ := History.latest_eq_some hs
  have hsame : b.report s.task c o = b → q = p := by
    intro hr
    rw [hr, hp] at hq
    exact (Option.some.inj hq).symm
  have hwoken : ∀ {w}, b.report s.task c o = b.wake s.task w → q.waiting = .queued w := by
    intro w hr
    rw [hr, process?_wake, if_pos rfl, hp] at hq
    rw [← Option.some.inj hq]
  cases hattends with
  | gathered hw => exact .gathered ((hsame (by simp only [Agenda.report, hp, hw])) ▸ hw)
  | stopped hw hf => exact .stopped ((hsame (by simp only [Agenda.report, hp, hw])) ▸ hw) hf
  | @waiting got hw hc hl =>
      by_cases hmine : c ∈ s.childIds P
      · have hcontains := List.contains_iff_mem.mpr hmine
        cases o with
        | error st =>
            refine .stopped (hwoken ?_) ⟨c, hmine, hended⟩
            simp only [Agenda.report, hp, hw, hcontains, if_true]
        | ok r =>
            by_cases hlen : (got ++ [(c, r)]).length = (s.childIds P).length
            · refine .gathered (hwoken (w := .gathered (inOrder (s.childIds P) (got ++ [(c, r)]))) ?_)
              simp only [Agenda.report, hp, hw, hcontains, if_true, hlen]
            · have hwaits : q.waiting = .all (s.childIds P) (got ++ [(c, r)]) := by
                simp only [Agenda.report, hp, hw, hcontains, if_true, if_neg hlen] at hq
                rw [process?_adjust_self, hp] at hq
                rw [← Option.some.inj hq]
              refine .waiting hwaits (fun x hx => ?_) fun _ => ?_
              · rw [List.map_append]
                by_cases hxc : x = c
                · rw [hxc]
                  exact .inl (List.mem_append_right _ (List.mem_singleton_self _))
                · exact (hc x hx).imp (List.mem_append_left _) (hout x hxc)
              · -- the tasks heard of are some of those that were started, each once
                have hstands := hb.stands s.task nofun q hq
                unfold Stands at hstands
                rw [hs] at hstands
                cases hstands.2.2 with
                | gathering hw' hnext hn hg =>
                    obtain ⟨-, rfl⟩ := Waiting.all.inj (hwaits.symm.trans hw')
                    refine exists_not_heard List.nodup_range' hn (fun x hx => ?_) ?_
                    · obtain ⟨g, hgm, rfl⟩ := List.mem_map.mp hx
                      exact (hg g hgm).1
                    · rw [List.length_map]
                      exact hlen
                | queued hw' _ => exact nomatch hwaits.symm.trans hw'
                | asleep hw' _ => exact nomatch hwaits.symm.trans hw'
                | collecting hw' _ => exact nomatch hwaits.symm.trans hw'
                | awaiting hw' _ => exact nomatch hwaits.symm.trans hw'
      · have hcontains : ¬ (s.childIds P).contains c = true :=
          fun h' => hmine (List.contains_iff_mem.mp h')
        obtain rfl := hsame (by simp only [Agenda.report, hp, hw, if_neg hcontains])
        refine .waiting hw (fun x hx => (hc x hx).imp_right (hout x ?_)) hl
        exact fun hxc => hmine (hxc ▸ hx)

/-- Only a report that is taken is no longer there. -/
theorem Outstanding.report {u v : TaskId} (ho : a.Outstanding u v) {place : Nat} {c : TaskId}
    {o : Outcome ρ} (hi : a.ready[place]? = some (.report t c o)) (hne : u = t → v ≠ c) :
    ((a.taken place).report t c o).Outstanding u v := by
  rcases ho with ⟨q, hq, hqu⟩ | ⟨o', ho'⟩
  · obtain ⟨r, hr, hra⟩ := process?_report (a := a.taken place) t c o hq
    exact .inl ⟨r, hr, hra.trans hqu⟩
  · obtain ⟨ts, hts⟩ := adds_report (a.taken place) t c o
    refine .inr ⟨o', ?_⟩
    rw [hts]
    refine List.mem_append_left _ (mem_eraseIdx_of_ne hi ho' fun heq => ?_)
    obtain ⟨hu, hv, -⟩ := Item.report.inj heq
    exact hne hu hv

/-- A report keeps all tasks attentive. -/
theorem Attentive.report (ha : Sound P none h a) (hat : Attentive P F h a) {place : Nat}
    {c : TaskId} {o : Outcome ρ} (hi : a.ready[place]? = some (.report t c o)) :
    Attentive P F h ((a.taken place).report t c o) := by
  have hb := ha.report hi
  have hended := hat.honest t c o (List.mem_of_getElem? hi)
  obtain ⟨ts, hts⟩ := adds_report (a.taken place) t c o
  have hout : ∀ u x, (u = t → x ≠ c) → a.Outstanding u x →
      ((a.taken place).report t c o).Outstanding u x := fun _ _ hne ho => ho.report hi hne
  refine ⟨fun u q s hq hs hgather => ?_, fun u x o' ho' => ?_⟩
  · obtain ⟨-, htask⟩ := History.latest_eq_some hs
    cases hp : a.process? u with
    | none =>
        obtain ⟨e, he⟩ := (ha.living u nofun s hs).mp hp
        exact nomatch hq.symm.trans ((hb.living u nofun s hs).mpr ⟨e, he⟩)
    | some p =>
        have hattends := hat.waits u p s hp hs hgather
        by_cases hu : u = t
        · subst hu
          exact attends_report (b := a.taken place) hp hs hattends hended
            (fun x hx => hout u x fun _ => hx) hb hq
        · obtain ⟨r, hr, htold⟩ := (beside_report (t := t) (a := a.taken place) c o).others hu hp
          obtain rfl := Option.some.inj (hr.symm.trans hq)
          exact hattends.frame (fun _ hd => hd)
            (fun x => hout s.task x fun he => absurd (htask.symm.trans he) hu) htold
  · rw [hts] at ho'
    rcases List.mem_append.mp ho' with ho' | ho'
    · exact hat.honest u x o' (List.mem_of_mem_eraseIdx ho')
    · obtain ⟨v, -, hv⟩ := List.mem_map.mp ho'
      exact nomatch hv

/-- Sleepers wake up while time passes, and nothing else happens to any task. -/
theorem process?_passTo (a : Agenda σ β ρ) (time : Instant) :
    a.Adds (a.passTo time) ∧ ∀ u p, a.process? u = some p →
      ∃ q, (a.passTo time).process? u = some q ∧ q.audience = p.audience ∧
        (p.waiting ≠ .asleep → q = p) := by
  have hall : ∀ (ms : List (Timer ρ)) (b : Agenda σ β ρ), b.Adds (ms.foldl goOff b) ∧
      ∀ u p, b.process? u = some p → ∃ q, (ms.foldl goOff b).process? u = some q ∧
        q.audience = p.audience ∧ (p.waiting ≠ .asleep → q = p) := by
    intro ms
    induction ms with
    | nil => exact fun b => ⟨.rfl, fun u p hp => ⟨p, hp, rfl, fun _ => rfl⟩⟩
    | cons m ms ih =>
        intro b
        rw [List.foldl_cons]
        unfold goOff
        split
        · rename_i r hr
          split
          · rename_i hw
            obtain ⟨hadds, hrest⟩ := ih (b.wake m.task m.wake)
            refine ⟨(adds_wake b m.task m.wake).trans hadds, fun u p hp => ?_⟩
            by_cases hu : u = m.task
            · subst hu
              obtain rfl := Option.some.inj (hr.symm.trans hp)
              obtain ⟨q, hq, haudience, -⟩ := hrest m.task { r with waiting := .queued m.wake } (by
                rw [process?_wake, if_pos rfl, hr]
                rfl)
              exact ⟨q, hq, haudience, fun hne => absurd hw hne⟩
            · refine hrest u p ?_
              rw [process?_wake, if_neg hu]
              exact hp
          · exact ih b
        · exact ih b
  exact hall _ _

theorem Outstanding.passTo {u v : TaskId} (ho : a.Outstanding u v) (time : Instant) :
    (a.passTo time).Outstanding u v := by
  obtain ⟨⟨ts, hts⟩, hprocess⟩ := process?_passTo a time
  rcases ho with ⟨y, hy, hyu⟩ | ⟨o, ho⟩
  · obtain ⟨z, hz, haudience, -⟩ := hprocess v y hy
    exact .inl ⟨z, hz, haudience.trans hyu⟩
  · refine .inr ⟨o, ?_⟩
    rw [hts]
    exact List.mem_append_left _ ho

/-- Time that passes keeps all tasks attentive. -/
theorem Attentive.passTo (ha : Sound P none h a) (hat : Attentive P F h a) (hready : a.ready = [])
    (time : Instant) : Attentive P F h (a.passTo time) := by
  have hb := ha.passTo hready time
  obtain ⟨⟨ts, hts⟩, hprocess⟩ := process?_passTo a time
  refine ⟨fun u q s hq hs hgather => ?_, fun u x o ho => ?_⟩
  · cases hp : a.process? u with
    | none =>
        obtain ⟨e, he⟩ := (ha.living u nofun s hs).mp hp
        exact nomatch hq.symm.trans ((hb.living u nofun s hs).mpr ⟨e, he⟩)
    | some p =>
        obtain ⟨r, hr, -, hkeep⟩ := hprocess u p hp
        obtain rfl := Option.some.inj (hr.symm.trans hq)
        have hattends := hat.waits u p s hp hs hgather
        have hawake : p.waiting ≠ .asleep := by
          cases hattends with
          | waiting hw _ _ => rw [hw]; nofun
          | gathered hw => rw [hw]; nofun
          | stopped hw _ => rw [hw]; nofun
        rw [hkeep hawake]
        exact hattends.frame (fun _ hd => hd) (fun x hx => hx.passTo time) .rfl
  · rw [hts, hready] at ho
    obtain ⟨v, -, hv⟩ := List.mem_map.mp ho
    exact nomatch hv

/-- **Whoever waits for others hears of them**, in any run that starts so and is served so. -/
theorem Run.attentive {Serve : Agenda σ β ρ → Agenda σ β ρ → Prop} {start : Agenda σ β ρ}
    (hclosed : Closed P fun _ => G) (hP : Divides P G F) (hstart : Sound P none [] start)
    (hout : ∀ {a b}, a.Numbered → Serve a b → a.Outside b) (honly : Only (fun _ => G) start)
    (hserveOnly : ∀ {a b}, Only (fun _ => G) a → Serve a b → Only (fun _ => G) b)
    (hcalm : Calm F start) (hserve : ∀ {a b}, a.Numbered → Calm F a → Serve a b → Calm F b)
    (hr : Run P Serve start h a) (hnone : start.ready = []) : Attentive P F h a := by
  induction hr with
  | idle =>
      refine ⟨fun _ _ _ _ hs => (nomatch hs), fun _ _ _ ho => ?_⟩
      rw [hnone] at ho
      exact absurd ho List.not_mem_nil
  | @step h a b place hr hb ih =>
      have ha := hr.sound hstart hout
      obtain ⟨hG, hGh⟩ := hr.only hclosed hstart hout honly hserveOnly
      have hc := hr.calm hclosed hP hstart hout honly hserveOnly hcalm hserve
      unfold stepAt at hb
      obtain ⟨i, hi, rfl⟩ := Option.map_eq_some_iff.mp hb
      unfold stintAt?
      rw [hi]
      cases i with
      | run t => exact ih.run hP ha hc hG hGh hi
      | report t c o => exact ih.report ha hi
  | pass hr hready _ ih => exact ih.passTo (hr.sound hstart hout) hready _
  | @serve h a b hr hb ih =>
      have ha := hr.sound hstart hout
      obtain ⟨s, hs⟩ := hout ha.numbered hb
      have hedit : Attentive P F h { a with state := s } := by
        refine ⟨fun t p d hp hd hgather => ?_, ih.honest⟩
        exact (ih.waits t p d hp hd hgather).frame (fun _ hd => hd) (fun _ hx => hx) .rfl
      exact hedit.rebooked (ha.edit (b := { a with state := s }) rfl rfl rfl rfl rfl) hs

/-- **Whoever waited for others is stopped by one of them**, if it is of a kind that nobody tells to
stop. -/
theorem Run.stopped_by {Serve : Agenda σ β ρ → Agenda σ β ρ → Prop} {start : Agenda σ β ρ}
    (hcalm : ∀ {h a}, Run P Serve start h a → Calm F a)
    (hat : ∀ {h a}, Run P Serve start h a → Attentive P F h a) (hr : Run P Serve start h a)
    {d s : Stint σ β ρ} {e : History σ β ρ} (hd : d :: e <:+ h) (hs : e.latest d.task = some s)
    (hgather : ∃ cs body, (s.turn P).next = .gather cs body) (hF : ¬ F d.body) {st : Stop}
    (hwake : d.wake = .stopped st) : ∃ c ∈ s.childIds P, h.Owns P F s.task c (.error st) := by
  induction hr with
  | idle => exact absurd (List.suffix_nil.mp hd) (List.cons_ne_nil _ _)
  | @step h a b place hr hb ih =>
      cases hstint : a.stintAt? place with
      | none =>
          rw [hstint] at hd
          exact ih hd
      | some x =>
          rw [hstint] at hd
          have hwider : ∀ y ∈ h, y ∈ x :: h := fun y hy => List.mem_cons_of_mem x hy
          rcases List.suffix_cons_iff.mp hd with heq | hd
          · obtain ⟨rfl, rfl⟩ := List.cons.inj heq
            obtain ⟨-, hx, -⟩ := stintAt?_eq_some hstint
            -- the task goes on for the reason that it waited for, since nobody has told it to stop
            cases runsTo P a d.task with
            | idle _ h' _ => exact nomatch hx.symm.trans h'
            | dropped _ _ _ _ h' _ => exact nomatch hx.symm.trans h'
            | delayed _ _ _ _ h' _ => exact nomatch hx.symm.trans h'
            | @works p w v hp hw hv hbegun h' hrun =>
                have hof := Option.some.inj (hx.symm.trans h')
                have hbody : d.body = p.body := congrArg Stint.body hof
                have hv' : d.wake = v := congrArg Stint.wake hof
                have hmark := (hcalm hr).unmarked d.task p hp (hbody ▸ hF)
                rw [hmark, if_neg Bool.false_ne_true] at hv
                rw [hv', hv] at hwake
                cases (hat hr).waits d.task p s hp hs hgather with
                | waiting hw' _ _ => exact nomatch hw.symm.trans hw'
                | gathered hw' => exact nomatch hwake.symm.trans (Waiting.queued.inj (hw.symm.trans hw'))
                | stopped hw' hf =>
                    obtain rfl := Wake.stopped.inj
                      (hwake.symm.trans (Waiting.queued.inj (hw.symm.trans hw')))
                    exact hf.imp fun c hc => ⟨hc.1, hc.2.mono hwider⟩
          · exact (ih hd).imp fun c hc => ⟨hc.1, hc.2.mono hwider⟩
  | pass _ _ _ ih => exact ih hd
  | serve _ _ ih => exact ih hd

/-- When nothing is ready, no task waits for its turn. -/
theorem Sound.not_queued (ha : Sound P none h a) (hready : a.ready = []) {p : Process β ρ}
    (hp : a.process? t = some p) (w : Wake ρ) : p.waiting ≠ .queued w := by
  intro hw
  have hmem := ha.turn t nofun p w hp hw
  rw [hready] at hmem
  exact absurd hmem List.not_mem_nil

/-- When nothing is ready, whoever waits for others waits for one that is under way. -/
theorem Attentive.exists_waited (ha : Sound P none h a) (hat : Attentive P F h a)
    (hready : a.ready = []) {p : Process β ρ} {s : Stint σ β ρ} (hp : a.process? t = some p)
    (hs : h.latest t = some s) {cs : List β} {body : β} (hnext : (s.turn P).next = .gather cs body)
    (hne : s.childIds P ≠ []) :
    ∃ c ∈ s.childIds P, ∃ q, a.process? c = some q ∧ q.audience = .task t := by
  obtain ⟨-, rfl⟩ := History.latest_eq_some hs
  cases hat.waits s.task p s hp hs ⟨cs, body, hnext⟩ with
  | waiting hw hc hl =>
      obtain ⟨c, hmem, hno⟩ := hl hne
      rcases (hc c hmem).resolve_left hno with hq | ⟨o, ho⟩
      · exact ⟨c, hmem, hq⟩
      · rw [hready] at ho
        exact absurd ho List.not_mem_nil
  | gathered hw => exact absurd hw (ha.not_queued hready hp _)
  | stopped hw _ => exact absurd hw (ha.not_queued hready hp _)

/-- When nothing is ready, whoever waited for a task that failed has been stopped. -/
theorem Attentive.exists_stopped (ha : Sound P none h a) (hat : Attentive P F h a)
    (hready : a.ready = []) {s f : Stint σ β ρ} (hs : s ∈ h) {cs : List β} {body : β}
    (hnext : (s.turn P).next = .gather cs body) (hf : f ∈ h) (hc : f.task ∈ s.childIds P)
    {st : Stop} (hends : f.Ends P (.error st)) :
    ∃ d e, d :: e <:+ h ∧ d.task = s.task ∧ d.body = body ∧ ∃ st', d.wake = .stopped st' := by
  -- no history has a result of the task that failed
  have hno : ∀ {k : History σ β ρ} {r : ρ}, (∀ d ∈ k, d ∈ h) →
      ¬ k.Ended P s.task f.task (.ok r) := by
    intro k r hk he
    obtain ⟨g, hg, hgt, -, hgends⟩ := he.of_ok
    obtain rfl := ha.coherent.ends_unique hf (hk g hg) hends hgends hgt.symm
    exact nomatch Next.finish.inj (hends.symm.trans hgends)
  rcases History.latest_or_next hs with hlatest | ⟨d, e, hd, htask, hlatest⟩
  · cases hp : a.process? s.task with
    | none =>
        obtain ⟨o, ho⟩ := (ha.living s.task nofun s hlatest).mp hp
        exact nomatch hnext.symm.trans ho
    | some p =>
        cases hat.waits s.task p s hp hlatest ⟨cs, body, hnext⟩ with
        | waiting hw hall hl =>
            rcases hall f.task hc with hgot | ⟨q, hq, -⟩ | ⟨o, ho⟩
            · obtain ⟨g, hg, heq⟩ := List.mem_map.mp hgot
              have hstands := ha.stands s.task nofun p hp
              unfold Stands at hstands
              rw [hlatest] at hstands
              cases hstands.2.2 with
              | gathering hw' hs' hn hg' =>
                  obtain ⟨-, rfl⟩ := Waiting.all.inj (hw.symm.trans hw')
                  exact absurd (heq ▸ (hg' g hg).2.2) (hno fun _ hd => hd)
              | queued hw' _ => exact nomatch hw.symm.trans hw'
              | asleep hw' _ => exact nomatch hw.symm.trans hw'
              | collecting hw' _ => exact nomatch hw.symm.trans hw'
              | awaiting hw' _ => exact nomatch hw.symm.trans hw'
            · have hlatest' := ha.coherent.latest_of_ends hf hends
              exact nomatch hq.symm.trans ((ha.living f.task nofun f hlatest').mpr ⟨_, hends⟩)
            · rw [hready] at ho
              exact absurd ho List.not_mem_nil
        | gathered hw => exact absurd hw (ha.not_queued hready hp _)
        | stopped hw _ => exact absurd hw (ha.not_queued hready hp _)
  · obtain ⟨-, -, hleads⟩ := ha.coherent.next hd htask hlatest
    obtain ⟨hbody, ⟨rs, hrs, hresults⟩ | ⟨st', hst⟩⟩ := hleads.of_gather hnext
    · obtain ⟨r, -, he⟩ := History.exists_result_of_child hresults hc
      exact absurd he (hno fun x hx => hd.subset (List.mem_cons_of_mem d hx))
    · exact ⟨d, e, hd, htask, hbody, st', hst⟩

end Agenda

end BuildingAlerts
