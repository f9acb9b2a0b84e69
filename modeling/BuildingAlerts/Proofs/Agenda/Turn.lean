/-
A task has its turn.

The turn is taken off the ready items, the task works, and then it waits for something, starts
other tasks or ends. Each of these keeps the agenda to its history, which has one stint more
when the task has worked.
-/
import BuildingAlerts.Proofs.Agenda.Soundness

set_option autoImplicit false

namespace BuildingAlerts.Agenda

variable {σ β ρ : Type} {P : Program σ β ρ} {h : History σ β ρ} {a : Agenda σ β ρ} {t : TaskId}

/-! ## Taking an item off -/

/-- Another item than the one at a place stays when that one is taken off. -/
theorem mem_eraseIdx_of_ne {α : Type} {l : List α} {k : Nat} {x y : α} (hx : l[k]? = some x)
    (hy : y ∈ l) (hne : y ≠ x) : y ∈ l.eraseIdx k := by
  obtain ⟨j, hj, rfl⟩ := List.mem_iff_getElem.mp hy
  refine List.mem_eraseIdx_iff_getElem.mpr ⟨j, hj, ?_, rfl⟩
  rintro rfl
  rw [List.getElem?_eq_getElem hj] at hx
  exact hne (Option.some.inj hx)

/-- What holds of some items only is not changed by taking off another one. -/
theorem filter_eraseIdx {α : Type} {l : List α} {k : Nat} {x : α} (hx : l[k]? = some x)
    {f : α → Bool} (hf : f x = false) : (l.eraseIdx k).filter f = l.filter f := by
  induction l generalizing k with
  | nil => rfl
  | cons y l ih =>
      cases k with
      | zero =>
          obtain rfl := Option.some.inj hx
          rw [List.eraseIdx_cons_zero, List.filter_cons_of_neg (by rw [hf]; exact Bool.false_ne_true)]
      | succ k => rw [List.eraseIdx_cons_succ, List.filter_cons, List.filter_cons, ih hx]

/-- The agenda without the ready item at a place. -/
def taken (a : Agenda σ β ρ) (place : Nat) : Agenda σ β ρ :=
  { a with ready := a.ready.eraseIdx place }

theorem process?_taken (a : Agenda σ β ρ) (place : Nat) (u : TaskId) :
    (a.taken place).process? u = a.process? u := rfl

theorem Heard.taken {c : TaskId} (hc : a.Heard c) (place : Nat) : (a.taken place).Heard c :=
  ⟨hc.gone, hc.past, fun i hi => hc.told i (List.mem_of_mem_eraseIdx hi)⟩

/-- An item is taken off; if it is the turn of a waiting task, that task is at work from now. -/
theorem Sound.taken {busy : Option TaskId} (ha : Sound P none h a) {place : Nat} {i : Item ρ}
    (hi : a.ready[place]? = some i)
    (hturn : ∀ u, i = .run u → busy ≠ some u → ∀ p w, a.process? u = some p →
      p.waiting ≠ .queued w)
    (htimed : ∀ m ∈ a.timers, busy ≠ some m.task) :
    Sound P busy h (a.taken place) where
  numbered := ha.numbered
  coherent := ha.coherent
  past := ha.past
  living := fun u _ s hs => ha.living u nofun s hs
  turn := by
    intro u hu p w hp hw
    refine mem_eraseIdx_of_ne hi (ha.turn u nofun p w hp hw) fun heq => ?_
    exact hturn u heq.symm hu p w hp hw
  timed := by
    intro m hm
    obtain ⟨hlt, -, hwait⟩ := ha.timed m hm
    exact ⟨hlt, htimed m hm, hwait⟩
  once := ha.once.sublist ((List.eraseIdx_sublist _ _).filterMap _)
  reported := fun u c o hr => ha.reported u c o (List.mem_of_mem_eraseIdx hr)
  stands := fun u _ p hp => (ha.stands u nofun p hp).frame (fun _ hd => hd) rfl rfl
    fun _ hc => hc.taken place

/-- A report that is taken off is not there a second time. -/
theorem Sound.heard_of_report (ha : Sound P none h a) {place : Nat} {c : TaskId}
    {o : Outcome ρ} (hi : a.ready[place]? = some (.report t c o)) :
    (a.taken place).Heard c := by
  obtain ⟨hnone, hlt, -⟩ := ha.reported t c o (List.mem_of_getElem? hi)
  refine ⟨hnone, hlt, fun i hmem hc => ?_⟩
  obtain ⟨j, hj, hne, rfl⟩ := List.mem_eraseIdx_iff_getElem.mp hmem
  obtain ⟨hk, hget⟩ := List.getElem?_eq_some_iff.mp hi
  have hpair := List.pairwise_filterMap.mp ha.once
  rw [List.pairwise_iff_getElem] at hpair
  have hchild : Item.child? (.report t c o : Item ρ) = some c := rfl
  rcases Nat.lt_or_gt_of_ne hne with hlt' | hgt
  · exact hpair j place hj hk hlt' c hc c (hget ▸ hchild) rfl
  · exact hpair place j hk hj hgt c (hget ▸ hchild) c hc rfl

/-! ## The task at work -/

/-- Nothing is asked of the task at work. -/
theorem Sound.adjust_busy (ha : Sound P (some t) h a) (f : Process β ρ → Process β ρ) :
    Sound P (some t) h (a.adjust t f) := by
  have hne : ∀ {u}, some t ≠ some u → u ≠ t := fun hu he => hu (congrArg some he.symm)
  have hheard : ∀ c, a.Heard c → (a.adjust t f).Heard c := fun c hc =>
    ⟨(process?_adjust_eq_none a).mpr hc.gone, hc.past, hc.told⟩
  refine ⟨?_, ha.coherent, ha.past, ?_, ?_, ?_, ha.once, ?_, ?_⟩
  · intro u p hp
    rw [process?_adjust] at hp
    split at hp
    · obtain ⟨q, hq, -⟩ := Option.map_eq_some_iff.mp hp
      exact ha.numbered hq
    · exact ha.numbered hp
  · intro u hu s hs
    rw [process?_adjust_eq_none]
    exact ha.living u hu s hs
  · intro u hu p w hp hw
    rw [process?_adjust_of_ne a f (hne hu)] at hp
    exact ha.turn u hu p w hp hw
  · intro m hm
    obtain ⟨hlt, hbusy, hwait⟩ := ha.timed m hm
    refine ⟨hlt, hbusy, fun p hp => hwait p ?_⟩
    rwa [process?_adjust_of_ne a f (hne hbusy)] at hp
  · intro u c o hr
    rw [process?_adjust_eq_none]
    exact ha.reported u c o hr
  · intro u hu p hp
    rw [process?_adjust_of_ne a f (hne hu)] at hp
    exact (ha.stands u hu p hp).frame (fun _ hd => hd) rfl rfl hheard

/-- The history has one stint more, of the task at work. -/
theorem Sound.work (ha : Sound P (some t) h a) {s : Stint σ β ρ} (ht : s.task = t)
    (hlt : t < a.started) (hs : h.Follows P s) : Sound P (some t) (s :: h) a where
  numbered := ha.numbered
  coherent := ha.coherent.cons hs
  past := by
    intro d hd
    rcases List.mem_cons.mp hd with rfl | hd
    · exact ht ▸ hlt
    · exact ha.past d hd
  living := by
    intro u hu d hd
    have hne : s.task ≠ u := fun he => hu (congrArg some (ht.symm.trans he))
    rw [History.latest_cons_of_ne hne] at hd
    exact ha.living u hu d hd
  turn := ha.turn
  timed := ha.timed
  once := ha.once
  reported := by
    intro u c o hr
    obtain ⟨hnone, hc, he⟩ := ha.reported u c o hr
    exact ⟨hnone, hc, he.mono fun _ => List.mem_cons_of_mem _⟩
  stands := by
    intro u hu p hp
    have hne : s.task ≠ u := fun he => hu (congrArg some (ht.symm.trans he))
    exact (ha.stands u hu p hp).frame (fun _ => List.mem_cons_of_mem _)
      (History.latest_cons_of_ne hne) rfl fun _ hc => hc

/-- A task gets its turn again. -/
theorem Sound.enqueue_run {busy : Option TaskId} (ha : Sound P busy h a) (u : TaskId) :
    Sound P busy h (a.enqueue (.run u)) := by
  have hreport : ∀ {v c o}, .report v c o ∈ (a.enqueue (.run u)).ready →
      .report v c o ∈ a.ready := by
    intro v c o hr
    rcases List.mem_append.mp hr with hr | hr
    · exact hr
    · exact nomatch List.mem_singleton.mp hr
  have hheard : ∀ c, a.Heard c → (a.enqueue (.run u)).Heard c := by
    refine fun c hc => ⟨hc.gone, hc.past, fun i hi => ?_⟩
    rcases List.mem_append.mp hi with hi | hi
    · exact hc.told i hi
    · rw [List.mem_singleton.mp hi]
      exact fun h => nomatch h
  refine ⟨ha.numbered, ha.coherent, ha.past, ha.living, ?_, ha.timed, ?_, ?_, ?_⟩
  · exact fun v hv p w hp hw => List.mem_append_left _ (ha.turn v hv p w hp hw)
  · have hready : (a.enqueue (.run u)).ready = a.ready ++ [u].map .run := rfl
    rw [hready, List.filterMap_append, Item.filterMap_child?_run, List.append_nil]
    exact ha.once
  · exact fun v c o hr => ha.reported v c o (hreport hr)
  · exact fun v hv p hp => (ha.stands v hv p hp).frame (fun _ hd => hd) rfl rfl hheard

/-- The task at work stops working and waits. -/
theorem Sound.stand (ha : Sound P (some t) h a) {p : Process β ρ} (hp : a.process? t = some p)
    (hs : Stands P h a t p) (hl : ∀ s, h.latest t = some s → ¬ ∃ o, s.Ends P o)
    (hturn : ∀ w, p.waiting = .queued w → .run t ∈ a.ready) : Sound P none h a where
  numbered := ha.numbered
  coherent := ha.coherent
  past := ha.past
  living := by
    intro u _ s hs'
    by_cases hu : u = t
    · subst hu
      constructor
      · intro hnone
        exact nomatch hnone.symm.trans hp
      · intro ho
        exact absurd ho (hl s hs')
    · exact ha.living u (fun he => hu (Option.some.inj he).symm) s hs'
  turn := by
    intro u _ q w hq hw
    by_cases hu : u = t
    · subst hu
      rw [hp] at hq
      rw [← Option.some.inj hq] at hw
      exact hturn w hw
    · exact ha.turn u (fun he => hu (Option.some.inj he).symm) q w hq hw
  timed := by
    intro m hm
    obtain ⟨hlt, -, hwait⟩ := ha.timed m hm
    exact ⟨hlt, nofun, hwait⟩
  once := ha.once
  reported := ha.reported
  stands := by
    intro u _ q hq
    by_cases hu : u = t
    · subst hu
      rw [hp] at hq
      rw [← Option.some.inj hq]
      exact hs
    · exact ha.stands u (fun he => hu (Option.some.inj he).symm) q hq

/-! ## Starting other tasks -/

/-- The task at work starts others. -/
theorem Sound.launchAll (ha : Sound P (some t) h a) {s : Stint σ β ρ}
    (hs : s ∈ h) (ht : s.task = t) (hnow : s.now = a.now) (hfirst : s.firstChild P = a.started)
    {bodies : List β} (hbodies : (s.turn P).next.children = bodies) :
    Sound P (some t) h (a.launchAll t bodies) := by
  have hb := launched_launchAll t bodies ha.numbered
  have hle : a.started ≤ (a.launchAll t bodies).started := by
    rw [hb.started]
    exact Nat.le_add_right _ _
  have hold : ∀ {u}, u < a.started → (a.launchAll t bodies).process? u = a.process? u := by
    intro u hu
    rw [hb.process, if_pos hu]
  have hreport : ∀ {v c o}, .report v c o ∈ (a.launchAll t bodies).ready →
      .report v c o ∈ a.ready := by
    intro v c o hr
    rw [hb.ready] at hr
    rcases List.mem_append.mp hr with hr | hr
    · exact hr
    · obtain ⟨u, -, hu⟩ := List.mem_map.mp hr
      exact nomatch hu
  have hheard : ∀ c, a.Heard c → (a.launchAll t bodies).Heard c := by
    refine fun c hc => ⟨?_, Nat.lt_of_lt_of_le hc.past hle, fun i hi => ?_⟩
    · rw [hold hc.past]
      exact hc.gone
    · rw [hb.ready] at hi
      rcases List.mem_append.mp hi with hi | hi
      · exact hc.told i hi
      · obtain ⟨u, -, rfl⟩ := List.mem_map.mp hi
        exact fun h => nomatch h
  -- a task with a new number is one of those that are started
  have hnew : ∀ {u q}, ¬ u < a.started → (a.launchAll t bodies).process? u = some q →
      ∃ body, q = .fresh body (.task t) ∧ u < (a.launchAll t bodies).started ∧
        bodies[u - a.started]? = some body := by
    intro u q hu hq
    rw [hb.process, if_neg hu] at hq
    obtain ⟨body, hbody, rfl⟩ := Option.map_eq_some_iff.mp hq
    obtain ⟨hi, -⟩ := List.getElem?_eq_some_iff.mp hbody
    refine ⟨body, rfl, ?_, hbody⟩
    rw [hb.started]
    grind
  refine ⟨?_, ha.coherent, ?_, ?_, ?_, ?_, ?_, ?_, ?_⟩
  · intro u q hq
    by_cases hu : u < a.started
    · exact Nat.lt_of_lt_of_le hu hle
    · obtain ⟨-, -, hlt', -⟩ := hnew hu hq
      exact hlt'
  · exact fun d hd => Nat.lt_of_lt_of_le (ha.past d hd) hle
  · intro u hu d hd
    obtain ⟨hmem, hdu⟩ := History.latest_eq_some hd
    rw [hold (hdu ▸ ha.past d hmem)]
    exact ha.living u hu d hd
  · intro u hu q w hq hw
    rw [hb.ready]
    by_cases hlt' : u < a.started
    · rw [hold hlt'] at hq
      exact List.mem_append_left _ (ha.turn u hu q w hq hw)
    · obtain ⟨body, -, hub, -⟩ := hnew hlt' hq
      refine List.mem_append_right _ (List.mem_map_of_mem (List.mem_range'_1.mpr ?_))
      rw [hb.started] at hub
      exact ⟨Nat.le_of_not_lt hlt', hub⟩
  · intro m hm
    rw [hb.timers] at hm
    obtain ⟨hlt', hbusy, hwait⟩ := ha.timed m hm
    exact ⟨Nat.lt_of_lt_of_le hlt' hle, hbusy, fun p hp => hwait p (hold hlt' ▸ hp)⟩
  · rw [hb.ready, List.filterMap_append, Item.filterMap_child?_run, List.append_nil]
    exact ha.once
  · intro u c o hr
    obtain ⟨hnone, hc, he⟩ := ha.reported u c o (hreport hr)
    exact ⟨hold hc ▸ hnone, Nat.lt_of_lt_of_le hc hle, he⟩
  · intro u hu q hq
    by_cases hlt' : u < a.started
    · rw [hold hlt'] at hq
      exact (ha.stands u hu q hq).frame (fun _ hd => hd) rfl hb.now hheard
    · obtain ⟨body, rfl, -, hbody⟩ := hnew hlt' hq
      have hnone : h.latest u = none := by
        refine History.latest_eq_none.mpr fun d hd heq => ?_
        exact hlt' (heq ▸ ha.past d hd)
      unfold Stands
      rw [hnone]
      refine ⟨rfl, .inl rfl, fun _ _ => ⟨rfl, rfl⟩, fun v hv => ?_⟩
      obtain rfl : t = v := by simpa [Process.fresh] using hv
      refine ⟨s, hs, ht, hnow.trans hb.now.symm, u - a.started, ?_, ?_⟩
      · rw [hbodies]
        exact hbody
      · rw [hfirst]
        grind

/-! ## Ending -/

/-- A task ends, and whoever waits for it is to be told. -/
theorem Sound.finish (ha : Sound P (some t) h a) {p : Process β ρ} (hp : a.process? t = some p)
    (hl : ∀ s, h.latest t = some s → ∃ o, s.Ends P o) {o : Outcome ρ}
    (ho : ∀ u, p.audience = .task u → h.Ended P u t o) : Sound P none h (a.finish t p o) := by
  have hprocess : ∀ u, (a.finish t p o).process? u = if u = t then none else a.process? u := by
    intro u
    rw [← process?_remove]
    unfold Agenda.finish
    cases p.key <;> cases p.audience <;> rfl
  have hstarted : (a.finish t p o).started = a.started := by
    unfold Agenda.finish
    cases p.key <;> cases p.audience <;> rfl
  have htimers : (a.finish t p o).timers = a.timers := by
    unfold Agenda.finish
    cases p.key <;> cases p.audience <;> rfl
  have hnow : (a.finish t p o).now = a.now := by
    unfold Agenda.finish
    cases p.key <;> cases p.audience <;> rfl
  have hready : (a.finish t p o).ready = a.ready ∨
      ∃ u, p.audience = .task u ∧ (a.finish t p o).ready = a.ready ++ [.report u t o] := by
    unfold Agenda.finish
    cases p.key <;> cases p.audience
    all_goals first | exact .inl rfl | exact .inr ⟨_, rfl, rfl⟩
  have hgone : ∀ {c}, a.process? c = none → (a.finish t p o).process? c = none := by
    intro c hc
    rw [hprocess, hc, ite_self]
  have hold : ∀ {u}, some t ≠ some u → (a.finish t p o).process? u = a.process? u := by
    intro u hu
    rw [hprocess, if_neg fun he => hu (congrArg some he.symm)]
  have hstill : ∀ {u q}, (a.finish t p o).process? u = some q →
      some t ≠ some u ∧ a.process? u = some q := by
    intro u q hq
    rw [hprocess] at hq
    split at hq
    · exact nomatch hq
    · rename_i hu
      exact ⟨fun he => hu (Option.some.inj he).symm, hq⟩
  have hmem : ∀ {i}, i ∈ a.ready → i ∈ (a.finish t p o).ready := by
    intro i hi
    rcases hready with hr | ⟨u, -, hr⟩
    · rwa [hr]
    · rw [hr]
      exact List.mem_append_left _ hi
  have hnot : t ∉ a.ready.filterMap Item.child? := by
    intro hmem
    obtain ⟨i, hi, hc⟩ := List.mem_filterMap.mp hmem
    cases i with
    | run u => exact nomatch hc
    | report u c o' =>
        obtain rfl : c = t := Option.some.inj hc
        exact nomatch hp.symm.trans (ha.reported u c o' hi).1
  have hheard : ∀ c, a.Heard c → (a.finish t p o).Heard c := by
    refine fun c hc => ⟨hgone hc.gone, hstarted ▸ hc.past, fun i hi => ?_⟩
    rcases hready with hr | ⟨u, -, hr⟩
    · exact hc.told i (hr ▸ hi)
    · rw [hr] at hi
      rcases List.mem_append.mp hi with hi | hi
      · exact hc.told i hi
      · rw [List.mem_singleton.mp hi]
        intro heq
        obtain rfl : t = c := Option.some.inj heq
        exact nomatch hp.symm.trans hc.gone
  refine ⟨?_, ha.coherent, ?_, ?_, ?_, ?_, ?_, ?_, ?_⟩
  · intro u q hq
    rw [hstarted]
    exact ha.numbered (hstill hq).2
  · rw [hstarted]
    exact ha.past
  · intro u _ s hs
    by_cases hu : some t = some u
    · obtain rfl : t = u := Option.some.inj hu
      rw [hprocess, if_pos rfl]
      exact ⟨fun _ => hl s hs, fun _ => rfl⟩
    · rw [hold hu]
      exact ha.living u hu s hs
  · intro u _ q w hq hw
    obtain ⟨hu, hq⟩ := hstill hq
    exact hmem (ha.turn u hu q w hq hw)
  · intro m hm
    rw [htimers] at hm
    obtain ⟨hlt, hbusy, hwait⟩ := ha.timed m hm
    exact ⟨hstarted ▸ hlt, nofun, fun q hq => hwait q (hstill hq).2⟩
  · rcases hready with hr | ⟨u, -, hr⟩
    · rw [hr]
      exact ha.once
    · rw [hr, List.filterMap_append]
      refine List.nodup_append.mpr ⟨ha.once, List.pairwise_singleton _ _, fun c hc d hd heq => ?_⟩
      rw [List.mem_singleton.mp hd] at heq
      exact hnot (heq ▸ hc)
  · intro u c o' hr'
    have hcase : .report u c o' ∈ a.ready ∨ (c = t ∧ o' = o ∧ p.audience = .task u) := by
      rcases hready with hr | ⟨v, hv, hr⟩
      · exact .inl (hr ▸ hr')
      · rw [hr] at hr'
        rcases List.mem_append.mp hr' with hr' | hr'
        · exact .inl hr'
        · obtain ⟨rfl, rfl, rfl⟩ := Item.report.inj (List.mem_singleton.mp hr')
          exact .inr ⟨rfl, rfl, hv⟩
    rw [hstarted]
    rcases hcase with hr' | ⟨rfl, rfl, hu⟩
    · obtain ⟨hnone, hlt, he⟩ := ha.reported u c o' hr'
      exact ⟨hgone hnone, hlt, he⟩
    · exact ⟨by rw [hprocess, if_pos rfl], ha.numbered hp, ho u hu⟩
  · intro u _ q hq
    obtain ⟨hu, hq⟩ := hstill hq
    exact (ha.stands u hu q hq).frame (fun _ hd => hd) rfl hnow hheard

/-! ## Waiting -/

/-- The task at work waits for something. -/
theorem Sound.park (ha : Sound P (some t) h a) {p : Process β ρ} (hp : a.process? t = some p)
    {body : β} {w : Waiting ρ} (hs : Stands P h a t { p with body := body, waiting := w })
    (hl : ∀ s, h.latest t = some s → ¬ ∃ o, s.Ends P o)
    (hturn : ∀ v, w = .queued v → .run t ∈ a.ready) :
    Sound P none h (a.park t body w) := by
  have hpark : (a.park t body w).process? t = some { p with body := body, waiting := w } := by
    rw [process?_park, if_pos rfl, hp]
    rfl
  refine (ha.adjust_busy _).stand hpark (hs.frame (fun _ hd => hd) rfl rfl fun c hc => ?_) hl hturn
  exact ⟨(process?_adjust_eq_none a).mpr hc.gone, hc.past, hc.told⟩

/-- A sleeper has timers. -/
theorem Sound.setTimers (ha : Sound P none h a) {p : Process β ρ} (hp : a.process? t = some p)
    (hw : p.waiting = .asleep) {delay limit : Delay} {w : Wake ρ} (hr : Rouses p.begun w)
    (hlimit : limit = .endless ∨ p.begun = true) :
    Sound P none h (a.setTimers t delay limit w) where
  numbered := ha.numbered
  coherent := ha.coherent
  past := ha.past
  living := ha.living
  turn := ha.turn
  timed := by
    intro m hm
    have htimer : ∀ {d v}, m ∈ (a.timer? t d v).toList → m.task = t ∧ m.wake = v ∧ d ≠ .endless := by
      intro d v hm
      obtain ⟨due, hdue, rfl⟩ := Option.map_eq_some_iff.mp (Option.mem_toList.mp hm)
      refine ⟨rfl, rfl, ?_⟩
      rintro rfl
      exact nomatch hdue
    have hmine : m.task = t → Rouses p.begun m.wake → m.task < a.started ∧ none ≠ some m.task ∧
        ∀ q, a.process? m.task = some q → q.waiting = .asleep ∧ Rouses q.begun m.wake := by
      intro hmt hrm
      rw [hmt]
      refine ⟨ha.numbered hp, nofun, fun q hq => ?_⟩
      rw [← Option.some.inj (hp.symm.trans hq)]
      exact ⟨hw, hrm⟩
    rcases List.mem_append.mp hm with hm | hm
    · exact ha.timed m hm
    · rcases List.mem_append.mp hm with hm | hm
      · obtain ⟨hmt, hmw, hd⟩ := htimer hm
        refine hmine hmt ?_
        rw [hlimit.resolve_left hd, hmw]
        exact .inr rfl
      · obtain ⟨hmt, hmw, -⟩ := htimer hm
        refine hmine hmt ?_
        rw [hmw]
        exact hr
  once := ha.once
  reported := ha.reported
  stands := fun u hu q hq => (ha.stands u hu q hq).frame (fun _ hd => hd) rfl rfl
    fun _ hc => ⟨hc.gone, hc.past, hc.told⟩

/-- The task at work sleeps, or lets others have their turn if that takes no time. -/
theorem Sound.lay (ha : Sound P (some t) h a) {p : Process β ρ} (hp : a.process? t = some p)
    {body : β} (delay limit : Delay) {w : Wake ρ}
    (hpause : Stands P h a t { p with body := body, waiting := .queued w })
    (hsleep : Stands P h a t { p with body := body, waiting := .asleep })
    (hl : ∀ s, h.latest t = some s → ¬ ∃ o, s.Ends P o) (hr : Rouses p.begun w)
    (hlimit : limit = .endless ∨ p.begun = true) :
    Sound P none h (a.lay t body delay limit w) := by
  unfold Agenda.lay
  split
  · have hrun : (a.enqueue (.run t)).process? t = some p := hp
    refine (ha.enqueue_run t).park hrun (hpause.frame (fun _ hd => hd) rfl rfl fun c hc => ?_) hl ?_
    · exact ⟨hc.gone, hc.past, fun i hi => by
        rcases List.mem_append.mp hi with hi | hi
        · exact hc.told i hi
        · rw [List.mem_singleton.mp hi]
          exact fun h => nomatch h⟩
    · exact fun _ _ => List.mem_append_right _ (List.mem_singleton.mpr rfl)
  · have hpark := ha.park hp hsleep hl fun _ h => nomatch h
    refine hpark.setTimers (p := { p with body := body, waiting := .asleep }) ?_ rfl hr hlimit
    rw [process?_park, if_pos rfl, hp]
    rfl

/-- What a task does when it stops working keeps the agenda to its history. -/
theorem Sound.settleTurn (ha : Sound P (some t) h a) {p : Process β ρ}
    (hp : a.process? t = some p) {s : Stint σ β ρ} (hs : h.latest t = some s)
    (hbegun : p.begun = true) (haud : p.audience = s.audience) (hnow : s.now = a.now)
    (hfirst : s.firstChild P = a.started) :
    Sound P none h (a.settleTurn t p (s.turn P).next) := by
  obtain ⟨hmem, ht⟩ := History.latest_eq_some hs
  have hlt : t < a.started := ha.numbered hp
  -- the task waits as its stint has it
  have hstands : ∀ {b : Agenda σ β ρ} {body w}, Rests P h b s { p with body := body, waiting := w } →
      Stands P h b t { p with body := body, waiting := w } := by
    intro b body w hr
    unfold Stands
    rw [hs]
    exact ⟨hbegun, haud, hr⟩
  have hgoes : ∀ {body}, (s.turn P).next.body? = some body →
      ∀ d, h.latest t = some d → ¬ ∃ o, d.Ends P o := by
    rintro body hb d hd ⟨o, ho⟩
    obtain rfl : s = d := Option.some.inj (hs.symm.trans hd)
    rw [show (s.turn P).next = .finish o from ho] at hb
    exact nomatch hb
  have hlaunched := launched_launchAll t (s.turn P).next.children ha.numbered
  have hlaunch := ha.launchAll hmem ht hnow hfirst rfl
  have hlp : (a.launchAll t (s.turn P).next.children).process? t = some p := by
    rw [hlaunched.process, if_pos hlt]
    exact hp
  -- a task that was told to stop at work does so where it would wait
  have hstop : ∀ {b : Agenda σ β ρ}, Sound P none h b →
      Sound P none h (if p.stopping then
        (b.adjust t fun p => { p with stopping := false }).cancel t else b) := by
    intro b hb
    split
    · exact (hb.rebooked (rebooked_mark b t false)).rebooked (rebooked_cancel _ t)
    · exact hb
  unfold Agenda.settleTurn
  cases hnext : (s.turn P).next with
  | finish o =>
      refine ha.finish hp (fun d hd => ?_) fun u hu => ?_
      · obtain rfl : s = d := Option.some.inj (hs.symm.trans hd)
        exact ⟨o, hnext⟩
      · split
        · exact .inl rfl
        · exact .inr ⟨s, hmem, ht, haud ▸ hu, hnext⟩
  | pause body =>
      have hleads : h.Leads P s body .resumed := by
        unfold History.Leads
        rw [hnext]
        exact ⟨rfl, .inl rfl⟩
      refine (ha.enqueue_run t).park (w := .queued .resumed) hp (hstands (.queued rfl hleads))
        (hgoes (by rw [hnext]; rfl)) ?_
      exact fun _ _ => List.mem_append_right _ (List.mem_singleton.mpr rfl)
  | sleep delay limit body =>
      have hleads : h.Leads P s body .resumed := by
        unfold History.Leads
        rw [hnext]
        exact ⟨rfl, .inl rfl⟩
      have hlay := ha.lay hp delay limit (hstands (.queued rfl hleads))
        (hstands (.asleep rfl hnext)) (hgoes (by rw [hnext]; rfl)) (by rw [hbegun]; exact .inl rfl)
        (.inr hbegun)
      dsimp only
      split
      · rename_i hc
        have hne : delay ≠ .zero := by
          rw [Bool.and_eq_true] at hc
          exact of_decide_eq_true hc.2
        refine (hlay.rebooked (rebooked_mark _ t false)).rebooked
          (rebooked_wake (p := { p with body := body, waiting := .asleep, stopping := false }) ?_
            (.inl rfl))
        rw [process?_adjust_self]
        unfold Agenda.lay
        rw [if_neg hne]
        show ((a.park t body .asleep).process? t).map _ = _
        rw [process?_park, if_pos rfl, hp]
        rfl
      · exact hlay
  | gather children body =>
      rw [hnext] at hlaunch hlp hlaunched
      have hids : List.range' a.started children.length = s.childIds P := by
        unfold Stint.childIds
        rw [hfirst, hnext]
        rfl
      have hrests : Rests P h (a.launchAll t children) s
          { p with body := body, waiting := .all (List.range' a.started children.length) [] } := by
        rw [hids]
        exact .gathering rfl hnext List.nodup_nil fun g hg => absurd hg List.not_mem_nil
      exact hstop (hlaunch.park hlp (hstands hrests) (hgoes (by rw [hnext]; rfl))
        fun _ h => nomatch h)
  | collect children body =>
      rw [hnext] at hlaunch hlp
      exact hstop (hlaunch.park hlp (hstands (.collecting rfl hnext))
        (hgoes (by rw [hnext]; rfl)) fun _ h => nomatch h)
  | await body =>
      exact hstop (ha.park hp (hstands (.awaiting rfl hnext))
        (hgoes (by rw [hnext]; rfl)) fun _ h => nomatch h)

end BuildingAlerts.Agenda
