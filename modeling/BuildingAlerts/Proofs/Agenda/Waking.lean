/-
Tasks go on.

A task that waits for others goes on when they have ended or one of them has failed, and a
sleeper goes on when one of its timers goes off. Either way the reason is the one that its
history asks for.
-/
import BuildingAlerts.Proofs.Agenda.Working
import Mathlib.Data.List.Perm.Subperm

set_option autoImplicit false

namespace BuildingAlerts.Agenda

variable {σ β ρ : Type} {P : Program σ β ρ} {h : History σ β ρ} {a : Agenda σ β ρ} {t : TaskId}

/-! ## Waiting for something else -/

/-- A task waits for something else, and all others as before. -/
theorem Sound.rewait (ha : Sound P none h a) {p : Process β ρ} (hp : a.process? t = some p)
    {f : Process β ρ → Process β ρ} (hs : Stands P h a t (f p))
    (hturn : ∀ w, (f p).waiting = .queued w → .run t ∈ a.ready)
    (htimed : ∀ m ∈ a.timers, m.task ≠ t) : Sound P none h (a.adjust t f) := by
  have hheard : ∀ c, a.Heard c → (a.adjust t f).Heard c := fun c hc =>
    ⟨(process?_adjust_eq_none a).mpr hc.gone, hc.past, hc.told⟩
  have hcase : ∀ {u q}, (a.adjust t f).process? u = some q →
      (u = t ∧ q = f p) ∨ (u ≠ t ∧ a.process? u = some q) := by
    intro u q hq
    rw [process?_adjust] at hq
    split at hq
    · rename_i hu
      rw [hu, hp] at hq
      exact .inl ⟨hu, (Option.some.inj hq).symm⟩
    · rename_i hu
      exact .inr ⟨hu, hq⟩
  refine ⟨?_, ha.coherent, ha.past, ?_, ?_, ?_, ha.once, ?_, ?_⟩
  · intro u q hq
    rcases hcase hq with ⟨rfl, -⟩ | ⟨-, hq⟩
    · exact ha.numbered hp
    · exact ha.numbered hq
  · intro u hu s hs
    rw [process?_adjust_eq_none]
    exact ha.living u hu s hs
  · intro u hu q w hq hw
    rcases hcase hq with ⟨rfl, rfl⟩ | ⟨-, hq⟩
    · exact hturn w hw
    · exact ha.turn u hu q w hq hw
  · intro m hm
    obtain ⟨hlt, hbusy, hwait⟩ := ha.timed m hm
    refine ⟨hlt, hbusy, fun q hq => hwait q ?_⟩
    rwa [process?_adjust_of_ne a f (htimed m hm)] at hq
  · intro u c o hr
    rw [process?_adjust_eq_none]
    exact ha.reported u c o hr
  · intro u hu q hq
    rcases hcase hq with ⟨rfl, rfl⟩ | ⟨-, hq⟩
    · exact hs.frame (fun _ hd => hd) rfl rfl hheard
    · exact (ha.stands u hu q hq).frame (fun _ hd => hd) rfl rfl hheard

/-- Timers may be taken out. -/
theorem Sound.untimed (ha : Sound P none h a) {ms : List (Timer ρ)}
    (hms : ∀ m ∈ ms, m ∈ a.timers) : Sound P none h { a with timers := ms } where
  numbered := ha.numbered
  coherent := ha.coherent
  past := ha.past
  living := ha.living
  turn := ha.turn
  timed := fun m hm => ha.timed m (hms m hm)
  once := ha.once
  reported := ha.reported
  stands := fun u hu q hq => (ha.stands u hu q hq).frame (fun _ hd => hd) rfl rfl
    fun _ hc => ⟨hc.gone, hc.past, hc.told⟩

/-- A task is given its turn for a reason that its history asks for. -/
theorem Sound.wake (ha : Sound P none h a) {p : Process β ρ} (hp : a.process? t = some p)
    {w : Wake ρ} (hs : Stands P h a t { p with waiting := .queued w }) :
    Sound P none h (a.wake t w) := by
  have hsub : ∀ m ∈ a.timers.filter (·.task ≠ t), m ∈ a.timers :=
    fun m hm => List.mem_of_mem_filter hm
  have hready := (ha.untimed hsub).enqueue_run t
  refine hready.rewait (f := fun p => { p with waiting := .queued w }) hp
    (hs.frame (fun _ hd => hd) rfl rfl fun c hc => ?_) (fun v _ => ?_) fun m hm => ?_
  · refine ⟨hc.gone, hc.past, fun i hi => ?_⟩
    rcases List.mem_append.mp hi with hi | hi
    · exact hc.told i hi
    · rw [List.mem_singleton.mp hi]
      exact fun h => nomatch h
  · exact List.mem_append_right _ (List.mem_singleton.mpr rfl)
  · exact of_decide_eq_true (List.mem_filter.mp hm).2

/-! ## Reports -/

/-- The results of tasks that have all ended are those of the tasks, in their order. -/
theorem forall₂_inOrder {ids : List TaskId} {got : List (TaskId × ρ)}
    (hn : (got.map (·.1)).Nodup) (hsub : ∀ g ∈ got, g.1 ∈ ids) (hlen : got.length = ids.length)
    {R : TaskId → ρ → Prop} (hR : ∀ g ∈ got, R g.1 g.2) :
    List.Forall₂ R ids (inOrder ids got) := by
  have hall : ∀ c ∈ ids, c ∈ got.map (·.1) := by
    have hperm := List.subperm_of_subset hn fun c hc => by
      obtain ⟨g, hg, rfl⟩ := List.mem_map.mp hc
      exact hsub g hg
    have hp := hperm.perm_of_length_le (Nat.le_of_eq (by rw [List.length_map, hlen]))
    exact fun c hc => hp.mem_iff.mpr hc
  have hlook : ∀ {c}, c ∈ got.map (·.1) → ∃ r, got.lookup c = some r ∧ (c, r) ∈ got := by
    intro c hc
    cases hl : got.lookup c with
    | none =>
        obtain ⟨g, hg, rfl⟩ := List.mem_map.mp hc
        have := List.lookup_eq_none_iff.mp hl g hg
        simp at this
    | some r =>
        obtain ⟨l, k, hk, -⟩ := List.lookup_eq_some_iff.mp hl
        refine ⟨r, rfl, ?_⟩
        rw [hk]
        simp
  unfold inOrder
  clear hn hsub hlen
  induction ids with
  | nil => exact .nil
  | cons c ids ih =>
      obtain ⟨r, hr, hmem⟩ := hlook (hall c List.mem_cons_self)
      rw [List.filterMap_cons, hr]
      exact .cons (hR _ hmem) (ih fun d hd => hall d (List.mem_cons_of_mem _ hd))

/-- A task is told how one that it started has ended. -/
theorem Sound.report (ha : Sound P none h a) {place : Nat} {c : TaskId} {o : Outcome ρ}
    (hi : a.ready[place]? = some (.report t c o)) :
    Sound P none h ((a.taken place).report t c o) := by
  have hended := (ha.reported t c o (List.mem_of_getElem? hi)).2.2
  have hheard := ha.heard_of_report hi
  have hunheard : ¬ a.Heard c := fun hc => hc.told _ (List.mem_of_getElem? hi) rfl
  have htaken : Sound P none h (a.taken place) :=
    ha.taken hi (by rintro u ⟨⟩) (by rintro _ _ ⟨⟩)
  have hkeep : ∀ d, a.Heard d → (a.taken place).Heard d := fun _ hd => hd.taken place
  unfold Agenda.report
  split
  · exact htaken
  · rename_i p hp
    have hstands := ha.stands t (by rintro ⟨⟩) p hp
    have hawake : p.waiting ≠ .asleep → ∀ m ∈ (a.taken place).timers, m.task ≠ t := by
      intro hw m hm he
      exact hw ((htaken.timed m hm).2.2 p (he ▸ hp)).1
    -- a task that waits for others has begun, and its latest stint says for what
    have hbegun : p.waiting ≠ .queued .start → p.waiting ≠ .asleep →
        p.waiting ≠ .queued (.stopped .cancelled) → ∃ s, h.latest t = some s ∧ s.task = t ∧
          Rests P h a s p ∧ ∀ {q : Process β ρ}, q.begun = p.begun → q.audience = p.audience →
            Rests P h (a.taken place) s q → Stands P h (a.taken place) t q := by
      intro h₁ h₂ h₃
      unfold Stands at hstands
      split at hstands
      · rcases hstands.waiting with hw | hw | hw
        · exact absurd hw h₁
        · exact absurd hw h₂
        · exact absurd hw h₃
      · rename_i s hs
        refine ⟨s, hs, (History.latest_eq_some hs).2, hstands.2.2, fun hq hqa hr => ?_⟩
        unfold Stands
        rw [hs]
        exact ⟨hq.trans hstands.1, hqa.trans hstands.2.1, hr⟩
    split
    · rename_i children got hw
      obtain ⟨s, hs, ht, hrests, hgoes⟩ := hbegun (by rw [hw]; rintro ⟨⟩) (by rw [hw]; rintro ⟨⟩)
        (by rw [hw]; rintro ⟨⟩)
      cases hrests with
      | queued hw' _ => cases hw.symm.trans hw'
      | asleep hw' _ => cases hw.symm.trans hw'
      | collecting hw' _ => cases hw.symm.trans hw'
      | awaiting hw' _ => cases hw.symm.trans hw'
      | gathering hw' hnext hn hg =>
          obtain ⟨rfl, rfl⟩ := Waiting.all.inj (hw.symm.trans hw')
          split
          · rename_i hc
            have hmem : c ∈ s.childIds P := List.contains_iff_mem.mp hc
            split
            · rename_i st
              refine htaken.wake hp (hgoes rfl rfl (.queued rfl ?_))
              unfold History.Leads
              rw [hnext]
              exact ⟨rfl, .inr ⟨st, rfl, .inr ⟨c, hmem, ht ▸ hended⟩⟩⟩
            · rename_i r
              have hn' : ((got ++ [(c, r)]).map (·.1)).Nodup := by
                rw [List.map_append]
                refine List.nodup_append.mpr ⟨hn, List.pairwise_singleton _ _, ?_⟩
                rintro d hd e he rfl
                obtain ⟨g, hgm, rfl⟩ := List.mem_map.mp hd
                obtain rfl : g.1 = c := List.mem_singleton.mp he
                exact hunheard (hg g hgm).2.1
              have hg' : ∀ g ∈ got ++ [(c, r)], g.1 ∈ s.childIds P ∧
                  (a.taken place).Heard g.1 ∧ h.Ended P s.task g.1 (.ok g.2) := by
                intro g hgm
                rcases List.mem_append.mp hgm with hgm | hgm
                · obtain ⟨hgc, hgh, hge⟩ := hg g hgm
                  exact ⟨hgc, hkeep _ hgh, hge⟩
                · rw [List.mem_singleton.mp hgm]
                  exact ⟨hmem, hheard, ht ▸ hended⟩
              dsimp only
              split
              · rename_i hlen
                refine htaken.wake hp (hgoes rfl rfl (.queued rfl ?_))
                unfold History.Leads
                rw [hnext]
                refine ⟨rfl, .inl ⟨_, rfl, ?_⟩⟩
                exact forall₂_inOrder hn' (fun g hgm => (hg' g hgm).1) hlen
                  fun g hgm => (hg' g hgm).2.2
              · exact htaken.rewait hp (hgoes rfl rfl (.gathering rfl hnext hn' hg'))
                  (by rintro _ ⟨⟩) (hawake (by rw [hw]; rintro ⟨⟩))
          · exact htaken
    · rename_i hw
      obtain ⟨s, hs, ht, hrests, hgoes⟩ := hbegun (by rw [hw]; rintro ⟨⟩) (by rw [hw]; rintro ⟨⟩)
        (by rw [hw]; rintro ⟨⟩)
      have hleads : h.Leads P s p.body (.arrived [o]) := by
        have harrived : ∀ o' ∈ [o], ∃ c, h.Ended P s.task c o' := by
          intro o' ho'
          rw [List.mem_singleton.mp ho']
          exact ⟨c, ht ▸ hended⟩
        unfold History.Leads
        cases hrests with
        | queued hw' _ => cases hw.symm.trans hw'
        | asleep hw' _ => cases hw.symm.trans hw'
        | gathering hw' _ _ _ => cases hw.symm.trans hw'
        | collecting _ hnext =>
            rw [hnext]
            exact ⟨rfl, .inl ⟨_, rfl, harrived⟩⟩
        | awaiting _ hnext =>
            rw [hnext]
            exact ⟨rfl, .inl ⟨_, rfl, harrived⟩⟩
      exact htaken.wake hp (hgoes rfl rfl (.queued rfl hleads))
    · rename_i os hw
      obtain ⟨s, hs, ht, hrests, hgoes⟩ := hbegun (by rw [hw]; rintro ⟨⟩) (by rw [hw]; rintro ⟨⟩)
        (by rw [hw]; rintro ⟨⟩)
      have hleads : h.Leads P s p.body (.arrived (os ++ [o])) := by
        have harrived : (∀ o' ∈ os, ∃ c, h.Ended P s.task c o') →
            ∀ o' ∈ os ++ [o], ∃ c, h.Ended P s.task c o' := by
          intro hos o' ho'
          rcases List.mem_append.mp ho' with ho' | ho'
          · exact hos o' ho'
          · rw [List.mem_singleton.mp ho']
            exact ⟨c, ht ▸ hended⟩
        cases hrests with
        | asleep hw' _ => cases hw.symm.trans hw'
        | collecting hw' _ => cases hw.symm.trans hw'
        | awaiting hw' _ => cases hw.symm.trans hw'
        | gathering hw' _ _ _ => cases hw.symm.trans hw'
        | queued hw' hl =>
            obtain rfl := Waiting.queued.inj (hw.symm.trans hw')
            exact hl.arrived harrived
      exact htaken.rewait hp (hgoes rfl rfl (.queued rfl hleads))
        (fun _ _ => htaken.turn t (by rintro ⟨⟩) p _ hp hw) (hawake (by rw [hw]; rintro ⟨⟩))
    · exact htaken

/-! ## Timers -/

/-- Timers that go off for sleepers that they belong to keep the agenda to its history. -/
theorem Sound.goOff_all {ms : List (Timer ρ)} (ha : Sound P none h a)
    (hms : ∀ m ∈ ms, ∀ p, a.process? m.task = some p → p.waiting = .asleep →
      Rouses p.begun m.wake) : Sound P none h (ms.foldl goOff a) := by
  induction ms generalizing a with
  | nil => exact ha
  | cons m ms ih =>
      rw [List.foldl_cons]
      have hrest := fun n hn => hms n (List.mem_cons_of_mem _ hn)
      unfold goOff
      split
      · rename_i p hp
        split
        · rename_i hw
          have hrouses := hms m List.mem_cons_self p hp hw
          have hstands := ha.stands m.task nofun p hp
          refine ih (ha.wake hp ?_) fun n hn q hq hqw => ?_
          · unfold Stands at *
            split
            · rename_i hnone
              rw [hnone] at hstands
              rw [hstands.begun] at hrouses
              refine ⟨hstands.begun, .inl (congrArg _ hrouses), fun u hu => ?_, hstands.started⟩
              exact nomatch hw.symm.trans (hstands.child u hu).2
            · rename_i s hs
              rw [hs] at hstands
              obtain ⟨hbegun, haud, hrests⟩ := hstands
              rw [hbegun] at hrouses
              refine ⟨hbegun, haud, .queued rfl ?_⟩
              cases hrests with
              | queued hw' _ => exact nomatch hw.symm.trans hw'
              | collecting hw' _ => exact nomatch hw.symm.trans hw'
              | awaiting hw' _ => exact nomatch hw.symm.trans hw'
              | gathering hw' _ _ _ => exact nomatch hw.symm.trans hw'
              | asleep _ hnext =>
                  unfold History.Leads
                  rw [hnext]
                  exact ⟨rfl, hrouses.imp_right .inl⟩
          · rw [process?_wake] at hq
            split at hq
            · obtain ⟨r, -, rfl⟩ := Option.map_eq_some_iff.mp hq
              exact nomatch hqw
            · exact hrest n hn q hq hqw
        · exact ih ha hrest
      · exact ih ha hrest

/-- Time passes when nothing is ready. -/
theorem Sound.passTo (ha : Sound P none h a) (hready : a.ready = []) (time : Instant) :
    Sound P none h (a.passTo time) := by
  have hidle : ∀ {u p w}, a.process? u = some p → p.waiting ≠ .queued w := by
    intro u p w hp hw
    have hmem := ha.turn u nofun p w hp hw
    rw [hready] at hmem
    exact absurd hmem List.not_mem_nil
  have hlater : ∀ {ms : List (Timer ρ)}, (∀ m ∈ ms, m ∈ a.timers) →
      Sound P none h { a with now := time, timers := ms } := by
    intro ms hms
    refine ⟨ha.numbered, ha.coherent, ha.past, ha.living, ha.turn,
      fun m hm => ha.timed m (hms m hm), ha.once, ha.reported, fun u hu p hp => ?_⟩
    have hstands := ha.stands u hu p hp
    unfold Stands at *
    split
    · rename_i hnone
      rw [hnone] at hstands
      refine ⟨hstands.begun, hstands.waiting, hstands.child, fun v hv => ?_⟩
      exact absurd (hstands.child v hv).2 (hidle hp)
    · rename_i s hs
      rw [hs] at hstands
      exact ⟨hstands.1, hstands.2.1, hstands.2.2.frame (fun _ hd => hd)
        fun _ hc => ⟨hc.gone, hc.past, hc.told⟩⟩
  unfold Agenda.passTo
  rw [List.partition_eq_filter_filter]
  refine (hlater fun m hm => List.mem_of_mem_filter hm).goOff_all fun m hm p hp hw => ?_
  have hmem := List.mem_of_mem_filter (List.mem_mergeSort.mp hm)
  exact ((ha.timed m hmem).2.2 p hp).2

end BuildingAlerts.Agenda
