/-
Agendas that take things in turn.

An agenda on its own takes its ready items in their order, and nothing is asked of it from outside.
As long as its tasks book nothing, nobody is told to stop but by a task that it waits for, and whoever
listens to others is told of them in the order in which they have ended.
-/
import BuildingAlerts.Proofs.Agenda.Alone
import BuildingAlerts.Proofs.Agenda.Collecting
import BuildingAlerts.Proofs.Agenda.Keeping

set_option autoImplicit false

namespace BuildingAlerts

variable {σ β ρ : Type} {P : Program σ β ρ} {G W C : β → Prop}

/-- Work of a kind goes on with such work and starts only such. It books nothing, and whoever waits for
all others goes on with work of the kind `W`. -/
structure Plain (P : Program σ β ρ) (G W : β → Prop) : Prop where
  booksNothing : ∀ now s body w, G body → (P now s body w).appointments = []
  keeps : ∀ now s body w, G body → ∀ b, (P now s body w).next.body? = some b → G b
  children : ∀ now s body w, G body → ∀ c ∈ (P now s body w).next.children, G c
  waits : ∀ now s body w, G body → ∀ cs b, (P now s body w).next = .gather cs b → W b

/-- Such work stays among itself. -/
theorem Plain.closed (hP : Plain P G W) : Agenda.Closed P fun _ => G where
  booked := fun now s body w _ hG _ hm =>
    absurd (hP.booksNothing now s body w hG ▸ hm) List.not_mem_nil
  keeps := fun now s body w _ hG => hP.keeps now s body w hG
  children := fun now s body w _ hG c hc _ => hP.children now s body w hG c hc

/-- A task was not told to stop and waits for nothing before it begins. Only with work of the kind `W`
does it wait for all others, and only then can one of them stop it. -/
structure Process.Free (W : β → Prop) (p : Process β ρ) : Prop where
  unmarked : p.stopping = false
  prompt : p.delay = none
  unstopped : ∀ st, p.waiting = .queued (.stopped st) → p.begun = true ∧ W p.body
  alone : ∀ cs got, p.waiting = .all cs got → p.begun = true ∧ W p.body

/-- A report to a task, with the task that it is about. -/
def Item.reportTo? (t : TaskId) : Item ρ → Option (TaskId × Outcome ρ)
  | .run _ => none
  | .report parent child o => if parent = t then some (child, o) else none

/-- How a stint ends a task that another one has started. -/
def Stint.ending? (P : Program σ β ρ) (t : TaskId) (s : Stint σ β ρ) :
    Option (TaskId × Outcome ρ) :=
  match s.audience, (s.turn P).next with
  | .task u, .finish o => if u = t then some (s.task, o) else none
  | _, _ => none

/-- How the tasks that a task has started have ended, the earliest first. -/
def History.endings (P : Program σ β ρ) (t : TaskId) : History σ β ρ → List (TaskId × Outcome ρ)
  | [] => []
  | s :: h => endings P t h ++ (s.ending? P t).toList

theorem Stint.ending?_eq_some {t : TaskId} {s : Stint σ β ρ} {x : TaskId × Outcome ρ} :
    s.ending? P t = some x ↔ s.audience = .task t ∧ s.task = x.1 ∧ s.Ends P x.2 := by
  unfold ending? Ends
  constructor
  · intro h
    split at h
    · rename_i u o haudience hnext
      split at h
      · rename_i hu
        obtain rfl := Option.some.inj h
        exact ⟨hu ▸ haudience, rfl, hnext⟩
      · exact nomatch h
    · exact nomatch h
  · rintro ⟨haudience, htask, hends⟩
    rw [haudience, hends]
    show (if t = t then _ else _) = _
    rw [if_pos rfl, htask]

theorem History.mem_endings {t : TaskId} {h : History σ β ρ} {x : TaskId × Outcome ρ} :
    x ∈ h.endings P t ↔ ∃ s ∈ h, s.audience = .task t ∧ s.task = x.1 ∧ s.Ends P x.2 := by
  induction h with
  | nil => exact ⟨fun hx => absurd hx List.not_mem_nil, fun ⟨_, hs, _⟩ => absurd hs List.not_mem_nil⟩
  | cons s h ih =>
      unfold endings
      rw [List.mem_append, ih, Option.mem_toList, Stint.ending?_eq_some]
      constructor
      · rintro (⟨d, hd, hends⟩ | hends)
        · exact ⟨d, List.mem_cons_of_mem s hd, hends⟩
        · exact ⟨s, List.mem_cons_self, hends⟩
      · rintro ⟨d, hd, hends⟩
        rcases List.mem_cons.mp hd with rfl | hd
        · exact .inr hends
        · exact .inl ⟨d, hd, hends⟩

/-- What has ended before has ended. -/
theorem History.endings_prefix {t : TaskId} {h k : History σ β ρ} (hk : k <:+ h) :
    k.endings P t <+: h.endings P t := by
  induction h with
  | nil =>
      obtain rfl := List.suffix_nil.mp hk
      exact List.prefix_refl _
  | cons s h ih =>
      rcases List.suffix_cons_iff.mp hk with rfl | hk
      · exact List.prefix_refl _
      · exact (ih hk).trans (List.prefix_append _ _)

/-- A task ends once. -/
theorem History.Coherent.nodup_endings {t : TaskId} {h : History σ β ρ} (hh : h.Coherent P) :
    ((h.endings P t).map (·.1)).Nodup := by
  induction h with
  | nil => exact List.nodup_nil
  | cons s h ih =>
      have hrest := ih (hh.of_suffix (List.suffix_cons s h))
      unfold endings
      cases hs : s.ending? P t with
      | none =>
          rw [Option.toList_none, List.append_nil]
          exact hrest
      | some x =>
          rw [Option.toList_some, List.map_append]
          refine List.nodup_append.mpr ⟨hrest, List.pairwise_singleton _ _, fun y hy z hz => ?_⟩
          rintro rfl
          obtain ⟨g, hg, hgy⟩ := List.mem_map.mp hy
          obtain ⟨f, hf, -, hft, hends⟩ := mem_endings.mp hg
          obtain ⟨-, htask, -⟩ := Stint.ending?_eq_some.mp hs
          refine hh.ne_of_ends (List.suffix_refl _) hf hends ?_
          rw [hft, hgy, htask]
          exact List.mem_singleton.mp hz

namespace Agenda

variable {h : History σ β ρ} {a b start : Agenda σ β ρ} {t u : TaskId}

/-- All tasks do work of a kind, and are free. -/
def Undisturbed (G W : β → Prop) (a : Agenda σ β ρ) : Prop :=
  ∀ t p, a.process? t = some p → G p.body ∧ p.Free W

/-- The reports to a task that are ready, in their order. -/
def reportsTo (a : Agenda σ β ρ) (t : TaskId) : List (TaskId × Outcome ρ) :=
  a.ready.filterMap (Item.reportTo? t)

/-- What an agenda comes to that takes its ready items in their order, with the stints on the way
there. -/
inductive InTurn (P : Program σ β ρ) (start : Agenda σ β ρ) : History σ β ρ → Agenda σ β ρ → Prop where
  | idle : InTurn P start [] start
  | step {h : History σ β ρ} {a b : Agenda σ β ρ} (hr : InTurn P start h a)
      (hb : a.step P = some b) : InTurn P start ((a.stintAt? 0).toList ++ h) b
  /-- Nothing is ready, and time passes. -/
  | pass {h : History σ β ρ} {a : Agenda σ β ρ} {time : Instant} (hr : InTurn P start h a)
      (hready : a.ready = []) (htime : a.now ≤ time) : InTurn P start h (a.passTo time)

/-- Such an agenda runs, and nobody asks for anything. -/
theorem InTurn.run (hr : InTurn P start h a) : Run P (fun _ _ => False) start h a := by
  induction hr with
  | idle => exact .idle
  | step _ hb ih => exact .step ih hb
  | pass _ hready htime ih => exact .pass ih hready htime

/-- The agenda as it is before and after a stint. -/
theorem InTurn.around (hr : InTurn P start h a) {s : Stint σ β ρ} {e : History σ β ρ}
    (hs : s :: e <:+ h) : ∃ b c, InTurn P start e b ∧ b.stintAt? 0 = some s ∧
      b.step P = some c ∧ InTurn P start (s :: e) c := by
  induction hr with
  | idle => exact absurd (List.suffix_nil.mp hs) (List.cons_ne_nil s e)
  | @step h b c hr hb ih =>
      cases hd : b.stintAt? 0 with
      | none =>
          rw [hd] at hs
          exact ih hs
      | some d =>
          have hc := InTurn.step hr hb
          rw [hd] at hs hc
          rcases List.suffix_cons_iff.mp hs with heq | hs
          · obtain ⟨rfl, rfl⟩ := List.cons.inj heq
            exact ⟨b, c, hr, hd, hb, hc⟩
          · exact ih hs
  | pass _ _ _ ih => exact ih hs

/-! ## Turns of free tasks -/

/-- What a turn leads to where nobody is disturbed: nothing, or the task works and goes on as its
stint has it. -/
theorem Undisturbed.run (hP : Plain P G W) (ha : Undisturbed G W a) (hn : a.Numbered) (t : TaskId) :
    (a.stint? t = none ∧ a.run P t = a) ∨ ∃ p w s q, a.process? t = some p ∧
      p.waiting = .queued w ∧ a.stint? t = some s ∧ s.wake = w ∧ Stint.Of a t p s ∧
      (a.atWork t (s.turn P).state).process? t = some q ∧ q.body = p.body ∧
      q.audience = p.audience ∧ q.begun = true ∧ q.Free W ∧
      a.run P t = (a.atWork t (s.turn P).state).settleTurn t q (s.turn P).next := by
  cases runsTo P a t with
  | idle _ hs hr => exact .inl ⟨hs, hr⟩
  | dropped hp hb hw hst _ _ =>
      obtain ⟨-, hfree⟩ := ha t _ hp
      rcases hst with ⟨hstop, -⟩ | rfl
      · exact nomatch hfree.unmarked.symm.trans hstop
      · exact nomatch hb.symm.trans (hfree.unstopped _ hw).1
  | delayed hp _ _ hd _ _ => exact nomatch (ha t _ hp).2.prompt.symm.trans hd
  | @works p w v hp hw hv hb hs hr =>
      obtain ⟨hG, hfree⟩ := ha t p hp
      rw [hfree.unmarked, if_neg Bool.false_ne_true] at hv
      subst hv
      have hatWork : ∀ s, (a.atWork t s).process? t
          = some { p with waiting := .working, begun := true, stopping := false } := by
        intro s
        rw [process?_atWork, if_pos rfl, hp]
        rfl
      refine .inr ⟨p, v, _, _, hp, hw, hs, rfl, ⟨rfl, rfl, rfl, rfl, rfl, rfl, rfl⟩, hatWork _, rfl,
        rfl, rfl, ⟨rfl, hfree.prompt, nofun, nofun⟩, ?_⟩
      obtain ⟨q, hq, -, hwork⟩ := work_eq_settleTurn hn hp p.body v (P := P)
      rw [hP.booksNothing _ _ _ _ hG] at hq hwork
      obtain rfl := Option.some.inj ((hatWork _).symm.trans hq)
      exact hr.trans hwork

/-- A free task ends as it says. -/
theorem settleTurn_finish {p : Process β ρ} (hfree : p.Free W) (o : Outcome ρ) :
    a.settleTurn t p (.finish o) = a.finish t p o := by
  show a.finish t p (if p.stopping then _ else o) = _
  rw [if_neg (Bool.eq_false_iff.mp hfree.unmarked)]

/-- What a free task waits for when it stops working. -/
theorem process?_settleTurn_of_free (ha : a.Numbered) {p : Process β ρ}
    (hp : a.process? t = some p) (hfree : p.Free W) {next : Next β ρ} {body : β}
    (hbody : next.body? = some body) :
    ∃ w, (a.settleTurn t p next).process? t = some { p with body := body, waiting := w } ∧
      ((∃ cs ids, next = .gather cs body ∧ w = .all ids []) ∨ w = .queued .resumed ∨ w = .asleep ∨
        w = .any) ∧
      ((∃ cs b, next = .collect cs b) ∨ (∃ b, next = .await b) → w = .any) := by
  have hpark : ∀ {c : Agenda σ β ρ} (w : Waiting ρ), c.process? t = some p →
      (c.park t body w).process? t = some { p with body := body, waiting := w } := by
    intro c w hc
    rw [process?_park, if_pos rfl, hc]
    rfl
  have hgo : ¬ p.stopping = true := Bool.eq_false_iff.mp hfree.unmarked
  unfold settleTurn
  cases next with
  | finish o => exact nomatch hbody
  | pause b =>
      obtain rfl := Option.some.inj hbody
      exact ⟨_, hpark (.queued .resumed) hp, .inr (.inl rfl), fun h => by
        rcases h with ⟨_, _, h⟩ | ⟨_, h⟩
        · exact nomatch h
        · exact nomatch h⟩
  | sleep d l b =>
      obtain rfl := Option.some.inj hbody
      obtain ⟨v, hv, hprocess, -, -⟩ := lay_parks a t b d l .resumed
      dsimp only
      rw [if_neg fun h => hgo (Bool.and_eq_true_iff.mp h).1, hprocess]
      refine ⟨v, hpark v hp, .inr (hv.imp_right .inl), fun h => ?_⟩
      rcases h with ⟨_, _, h⟩ | ⟨_, h⟩
      · exact nomatch h
      · exact nomatch h
  | gather cs b =>
      obtain rfl := Option.some.inj hbody
      dsimp only
      rw [if_neg hgo]
      refine ⟨_, hpark (.all _ []) ?_, .inl ⟨cs, _, rfl, rfl⟩, fun h => ?_⟩
      · rw [(launched_launchAll t cs ha).process, if_pos (ha hp)]
        exact hp
      · rcases h with ⟨_, _, h⟩ | ⟨_, h⟩
        · exact nomatch h
        · exact nomatch h
  | collect cs b =>
      obtain rfl := Option.some.inj hbody
      dsimp only
      rw [if_neg hgo]
      refine ⟨.any, hpark .any ?_, .inr (.inr (.inr rfl)), fun _ => rfl⟩
      rw [(launched_launchAll t cs ha).process, if_pos (ha hp)]
      exact hp
  | await b =>
      obtain rfl := Option.some.inj hbody
      dsimp only
      rw [if_neg hgo]
      exact ⟨.any, hpark .any hp, .inr (.inr (.inr rfl)), fun _ => rfl⟩

/-- A turn disturbs nobody. -/
theorem Undisturbed.after_run (hP : Plain P G W) (ha : Undisturbed G W a) (hn : a.Numbered)
    (t : TaskId) : Undisturbed G W (a.run P t) := by
  rcases ha.run hP hn t with ⟨-, hr⟩ | ⟨p, w, s, q, hp, -, -, -, hof, hq, hbody, -, hbegun, hfree, hr⟩
  · rw [hr]
    exact ha
  · have hnumbered : (a.atWork t (s.turn P).state).Numbered := hn.atWork _
    have hG : G s.body := hof.body ▸ (ha t p hp).1
    have hsettles := settles hnumbered hq hfree.unmarked (s.turn P).next
    rw [hr]
    intro u r hu
    by_cases hut : u = t
    · subst hut
      cases hnext : (s.turn P).next.body? with
      | none =>
          obtain ⟨w', hself, -⟩ := hsettles.self
          rw [hnext, hu] at hself
          exact nomatch hself
      | some body =>
          obtain ⟨w', hself, hw', -⟩ := process?_settleTurn_of_free hnumbered hq hfree hnext
          obtain rfl := Option.some.inj (hself.symm.trans hu)
          refine ⟨hP.keeps _ _ _ _ hG body hnext, hfree.unmarked, hfree.prompt, fun st h => ?_,
            fun cs got h => ?_⟩
          · rcases hw' with ⟨_, _, -, rfl⟩ | rfl | rfl | rfl
            · exact nomatch h
            · exact nomatch h
            · exact nomatch h
            · exact nomatch h
          · rcases hw' with ⟨bs, _, hgather, rfl⟩ | rfl | rfl | rfl
            · exact ⟨hbegun, hP.waits _ _ _ _ hG bs body hgather⟩
            · exact nomatch h
            · exact nomatch h
            · exact nomatch h
    · rw [hsettles.others hut] at hu
      split at hu
      · rw [process?_atWork, if_neg hut] at hu
        exact ha u r hu
      · obtain ⟨c, hc, rfl⟩ := Option.map_eq_some_iff.mp hu
        exact ⟨hP.children _ _ _ _ hG c (List.mem_of_getElem? hc), rfl, rfl, nofun, nofun⟩

/-- A report disturbs nobody. -/
theorem Undisturbed.report (ha : Undisturbed G W a) (child : TaskId) (o : Outcome ρ) :
    Undisturbed G W (a.report t child o) := by
  have hchange : ∀ {b : Agenda σ β ρ} {v : Waiting ρ} {p : Process β ρ}, a.process? t = some p →
      (∀ st, v = .queued (.stopped st) → p.begun = true ∧ W p.body) →
      (∀ cs got, v = .all cs got → p.begun = true ∧ W p.body) →
      (∀ u, b.process? u = if u = t then (a.process? u).map fun p =>
        { p with waiting := v } else a.process? u) → Undisturbed G W b := by
    intro b v p hp hstop hall hb u q hq
    rw [hb] at hq
    split at hq
    · rename_i hu
      rw [hu, hp] at hq
      obtain rfl := Option.some.inj hq
      obtain ⟨hG, hfree⟩ := ha t p hp
      exact ⟨hG, hfree.unmarked, hfree.prompt, hstop, hall⟩
    · exact ha u q hq
  unfold Agenda.report
  split
  · exact ha
  · rename_i p hp
    split
    · rename_i cs got hw
      have hwaits := (ha t p hp).2.alone cs got hw
      split
      · split
        · exact hchange hp (fun _ _ => hwaits) (fun _ _ _ => hwaits) fun u => process?_wake a t u _
        · dsimp only
          split
          · exact hchange hp (fun _ _ => hwaits) (fun _ _ _ => hwaits) fun u => process?_wake a t u _
          · exact hchange hp (fun _ _ => hwaits) (fun _ _ _ => hwaits) fun u => process?_adjust a t u _
      · exact ha
    · refine hchange (v := .queued (.arrived [o])) hp ?_ ?_ fun u => process?_wake a t u _
      · intro st hv
        cases hv
      · intro cs got hv
        cases hv
    · refine hchange (v := .queued (.arrived _)) hp ?_ ?_ fun u => process?_adjust a t u _
      · intro st hv
        cases hv
      · intro cs got hv
        cases hv
    · exact ha

/-- Sleepers wake up for the reason of one of their timers, and nothing else happens to a task. -/
theorem process?_of_passTo (time : Instant) {q : Process β ρ}
    (hq : (a.passTo time).process? u = some q) : ∃ p, a.process? u = some p ∧
      (q = p ∨ ∃ m ∈ a.timers, m.task = u ∧ q = { p with waiting := .queued m.wake }) := by
  have hall : ∀ (ms : List (Timer ρ)) (b : Agenda σ β ρ) {q : Process β ρ},
      (ms.foldl goOff b).process? u = some q → ∃ p, b.process? u = some p ∧
        (q = p ∨ ∃ m ∈ ms, m.task = u ∧ q = { p with waiting := .queued m.wake }) := by
    intro ms
    induction ms with
    | nil => exact fun b q hq => ⟨q, hq, .inl rfl⟩
    | cons m ms ih =>
        intro b q hq
        rw [List.foldl_cons] at hq
        obtain ⟨p, hp, hpq⟩ := ih _ hq
        have hlater : ∀ {r : Process β ρ}, (∃ m ∈ ms, m.task = u ∧
            q = { r with waiting := .queued m.wake }) → ∃ n ∈ m :: ms, n.task = u ∧
              q = { r with waiting := .queued n.wake } :=
          fun ⟨n, hn, h⟩ => ⟨n, List.mem_cons_of_mem m hn, h⟩
        unfold goOff at hp
        split at hp
        · split at hp
          · rw [process?_wake] at hp
            split at hp
            · rename_i hu
              obtain ⟨r, hr, rfl⟩ := Option.map_eq_some_iff.mp hp
              refine ⟨r, hr, .inr ?_⟩
              rcases hpq with rfl | ⟨n, hn, hnu, rfl⟩
              · exact ⟨m, List.mem_cons_self, hu.symm, rfl⟩
              · exact ⟨n, List.mem_cons_of_mem m hn, hnu, rfl⟩
            · exact ⟨p, hp, hpq.imp_right hlater⟩
          · exact ⟨p, hp, hpq.imp_right hlater⟩
        · exact ⟨p, hp, hpq.imp_right hlater⟩
  unfold passTo at hq
  rw [List.partition_eq_filter_filter] at hq
  obtain ⟨p, hp, hpq⟩ := hall _ _ hq
  exact ⟨p, hp, hpq.imp_right fun ⟨m, hm, hrest⟩ =>
    ⟨m, List.mem_of_mem_filter (List.mem_mergeSort.mp hm), hrest⟩⟩

/-- Time that passes disturbs nobody. -/
theorem Undisturbed.passTo (ha : Undisturbed G W a) (hs : Sound P none h a) (time : Instant) :
    Undisturbed G W (a.passTo time) := by
  intro u q hq
  obtain ⟨p, hp, rfl | ⟨m, hm, rfl, rfl⟩⟩ := process?_of_passTo time hq
  · exact ha u q hp
  · obtain ⟨hG, hfree⟩ := ha m.task p hp
    refine ⟨hG, hfree.unmarked, hfree.prompt, fun st hst => ?_, nofun⟩
    have hrouses := ((hs.timed m hm).2.2 p hp).2
    rw [show m.wake = .stopped st from Waiting.queued.inj hst] at hrouses
    unfold Rouses at hrouses
    split at hrouses
    · exact nomatch hrouses
    · rcases hrouses with h | h
      · exact nomatch h
      · exact nomatch h

/-- **Nobody is disturbed** where nothing is asked for. -/
theorem Run.undisturbed (hP : Plain P G W) (hsound : Sound P none [] start)
    (hstart : Undisturbed G W start) (hr : Run P (fun _ _ => False) start h a) : Undisturbed G W a := by
  induction hr with
  | idle => exact hstart
  | @step h a b place hr hb ih =>
      have hn : a.Numbered := (hr.sound hsound fun _ h => h.elim).numbered
      unfold stepAt at hb
      obtain ⟨i, -, rfl⟩ := Option.map_eq_some_iff.mp hb
      cases i with
      | run t => exact Undisturbed.after_run (a := Agenda.taken _ place) hP ih hn t
      | report t c o => exact Undisturbed.report (a := Agenda.taken _ place) ih c o
  | pass hr _ _ ih => exact ih.passTo (hr.sound hsound fun _ h => h.elim) _
  | serve _ hb _ => exact hb.elim

/-- Whoever goes on because he was stopped has waited for others. -/
theorem Run.unstopped (hP : Plain P G W) (hsound : Sound P none [] start)
    (hstart : Undisturbed G W start) (hr : Run P (fun _ _ => False) start h a) {s : Stint σ β ρ}
    (hs : s ∈ h) {st : Stop} (hwake : s.wake = .stopped st) : W s.body := by
  obtain ⟨e, he⟩ := History.exists_suffix_of_mem hs
  obtain ⟨b, c, place, hb, hstint, -⟩ := hr.before he
  obtain ⟨-, hstint, -⟩ := stintAt?_eq_some hstint
  have hn : b.Numbered := (hb.sound hsound fun _ h => h.elim).numbered
  have hundisturbed := hb.undisturbed hP hsound hstart
  rcases hundisturbed.run hP hn s.task with
    ⟨hno, -⟩ | ⟨p, w, d, q, hp, hw, hd, hdw, hof, -⟩
  · exact nomatch hstint.symm.trans hno
  · obtain rfl := Option.some.inj (hstint.symm.trans hd)
    rw [hof.body]
    exact ((hundisturbed _ p hp).2.unstopped st (hw.trans (congrArg _ (hdw.symm.trans hwake)))).2

/-! ## The order of reports -/

theorem reportsTo_of_adds (hb : a.Adds b) : b.reportsTo t = a.reportsTo t := by
  obtain ⟨ts, hts⟩ := hb
  have hnone : (ts.map .run : List (Item ρ)).filterMap (Item.reportTo? t) = [] := by
    rw [List.filterMap_map]
    exact List.filterMap_eq_nil_iff.mpr fun _ _ => rfl
  unfold reportsTo
  rw [hts, List.filterMap_append, hnone, List.append_nil]

/-- The item that is taken is the first one. -/
theorem reportsTo_eq_taken {i : Item ρ} (hi : a.ready[0]? = some i) (t : TaskId) :
    a.reportsTo t = (i.reportTo? t).toList ++ (a.taken 0).reportsTo t := by
  unfold reportsTo taken
  cases hready : a.ready with
  | nil =>
      rw [hready] at hi
      exact nomatch hi
  | cons j rest =>
      rw [hready] at hi
      obtain rfl := Option.some.inj hi
      show List.filterMap _ (j :: rest) = _ ++ List.filterMap _ rest
      rw [List.filterMap_cons]
      cases j.reportTo? t <;> rfl

/-- A turn adds a report if it ends the task. -/
theorem Undisturbed.reportsTo_run (hP : Plain P G W) (ha : Undisturbed G W a) (hn : a.Numbered)
    (t u : TaskId) : (a.run P t).reportsTo u
      = a.reportsTo u ++ ((a.stint? t).bind (·.ending? P u)).toList := by
  rcases ha.run hP hn t with ⟨hs, hr⟩ | ⟨p, w, s, q, -, -, hs, -, hof, -, -, hqa, -, hfree, hr⟩
  · rw [hr, hs]
    exact (List.append_nil _).symm
  · have hnumbered : (a.atWork t (s.turn P).state).Numbered := hn.atWork _
    have hsame : (a.atWork t (s.turn P).state).reportsTo u = a.reportsTo u := rfl
    rw [hr, hs, Option.bind_some]
    by_cases hends : ∃ o, (s.turn P).next = .finish o
    · obtain ⟨o, ho⟩ := hends
      have hready := ready_finish (a.atWork t (s.turn P).state) t q o
      rw [ho, settleTurn_finish hfree]
      unfold reportsTo at hsame ⊢
      rw [hready, List.filterMap_append, hsame, hqa, ← hof.audience]
      congr 1
      unfold Stint.ending?
      rw [ho]
      cases s.audience with
      | task v =>
          show (if v = u then _ else _ : Option _).toList = (if v = u then _ else _ : Option _).toList
          rw [hof.task]
      | _ => rfl
    · have hno : ∀ o, (s.turn P).next ≠ .finish o := fun o ho => hends ⟨o, ho⟩
      have hnone : s.ending? P u = none := by
        cases hx : s.ending? P u with
        | none => rfl
        | some x => exact absurd (Stint.ending?_eq_some.mp hx).2.2 (hno x.2)
      rw [hnone, reportsTo_of_adds (adds_settleTurn hnumbered q hno), hsame]
      exact (List.append_nil _).symm

/-- The answer to whoever has asked for a task is how it has ended. -/
theorem Undisturbed.answer_run (hP : Plain P G W) (ha : Undisturbed G W a) (hn : a.Numbered)
    (t : TaskId) : (a.run P t).answer = match a.stint? t with
      | some s => match s.audience, (s.turn P).next with
        | .caller, .finish o => some o
        | _, _ => a.answer
      | none => a.answer := by
  have hlaunch : ∀ (bodies : List β) (b : Agenda σ β ρ), (b.launchAll t bodies).answer = b.answer := by
    intro bodies
    induction bodies with
    | nil => exact fun _ => rfl
    | cons c bodies ih => exact fun b => ih _
  rcases ha.run hP hn t with ⟨hs, hr⟩ | ⟨p, w, s, q, -, -, hs, -, hof, -, -, hqa, -, hfree, hr⟩
  · rw [hr, hs]
  · have hgo : ¬ q.stopping = true := Bool.eq_false_iff.mp hfree.unmarked
    rw [hr, hs]
    show _ = match s.audience, (s.turn P).next with
      | .caller, .finish o => some o
      | _, _ => a.answer
    rw [hof.audience, ← hqa]
    generalize (s.turn P).next = next
    cases next with
    | finish o =>
        rw [settleTurn_finish hfree]
        unfold Agenda.finish
        cases q.key <;> cases q.audience
        all_goals rfl
    | gather cs b | collect cs b =>
        unfold settleTurn
        dsimp only
        rw [if_neg hgo]
        cases q.audience
        all_goals exact hlaunch cs _
    | await b =>
        unfold settleTurn
        dsimp only
        rw [if_neg hgo]
        cases q.audience
        all_goals rfl
    | pause b => cases q.audience <;> rfl
    | sleep d l b =>
        unfold settleTurn
        dsimp only
        rw [if_neg fun h => hgo (Bool.and_eq_true_iff.mp h).1]
        unfold lay
        split
        · cases q.audience <;> rfl
        · cases q.audience <;> rfl

/-- Nobody is answered while time passes. -/
theorem answer_passTo (a : Agenda σ β ρ) (time : Instant) : (a.passTo time).answer = a.answer :=
  foldl_goOff (f := (·.answer)) (fun _ _ _ => rfl) _ _

/-- **The answer** is how the one task has ended that somebody waits for from outside. -/
theorem Run.answer_of_ends (hP : Plain P G W) (hsound : Sound P none [] start)
    (hstart : Undisturbed G W start) (hr : Run P (fun _ _ => False) start h a)
    (hone : ∀ s ∈ h, s.audience = .caller → s.task = t) {d : Stint σ β ρ} (hd : d ∈ h)
    (haudience : d.audience = .caller) {o : Outcome ρ} (hends : d.Ends P o) : a.answer = some o := by
  induction hr with
  | idle => exact absurd hd List.not_mem_nil
  | @step h a b place hr hb ih =>
      have hs := hr.sound hsound fun _ h => h.elim
      have ha := hr.undisturbed hP hsound hstart
      have hcoherent := ((Run.step hr hb).sound hsound fun _ h => h.elim).coherent
      unfold stepAt at hb
      obtain ⟨i, hi, rfl⟩ := Option.map_eq_some_iff.mp hb
      unfold stintAt? at hone hd hcoherent
      rw [hi] at hone hd hcoherent
      have hold : d ∈ h → a.answer = some o := fun hd =>
        ih (fun s hs => hone s (List.mem_append_right _ hs)) hd
      cases i with
      | report u c y =>
          have hsame : ((a.taken place).report u c y).answer = a.answer := by
            unfold Agenda.report
            split
            · rfl
            · split
              · split
                · split
                  · rfl
                  · dsimp only
                    split
                    · rfl
                    · rfl
                · rfl
              · rfl
              · rfl
              · rfl
          exact hsame.trans (hold hd)
      | run u =>
          have hanswer := Undisturbed.answer_run (a := a.taken place) hP ha hs.numbered u
          show ((a.taken place).run P u).answer = some o
          rw [hanswer]
          replace hone : ∀ s ∈ (a.stint? u).toList ++ h, s.audience = .caller → s.task = t := hone
          replace hd : d ∈ (a.stint? u).toList ++ h := hd
          replace hcoherent : History.Coherent P ((a.stint? u).toList ++ h) := hcoherent
          show (match a.stint? u with | some s => _ | none => a.answer) = some o
          cases hstint : a.stint? u with
          | none =>
              rw [hstint] at hd
              exact hold hd
          | some s =>
              rw [hstint] at hone hd hcoherent
              dsimp only
              split
              · rename_i y hcaller hnext
                have htask := (hone s List.mem_cons_self hcaller).trans
                  (hone d hd haudience).symm
                obtain rfl := hcoherent.ends_unique List.mem_cons_self hd hnext hends htask
                exact congrArg some (Next.finish.inj (hnext.symm.trans hends))
              · rename_i hno
                refine hold ((List.mem_cons.mp hd).resolve_left fun heq => ?_)
                exact hno o (heq ▸ haudience) (heq ▸ hends)
  | pass _ _ _ ih => exact (answer_passTo _ _).trans (ih hone hd)
  | serve _ hb _ => exact hb.elim

/-- What is reported to a task is how tasks have ended that it has started. -/
theorem InTurn.reported (hP : Plain P G W) (hsound : Sound P none [] start)
    (hstart : Undisturbed G W start) (hnone : start.ready.filterMap (Item.reportTo? t) = [])
    (hr : InTurn P start h a) : ∀ x ∈ a.reportsTo t, x ∈ h.endings P t := by
  induction hr with
  | idle =>
      intro x hx
      unfold reportsTo at hx
      rw [hnone] at hx
      exact absurd hx List.not_mem_nil
  | @step h a b hr hb ih =>
      have hn : a.Numbered := (hr.run.sound hsound fun _ h => h.elim).numbered
      have ha := hr.run.undisturbed hP hsound hstart
      unfold Agenda.step stepAt at hb
      obtain ⟨i, hi, rfl⟩ := Option.map_eq_some_iff.mp hb
      have htaken : ∀ x ∈ (a.taken 0).reportsTo t, x ∈ a.reportsTo t := fun x hx =>
        List.mem_filterMap.mpr ((List.mem_filterMap.mp hx).imp fun j hj =>
          ⟨List.mem_of_mem_eraseIdx hj.1, hj.2⟩)
      unfold stintAt?
      rw [hi]
      intro x hx
      cases i with
      | run u =>
          have hx : x ∈ ((a.taken 0).run P u).reportsTo t := hx
          rw [Undisturbed.reportsTo_run (a := a.taken 0) hP ha hn] at hx
          show x ∈ History.endings P t ((a.stint? u).toList ++ h)
          rcases List.mem_append.mp hx with hx | hx
          · obtain ⟨s, hs, hrest⟩ := History.mem_endings.mp (ih x (htaken x hx))
            exact History.mem_endings.mpr ⟨s, List.mem_append_right _ hs, hrest⟩
          · obtain ⟨s, hs, hends⟩ := Option.bind_eq_some_iff.mp (Option.mem_toList.mp hx)
            exact History.mem_endings.mpr ⟨s, List.mem_append_left _ (Option.mem_toList.mpr hs),
              Stint.ending?_eq_some.mp hends⟩
      | report u c o =>
          have hx : x ∈ ((a.taken 0).report u c o).reportsTo t := hx
          rw [reportsTo_of_adds (adds_report _ u c o)] at hx
          exact ih x (htaken x hx)
  | @pass h a time hr hready htime ih =>
      intro x hx
      rw [reportsTo_of_adds (process?_passTo a time).1] at hx
      exact ih x hx

/-- How a task that listens waits, and what it was told, is told and is still to be told. -/
structure Hearkens (P : Program σ β ρ) (h : History σ β ρ) (a : Agenda σ β ρ) (t : TaskId)
    (p : Process β ρ) : Prop where
  waits : p.waiting = .any ∨ ∃ os, p.waiting = .queued (.arrived os)
  order : h.heard t ++ p.waiting.outcomes ++ (a.reportsTo t).map (·.2) = (h.endings P t).map (·.2)

/-- **Whoever listens is told of the others in the order in which they have ended.** -/
theorem InTurn.hearkens (hP : Plain P G W) (hC : Listeners P G C) (hsound : Sound P none [] start)
    (hstart : Undisturbed G W start)
    (hnone : ∀ t, start.ready.filterMap (Item.reportTo? t) = [])
    (hfirst : ∀ {h a}, InTurn P start h a → ∀ s ∈ h, s.Listens P → s.first = true)
    (hGh : ∀ {h a}, InTurn P start h a → ∀ s ∈ h, G s.body)
    (hr : InTurn P start h a) : ∀ s ∈ h, s.Listens P → ∀ p, a.process? s.task = some p →
      Hearkens P h a s.task p := by
  induction hr with
  | idle => exact fun s hs => absurd hs List.not_mem_nil
  | @step h a b hr hb ih =>
      have hs := hr.run.sound hsound fun _ h => h.elim
      have ha := hr.run.undisturbed hP hsound hstart
      have hnow := InTurn.step hr hb
      have hsnow := hnow.run.sound hsound fun _ h => h.elim
      unfold Agenda.step stepAt at hb
      obtain ⟨i, hi, rfl⟩ := Option.map_eq_some_iff.mp hb
      unfold stintAt? at hnow hsnow ⊢
      rw [hi] at hnow hsnow ⊢
      cases i with
      | run u =>
          have hreports : ∀ t, ((a.taken 0).run P u).reportsTo t
              = a.reportsTo t ++ ((a.stint? u).bind (·.ending? P t)).toList := fun t => by
            rw [Undisturbed.reportsTo_run (a := a.taken 0) hP ha hs.numbered, reportsTo_eq_taken hi]
            rfl
          replace hnow : InTurn P start ((a.stint? u).toList ++ h) ((a.taken 0).run P u) := hnow
          replace hsnow : Sound P none ((a.stint? u).toList ++ h) ((a.taken 0).run P u) := hsnow
          intro s hsm hlistens q hq
          replace hsm : s ∈ (a.stint? u).toList ++ h := hsm
          replace hq : ((a.taken 0).run P u).process? s.task = some q := hq
          show Hearkens P ((a.stint? u).toList ++ h) ((a.taken 0).run P u) s.task q
          rcases Undisturbed.run (a := a.taken 0) hP ha hs.numbered u with
            ⟨hno, hrun⟩ | ⟨p, w, d, r, hp, hw, hd, hwake, hof, hr', hbody, -, -, hfree, hrun⟩
          · have hno : a.stint? u = none := hno
            rw [hno] at hsm
            rw [hrun] at hq
            obtain ⟨hwaits, horder⟩ := ih s hsm hlistens q hq
            refine ⟨hwaits, ?_⟩
            rw [hreports, hno]
            exact (List.append_nil (a.reportsTo s.task)).symm ▸ horder
          · have hd : a.stint? u = some d := hd
            rw [hd] at hsm hnow hsnow
            replace hsnow : Sound P none (d :: h) ((a.taken 0).run P u) := hsnow
            have hGd : G d.body := hGh hnow d List.mem_cons_self
            have hnumbered : ((a.taken 0).atWork u (d.turn P).state).Numbered :=
              Numbered.atWork (a := a.taken 0) hs.numbered _
            have hsettles := settles hnumbered hr' hfree.unmarked (d.turn P).next
            have hendings : History.endings P s.task (d :: h)
              = h.endings P s.task ++ (d.ending? P s.task).toList := rfl
            rw [hrun] at hq
            by_cases hu : s.task = u
            · subst hu
              -- it waits for others now
              obtain ⟨body, hnext⟩ : ∃ body, (d.turn P).next.body? = some body := by
                obtain ⟨w', hself, -⟩ := hsettles.self
                rw [hq] at hself
                cases hb : (d.turn P).next.body? with
                | none => rw [hb] at hself; exact nomatch hself
                | some body => exact ⟨body, rfl⟩
              have hnoend : d.ending? P s.task = none := by
                cases hx : d.ending? P s.task with
                | none => rfl
                | some x =>
                    have hends := (Stint.ending?_eq_some.mp hx).2.2
                    rw [show (d.turn P).next = .finish x.2 from hends] at hnext
                    exact nomatch hnext
              obtain ⟨w', hself, -, hany⟩ := process?_settleTurn_of_free hnumbered hr' hfree hnext
              rw [hq] at hself
              have hrest : (∃ cs b, (d.turn P).next = .collect cs b) ∨
                  (∃ b, (d.turn P).next = .await b) → h.heard s.task ++ d.wake.outcomes
                    ++ (a.reportsTo s.task).map (·.2) = (h.endings P s.task).map (·.2) →
                  Hearkens P (d :: h) ((a.taken 0).run P s.task) s.task q := by
                intro hlisten horder
                have hqany : q.waiting = .any := by
                  rw [Option.some.inj hself]
                  exact hany hlisten
                refine ⟨.inl hqany, ?_⟩
                rw [hreports, hd, Option.bind_some, hendings, hnoend,
                  History.heard_cons_self hof.task, hqany]
                show _ ++ [] ++ List.map _ (_ ++ []) = List.map _ (_ ++ [])
                rw [List.append_nil, List.append_nil, List.append_nil]
                exact horder
              rw [hd]
              rcases List.mem_cons.mp hsm with rfl | hsh
              · -- it has just begun to listen, and nobody has ended that it has started
                have hnostint := hsnow.coherent.ne_of_first (List.suffix_refl _)
                  (hfirst hnow s List.mem_cons_self hlistens)
                have hfollows := hsnow.coherent _ _ (List.suffix_refl _)
                unfold History.Follows at hfollows
                rw [History.latest_eq_none.mpr hnostint] at hfollows
                have hnoending : h.endings P s.task = [] := by
                  refine List.eq_nil_iff_forall_not_mem.mpr fun x hx => ?_
                  obtain ⟨f, hf, hfa, -⟩ := History.mem_endings.mp hx
                  obtain ⟨e, he, het⟩ := hs.coherent.exists_parent hf hfa
                  exact hnostint e he het
                have hnoreport : a.reportsTo s.task = [] := by
                  refine List.eq_nil_iff_forall_not_mem.mpr fun x hx => ?_
                  have hmem := hr.reported hP hsound hstart (hnone s.task) x hx
                  rw [hnoending] at hmem
                  exact absurd hmem List.not_mem_nil
                obtain ⟨cs, b, hcollect⟩ := id hlistens
                refine hrest (.inl ⟨cs, b, hcollect⟩) ?_
                rw [hnoending, hnoreport, hfollows.2.1, History.heard_eq_nil hnostint]
                rfl
              · -- it listens on
                obtain ⟨hwaits, horder⟩ := ih s hsh hlistens p hp
                have hC' := hs.listener hC (hGh hr) (hfirst hr) hsh hlistens hp
                obtain ⟨-, hawait, -⟩ := hC.goesOn d.now d.state d.body d.wake hGd
                  (hof.body ▸ hC') body hnext
                refine hrest (.inr ⟨body, hawait⟩) ?_
                rw [hw] at horder
                rw [hwake]
                exact horder
            · -- another one has its turn
              have hsh : s ∈ h := (List.mem_cons.mp hsm).resolve_left fun heq =>
                hu (heq ▸ hof.task)
              rw [hsettles.others hu] at hq
              have hq : (if s.task < a.started then _ else _) = some q := hq
              rw [if_pos (hs.past s hsh), process?_atWork, if_neg hu] at hq
              obtain ⟨hwaits, horder⟩ := ih s hsh hlistens q hq
              refine ⟨hwaits, ?_⟩
              rw [hreports, hd, Option.bind_some]
              show History.heard s.task (d :: h) ++ _ ++ _ = (History.endings P s.task (d :: h)).map _
              rw [hendings, History.heard_cons_of_ne fun h => hu (h.symm.trans hof.task),
                List.map_append, List.map_append, ← horder, ← List.append_assoc]
      | report u c o =>
          intro s hsm hlistens q hq
          have hq : ((a.taken 0).report u c o).process? s.task = some q := hq
          show Hearkens P h ((a.taken 0).report u c o) s.task q
          have htaken := reportsTo_eq_taken hi s.task
          by_cases hu : s.task = u
          · cases hp : a.process? s.task with
            | none => exact nomatch hq.symm.trans ((heeds_report (a.taken 0) u c o).gone (hs.past s hsm) hp)
            | some p =>
                obtain ⟨hwaits, horder⟩ := ih s hsm hlistens p hp
                rw [htaken] at horder
                have hfront : (Item.report u c o).reportTo? s.task = some (c, o) := if_pos hu.symm
                rw [hfront] at horder
                have hnow : q.waiting = .queued (.arrived (p.waiting.outcomes ++ [o])) := by
                  unfold Agenda.report at hq
                  rw [← hu, show (a.taken 0).process? s.task = some p from hp] at hq
                  dsimp only at hq
                  rcases hwaits with hw | ⟨os, hw⟩
                  · rw [hw] at hq ⊢
                    dsimp only at hq
                    rw [process?_wake, if_pos rfl, show (a.taken 0).process? s.task = some p from hp]
                      at hq
                    rw [← Option.some.inj hq]
                    rfl
                  · rw [hw] at hq ⊢
                    dsimp only at hq
                    rw [process?_adjust_self, show (a.taken 0).process? s.task = some p from hp] at hq
                    rw [← Option.some.inj hq]
                    rfl
                refine ⟨.inr ⟨_, hnow⟩, ?_⟩
                rw [reportsTo_of_adds (adds_report _ u c o), hnow, ← horder]
                show _ ++ (_ ++ [o]) ++ _ = _ ++ _ ++ (o :: _)
                rw [← List.append_assoc, List.append_assoc]
                rfl
          · rw [(alone_report (a := a.taken 0) c o).others s.task hu] at hq
            obtain ⟨hwaits, horder⟩ := ih s hsm hlistens q hq
            have hfront : (Item.report u c o).reportTo? s.task = none := if_neg (Ne.symm hu)
            rw [htaken, hfront] at horder
            refine ⟨hwaits, ?_⟩
            rw [reportsTo_of_adds (adds_report _ u c o)]
            exact horder
  | @pass h a time hr hready htime ih =>
      intro s hs hlistens q hq
      obtain ⟨p, hp, rfl | ⟨m, hm, hmt, rfl⟩⟩ := process?_of_passTo time hq
      · obtain ⟨hwaits, horder⟩ := ih s hs hlistens q hp
        refine ⟨hwaits, ?_⟩
        rw [reportsTo_of_adds (process?_passTo a time).1]
        exact horder
      · have hsleeps := ((hr.run.sound hsound fun _ h => h.elim).timed m hm).2.2 p (hmt ▸ hp)
        rcases (ih s hs hlistens p hp).waits with hw | ⟨os, hw⟩
        · exact nomatch hw.symm.trans hsleeps.1
        · exact nomatch hw.symm.trans hsleeps.1

end Agenda

end BuildingAlerts
