/-
Whoever listens hears of everyone.

A task may start others and listen to them: it goes on whenever some of them have ended, and is
told of their ends in the order in which they are reported. What such a task was told so far are
the ends of tasks that it started, each told once, and whoever it was not told of is under way or
is to be reported. So a task that listens on never misses one, unless it is told to stop.
-/
import BuildingAlerts.Proofs.Agenda.Awaiting
import BuildingAlerts.Proofs.Agenda.Marks

set_option autoImplicit false

namespace BuildingAlerts

variable {σ β ρ : Type} {P : Program σ β ρ} {G F C : β → Prop}

/-- What a task is told when it goes on. -/
def Wake.outcomes : Wake ρ → List (Outcome ρ)
  | .arrived os => os
  | _ => []

/-- What a task is told at its next turn. -/
def Waiting.outcomes : Waiting ρ → List (Outcome ρ)
  | .queued w => w.outcomes
  | _ => []

/-- What a task was told so far, the earliest first. -/
def History.heard (t : TaskId) : History σ β ρ → List (Outcome ρ)
  | [] => []
  | s :: h => heard t h ++ if s.task = t then s.wake.outcomes else []

/-- A stint starts others to listen to them. -/
def Stint.Listens (P : Program σ β ρ) (s : Stint σ β ρ) : Prop :=
  ∃ cs body, (s.turn P).next = .collect cs body

/-- Among the work of a kind `G`, whoever starts others to listen to them goes on with work of a
kind `C`, and such work does nothing but listen on. -/
structure Listeners (P : Program σ β ρ) (G C : β → Prop) : Prop where
  begins : ∀ now s body w, G body → ∀ cs b, (P now s body w).next = .collect cs b → C b
  goesOn : ∀ now s body w, G body → C body → ∀ b, (P now s body w).next.body? = some b →
    C b ∧ (P now s body w).next = .await b ∧ ∃ os, w = .arrived os

/-! ## Histories of tasks that listen -/

theorem Listeners.children (hC : Listeners P G C) {now : Instant} {s : σ} {body : β} {w : Wake ρ}
    (hG : G body) (hbody : C body) : (P now s body w).next.children = [] := by
  cases hb : (P now s body w).next.body? with
  | none =>
      revert hb
      cases (P now s body w).next with
      | finish o => exact fun _ => rfl
      | _ => exact fun hb => nomatch hb
  | some b =>
      rw [(hC.goesOn now s body w hG hbody b hb).2.1]
      rfl

namespace History

theorem heard_cons_of_ne {h : History σ β ρ} {s : Stint σ β ρ} {t : TaskId} (ht : s.task ≠ t) :
    heard t (s :: h) = h.heard t :=
  (congrArg (heard t h ++ ·) (if_neg ht)).trans (List.append_nil _)

theorem heard_cons_self {h : History σ β ρ} {s : Stint σ β ρ} {t : TaskId} (ht : s.task = t) :
    heard t (s :: h) = h.heard t ++ s.wake.outcomes :=
  congrArg (heard t h ++ ·) (if_pos ht)

/-- A task without stints was told nothing. -/
theorem heard_eq_nil {h : History σ β ρ} {t : TaskId} (hne : ∀ s ∈ h, s.task ≠ t) :
    h.heard t = [] := by
  induction h with
  | nil => rfl
  | cons s h ih =>
      rw [heard_cons_of_ne (hne s List.mem_cons_self)]
      exact ih fun d hd => hne d (List.mem_cons_of_mem s hd)

/-- What a task was told so far it was told up to its latest stint. -/
theorem heard_latest {h : History σ β ρ} {s : Stint σ β ρ} {t : TaskId}
    (hs : h.latest t = some s) : ∃ e, s :: e <:+ h ∧ h.heard t = heard t (s :: e) := by
  induction h with
  | nil => exact nomatch hs
  | cons x h ih =>
      by_cases hx : x.task = t
      · rw [latest_cons_self hx] at hs
        obtain rfl := Option.some.inj hs
        exact ⟨h, List.suffix_refl _, rfl⟩
      · rw [latest_cons_of_ne hx] at hs
        obtain ⟨e, he, hheard⟩ := ih hs
        exact ⟨e, he.trans (List.suffix_cons x h), (heard_cons_of_ne hx).trans hheard⟩

/-- A task that listens does so since its first stint, and all others are of the kind for that. The
induction is on the history. -/
theorem Coherent.listener (hC : Listeners P G C) {h : History σ β ρ} (hh : h.Coherent P)
    (hG : ∀ s ∈ h, G s.body) (hfirst : ∀ s ∈ h, s.Listens P → s.first = true) {s d : Stint σ β ρ}
    (hs : s ∈ h) (hlistens : s.Listens P) (hd : d ∈ h) (ht : d.task = s.task) :
    d = s ∨ C d.body := by
  induction h generalizing d with
  | nil => exact absurd hs List.not_mem_nil
  | cons x h ih =>
      have hwiden : ∀ y ∈ h, y ∈ x :: h := fun y hy => List.mem_cons_of_mem x hy
      have hrest := fun {d} => ih (hh.of_suffix (List.suffix_cons x h))
        (fun y hy => hG y (hwiden y hy)) (fun y hy => hfirst y (hwiden y hy)) (d := d)
      have hfollows := hh _ _ (List.suffix_refl _)
      unfold History.Follows at hfollows
      rcases List.mem_cons.mp hs with rfl | hsh
      · have hall := hh.ne_of_first (List.suffix_refl _) (hfirst s hs hlistens)
        exact (List.mem_cons.mp hd).imp_right fun hd => absurd ht (hall d hd)
      · rcases List.mem_cons.mp hd with rfl | hd
        · split at hfollows
          · rename_i hnone
            exact absurd ht.symm (latest_eq_none.mp hnone s hsh)
          · rename_i q hq
            obtain ⟨hqm, hqt⟩ := latest_eq_some hq
            have hbody := hfollows.2.2.body
            rcases hrest hsh hqm (hqt.trans ht) with rfl | hqC
            · obtain ⟨cs, b, hnext⟩ := hlistens
              rw [hnext] at hbody
              obtain rfl := Option.some.inj hbody
              exact .inr (hC.begins _ _ _ _ (hG q hs) cs _ hnext)
            · exact .inr (hC.goesOn _ _ _ _ (hG q (hwiden q hqm)) hqC _ hbody).1
        · exact hrest hsh hd ht

/-- What a task that listens was told: ends of tasks that it started, each once. -/
structure Hears (P : Program σ β ρ) (F : β → Prop) (h : History σ β ρ) (s : Stint σ β ρ)
    (told : List (TaskId × Outcome ρ)) : Prop where
  once : (told.map (·.1)).Nodup
  owned : ∀ g ∈ told, g.1 ∈ s.childIds P ∧ h.Owns P F s.task g.1 g.2
  ended : ∀ g ∈ told, h.Ended P s.task g.1 g.2

theorem Hears.mono {h k : History σ β ρ} {s : Stint σ β ρ} {told : List (TaskId × Outcome ρ)}
    (hs : h.Hears P F s told) (hk : ∀ d ∈ h, d ∈ k) : k.Hears P F s told :=
  ⟨hs.once, fun g hg => ⟨(hs.owned g hg).1, (hs.owned g hg).2.mono hk⟩,
    fun g hg => (hs.ended g hg).mono hk⟩

/-- Whoever a task that listens is told of is one that it started to listen to. -/
theorem Coherent.child_of_owns (hC : Listeners P G C) {h : History σ β ρ} (hh : h.Coherent P)
    (hG : ∀ s ∈ h, G s.body) (hfirst : ∀ s ∈ h, s.Listens P → s.first = true) {s : Stint σ β ρ}
    (hs : s ∈ h) (hlistens : s.Listens P) {c : TaskId} {o : Outcome ρ}
    (ho : h.Owns P F s.task c o) : c ∈ s.childIds P := by
  have hstarts : ∀ q ∈ h, q.task = s.task → ∀ body, q.Starts P c body → c ∈ s.childIds P := by
    intro q hq hqt body hc
    rcases hh.listener hC hG hfirst hs hlistens hq hqt with rfl | hqC
    · exact mem_childIds.mpr ⟨body, hc⟩
    · obtain ⟨i, hi, -⟩ := hc
      have hnone : (q.turn P).next.children = [] := hC.children (hG q hq) hqC
      rw [hnone] at hi
      exact nomatch hi
  rcases ho with ⟨f, hf, rfl, haudience, -⟩ | ⟨q, hq, hqt, body, hc, -⟩
  · obtain ⟨e, he, het, hefirst, hea⟩ := hh.exists_first hf
    obtain ⟨k, hk⟩ := exists_suffix_of_mem he
    obtain ⟨q, hq, hqt, -, hc⟩ := hh.origin hk hefirst (hea.trans haudience)
    exact hstarts q (hk.subset (List.mem_cons_of_mem e hq)) hqt e.body (het ▸ hc)
  · exact hstarts q hq hqt body hc

end History

namespace Agenda

variable {h k : History σ β ρ} {a b : Agenda σ β ρ} {t : TaskId}

/-! ## The invariant -/

/-- How a task listens to others since the stint `s`. -/
inductive Listens (P : Program σ β ρ) (F : β → Prop) (h : History σ β ρ) (a : Agenda σ β ρ)
    (s : Stint σ β ρ) (p : Process β ρ) : Prop where
  | stopped (hw : p.waiting = .queued (.stopped .cancelled))
  | listening {told : List (TaskId × Outcome ρ)}
      (hw : p.waiting = .any ∨ ∃ os, p.waiting = .queued (.arrived os)) (hh : h.Hears P F s told)
      (ha : ∀ g ∈ told, a.Heard g.1) (ho : told.map (·.2) = h.heard s.task ++ p.waiting.outcomes)
      (hc : ∀ c ∈ s.childIds P, c ∈ told.map (·.1) ∨ a.Outstanding s.task c)

/-- All tasks that listen do so. -/
def Listening (P : Program σ β ρ) (F : β → Prop) (h : History σ β ρ) (a : Agenda σ β ρ) : Prop :=
  ∀ s ∈ h, s.Listens P → ∀ p, a.process? s.task = some p → Listens P F h a s p

/-- What others do matters to no task that listens. -/
theorem Listens.frame {s : Stint σ β ρ} {p q : Process β ρ} (hp : Listens P F h a s p)
    (hk : ∀ d ∈ h, d ∈ k) (hheard : k.heard s.task = h.heard s.task)
    (hb : ∀ c, a.Heard c → b.Heard c) (hout : ∀ c, a.Outstanding s.task c → b.Outstanding s.task c)
    (hq : p.Told q) : Listens P F k b s q := by
  cases hp with
  | stopped hw =>
      rcases hq.waiting with heq | ⟨-, hw'⟩
      · exact .stopped (heq.trans hw)
      · exact .stopped hw'
  | listening hw hh ha ho hc =>
      rcases hq.waiting with heq | ⟨-, hw'⟩
      · refine .listening (heq ▸ hw) (hh.mono hk) (fun g hg => hb _ (ha g hg)) ?_
          fun c hmem => (hc c hmem).imp_right (hout c)
        rw [heq, hheard]
        exact ho
      · exact .stopped hw'

/-! ## Who was heard of -/

theorem Heard.adds {busy : Option TaskId} {c : TaskId} (hc : a.Heard c) (hab : Heeds busy a b)
    (hb : a.Adds b) : b.Heard c where
  gone := hab.gone hc.past hc.gone
  past := Nat.lt_of_lt_of_le hc.past hab.started
  told := by
    obtain ⟨ts, hts⟩ := hb
    intro i hi
    rw [hts] at hi
    rcases List.mem_append.mp hi with hi | hi
    · exact hc.told i hi
    · obtain ⟨u, -, rfl⟩ := List.mem_map.mp hi
      exact fun h => nomatch h

/-- A turn of a task tells of nobody but that task. -/
theorem Heard.run {c : TaskId} (hc : a.Heard c) (ha : a.Numbered)
    (hreports : Reports P F a t (a.run P t)) : (a.run P t).Heard c := by
  have hheeds := heeds_run P ha t
  cases hreports with
  | none hb _ => exact hc.adds hheeds hb
  | @ends p o hp _ hr _ _ =>
      refine ⟨hheeds.gone hc.past hc.gone, Nat.lt_of_lt_of_le hc.past hheeds.started, fun i hi => ?_⟩
      rcases hr i hi with hi | ⟨v, rfl⟩ | ⟨u, -, rfl⟩
      · exact hc.told i hi
      · exact fun h => nomatch h
      · intro h
        obtain rfl : t = c := Option.some.inj h
        exact nomatch hp.symm.trans hc.gone

/-! ## What keeps the tasks listening -/

/-- Telling, booking and asking from outside. -/
theorem Listening.rebooked (hl : Listening P F h a) (ha : Sound P none h a) (hb : a.Rebooked b) :
    Listening P F h b := by
  intro s hs hlistens q hq
  rcases hb.process?_eq_some hq with ⟨p, hp, hpq⟩ | ⟨-, hle, -, -⟩
  · exact (hl s hs hlistens p hp).frame (fun _ hd => hd) rfl (fun _ hc => hc.rebooked hb)
      (fun _ hc => hc.rebooked hb) hpq
  · exact absurd (ha.past s hs) (Nat.not_lt.mpr hle)

/-- A task that listens from now on waits for those that it has started, or is told to stop. -/
theorem waiting_settleTurn (ha : a.Numbered) {p : Process β ρ} (hp : a.process? t = some p)
    {next : Next β ρ}
    (hnext : (∃ cs body, next = .collect cs body) ∨ ∃ body, next = .await body) :
    ∃ q, (a.settleTurn t p next).process? t = some q ∧
      (q.waiting = .any ∨ q.waiting = .queued (.stopped .cancelled)) := by
  have hstop : ∀ {b : Agenda σ β ρ} {q : Process β ρ}, b.process? t = some q → q.waiting = .any →
      ∃ r, (if p.stopping then
        (b.adjust t fun p => { p with stopping := false }).cancel t else b).process? t = some r ∧
          (r.waiting = .any ∨ r.waiting = .queued (.stopped .cancelled)) := by
    intro b q hq hw
    split
    · obtain ⟨r, hr, htold⟩ := ((rebooked_mark b t false).trans (rebooked_cancel _ t)).kept hq
      refine ⟨r, hr, ?_⟩
      rcases htold.waiting with heq | ⟨-, hw'⟩
      · exact .inl (heq.trans hw)
      · exact .inr hw'
    · exact ⟨q, hq, .inl hw⟩
  unfold Agenda.settleTurn
  rcases hnext with ⟨cs, body, rfl⟩ | ⟨body, rfl⟩
  · refine hstop (q := { p with body := body, waiting := .any }) ?_ rfl
    rw [process?_park, if_pos rfl, (launched_launchAll t cs ha).process, if_pos (ha hp), hp]
    rfl
  · refine hstop (q := { p with body := body, waiting := .any }) ?_ rfl
    rw [process?_park, if_pos rfl, hp]
    rfl

/-- A task that works waits for those that it has started to listen to, and has heard of none. -/
theorem listens_work (ha : a.Numbered) {p : Process β ρ} (hp : a.process? t = some p)
    {s : Stint σ β ρ} (ht : s.task = t) (hfirst : s.firstChild P
      = ((a.atWork t (s.turn P).state).bookAll (s.turn P).appointments).started)
    (hturn : P a.now a.state s.body s.wake = s.turn P) (hlistens : s.Listens P)
    (hnone : h.heard s.task = []) {q : Process β ρ}
    (hq : (a.work P t s.body s.wake).process? t = some q) :
    Listens P F h (a.work P t s.body s.wake) s q := by
  obtain ⟨cs, body, hnext⟩ := hlistens
  obtain ⟨r, hr, -, hwork⟩ := work_eq_settleTurn ha hp s.body s.wake (P := P)
  rw [hturn] at hr hwork
  have hbook := rebooked_bookAll (s.turn P).appointments (ha.atWork (t := t) (s.turn P).state)
  have hnumbered : ((a.atWork t (s.turn P).state).bookAll (s.turn P).appointments).Numbered :=
    hbook.numbered (ha.atWork _)
  obtain ⟨q', hq', hwait⟩ := waiting_settleTurn hnumbered hr (.inl ⟨cs, body, hnext⟩)
  rw [hwork] at hq ⊢
  obtain rfl := Option.some.inj (hq'.symm.trans hq)
  rcases hwait with hw | hw
  · have hhears : h.Hears P F s [] := ⟨List.nodup_nil, fun g hg => absurd hg List.not_mem_nil,
      fun g hg => absurd hg List.not_mem_nil⟩
    refine .listening (.inl hw) hhears (fun g hg => absurd hg List.not_mem_nil) ?_
      fun c hc => .inr (.inl ?_)
    · rw [hnone, hw]
      rfl
    · obtain ⟨b, i, hi, rfl⟩ := History.mem_childIds.mp hc
      obtain ⟨x, hx, htold⟩ := children_settleTurn hnumbered hr hi
      rw [hfirst, ht]
      exact ⟨x, hx, htold.audience⟩
  · exact .stopped hw

/-- A task that listens waits with work of the kind for that. -/
theorem Sound.listener (hC : Listeners P G C) (ha : Sound P none h a) (hG : ∀ s ∈ h, G s.body)
    (hfirst : ∀ s ∈ h, s.Listens P → s.first = true) {s : Stint σ β ρ} (hs : s ∈ h)
    (hlistens : s.Listens P) {p : Process β ρ} (hp : a.process? s.task = some p) : C p.body := by
  have hstands := ha.stands s.task nofun p hp
  unfold Stands at hstands
  split at hstands
  · rename_i hnone
    exact absurd rfl (History.latest_eq_none.mp hnone s hs)
  · rename_i q hq
    obtain ⟨hqm, hqt⟩ := History.latest_eq_some hq
    have hbody := hstands.2.2.body
    rcases ha.coherent.listener hC hG hfirst hs hlistens hqm hqt with rfl | hqC
    · obtain ⟨cs, b, hnext⟩ := hlistens
      rw [hnext] at hbody
      obtain rfl := Option.some.inj hbody
      exact hC.begins _ _ _ _ (hG q hs) cs _ hnext
    · exact (hC.goesOn _ _ _ _ (hG q hqm) hqC _ hbody).1

/-- A task that goes on with what it is told listens on. -/
theorem Listens.work (ha : a.Numbered) {s d : Stint σ β ρ} {p : Process β ρ}
    (hl : Listens P F h b s p) (hp : a.process? s.task = some p) (ht : d.task = s.task)
    (hturn : P a.now a.state d.body d.wake = d.turn P) {body : β}
    (hnext : (d.turn P).next = .await body) {os : List (Outcome ρ)}
    (hw : p.waiting = .queued (.arrived os)) (hwake : d.wake = .arrived os)
    (hb : ∀ c, b.Heard c → (a.work P s.task d.body d.wake).Heard c)
    (hout : ∀ c, b.Outstanding s.task c →
      (a.work P s.task d.body d.wake).Outstanding s.task c) {q : Process β ρ}
    (hq : (a.work P s.task d.body d.wake).process? s.task = some q) :
    Listens P F (d :: h) (a.work P s.task d.body d.wake) s q := by
  obtain ⟨r, hr, -, hwork⟩ := work_eq_settleTurn ha hp d.body d.wake (P := P)
  rw [hturn] at hr hwork
  have hbook := rebooked_bookAll (d.turn P).appointments (ha.atWork (t := s.task) (d.turn P).state)
  obtain ⟨q', hq', hwait⟩ := waiting_settleTurn (hbook.numbered (ha.atWork _)) hr
    (.inr ⟨body, hnext⟩)
  rw [hwork] at hq
  obtain rfl := Option.some.inj (hq'.symm.trans hq)
  rcases hwait with hany | hstop
  · cases hl with
    | stopped hw' => exact nomatch hw.symm.trans hw'
    | @listening told _ hh hheard ho hc =>
        refine .listening (.inl hany) (hh.mono fun x hx => List.mem_cons_of_mem d hx)
          (fun g hg => hb _ (hheard g hg)) ?_ fun c hmem => (hc c hmem).imp_right (hout c)
        rw [ho, hw, hany, History.heard_cons_self ht, hwake]
        exact (List.append_nil _).symm
  · exact .stopped hstop

/-- A turn that leads to a stint. -/
theorem run_of_stint? (P : Program σ β ρ) {d : Stint σ β ρ} (hd : a.stint? t = some d) :
    ∃ p w, a.process? t = some p ∧ Stint.Of a t p d ∧ p.waiting = .queued w ∧
      d.wake = (if p.stopping then .stopped .cancelled else w) ∧
      a.run P t = a.work P t d.body d.wake := by
  cases runsTo P a t with
  | idle _ hs _ => exact nomatch hd.symm.trans hs
  | dropped _ _ _ _ hs _ => exact nomatch hd.symm.trans hs
  | delayed _ _ _ _ hs _ => exact nomatch hd.symm.trans hs
  | @works p w v hp hw hv hb hs hr =>
      rw [← Option.some.inj (hs.symm.trans hd)]
      exact ⟨p, w, hp, ⟨rfl, rfl, rfl, rfl, rfl, rfl, rfl⟩, hw, hv, hr⟩

/-- A turn of a task with a history that leads to no stint leaves everything as it was. -/
theorem Sound.run_eq_self (ha : Sound P none h a) {s : Stint σ β ρ} (hs : s ∈ h) {place : Nat}
    (hd : (a.taken place).stint? s.task = none) : (a.taken place).run P s.task = a.taken place := by
  have hbegun : ∀ p, a.process? s.task = some p → p.begun ≠ false := by
    intro p hp hb
    exact History.latest_eq_none.mp ((ha.stands s.task nofun p hp).fresh hb).1 s hs rfl
  cases runsTo P (a.taken place) s.task with
  | idle _ _ hr => exact hr
  | dropped hp hb _ _ _ _ => exact absurd hb (hbegun _ hp)
  | delayed hp hb _ _ _ _ => exact absurd hb (hbegun _ hp)
  | works _ _ _ _ hs' _ => exact nomatch hd.symm.trans hs'

/-- A task that listens goes on with what it is told, or it ends, or it is told to stop. -/
theorem Listens.stint (hC : Listeners P G C) (ha : Sound P none h a) (hG : Only (fun _ => G) a)
    (hGh : ∀ s ∈ h, G s.body) (hfirst : ∀ s ∈ h, s.Listens P → s.first = true)
    {s d : Stint σ β ρ} (hs : s ∈ h) (hlistens : s.Listens P) {place : Nat}
    (hd : (a.taken place).stint? s.task = some d)
    (hb : Sound P none (d :: h) ((a.taken place).run P s.task)) (hl : Listening P F h a)
    (hheard : ∀ c, a.Heard c → ((a.taken place).run P s.task).Heard c)
    (hout : ∀ c, a.Outstanding s.task c → ((a.taken place).run P s.task).Outstanding s.task c)
    {q : Process β ρ} (hq : ((a.taken place).run P s.task).process? s.task = some q) :
    Listens P F (d :: h) ((a.taken place).run P s.task) s q := by
  obtain ⟨p, w, hp, hof, hw, hv, hr⟩ := run_of_stint? P hd
  have hbody : C p.body := ha.listener hC hGh hfirst hs hlistens hp
  have hturn : P (a.taken place).now (a.taken place).state d.body d.wake = d.turn P := by
    unfold Stint.turn
    rw [hof.now, hof.state]
  cases hnext : (d.turn P).next.body? with
  | none =>
      have hends : ∃ o, d.Ends P o := by
        unfold Stint.Ends
        revert hnext
        cases (d.turn P).next with
        | finish o => exact fun _ => ⟨o, rfl⟩
        | _ => exact fun h => nomatch h
      have hlatest : History.latest (d :: h) s.task = some d := History.latest_cons_self hof.task
      exact nomatch hq.symm.trans ((hb.living s.task nofun d hlatest).mpr hends)
  | some b =>
      obtain ⟨-, hawait, os, hwake⟩ := hC.goesOn d.now d.state d.body d.wake
        (hof.body ▸ hG s.task p hp) (hof.body ▸ hbody) b hnext
      have hqueued : p.waiting = .queued (.arrived os) := by
        rw [hw]
        rw [hwake] at hv
        split at hv
        · exact nomatch hv
        · rw [hv]
      rw [hr] at hq hout hheard ⊢
      exact (hl s hs hlistens p hp).work (a := a.taken place) ha.numbered hp hof.task hturn hawait
        hqueued hwake hheard hout hq

/-- A turn of a task keeps all tasks listening. -/
theorem Listening.run (hP : Divides P G F) (hC : Listeners P G C) (ha : Sound P none h a)
    (hcalm : Calm F a) (hG : Only (fun _ => G) a) (hGh : ∀ s ∈ h, G s.body)
    (hfirst : ∀ s ∈ (a.stint? t).toList ++ h, s.Listens P → s.first = true)
    (hl : Listening P F h a) {place : Nat} (hi : a.ready[place]? = some (.run t)) :
    Listening P F ((a.stint? t).toList ++ h) ((a.taken place).run P t) := by
  have hb := ha.run hi
  have hn : (a.taken place).Numbered := ha.numbered
  have hreports := ha.reports_run hP hcalm hG place t
  have hbeside := beside_run P (a := a.taken place) hn t
  have hwider : ∀ d ∈ h, d ∈ (a.stint? t).toList ++ h := fun d hd => List.mem_append_right _ hd
  have hout : ∀ u x, a.Outstanding u x → ((a.taken place).run P t).Outstanding u x :=
    fun _ _ ho => ho.run hi hreports hbeside.others
  have hheard : ∀ c, a.Heard c → ((a.taken place).run P t).Heard c :=
    fun _ hc => (hc.taken place).run hn hreports
  intro s hs hlistens q hq
  by_cases hu : s.task = t
  · subst hu
    cases hd : a.stint? s.task with
    | none =>
        rw [hd] at hs
        rw [ha.run_eq_self hs hd] at hq hout hheard ⊢
        exact (hl s hs hlistens q hq).frame (fun _ hd => hd) rfl hheard (hout s.task) .rfl
    | some d =>
        rw [hd] at hs hb hfirst
        rcases List.mem_cons.mp hs with rfl | hs
        · -- it starts to listen with its first stint
          obtain ⟨p, w, hp, hof, -, -, hr⟩ := run_of_stint? (a := a.taken place) P hd
          have hnone := hb.coherent.ne_of_first (List.suffix_refl _) (hfirst s hs hlistens)
          have hfollows := hb.coherent _ _ (List.suffix_refl _)
          unfold History.Follows at hfollows
          rw [History.latest_eq_none.mpr hnone] at hfollows
          rw [hr] at hq ⊢
          refine listens_work hn hp rfl ?_ ?_ hlistens ?_ hq
          · unfold Stint.firstChild
            rw [hof.started, started_bookAll]
            rfl
          · unfold Stint.turn
            rw [hof.now, hof.state]
          · exact (History.heard_cons_self rfl).trans (by
              rw [History.heard_eq_nil hnone, hfollows.2.1]
              rfl)
        · exact Listens.stint hC ha hG hGh (fun x hx => hfirst x (List.mem_cons_of_mem d hx)) hs
            hlistens hd hb hl hheard (hout s.task) hq
  · -- another task has its turn
    have hsh : s ∈ h := by
      rcases List.mem_append.mp hs with hs | hs
      · obtain ⟨p, -, hof⟩ := stint?_eq_some (Option.mem_toList.mp hs)
        exact absurd hof.task hu
      · exact hs
    have hsame : History.heard s.task ((a.stint? t).toList ++ h) = h.heard s.task := by
      cases hd : a.stint? t with
      | none => rfl
      | some d =>
          obtain ⟨p, -, hof⟩ := stint?_eq_some hd
          exact History.heard_cons_of_ne fun he => hu (he.symm.trans hof.task)
    cases hp : a.process? s.task with
    | none =>
        have hgone := (heeds_run P hn t).gone (ha.past s hsh) hp
        exact nomatch hq.symm.trans hgone
    | some p =>
        obtain ⟨r, hr, htold⟩ := hbeside.others hu hp
        obtain rfl := Option.some.inj (hr.symm.trans hq)
        exact (hl s hsh hlistens p hp).frame hwider hsame hheard (hout s.task) htold

/-- A report keeps all tasks listening. -/
theorem Listening.report (hC : Listeners P G C) (ha : Sound P none h a) (hGh : ∀ s ∈ h, G s.body)
    (hfirst : ∀ s ∈ h, s.Listens P → s.first = true) (hat : Attentive P F h a)
    (hl : Listening P F h a) {place : Nat} {c : TaskId} {o : Outcome ρ}
    (hi : a.ready[place]? = some (.report t c o)) :
    Listening P F h ((a.taken place).report t c o) := by
  have hended := hat.honest t c o (List.mem_of_getElem? hi)
  have hheeds := heeds_report (a.taken place) t c o
  have hadds := adds_report (a.taken place) t c o
  have hheard : ∀ x, (a.taken place).Heard x → ((a.taken place).report t c o).Heard x :=
    fun _ hx => hx.adds hheeds hadds
  intro s hs hlistens q hq
  cases hp : a.process? s.task with
  | none => exact nomatch hq.symm.trans (hheeds.gone (ha.past s hs) hp)
  | some p =>
      have hold := hl s hs hlistens p hp
      by_cases hu : s.task = t
      · subst hu
        cases hold with
        | stopped hw =>
            have hsame : (a.taken place).report s.task c o = a.taken place := by
              unfold Agenda.report
              rw [show (a.taken place).process? s.task = some p from hp]
              dsimp only
              rw [hw]
            rw [hsame] at hq
            obtain rfl := Option.some.inj (hp.symm.trans hq)
            exact .stopped hw
        | @listening told hw hh hgone ho hc =>
            have hmine := ha.coherent.child_of_owns hC hGh hfirst hs hlistens hended
            have hnew : c ∉ told.map (·.1) := by
              intro hmem
              obtain ⟨g, hg, rfl⟩ := List.mem_map.mp hmem
              exact (hgone g hg).told _ (List.mem_of_getElem? hi) rfl
            have hwaits : q.waiting = .queued (.arrived (p.waiting.outcomes ++ [o])) := by
              unfold Agenda.report at hq
              rw [show (a.taken place).process? s.task = some p from hp] at hq
              dsimp only at hq
              rcases hw with hw | ⟨os, hw⟩
              · rw [hw] at hq ⊢
                dsimp only at hq
                rw [process?_wake, if_pos rfl, show (a.taken place).process? s.task = some p from hp]
                  at hq
                rw [← Option.some.inj hq]
                rfl
              · rw [hw] at hq ⊢
                dsimp only at hq
                rw [process?_adjust_self, show (a.taken place).process? s.task = some p from hp]
                  at hq
                rw [← Option.some.inj hq]
                rfl
            have hhears : h.Hears P F s (told ++ [(c, o)]) := by
              refine ⟨?_, fun g hg => ?_, fun g hg => ?_⟩
              · rw [List.map_append]
                refine List.nodup_append.mpr
                  ⟨hh.once, List.pairwise_singleton _ _, fun x hx y hy => ?_⟩
                rintro rfl
                have hxc : x = c := List.mem_singleton.mp hy
                exact hnew (hxc ▸ hx)
              · rcases List.mem_append.mp hg with hg | hg
                · exact hh.owned g hg
                · rw [List.mem_singleton.mp hg]
                  exact ⟨hmine, hended⟩
              · rcases List.mem_append.mp hg with hg | hg
                · exact hh.ended g hg
                · rw [List.mem_singleton.mp hg]
                  exact (ha.reported s.task c o (List.mem_of_getElem? hi)).2.2
            refine .listening (.inr ⟨_, hwaits⟩) hhears (fun g hg => ?_) ?_ fun x hx => ?_
            · rcases List.mem_append.mp hg with hg | hg
              · exact hheard _ ((hgone g hg).taken place)
              · rw [List.mem_singleton.mp hg]
                exact hheard _ (ha.heard_of_report hi)
            · rw [List.map_append, ho, hwaits, List.append_assoc]
              rfl
            · rw [List.map_append]
              by_cases hxc : x = c
              · rw [hxc]
                exact .inl (List.mem_append_right _ (List.mem_singleton_self _))
              · exact (hc x hx).imp (List.mem_append_left _) fun ho => ho.report hi fun _ => hxc
      · obtain ⟨r, hr, htold⟩ := (beside_report (t := t) (a := a.taken place) c o).others hu hp
        obtain rfl := Option.some.inj (hr.symm.trans hq)
        exact hold.frame (fun _ hd => hd) rfl (fun x hx => hheard x (hx.taken place))
          (fun x hx => hx.report hi fun he => absurd he hu) htold

/-- Time that passes keeps all tasks listening. -/
theorem Listening.passTo (ha : Sound P none h a) (hl : Listening P F h a) (time : Instant) :
    Listening P F h (a.passTo time) := by
  obtain ⟨hadds, hprocess⟩ := process?_passTo a time
  have hheeds := heeds_passTo a time
  intro s hs hlistens q hq
  cases hp : a.process? s.task with
  | none => exact nomatch hq.symm.trans (hheeds.gone (ha.past s hs) hp)
  | some p =>
      obtain ⟨r, hr, -, hkeep⟩ := hprocess s.task p hp
      obtain rfl := Option.some.inj (hr.symm.trans hq)
      have hold := hl s hs hlistens p hp
      have hawake : p.waiting ≠ .asleep := by
        cases hold with
        | stopped hw => rw [hw]; nofun
        | listening hw _ _ _ _ =>
            rcases hw with hw | ⟨os, hw⟩
            · rw [hw]; nofun
            · rw [hw]; nofun
      rw [hkeep hawake]
      exact hold.frame (fun _ hd => hd) rfl (fun _ hx => hx.adds hheeds hadds)
        (fun _ hx => hx.passTo time) .rfl

/-! ## Runs -/

variable {Serve : Agenda σ β ρ → Agenda σ β ρ → Prop} {start : Agenda σ β ρ}

/-- **Whoever listens to others hears of each of them once**, in any run that starts so and is
served so. -/
theorem Run.listening (hclosed : Closed P fun _ => G) (hP : Divides P G F) (hC : Listeners P G C)
    (hstart : Sound P none [] start) (hout : ∀ {a b}, a.Numbered → Serve a b → a.Outside b)
    (honly : Only (fun _ => G) start)
    (hserveOnly : ∀ {a b}, Only (fun _ => G) a → Serve a b → Only (fun _ => G) b)
    (hcalm : ∀ {h a}, Run P Serve start h a → Calm F a)
    (hat : ∀ {h a}, Run P Serve start h a → Attentive P F h a)
    (hfirst : ∀ {h a}, Run P Serve start h a → ∀ s ∈ h, s.Listens P → s.first = true)
    (hr : Run P Serve start h a) : Listening P F h a := by
  induction hr with
  | idle => exact fun _ hs => absurd hs List.not_mem_nil
  | @step h a b place hr hb ih =>
      have ha := hr.sound hstart hout
      obtain ⟨hG, hGh⟩ := hr.only hclosed hstart hout honly hserveOnly
      have hfirst' := hfirst (.step hr hb)
      unfold stepAt at hb
      obtain ⟨i, hi, rfl⟩ := Option.map_eq_some_iff.mp hb
      unfold stintAt? at hfirst' ⊢
      rw [hi] at hfirst' ⊢
      cases i with
      | run t => exact ih.run hP hC ha (hcalm hr) hG hGh hfirst' hi
      | report t c o => exact ih.report hC ha hGh (hfirst hr) (hat hr) hi
  | pass hr _ _ ih => exact ih.passTo (hr.sound hstart hout) _
  | @serve h a b hr hb ih =>
      have ha := hr.sound hstart hout
      obtain ⟨s, hs⟩ := hout ha.numbered hb
      have hedit : Listening P F h { a with state := s } := fun d hd hlistens p hp =>
        (ih d hd hlistens p hp).frame (fun _ hx => hx) rfl
          (fun _ hx => ⟨hx.gone, hx.past, hx.told⟩) (fun _ hx => hx) .rfl
      exact hedit.rebooked (ha.edit (b := { a with state := s }) rfl rfl rfl rfl rfl) hs

/-- **What a task that listens has been told**, whenever it goes on with more. -/
theorem Run.told (hlistening : ∀ {h a}, Run P Serve start h a → Listening P F h a)
    (hr : Run P Serve start h a) {s d : Stint σ β ρ} {e : History σ β ρ} (hd : d :: e <:+ h)
    (hs : s ∈ e) (hlistens : s.Listens P) (ht : d.task = s.task) {os : List (Outcome ρ)}
    (hwake : d.wake = .arrived os) : ∃ told, e.Hears P F s told ∧
      told.map (·.2) = History.heard s.task (d :: e) := by
  obtain ⟨b, c, place, hb, hstint, -⟩ := hr.before hd
  obtain ⟨-, hstint, -⟩ := stintAt?_eq_some hstint
  obtain ⟨p, w, hp, -, hw, hv, -⟩ := run_of_stint? P hstint
  have hqueued : p.waiting = .queued (.arrived os) := by
    rw [hw]
    rw [hwake] at hv
    split at hv
    · exact nomatch hv
    · rw [hv]
  cases hlistening hb s hs hlistens p (ht ▸ hp) with
  | stopped hw' => exact nomatch hqueued.symm.trans hw'
  | @listening told _ hh _ ho _ =>
      refine ⟨told, hh, ?_⟩
      rw [ho, hqueued, History.heard_cons_self ht, hwake]
      rfl

/-- When nothing is ready, whoever listens to others has been told of all that are not under way. -/
theorem Listening.quiet (ha : Sound P none h a) (hl : Listening P F h a) (hready : a.ready = [])
    {s : Stint σ β ρ} (hs : s ∈ h) (hlistens : s.Listens P) {p : Process β ρ}
    (hp : a.process? s.task = some p) : ∃ told, h.Hears P F s told ∧
      told.map (·.2) = h.heard s.task ∧ ∀ c ∈ s.childIds P, c ∈ told.map (·.1) ∨
        ∃ q, a.process? c = some q ∧ q.audience = .task s.task := by
  cases hl s hs hlistens p hp with
  | stopped hw => exact absurd hw (ha.not_queued hready hp _)
  | @listening told hw hh _ ho hc =>
      have hany : p.waiting = .any :=
        hw.resolve_right fun ⟨os, hw⟩ => ha.not_queued hready hp _ hw
      refine ⟨told, hh, ?_, fun c hmem => (hc c hmem).imp_right fun hout => ?_⟩
      · rw [ho, hany]
        exact List.append_nil _
      · rcases hout with hq | ⟨o, ho⟩
        · exact hq
        · rw [hready] at ho
          exact absurd ho List.not_mem_nil

end Agenda

end BuildingAlerts
