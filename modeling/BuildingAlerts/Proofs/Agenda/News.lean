/-
What tasks are still to be told.

From the moment a task ends its outcome is on its way to the one that started it: first as a
report among the ready items, then in the reason for which the other one goes on. `news` weighs
what is on its way to a task. Only the end of a task adds to it, and whoever goes on takes in what
he is told, so nothing is told twice.
-/
import Mathlib.Algebra.GroupWithZero.Nat
import BuildingAlerts.Proofs.Agenda.Reporting
import BuildingAlerts.Proofs.Agenda.Roster

set_option autoImplicit false

namespace BuildingAlerts

variable {σ β ρ : Type} {P : Program σ β ρ} (ω : ρ → Nat)

/-- The weight of an outcome is that of its result. -/
def weigh : Outcome ρ → Nat
  | .ok r => ω r
  | .error _ => 0

/-- What an item has to tell a task. -/
def Item.tells (u : TaskId) : Item ρ → Nat
  | .report v _ o => if v = u then weigh ω o else 0
  | .run _ => 0

/-- What a task is told when it goes on. -/
def Wake.tells : Wake ρ → Nat
  | .arrived os => (os.map (weigh ω)).sum
  | _ => 0

/-- What a task is to be told when it has its turn. -/
def Waiting.tells : Waiting ρ → Nat
  | .queued w => w.tells ω
  | _ => 0

/-- What a stint adds to the news for a task. -/
def Stint.tells (P : Program σ β ρ) (s : Stint σ β ρ) (u : TaskId) : Nat :=
  match (s.turn P).next with
  | .finish o => if s.audience = .task u then weigh ω o else 0
  | _ => 0

namespace Agenda

/-- The weight of all outcomes that a task is still to be told. -/
def news (a : Agenda σ β ρ) (u : TaskId) : Nat :=
  (a.ready.map (Item.tells ω u)).sum + (a.process? u).elim 0 fun p => p.waiting.tells ω

variable {ω} {a b : Agenda σ β ρ} {t u : TaskId}

/-! ## What brings no news -/

/-- Turns are no news. -/
theorem sum_tells_run (ts : List TaskId) :
    ((ts.map .run : List (Item ρ)).map (Item.tells ω u)).sum = 0 := by
  induction ts with
  | nil => rfl
  | cons t ts ih => exact (Nat.zero_add _).trans ih

theorem Adds.sum_tells (h : a.Adds b) :
    (b.ready.map (Item.tells ω u)).sum = (a.ready.map (Item.tells ω u)).sum := by
  obtain ⟨ts, hts⟩ := h
  rw [hts, List.map_append, List.sum_append, sum_tells_run, Nat.add_zero]

/-- Where only turns get ready and every task has as little to be told, there is no news. -/
theorem Adds.news_le (h : a.Adds b)
    (hp : ∀ q, b.process? u = some q → q.waiting.tells ω = 0 ∨
      ∃ p, a.process? u = some p ∧ q.waiting.tells ω ≤ p.waiting.tells ω) :
    b.news ω u ≤ a.news ω u := by
  unfold news
  rw [h.sum_tells]
  refine Nat.add_le_add_left ?_ _
  cases hq : b.process? u with
  | none => exact Nat.zero_le _
  | some q =>
      rcases hp q hq with hnone | ⟨p, hp, hle⟩
      · exact Nat.le_trans (Nat.le_of_eq hnone) (Nat.zero_le _)
      · rw [hp]
        exact hle

theorem Rebooked.news_le (h : a.Rebooked b) : b.news ω u ≤ a.news ω u := by
  refine Adds.news_le h.ready fun q hq => ?_
  rcases h.process?_eq_some hq with ⟨p, hp, hpq⟩ | ⟨-, -, -, houter⟩
  · rcases hpq.waiting with hw | ⟨-, hw⟩
    · exact .inr ⟨p, hp, Nat.le_of_eq (congrArg _ hw)⟩
    · exact .inl (by rw [hw]; rfl)
  · exact .inl (by rw [houter.waiting]; rfl)

/-- A change of a task that gives it no more to be told. -/
theorem news_adjust {f : Process β ρ → Process β ρ}
    (hf : ∀ p, (f p).waiting.tells ω ≤ p.waiting.tells ω) : (a.adjust t f).news ω u ≤ a.news ω u := by
  refine Adds.news_le (a := a) (b := a.adjust t f) ⟨[], (List.append_nil _).symm⟩ fun q hq => ?_
  rw [process?_adjust] at hq
  split at hq
  · obtain ⟨p, hp, rfl⟩ := Option.map_eq_some_iff.mp hq
    exact .inr ⟨p, hp, hf p⟩
  · exact .inr ⟨q, hq, Nat.le_refl _⟩

theorem news_park (body : β) {w : Waiting ρ} (hw : w.tells ω = 0) :
    (a.park t body w).news ω u ≤ a.news ω u :=
  news_adjust fun _ => Nat.le_trans (Nat.le_of_eq hw) (Nat.zero_le _)

theorem news_wake {w : Wake ρ} (hw : w.tells ω = 0) : (a.wake t w).news ω u ≤ a.news ω u := by
  refine Adds.news_le (adds_wake a t w) fun q hq => ?_
  rw [process?_wake] at hq
  split at hq
  · obtain ⟨p, hp, rfl⟩ := Option.map_eq_some_iff.mp hq
    exact .inl hw
  · exact .inr ⟨q, hq, Nat.le_refl _⟩

theorem news_lay (body : β) (delay limit : Delay) {w : Wake ρ} (hw : w.tells ω = 0) :
    (a.lay t body delay limit w).news ω u ≤ a.news ω u := by
  have hpark : ∀ {v : Waiting ρ}, v.tells ω = 0 → ∀ q, (a.park t body v).process? u = some q →
      q.waiting.tells ω = 0 ∨
        ∃ p, a.process? u = some p ∧ q.waiting.tells ω ≤ p.waiting.tells ω := by
    intro v hv q hq
    rw [process?_park] at hq
    split at hq
    · obtain ⟨p, hp, rfl⟩ := Option.map_eq_some_iff.mp hq
      exact .inl hv
    · exact .inr ⟨q, hq, Nat.le_refl _⟩
  refine Adds.news_le (adds_lay a t body delay limit w) fun q hq => ?_
  unfold Agenda.lay at hq
  split at hq
  · exact hpark (v := .queued w) hw q hq
  · exact hpark (v := .asleep) rfl q hq

theorem news_launchAll (ha : a.Numbered) (bodies : List β) :
    (a.launchAll t bodies).news ω u ≤ a.news ω u := by
  have hl := launched_launchAll t bodies ha
  refine Adds.news_le ⟨_, hl.ready⟩ fun q hq => ?_
  rw [hl.process] at hq
  split at hq
  · exact .inr ⟨q, hq, Nat.le_refl _⟩
  · obtain ⟨body, -, rfl⟩ := Option.map_eq_some_iff.mp hq
    exact .inl rfl

/-! ## The end of a task -/

theorem process?_finish (p : Process β ρ) (o : Outcome ρ) :
    (a.finish t p o).process? u = if u = t then none else a.process? u := by
  unfold Agenda.finish
  cases p.key <;> cases p.audience
  all_goals exact process?_remove a t u

/-- A task that ends is news for the one that started it. -/
theorem news_finish (p : Process β ρ) (o : Outcome ρ) :
    (a.finish t p o).news ω u
      ≤ a.news ω u + if p.audience = .task u then weigh ω o else 0 := by
  have hready : ((a.finish t p o).ready.map (Item.tells ω u)).sum
      = (a.ready.map (Item.tells ω u)).sum + if p.audience = .task u then weigh ω o else 0 := by
    rw [ready_finish, List.map_append, List.sum_append]
    refine congrArg _ ?_
    cases p.audience with
    | task v =>
        dsimp only
        rw [List.map_singleton, List.sum_singleton]
        unfold Item.tells
        dsimp only
        by_cases hv : v = u
        · rw [if_pos hv, if_pos (congrArg Audience.task hv)]
        · rw [if_neg hv, if_neg fun h => hv (Audience.task.inj h)]
    | nobody => rfl
    | caller => rfl
  unfold news
  rw [hready, Nat.add_right_comm, process?_finish]
  refine Nat.add_le_add_right (Nat.add_le_add_left ?_ _) _
  split
  · exact Nat.zero_le _
  · exact Nat.le_refl _

/-- What a task does when it stops working is no news unless it ends. -/
theorem news_settleTurn (ha : a.Numbered) (p : Process β ρ) (next : Next β ρ) :
    (a.settleTurn t p next).news ω u ≤ a.news ω u + match next with
      | .finish o => if p.audience = .task u then weigh ω o else 0
      | _ => 0 := by
  have hmark : ∀ b : Agenda σ β ρ,
      (b.adjust t fun p => { p with stopping := false }).news ω u ≤ b.news ω u :=
    fun b => news_adjust fun _ => Nat.le_refl _
  have hstop : ∀ {b : Agenda σ β ρ}, b.news ω u ≤ a.news ω u → (if p.stopping then
      (b.adjust t fun p => { p with stopping := false }).cancel t else b).news ω u
        ≤ a.news ω u := by
    intro b hb
    split
    · exact Nat.le_trans (rebooked_cancel _ t).news_le (Nat.le_trans (hmark b) hb)
    · exact hb
  unfold Agenda.settleTurn
  cases next with
  | finish o =>
      refine Nat.le_trans (news_finish p _) (Nat.add_le_add_left ?_ _)
      dsimp only
      split
      · split
        · exact Nat.zero_le _
        · exact Nat.le_refl _
      · exact Nat.le_refl _
  | pause body =>
      refine Adds.news_le ⟨[t], .refl _⟩ fun q hq => ?_
      have hq : (a.park t body (.queued .resumed)).process? u = some q := hq
      rw [process?_park] at hq
      split at hq
      · obtain ⟨p, hp, rfl⟩ := Option.map_eq_some_iff.mp hq
        exact .inl rfl
      · exact .inr ⟨q, hq, Nat.le_refl _⟩
  | sleep delay limit body =>
      have hlay : (a.lay t body delay limit .resumed).news ω u ≤ a.news ω u :=
        news_lay body delay limit rfl
      dsimp only
      split
      · exact Nat.le_trans (news_wake rfl) (Nat.le_trans (hmark _) hlay)
      · exact hlay
  | gather children body =>
      exact hstop (Nat.le_trans (news_park body rfl) (news_launchAll ha children))
  | collect children body =>
      exact hstop (Nat.le_trans (news_park body rfl) (news_launchAll ha children))
  | await body => exact hstop (news_park body rfl)

/-! ## Steps -/

/-- A task that works has taken in what it was told. -/
theorem news_atWork (p : Process β ρ) (hp : a.process? t = some p) (s : σ) :
    (a.atWork t s).news ω u + (if u = t then p.waiting.tells ω else 0) = a.news ω u := by
  unfold news
  rw [process?_atWork]
  show (a.ready.map (Item.tells ω u)).sum + _ + _ = (a.ready.map (Item.tells ω u)).sum + _
  split
  · rename_i hu
    rw [hu, hp]
    exact congrArg (· + _) (Nat.add_zero _)
  · exact Nat.add_zero _

/-- A turn of a task that works. -/
theorem news_run (ha : a.Numbered) {s : Stint σ β ρ} (hs : a.stint? t = some s) :
    (a.run P t).news ω u + (if u = t then s.wake.tells ω else 0)
      ≤ a.news ω u + s.tells ω P u := by
  cases runsTo P a t with
  | idle _ h _ => exact nomatch hs.symm.trans h
  | dropped _ _ _ _ h _ => exact nomatch hs.symm.trans h
  | delayed _ _ _ _ h _ => exact nomatch hs.symm.trans h
  | @works p w v hp hw hv hb h hr =>
      obtain rfl := Option.some.inj (h.symm.trans hs)
      obtain ⟨q, hq, hpq, hwork⟩ := work_eq_settleTurn ha hp p.body v (P := P)
      have hnumbered : (a.atWork t (P a.now a.state p.body v).state).Numbered := ha.atWork _
      have hbook := rebooked_bookAll (P a.now a.state p.body v).appointments hnumbered
      have hsettle := news_settleTurn (ω := ω) (t := t) (u := u) (hbook.numbered hnumbered) q
        (P a.now a.state p.body v).next
      have haudience : q.audience = p.audience := hpq.audience
      rw [haudience] at hsettle
      have htold : (if u = t then v.tells ω else 0) ≤ if u = t then p.waiting.tells ω else 0 := by
        split
        · rw [hw, hv]
          split
          · exact Nat.zero_le _
          · exact Nat.le_refl _
        · exact Nat.le_refl _
      have htotal := news_atWork (ω := ω) (u := u) p hp (P a.now a.state p.body v).state
      have hbooked := hbook.news_le (ω := ω) (u := u)
      rw [hr, hwork]
      unfold Stint.tells Stint.turn
      dsimp only
      omega

/-- An item that is taken is no longer on its way. -/
theorem news_taken {place : Nat} {i : Item ρ} (hi : a.ready[place]? = some i) :
    (a.taken place).news ω u + i.tells ω u = a.news ω u := by
  obtain ⟨hlt, rfl⟩ := List.getElem?_eq_some_iff.mp hi
  have hsum : ((a.ready.eraseIdx place).map (Item.tells ω u)).sum + (a.ready[place]).tells ω u
      = (a.ready.map (Item.tells ω u)).sum := by
    rw [List.eraseIdx_eq_take_drop_succ]
    conv_rhs => rw [← List.take_append_drop place a.ready, List.drop_eq_getElem_cons hlt]
    simp only [List.map_append, List.sum_append, List.map_cons, List.sum_cons]
    omega
  unfold news
  rw [process?_taken]
  show ((a.ready.eraseIdx place).map (Item.tells ω u)).sum + _ + _ = _
  omega

/-- **What a stint makes of the news**: its task has taken in what it was told, and the end of the
task is told to the one that started it. -/
theorem news_of_stint (ha : a.Numbered) {place : Nat} {s : Stint σ β ρ}
    (hs : a.stintAt? place = some s) (hb : a.stepAt P place = some b) :
    b.news ω u + (if u = s.task then s.wake.tells ω else 0) ≤ a.news ω u + s.tells ω P u := by
  obtain ⟨hi, hstint, -⟩ := stintAt?_eq_some hs
  have htaken := news_taken (ω := ω) (u := u) hi
  unfold stepAt at hb
  rw [hi] at hb
  obtain rfl := Option.some.inj hb
  have hrun := news_run (P := P) (ω := ω) (u := u) (a := a.taken place) ha hstint
  exact Nat.le_trans hrun (Nat.add_le_add_right (Nat.le.intro htaken) _)

/-- A task that goes on is told no more than there is. -/
theorem tells_le_news {s : Stint σ β ρ} (hs : a.stint? t = some s) :
    s.wake.tells ω ≤ a.news ω t := by
  -- what the program does does not matter here
  cases runsTo (fun _ s _ _ => ⟨s, [], .finish (.error .cancelled)⟩) a t with
  | idle _ h _ => exact nomatch hs.symm.trans h
  | dropped _ _ _ _ h _ => exact nomatch hs.symm.trans h
  | delayed _ _ _ _ h _ => exact nomatch hs.symm.trans h
  | @works p w v hp hw hv hb h hr =>
      obtain rfl := Option.some.inj (h.symm.trans hs)
      have hle : v.tells ω ≤ p.waiting.tells ω := by
        rw [hw, hv]
        split
        · exact Nat.zero_le _
        · exact Nat.le_refl _
      unfold news
      rw [hp]
      exact Nat.le_add_left_of_le hle

/-- A report that is told changes its form only. -/
theorem news_report (c : TaskId) (o : Outcome ρ) :
    (a.report t c o).news ω u ≤ a.news ω u + (Item.report t c o).tells ω u := by
  have hno : ∀ {b : Agenda σ β ρ}, b.news ω u ≤ a.news ω u →
      b.news ω u ≤ a.news ω u + (Item.report t c o).tells ω u :=
    fun h => Nat.le_add_right_of_le h
  have harrived : ∀ (os : List (Outcome ρ)) {b : Agenda σ β ρ} {p : Process β ρ}, a.Adds b →
      a.process? t = some p → (∀ v, b.process? v = if v = t then (a.process? v).map fun p =>
        { p with waiting := .queued (.arrived (os ++ [o])) } else a.process? v) →
      (os.map (weigh ω)).sum ≤ p.waiting.tells ω →
      b.news ω u ≤ a.news ω u + (Item.report t c o).tells ω u := by
    intro os b p hadds hp hb hle
    have htells : (Item.report t c o).tells ω u = if t = u then weigh ω o else 0 := rfl
    unfold news
    rw [hadds.sum_tells, hb, htells]
    by_cases hu : u = t
    · obtain rfl := hu
      rw [if_pos rfl, if_pos rfl, hp]
      show _ + ((os ++ [o]).map (weigh ω)).sum ≤ _ + p.waiting.tells ω + _
      rw [List.map_append, List.sum_append, List.map_singleton, List.sum_singleton]
      omega
    · rw [if_neg hu, if_neg (Ne.symm hu)]
      exact Nat.le_refl _
  unfold report
  split
  · exact hno (Nat.le_refl _)
  · rename_i p hp
    split
    · split
      · split
        · exact hno (news_wake rfl)
        · dsimp only
          split
          · exact hno (news_wake rfl)
          · exact hno (news_adjust fun _ => Nat.zero_le _)
      · exact hno (Nat.le_refl _)
    · exact harrived [] (adds_wake a t _) hp (fun v => process?_wake a t v _) (Nat.zero_le _)
    · rename_i os hw
      refine harrived os ⟨[], (List.append_nil _).symm⟩ hp (fun v => process?_adjust a t v _) ?_
      rw [hw]
      exact Nat.le_refl _
    · exact hno (Nat.le_refl _)

/-- Without a stint there is no news. -/
theorem news_of_no_stint {place : Nat} (hs : a.stintAt? place = none)
    (hb : a.stepAt P place = some b) : b.news ω u ≤ a.news ω u := by
  unfold stepAt at hb
  obtain ⟨i, hi, rfl⟩ := Option.map_eq_some_iff.mp hb
  have htaken := news_taken (ω := ω) (u := u) hi
  unfold stintAt? at hs
  rw [hi] at hs
  cases i with
  | report t c o =>
      exact Nat.le_trans (news_report (a := a.taken place) c o) (Nat.le_of_eq htaken)
  | run t =>
      have hstint : (a.taken place).stint? t = none := hs
      refine Nat.le_trans ?_ (Nat.le.intro htaken)
      show ((a.taken place).run P t).news ω u ≤ _
      cases runsTo P (a.taken place) t with
      | idle _ _ hr => exact Nat.le_of_eq (congrArg (news ω · u) hr)
      | works _ _ _ _ h _ => exact nomatch hstint.symm.trans h
      | @dropped p w st hp hbegun _ _ _ hr =>
          rw [hr]
          refine Nat.le_trans (news_finish p (.error st)) ?_
          split
          · exact Nat.le_refl _
          · exact Nat.le_refl _
      | @delayed p w d hp _ _ _ _ hr =>
          rw [hr]
          exact Nat.le_trans (news_lay p.body d .endless rfl) (news_adjust fun _ => Nat.le_refl _)

/-- Timers bring no news. -/
theorem news_passTo {h : History σ β ρ} (ha : Sound P none h a) (time : Instant) :
    (a.passTo time).news ω u ≤ a.news ω u := by
  have hall : ∀ (ms : List (Timer ρ)) (b : Agenda σ β ρ), (∀ m ∈ ms,
      b.process? m.task ≠ none → m.wake.tells ω = 0) →
      (ms.foldl goOff b).news ω u ≤ b.news ω u := by
    intro ms
    induction ms with
    | nil => exact fun _ _ => Nat.le_refl _
    | cons m ms ih =>
        intro b hms
        have hwake : b.process? m.task ≠ none → (b.wake m.task m.wake).news ω u ≤ b.news ω u :=
          fun hp => news_wake (hms m List.mem_cons_self hp)
        have hrest : ∀ {c : Agenda σ β ρ}, (∀ v, c.process? v = none ↔ b.process? v = none) →
            c.news ω u ≤ b.news ω u → (ms.foldl goOff c).news ω u ≤ b.news ω u := by
          intro c hc hle
          refine Nat.le_trans (ih c fun n hn hp => ?_) hle
          exact hms n (List.mem_cons_of_mem m hn) fun h => hp ((hc n.task).mpr h)
        rw [List.foldl_cons]
        unfold goOff
        split
        · rename_i p hp
          split
          · exact hrest (fun v => process?_adjust_eq_none b (t := m.task)
              (f := fun p => { p with waiting := .queued m.wake })) (hwake (by rw [hp]; exact nofun))
          · exact hrest (fun _ => .rfl) (Nat.le_refl _)
        · exact hrest (fun _ => .rfl) (Nat.le_refl _)
  unfold Agenda.passTo
  rw [List.partition_eq_filter_filter]
  refine hall _ { a with now := time, timers := _ } fun m hm hp => ?_
  have hmem : m ∈ a.timers := by
    exact List.mem_of_mem_filter (List.mem_mergeSort.mp hm)
  obtain ⟨p, hp⟩ := Option.ne_none_iff_exists'.mp hp
  obtain ⟨-, hrouses⟩ := (ha.timed m hmem).2.2 p hp
  unfold Rouses at hrouses
  split at hrouses
  · rw [hrouses]
    rfl
  · rcases hrouses with h | h
    · rw [h]
      rfl
    · rw [h]
      rfl

end Agenda

/-! ## Where news comes from -/

/-- Whoever goes on with outcomes has them from tasks that have ended. -/
theorem History.Leads.of_arrived {h : History σ β ρ} {s : Stint σ β ρ} {body : β}
    {os : List (Outcome ρ)} (hl : h.Leads P s body (.arrived os)) :
    ∀ o ∈ os, ∃ c, h.Ended P s.task c o := by
  unfold History.Leads at hl
  split at hl
  · exact hl.elim
  · rcases hl.2 with h | h <;> exact nomatch h
  · rcases hl.2 with h | h | h <;> exact nomatch h
  · rcases hl.2 with ⟨_, h, -⟩ | ⟨_, h, -⟩ <;> exact nomatch h
  · rcases hl.2 with ⟨os', h, hos⟩ | h
    · obtain rfl := Wake.arrived.inj h
      exact hos
    · exact nomatch h
  · rcases hl.2 with ⟨os', h, hos⟩ | h
    · obtain rfl := Wake.arrived.inj h
      exact hos
    · exact nomatch h

/-- A sum that is not zero has a member that is not. -/
theorem exists_of_sum_ne_zero {α : Type} {f : α → Nat} {xs : List α} (h : (xs.map f).sum ≠ 0) :
    ∃ x ∈ xs, f x ≠ 0 := by
  obtain ⟨n, hn, hpos⟩ := List.sum_pos_iff_exists_pos_nat.mp (Nat.pos_of_ne_zero h)
  obtain ⟨x, hx, rfl⟩ := List.mem_map.mp hn
  exact ⟨x, hx, Nat.ne_of_gt hpos⟩

variable {ω}

/-- Only results have a weight. -/
theorem exists_of_weigh_ne_zero {o : Outcome ρ} (h : weigh ω o ≠ 0) :
    ∃ r, o = .ok r ∧ ω r ≠ 0 := by
  cases o with
  | ok r => exact ⟨r, rfl, h⟩
  | error st => exact absurd rfl h

/-- A stint has news for the task that started its own only when that ends with a result. -/
theorem Stint.of_tells {s : Stint σ β ρ} {u : TaskId} (h : s.tells ω P u ≠ 0) :
    s.audience = .task u ∧ ∃ r, s.Ends P (.ok r) ∧ s.tells ω P u = ω r ∧ ω r ≠ 0 := by
  unfold tells at h ⊢
  split at h
  · rename_i o ho
    split at h
    · rename_i haudience
      obtain ⟨r, rfl, hr⟩ := exists_of_weigh_ne_zero h
      rw [if_pos haudience]
      exact ⟨haudience, r, ho, rfl, hr⟩
    · exact absurd rfl h
  · exact absurd rfl h

/-- A stint with which its task does not end has no news. -/
theorem Stint.tells_of_body? {s : Stint σ β ρ} {b : β} (hb : (s.turn P).next.body? = some b)
    (u : TaskId) : s.tells ω P u = 0 := by
  unfold tells
  split
  · rename_i o ho
    rw [ho] at hb
    exact nomatch hb
  · rfl

/-- **There is no news but of tasks that have ended**, with a result that has some weight. -/
theorem Agenda.Sound.of_news {h : History σ β ρ} {a : Agenda σ β ρ} (ha : Agenda.Sound P none h a)
    {u : TaskId} (hnews : a.news ω u ≠ 0) :
    ∃ f ∈ h, f.audience = .task u ∧ ∃ r, f.Ends P (.ok r) ∧ ω r ≠ 0 := by
  have hended : ∀ {c r}, h.Ended P u c (.ok r) → ω r ≠ 0 →
      ∃ f ∈ h, f.audience = .task u ∧ ∃ r, f.Ends P (.ok r) ∧ ω r ≠ 0 := by
    intro c r he hr
    obtain ⟨f, hf, -, haudience, hends⟩ := he.of_ok
    exact ⟨f, hf, haudience, r, hends, hr⟩
  by_cases hready : (a.ready.map (Item.tells ω u)).sum = 0
  · have hheard : ((a.process? u).elim 0 fun p => p.waiting.tells ω) ≠ 0 := by
      intro hnone
      refine hnews ?_
      unfold news
      rw [hready, hnone]
    cases hp : a.process? u with
    | none =>
        rw [hp] at hheard
        exact absurd rfl hheard
    | some p =>
        rw [hp] at hheard
        have hstands := ha.stands u nofun p hp
        unfold Stands at hstands
        split at hstands
        · rcases hstands.waiting with hw | hw | hw
          all_goals
            dsimp only [Option.elim_some] at hheard
            rw [hw] at hheard
            exact absurd rfl hheard
        · rename_i s hs
          obtain ⟨-, rfl⟩ := History.latest_eq_some hs
          dsimp only [Option.elim_some] at hheard
          cases hstands.2.2 with
          | queued hw hl =>
              rename_i w
              rw [hw] at hheard
              cases w with
              | arrived os =>
                  obtain ⟨o, ho, hne⟩ := exists_of_sum_ne_zero hheard
                  obtain ⟨r, rfl, hr⟩ := exists_of_weigh_ne_zero hne
                  obtain ⟨c, hc⟩ := hl.of_arrived _ ho
                  exact hended hc hr
              | _ => exact absurd rfl hheard
          | asleep hw hs =>
              rw [hw] at hheard
              exact absurd rfl hheard
          | collecting hw hs =>
              rw [hw] at hheard
              exact absurd rfl hheard
          | awaiting hw hs =>
              rw [hw] at hheard
              exact absurd rfl hheard
          | gathering hw hs hn hg =>
              rw [hw] at hheard
              exact absurd rfl hheard
  · obtain ⟨i, hi, hne⟩ := exists_of_sum_ne_zero hready
    cases i with
    | run t => exact absurd rfl hne
    | report v c o =>
        have htells : (Item.report v c o).tells ω u = if v = u then weigh ω o else 0 := rfl
        rw [htells] at hne
        split at hne
        · rename_i hv
          obtain ⟨r, rfl, hr⟩ := exists_of_weigh_ne_zero hne
          exact hended (hv ▸ (ha.reported v c (.ok r) hi).2.2) hr
        · exact absurd rfl hne

end BuildingAlerts
