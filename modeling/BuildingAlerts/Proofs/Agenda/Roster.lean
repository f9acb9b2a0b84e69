/-
Who is under way for what.

The job of a task is what it does and for whom, and nothing else of it: not how it waits, and not
whether it was told to stop. Reports, time that passes and telling tasks to stop leave all jobs as
they are. A stint changes them in one way: its task goes on with other work or is gone, and what it
books and starts is added under the next numbers. An invariant on what is under way therefore only
has to look at what the program makes of each kind of work.

Much of what a program does is handed on from task to task: a task does a part of it and books or
starts the task that does the next part. Where a stint has at most one heir to work of a kind, and
only the work itself has heirs, there is one task at most that does such work.
-/
import BuildingAlerts.Proofs.Agenda.Run

set_option autoImplicit false

namespace BuildingAlerts

variable {σ β ρ : Type} {P : Program σ β ρ}

/-- What a stint begins: first what it books, then what it starts. -/
def Stint.jobs (P : Program σ β ρ) (s : Stint σ β ρ) : List (Audience × β) :=
  (s.turn P).appointments.map (fun m => (.nobody, m.body)) ++
    (s.turn P).next.children.map fun c => (.task s.task, c)

namespace Agenda

variable {a b : Agenda σ β ρ} {t u : TaskId}

/-- Who a task is under way for, and what it does. -/
def job? (a : Agenda σ β ρ) (t : TaskId) : Option (Audience × β) :=
  (a.process? t).map fun p => (p.audience, p.body)

theorem job?_eq_some {j : Audience × β} :
    a.job? t = some j ↔ ∃ p, a.process? t = some p ∧ p.audience = j.1 ∧ p.body = j.2 := by
  unfold job?
  rw [Option.map_eq_some_iff]
  exact exists_congr fun p => and_congr_right fun _ => Prod.ext_iff

theorem job?_eq_none : a.job? t = none ↔ a.process? t = none :=
  Option.map_eq_none_iff

/-! ## What leaves all jobs as they are -/

/-- A change of one task that does not touch what it does. -/
theorem job?_adjust {f : Process β ρ → Process β ρ}
    (hf : ∀ p, (f p).audience = p.audience ∧ (f p).body = p.body) :
    (a.adjust t f).job? u = a.job? u := by
  unfold job?
  rw [process?_adjust]
  split
  · rw [Option.map_map]
    exact congrArg (fun g => (a.process? u).map g) (funext fun p => Prod.ext (hf p).1 (hf p).2)
  · rfl

theorem job?_wake (w : Wake ρ) : (a.wake t w).job? u = a.job? u :=
  job?_adjust (a := a) (t := t) (f := fun p => { p with waiting := .queued w }) fun _ => ⟨rfl, rfl⟩

/-- A mark is taken off. -/
theorem job?_unmark : (a.adjust t fun p => { p with stopping := false }).job? u = a.job? u :=
  job?_adjust fun _ => ⟨rfl, rfl⟩

/-- Telling tasks to stop. -/
theorem Rebooked.job? (h : a.Rebooked b) (hstarted : b.started = a.started) :
    b.job? u = a.job? u := by
  cases hu : b.process? u with
  | none =>
      rw [job?_eq_none.mpr hu, job?_eq_none.mpr (h.process?_eq_none hu)]
  | some q =>
      rcases h.process?_eq_some hu with ⟨p, hp, hpq⟩ | ⟨-, hle, hlt, -⟩
      · unfold Agenda.job?
        rw [hu, hp, Option.map_some, Option.map_some, hpq.audience, hpq.body]
      · exact absurd (hstarted ▸ hlt) (Nat.not_lt.mpr hle)

theorem job?_cancel : (a.cancel t).job? u = a.job? u :=
  (rebooked_cancel a t).job? (cancelWithin_keeps _ _ _).1

theorem job?_cancelKey (key : String) : (a.cancelKey key).2.job? u = a.job? u :=
  (rebooked_cancelKey a key).job? (started_cancelKey a key)

theorem job?_cancelAlert (alertId : String) : (a.cancelAlert alertId).2.job? u = a.job? u := by
  have hall : ∀ (keys : List String) (b : Agenda σ β ρ),
      (b.cancelKeys keys).2.job? u = b.job? u := by
    intro keys
    induction keys with
    | nil => exact fun _ => rfl
    | cons key keys ih => exact fun b => (ih _).trans (job?_cancelKey key)
  exact hall _ a

theorem job?_cancelBookings : a.cancelBookings.job? u = a.job? u := by
  have hall : ∀ (ts : List TaskId) (b : Agenda σ β ρ), (ts.foldl cancel b).job? u = b.job? u := by
    intro ts
    induction ts with
    | nil => exact fun _ => rfl
    | cons t ts ih => exact fun b => (ih _).trans job?_cancel
  exact hall _ a

theorem job?_passTo (time : Instant) : (a.passTo time).job? u = a.job? u :=
  foldl_goOff (f := (·.job? u)) (fun _ _ w => job?_wake w) _ _

theorem job?_report (child : TaskId) (o : Outcome ρ) :
    (a.report t child o).job? u = a.job? u := by
  unfold report
  split
  · rfl
  · split
    · split
      · split
        · exact job?_wake _
        · dsimp only
          split
          · exact job?_wake _
          · exact job?_adjust fun _ => ⟨rfl, rfl⟩
      · rfl
    · exact job?_wake _
    · exact job?_adjust fun _ => ⟨rfl, rfl⟩
    · rfl

/-! ## What begins and ends -/

theorem job?_start (ha : a.Numbered) (p : Process β ρ) :
    (a.start p).job? u = if u = a.started then some (p.audience, p.body) else a.job? u := by
  unfold job?
  rw [ha.process?_start]
  split
  · rfl
  · rfl

/-- What is booked has the next numbers. -/
theorem job?_bookAll (ms : List (Appointment β)) (ha : a.Numbered) :
    (a.bookAll ms).job? u = if u < a.started then a.job? u
      else (ms[u - a.started]?).map fun m => (.nobody, m.body) := by
  induction ms generalizing a with
  | nil =>
      split
      · rfl
      · rename_i hu
        exact job?_eq_none.mpr (ha.process?_eq_none (Nat.le_of_not_lt hu))
  | cons m ms ih =>
      have hbook := rebooked_book ha m
      have hone : (a.book m).job? u = if u = a.started then some (.nobody, m.body)
          else a.job? u := by
        have hkey := rebooked_cancelKey a m.key
        have hstart := job?_start (u := u) (hkey.numbered ha) (.booked m.key m.delay m.body)
        rw [started_cancelKey, job?_cancelKey] at hstart
        exact hstart
      have hstarted : (a.book m).started = a.started + 1 :=
        congrArg (· + 1) (started_cancelKey a m.key)
      have hrest := ih (hbook.numbered ha)
      rw [hstarted, hone] at hrest
      refine hrest.trans ?_
      rcases Nat.lt_trichotomy u a.started with hu | hu | hu
      · rw [if_pos (Nat.lt_succ_of_lt hu), if_neg (Nat.ne_of_lt hu), if_pos hu]
      · rw [if_pos (Nat.lt_succ_of_le (Nat.le_of_eq hu)), if_pos hu, hu,
          if_neg (Nat.lt_irrefl _), Nat.sub_self]
        rfl
      · obtain ⟨k, rfl⟩ := Nat.exists_eq_add_of_lt hu
        have hk : a.started + k + 1 - a.started = k + 1 := by
          rw [Nat.add_assoc, Nat.add_sub_cancel_left]
        have hk' : a.started + k + 1 - (a.started + 1) = k := by
          rw [Nat.add_sub_add_right, Nat.add_sub_cancel_left]
        rw [if_neg (Nat.not_lt.mpr hu), if_neg (Nat.not_lt.mpr (Nat.le_of_lt hu)), hk, hk',
          List.getElem?_cons_succ]

theorem job?_finish {p : Process β ρ} {o : Outcome ρ} :
    (a.finish t p o).job? u = if u = t then none else a.job? u := by
  have hprocess : (a.finish t p o).process? u = (a.remove t).process? u := by
    unfold finish
    cases p.key <;> cases p.audience <;> rfl
  unfold job?
  rw [hprocess, process?_remove]
  split
  · rfl
  · rfl

theorem job?_park (body : β) (w : Waiting ρ) :
    (a.park t body w).job? u
      = if u = t then (a.process? t).map fun p => (p.audience, body) else a.job? u := by
  unfold job?
  rw [process?_park]
  split
  · rename_i hu
    rw [hu, Option.map_map]
    rfl
  · rfl

theorem job?_lay (body : β) (delay limit : Delay) (w : Wake ρ) :
    (a.lay t body delay limit w).job? u
      = if u = t then (a.process? t).map fun p => (p.audience, body) else a.job? u := by
  unfold lay
  split
  · exact job?_park body _
  · exact job?_park body _

/-- What a task does when it stops working. -/
theorem job?_settleTurn (ha : a.Numbered) {p : Process β ρ} (hp : a.process? t = some p)
    (next : Next β ρ) :
    (a.settleTurn t p next).job? u
      = if u = t then next.body?.map fun body => (p.audience, body)
        else if u < a.started then a.job? u
        else (next.children[u - a.started]?).map fun c => (.task t, c) := by
  have hnew : ¬ u < a.started → a.job? u = none := fun hu =>
    job?_eq_none.mpr (ha.process?_eq_none (Nat.le_of_not_lt hu))
  have hold : (if u < a.started then a.job? u else none) = a.job? u := by
    split
    · rfl
    · rename_i hu
      exact (hnew hu).symm
  have hstop : ∀ {b : Agenda σ β ρ}, (if p.stopping then
      (b.adjust t fun p => { p with stopping := false }).cancel t else b).job? u = b.job? u := by
    intro b
    split
    · exact job?_cancel.trans job?_unmark
    · rfl
  have hlaunched : ∀ (children : List β) (body : β) (w : Waiting ρ),
      ((a.launchAll t children).park t body w).job? u
        = if u = t then some (p.audience, body) else if u < a.started then a.job? u
          else (children[u - a.started]?).map fun c => (.task t, c) := by
    intro children body w
    have hl := launched_launchAll t children ha
    rw [job?_park, hl.process, if_pos (ha hp), hp]
    split
    · rfl
    · unfold job?
      rw [hl.process]
      split
      · rfl
      · rw [Option.map_map]
        rfl
  unfold settleTurn
  cases next with
  | finish o =>
      refine job?_finish.trans ?_
      split
      · rfl
      · exact hold.symm
  | pause body =>
      refine (job?_park body _).trans ?_
      rw [hp]
      split
      · rfl
      · exact hold.symm
  | sleep delay limit body =>
      have hlay := job?_lay (a := a) (t := t) (u := u) body delay limit .resumed
      rw [hp] at hlay
      have hsleep : (a.lay t body delay limit .resumed).job? u
          = if u = t then some (p.audience, body) else if u < a.started then a.job? u else none := by
        rw [hold]
        exact hlay
      dsimp only
      split
      · exact ((job?_wake _).trans job?_unmark).trans hsleep
      · exact hsleep
  | gather children body => exact hstop.trans (hlaunched children body _)
  | collect children body => exact hstop.trans (hlaunched children body _)
  | await body =>
      refine hstop.trans ((job?_park body _).trans ?_)
      rw [hp]
      split
      · rfl
      · exact hold.symm

/-! ## Steps -/

/-- What a stint books comes before what it starts. -/
theorem jobs_eq {s : Stint σ β ρ} (x y : Option (Audience × β)) :
    (if u = t then x
      else if u < s.started + (s.turn P).appointments.length then
        if u < s.started then y
        else ((s.turn P).appointments[u - s.started]?).map fun m => (.nobody, m.body)
      else ((s.turn P).next.children[u - (s.started + (s.turn P).appointments.length)]?).map
        fun c => (.task s.task, c))
      = if u = t then x else if u < s.started then y else (s.jobs P)[u - s.started]? := by
  unfold Stint.jobs
  split
  · rfl
  · rw [List.getElem?_append, List.length_map, List.getElem?_map, List.getElem?_map]
    rcases Nat.lt_or_ge u s.started with hu | hu
    · rw [if_pos hu, if_pos (Nat.lt_add_right _ hu), if_pos hu]
    · obtain ⟨k, rfl⟩ := Nat.exists_eq_add_of_le hu
      rw [if_neg (Nat.not_lt.mpr hu), if_neg (Nat.not_lt.mpr hu), Nat.add_sub_cancel_left,
        Nat.add_sub_add_left]
      split
      · rename_i hk
        rw [if_pos (Nat.lt_of_add_lt_add_left hk)]
      · rename_i hk
        rw [if_neg fun h => hk (Nat.add_lt_add_left h _)]

/-- A turn of a task that works. -/
theorem job?_run_of_stint (ha : a.Numbered) {s : Stint σ β ρ} (hs : a.stint? t = some s) :
    (a.run P t).job? u = if u = t then (s.turn P).next.body?.map fun body => (s.audience, body)
      else if u < a.started then a.job? u else (s.jobs P)[u - a.started]? := by
  cases runsTo P a t with
  | idle _ h _ => exact nomatch hs.symm.trans h
  | dropped _ _ _ _ h _ => exact nomatch hs.symm.trans h
  | delayed _ _ _ _ h _ => exact nomatch hs.symm.trans h
  | @works p w v hp hw hv hb h hr =>
      obtain rfl := Option.some.inj (h.symm.trans hs)
      obtain ⟨q, hq, hpq, hwork⟩ := work_eq_settleTurn ha hp p.body v (P := P)
      have hnumbered : (a.atWork t (P a.now a.state p.body v).state).Numbered := ha.atWork _
      have hbooked := rebooked_bookAll (P a.now a.state p.body v).appointments hnumbered
      have hjob : (a.atWork t (P a.now a.state p.body v).state).job? u = a.job? u := by
        have hadjust := job?_adjust (a := a) (t := t) (u := u) (f := fun p =>
          { p with waiting := .working, begun := true, stopping := false }) fun _ => ⟨rfl, rfl⟩
        exact hadjust
      have hbook := job?_bookAll (u := u) (P a.now a.state p.body v).appointments hnumbered
      rw [hjob] at hbook
      rw [hr, hwork, job?_settleTurn (hbooked.numbered hnumbered) hq, hpq.audience,
        started_bookAll, hbook]
      exact jobs_eq (s := ⟨t, p.audience, a.now, a.state, p.body, v, !p.begun, a.started⟩) _ _

/-- **What a stint makes of the jobs**: its task goes on with other work or is gone, and what it
books and starts is added. -/
theorem job?_of_stint (ha : a.Numbered) {place : Nat} {s : Stint σ β ρ}
    (hs : a.stintAt? place = some s) (hb : a.stepAt P place = some b) :
    b.job? u = if u = s.task then (s.turn P).next.body?.map fun body => (s.audience, body)
      else if u < a.started then a.job? u else (s.jobs P)[u - a.started]? := by
  obtain ⟨hi, hstint, -⟩ := stintAt?_eq_some hs
  unfold stepAt at hb
  rw [hi] at hb
  obtain rfl := Option.some.inj hb
  exact job?_run_of_stint (a := a.taken place) ha hstint

/-- Without a stint all tasks stay, but one that was told to stop before it began. -/
theorem job?_of_no_stint {place : Nat} (hs : a.stintAt? place = none)
    (hb : a.stepAt P place = some b) (u : TaskId) :
    b.job? u = a.job? u ∨ b.job? u = none ∧ ∃ p, a.process? u = some p ∧ p.begun = false ∧
      (p.stopping = true ∨ ∃ st, p.waiting = .queued (.stopped st)) := by
  unfold stepAt at hb
  obtain ⟨i, hi, rfl⟩ := Option.map_eq_some_iff.mp hb
  unfold stintAt? at hs
  rw [hi] at hs
  cases i with
  | report t c o => exact .inl (job?_report (a := a.taken place) c o)
  | run t =>
      have hstint : (a.taken place).stint? t = none := hs
      show ((a.taken place).run P t).job? u = a.job? u ∨
        ((a.taken place).run P t).job? u = none ∧ _
      cases runsTo P (a.taken place) t with
      | idle _ _ hr =>
          rw [hr]
          exact .inl rfl
      | works _ _ _ _ h _ => exact nomatch hstint.symm.trans h
      | @dropped p w st hp hbegun hw hst _ hr =>
          rw [hr, job?_finish]
          split
          · rename_i hu
            refine .inr ⟨rfl, p, hu ▸ hp, hbegun, ?_⟩
            rcases hst with ⟨h, -⟩ | rfl
            · exact .inl h
            · exact .inr ⟨st, hw⟩
          · exact .inl rfl
      | @delayed p w d hp _ _ _ _ hr =>
          have hundelayed : ((a.taken place).adjust t fun p => { p with delay := none }).process? t
              = some { p with delay := none } := by
            rw [process?_adjust_self, hp]
            rfl
          rw [hr, job?_lay, hundelayed]
          refine .inl ?_
          split
          · rename_i hu
            unfold job?
            rw [hu, show a.process? t = some p from hp]
            rfl
          · exact job?_adjust (a := a.taken place) fun _ => ⟨rfl, rfl⟩

/-- The task of a stint is under way for what it does in it. -/
theorem job?_of_stintAt {place : Nat} {s : Stint σ β ρ} (hs : a.stintAt? place = some s) :
    a.job? s.task = some (s.audience, s.body) := by
  obtain ⟨-, -, p, hp, hof⟩ := stintAt?_eq_some hs
  unfold job?
  rw [hp, hof.audience, hof.body]
  rfl

/-- Where a job comes from that is there after a stint. -/
inductive Comes (P : Program σ β ρ) (a : Agenda σ β ρ) (s : Stint σ β ρ) (u : TaskId)
    (j : Audience × β) : Prop where
  | stays (hu : u ≠ s.task) (hj : a.job? u = some j)
  | goesOn (hu : u = s.task) (haudience : j.1 = s.audience)
      (hbody : (s.turn P).next.body? = some j.2)
  | added {i : Nat} (hu : u = a.started + i) (hj : (s.jobs P)[i]? = some j)

theorem comes_of_stint (ha : a.Numbered) {place : Nat} {s : Stint σ β ρ}
    (hs : a.stintAt? place = some s) (hb : a.stepAt P place = some b) {j : Audience × β}
    (hj : b.job? u = some j) : Comes P a s u j := by
  rw [job?_of_stint ha hs hb] at hj
  split at hj
  · rename_i hu
    obtain ⟨body, hbody, rfl⟩ := Option.map_eq_some_iff.mp hj
    exact .goesOn hu rfl hbody
  · rename_i hne
    split at hj
    · exact .stays hne hj
    · rename_i hu
      refine .added (i := u - a.started) ?_ hj
      exact (Nat.add_sub_of_le (Nat.le_of_not_lt hu)).symm

end Agenda

/-! ## Work that one task does at most -/

/-- The work that comes of a turn: what its task goes on with, what it books and what it starts. -/
def Turn.heirs (x : Turn σ β ρ) : List β :=
  x.next.body?.toList ++ (x.appointments.map (·.body) ++ x.next.children)

theorem Stint.map_jobs (s : Stint σ β ρ) : (s.jobs P).map (·.2)
    = (s.turn P).appointments.map (·.body) ++ (s.turn P).next.children := by
  unfold jobs
  rw [List.map_append, List.map_map, List.map_map]
  exact congrArg _ (List.map_id _)

/-- Of a list with one member of a kind at most, no two places hold such members. -/
theorem eq_of_filter_length_le_one {α : Type} {D : α → Bool} {l : List α}
    (hl : (l.filter D).length ≤ 1) {i k : Nat} {x y : α} (hx : l[i]? = some x)
    (hy : l[k]? = some y) (hDx : D x = true) (hDy : D y = true) : i = k := by
  have htwo : ∀ {i k : Nat} {x y : α}, l[i]? = some x → l[k]? = some y → D x = true →
      D y = true → ¬ i < k := by
    intro i k x y hx hy hDx hDy hlt
    have htake : x ∈ (l.take k).filter D := by
      refine List.mem_filter.mpr ⟨List.mem_of_getElem? (i := i) ?_, hDx⟩
      rw [List.getElem?_take_of_lt hlt]
      exact hx
    have hdrop : y ∈ (l.drop k).filter D := by
      refine List.mem_filter.mpr ⟨List.mem_of_getElem? (i := 0) ?_, hDy⟩
      rw [List.getElem?_drop]
      exact hy
    rw [← List.take_append_drop k l, List.filter_append, List.length_append] at hl
    have h₁ := List.length_pos_of_mem htake
    have h₂ := List.length_pos_of_mem hdrop
    omega
  rcases Nat.lt_trichotomy i k with h | h | h
  · exact absurd h (htwo hx hy hDx hDy)
  · exact h
  · exact absurd h (htwo hy hx hDy hDx)

namespace Agenda

variable {a b : Agenda σ β ρ} {t u : TaskId} {D : β → Bool}

/-- What is there after a stint was there before, or is an heir of the stint. -/
theorem Comes.stays_or_heir {s : Stint σ β ρ} {u : TaskId} {j : Audience × β}
    (h : Comes P a s u j) : u ≠ s.task ∧ a.job? u = some j ∨ j.2 ∈ (s.turn P).heirs := by
  cases h with
  | stays hu hj => exact .inl ⟨hu, hj⟩
  | goesOn _ _ hbody => exact .inr (List.mem_append_left _ (Option.mem_toList.mpr hbody))
  | added _ hj =>
      have hmem := List.mem_map_of_mem (f := (·.2)) (List.mem_of_getElem? hj)
      rw [s.map_jobs] at hmem
      exact .inr (List.mem_append_right _ hmem)

/-- At most one task does work of a kind. -/
structure Sole (D : β → Bool) (a : Agenda σ β ρ) : Prop where
  eq : ∀ {t u j k}, a.job? t = some j → a.job? u = some k → D j.2 = true → D k.2 = true → t = u

theorem sole_idle (s : σ) : Sole D (idle s : Agenda σ β ρ) :=
  ⟨fun hj => nomatch hj⟩

/-- Tasks that are gone do no work. -/
theorem Sole.lose (ha : Sole D a) (hb : ∀ u, b.job? u = a.job? u ∨ b.job? u = none) :
    Sole D b := by
  have hold : ∀ {u k}, b.job? u = some k → a.job? u = some k := by
    intro u k hk
    rcases hb u with h | h
    · rw [← h]
      exact hk
    · exact nomatch h.symm.trans hk
  exact ⟨fun hj hk => ha.eq (hold hj) (hold hk)⟩

/-- Tasks are added, at most one of the kind, and that only if there was none. -/
theorem Sole.add (ha : Sole D a) {js : List (Audience × β)}
    (hb : ∀ u, b.job? u = if u < a.started then a.job? u else js[u - a.started]?)
    (hone : ((js.map (·.2)).filter D).length ≤ 1)
    (hnew : (js.map (·.2)).filter D ≠ [] → ∀ u j, a.job? u = some j → D j.2 = false) :
    Sole D b := by
  have hcase : ∀ {u k}, b.job? u = some k → D k.2 = true → (a.job? u = some k ∧
      (js.map (·.2)).filter D = []) ∨ ∃ i, u = a.started + i ∧ js[i]? = some k := by
    intro u k hk hD
    rw [hb] at hk
    split at hk
    · refine .inl ⟨hk, ?_⟩
      by_contra hne
      exact nomatch hD.symm.trans (hnew hne u k hk)
    · rename_i hu
      exact .inr ⟨u - a.started, (Nat.add_sub_of_le (Nat.le_of_not_lt hu)).symm, hk⟩
  have hmem : ∀ {i : Nat} {k : Audience × β}, js[i]? = some k → D k.2 = true → (js.map (·.2)).filter D ≠ [] := by
    intro i k hk hD
    exact List.ne_nil_of_mem (List.mem_filter.mpr ⟨List.mem_map_of_mem (List.mem_of_getElem? hk), hD⟩)
  have hget : ∀ {i : Nat} {k : Audience × β}, js[i]? = some k → (js.map (·.2))[i]? = some k.2 := by
    intro i k hk
    rw [List.getElem?_map, hk]
    rfl
  refine ⟨fun {t u j k} hj hk hDj hDk => ?_⟩
  rcases hcase hj hDj with ⟨hj, hnil⟩ | ⟨i, rfl, hi⟩
  · rcases hcase hk hDk with ⟨hk, -⟩ | ⟨i, -, hi⟩
    · exact ha.eq hj hk hDj hDk
    · exact absurd hnil (hmem hi hDk)
  · rcases hcase hk hDk with ⟨-, hnil⟩ | ⟨i', rfl, hi'⟩
    · exact absurd hnil (hmem hi hDj)
    · rw [eq_of_filter_length_le_one hone (hget hi) (hget hi') hDj hDk]

/-- A stint leaves one task of the kind at most, if what comes of it has one at most, and that
only if the task of the stint was it or there was none. -/
theorem Sole.stint (ha : Sole D a) (hn : a.Numbered) {place : Nat} {s : Stint σ β ρ}
    (hs : a.stintAt? place = some s) (hb : a.stepAt P place = some b)
    (hone : ((s.turn P).heirs.filter D).length ≤ 1)
    (hnew : (s.turn P).heirs.filter D ≠ [] →
      D s.body = true ∨ ∀ u j, a.job? u = some j → D j.2 = false) : Sole D b := by
  -- the places of the heirs: the task itself comes first
  have hplace : ∀ {u k}, Comes P a s u k → D k.2 = true →
      (u ≠ s.task ∧ a.job? u = some k) ∨
        ((s.turn P).next.body? = some k.2 ∧ u = s.task) ∨
        ∃ i, u = a.started + i ∧ (s.turn P).heirs[(s.turn P).next.body?.toList.length + i]?
          = some k.2 := by
    intro u k hk hD
    cases hk with
    | stays hu hj => exact .inl ⟨hu, hj⟩
    | goesOn hu _ hbody => exact .inr (.inl ⟨hbody, hu⟩)
    | @added i hu hj =>
        refine .inr (.inr ⟨i, hu, ?_⟩)
        unfold Turn.heirs
        rw [List.getElem?_append_right (Nat.le_add_right _ _), Nat.add_sub_cancel_left,
          ← s.map_jobs, List.getElem?_map, hj]
        rfl
  have hfirst : ∀ {x}, (s.turn P).next.body? = some x → (s.turn P).heirs[0]? = some x := by
    intro x hx
    unfold Turn.heirs
    rw [hx]
    rfl
  have hheir : ∀ {i : Nat} {x : β}, (s.turn P).heirs[i]? = some x → D x = true →
      ∀ {u j}, u ≠ s.task → a.job? u = some j → D j.2 = true → False := by
    intro i x hx hDx u j hu hj hDj
    rcases hnew (List.ne_nil_of_mem (List.mem_filter.mpr ⟨List.mem_of_getElem? hx, hDx⟩))
      with hD | hnone
    · exact hu (ha.eq hj (job?_of_stintAt hs) hDj hD)
    · exact nomatch hDj.symm.trans (hnone u j hj)
  refine ⟨fun {t u j k} hj hk hDj hDk => ?_⟩
  rcases hplace (comes_of_stint hn hs hb hj) hDj with ⟨hne, hj⟩ | ⟨hx, rfl⟩ | ⟨i, rfl, hi⟩
  · rcases hplace (comes_of_stint hn hs hb hk) hDk with ⟨-, hk⟩ | ⟨hy, -⟩ | ⟨i', -, hi'⟩
    · exact ha.eq hj hk hDj hDk
    · exact (hheir (hfirst hy) hDk hne hj hDj).elim
    · exact (hheir hi' hDk hne hj hDj).elim
  · rcases hplace (comes_of_stint hn hs hb hk) hDk with ⟨hne, hk⟩ | ⟨-, rfl⟩ | ⟨i', -, hi'⟩
    · exact (hheir (hfirst hx) hDj hne hk hDk).elim
    · rfl
    · have heq := eq_of_filter_length_le_one hone (hfirst hx) hi' hDj hDk
      rw [hx] at heq
      exact absurd heq (Nat.ne_of_lt (Nat.lt_add_right _ Nat.zero_lt_one))
  · rcases hplace (comes_of_stint hn hs hb hk) hDk with ⟨hne, hk⟩ | ⟨hy, -⟩ | ⟨i', rfl, hi'⟩
    · exact (hheir hi hDj hne hk hDk).elim
    · have heq := eq_of_filter_length_le_one hone (hfirst hy) hi hDk hDj
      rw [hy] at heq
      exact absurd heq (Nat.ne_of_lt (Nat.lt_add_right _ Nat.zero_lt_one))
    · have heq := eq_of_filter_length_le_one hone hi hi' hDj hDk
      rw [Nat.add_left_cancel heq]

end Agenda

end BuildingAlerts
