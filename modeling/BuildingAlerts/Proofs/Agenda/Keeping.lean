/-
Runs keep booked tasks faithful.

A turn changes its own task, starts others and may book some. What it books and what it starts are kept
apart here: whoever books something ends with that turn, so a turn either leaves the bookings alone or
ends its task.
-/
import BuildingAlerts.Proofs.Agenda.Faithful
import BuildingAlerts.Proofs.Agenda.News

set_option autoImplicit false

namespace BuildingAlerts

variable {σ β ρ : Type}

namespace Agenda

variable {P : Program σ β ρ} {G F L : β → Prop} {h k : History σ β ρ} {a b : Agenda σ β ρ}
  {t u : TaskId} {busy : Option TaskId}

/-! ## A task that is not marked stops working -/

/-- A task that is laid to sleep waits for a time or for its turn. -/
theorem lay_parks (a : Agenda σ β ρ) (t : TaskId) (body : β) (delay limit : Delay) (w : Wake ρ) :
    ∃ v, (v = .queued w ∨ v = .asleep) ∧
      (a.lay t body delay limit w).process? = (a.park t body v).process? ∧
      (a.lay t body delay limit w).timetable = a.timetable ∧
      (a.lay t body delay limit w).started = a.started := by
  unfold lay
  split
  · exact ⟨.queued w, .inl rfl, rfl, rfl, rfl⟩
  · exact ⟨.asleep, .inr rfl, rfl, rfl, rfl⟩

/-- What becomes of the tasks when one stops working that was not told to stop meanwhile. -/
structure Settles (a : Agenda σ β ρ) (t : TaskId) (p : Process β ρ) (next : Next β ρ)
    (b : Agenda σ β ρ) : Prop where
  others : ∀ {u}, u ≠ t → b.process? u = if u < a.started then a.process? u
    else (next.children[u - a.started]?).map fun c => .fresh c (.task t)
  self : ∃ w, b.process? t = next.body?.map (fun body => { p with body := body, waiting := w }) ∧
    ∀ cs got, w = .all cs got → ∃ bs body, next = .gather bs body ∧
      cs = List.range' a.started bs.length
  registered : ∀ {key u}, u ≠ t → (b.Registered key u ↔ a.Registered key u)
  kept : (∀ o, next ≠ .finish o) → b.timetable = a.timetable
  started : b.started = a.started + next.children.length

/-- The task waits for something, with others that it has started. -/
theorem settles_park (ha : a.Numbered) {p : Process β ρ} (hp : a.process? t = some p)
    {next : Next β ρ} {body : β} (hbody : next.body? = some body) {w : Waiting ρ}
    (hw : ∀ cs got, w = .all cs got → ∃ bs body, next = .gather bs body ∧
      cs = List.range' a.started bs.length) (hb : b.process? = Agenda.process?
      ((a.launchAll t next.children).park t body w)) (htable : b.timetable = a.timetable)
    (hstarted : b.started = (a.launchAll t next.children).started) : Settles a t p next b where
  others := by
    intro u hu
    rw [hb, process?_park, if_neg hu]
    exact (launched_launchAll t next.children ha).process u
  self := by
    refine ⟨w, ?_, hw⟩
    rw [hb, process?_park, if_pos rfl, (launched_launchAll t next.children ha).process,
      if_pos (ha hp), hp, hbody]
    rfl
  registered := by
    intro key u _
    unfold Registered
    rw [htable]
  kept := fun _ => htable
  started := hstarted.trans (launched_launchAll t next.children ha).started

theorem settles (ha : a.Numbered) {p : Process β ρ} (hp : a.process? t = some p)
    (hs : p.stopping = false) (next : Next β ρ) :
    Settles a t p next (a.settleTurn t p next) := by
  unfold settleTurn
  cases next with
  | finish o =>
      dsimp only
      rw [hs, if_neg Bool.false_ne_true]
      obtain ⟨hprocess, -, hstarted⟩ := process?_timetable_finish a t p o
      refine ⟨fun {u} hu => ?_, ⟨.working, ?_, nofun⟩, fun {key u} hu => ?_,
        fun h => absurd rfl (h o), hstarted⟩
      · rw [hprocess, if_neg hu]
        split
        · rfl
        · rename_i hlt
          exact ha.process?_eq_none (Nat.le_of_not_lt hlt)
      · rw [hprocess, if_pos rfl]
        rfl
      · refine ⟨?_, ?_⟩
        · rintro ⟨x, hx, rfl⟩
          exact ⟨x, (get?_finish o).1 hx, rfl⟩
        · rintro ⟨x, hx, rfl⟩
          exact ⟨x, (get?_finish o).2 hx hu, rfl⟩
  | pause body => exact settles_park ha hp rfl (w := .queued .resumed) nofun rfl rfl rfl
  | sleep delay limit body =>
      obtain ⟨v, hv, hprocess, htable, hstarted⟩ := lay_parks a t body delay limit .resumed
      dsimp only
      rw [hs, Bool.false_and, if_neg Bool.false_ne_true]
      refine settles_park ha hp rfl (fun cs got h => ?_) hprocess htable hstarted
      rcases hv with hv | hv
      · exact nomatch hv.symm.trans h
      · exact nomatch hv.symm.trans h
  | gather children body =>
      dsimp only
      rw [hs, if_neg Bool.false_ne_true]
      refine settles_park ha hp rfl (fun cs got h => ?_) rfl (timetable_launchAll t children a) rfl
      exact ⟨children, body, rfl, (Waiting.all.inj h).1.symm⟩
  | collect children body =>
      dsimp only
      rw [hs, if_neg Bool.false_ne_true]
      exact settles_park ha hp rfl (w := .any) nofun rfl (timetable_launchAll t children a) rfl
  | await body =>
      dsimp only
      rw [hs, if_neg Bool.false_ne_true]
      exact settles_park ha hp rfl (w := .any) nofun rfl rfl rfl

/-! ## The other tasks -/

theorem Fails.beside (hab : Heeds (some t) a b) (hns : ∀ n ∈ k, n.task = t) (hu : u ≠ t)
    (hf : Fails P L h a u) : Fails P L (k ++ h) b u := by
  rcases hf with ⟨p, hp, hL, hm⟩ | ⟨hlt, hnone, hno⟩
  · obtain ⟨q, hq, hpq⟩ := hab.kept (fun he => hu (Option.some.inj he).symm) hp
    exact .inl ⟨q, hq, hpq.body ▸ hL, hpq.marked hm⟩
  · refine .inr ⟨Nat.lt_of_lt_of_le hlt hab.started, hab.gone hlt hnone, fun f hf hfu => ?_⟩
    rcases List.mem_append.mp hf with hf | hf
    · exact absurd (hfu.symm.trans (hns f hf)) hu
    · exact hno f hf hfu

/-- A task stays fated when another one has its turn, unless it waits for that one and that one does
not fail. -/
theorem Fated.beside (hab : Heeds (some t) a b) (hns : ∀ n ∈ k, n.task = t)
    (hfails : Fails P L h a t → Fails P L (k ++ h) b t) (hu : u ≠ t)
    (hf : Fated P F L h a u) : Fated P F L (k ++ h) b u := by
  obtain ⟨p, hp, hF, hfate⟩ := hf
  obtain ⟨q, hq, hpq⟩ := hab.kept (fun he => hu (Option.some.inj he).symm) hp
  refine ⟨q, hq, hpq.body ▸ hF, ?_⟩
  rcases hfate with hm | ⟨s, bs, body, hs, hnext, c, hc, hcf⟩
  · exact .inl (hpq.marked hm)
  · refine .inr ⟨s, bs, body, ?_, hnext, c, hc, ?_⟩
    · rw [History.latest_append_of_ne fun n hn he => hu (he.symm.trans (hns n hn))]
      exact hs
    · by_cases hct : c = t
      · subst hct
        exact hfails hcf
      · exact hcf.beside hab hns hct

theorem Faithful.weaken (ha : Faithful P F L none h a) : Faithful P F L busy h a :=
  ⟨ha.lean, fun _ => ha.fated nofun, ha.spared⟩

/-- A turn of a task leaves the others faithful, if it does so for its own task. -/
theorem Faithful.beside {busy : Option TaskId} (ha : Faithful P F L (some t) h a)
    (hab : Heeds (some t) a b) (hns : ∀ n ∈ k, n.task = t)
    (hsame : ∀ {u q}, u ≠ t → b.process? u = some q →
      a.process? u = some q ∨ q.key = none ∧ q.waiting = .queued .start)
    (hregistered : ∀ {key u}, u ≠ t → (b.Registered key u ↔ a.Registered key u))
    (hfails : Fails P L h a t → Fails P L (k ++ h) b t)
    (hself : ∀ {q}, b.process? t = some q → ∃ p, a.process? t = some p ∧ q.key = p.key ∧
      (L p.body → L q.body))
    (hlean : ∀ {q cs got}, b.process? t = some q → q.waiting = .all cs got →
      LeansOn P F L (k ++ h) b t q cs)
    (hfated : ∀ {q key}, busy ≠ some t → b.process? t = some q → q.key = some key →
      ¬ b.Registered key t → Fated P F L (k ++ h) b t)
    (hspared : ∀ {q key}, b.process? t = some q → q.key = some key → q.begun = false →
      b.Registered key t → ¬ q.Marked) : Faithful P F L busy (k ++ h) b := by
  have hbusy : ∀ {u}, u ≠ t → some t ≠ some u := fun hu he => hu (Option.some.inj he).symm
  refine ⟨?_, ?_, ?_⟩
  · intro u q cs got hq hw
    by_cases hu : u = t
    · subst hu
      exact hlean hq hw
    · rcases hsame hu hq with hp | ⟨-, hstart⟩
      · obtain ⟨hupper, ⟨s, bs, hs, hnext, hcs⟩, hpast, hothers⟩ := ha.lean u q cs got hp hw
        refine ⟨hupper, ⟨s, bs, ?_, hnext, hcs⟩,
          fun c hc => Nat.lt_of_lt_of_le (hpast c hc) hab.started, fun c hc r hr => ?_⟩
        · rw [History.latest_append_of_ne fun n hn he => hu (he.symm.trans (hns n hn))]
          exact hs
        · by_cases hct : c = t
          · subst hct
            obtain ⟨p, hp', hkey, hL⟩ := hself hr
            obtain ⟨hnone, hlower⟩ := hothers c hc p hp'
            exact ⟨hkey.trans hnone, fun hF => hL (hlower hF)⟩
          · obtain ⟨p, hp', hpr⟩ := hab.of_some (hbusy hct) (hpast c hc) hr
            obtain ⟨hnone, hlower⟩ := hothers c hc p hp'
            exact ⟨hpr.key.trans hnone, fun hF => hpr.body ▸ hlower hF⟩
      · exact nomatch hstart.symm.trans hw
  · intro u q key hbu hq hkey hno
    by_cases hu : u = t
    · subst hu
      exact hfated hbu hq hkey hno
    · rcases hsame hu hq with hp | ⟨hnone, -⟩
      · exact (ha.fated (hbusy hu) hp hkey fun hr => hno ((hregistered hu).mpr hr)).beside hab hns
          hfails hu
      · exact nomatch hkey.symm.trans hnone
  · intro u q key hq hkey hbegun hreg
    by_cases hu : u = t
    · subst hu
      exact hspared hq hkey hbegun hreg
    · rcases hsame hu hq with hp | ⟨hnone, -⟩
      · exact ha.spared hp hkey hbegun ((hregistered hu).mp hreg)
      · exact nomatch hkey.symm.trans hnone

/-! ## Turns -/

/-- A doomed task that has not begun ends with its turn. -/
theorem run_of_doomed (P : Program σ β ρ) {p : Process β ρ} (hp : a.process? t = some p)
    (hb : p.begun = false) (hd : p.Doomed) : ∃ st, a.run P t = a.finish t p (.error st) := by
  obtain ⟨w, hw, hstop⟩ := hd
  cases hs : p.stopping with
  | true => exact ⟨.cancelled, by simp [run, hp, hw, hb, hs]⟩
  | false =>
      obtain ⟨st, rfl⟩ := hstop.resolve_left (by simp [hs])
      exact ⟨st, by simp [run, hp, hw, hb, hs]⟩

/-- The task at work is none of those that the others fail by, if it is no leaf. -/
theorem not_fails_of_body {p : Process β ρ} (hp : a.process? t = some p) (hL : ¬ L p.body) :
    ¬ Fails P L h a t := by
  rintro (⟨q, hq, hLq, -⟩ | ⟨-, hnone, -⟩)
  · obtain rfl := Option.some.inj (hp.symm.trans hq)
    exact hL hLq
  · exact nomatch hp.symm.trans hnone

theorem Tidy.atWork (ha : Tidy a) {p : Process β ρ} (hp : a.process? t = some p)
    (hb : p.begun = false → ¬ p.Doomed) (s : σ) : Tidy (a.atWork t s) := by
  refine ha.moves ((moves_adjust (t := t) (f := fun p =>
    { p with waiting := .working, begun := true, stopping := false }) fun q hq => ?_).trans
      (moves_edit rfl rfl rfl))
  obtain rfl := Option.some.inj (hp.symm.trans hq)
  exact ⟨rfl, fun _ => rfl, fun h => (nomatch h), fun h hd => absurd hd (hb h)⟩

theorem heeds_atWork (s : σ) : Heeds (some t) a (a.atWork t s) :=
  (heeds_adjust_busy fun p => { p with waiting := .working, begun := true, stopping := false }).trans
    (heeds_edit rfl rfl)

/-- Who begins to work leaves the others faithful, if it is no leaf. -/
theorem Faithful.atWork (ha : Faithful P F L (some t) h a) {p : Process β ρ}
    (hp : a.process? t = some p) (hL : ¬ L p.body) (s : σ) :
    Faithful P F L (some t) h (a.atWork t s) := by
  have hprocess := process?_atWork a t (s := s)
  have hself : ∀ {q}, (a.atWork t s).process? t = some q →
      q = { p with waiting := .working, begun := true, stopping := false } := by
    intro q hq
    rw [hprocess, if_pos rfl, hp] at hq
    exact (Option.some.inj hq).symm
  refine ha.beside (k := []) (heeds_atWork s) nofun (fun {u q} hu hq => ?_) (fun _ => .rfl) (fun hf => absurd hf (not_fails_of_body hp hL))
    (fun hq => ?_) (fun hq hw => ?_) (fun hbusy => absurd rfl hbusy) (fun hq _ hbegun => ?_)
  · rw [hprocess, if_neg hu] at hq
    exact .inl hq
  · obtain rfl := hself hq
    exact ⟨p, hp, rfl, id⟩
  · obtain rfl := hself hq
    exact nomatch hw
  · obtain rfl := hself hq
    exact nomatch hbegun

/-- A task that ends leaves the others faithful. -/
theorem Faithful.finish (ha : Faithful P F L (some t) h a) (hns : ∀ n ∈ k, n.task = t)
    (p : Process β ρ) (o : Outcome ρ)
    (hfails : Fails P L h a t → Fails P L (k ++ h) (a.finish t p o) t) :
    Faithful P F L none (k ++ h) (a.finish t p o) := by
  obtain ⟨hprocess, -, -⟩ := process?_timetable_finish a t p o
  have hgone : ∀ {q}, (a.finish t p o).process? t ≠ some q := by
    intro q hq
    rw [hprocess, if_pos rfl] at hq
    exact nomatch hq
  refine ha.beside (heeds_finish p o) hns (fun {u q} hu hq => ?_) (fun {key u} hu => ⟨?_, ?_⟩) hfails
    (fun hq => absurd hq hgone) (fun hq => absurd hq hgone) (fun _ hq => absurd hq hgone)
    fun hq => absurd hq hgone
  · rw [hprocess, if_neg hu] at hq
    exact .inl hq
  · rintro ⟨x, hx, rfl⟩
    exact ⟨x, (get?_finish o).1 hx, rfl⟩
  · rintro ⟨x, hx, rfl⟩
    exact ⟨x, (get?_finish o).2 hx hu, rfl⟩

/-- A turn of a task that books nothing. -/
theorem Faithful.settleTurn (hP : Layered P G F L) (ha : Faithful P F L none h a) {n : Stint σ β ρ}
    {p : Process β ρ} (hn : a.Numbered) (hp : a.process? t = some p) (ht : n.task = t)
    (hbody : n.body = p.body) (hG : G n.body) (hnone : (n.turn P).appointments = [])
    (hstarted : n.started = a.started)
    (hstop : Fated P F L h a t → ∃ st, (n.turn P).next = .finish (.error st))
    (hnot : ∀ f ∈ h, f.task = t → ∀ o, ¬ f.Ends P o) (s : σ) :
    Faithful P F L none (n :: h) ((a.atWork t s).settleTurn t
      { p with waiting := .working, begun := true, stopping := false } (n.turn P).next) := by
  have hprocess := process?_atWork a t (s := s)
  have hwork : (a.atWork t s).process? t
      = some { p with waiting := .working, begun := true, stopping := false } := by
    rw [hprocess, if_pos rfl, hp]
    rfl
  have hsettles := settles (hn.atWork s) hwork rfl (n.turn P).next
  have hheeds := (heeds_atWork (a := a) s).trans (heeds_settleTurn (t := t) (hn.atWork s)
    { p with waiting := .working, begun := true, stopping := false } (n.turn P).next)
  generalize (a.atWork t s).settleTurn t
    { p with waiting := .working, begun := true, stopping := false } (n.turn P).next = b
    at hsettles hheeds ⊢
  obtain ⟨w, hself, hall⟩ := hsettles.self
  have hstays : ∀ {q}, b.process? t = some q → ∃ body, (n.turn P).next.body? = some body ∧
      q = { p with waiting := w, begun := true, stopping := false, body := body } := by
    intro q hq
    rw [hself] at hq
    obtain ⟨body, hb, rfl⟩ := Option.map_eq_some_iff.mp hq
    exact ⟨body, hb, rfl⟩
  -- a task that was to stop has ended
  have hgoes : ∀ {q}, b.process? t = some q → ¬ Fated P F L h a t := by
    intro q hq hf
    obtain ⟨body, hb, -⟩ := hstays hq
    obtain ⟨st, hnext⟩ := hstop hf
    rw [hnext] at hb
    exact nomatch hb
  refine ha.weaken.beside (k := [n]) hheeds (fun m hm => List.mem_singleton.mp hm ▸ ht)
    (fun {u q} hu hq => ?_) (fun hu => hsettles.registered hu) (fun hf => ?_) (fun hq => ?_)
    (fun {q cs got} hq hw => ?_) (fun {q key} _ hq hkey hno => ?_) (fun hq _ hbegun => ?_)
  · rw [hsettles.others hu] at hq
    split at hq
    · rw [hprocess, if_neg hu] at hq
      exact .inl hq
    · obtain ⟨body, -, rfl⟩ := Option.map_eq_some_iff.mp hq
      exact .inr ⟨rfl, rfl⟩
  · rcases hf with ⟨q, hq, hL, hm⟩ | ⟨-, hgone, -⟩
    · obtain ⟨st, hnext⟩ := hstop ⟨q, hq, hP.lower q.body hL, .inl hm⟩
      refine .inr ⟨Nat.lt_of_lt_of_le (hn hp) hheeds.started, ?_, fun f hf hft r hends => ?_⟩
      · rw [hself, hnext]
        rfl
      · rcases List.mem_cons.mp hf with rfl | hf
        · exact nomatch Next.finish.inj (hnext.symm.trans hends)
        · exact hnot f hf hft _ hends
    · exact nomatch hp.symm.trans hgone
  · obtain ⟨body, hb, rfl⟩ := hstays hq
    refine ⟨p, hp, rfl, fun hL => ?_⟩
    exact (hP.stays n.now n.state n.body n.wake hG body hb).mpr (hbody ▸ hL)
  · obtain ⟨body, hb, rfl⟩ := hstays hq
    obtain ⟨bs, body', hnext, hcs⟩ := hall cs got hw
    obtain rfl : body' = body := by
      rw [hnext] at hb
      exact Option.some.inj hb
    have hids : n.childIds P = cs := by
      unfold Stint.childIds Stint.firstChild
      rw [hnone, hnext, hcs, hstarted]
      rfl
    have hkeeps := hP.keeps n.now n.state n.body n.wake hG body' hb
    refine ⟨fun hL => ?_, ⟨n, bs, History.latest_cons_self ht, hnext, hids.symm⟩, fun c hc => ?_,
      fun c hc r hr => ?_⟩
    · have hLn := (hP.stays n.now n.state n.body n.wake hG body' hb).mp hL
      exact (hP.leaf n.now n.state n.body n.wake hLn).2 bs body' hnext
    · rw [hcs] at hc
      rw [hsettles.started, hnext]
      exact (List.mem_range'_1.mp hc).2
    · rw [hcs] at hc
      obtain ⟨hle, -⟩ := List.mem_range'_1.mp hc
      have hlt : t < a.started := hn hp
      have hct : c ≠ t := Nat.ne_of_gt (Nat.lt_of_lt_of_le hlt hle)
      rw [hsettles.others hct, if_neg (Nat.not_lt.mpr hle), hnext] at hr
      obtain ⟨child, hchild, rfl⟩ := Option.map_eq_some_iff.mp hr
      refine ⟨rfl, fun hF => hP.lowers n.now n.state n.body n.wake hG (hkeeps.mp hF) child ?_⟩
      rw [show (P n.now n.state n.body n.wake).next = .gather bs body' from hnext]
      exact List.mem_of_getElem? hchild
  · -- a task that goes on has its booking still
    obtain ⟨body, hb, rfl⟩ := hstays hq
    have htable : b.timetable = a.timetable := by
      refine hsettles.kept fun o hnext => ?_
      rw [hnext] at hb
      exact nomatch hb
    refine absurd (ha.fated nofun hp hkey fun hr => hno ?_) (hgoes hq)
    unfold Registered at hr ⊢
    rwa [htable]
  · obtain ⟨body, -, rfl⟩ := hstays hq
    exact nomatch hbegun

/-- A turn of a task that books something. -/
theorem Faithful.books (hP : Layered P G F L) (ha : Faithful P F L none h a) (ht : Tidy a)
    (hc : Calm F a) {n : Stint σ β ρ} {p q : Process β ρ} (hp : a.process? t = some p)
    (htask : n.task = t) (hbody : n.body = p.body) (hG : G n.body)
    (hb : p.begun = false → ¬ p.Doomed) (hne : (n.turn P).appointments ≠ []) {s : σ}
    (hq : ((a.atWork t s).bookAll (n.turn P).appointments).process? t = some q)
    (hqp : q.body = p.body) : Faithful P F L none (n :: h)
      (((a.atWork t s).bookAll (n.turn P).appointments).settleTurn t q (n.turn P).next) := by
  obtain ⟨o, hnext⟩ := (hP.ends n.now n.state n.body n.wake hG).resolve_left hne
  have hL : ¬ L p.body := fun h => hne (hP.leaf n.now n.state n.body n.wake (hbody ▸ h)).1
  have hmid := (ha.weaken.atWork hp hL s).bookAll (ht.atWork hp hb s) (hc.atWork s)
    (hP.booked n.now n.state n.body n.wake hG)
  rw [show (n.turn P).next = .finish o from hnext]
  unfold Agenda.settleTurn
  exact hmid.finish (k := [n]) (fun m hm => List.mem_singleton.mp hm ▸ htask) q _
    fun hf => absurd hf (not_fails_of_body hq (hqp ▸ hL))

/-- A task that is to begin after a delay. -/
theorem Faithful.delayed (ha : Faithful P F L none h a) (ht : Tidy a) {p : Process β ρ}
    {w : Wake ρ} (hp : a.process? t = some p) (hb : p.begun = false) (hw : p.waiting = .queued w)
    (hd : ∃ d, a.run P t
      = (a.adjust t fun p => { p with delay := none }).lay t p.body d .endless .start) :
    Faithful P F L none h (a.run P t) := by
  obtain ⟨d, hr⟩ := hd
  obtain ⟨v, hv, hprocess, htable, hstarted⟩ := lay_parks
    (a.adjust t fun p => { p with delay := none }) t p.body d .endless .start
  have hself : (a.run P t).process? t = some { p with delay := none, waiting := v } := by
    rw [hr, hprocess, process?_park, if_pos rfl, process?_adjust_self, hp]
    rfl
  have hregistered : ∀ {key u}, (a.run P t).Registered key u ↔ a.Registered key u := by
    intro key u
    unfold Registered
    rw [hr, htable]
    rfl
  have hkeep : ∀ {q}, (a.run P t).process? t = some q → q = { p with delay := none, waiting := v } :=
    fun hq => (Option.some.inj (hself.symm.trans hq)).symm
  -- a task that was told to stop would have ended
  have hno : ¬ p.Doomed := by
    intro hdoomed
    obtain ⟨st, hdrop⟩ := run_of_doomed P hp hb hdoomed
    rw [hdrop, (process?_timetable_finish a t p _).1, if_pos rfl] at hself
    exact nomatch hself
  refine ha.weaken.beside (k := []) (heeds_run P ht.numbered t) nofun (fun {u q} hu hq => ?_)
    (fun _ => hregistered) (fun hf => ?_) (fun hq => ?_) (fun {q cs got} hq hw => ?_)
    (fun {q key} _ hq hkey hfree => ?_) (fun {q key} hq hkey hbegun hreg hm => ?_)
  · rw [hr, hprocess, process?_park, if_neg hu, process?_adjust_of_ne _ _ hu] at hq
    exact .inl hq
  · rcases hf with ⟨q, hq, -, hm⟩ | ⟨-, hnone, -⟩
    · obtain rfl := Option.some.inj (hp.symm.trans hq)
      exact absurd (hm.doomed hw) hno
    · exact nomatch hp.symm.trans hnone
  · rw [hkeep hq]
    exact ⟨p, hp, rfl, id⟩
  · rw [hkeep hq] at hw
    rcases hv with rfl | rfl
    · exact nomatch hw
    · exact nomatch hw
  · rw [hkeep hq] at hkey
    exact absurd (ht.doomed hp hkey hb fun h => hfree (hregistered.mpr h)) hno
  · rw [hkeep hq] at hkey hm
    refine ha.spared hp hkey hb (hregistered.mp hreg) ?_
    rcases hm with hm | ⟨st, hm⟩
    · exact .inl hm
    · rcases hv with rfl | rfl
      · exact nomatch hm
      · exact nomatch hm

/-- **A turn of a task keeps booked tasks faithful.** -/
theorem Faithful.run (hP : Layered P G F L) (ha : Sound P none h a) (hf : Faithful P F L none h a)
    (ht : Tidy a) (hc : Calm F a) (hG : Only (fun _ => G) a) (place : Nat) (t : TaskId) :
    Faithful P F L none ((a.stint? t).toList ++ h) ((a.taken place).run P t) := by
  have hft : Faithful P F L none h (a.taken place) := hf.quiet (quiet_edit rfl rfl rfl)
  have htt : Tidy (a.taken place) := ht.moves (moves_edit rfl rfl rfl)
  have hct : Calm F (a.taken place) := hc.edit rfl rfl rfl
  have hn : (a.taken place).Numbered := ht.numbered
  have hstint : (a.taken place).stint? t = a.stint? t := rfl
  rw [← hstint]
  cases runsTo P (a.taken place) t with
  | idle hw hs hr =>
      rw [hs, hr]
      exact hft
  | @dropped p w st hp hb hw hst hs hr =>
      rw [hs, hr]
      obtain ⟨hprocess, -, hstarted⟩ := process?_timetable_finish (a.taken place) t p (.error st)
      refine hft.weaken.finish (k := []) nofun p _ fun _ => .inr ⟨?_, ?_, ?_⟩
      · rw [hstarted]
        exact hn hp
      · rw [hprocess, if_pos rfl]
      · exact fun f hf hft r => ha.not_ends hp hf hft _
  | @delayed p w d hp hb hw hd hs hr =>
      rw [hs]
      exact hft.delayed htt hp hb hw ⟨d, hr⟩
  | @works p w v hp hw hv hb hs hr =>
      obtain ⟨n, hn', htask, hbody, hstarted, hturn⟩ : ∃ n, (a.taken place).stint? t = some n ∧
          n.task = t ∧ n.body = p.body ∧ n.started = (a.taken place).started ∧
          P (a.taken place).now (a.taken place).state p.body v = n.turn P :=
        ⟨_, hs, rfl, rfl, rfl, rfl⟩
      obtain ⟨q, hq, hpq, hwork⟩ := work_eq_settleTurn hn hp p.body v (P := P)
      rw [hn', hr, hwork]
      rw [hturn] at hq ⊢
      have hGn : G n.body := hbody ▸ hG t p hp
      cases happ : (n.turn P).appointments with
      | nil =>
          have hq' : q = { p with waiting := .working, begun := true, stopping := false } := by
            rw [happ, show ∀ c : Agenda σ β ρ, c.bookAll [] = c from fun _ => rfl, process?_atWork,
              if_pos rfl, hp] at hq
            exact (Option.some.inj hq).symm
          rw [hq']
          refine hft.settleTurn hP hn hp htask hbody hGn happ hstarted (fun hfated => ?_)
            (fun f hf hft o => ha.not_ends hp hf hft o) _
          obtain ⟨hF, st, hst⟩ := Fated.stops (a := a) ha hfated hn'
          obtain ⟨st', -, hnext⟩ := hP.stops n.now n.state n.body st hF
          refine ⟨st', ?_⟩
          unfold Stint.turn
          rw [hst]
          exact hnext
      | cons m ms =>
          rw [← happ]
          refine hft.books hP htt hct hp htask hbody hGn (fun hbegun hd => ?_)
            (happ ▸ List.cons_ne_nil m ms) hq hpq.body
          obtain ⟨hstop, hno⟩ := hb hbegun
          obtain ⟨w', hw', h | ⟨st, rfl⟩⟩ := hd
          · exact nomatch hstop.symm.trans h
          · exact hno st (Waiting.queued.inj (hw.symm.trans hw'))

/-- **A step keeps booked tasks faithful.** -/
theorem Faithful.step (hP : Layered P G F L) (ha : Sound P none h a)
    (hf : Faithful P F L none h a) (ht : Tidy a) (hc : Calm F a) (hG : Only (fun _ => G) a)
    {place : Nat} (hb : a.stepAt P place = some b) :
    Faithful P F L none ((a.stintAt? place).toList ++ h) b := by
  unfold stepAt at hb
  obtain ⟨i, hi, rfl⟩ := Option.map_eq_some_iff.mp hb
  unfold stintAt?
  rw [hi]
  cases i with
  | run t => exact hf.run hP ha ht hc hG place t
  | report t c o =>
      have htaken : Quiet a (a.taken place) := quiet_edit rfl rfl rfl
      have htidy : Tidy (a.taken place) := ht.moves (moves_edit rfl rfl rfl)
      exact hf.quiet (htaken.trans (quiet_report htidy t c o))

/-- **Booked tasks are faithful in every run.** -/
theorem Run.faithful {Serve : Agenda σ β ρ → Agenda σ β ρ → Prop} {start : Agenda σ β ρ}
    (hP : Layered P G F L) (hstart : Faithful P F L none [] start)
    (hsound : ∀ {h a}, Run P Serve start h a → Sound P none h a)
    (htidy : ∀ {h a}, Run P Serve start h a → Tidy a)
    (hcalm : ∀ {h a}, Run P Serve start h a → Calm F a)
    (honly : ∀ {h a}, Run P Serve start h a → Only (fun _ => G) a)
    (hserve : ∀ {h a b}, Tidy a → Calm F a → Faithful P F L none h a → Serve a b →
      Faithful P F L none h b) (hr : Run P Serve start h a) : Faithful P F L none h a := by
  induction hr with
  | idle => exact hstart
  | step hr hb ih => exact ih.step hP (hsound hr) (htidy hr) (hcalm hr) (honly hr) hb
  | pass hr _ _ ih => exact ih.quiet (quiet_passTo (hsound hr) _)
  | serve hr hb ih => exact hserve (htidy hr) (hcalm hr) ih hb

end Agenda

end BuildingAlerts
