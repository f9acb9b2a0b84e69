/-
What becomes of a delivery.

A delivery is tried by one task at a time: first by the one that drew its identifier, and after its
wave has ended by tasks that its retries start one after the other. As there is one retry of it at
most and the retry waits for its attempt, the entry always agrees with what was sent: it has the
time of the latest attempt and counts those before. Every stint keeps this up, whatever else is
under way.
-/
import BuildingAlerts.Proofs.ControlRoom.Waves

set_option autoImplicit false

namespace BuildingAlerts

open Agenda

namespace Work

variable {w : Work} {n : Next Work Yield}

/-- Only a retry goes on as the waiting for its attempts. -/
theorem Leads.of_retrying (hn : w.Leads n) {tried : List String} {most : Int} {again : Bool}
    (hb : n.body? = some (.retrying tried most again)) : ∃ es, w = .retry es most again := by
  cases hn with
  | finish _ o => exact nomatch hb
  | retrying es tried' most' again' =>
      obtain ⟨-, rfl, rfl⟩ := Work.retrying.inj (Option.some.inj hb)
      exact ⟨es, rfl⟩
  | _ => exact nomatch Option.some.inj hb

end Work

namespace Office

variable {p : Premises} {h : Past} {o o' : Office} {id : String} {n : Doing} {t u : TaskId}

/-! ## One stint more -/

/-- A task that has ended is no longer there. -/
theorem Premises.Run.job?_of_ends (hr : p.Run h o) {f : Doing} (hf : f ∈ h) {y : Outcome Yield}
    (hends : f.Ends ControlRoom.program y) : Agenda.job? o f.task = none := by
  have hlatest := hr.keeps.coherent.latest_of_ends hf hends
  exact job?_eq_none.mpr ((hr.keeps.living f.task nofun f hlatest).mpr ⟨y, hends⟩)

/-- A run and the next stint after it. -/
structure Premises.Step (p : Premises) (h : Past) (o : Office) (n : Doing) (o' : Office) :
    Prop where
  before : p.Run h o
  after : p.Run (n :: h) o'
  taken : ∃ place, Agenda.stintAt? o place = some n ∧
    o.stepAt ControlRoom.program place = some o'

/-- Every stint of a run is the next one of a run before it. -/
theorem Premises.Run.stepped {k : Past} (hr : p.Run h o) (hn : n :: k <:+ h) :
    ∃ b c, p.Step k b n c := by
  obtain ⟨b, c, place, hrun, hs, hb⟩ := hr.before hn
  have hrun : p.Run k b := hrun
  have hstep := hrun.step hb
  rw [hs] at hstep
  exact ⟨b, c, hrun, hstep, place, hs, hb⟩

namespace Premises.Step

theorem numbered (hs : p.Step h o n o') : Agenda.Numbered o :=
  hs.before.keeps.numbered

theorem coherent (hs : p.Step h o n o') : History.Coherent ControlRoom.program (n :: h) :=
  hs.after.keeps.coherent

theorem job (hs : p.Step h o n o') : Agenda.job? o n.task = some (n.audience, n.body) := by
  obtain ⟨place, hplace, -⟩ := hs.taken
  exact job?_of_stintAt hplace

theorem state (hs : p.Step h o n o') : n.state = o.state := by
  obtain ⟨place, hplace, -⟩ := hs.taken
  obtain ⟨-, -, q, -, hof⟩ := stintAt?_eq_some hplace
  exact hof.state

theorem started (hs : p.Step h o n o') : n.started = o.started := by
  obtain ⟨place, hplace, -⟩ := hs.taken
  obtain ⟨-, -, q, -, hof⟩ := stintAt?_eq_some hplace
  exact hof.started

theorem leaves (hs : p.Step h o n o') : o'.state = (n.turn ControlRoom.program).state := by
  obtain ⟨place, hplace, hb⟩ := hs.taken
  have hstate := state_of_stepAt hs.numbered hb
  rw [hplace] at hstate
  exact hstate

theorem comes (hs : p.Step h o n o') {j : Audience × Work} (hj : Agenda.job? o' t = some j) :
    Comes ControlRoom.program o n t j := by
  obtain ⟨place, hplace, hb⟩ := hs.taken
  exact comes_of_stint hs.numbered hplace hb hj

theorem sole {D : Work → Bool} (hs : p.Step h o n o') (hD : Sole D o)
    (hone : ((n.turn ControlRoom.program).heirs.filter D).length ≤ 1)
    (hnew : (n.turn ControlRoom.program).heirs.filter D ≠ [] →
      D n.body = true ∨ ∀ u j, Agenda.job? o u = some j → D j.2 = false) : Sole D o' := by
  obtain ⟨place, hplace, hb⟩ := hs.taken
  exact hD.stint hs.numbered hplace hb hone hnew

/-- Where attempts are under way after a stint that tries. -/
theorem of_tried (hs : p.Step h o n o') {c : ControlRoom}
    (htried : ControlRoom.Tried id c (n.turn ControlRoom.program)) {k : Audience × Work}
    (hj : Agenda.job? o' t = some k) :
    t ≠ n.task ∧ Agenda.job? o t = some k ∨
      t = n.task ∧ k.2 ≠ .attempt id ∧ o'.state.journal.get? id = c.journal.get? id := by
  have hnil : (n.turn ControlRoom.program).heirs = [] →
      t ≠ n.task ∧ Agenda.job? o t = some k := by
    intro hheirs
    refine (hs.comes hj).stays_or_heir.resolve_right fun hheir => ?_
    rw [hheirs] at hheir
    exact List.not_mem_nil hheir
  cases htried.tries with
  | fails _ hheirs _ => exact .inl (hnil hheirs)
  | ends _ _ hheirs _ => exact .inl (hnil hheirs)
  | @goesOn hentry w hw hattempt hheirs hnext =>
      cases hs.comes hj with
      | stays hu hold => exact .inl ⟨hu, hold⟩
      | goesOn hu _ hbody =>
          rw [hnext] at hbody
          obtain rfl := Option.some.inj hbody
          refine .inr ⟨hu, hattempt, ?_⟩
          rw [hs.leaves]
          exact hentry
      | added _ hi =>
          -- the only heir is what the task itself goes on with
          unfold Turn.heirs at hheirs
          rw [hnext, ← n.map_jobs] at hheirs
          have hjobs := List.map_eq_nil_iff.mp (List.cons.inj hheirs).2
          rw [hjobs] at hi
          exact nomatch hi

end Premises.Step

/-! ## What is known of a delivery -/

/-- The entry of a delivery that was sent at some times, the latest first. -/
def Records : List Moment → Option LogEntry → Prop
  | [], entry => entry = none
  | m :: ms, entry => ∃ e, entry = some e ∧ e.sentAt = m ∧ e.retries = ms.length ∧
      (ms ≠ [] → e.status = .sent ∨ e.status = .failed)

/-- An attempt that ends is written down without another time or count. -/
theorem Records.map {ms : List Moment} {entry : Option LogEntry} (hr : Records ms entry)
    {f : LogEntry → LogEntry} (hf : ∀ e, (f e).Follows e) : Records ms (entry.map f) := by
  cases ms with
  | nil =>
      unfold Records at hr ⊢
      rw [hr]
      rfl
  | cons m ms =>
      obtain ⟨e, rfl, hsentAt, hretries, -⟩ := hr
      exact ⟨f e, rfl, (hf e).sentAt.trans hsentAt, (hf e).retries.trans hretries,
        fun _ => (hf e).status⟩

/-- A delivery has succeeded. -/
def IsSent (id : String) (c : ControlRoom) : Prop :=
  ∃ e, c.journal.get? id = some e ∧ e.status = .sent

/-- A delivery has failed for good. -/
def IsLost (id : String) (most : Int) (c : ControlRoom) : Prop :=
  ∃ e, c.journal.get? id = some e ∧ e.status = .failed ∧ e.retries = most

theorem isSent_congr {c d : ControlRoom} (h : d.journal.get? id = c.journal.get? id) :
    IsSent id d ↔ IsSent id c := by
  unfold IsSent
  rw [h]

theorem isLost_congr {c d : ControlRoom} {most : Int}
    (h : d.journal.get? id = c.journal.get? id) : IsLost id most d ↔ IsLost id most c := by
  unfold IsLost
  rw [h]

/-- The wave that a delivery belongs to has ended. -/
def Handed (id : String) (h : Past) : Prop :=
  ∃ d ∈ h, draws id d = true ∧ ∃ s ∈ h, d.audience = .task s.task ∧
    ∃ o, s.Ends ControlRoom.program o

theorem Handed.mono {k : Past} (hh : Handed id h) (hk : ∀ s ∈ h, s ∈ k) : Handed id k := by
  obtain ⟨d, hd, hdraws, s, hs, hrest⟩ := hh
  exact ⟨d, hk d hd, hdraws, s, hk s hs, hrest⟩

/-- The attempts and retries of a delivery, and what was written about it. -/
structure Tracked (id : String) (p : Premises) (h : Past) (o : Office) : Prop where
  setup : o.state.setup = p.setup
  tries : Sole (·.tries id) o
  retries : Sole (·.retries id) o
  shape : ∀ {t j}, Agenda.job? o t = some j → j.2.retries id = true →
    j.2 = .retry [id] p.setup.maxRetries true ∨
      j.2 = .retrying [id] p.setup.maxRetries true ∧ 2 ≤ (sendings id h).length
  /-- While a delivery is retried, it is tried only by the task that the retry has started. -/
  child : ∀ {t u j k}, Agenda.job? o u = some j → j.2.retries id = true →
    Agenda.job? o t = some k → k.2.tries id = true →
      ∃ s ∈ h, s.task = u ∧ s.Starts ControlRoom.program t (.attempt id)
  handed : ∀ {t j}, Agenda.job? o t = some j → j.2.retries id = true → Handed id h
  origin : ∀ {t j}, Agenda.job? o t = some j → j.2.tries id = true →
    (∃ d ∈ h, draws id d = true ∧ d.task = t) ∨ Handed id h
  entry : Records (sendings id h) (o.state.journal.get? id)
  drawn : sendings id h ≠ [] → ∃ d ∈ h, draws id d = true
  bound : ((sendings id h).length : Int) ≤ 1 + max 0 p.setup.maxRetries
  count : (h.filter (attempts id)).length ≤ (sendings id h).length
  fewer : ∀ {t v}, Agenda.job? o t = some (v, .attempt id) →
    (h.filter (attempts id)).length < (sendings id h).length
  unsent : ∀ {t j}, Agenda.job? o t = some j → j.2.tries id = true → ¬ IsSent id o.state
  sent : ∀ s ∈ h, IsSent id (s.turn ControlRoom.program).state → IsSent id o.state
  once : o.state.deadLetters.count id ≤ 1
  lost : id ∈ o.state.deadLetters → IsLost id p.setup.maxRetries o.state ∧ Handed id h ∧
    ∀ t j, Agenda.job? o t = some j → j.2.tries id = false ∧ j.2.retries id = false

theorem tracked_idle (id : String) (p : Premises) : Tracked id p [] (.idle p.room) where
  setup := rfl
  tries := sole_idle _
  retries := sole_idle _
  shape hj := nomatch hj
  child hj := nomatch hj
  handed hj := nomatch hj
  origin hj := nomatch hj
  entry := rfl
  drawn hne := absurd rfl hne
  bound := by
    show (0 : Int) ≤ _
    omega
  count := Nat.le_refl 0
  fewer hj := nomatch hj
  unsent hj := nomatch hj
  sent _ hs := absurd hs List.not_mem_nil
  once := Nat.zero_le 1
  lost hid := absurd hid List.not_mem_nil

/-! ## Stints that leave a delivery alone -/

/-- Nothing becomes of a delivery while nobody sends it and nothing is written about it. -/
theorem Tracked.lose (hk : Tracked id p h o) (hleaves : ControlRoom.Leaves id o.state o'.state)
    (hjobs : ∀ {t j}, Agenda.job? o' t = some j → j.2.tries id = true ∨ j.2.retries id = true →
      Agenda.job? o t = some j) {k : Past} (hquiet : ∀ n ∈ k, sending? id n = none ∧
      attempts id n = false ∧ (n.turn ControlRoom.program).state = o'.state) :
    Tracked id p (k ++ h) o' := by
  have hsend : sendings id (k ++ h) = sendings id h := by
    unfold sendings
    rw [List.filterMap_append, List.filterMap_eq_nil_iff.mpr fun n hn => (hquiet n hn).1,
      List.nil_append]
  have hcount : (k ++ h).filter (attempts id) = h.filter (attempts id) := by
    rw [List.filter_append, List.filter_eq_nil_iff.mpr fun n hn => by
      rw [(hquiet n hn).2.1]
      exact Bool.false_ne_true, List.nil_append]
  have hmem : ∀ s ∈ h, s ∈ k ++ h := fun s hs => List.mem_append_right k hs
  have hsent := isSent_congr hleaves.entry
  have hletters : id ∈ o'.state.deadLetters → id ∈ o.state.deadLetters := by
    intro hid
    rw [← List.count_pos_iff, hleaves.letters] at hid
    exact List.count_pos_iff.mp hid
  refine {
    setup := hleaves.setup.trans hk.setup
    tries := ⟨fun hj hj' ht ht' =>
      hk.tries.eq (hjobs hj (.inl ht)) (hjobs hj' (.inl ht')) ht ht'⟩
    retries := ⟨fun hj hj' ht ht' =>
      hk.retries.eq (hjobs hj (.inr ht)) (hjobs hj' (.inr ht')) ht ht'⟩
    shape := fun hj ht => hsend ▸ hk.shape (hjobs hj (.inr ht)) ht
    child := fun hj hr hj' ht => ?_
    handed := fun hj ht => (hk.handed (hjobs hj (.inr ht)) ht).mono hmem
    origin := fun hj ht => ?_
    entry := ?_
    drawn := fun hne => ?_
    bound := hsend ▸ hk.bound
    count := hsend ▸ hcount ▸ hk.count
    fewer := fun hj => hsend ▸ hcount ▸ hk.fewer (hjobs hj (.inl (decide_eq_true rfl)))
    unsent := fun hj ht => hsent.not.mpr (hk.unsent (hjobs hj (.inl ht)) ht)
    sent := fun s hs hss => ?_
    once := hleaves.letters ▸ hk.once
    lost := fun hid => ?_ }
  · obtain ⟨s, hs, hrest⟩ := hk.child (hjobs hj (.inr hr)) hr (hjobs hj' (.inl ht)) ht
    exact ⟨s, hmem s hs, hrest⟩
  · refine (hk.origin (hjobs hj (.inl ht)) ht).imp ?_ (·.mono hmem)
    exact fun ⟨d, hd, hrest⟩ => ⟨d, hmem d hd, hrest⟩
  · rw [hsend, hleaves.entry]
    exact hk.entry
  · rw [hsend] at hne
    obtain ⟨d, hd, hdraws⟩ := hk.drawn hne
    exact ⟨d, hmem d hd, hdraws⟩
  · rcases List.mem_append.mp hs with hs | hs
    · rw [← (hquiet s hs).2.2]
      exact hss
    · exact hsent.mpr (hk.sent s hs hss)
  · obtain ⟨hlost, hhanded, hnone⟩ := hk.lost (hletters hid)
    refine ⟨(isLost_congr hleaves.entry).mpr hlost, hhanded.mono hmem, fun t j hj => ?_⟩
    by_contra hsome
    have hold : j.2.tries id = true ∨ j.2.retries id = true := by
      cases htries : j.2.tries id with
      | true => exact .inl rfl
      | false =>
          cases hretries : j.2.retries id with
          | true => exact .inr rfl
          | false => exact absurd ⟨htries, hretries⟩ hsome
    exact hsome (hnone t j (hjobs hj hold))

/-! ## Attempts -/

/-- An attempt that is under way goes on, or it ends. -/
theorem Tracked.attempt (hk : Tracked id p h o) (hs : p.Step h o n o')
    (htries : n.body.tries id = true) : Tracked id p (n :: h) o' := by
  have htried : ControlRoom.Tried id o.state (n.turn ControlRoom.program) := by
    rw [← hs.state]
    exact ControlRoom.tried_program n.now n.state htries n.wake
  have hmem : ∀ s ∈ h, s ∈ n :: h := fun s => List.mem_cons_of_mem n
  have hdraws : draws id n = false := draws_eq_false fun r level hbody => by
    rw [hbody] at htries
    exact nomatch htries
  have hsend : sendings id (n :: h) = sendings id h := by
    rw [sendings_cons, sending?_eq_none hdraws (triesAgain_eq_false fun _ _ _ =>
      Work.not_mem_of_retries (Work.retries_of_tries htries))]
    rfl
  -- the task that tries is the only one
  have hnow : ∀ {u j}, Agenda.job? o' u = some j → j.2.tries id = true → u = n.task ∧
      j.2 ≠ .attempt id ∧ o'.state.journal.get? id = o.state.journal.get? id := by
    intro u j hj ht
    rcases hs.of_tried htried hj with ⟨hu, hold⟩ | hgoes
    · exact absurd (hk.tries.eq hold hs.job ht htries) hu
    · exact hgoes
  have hold : ∀ {u j}, Agenda.job? o' u = some j → j.2.retries id = true →
      Agenda.job? o u = some j := by
    intro u j hj hr
    rcases (hs.comes hj).stays_or_heir with ⟨-, hold⟩ | hheir
    · exact hold
    · exact nomatch hr.symm.trans (htried.retries_heirs j.2 hheir)
  have hunsent := hk.unsent hs.job htries
  refine {
    setup := hs.leaves ▸ htried.setup.trans hk.setup
    tries := hs.sole hk.tries (Nat.le_trans (List.length_filter_le _ _) htried.length_heirs)
      fun _ => .inl htries
    retries := ⟨fun hj hj' ht ht' => hk.retries.eq (hold hj ht) (hold hj' ht') ht ht'⟩
    shape := fun hj ht => hsend ▸ hk.shape (hold hj ht) ht
    child := fun hj hr hj' ht => ?_
    handed := fun hj ht => (hk.handed (hold hj ht) ht).mono hmem
    origin := fun hj ht => ?_
    entry := ?_
    drawn := fun hne => ?_
    bound := hsend ▸ hk.bound
    count := ?_
    fewer := fun hj => absurd rfl (hnow hj (decide_eq_true rfl)).2.1
    unsent := fun hj ht => (isSent_congr (hnow hj ht).2.2).not.mpr hunsent
    sent := fun s hsm hsent => ?_
    once := ?_
    lost := fun hid => ?_ }
  · obtain ⟨rfl, -⟩ := hnow hj' ht
    obtain ⟨s, hsm, hrest⟩ := hk.child (hold hj hr) hr hs.job htries
    exact ⟨s, hmem s hsm, hrest⟩
  · obtain ⟨rfl, -⟩ := hnow hj ht
    refine (hk.origin hs.job htries).imp ?_ (·.mono hmem)
    exact fun ⟨d, hd, hrest⟩ => ⟨d, hmem d hd, hrest⟩
  · rw [hsend, hs.leaves]
    cases htried.tries with
    | fails hentry _ _ => exact hentry ▸ hk.entry
    | goesOn hentry _ _ _ _ => exact hentry ▸ hk.entry
    | ends hentry hf _ _ => exact hentry ▸ hk.entry.map hf
  · rw [hsend] at hne
    obtain ⟨d, hd, hrest⟩ := hk.drawn hne
    exact ⟨d, hmem d hd, hrest⟩
  · rw [hsend, List.filter_cons]
    split
    · rename_i hattempts
      have hbody := (attempts_iff.mp hattempts).resolve_right (by rw [hdraws]; exact Bool.false_ne_true)
      have hjob := hs.job
      rw [hbody] at hjob
      exact hk.fewer hjob
    · exact hk.count
  · rcases List.mem_cons.mp hsm with rfl | hsm
    · rw [hs.leaves]
      exact hsent
    · exact absurd (hk.sent s hsm hsent) hunsent
  · rw [hs.leaves, htried.deadLetters]
    exact hk.once
  · rw [hs.leaves, htried.deadLetters] at hid
    exact nomatch htries.symm.trans ((hk.lost hid).2.2 _ _ hs.job).1

/-- Nothing is known of a delivery before its identifier is drawn. -/
theorem Tracked.unknown (hk : Tracked id p h o) (hs : p.Step h o n o')
    (hone : GivenOnce id (n :: h)) (hdraws : draws id n = true) :
    ¬ Handed id h ∧ sendings id h = [] ∧ ¬ IsSent id o.state ∧
      ∀ {u j}, Agenda.job? o u = some j → j.2.tries id = true → False := by
  have hn : n ∈ n :: h := List.mem_cons_self
  obtain ⟨⟨r, level, hbody⟩, -⟩ := draws_iff.mp hdraws
  have hfirst := (hs.after.first hn (by rw [hbody]; trivial)).1
  have hfresh : ∀ d ∈ h, draws id d = true → False := fun d hd hdd =>
    hs.coherent.ne_of_first (List.suffix_refl _) hfirst d hd
      (hone d (List.mem_cons_of_mem n hd) n hn hdd hdraws)
  have hhanded : ¬ Handed id h := fun ⟨d, hd, hdd, _⟩ => hfresh d hd hdd
  have hnil : sendings id h = [] := by
    by_contra hne
    obtain ⟨d, hd, hdd⟩ := hk.drawn hne
    exact hfresh d hd hdd
  have hentry := hk.entry
  rw [hnil] at hentry
  refine ⟨hhanded, hnil, (fun ⟨e, he, _⟩ => nomatch he.symm.trans hentry), fun hj ht => ?_⟩
  exact (hk.origin hj ht).elim (fun ⟨d, hd, hdd, _⟩ => hfresh d hd hdd) hhanded

/-- The first attempt begins. -/
theorem Tracked.draw (hk : Tracked id p h o) (hs : p.Step h o n o') (hone : GivenOnce id (n :: h))
    (hdraws : draws id n = true) : Tracked id p (n :: h) o' := by
  have hn : n ∈ n :: h := List.mem_cons_self
  obtain ⟨hhanded, hnil, hunknown, hnone⟩ := hk.unknown hs hone hdraws
  obtain ⟨r, level, m, hbody, hclock, hid, hturn⟩ := hs.after.turn_of_draws hn hdraws
  obtain ⟨c, hsetup, hletters, -, hbegin, htried⟩ :=
    ControlRoom.tried_beginDelivery n.state m r level
  rw [← hturn, hid] at htried
  rw [hid] at hbegin
  rw [hs.state] at hsetup hletters
  have hcount := hk.count
  rw [hnil] at hcount
  have hsend : sendings id (n :: h) = [m] := by
    rw [sendings_cons, hnil]
    unfold sending?
    rw [hdraws, hclock]
    rfl
  have hretries : ∀ {u j}, Agenda.job? o' u = some j → j.2.retries id = true → False := by
    intro u j hj hr
    rcases (hs.comes hj).stays_or_heir with ⟨-, hold⟩ | hheir
    · exact hhanded (hk.handed hold hr)
    · exact nomatch hr.symm.trans (htried.retries_heirs j.2 hheir)
  have hnow : ∀ {u j}, Agenda.job? o' u = some j → j.2.tries id = true → u = n.task ∧
      j.2 ≠ .attempt id ∧ o'.state.journal.get? id = c.journal.get? id := fun hj ht =>
    (hs.of_tried htried hj).resolve_left fun ⟨_, hold⟩ => hnone hold ht
  refine {
    setup := hs.leaves ▸ htried.setup.trans (hsetup.trans hk.setup)
    tries := hs.sole hk.tries (Nat.le_trans (List.length_filter_le _ _) htried.length_heirs)
      fun _ => .inr fun u j hj => Bool.not_eq_true _ ▸ fun ht => hnone hj ht
    retries := ⟨fun hj _ ht => (hretries hj ht).elim⟩
    shape := fun hj ht => (hretries hj ht).elim
    child := fun hj hr => (hretries hj hr).elim
    handed := fun hj ht => (hretries hj ht).elim
    origin := fun hj ht => .inl ⟨n, hn, hdraws, (hnow hj ht).1.symm⟩
    entry := ?_
    drawn := fun _ => ⟨n, hn, hdraws⟩
    bound := ?_
    count := ?_
    fewer := fun hj => absurd rfl (hnow hj (decide_eq_true rfl)).2.1
    unsent := fun hj ht => ?_
    sent := fun s hsm hsent => ?_
    once := ?_
    lost := fun hid => ?_ }
  · rw [hsend, hs.leaves]
    have hrecords : Records [m] (c.journal.get? id) :=
      ⟨_, hbegin, rfl, rfl, fun hne => absurd rfl hne⟩
    cases htried.tries with
    | fails hentry _ _ => exact hentry ▸ hrecords
    | goesOn hentry _ _ _ _ => exact hentry ▸ hrecords
    | ends hentry hf _ _ => exact hentry ▸ hrecords.map hf
  · rw [hsend]
    show (1 : Int) ≤ _
    omega
  · rw [hsend, List.filter_cons_of_pos (attempts_iff.mpr (.inr hdraws))]
    exact Nat.succ_le_succ hcount
  · rw [isSent_congr (hnow hj ht).2.2]
    rintro ⟨e, he, hsent⟩
    obtain rfl := Option.some.inj (hbegin.symm.trans he)
    exact nomatch hsent
  · rcases List.mem_cons.mp hsm with rfl | hsm
    · rw [hs.leaves]
      exact hsent
    · exact absurd (hk.sent s hsm hsent) hunknown
  · rw [hs.leaves, htried.deadLetters, hletters]
    exact hk.once
  · rw [hs.leaves, htried.deadLetters, hletters] at hid
    exact absurd (hk.lost hid).2.1 hhanded

/-! ## Retries -/

/-- A retry is booked, or the last one has ended, while nobody tries the delivery. -/
theorem Tracked.book (hk : Tracked id p h o) (hs : p.Step h o n o')
    (hleaves : ControlRoom.Leaves id o.state o'.state) (hsend : sending? id n = none)
    (hattempts : attempts id n = false)
    (hidle : ∀ {u j}, Agenda.job? o u = some j → j.2.tries id = true → False)
    (hsole : ∀ {u j}, Agenda.job? o u = some j → j.2.retries id = true → u = n.task)
    (hlost : id ∉ o.state.deadLetters) (hhanded : Handed id (n :: h))
    (hone : ((n.turn ControlRoom.program).heirs.filter (·.retries id)).length ≤ 1)
    (hheirs : ∀ v ∈ (n.turn ControlRoom.program).heirs, v.tries id = false ∧
      (v.retries id = true → v = .retry [id] p.setup.maxRetries true)) :
    Tracked id p (n :: h) o' := by
  have hmem : ∀ s ∈ h, s ∈ n :: h := fun s => List.mem_cons_of_mem n
  have hsend : sendings id (n :: h) = sendings id h := by
    rw [sendings_cons, hsend]
    rfl
  have hcount : (n :: h).filter (attempts id) = h.filter (attempts id) :=
    List.filter_cons_of_neg (by rw [hattempts]; exact Bool.false_ne_true)
  have htries : ∀ {u j}, Agenda.job? o' u = some j → j.2.tries id = true → False := by
    intro u j hj ht
    rcases (hs.comes hj).stays_or_heir with ⟨-, hold⟩ | hheir
    · exact hidle hold ht
    · exact nomatch ht.symm.trans (hheirs j.2 hheir).1
  have hretries : ∀ {u j}, Agenda.job? o' u = some j → j.2.retries id = true →
      j.2 = .retry [id] p.setup.maxRetries true := by
    intro u j hj hr
    rcases (hs.comes hj).stays_or_heir with ⟨hu, hold⟩ | hheir
    · exact absurd (hsole hold hr) hu
    · exact (hheirs j.2 hheir).2 hr
  have hletters : id ∉ o'.state.deadLetters := by
    rw [← List.count_eq_zero, hleaves.letters]
    exact List.count_eq_zero.mpr hlost
  refine {
    setup := hleaves.setup.trans hk.setup
    tries := ⟨fun hj _ ht => (htries hj ht).elim⟩
    retries := hs.sole hk.retries hone fun _ => ?_
    shape := fun hj hr => .inl (hretries hj hr)
    child := fun _ _ hj ht => (htries hj ht).elim
    handed := fun _ _ => hhanded
    origin := fun hj ht => (htries hj ht).elim
    entry := ?_
    drawn := fun hne => ?_
    bound := hsend ▸ hk.bound
    count := hsend ▸ hcount ▸ hk.count
    fewer := fun hj => (htries hj (decide_eq_true rfl)).elim
    unsent := fun hj ht => (htries hj ht).elim
    sent := fun s hsm hsent => ?_
    once := hleaves.letters ▸ hk.once
    lost := fun hid => absurd hid hletters }
  · by_cases hr : n.body.retries id = true
    · exact .inl hr
    · refine .inr fun u j hj => Bool.not_eq_true _ ▸ fun hjr => hr ?_
      obtain rfl := hsole hj hjr
      obtain rfl := Option.some.inj (hs.job.symm.trans hj)
      exact hjr
  · rw [hsend, hleaves.entry]
    exact hk.entry
  · rw [hsend] at hne
    obtain ⟨d, hd, hrest⟩ := hk.drawn hne
    exact ⟨d, hmem d hd, hrest⟩
  · rcases List.mem_cons.mp hsm with rfl | hsm
    · rw [hs.leaves]
      exact hsent
    · exact (isSent_congr hleaves.entry).mpr (hk.sent s hsm hsent)

/-- A retry that begins finds nobody who tries the delivery. -/
theorem Tracked.idle_of_retry (hk : Tracked id p h o) (hs : p.Step h o n o') {most : Int}
    (hbody : n.body = .retry [id] most true) {j : Audience × Work}
    (hj : Agenda.job? o t = some j) (ht : j.2.tries id = true) : False := by
  have hretries : n.body.retries id = true := by
    rw [hbody]
    exact decide_eq_true (List.mem_singleton_self id)
  obtain ⟨s, hsm, hst, -⟩ := hk.child hs.job hretries hj ht
  have hfirst := (hs.after.first List.mem_cons_self (by rw [hbody]; trivial)).1
  exact hs.coherent.ne_of_first (List.suffix_refl _) hfirst s hsm hst

/-- A retry sends the delivery again. -/
theorem Tracked.resend (hk : Tracked id p h o) (hs : p.Step h o n o')
    (hbody : n.body = .retry [id] p.setup.maxRetries true) {m : Moment}
    (hclock : n.state.clock? n.now = some m)
    (heligible : n.state.eligible m p.setup.maxRetries [id] = .ok [id])
    (hturn : n.turn ControlRoom.program = (n.state.beginTries m [id]).goOn
      (.gather [.attempt id] (.retrying [id] p.setup.maxRetries true))) :
    Tracked id p (n :: h) o' := by
  have hn : n ∈ n :: h := List.mem_cons_self
  have hmem : ∀ s ∈ h, s ∈ n :: h := fun s => List.mem_cons_of_mem n
  have hself : decide (id ∈ [id]) = true := decide_eq_true (List.mem_singleton_self id)
  have hretries : n.body.retries id = true := by
    rw [hbody]
    exact hself
  have hhanded := (hk.handed hs.job hretries).mono hmem
  have hidle : ∀ {u j}, Agenda.job? o u = some j → j.2.tries id = true → False :=
    fun hj ht => hk.idle_of_retry hs hbody hj ht
  obtain ⟨e, he, he'⟩ := (ControlRoom.of_eligible heligible).2 id (List.mem_singleton_self id)
  obtain ⟨hfailed, hleft, -⟩ := LogEntry.of_isEligible he'
  rw [hs.state] at he
  have hunsent : ¬ IsSent id o.state := by
    rintro ⟨e', he', hsent⟩
    obtain rfl := Option.some.inj (he.symm.trans he')
    exact nomatch hfailed.symm.trans hsent
  -- the entry counts what was sent before
  have hagain : triesAgain id n = true :=
    triesAgain_iff.mpr ⟨_, _, _, m, _, hbody, hclock, heligible, List.mem_singleton_self id⟩
  have hsend : sendings id (n :: h) = m :: sendings id h := by
    rw [sendings_cons]
    unfold sending?
    rw [hagain, Bool.or_true, if_pos rfl, hclock]
    rfl
  have hentry' : o'.state.journal.get? id = some (e.beginRetry m) := by
    rw [hs.leaves, hturn]
    show (n.state.journal.adjust id (·.beginRetry m)).get? id = _
    rw [Table.get?_adjust, if_pos rfl, hs.state, he]
    rfl
  obtain ⟨first, rest, hbefore, hcounted⟩ :
      ∃ first rest, sendings id h = first :: rest ∧ e.retries = rest.length := by
    have hentry := hk.entry
    rw [he] at hentry
    cases hms : sendings id h with
    | nil =>
        rw [hms] at hentry
        exact nomatch hentry
    | cons first rest =>
        rw [hms] at hentry
        obtain ⟨e', he', -, hcounted, -⟩ := hentry
        obtain rfl := Option.some.inj he'
        exact ⟨first, rest, rfl, hcounted⟩
  have hdraws : draws id n = false := draws_eq_false fun r level hdeliver =>
    nomatch hbody.symm.trans hdeliver
  have hcount : (n :: h).filter (attempts id) = h.filter (attempts id) :=
    List.filter_cons_of_neg fun hattempts => by
      rcases attempts_iff.mp hattempts with h | h
      · exact nomatch hbody.symm.trans h
      · exact nomatch hdraws.symm.trans h
  have hfewer : ((n :: h).filter (attempts id)).length < (sendings id (n :: h)).length := by
    rw [hcount, hsend]
    exact Nat.lt_succ_of_le hk.count
  -- the task waits for the attempt that it has started
  have hheirs : (n.turn ControlRoom.program).heirs
      = [.retrying [id] p.setup.maxRetries true, .attempt id] := by
    rw [hturn]
    rfl
  have hnow : ∀ {u j}, Agenda.job? o' u = some j → j.2.retries id = true →
      u = n.task ∧ j.2 = .retrying [id] p.setup.maxRetries true := by
    intro u j hj hr
    cases hs.comes hj with
    | stays hu hold => exact absurd (hk.retries.eq hold hs.job hr hretries) hu
    | goesOn hu _ hgoes =>
        rw [hturn] at hgoes
        exact ⟨hu, (Option.some.inj hgoes).symm⟩
    | added _ hi =>
        unfold Stint.jobs at hi
        rw [hturn] at hi
        obtain rfl := List.mem_singleton.mp (List.mem_of_getElem? hi)
        exact nomatch hr
  have hstarted : ∀ {u j}, Agenda.job? o' u = some j → j.2.tries id = true →
      n.Starts ControlRoom.program u (.attempt id) := by
    intro u j hj ht
    cases hs.comes hj with
    | stays _ hold => exact (hidle hold ht).elim
    | goesOn _ _ hgoes =>
        rw [hturn] at hgoes
        rw [← Option.some.inj hgoes] at ht
        exact nomatch ht
    | @added i hu hi =>
        unfold Stint.jobs at hi
        rw [hturn] at hi
        have hzero : i = 0 := by
          obtain ⟨hlt, -⟩ := List.getElem?_eq_some_iff.mp hi
          exact Nat.lt_one_iff.mp hlt
        unfold Stint.Starts Stint.firstChild
        rw [hturn]
        exact ⟨0, rfl, by rw [hu, hzero, hs.started]; rfl⟩
  refine {
    setup := hs.leaves ▸ hturn ▸ hs.state ▸ hk.setup
    tries := hs.sole hk.tries ?_ fun _ => .inr fun u j hj =>
      Bool.not_eq_true _ ▸ fun ht => hidle hj ht
    retries := hs.sole hk.retries ?_ fun _ => .inl hretries
    shape := fun hj hr => .inr ⟨(hnow hj hr).2, ?_⟩
    child := fun hj hr hj' ht => ⟨n, hn, (hnow hj hr).1.symm, hstarted hj' ht⟩
    handed := fun _ _ => hhanded
    origin := fun _ _ => .inr hhanded
    entry := ?_
    drawn := fun _ => ?_
    bound := ?_
    count := Nat.le_of_lt hfewer
    fewer := fun _ => hfewer
    unsent := fun _ _ => ?_
    sent := fun s hsm hsent => ?_
    once := ?_
    lost := fun hid => ?_ }
  · rw [hheirs]
    show ([.attempt id].filter (Work.tries id)).length ≤ 1
    exact List.length_filter_le _ _
  · rw [hheirs]
    refine Nat.le_of_lt_succ (List.length_filter_lt_length_iff_exists.mpr ⟨.attempt id, ?_, ?_⟩)
    · exact List.mem_cons_of_mem _ (List.mem_singleton_self _)
    · exact Bool.false_ne_true
  · rw [hsend, hbefore]
    exact Nat.le_add_left 2 _
  · rw [hsend, hentry', hbefore]
    refine ⟨_, rfl, rfl, ?_, fun _ => .inr hfailed⟩
    show e.retries + 1 = _
    rw [hcounted]
    rfl
  · obtain ⟨d, hd, hrest⟩ := hk.drawn (by rw [hbefore]; exact nofun)
    exact ⟨d, hmem d hd, hrest⟩
  · rw [hsend, hbefore]
    rw [hcounted] at hleft
    show ((rest.length + 1 + 1 : Nat) : Int) ≤ _
    omega
  · rintro ⟨e', he', hsent⟩
    obtain rfl := Option.some.inj (hentry'.symm.trans he')
    exact nomatch hfailed.symm.trans hsent
  · rcases List.mem_cons.mp hsm with rfl | hsm
    · rw [hs.leaves]
      exact hsent
    · exact absurd (hk.sent s hsm hsent) hunsent
  · rw [hs.leaves, hturn]
    exact hs.state ▸ hk.once
  · rw [hs.leaves, hturn] at hid
    have hid : id ∈ n.state.deadLetters := hid
    rw [hs.state] at hid
    exact nomatch hretries.symm.trans ((hk.lost hid).2.2 _ _ hs.job).2

/-- Nothing is left to be done for a delivery that is given up when its last retry has ended. -/
theorem Tracked.bury (hk : Tracked id p h o) (hs : p.Step h o n o')
    (hbody : n.body = .retrying [id] p.setup.maxRetries true)
    (hidle : ∀ {u j}, Agenda.job? o u = some j → j.2.tries id = true → False) {m : Moment}
    (hturn : n.turn ControlRoom.program
      = n.state.endRetry m [id] [id] p.setup.maxRetries true)
    {e : LogEntry} (he : n.state.journal.get? id = some e)
    (hlost : e.isLost p.setup.maxRetries = true) : Tracked id p (n :: h) o' := by
  have hmem : ∀ s ∈ h, s ∈ n :: h := fun s => List.mem_cons_of_mem n
  have hretries : n.body.retries id = true := by
    rw [hbody]
    exact decide_eq_true (List.mem_singleton_self id)
  have hstate : o'.state = o.state.buryLost p.setup.maxRetries [id] := by
    rw [hs.leaves, hturn, ControlRoom.endRetry_state, hs.state]
  have hentry : o'.state.journal.get? id = o.state.journal.get? id := by
    rw [hstate]
    rfl
  rw [hs.state] at he
  unfold LogEntry.isLost at hlost
  rw [Bool.and_eq_true, decide_eq_true_iff, bne_iff_ne] at hlost
  obtain ⟨hunsent, hmost⟩ := hlost
  have hsend : sendings id (n :: h) = sendings id h := by
    rw [sendings_cons, sending?_eq_none (draws_eq_false fun _ _ h => nomatch hbody.symm.trans h)
      (triesAgain_eq_false fun _ _ _ h => nomatch hbody.symm.trans h)]
    rfl
  have hcount : (n :: h).filter (attempts id) = h.filter (attempts id) :=
    List.filter_cons_of_neg fun hattempts => by
      rcases attempts_iff.mp hattempts with h | h
      · exact nomatch hbody.symm.trans h
      · obtain ⟨⟨r, level, hdeliver⟩, -⟩ := draws_iff.mp h
        exact nomatch hbody.symm.trans hdeliver
  -- at least one retry has been made, and no more than there may be
  obtain ⟨hfailed, hused⟩ : e.status = .failed ∧ e.retries = p.setup.maxRetries := by
    have hrecords := hk.entry
    have hbound := hk.bound
    have htwo := ((hk.shape hs.job hretries).resolve_left fun h => nomatch hbody.symm.trans h).2
    cases hms : sendings id h with
    | nil =>
        rw [hms] at htwo
        exact absurd htwo (by decide)
    | cons first rest =>
        rw [hms] at hrecords hbound htwo
        obtain ⟨e', he', -, hcounted, hstatus⟩ := hrecords
        obtain rfl := Option.some.inj (he.symm.trans he')
        rw [List.length_cons] at hbound htwo
        have hrest : rest ≠ [] := fun h => by
          rw [h] at htwo
          exact absurd htwo (by decide)
        refine ⟨(hstatus hrest).resolve_left hunsent, ?_⟩
        push_cast at hbound
        omega
  have hheirs : (n.turn ControlRoom.program).heirs = [] := by
    rw [hturn]
    refine (ControlRoom.heirs_endRetry_self n.state m [id] p.setup.maxRetries id).resolve_right ?_
    rintro ⟨-, x, hx, hleft⟩
    rw [hs.state] at hx hleft
    obtain rfl := Option.some.inj (he.symm.trans hx)
    unfold LogEntry.isRetriable at hleft
    rw [Bool.and_eq_true, decide_eq_true_iff, hk.setup, hused] at hleft
    exact absurd hleft.2 (Int.lt_irrefl _)
  have hnone : ∀ {u j}, Agenda.job? o' u = some j → j.2.tries id = false ∧
      j.2.retries id = false := by
    intro u j hj
    rcases (hs.comes hj).stays_or_heir with ⟨hu, hold⟩ | hheir
    · refine ⟨Bool.not_eq_true _ ▸ fun ht => hidle hold ht, Bool.not_eq_true _ ▸ fun hr => ?_⟩
      exact hu (hk.retries.eq hold hs.job hr hretries)
    · rw [hheirs] at hheir
      exact absurd hheir List.not_mem_nil
  have htries : ∀ {u j}, Agenda.job? o' u = some j → j.2.tries id = true → False :=
    fun hj ht => nomatch ht.symm.trans (hnone hj).1
  have hagain : ∀ {u j}, Agenda.job? o' u = some j → j.2.retries id = true → False :=
    fun hj hr => nomatch hr.symm.trans (hnone hj).2
  have hnew : id ∉ o.state.deadLetters := fun hid =>
    nomatch hretries.symm.trans ((hk.lost hid).2.2 _ _ hs.job).2
  refine {
    setup := hstate ▸ hk.setup
    tries := ⟨fun hj _ ht => (htries hj ht).elim⟩
    retries := ⟨fun hj _ hr => (hagain hj hr).elim⟩
    shape := fun hj hr => (hagain hj hr).elim
    child := fun hj hr => (hagain hj hr).elim
    handed := fun hj hr => (hagain hj hr).elim
    origin := fun hj ht => (htries hj ht).elim
    entry := ?_
    drawn := fun hne => ?_
    bound := hsend ▸ hk.bound
    count := hsend ▸ hcount ▸ hk.count
    fewer := fun hj => (htries hj (decide_eq_true rfl)).elim
    unsent := fun hj ht => (htries hj ht).elim
    sent := fun s hsm hsent => ?_
    once := ?_
    lost := fun _ => ⟨⟨e, hentry.trans he, hfailed, hused⟩,
      (hk.handed hs.job hretries).mono hmem, fun _ _ => hnone⟩ }
  · rw [hsend, hentry]
    exact hk.entry
  · rw [hsend] at hne
    obtain ⟨d, hd, hrest⟩ := hk.drawn hne
    exact ⟨d, hmem d hd, hrest⟩
  · rcases List.mem_cons.mp hsm with rfl | hsm
    · rw [hs.leaves]
      exact hsent
    · exact (isSent_congr hentry).mpr (hk.sent s hsm hsent)
  · rw [hstate, ControlRoom.buryLost_singleton, List.count_append, List.count_eq_zero.mpr hnew,
      Nat.zero_add]
    split
    · exact List.count_le_length
    · exact Nat.zero_le 1

/-- A retry that goes on finds that its attempt is over. -/
theorem Tracked.idle_of_retrying (hk : Tracked id p h o) (hs : p.Step h o n o') {most : Int}
    (hbody : n.body = .retrying [id] most true) {ys : List Yield} (hwake : n.wake = .gathered ys)
    {j : Audience × Work} (hj : Agenda.job? o t = some j) (ht : j.2.tries id = true) : False := by
  have hretries : n.body.retries id = true := by
    rw [hbody]
    exact decide_eq_true (List.mem_singleton_self id)
  obtain ⟨q, hq, hqt, -, hleads⟩ :=
    hs.after.previous (List.suffix_refl _) (by rw [hwake]; exact nofun)
  obtain ⟨s, hsm, hst, hstarts⟩ := hk.child hs.job hretries hj ht
  rw [hwake] at hleads
  -- the stint that started the attempt is the one that the retry goes on from
  obtain ⟨es, hqbody⟩ : ∃ es, q.body = .retry es most true := by
    have hgoes := hleads.body
    rw [hbody] at hgoes
    exact (hs.before.shaped hq).next.of_retrying hgoes
  obtain ⟨es', most', again', hsbody⟩ : ∃ es most again, s.body = .retry es most again := by
    obtain ⟨i, hi, -⟩ := hstarts
    exact ((hs.before.shaped hsm).next.of_tries_child (List.mem_of_getElem? hi)
      (decide_eq_true rfl)).2
  obtain rfl := hs.before.keeps.coherent.first_unique hsm hq
    (hs.before.first hsm (by rw [hsbody]; trivial)).1
    (hs.before.first hq (by rw [hqbody]; trivial)).1 (hst.trans hqt.symm)
  obtain ⟨cs, -, hys⟩ := hleads.of_gathered
  obtain ⟨y, -, hended⟩ :=
    History.exists_result_of_child hys (History.mem_childIds.mpr ⟨_, hstarts⟩)
  obtain ⟨f, hf, rfl, -, hends⟩ := hended.of_ok
  exact nomatch hj.symm.trans (hs.before.job?_of_ends hf hends)

/-- A retry attempts nothing itself. -/
theorem attempts_of_retries (hretries : n.body.retries id = true) :
    draws id n = false ∧ attempts id n = false := by
  have hdraws : draws id n = false := draws_eq_false fun r level hbody => by
    rw [hbody] at hretries
    exact nomatch hretries
  refine ⟨hdraws, Bool.not_eq_true _ ▸ fun hattempts => ?_⟩
  rcases attempts_iff.mp hattempts with hbody | hdraw
  · rw [hbody] at hretries
    exact nomatch hretries
  · exact nomatch hdraws.symm.trans hdraw

/-- A retry ends without a trace, but for the next one that it may have booked. -/
theorem Tracked.follow (hk : Tracked id p h o) (hs : p.Step h o n o')
    (hretries : n.body.retries id = true) (hsend : sending? id n = none)
    (hidle : ∀ {u j}, Agenda.job? o u = some j → j.2.tries id = true → False)
    (hbooks : ControlRoom.SameBooks n.state (n.turn ControlRoom.program).state)
    (hheirs : (n.turn ControlRoom.program).heirs = [] ∨
      (n.turn ControlRoom.program).heirs = [.retry [id] n.state.setup.maxRetries true]) :
    Tracked id p (n :: h) o' := by
  rw [← hs.leaves, hs.state] at hbooks
  rw [hs.state, hk.setup] at hheirs
  have hlost : id ∉ o.state.deadLetters := fun hid =>
    nomatch hretries.symm.trans ((hk.lost hid).2.2 _ _ hs.job).2
  obtain ⟨hone, hall⟩ :
      ((n.turn ControlRoom.program).heirs.filter (·.retries id)).length ≤ 1 ∧
        ∀ v ∈ (n.turn ControlRoom.program).heirs, v.tries id = false ∧
          (v.retries id = true → v = .retry [id] p.setup.maxRetries true) := by
    rcases hheirs with h | h
    · rw [h]
      exact ⟨Nat.zero_le 1, fun v hv => absurd hv List.not_mem_nil⟩
    · rw [h]
      refine ⟨List.length_filter_le _ _, fun v hv => ?_⟩
      obtain rfl := List.mem_singleton.mp hv
      exact ⟨rfl, fun _ => rfl⟩
  exact hk.book hs hbooks.leaves hsend (attempts_of_retries hretries).2 hidle
    (fun hj hr => hk.retries.eq hj hs.job hr hretries) hlost
    ((hk.handed hs.job hretries).mono fun s => List.mem_cons_of_mem n) hone hall

/-- Work that is stopped does nothing more about the delivery. -/
theorem Tracked.stop (hk : Tracked id p h o) (hs : p.Step h o n o') {st : Stop}
    (hturn : n.turn ControlRoom.program = n.state.stop st) (hsend : sending? id n = none)
    (hattempts : attempts id n = false) : Tracked id p (n :: h) o' := by
  have hstate : o'.state = o.state := by
    rw [hs.leaves, hturn]
    exact hs.state
  refine hk.lose (hstate ▸ .rfl) (fun hj _ => ?_) (k := [n]) fun s hsm => ?_
  · rcases (hs.comes hj).stays_or_heir with ⟨-, hold⟩ | hheir
    · exact hold
    · rw [hturn] at hheir
      exact absurd hheir List.not_mem_nil
  · obtain rfl := List.mem_singleton.mp hsm
    exact ⟨hsend, hattempts, hs.leaves.symm⟩

/-- A retry sends the delivery again, or it leaves that to the next one. -/
theorem Tracked.retry (hk : Tracked id p h o) (hs : p.Step h o n o')
    (hbody : n.body = .retry [id] p.setup.maxRetries true) : Tracked id p (n :: h) o' := by
  have hretries : n.body.retries id = true := by
    rw [hbody]
    exact decide_eq_true (List.mem_singleton_self id)
  obtain ⟨hdraws, hattempts⟩ := attempts_of_retries hretries
  have hwake := (hs.after.first List.mem_cons_self (by rw [hbody]; trivial)).2
  have hturn : n.turn ControlRoom.program
      = ControlRoom.program n.now n.state (.retry [id] p.setup.maxRetries true) .start := by
    rw [← hbody, ← hwake]
    rfl
  cases hclock : n.state.clock? n.now with
  | none =>
      rw [ControlRoom.program_of_no_clock hclock] at hturn
      exact hk.stop hs hturn (sending?_of_no_clock hclock) hattempts
  | some m =>
      rw [ControlRoom.program_of_clock hclock] at hturn
      have hturn : n.turn ControlRoom.program
        = n.state.beginRetry m [id] p.setup.maxRetries true := hturn
      rcases ControlRoom.beginRetry_self n.state m p.setup.maxRetries id with
        ⟨hnot, hbooks, hheirs⟩ | ⟨heligible, hagain⟩
      · rw [← hturn] at hbooks hheirs
        refine hk.follow hs hretries (sending?_eq_none hdraws ?_)
          (fun hj ht => hk.idle_of_retry hs hbody hj ht) hbooks hheirs
        refine Bool.not_eq_true _ ▸ fun hagain => ?_
        obtain ⟨es, most, again, m', tried, hbody', hclock', htried, hid⟩ :=
          triesAgain_iff.mp hagain
        obtain ⟨rfl, rfl, -⟩ := Work.retry.inj (hbody.symm.trans hbody')
        obtain rfl := Option.some.inj (hclock.symm.trans hclock')
        exact hnot tried htried hid
      · exact hk.resend hs hbody hclock heligible (hturn.trans hagain)

/-- A retry goes on when its attempt is over: it gives the delivery up, or leaves that to the next
retry. -/
theorem Tracked.retrying (hk : Tracked id p h o) (hs : p.Step h o n o')
    (hbody : n.body = .retrying [id] p.setup.maxRetries true) : Tracked id p (n :: h) o' := by
  have hretries : n.body.retries id = true := by
    rw [hbody]
    exact decide_eq_true (List.mem_singleton_self id)
  obtain ⟨hdraws, hattempts⟩ := attempts_of_retries hretries
  have hsend : sending? id n = none :=
    sending?_eq_none hdraws (triesAgain_eq_false fun _ _ _ h => nomatch hbody.symm.trans h)
  have hturn : n.turn ControlRoom.program
      = ControlRoom.program n.now n.state (.retrying [id] p.setup.maxRetries true) n.wake := by
    rw [← hbody]
    rfl
  rcases ControlRoom.program_retrying n.now n.state [id] p.setup.maxRetries true n.wake with
    ⟨st, hst⟩ | ⟨m, ys, hwake, hend⟩
  · exact hk.stop hs (hturn.trans hst) hsend hattempts
  · have hidle := fun {u j} (hj : Agenda.job? o u = some j) ht =>
      hk.idle_of_retrying hs hbody hwake hj ht
    have hturn := hturn.trans hend
    by_cases hgiven : (n.state.journal.get? id).any (·.isLost p.setup.maxRetries) = true
    · obtain ⟨e, he, hlost⟩ := (Option.any_eq_true _ _).mp hgiven
      exact hk.bury hs hbody hidle hturn he hlost
    · have hletters := ControlRoom.buryLost_singleton n.state p.setup.maxRetries id
      rw [if_neg hgiven, List.append_nil] at hletters
      have hheirs := ControlRoom.heirs_endRetry_self n.state m [id] p.setup.maxRetries id
      refine hk.follow hs hretries hsend hidle ?_ ?_
      · rw [hturn, ControlRoom.endRetry_state]
        exact ⟨rfl, rfl, hletters⟩
      · rw [hturn]
        exact hheirs.imp_right And.left

/-! ## Other work -/

/-- Work on something else writes nothing about the delivery and has no heirs that try it; it may
book a retry for each time that it has carried the delivery. -/
theorem Premises.Step.aside (hs : p.Step h o n o') (htries : n.body.tries id = false)
    (hretries : n.body.retries id = false) (hdraws : draws id n = false) :
    ControlRoom.Leaves id n.state (n.turn ControlRoom.program).state ∧
      (∀ v ∈ (n.turn ControlRoom.program).heirs, v.tries id = false) ∧
      ControlRoom.BooksWithin id n.state.setup.maxRetries ((n.body.carried n.wake).count id)
        (n.turn ControlRoom.program) := by
  have hmanaged : n.body.IsManaged := (hs.after.mayBeDone n List.mem_cons_self).1
  by_cases hlate : (∃ r level, n.body = .deliver r level) ∧ n.state.clock? n.now = none
  · obtain ⟨⟨r, level, hbody⟩, hclock⟩ := hlate
    have hturn : n.turn ControlRoom.program = n.state.stop (.failed .outOfBounds) := by
      unfold Stint.turn
      rw [ControlRoom.program_of_no_clock hclock, hbody]
      rfl
    rw [hturn]
    exact ⟨.rfl, fun v hv => absurd hv List.not_mem_nil, ControlRoom.booksWithin_of_nil rfl _ _⟩
  · have hdeliver : ∀ r level, n.body = .deliver r level → n.state.nextEntry ≠ id := by
      intro r level hbody hid
      refine nomatch hdraws.symm.trans (draws_iff.mpr ⟨⟨r, level, hbody⟩, ?_, hid⟩)
      exact Option.ne_none_iff_exists'.mp fun hclock => hlate ⟨⟨r, level, hbody⟩, hclock⟩
    exact ⟨ControlRoom.leaves_program n.now n.state hmanaged htries hretries hdeliver n.wake,
      ControlRoom.tries_heirs n.now n.state hmanaged htries hretries hdeliver n.wake,
      ControlRoom.booksWithin_program n.now n.state hmanaged hretries n.wake⟩

/-- Who carries a delivery was not handed over before, and nobody tries the delivery any more. -/
theorem Tracked.first_over (hk : Tracked id p h o) (hs : p.Step h o n o')
    (hone : GivenOnce id (n :: h)) (hdraws : draws id n = false) (hwave : n.body.IsWave)
    (hover : Over id n.task h) :
    (∃ d ∈ h, draws id d = true ∧ d.audience = .task n.task) ∧ ¬ Handed id h ∧
      ∀ {u j}, Agenda.job? o u = some j → j.2.tries id = true → False := by
  obtain ⟨f, hf, haudience, y, hends, hid⟩ := hover
  obtain ⟨-, d, hd, hdd, hdtask, hda⟩ := hs.after.drawn_of_ends List.mem_cons_self hwave
    (List.mem_cons_of_mem n hf) haudience hends hid
  have hold : ∀ {d}, d ∈ n :: h → draws id d = true → d ∈ h := by
    intro d hd hdd
    rcases List.mem_cons.mp hd with rfl | hd
    · exact nomatch hdraws.symm.trans hdd
    · exact hd
  have hdh := hold hd hdd
  have hnot : ¬ Handed id h := by
    rintro ⟨d', hd', hdd', s, hsm, ha, x, hx⟩
    -- the delivery was drawn once, so its wave would be the one that is there still
    have hfirst : ∀ {d}, d ∈ h → draws id d = true → d.first = true := by
      intro d hd hdd
      obtain ⟨⟨r, level, hbody⟩, -⟩ := draws_iff.mp hdd
      exact (hs.before.first hd (by rw [hbody]; trivial)).1
    obtain rfl := hs.before.keeps.coherent.first_unique hdh hd' (hfirst hdh hdd) (hfirst hd' hdd')
      (hone d hd d' (List.mem_cons_of_mem n hd') hdd hdd')
    have htask : s.task = n.task := Audience.task.inj (ha.symm.trans (hda.trans haudience))
    exact hs.coherent.ne_of_ends (List.suffix_refl _) hsm hx htask
  refine ⟨⟨d, hdh, hdd, hda.trans haudience⟩, hnot, fun hj ht => ?_⟩
  rcases hk.origin hj ht with ⟨d', hd', hdd', rfl⟩ | hhanded
  · have htask := hone d hd d' (List.mem_cons_of_mem n hd') hdd hdd'
    rw [← htask, hdtask, hs.before.job?_of_ends hf hends] at hj
    exact nomatch hj
  · exact hnot hhanded

/-- **Work on something else** leaves the delivery as it is, or books the first retry of it. -/
theorem Tracked.other (hk : Tracked id p h o) (hs : p.Step h o n o') (hone : GivenOnce id (n :: h))
    (htries : n.body.tries id = false) (hretries : n.body.retries id = false)
    (hdraws : draws id n = false) : Tracked id p (n :: h) o' := by
  obtain ⟨hleaves, hnone, k, hle, hfilter, hfinish⟩ := hs.aside htries hretries hdraws
  rw [← hs.leaves, hs.state] at hleaves
  have hsend : sending? id n = none :=
    sending?_eq_none hdraws (triesAgain_eq_false fun _ _ _ => Work.not_mem_of_retries hretries)
  have hattempts : attempts id n = false := Bool.not_eq_true _ ▸ fun hattempts => by
    rcases attempts_iff.mp hattempts with hbody | hdraw
    · rw [hbody] at htries
      exact of_decide_eq_false htries rfl
    · exact nomatch hdraws.symm.trans hdraw
  have hheirs : ∀ v ∈ (n.turn ControlRoom.program).heirs, v.retries id = true →
      k ≠ 0 ∧ v = .retry [id] n.state.setup.maxRetries true := by
    intro v hv hr
    have hmem := List.mem_filter.mpr ⟨hv, hr⟩
    rw [hfilter] at hmem
    exact List.mem_replicate.mp hmem
  by_cases hzero : k = 0
  · refine hk.lose hleaves (fun {t j} hj hjob => ?_) (k := [n]) fun s hsm => ?_
    · rcases (hs.comes hj).stays_or_heir with ⟨-, hold⟩ | hheir
      · exact hold
      · rcases hjob with ht | hr
        · exact nomatch ht.symm.trans (hnone j.2 hheir)
        · exact absurd hzero (hheirs j.2 hheir hr).1
    · obtain rfl := List.mem_singleton.mp hsm
      exact ⟨hsend, hattempts, hs.leaves.symm⟩
  · -- the wave of the delivery ends
    obtain ⟨place, hplace, -⟩ := hs.taken
    obtain ⟨hcount, hcarried⟩ := hs.before.carried_once hs.after hone hplace
    obtain ⟨hwave, hover⟩ := hcarried (List.count_pos_iff.mp (by omega))
    obtain ⟨⟨d, hd, hdd, hda⟩, hnot, hidle⟩ := hk.first_over hs hone hdraws hwave hover
    obtain ⟨x, hx⟩ := hfinish hzero
    refine hk.book hs hleaves hsend hattempts hidle
      (fun hj hr => absurd (hk.handed hj hr) hnot) (fun hid => hnot (hk.lost hid).2.1)
      ⟨d, List.mem_cons_of_mem n hd, hdd, n, List.mem_cons_self, hda, x, hx⟩ ?_ fun v hv => ?_
    · rw [hfilter, List.length_replicate]
      exact Nat.le_trans hle hcount
    · refine ⟨hnone v hv, fun hr => ?_⟩
      rw [(hheirs v hv hr).2, hs.state, hk.setup]

/-! ## Runs -/

/-- **Any stint keeps track of a delivery.** -/
theorem Tracked.stint (hk : Tracked id p h o) (hs : p.Step h o n o')
    (hone : GivenOnce id (n :: h)) : Tracked id p (n :: h) o' := by
  by_cases htries : n.body.tries id = true
  · exact hk.attempt hs htries
  by_cases hretries : n.body.retries id = true
  · have hshape : n.body = .retry [id] p.setup.maxRetries true ∨
      n.body = .retrying [id] p.setup.maxRetries true ∧ _ := hk.shape hs.job hretries
    rcases hshape with hbody | ⟨hbody, -⟩
    · exact hk.retry hs hbody
    · exact hk.retrying hs hbody
  by_cases hdraws : draws id n = true
  · exact hk.draw hs hone hdraws
  · exact hk.other hs hone (Bool.not_eq_true _ ▸ htries) (Bool.not_eq_true _ ▸ hretries)
      (Bool.not_eq_true _ ▸ hdraws)

/-- A request that leaves the retries of a delivery to the room. -/
def LeavesRetries (id : String) : Request → Prop
  | .retry entries _ | .bookRetries entries => id ∉ entries
  | _ => True

/-- What an office may come to while all requests leave the retries of a delivery to the room. -/
abbrev Premises.SteadyRun (p : Premises) (id : String) : Past → Office → Prop :=
  Agenda.Run ControlRoom.program (fun o o' => ∃ q, LeavesRetries id q ∧ o' = serve o q)
    (.idle p.room)

theorem Premises.SteadyRun.run (hr : p.SteadyRun id h o) : p.Run h o :=
  hr.mono fun ⟨q, _, hb⟩ => ⟨q, hb⟩

/-- Such a request begins nothing about the delivery. -/
theorem asks_of_leavesRetries {q : Request} (hq : LeavesRetries id q) {j : Audience × Work}
    (hj : j ∈ o.begun q) : j.2.tries id = false ∧ j.2.retries id = false := by
  have hcalls := callsFor_of_mem_begun hj
  generalize j.2 = w at hcalls
  cases hcalls with
  | retry entries most => exact ⟨rfl, decide_eq_false hq⟩
  | bookRetries he =>
      refine ⟨rfl, decide_eq_false fun hid => ?_⟩
      obtain rfl := List.mem_singleton.mp hid
      exact hq he
  | _ => exact ⟨rfl, rfl⟩

/-- **Every delivery is kept track of**, as long as its identifier is given once. -/
theorem Premises.SteadyRun.tracked (hr : p.SteadyRun id h o) (hone : GivenOnce id h) :
    Tracked id p h o := by
  induction hr with
  | idle => exact tracked_idle id p
  | @step h a b place hr hb ih =>
      have hrun : p.Run h a := Premises.SteadyRun.run hr
      have hn : Agenda.Numbered a := hrun.keeps.numbered
      have hstep := hrun.step hb
      cases hs : Agenda.stintAt? a place with
      | none =>
          rw [hs] at hone
          have hstate := state_of_stepAt hn hb
          rw [hs] at hstate
          have hstate : b.state = a.state := hstate
          refine (ih hone).lose (hstate ▸ .rfl) (fun {t j} hj _ => ?_) (k := []) fun s hsm =>
            absurd hsm List.not_mem_nil
          rcases job?_of_no_stint hs hb t with h | ⟨h, -⟩
          · rw [← h]
            exact hj
          · exact nomatch h.symm.trans hj
      | some n =>
          rw [hs] at hone hstep
          have hold : GivenOnce id h := hone.of_subset fun d hd => List.mem_cons_of_mem n hd
          exact (ih hold).stint ⟨hrun, hstep, place, hs, hb⟩ hone
  | @pass h a time hr hready htime ih =>
      have hstate : (a.passTo time).state = a.state := state_passTo a time
      refine (ih hone).lose (hstate ▸ .rfl) (fun {t j} hj _ => ?_) (k := []) fun s hsm =>
        absurd hsm List.not_mem_nil
      rw [job?_passTo] at hj
      exact hj
  | @serve h a b hr hb ih =>
      have hrun : p.Run h a := Premises.SteadyRun.run hr
      have hn : Agenda.Numbered a := hrun.keeps.numbered
      obtain ⟨q, hq, rfl⟩ := hb
      refine (ih hone).lose (sameBooks_serve hn q).leaves (fun {t j} hj hjob => ?_) (k := [])
        fun s hsm => absurd hsm List.not_mem_nil
      rcases (adding_serve hn q).cases hj with hj | hj
      · exact hj
      · obtain ⟨ht, hr⟩ := asks_of_leavesRetries hq hj
        rcases hjob with h | h
        · exact nomatch h.symm.trans ht
        · exact nomatch h.symm.trans hr

end Office

end BuildingAlerts
