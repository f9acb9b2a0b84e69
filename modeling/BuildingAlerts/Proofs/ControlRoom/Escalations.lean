/-
The escalations of an alert.

From its notification on there is one task at most that goes on with an alert, as long as passes do
not overlap and nobody escalates it from outside: a pass announces only what it did not know, and
whatever was announced is known to every later pass. So the stages of the alert's policy are fired
one after the other, each on a higher level than the one before.
-/
import BuildingAlerts.Proofs.ControlRoom.Firing

set_option autoImplicit false

namespace BuildingAlerts

open Agenda

/-! ## Orderly runs -/

namespace Office

/-- A request that begins no pass beside another one, and leaves the escalation of an alert to the
room. -/
def IsOrderly (r : AlertRef) (o : Office) : Request → Prop
  | .pass _ => ∀ t j, Agenda.job? o t = some j → ¬ j.2.IsOfPass
  | .escalate id _ _ | .bookEscalation id _ => o.ref id ≠ r
  | _ => True

/-- What an office may come to while all requests are orderly for an alert. -/
abbrev Premises.OrderlyRun (p : Premises) (r : AlertRef) : Past → Office → Prop :=
  Agenda.Run ControlRoom.program (fun o o' => ∃ q, IsOrderly r o q ∧ o' = serve o q)
    (.idle p.room)

variable {p : Premises} {r : AlertRef} {h : Past} {o : Office}

theorem Premises.OrderlyRun.run (hr : p.OrderlyRun r h o) : p.Run h o :=
  hr.mono fun ⟨q, _, hb⟩ => ⟨q, hb⟩

/-! ## What is known -/

/-- What the evaluations of a pass came to is in the store when the pass goes on. -/
theorem Premises.Run.found_is_there (hr : p.Run h o) {d : Doing} {e : Past} (hd : d :: e <:+ h)
    {known : List String} {ys : List Yield} (hbody : d.body = .evaluating .caller known)
    (hwake : d.wake = .gathered ys) {id : String} (hid : id ∈ ys.flatMap (·.ids)) :
    id ∈ d.state.store.ids := by
  have he : e <:+ h := (List.suffix_cons d e).trans hd
  obtain ⟨s, hs, hps, -, -, hresults⟩ := hr.begin_of_evaluating hd hbody hwake
  obtain ⟨y, hy, hid⟩ := List.mem_flatMap.mp hid
  obtain ⟨c, hc, hended⟩ := History.exists_child_of_result hresults hy
  obtain ⟨f, hf, hft, hfa, hends⟩ := hended.of_ok
  have hfh := he.subset hf
  obtain ⟨b, x, hfbody⟩ := hr.evaluate_of_child (he.subset hs) hps hc hfh hft hfa
  have hkeyed := (later_turn f).grows.keyed (hr.keyed hfh).1
  refine (hr.later_of_suffix hd hf).grows.ids hkeyed id ?_
  rcases hr.ends_evaluate hfh hfbody with ⟨hturn, hends'⟩ | ⟨-, -, hends'⟩
  · have hy := Except.ok.inj (Next.finish.inj (hends.symm.trans hends'))
    rw [hturn]
    refine (b.evaluated_run x f.state.registry).holds (hr.keyed hfh).1 id ?_
    rw [hy] at hid
    exact hid
  · exact nomatch Next.finish.inj (hends.symm.trans hends')

/-- Somebody has gone on with an alert. -/
def Announced (r : AlertRef) (h : Past) : Prop :=
  ∃ s ∈ h, ControlRoom.successors r (s.turn ControlRoom.program) ≠ []

theorem Announced.cons (n : Doing) (ha : Announced r h) : Announced r (n :: h) := by
  obtain ⟨s, hs, hne⟩ := ha
  exact ⟨s, List.mem_cons_of_mem n hs, hne⟩

/-- One task at most goes on with an alert, and what was fired of the alert suits it. -/
structure Course (r : AlertRef) (h : Past) (o : Office) : Prop where
  sole : Sole (·.concerns r) o
  pass : Sole (fun w => decide w.IsOfPass) o
  announced : ∀ {t j}, Agenda.job? o t = some j → j.2.concerns r = true → Announced r h
  there : Announced r h → (o.state.store.find? r).isSome = true ∧ r.id ∈ o.state.store.ids
  known : Announced r h → ∀ {t j known}, Agenda.job? o t = some j →
    j.2 = .evaluating .caller known → r.id ∈ known
  level : 0 ≤ o.state.levelOf r
  quiet : ¬ Announced r h → fired r h = []
  fair : (fired r h).Fair
  suits : ∀ {t j}, Agenda.job? o t = some j → j.2.concerns r = true →
    (fired r h).Suits (o.state.levelOf r) j.2

theorem levelOf_room (p : Premises) (r : AlertRef) : p.room.levelOf r = 0 := by
  unfold ControlRoom.levelOf Store.levelOf
  rw [Store.find?_eq_line]
  rfl

theorem course_idle (r : AlertRef) (p : Premises) : Course r [] (.idle p.room) where
  sole := sole_idle _
  pass := sole_idle _
  announced := fun hj => nomatch hj
  there := fun ⟨_, hs, _⟩ => absurd hs List.not_mem_nil
  known := fun _ _ _ _ hj => nomatch hj
  level := Int.le_of_eq (levelOf_room p r).symm
  quiet := fun _ => rfl
  fair := Fired.fair_nil
  suits := fun hj => nomatch hj

/-- Tasks are gone, and the room is as it was. -/
theorem Course.lose {o' : Office} (hc : Course r h o) (hstate : o'.state = o.state)
    (hjobs : ∀ u, Agenda.job? o' u = Agenda.job? o u ∨ Agenda.job? o' u = none) :
    Course r h o' := by
  have hold : ∀ {u j}, Agenda.job? o' u = some j → Agenda.job? o u = some j := by
    intro u j hj
    rcases hjobs u with h | h
    · rw [← h]
      exact hj
    · exact nomatch h.symm.trans hj
  exact {
    sole := hc.sole.lose hjobs
    pass := hc.pass.lose hjobs
    announced := fun hj => hc.announced (hold hj)
    there := hstate ▸ hc.there
    known := fun ha _ _ _ hj => hc.known ha (hold hj)
    level := hstate ▸ hc.level
    quiet := hc.quiet
    fair := hc.fair
    suits := fun hj => hstate ▸ hc.suits (hold hj) }

/-! ## Requests -/

/-- Orderly requests begin nothing that concerns the alert. -/
theorem concerns_begun {q : Request} (hq : IsOrderly r o q) :
    ∀ j ∈ o.begun q, j.2.concerns r = false := by
  intro j hj
  have hcalls := callsFor_of_mem_begun hj
  generalize j.2 = w at hcalls
  cases hcalls with
  | escalate id p level => exact decide_eq_false hq
  | bookEscalation id p => exact decide_eq_false hq
  | _ => rfl

/-- A request begins a pass only if it asks for one, and then nothing else. -/
theorem begun_of_isOfPass {q : Request} {j : Audience × Work} (hj : j ∈ o.begun q)
    (hpass : j.2.IsOfPass) : ∃ s, q = .pass s ∧ j.2 = .pass .caller s := by
  have hcalls := callsFor_of_mem_begun hj
  generalize j.2 = w at hcalls hpass
  cases hcalls with
  | pass s => exact ⟨s, rfl, rfl⟩
  | _ => exact hpass.elim

/-- What is asked for in order leaves the alert on its course. -/
theorem Course.serve (hc : Course r h o) (hr : p.Run h o) {q : Request} (hq : IsOrderly r o q) :
    Course r h (o.serve q) := by
  have hn : Agenda.Numbered o := hr.keeps.numbered
  have hadd := adding_serve hn q
  have hlevel : (o.serve q).state.levelOf r = o.state.levelOf r := sameLevels_serve hn q r
  have hkept := kept_serve hn q
  have hkeyed : o.state.store.Keyed := hr.later.1.grows.keyed fun _ he => absurd he List.not_mem_nil
  have hold : ∀ {t j}, Agenda.job? (o.serve q) t = some j → j.2.concerns r = true →
      Agenda.job? o t = some j := by
    intro t j hj hcj
    rcases hadd.cases hj with hj | hj
    · exact hj
    · exact nomatch hcj.symm.trans (concerns_begun hq j hj)
  refine ⟨?_, ?_, ?_, fun ha => ?_, ?_, ?_, hc.quiet, hc.fair, ?_⟩
  · -- nothing that is begun concerns the alert
    have hnil : ((o.begun q).map (·.2)).filter (·.concerns r) = [] := by
      refine List.filter_eq_nil_iff.mpr fun w hw => ?_
      obtain ⟨j, hj, rfl⟩ := List.mem_map.mp hw
      rw [concerns_begun hq j hj]
      exact Bool.false_ne_true
    exact hc.sole.add hadd (hnil ▸ Nat.zero_le _) fun hne => absurd hnil hne
  · refine hc.pass.add hadd ?_ fun hne t j hj => ?_
    · by_cases hs : ∃ s, q = .pass s
      · obtain ⟨s, rfl⟩ := hs
        exact Nat.le_refl 1
      · have hnil : ((o.begun q).map (·.2)).filter (fun w => decide w.IsOfPass) = [] := by
          refine List.filter_eq_nil_iff.mpr fun w hw hpass => ?_
          obtain ⟨j, hj, rfl⟩ := List.mem_map.mp hw
          obtain ⟨s, hq, -⟩ := begun_of_isOfPass hj (of_decide_eq_true hpass)
          exact hs ⟨s, hq⟩
        exact hnil ▸ Nat.zero_le _
    · obtain ⟨w, hw⟩ := List.exists_mem_of_ne_nil _ hne
      obtain ⟨hmem, hpass⟩ := List.mem_filter.mp hw
      obtain ⟨k, hk, rfl⟩ := List.mem_map.mp hmem
      obtain ⟨s, rfl, -⟩ := begun_of_isOfPass hk (of_decide_eq_true hpass)
      exact decide_eq_false (hq t j hj)
  · exact fun hj hcj => hc.announced (hold hj hcj) hcj
  · obtain ⟨hthere, hid⟩ := hc.there ha
    obtain ⟨a, ha⟩ := Option.isSome_iff_exists.mp hthere
    obtain ⟨b, hb, -⟩ := hkept.grows.kept r a ha
    exact ⟨Option.isSome_iff_exists.mpr ⟨b, hb⟩, hkept.grows.ids hkeyed r.id hid⟩
  · intro ha t j known hj hk
    rcases hadd.cases hj with hj | hj
    · exact hc.known ha hj hk
    · obtain ⟨s, -, hs⟩ := begun_of_isOfPass hj (by rw [hk]; trivial)
      exact nomatch hk.symm.trans hs
  · rw [hlevel]
    exact hc.level
  · intro t j hj hcj
    rw [hlevel]
    exact hc.suits (hold hj hcj) hcj

end Office

/-! ## Stints -/

namespace Work

/-- No task starts a pass. -/
theorem Leads.not_isOfPass_child {w : Work} {n : Next Work Yield} (hn : w.Leads n) {b : Work}
    (hb : b ∈ n.children) : ¬ b.IsOfPass := by
  have hmap : ∀ {α : Type} {f : α → Work} {xs : List α}, (∀ x, ¬ (f x).IsOfPass) →
      b ∈ xs.map f → ¬ b.IsOfPass := by
    intro α f xs hf hb
    obtain ⟨x, -, rfl⟩ := List.mem_map.mp hb
    exact hf x
  cases hn with
  | evaluating s bs known => exact hmap (fun _ => id) hb
  | notifying known refs found => exact hmap (fun _ => id) hb
  | collecting r rs sequel => exact hmap (fun _ => id) hb
  | retrying es tried most again => exact hmap (fun _ => id) hb
  | escalating r p level rs s since booked => exact hmap (fun _ => id) hb
  | _ => exact absurd hb List.not_mem_nil

/-- Only a pass goes on as one. -/
theorem Leads.isOfPass_of_body {w : Work} {n : Next Work Yield} (hn : w.Leads n) {b : Work}
    (hb : n.body? = some b) (hpass : b.IsOfPass) : w.IsOfPass := by
  cases hn with
  | evaluating s bs known => trivial
  | notifying known refs found => trivial
  | finish o => exact nomatch hb
  | _ =>
      obtain rfl := Option.some.inj hb
      exact hpass.elim

end Work

namespace ControlRoom

/-- A pass has one heir at most that is a pass, and other work has none. -/
theorem filter_isOfPass_heirs (now : Instant) (c : ControlRoom) {w : Work} (hw : w.IsManaged)
    (wake : Wake Yield) :
    ((program now c w wake).heirs.filter fun w => decide w.IsOfPass).length ≤ 1 ∧
      ((program now c w wake).heirs.filter (fun w => decide w.IsOfPass) ≠ [] → w.IsOfPass) := by
  have hshaped := shaped_program now c hw wake
  have hnew : ((program now c w wake).appointments.map (·.body)
      ++ (program now c w wake).next.children).filter (fun w => decide w.IsOfPass) = [] := by
    refine List.filter_eq_nil_iff.mpr fun v hv hpass => ?_
    rcases List.mem_append.mp hv with hv | hv
    · obtain ⟨m, hm, rfl⟩ := List.mem_map.mp hv
      rcases hshaped.booked m hm with ⟨es, most, again, hb⟩ | ⟨r, p, level, hb⟩
      · rw [hb] at hpass
        exact of_decide_eq_true hpass
      · rw [hb] at hpass
        exact of_decide_eq_true hpass
    · exact hshaped.next.not_isOfPass_child hv (of_decide_eq_true hpass)
  unfold Turn.heirs
  rw [List.filter_append, hnew, List.append_nil]
  cases hb : (program now c w wake).next.body? with
  | none => exact ⟨Nat.zero_le 1, fun h => absurd rfl h⟩
  | some b =>
      refine ⟨List.length_filter_le _ [b], fun hne => ?_⟩
      obtain ⟨v, hv⟩ := List.exists_mem_of_ne_nil _ hne
      obtain ⟨hmem, hpass⟩ := List.mem_filter.mp hv
      obtain rfl := List.mem_singleton.mp hmem
      exact hshaped.next.isOfPass_of_body hb (of_decide_eq_true hpass)

end ControlRoom

namespace Office

variable {p : Premises} {r : AlertRef} {h : Past} {o o' : Office} {place : Nat} {n : Doing}

/-- The alerts that a pass knows are those that were there when it began. -/
theorem evaluating_of_stint (hr : p.Run (n :: h) o') (hn : Agenda.Numbered o)
    (hs : Agenda.stintAt? o place = some n) (hb : o.stepAt ControlRoom.program place = some o')
    {t : TaskId} {j : Audience × Work} {known : List String} (hj : Agenda.job? o' t = some j)
    (hk : j.2 = .evaluating .caller known) :
    t ≠ n.task ∧ Agenda.job? o t = some j ∨ n.body.concerns r = false ∧
      (∀ known, n.body ≠ .evaluating .caller known) ∧ known = n.state.store.ids := by
  have hshaped := hr.shaped (List.mem_cons_self ..)
  cases comes_of_stint hn hs hb hj with
  | stays hu hj => exact .inl ⟨hu, hj⟩
  | goesOn hu _ hbody =>
      rw [hk] at hbody
      obtain ⟨s, hpass⟩ := hshaped.next.of_evaluating hbody
      have hwake := (hr.first (List.mem_cons_self ..) (by rw [hpass]; trivial)).2
      refine .inr ⟨by rw [hpass]; rfl, ?_, ?_⟩
      · exact fun known he => nomatch hpass.symm.trans he
      · unfold Stint.turn at hbody
        rw [hpass, hwake] at hbody
        rcases ControlRoom.next_pass n.now n.state s with ⟨-, st, hnext⟩ | ⟨-, hnext⟩ | ⟨-, hnext⟩
        · rw [hnext] at hbody
          exact nomatch hbody
        · rw [hnext] at hbody
          exact nomatch hbody
        · rw [hnext] at hbody
          exact (Work.evaluating.inj (Option.some.inj hbody)).2.symm
  | added hu hj =>
      have hmem := List.mem_map_of_mem (f := (·.2)) (List.mem_of_getElem? hj)
      rw [n.map_jobs] at hmem
      have hheir : j.2 ∈ (n.turn ControlRoom.program).appointments.map (·.body)
          ++ (n.turn ControlRoom.program).next.children := hmem
      rcases List.mem_append.mp hheir with hm | hm
      · obtain ⟨m, hm, he⟩ := List.mem_map.mp hm
        rcases hshaped.booked m hm with ⟨es, most, again, hm⟩ | ⟨q, p, level, hm⟩
        · exact nomatch hk.symm.trans (he.symm.trans hm)
        · exact nomatch hk.symm.trans (he.symm.trans hm)
      · exact absurd (by rw [hk]; trivial) (hshaped.next.not_isOfPass_child hm)

/-- What concerns an alert after a stint did so before, or succeeds to the stint. -/
theorem concerns_of_stint (hn : Agenda.Numbered o) (hs : Agenda.stintAt? o place = some n)
    (hb : o.stepAt ControlRoom.program place = some o') {t : TaskId} {j : Audience × Work}
    (hj : Agenda.job? o' t = some j) (hcj : j.2.concerns r = true) :
    t ≠ n.task ∧ Agenda.job? o t = some j ∨
      j.2 ∈ ControlRoom.successors r (n.turn ControlRoom.program) :=
  (comes_of_stint hn hs hb hj).stays_or_heir.imp_right fun h => List.mem_filter.mpr ⟨h, hcj⟩

theorem Announced.of_cons (hnil : ControlRoom.successors r (n.turn ControlRoom.program) = [])
    (ha : Announced r (n :: h)) : Announced r h := by
  obtain ⟨s, hs, hne⟩ := ha
  rcases List.mem_cons.mp hs with rfl | hs
  · exact absurd hnil hne
  · exact ⟨s, hs, hne⟩

/-- Nobody but its own task goes on with an alert that was announced. -/
theorem Course.successors_nil (hc : Course r h o)
    (hjob : Agenda.job? o n.task = some (n.audience, n.body)) (hmanaged : n.body.IsManaged)
    (hcn : n.body.concerns r = false) (ha : Announced r h) :
    ControlRoom.successors r (n.turn ControlRoom.program) = [] := by
  by_contra hne
  obtain ⟨known, hbody⟩ : ∃ known, n.body = .evaluating .caller known := by
    by_contra hno
    exact hne (ControlRoom.successors_program n.now n.state hmanaged hcn
      (fun known he => hno ⟨known, he⟩) n.wake)
  have hturn := ControlRoom.successors_evaluating (r := r) n.now n.state known n.wake
  rw [← hbody] at hturn
  obtain ⟨ys, -, hunknown, -⟩ := hturn.resolve_left hne
  exact (ControlRoom.mem_unknown.mp hunknown).2 (hc.known ha hjob hbody)

/-- **Any stint leaves the alert on its course.** -/
theorem Course.stint (hc : Course r h o) (hr : p.Run (n :: h) o') (hn : Agenda.Numbered o)
    (hs : Agenda.stintAt? o place = some n) (hb : o.stepAt ControlRoom.program place = some o') :
    Course r (n :: h) o' := by
  obtain ⟨-, -, q, hq, hof⟩ := stintAt?_eq_some hs
  have hjob := job?_of_stintAt hs
  have hmanaged : n.body.IsManaged := (hr.mayBeDone n List.mem_cons_self).1
  have hstate : o'.state = (n.turn ControlRoom.program).state := by
    have h := state_of_stepAt hn hb
    rw [hs] at h
    exact h
  have hkeyed : n.state.store.Keyed := (hr.keyed List.mem_cons_self).1
  have hlater : n.state.Later o'.state := hstate ▸ later_turn n
  obtain ⟨hpassOne, hpassNew⟩ :=
    ControlRoom.filter_isOfPass_heirs n.now n.state hmanaged n.wake
  have hpass := hc.pass.stint hn hs hb hpassOne fun hne => .inl (decide_eq_true (hpassNew hne))
  have hthere : Announced r h →
      (o'.state.store.find? r).isSome = true ∧ r.id ∈ o'.state.store.ids := by
    intro ha
    obtain ⟨hfound, hid⟩ := hc.there ha
    rw [← hof.state] at hfound hid
    obtain ⟨a, ha⟩ := Option.isSome_iff_exists.mp hfound
    obtain ⟨b, hb, -⟩ := hlater.grows.kept r a ha
    exact ⟨Option.isSome_iff_exists.mpr ⟨b, hb⟩, hlater.grows.ids hkeyed r.id hid⟩
  have hlevelOf := hof.state ▸ hc.level
  by_cases hcn : n.body.concerns r = true
  · -- the task that goes on with the alert
    have hann := hc.announced hjob hcn
    obtain ⟨a, ha⟩ := Option.isSome_iff_exists.mp (hc.there hann).1
    rw [← hof.state] at ha
    have hon := Fired.handsOn_turn hmanaged hcn hc.fair (hof.state ▸ hc.suits hjob hcn) hlevelOf ha
    refine ⟨?_, hpass, fun _ _ => hann.cons n, fun _ => hthere hann, fun _ {t j known} hj hk => ?_,
      ?_, fun hne => absurd (hann.cons n) hne, hon.fair, fun {t j} hj hcj => ?_⟩
    · exact hc.sole.stint hn hs hb hon.one fun _ => .inl hcn
    · rcases evaluating_of_stint (r := r) hr hn hs hb hj hk with ⟨-, hj⟩ | ⟨hne, -, -⟩
      · exact hc.known hann hj hk
      · exact nomatch hcn.symm.trans hne
    · rw [hstate]
      exact hon.level
    · rw [hstate]
      rcases concerns_of_stint hn hs hb hj hcj with ⟨hne, hj⟩ | hmem
      · exact absurd (hc.sole.eq hj hjob hcj hcn) hne
      · exact hon.suits j.2 hmem
  · have hcn : n.body.concerns r = false := Bool.not_eq_true _ ▸ hcn
    have hfired : fired r (n :: h) = fired r h := by
      rw [fired_cons, fired?_of_ne fun p he => ?_]
      · rfl
      · rw [he] at hcn
        exact absurd rfl (of_decide_eq_false hcn)
    have hlevel : o'.state.levelOf r = o.state.levelOf r := by
      rw [hstate, ← hof.state]
      exact ControlRoom.levelOf_program n.now n.state hmanaged hcn n.wake
    have hfair : (fired r (n :: h)).Fair := hfired ▸ hc.fair
    by_cases hnil : ControlRoom.successors r (n.turn ControlRoom.program) = []
    · -- nothing goes on with the alert that did not before
      have hold : ∀ {t j}, Agenda.job? o' t = some j → j.2.concerns r = true →
          Agenda.job? o t = some j := by
        intro t j hj hcj
        rcases concerns_of_stint hn hs hb hj hcj with ⟨-, hj⟩ | hmem
        · exact hj
        · exact absurd (hnil ▸ hmem) List.not_mem_nil
      refine ⟨?_, hpass, fun hj hcj => (hc.announced (hold hj hcj) hcj).cons n,
        fun ha => hthere (ha.of_cons hnil), fun ha {t j known} hj hk => ?_, hlevel ▸ hc.level,
        fun hne => ?_, hfair, fun hj hcj => ?_⟩
      · exact hc.sole.stint hn hs hb (Nat.le_trans (Nat.le_of_eq (congrArg List.length hnil))
          (Nat.zero_le 1)) fun hne => absurd hnil hne
      · rcases evaluating_of_stint (r := r) hr hn hs hb hj hk with ⟨-, hj⟩ | ⟨-, -, hknown⟩
        · exact hc.known (ha.of_cons hnil) hj hk
        · rw [hknown, hof.state]
          exact (hc.there (ha.of_cons hnil)).2
      · rw [hfired]
        exact hc.quiet fun ha => hne (ha.cons n)
      · rw [hfired, hlevel]
        exact hc.suits (hold hj hcj) hcj
    · -- a pass announces the alert, which nobody has gone on with before
      have hann : Announced r (n :: h) := ⟨n, List.mem_cons_self, hnil⟩
      obtain ⟨known, hbody⟩ : ∃ known, n.body = .evaluating .caller known := by
        by_contra hne
        exact hnil (ControlRoom.successors_program n.now n.state hmanaged hcn
          (fun known he => hne ⟨known, he⟩) n.wake)
      have hturn := ControlRoom.successors_evaluating (r := r) n.now n.state known n.wake
      rw [← hbody] at hturn
      obtain ⟨ys, hwake, hunknown, href, hone⟩ := hturn.resolve_left hnil
      obtain ⟨hfound, -⟩ := ControlRoom.mem_unknown.mp hunknown
      have hnot : ¬ Announced r h := fun ha => hnil (hc.successors_nil hjob hmanaged hcn ha)
      have hid := hr.found_is_there (List.suffix_refl _) hbody hwake hfound
      have hnothing : ∀ u j, Agenda.job? o u = some j → j.2.concerns r = false := by
        intro u j hj
        cases hcj : j.2.concerns r with
        | false => rfl
        | true => exact absurd (hc.announced hj hcj) hnot
      refine ⟨?_, hpass, fun _ _ => hann, fun _ => ⟨?_, hlater.grows.ids hkeyed r.id hid⟩,
        fun _ {t j known'} hj hk => ?_, hlevel ▸ hc.level, fun hne => absurd hann hne, hfair,
        fun {t j} hj hcj => ?_⟩
      · exact hc.sole.stint hn hs hb (Nat.le_of_eq (congrArg List.length hone))
          fun _ => .inr hnothing
      · obtain ⟨a, ha⟩ := Option.isSome_iff_exists.mp (hkeyed.mem_ids_iff.mp hid)
        rw [← Store.find?_ref, href] at ha
        obtain ⟨b, hb, -⟩ := hlater.grows.kept r a ha
        exact Option.isSome_iff_exists.mpr ⟨b, hb⟩
      · rcases evaluating_of_stint (r := r) hr hn hs hb hj hk with ⟨hne, hj⟩ | ⟨-, hne, -⟩
        · refine absurd (hc.pass.eq hj hjob (decide_eq_true ?_) (decide_eq_true ?_)) hne
          · rw [hk]
            trivial
          · rw [hbody]
            trivial
        · exact absurd hbody (hne known)
      · rcases concerns_of_stint hn hs hb hj hcj with ⟨-, hj⟩ | hmem
        · exact nomatch hcj.symm.trans (hnothing t j hj)
        · rw [show ControlRoom.successors r (n.turn ControlRoom.program) = [.notify r] from hone]
            at hmem
          rw [List.mem_singleton.mp hmem, hfired, hc.quiet hnot]
          rfl

/-! ## Runs -/

/-- An alert stays on its course for as long as all requests are orderly. -/
theorem Premises.OrderlyRun.course (hr : p.OrderlyRun r h o) : Course r h o := by
  induction hr with
  | idle => exact course_idle r p
  | step hr hb ih =>
      rename_i h a b place
      have hn : Agenda.Numbered a := (Premises.OrderlyRun.run hr).keeps.numbered
      cases hs : Agenda.stintAt? a place with
      | none =>
          have hstate : b.state = a.state := by
            have h := state_of_stepAt hn hb
            rw [hs] at h
            exact h
          exact ih.lose hstate fun u => (job?_of_no_stint hs hb u).imp_right And.left
      | some n =>
          have hrun : p.Run (n :: h) b := by
            have hstep := (Premises.OrderlyRun.run hr).step hb
            rw [hs] at hstep
            exact hstep
          exact ih.stint hrun hn hs hb
  | pass hr hready htime ih => exact ih.lose (state_passTo ..) fun u => .inl (job?_passTo ..)
  | serve hr hb ih =>
      obtain ⟨q, hq, rfl⟩ := hb
      exact ih.serve (Premises.OrderlyRun.run hr) hq

/-- **Escalations of an alert rise.** While passes do not overlap, the stages fired for an alert are
stages of one policy on ever higher levels, no more of them than the policy allows, and each was
fired on an open alert that had not been acknowledged when that stage asks for it. -/
theorem Premises.OrderlyRun.escalations_rise (hr : p.OrderlyRun r h o) :
    ((fired r h).reverse.Pairwise fun x y => x.2.level < y.2.level) ∧
      (∀ x ∈ fired r h, x.2 ∈ x.1.stages ∧ ((fired r h).length : Int) ≤ max 0 x.1.most) ∧
      (∀ x ∈ fired r h, ∀ y ∈ fired r h, x.1 = y.1) ∧
      ∀ n ∈ h, ∀ x, fired? r n = some x → ∃ a, n.state.store.find? r = some a ∧
        a.isOpen = true ∧ ¬ (x.2.skipIfAcknowledged = true ∧ a.isAcknowledged = true) := by
  have hfair := hr.course.fair
  refine ⟨List.pairwise_reverse.mpr hfair.rising, fun x hx => ⟨hfair.stage x hx, ?_⟩, hfair.one,
    fun n _ x hx => ?_⟩
  · exact Int.le_trans (hfair.most x hx) (Int.le_max_right ..)
  · obtain ⟨a, ha, hallows⟩ := allows_of_fired? hx
    exact ⟨a, ha, hallows.isOpen, hallows.acknowledged⟩

/-! ## Two stages -/

namespace Sample

/-- The keeper is told again after a minute, and once more right after that. -/
def ladder : Policy :=
  ⟨"keeper", "Keeper", [⟨1, 1, ["keeper"], [.email], true, 15, true, ""⟩,
    ⟨3, 0, ["keeper"], [.email], true, 15, false, ""⟩], 3, rfl⟩

/-- The alert that the ward is too warm. -/
def warm : AlertRef :=
  ⟨"alert_0000000000000001", 0⟩

/-- An office where all mail arrives, and that is asked for a pass. -/
def asked : Office :=
  serve (serve (.idle (premises fun _ => .ok ⟨true, .null, none, none⟩).room)
    (.addConfiguration (configuration "ward" .standard (some ladder)))) (.pass snapshot)

/-- The pass and the minute after it. -/
def watch : Past × Office :=
  (List.replicate 22 (Move.turn 0) ++ [Move.wait (60 * Instant.perSecond)] ++
    List.replicate 12 (Move.turn 0)).foldl Move.after ([], asked)

/-- Nothing is out of order when an office is asked for a pass and for nothing after it. -/
theorem orderlyRun_after_pass (p : Premises) (k : Configuration) (r : AlertRef) {ms : List Move}
    (hms : ∀ q, .ask q ∉ ms) :
    let start := serve (serve (.idle p.room) (.addConfiguration k)) (.pass snapshot)
    p.OrderlyRun r (ms.foldl Move.after ([], start)).1 (ms.foldl Move.after ([], start)).2 := by
  intro start
  have hstart : p.OrderlyRun r [] start := by
    refine .serve (.serve .idle ⟨.addConfiguration _, trivial, rfl⟩) ⟨.pass snapshot, ?_, rfl⟩
    exact fun _ _ hj => nomatch hj
  exact run_after (x := ([], start)) (fun q hq => absurd hq (hms q)) hstart

/-- Turns and the time between them ask for nothing. -/
theorem ask_not_mem_turns (time : Instant) (k l : Nat) (q : Request) :
    .ask q ∉ List.replicate k (Move.turn 0) ++ [Move.wait time] ++ List.replicate l (Move.turn 0) := by
  intro hq
  rcases List.mem_append.mp hq with hq | hq
  · rcases List.mem_append.mp hq with hq | hq
    · exact nomatch List.eq_of_mem_replicate hq
    · exact nomatch List.mem_singleton.mp hq
  · exact nomatch List.eq_of_mem_replicate hq

theorem orderlyRun_watch : (premises fun _ => .ok ⟨true, .null, none, none⟩).OrderlyRun warm
    watch.1 watch.2 :=
  orderlyRun_after_pass _ _ warm (ask_not_mem_turns _ 22 12)

end Sample

set_option maxRecDepth 100000 in
/-- Both stages of the ladder are fired, the one of the third level right after the first. -/
theorem escalations_rise_watch :
    (fired Sample.warm Sample.watch.1).map (·.2.level) = [3, 1] ∧
      ((fired Sample.warm Sample.watch.1).reverse.Pairwise fun x y => x.2.level < y.2.level) ∧
      (∀ x ∈ fired Sample.warm Sample.watch.1, x.2 ∈ x.1.stages ∧
        ((fired Sample.warm Sample.watch.1).length : Int) ≤ max 0 x.1.most) ∧
      (∀ x ∈ fired Sample.warm Sample.watch.1, ∀ y ∈ fired Sample.warm Sample.watch.1,
        x.1 = y.1) ∧
      ∀ n ∈ Sample.watch.1, ∀ x, fired? Sample.warm n = some x →
        ∃ a, n.state.store.find? Sample.warm = some a ∧ a.isOpen = true ∧
          ¬ (x.2.skipIfAcknowledged = true ∧ a.isAcknowledged = true) :=
  ⟨by decide +kernel, Sample.orderlyRun_watch.escalations_rise⟩

end Office

end BuildingAlerts
