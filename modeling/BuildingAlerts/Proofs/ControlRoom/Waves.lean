/-
What waves carry.

A notification takes in the identifiers of its deliveries as they end, an escalation takes in all of
them at once. A delivery ends once and its end is told once, so no wave carries a delivery twice,
and what a wave carries has been tried. What it has taken in is counted together with what is still
on its way to it: that sum does not grow but by the end of a delivery.
-/
import BuildingAlerts.Proofs.ControlRoom.Deliveries

set_option autoImplicit false

namespace BuildingAlerts

open Agenda

/-! ## Work with which tasks begin -/

namespace Work

variable {w b : Work} {n : Next Work Yield}

theorem Leads.isFirst_child (hn : w.Leads n) (hb : b ∈ n.children) : b.IsFirst := by
  have hmap : ∀ {α : Type} {f : α → Work} {xs : List α}, b ∈ xs.map f →
      (∀ x, (f x).IsFirst) → b.IsFirst := by
    intro α f xs hb hf
    obtain ⟨x, -, rfl⟩ := List.mem_map.mp hb
    exact hf x
  cases hn with
  | evaluating s bs known => exact hmap hb fun _ => trivial
  | notifying known refs found => exact hmap hb fun _ => trivial
  | collecting r rs sequel => exact hmap hb fun _ => trivial
  | retrying es tried most again => exact hmap hb fun _ => trivial
  | escalating r p level rs s since booked => exact hmap hb fun _ => trivial
  | _ => exact absurd hb List.not_mem_nil

/-- A notification is what goes on as the gathering of its deliveries. -/
theorem Leads.of_collecting {r : AlertRef} {left : Nat} {es : List String} {sequel : Sequel}
    (hn : w.Leads n) (hb : n.body? = some (.collecting r left es sequel)) :
    w = .notify r ∧ es = [] ∨ ∃ left' es', w = .collecting r left' es' sequel := by
  cases hn with
  | finish _ o => exact nomatch hb
  | collecting r' rs sequel' =>
      obtain ⟨rfl, -, rfl, -⟩ := Work.collecting.inj (Option.some.inj hb)
      exact .inl ⟨rfl, rfl⟩
  | awaiting r' left' left'' es' es'' sequel' =>
      obtain ⟨rfl, -, -, rfl⟩ := Work.collecting.inj (Option.some.inj hb)
      exact .inr ⟨left', es', rfl⟩
  | _ => exact nomatch Option.some.inj hb

/-- An escalation is what goes on as the gathering of its deliveries. -/
theorem Leads.of_escalating {r : AlertRef} {p : Policy} {s : Stage} {since : Moment} {booked : Bool}
    (hn : w.Leads n) (hb : n.body? = some (.escalating r p s since booked)) :
    ∃ level, w = .escalate r p level := by
  cases hn with
  | finish _ o => exact nomatch hb
  | escalating r' p' level rs s' since' booked' =>
      obtain ⟨rfl, rfl, -⟩ := Work.escalating.inj (Option.some.inj hb)
      exact ⟨level, rfl⟩
  | _ => exact nomatch Option.some.inj hb

/-- Who carries something: a notification that is told of deliveries, and an escalation that goes
on with all of them. -/
theorem carried_cases (w : Work) (wake : Wake Yield) :
    (∃ r left es sequel os, w = .collecting r left es sequel ∧ wake = .arrived os ∧
        w.carried wake = es ++ (ControlRoom.arrivals os).1) ∨
      (∃ r p s since booked ys, w = .escalating r p s since booked ∧ wake = .gathered ys ∧
        w.carried wake = ys.flatMap (·.ids)) ∨
      w.carried wake = [] := by
  unfold carried
  split
  · exact .inl ⟨_, _, _, _, _, rfl, rfl, rfl⟩
  · exact .inr (.inl ⟨_, _, _, _, _, _, rfl, rfl, rfl⟩)
  · exact .inr (.inr rfl)

end Work

/-- How often a result names a delivery. -/
def Yield.mentions (id : String) (y : Yield) : Nat :=
  y.ids.count id

theorem Yield.mentions_ne_zero {id : String} {y : Yield} : y.mentions id ≠ 0 ↔ id ∈ y.ids :=
  Nat.pos_iff_ne_zero.symm.trans List.count_pos_iff

namespace ControlRoom

theorem IsBooked.isFirst {w : Work} (hw : IsBooked w) : w.IsFirst := by
  rcases hw with ⟨es, most, again, rfl⟩ | ⟨r, p, level, rfl⟩
  · trivial
  · trivial

/-- Nothing arrives that was not told. -/
theorem count_arrivals (id : String) (os : List (Outcome Yield)) :
    (arrivals os).1.count id ≤ (os.map (weigh (·.mentions id))).sum := by
  induction os with
  | nil => exact Nat.le_refl 0
  | cons o os ih =>
      cases o with
      | error st => exact Nat.zero_le _
      | ok y =>
          show (y.ids ++ (arrivals os).1).count id ≤ y.mentions id + _
          rw [List.count_append]
          exact Nat.add_le_add_left ih _

/-- A notification that is stopped ends. -/
theorem body?_stopNotification (c : ControlRoom) (st : Stop) (sequel : Sequel) :
    (c.stopNotification st sequel).next.body? = none := by
  have hheirs := heirs_stopNotification c st sequel
  exact Option.toList_eq_nil_iff.mp (List.append_eq_nil_iff.mp hheirs).1

/-- A notification that goes on has taken in what has arrived, and waits for the rest. -/
theorem of_body?_takeIn {c : ControlRoom} {now : Moment} {r : AlertRef} {left : Nat}
    {es : List String} {sequel : Sequel} {os : List (Outcome Yield)} {w : Work}
    (hw : (c.takeIn now r left es sequel os).next.body? = some w) :
    (arrivals os).2 = none ∧ left - os.length ≠ 0 ∧
      w = .collecting r (left - os.length) (es ++ (arrivals os).1) sequel ∧
      (c.takeIn now r left es sequel os).next = .await w := by
  unfold takeIn at hw ⊢
  split at hw
  · exact nomatch (body?_stopNotification c _ sequel).symm.trans hw
  · rename_i ids hids
    dsimp only at hw ⊢
    split at hw
    · obtain ⟨o, ho⟩ := next_endNotification (c.adjustAlert r fun a =>
        { a with notifications := a.notifications ++ (es ++ ids) }) now r (es ++ ids) sequel
      rw [ho] at hw
      exact nomatch hw
    · rename_i hleft
      obtain rfl := Option.some.inj hw
      rw [hids, if_neg hleft]
      exact ⟨rfl, hleft, rfl, rfl⟩

theorem taken_in (now : Instant) (c : ControlRoom) {r : AlertRef} {left : Nat} {es : List String}
    {sequel : Sequel} {wake : Wake Yield} {w : Work}
    (hw : (program now c (.collecting r left es sequel) wake).next.body? = some w) :
    ∃ os, wake = .arrived os ∧ (arrivals os).2 = none ∧ left - os.length ≠ 0 ∧
      w = .collecting r (left - os.length) (es ++ (arrivals os).1) sequel ∧
      (program now c (.collecting r left es sequel) wake).next = .await w := by
  unfold program at hw ⊢
  split at hw
  · cases wake with
    | stopped st => exact nomatch (body?_stopNotification c st sequel).symm.trans hw
    | arrived os => exact ⟨os, rfl, of_body?_takeIn hw⟩
    | _ => exact nomatch hw
  · exact nomatch (body?_stopNotification c _ sequel).symm.trans hw

end ControlRoom

namespace Office

variable {p : Premises} {h : Past} {o o' : Office} {id : String} {n : Doing} {place : Nat}
  {t : TaskId}

/-- What is begun from outside begins there. -/
theorem isFirst_of_mem_begun {q : Request} {j : Audience × Work} (hj : j ∈ o.begun q) :
    j.2.IsFirst := by
  have hcalls := callsFor_of_mem_begun hj
  generalize j.2 = w at hcalls
  cases hcalls <;> trivial

/-- What a stint adds begins there. -/
theorem Premises.Run.isFirst_of_mem_jobs (hr : p.Run h o) (hn : n ∈ h) {j : Audience × Work}
    (hj : j ∈ n.jobs ControlRoom.program) : j.2.IsFirst := by
  have hmem := List.mem_map_of_mem (f := (·.2)) hj
  rw [n.map_jobs] at hmem
  rcases List.mem_append.mp hmem with hm | hm
  · obtain ⟨m, hm, hbody⟩ := List.mem_map.mp hm
    rw [← hbody]
    exact ((hr.shaped hn).booked m hm).isFirst
  · exact (hr.shaped hn).next.isFirst_child hm

/-! ## What a notification is told -/

/-- A task that another one has started for a delivery is over. -/
def Over (id : String) (t : TaskId) (h : Past) : Prop :=
  ∃ f ∈ h, f.audience = .task t ∧ ∃ y, f.Ends ControlRoom.program (.ok y) ∧ id ∈ y.ids

theorem Over.cons (ho : Over id t h) (n : Doing) : Over id t (n :: h) := by
  obtain ⟨f, hf, hrest⟩ := ho
  exact ⟨f, List.mem_cons_of_mem n hf, hrest⟩

/-- Whoever is still to be told of a delivery has started a task that is over. -/
theorem Premises.Run.over_of_news (hr : p.Run h o)
    (hnews : Agenda.news (·.mentions id) o t ≠ 0) : Over id t h := by
  obtain ⟨f, hf, haudience, y, hends, hy⟩ := hr.keeps.of_news hnews
  exact ⟨f, hf, haudience, y, hends, Yield.mentions_ne_zero.mp hy⟩

/-- Notifications take in each of their deliveries once at most. -/
structure Gathers (id : String) (h : Past) (o : Office) : Prop where
  wave : ∀ {t v r left es sequel}, Agenda.job? o t = some (v, .collecting r left es sequel) →
    ∃ s ∈ h, s.task = t ∧ s.body.IsWave
  once : ∀ {t v r left es sequel}, Agenda.job? o t = some (v, .collecting r left es sequel) →
    es.count id + Agenda.news (·.mentions id) o t ≤ 1
  ended : ∀ {t v r left es sequel}, Agenda.job? o t = some (v, .collecting r left es sequel) →
    id ∈ es → Over id t h

/-- Nothing becomes of notifications while there is no news. -/
theorem Gathers.lose (hg : Gathers id h o)
    (hjobs : ∀ {t v r left es sequel},
      Agenda.job? o' t = some (v, .collecting r left es sequel) →
        Agenda.job? o t = some (v, .collecting r left es sequel))
    (hnews : ∀ t, Agenda.news (·.mentions id) o' t ≤ Agenda.news (·.mentions id) o t) :
    Gathers id h o' :=
  ⟨fun hj => hg.wave (hjobs hj),
    fun hj => Nat.le_trans (Nat.add_le_add_left (hnews _) _) (hg.once (hjobs hj)),
    fun hj => hg.ended (hjobs hj)⟩

/-- A notification is told of the end of a delivery once. -/
theorem Premises.Run.told_once (hr : p.Run (n :: h) o') (hone : GivenOnce id (n :: h)) {s : Doing}
    (hs : s ∈ h) (hwave : s.body.IsWave) (hover : Over id s.task h) :
    n.tells (·.mentions id) ControlRoom.program s.task = 0 := by
  by_contra hne
  obtain ⟨haudience, y, hends, -, hy⟩ := Stint.of_tells hne
  obtain ⟨f, hf, hfa, y', hfends, hid⟩ := hover
  have hs' := List.mem_cons_of_mem n hs
  obtain ⟨-, d, hd, hdraws, hdtask, -⟩ := hr.drawn_of_ends hs' hwave List.mem_cons_self haudience
    hends (Yield.mentions_ne_zero.mp hy)
  obtain ⟨-, e, he, hedraws, hetask, -⟩ := hr.drawn_of_ends hs' hwave
    (List.mem_cons_of_mem n hf) hfa hfends hid
  refine hr.keeps.coherent.ne_of_ends (List.suffix_refl _) hf hfends ?_
  rw [← hetask, ← hdtask]
  exact hone e he d hd hedraws hdraws

/-- A delivery that ends is told as one. -/
theorem Premises.Run.tells_le_one (hr : p.Run (n :: h) o') {s : Doing} (hs : s ∈ n :: h)
    (hwave : s.body.IsWave) : n.tells (·.mentions id) ControlRoom.program s.task ≤ 1 := by
  by_cases hne : n.tells (·.mentions id) ControlRoom.program s.task = 0
  · omega
  · obtain ⟨haudience, y, hends, htells, hy⟩ := Stint.of_tells hne
    obtain ⟨hids, -⟩ := hr.drawn_of_ends hs hwave List.mem_cons_self haudience hends
      (Yield.mentions_ne_zero.mp hy)
    rw [htells]
    unfold Yield.mentions
    rw [hids]
    exact List.count_le_length

/-- **Any stint leaves notifications with each delivery once.** -/
theorem Gathers.stint (hg : Gathers id h o) (hr : p.Run h o) (hr' : p.Run (n :: h) o')
    (hone : GivenOnce id (n :: h)) (hs : Agenda.stintAt? o place = some n)
    (hb : o.stepAt ControlRoom.program place = some o') : Gathers id (n :: h) o' := by
  have hn : Agenda.Numbered o := hr.keeps.numbered
  have hmem : n ∈ n :: h := List.mem_cons_self
  have hall : ∀ {t v r left es sequel},
      Agenda.job? o' t = some (v, .collecting r left es sequel) →
        (∃ s ∈ n :: h, s.task = t ∧ s.body.IsWave) ∧
          es.count id + Agenda.news (·.mentions id) o' t ≤ 1 ∧ (id ∈ es → Over id t (n :: h)) := by
    intro t v r left es sequel hj
    have hnews := news_of_stint (ω := (·.mentions id)) (u := t) hn hs hb
    cases comes_of_stint hn hs hb hj with
    | stays hu hold =>
        -- it may be told of a delivery that ends with the stint, if it was not told before
        obtain ⟨s, hsm, rfl, hwave⟩ := hg.wave hold
        have honce := hg.once hold
        rw [if_neg hu] at hnews
        refine ⟨⟨s, List.mem_cons_of_mem n hsm, rfl, hwave⟩, ?_, fun hid => (hg.ended hold hid).cons n⟩
        by_cases htold : es.count id + Agenda.news (·.mentions id) o s.task = 0
        · have htells : n.tells (·.mentions id) ControlRoom.program s.task ≤ 1 :=
            hr'.tells_le_one (List.mem_cons_of_mem n hsm) hwave
          omega
        · have hover : Over id s.task h := by
            by_cases hid : id ∈ es
            · exact hg.ended hold hid
            · rw [List.count_eq_zero.mpr hid, Nat.zero_add] at htold
              exact hr.over_of_news htold
          have htells := hr'.told_once hone hsm hwave hover
          omega
    | goesOn hu _ hbody =>
        subst hu
        have hwave : n.body.IsWave := ((hr'.shaped hmem).next.isWave_iff hbody).mp trivial
        rw [if_pos rfl, Stint.tells_of_body? hbody, Nat.add_zero] at hnews
        refine ⟨⟨n, hmem, rfl, hwave⟩, ?_⟩
        rcases (hr'.shaped hmem).next.of_collecting hbody with ⟨hnotify, rfl⟩ | ⟨left', es', hold⟩
        · -- it has just begun, so nobody had news for it
          have hnone : Agenda.news (·.mentions id) o n.task = 0 := by
            by_contra hne
            obtain ⟨f, hf, haudience, -⟩ := hr.over_of_news hne
            obtain ⟨q, hq, hqt⟩ := hr.keeps.coherent.exists_parent hf haudience
            have hfirst := (hr'.first hmem (by rw [hnotify]; trivial)).1
            exact hr'.keeps.coherent.ne_of_first (List.suffix_refl _) hfirst q hq hqt
          refine ⟨?_, fun hid => absurd hid List.not_mem_nil⟩
          rw [List.count_nil]
          omega
        · -- it has taken in what it was told of
          have hjob := job?_of_stintAt hs
          rw [hold] at hjob
          unfold Stint.turn at hbody
          rw [hold] at hbody
          obtain ⟨os, hwake, -, -, hw, -⟩ := ControlRoom.taken_in n.now n.state hbody
          obtain ⟨-, -, rfl, -⟩ := Work.collecting.inj hw
          have honce := hg.once hjob
          have hcount : (ControlRoom.arrivals os).1.count id ≤ n.wake.tells (·.mentions id) := by
            rw [hwake]
            exact ControlRoom.count_arrivals id os
          refine ⟨?_, fun hid => ?_⟩
          · rw [List.count_append]
            omega
          · rcases List.mem_append.mp hid with hid | hid
            · exact (hg.ended hjob hid).cons n
            · have hpos := List.count_pos_iff.mpr hid
              have hle := tells_le_news (ω := (·.mentions id)) (stintAt?_eq_some hs).2.1
              exact (hr.over_of_news (by omega)).cons n
    | added _ hj => exact (hr'.isFirst_of_mem_jobs hmem (List.mem_of_getElem? hj)).elim
  exact ⟨fun hj => (hall hj).1, fun hj => (hall hj).2.1, fun hj => (hall hj).2.2⟩

/-- Notifications take in each of their deliveries once, in every run. -/
theorem Premises.Run.gathers (hr : p.Run h o) (hone : GivenOnce id h) : Gathers id h o := by
  induction hr with
  | idle => exact ⟨(fun hj => nomatch hj), (fun hj => nomatch hj), fun hj => nomatch hj⟩
  | @step h a b place hr hb ih =>
      have hrun : p.Run h a := hr
      have hn : Agenda.Numbered a := hrun.keeps.numbered
      have hstep := hrun.step hb
      cases hs : Agenda.stintAt? a place with
      | none =>
          rw [hs] at hone
          refine (ih hone).lose (fun {t v r left es sequel} hj => ?_) fun t => news_of_no_stint hs hb
          rcases job?_of_no_stint hs hb t with h | ⟨h, -⟩
          · rw [← h]
            exact hj
          · exact nomatch h.symm.trans hj
      | some n =>
          rw [hs] at hone hstep
          have hold : GivenOnce id h := hone.of_subset fun d hd => List.mem_cons_of_mem n hd
          exact (ih hold).stint hrun hstep hone hs hb
  | @pass h a time hr hready htime ih =>
      have hrun : p.Run h a := hr
      refine (ih hone).lose (fun {t v r left es sequel} hj => ?_) fun t => news_passTo hrun.keeps time
      rw [job?_passTo] at hj
      exact hj
  | @serve h a b hr hb ih =>
      have hrun : p.Run h a := hr
      have hn : Agenda.Numbered a := hrun.keeps.numbered
      obtain ⟨s, hrebooked⟩ := outside_of_serve hn hb
      obtain ⟨q, rfl⟩ := hb
      refine (ih hone).lose (fun {t v r left es sequel} hj => ?_) fun t => ?_
      · rcases (adding_serve hn q).cases hj with hj | hj
        · exact hj
        · exact (isFirst_of_mem_begun hj).elim
      · exact hrebooked.news_le (a := { a with state := s })

/-! ## What a wave carries -/

/-- Of different tasks of a wave one at most ends with a delivery. -/
theorem Premises.Run.gathered_once (hr : p.Run h o) (hone : GivenOnce id h) {s : Doing} (hs : s ∈ h)
    (hwave : s.body.IsWave) {cs : List TaskId} {ys : List Yield} (hcs : cs.Nodup)
    (hys : List.Forall₂ (fun c y => History.Ended ControlRoom.program h s.task c (.ok y)) cs ys) :
    (ys.flatMap (·.ids)).count id ≤ 1 ∧ (id ∈ ys.flatMap (·.ids) → Over id s.task h) := by
  induction hys with
  | nil => exact ⟨Nat.zero_le 1, fun hid => absurd hid List.not_mem_nil⟩
  | @cons c y cs ys hended hrest ih =>
      obtain ⟨hc, hcs⟩ := List.nodup_cons.mp hcs
      obtain ⟨ihcount, ihover⟩ := ih hcs
      obtain ⟨f, hf, rfl, haudience, hends⟩ := hended.of_ok
      rw [List.flatMap_cons, List.count_append]
      by_cases hid : id ∈ y.ids
      · obtain ⟨hids, d, hd, hdraws, hdtask, -⟩ :=
          hr.drawn_of_ends hs hwave hf haudience hends hid
        have hnone : id ∉ ys.flatMap (·.ids) := by
          intro hmem
          obtain ⟨y', hy', hid'⟩ := List.mem_flatMap.mp hmem
          obtain ⟨c', hc', hended'⟩ := History.exists_child_of_result hrest hy'
          obtain ⟨f', hf', rfl, haudience', hends'⟩ := hended'.of_ok
          obtain ⟨-, d', hd', hdraws', hdtask', -⟩ :=
            hr.drawn_of_ends hs hwave hf' haudience' hends' hid'
          refine hc ?_
          rw [← hdtask, hone d hd d' hd' hdraws hdraws', hdtask']
          exact hc'
        refine ⟨?_, fun _ => ⟨f, hf, haudience, y, hends, hid⟩⟩
        rw [List.count_eq_zero.mpr hnone, hids]
        exact List.count_le_length
      · refine ⟨?_, fun hmem => ihover ((List.mem_append.mp hmem).resolve_left hid)⟩
        rw [List.count_eq_zero.mpr hid, Nat.zero_add]
        exact ihcount

/-- **A wave carries a delivery once**, and only when its first attempt is over. -/
theorem Premises.Run.carried_once (hr : p.Run h o) (hr' : p.Run (n :: h) o')
    (hone : GivenOnce id (n :: h)) (hs : Agenda.stintAt? o place = some n) :
    (n.body.carried n.wake).count id ≤ 1 ∧
      (id ∈ n.body.carried n.wake → n.body.IsWave ∧ Over id n.task h) := by
  have hold : GivenOnce id h := hone.of_subset fun d hd => List.mem_cons_of_mem n hd
  rcases Work.carried_cases n.body n.wake with ⟨r, left, es, sequel, os, hbody, hwake, hcarried⟩ |
    ⟨r, p', s, since, booked, ys, hbody, hwake, hcarried⟩ | hcarried
  · -- a notification has taken in some deliveries and is told of others
    have hjob := job?_of_stintAt hs
    rw [hbody] at hjob
    have hg := hr.gathers hold
    have honce := hg.once hjob
    have hle := tells_le_news (ω := (·.mentions id)) (stintAt?_eq_some hs).2.1
    rw [hwake] at hle
    have hcount : (ControlRoom.arrivals os).1.count id
      ≤ (Wake.arrived os).tells (·.mentions id) := ControlRoom.count_arrivals id os
    rw [hcarried, List.count_append]
    refine ⟨by omega, fun hid => ⟨by rw [hbody]; trivial, ?_⟩⟩
    rcases List.mem_append.mp hid with hid | hid
    · exact hg.ended hjob hid
    · have hpos := List.count_pos_iff.mpr hid
      exact hr.over_of_news (by omega)
  · -- an escalation is given the results of all its deliveries
    have hmem : n ∈ n :: h := List.mem_cons_self
    obtain ⟨q, hq, hqt, -, hleads⟩ := hr'.previous (List.suffix_refl _) (by rw [hwake]; exact nofun)
    rw [hwake] at hleads
    have hwave : n.body.IsWave := by
      rw [hbody]
      trivial
    have hqwave : q.body.IsWave := ((hr.shaped hq).next.isWave_iff hleads.body).mp hwave
    obtain ⟨cs, -, hys⟩ := hleads.of_gathered
    obtain ⟨hcount, hover⟩ := hr.gathered_once hold hq hqwave List.nodup_range' hys
    rw [hcarried, ← hqt]
    exact ⟨hcount, fun hid => ⟨hwave, hover hid⟩⟩
  · rw [hcarried]
    exact ⟨Nat.zero_le 1, fun hid => absurd hid List.not_mem_nil⟩

end Office

end BuildingAlerts
