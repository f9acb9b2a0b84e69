/-
The chain of escalations of an alert.

From its notification on an open alert is on one of three stands: its notification waits for
deliveries, or the task of the stage that is next is booked, or no stage is next. Whoever works on
the alert hands over to the next stand, and nobody else moves it, as long as nothing fails, the
office is not shut down and nobody takes notice of the alert while an escalation is pending.
-/
import BuildingAlerts.Proofs.ControlRoom.Aside
import BuildingAlerts.Proofs.ControlRoom.Handover
import BuildingAlerts.Proofs.ControlRoom.Sequels

set_option autoImplicit false

namespace BuildingAlerts

open Agenda

/-- An alert of which somebody takes notice has no stage next if it had none before. -/
theorem Alert.nextStage?_acknowledge {pol : Policy} {a b : Alert} {who : String}
    {now : Moment} (hb : a.acknowledge? who now = some b)
    (hnone : a.nextStage? pol a.escalationLevel = none) :
    b.nextStage? pol b.escalationLevel = none := by
  unfold Alert.acknowledge? at hb
  split at hb
  · rename_i hstatus
    obtain rfl := Option.some.inj hb
    unfold Alert.nextStage? Alert.isOpen at hnone ⊢
    rw [hstatus] at hnone
    dsimp only at hnone ⊢
    split
    · rfl
    · rename_i hcan
      rw [if_neg (show ¬(!AlertStatus.triggered.isOpen || decide (pol.most ≤ a.escalationLevel)) = true
        from hcan)] at hnone
      rw [Option.filter_eq_none_iff] at hnone ⊢
      intro s hs hnot
      refine hnone s hs ?_
      cases hskip : s.skipIfAcknowledged with
      | false => rfl
      | true =>
          rw [hskip] at hnot
          exact nomatch hnot
  · exact nomatch hb

namespace Office

variable {p : Premises} {r : AlertRef} {pol : Policy} {h : Past} {o o' : Office} {n : Doing}

/-! ## Where an alert stands -/

/-- Where an alert stands in the chain of its escalations under a policy. -/
inductive Chained (r : AlertRef) (pol : Policy) (o : Office) : Prop where
  /-- The chain is over. -/
  | closed (hclosed : o.state.store.Closed r)
  /-- The notification waits for deliveries. -/
  | notifying {t : TaskId} {x : Process Work Yield} {left : Nat} {es : List String}
      (hx : o.process? t = some x) (hbegun : x.begun = true)
      (hbody : x.body = .collecting r left es (.book (some pol)))
  /-- No stage is next. -/
  | spent (hnone : ∀ a, o.state.store.find? r = some a →
        a.nextStage? pol a.escalationLevel = none)
      (hnobody : ∀ t j, Agenda.job? o t = some j → j.2.concerns r = false)
  /-- The task of the next stage is booked, and waits or has fired it. -/
  | waits {a : Alert} {s : Stage} {b : Booking} {x : Process Work Yield}
      (ha : o.state.store.find? r = some a) (hs : a.nextStage? pol a.escalationLevel = some s)
      (hb : o.timetable.bookings.get? (escalationKey r.id s.level) = some b)
      (hx : o.process? b.task = some x)
      (hbody : x.body = .escalate r pol none ∨
        x.begun = true ∧ ∃ since, x.body = .escalating r pol s since true)

/-- What is left alone stays where it stands. -/
theorem Chained.aside (hc : Chained r pol o) (hr : p.Run h o) (ha : Aside r o o') :
    Chained r pol o' := by
  cases hc with
  | closed hclosed =>
      obtain ⟨a, hfound, hopen⟩ := hclosed
      exact .closed ⟨a, ha.alert.trans hfound, hopen⟩
  | notifying hx hbegun hbody =>
      obtain ⟨y, hy, hybody, hybegun⟩ := ha.tasks hx
        (by rw [hbody]; exact Work.concerns_collecting.mpr rfl)
        fun hno => nomatch hbegun.symm.trans hno
      exact .notifying hy (hybegun hbegun) (hybody.trans hbody)
  | spent hnone hnobody =>
      refine .spent (fun a hfound => hnone a (ha.alert.symm.trans hfound)) fun t j hj => ?_
      cases hcj : j.2.concerns r with
      | false => rfl
      | true => exact nomatch hcj.symm.trans (hnobody t j (ha.nobody hj hcj))
  | waits hfound hs hb hx hbody =>
      obtain ⟨y, hy, hkey⟩ := hr.tidy.booked hb
      obtain rfl := Option.some.inj (hx.symm.trans hy)
      obtain ⟨z, hz, hzbody, hzbegun⟩ := ha.tasks hx (by
          rcases hbody with hbody | ⟨-, since, hbody⟩
          · rw [hbody]
            exact Work.concerns_escalate.mpr rfl
          · rw [hbody]
            exact Work.concerns_escalating.mpr rfl)
        fun hbegun => hr.faithful.spared hx hkey hbegun ⟨_, hb, rfl⟩
      refine .waits (ha.alert.trans hfound) hs (ha.bookings hb ?_) hz ?_
      · rw [hz]
        exact nofun
      · rw [hzbody]
        exact hbody.imp_right fun ⟨hbegun, hbody⟩ => ⟨hzbegun hbegun, hbody⟩

/-! ## Work on the alert -/

/-- A task that goes on after its stint has begun. -/
theorem Premises.Step.goes_on (hs : p.Step h o n o') {w : Work}
    (hw : (n.turn ControlRoom.program).next.body? = some w) :
    ∃ y, o'.process? n.task = some y ∧ y.body = w ∧ y.begun = true := by
  obtain ⟨place, hplace, hb⟩ := hs.taken
  have hjob := job?_of_stint (u := n.task) hs.numbered hplace hb
  rw [if_pos rfl, hw] at hjob
  obtain ⟨y, hy, -, hbody⟩ := job?_eq_some.mp hjob
  have hstands := hs.after.keeps.stands n.task nofun y hy
  unfold Stands at hstands
  rw [History.latest_cons_self rfl] at hstands
  exact ⟨y, hy, hbody, hstands.1⟩

/-- A notification that goes on. -/
theorem Premises.Step.chained_of_collects (hs : p.Step h o n o')
    (hcollects : ControlRoom.Collects r pol (n.turn ControlRoom.program)) : Chained r pol o' := by
  obtain ⟨left, es, hbody⟩ := hcollects
  obtain ⟨y, hy, hybody, hbegun⟩ := hs.goes_on hbody
  exact .notifying hy hbegun hybody

/-- A stage that is fired by the task that is booked for it. -/
theorem Premises.Step.chained_of_fires (hs : p.Step h o n o')
    (hfires : ControlRoom.Fires r pol n.state (n.turn ControlRoom.program)) {a : Alert} {s : Stage}
    (ha : o.state.store.find? r = some a) (hst : a.nextStage? pol a.escalationLevel = some s)
    {b : Booking} (hb : o.timetable.bookings.get? (escalationKey r.id s.level) = some b)
    (htask : b.task = n.task) : Chained r pol o' := by
  obtain ⟨hstate, ⟨a', s', since, ha', hst', hbody⟩, hnone⟩ := hfires
  obtain ⟨place, hplace, hstep⟩ := hs.taken
  rw [hs.state] at ha'
  obtain rfl := Option.some.inj (ha.symm.trans ha')
  obtain rfl := Option.some.inj (hst.symm.trans hst')
  obtain ⟨y, hy, hybody, hbegun⟩ := hs.goes_on hbody
  rw [← htask] at hy
  refine .waits ?_ hst ?_ hy (.inr ⟨hbegun, since, hybody⟩)
  · rw [hs.leaves, hstate, hs.state]
    exact ha
  · refine hs.before.tidy.kept_stepAt hstep hb (by rw [hy]; exact nofun) fun m hm y hy => ?_
    obtain rfl := Option.some.inj (hplace.symm.trans hm)
    exact absurd (hnone ▸ hy) List.not_mem_nil

/-- Whoever goes on with an alert after work on it is an heir of that work. -/
theorem Premises.Step.succeeds (hs : p.Step h o n o') (hc : Course r h o)
    (hcn : n.body.concerns r = true) {t : TaskId} {j : Audience × Work}
    (hj : Agenda.job? o' t = some j) (hcj : j.2.concerns r = true) :
    j.2 ∈ ControlRoom.successors r (n.turn ControlRoom.program) := by
  obtain ⟨place, hplace, hb⟩ := hs.taken
  rcases concerns_of_stint hs.numbered hplace hb hj hcj with ⟨hne, hold⟩ | hmem
  · exact absurd (hc.sole.eq hold hs.job hcj hcn) hne
  · exact hmem

/-- Work that ends hands over to the next escalation, if there is one. -/
theorem Premises.Step.chained_of_hands (hs : p.Step h o n o') (hc : Course r h o)
    (hcn : n.body.concerns r = true)
    (hands : ControlRoom.Hands r pol (n.turn ControlRoom.program)) : Chained r pol o' := by
  obtain ⟨⟨out, hends⟩, hbooks, hnext⟩ := hands
  rw [← hs.leaves] at hbooks hnext
  by_cases hstage : ∃ a s, o'.state.store.find? r = some a ∧
      a.nextStage? pol a.escalationLevel = some s
  · -- the next escalation is booked, and nothing else under its key
    obtain ⟨a, s, ha, hst⟩ := hstage
    obtain ⟨m, hm, hmnext⟩ := hnext a s ha hst
    obtain ⟨a', s', ha', hst', hkey⟩ := hmnext.stage
    obtain rfl := Option.some.inj (ha.symm.trans ha')
    obtain rfl := Option.some.inj (hst.symm.trans hst')
    obtain ⟨place, hplace, hb⟩ := hs.taken
    obtain ⟨b, x, hbook, hx, -, y, hy, hykey, hbody⟩ := hs.before.tidy.booked_stepAt hb hplace hm
    rw [hkey] at hbook hykey
    refine .waits ha hst hbook hx (.inl ?_)
    rw [hbody]
    rcases hbooks y hy with ⟨e, hretry⟩ | hynext
    · exact absurd (hretry.key.symm.trans hykey) (retryKey_ne_escalationKey _ _ _)
    · exact hynext.body
  · refine .spent (fun a ha => ?_) fun t j hj => ?_
    · cases hst : a.nextStage? pol a.escalationLevel with
      | none => rfl
      | some s => exact absurd ⟨a, s, ha, hst⟩ hstage
    · cases hcj : j.2.concerns r with
      | false => rfl
      | true =>
          have hheir := (List.mem_filter.mp (hs.succeeds hc hcn hj hcj)).1
          unfold Turn.heirs at hheir
          rw [hends] at hheir
          have hnew := (List.mem_append.mp hheir).resolve_left List.not_mem_nil
          obtain ⟨m, hm, hbody⟩ := List.mem_map.mp ((List.mem_append.mp hnew).resolve_right
            List.not_mem_nil)
          rcases hbooks m hm with ⟨e, hretry⟩ | hmnext
          · rw [← hbody, hretry.body] at hcj
            exact nomatch hcj
          · obtain ⟨a, s, ha, hst, -⟩ := hmnext.stage
            exact absurd ⟨a, s, ha, hst⟩ hstage

/-- A closed alert stays closed. -/
theorem Premises.Step.closed (hs : p.Step h o n o') (hclosed : o.state.store.Closed r) :
    o'.state.store.Closed r := by
  obtain ⟨a, ha, hopen⟩ := hclosed
  have hmanaged := (hs.after.mayBeDone n List.mem_cons_self).1
  rw [← hs.state] at ha
  obtain ⟨b, hb, hstatus⟩ :=
    (ControlRoom.writes_program n.now n.state hmanaged n.wake).status ha
  refine ⟨b, hs.leaves ▸ hb, ?_⟩
  unfold Alert.isOpen
  rw [hstatus]
  exact hopen

/-- **Work on the alert moves it on**, unless it fails. -/
theorem Premises.Step.chained (hs : p.Step h o n o') (hc : Course r h o)
    (hcn : n.body.concerns r = true) (hn : ¬ Falters n) (hch : Chained r pol o) :
    Chained r pol o' := by
  -- one task at most goes on with the alert
  have hmine : ∀ {t x}, o.process? t = some x → x.body.concerns r = true →
      t = n.task ∧ n.body = x.body := by
    intro t x hx hcx
    have hjob : Agenda.job? o t = some (x.audience, x.body) :=
      job?_eq_some.mpr ⟨x, hx, rfl, rfl⟩
    obtain rfl := hc.sole.eq hjob hs.job hcx hcn
    exact ⟨rfl, (Prod.mk.inj (Option.some.inj (hs.job.symm.trans hjob))).2⟩
  cases hch with
  | closed hclosed => exact .closed (hs.closed hclosed)
  | notifying hx hbegun hbody =>
      obtain ⟨-, hnbody⟩ := hmine hx (by rw [hbody]; exact Work.concerns_collecting.mpr rfl)
      rcases sequels_collecting (hnbody.trans hbody) hn with h | h
      · exact hs.chained_of_collects h
      · exact hs.chained_of_hands hc hcn h
  | spent hnone hnobody => exact nomatch hcn.symm.trans (hnobody n.task _ hs.job)
  | waits ha hst hb hx hbody =>
      rcases hbody with hbody | ⟨-, since, hbody⟩
      · obtain ⟨htask, hnbody⟩ := hmine hx (by rw [hbody]; exact Work.concerns_escalate.mpr rfl)
        rcases sequels_escalate (hnbody.trans hbody) hn with h | h
        · exact hs.chained_of_fires h ha hst hb htask
        · exact hs.chained_of_hands hc hcn h
      · obtain ⟨-, hnbody⟩ := hmine hx (by rw [hbody]; exact Work.concerns_escalating.mpr rfl)
        exact hs.chained_of_hands hc hcn (hands_escalating (hnbody.trans hbody) hn)

/-! ## From the notification on -/

/-- Whoever has begun a notification was announced. -/
theorem Premises.Run.announced_of_notify (hr : p.Run h o) (hn : n ∈ h) (hbody : n.body = .notify r) :
    Announced r h := by
  obtain ⟨k, hk⟩ := History.exists_suffix_of_mem hn
  obtain ⟨s, hs, -, -, i, hi, -⟩ := hr.origin hk (by rw [hbody]; trivial) (by rw [hbody]; exact id)
  refine ⟨s, hk.subset (List.mem_cons_of_mem n hs), List.ne_nil_of_mem (a := .notify r) ?_⟩
  refine List.mem_filter.mpr ⟨?_, Work.concerns_notify.mpr rfl⟩
  rw [hbody] at hi
  exact List.mem_append_right _ (List.mem_append_right _ (List.mem_of_getElem? hi))

/-- Work on an alert has no notification for an heir. -/
theorem Premises.Run.notify_notMem_successors (hr : p.Run h o) (hn : n ∈ h)
    (hcn : n.body.concerns r = true) :
    .notify r ∉ ControlRoom.successors r (n.turn ControlRoom.program) := by
  intro hmem
  have hshaped := hr.shaped hn
  rcases List.mem_append.mp (List.mem_filter.mp hmem).1 with hm | hm
  · exact hshaped.next.not_isFirst (Option.mem_toList.mp hm) trivial
  · rcases List.mem_append.mp hm with hm | hm
    · obtain ⟨m, hm, hbody⟩ := List.mem_map.mp hm
      rcases hshaped.booked m hm with ⟨es, most, again, h⟩ | ⟨q, pol, level, h⟩
      · exact nomatch h.symm.trans hbody
      · exact nomatch h.symm.trans hbody
    · obtain ⟨known, hbody⟩ := hshaped.next.of_notify hm
      rw [hbody] at hcn
      exact nomatch hcn

/-- From its notification on an alert is in the chain of its escalations, under the policy that its
configuration had then, and it is notified once. -/
structure Linked (r : AlertRef) (h : Past) (o : Office) : Prop where
  once : (∃ n ∈ h, n.body = .notify r) → ∀ t j, Agenda.job? o t = some j → j.2 ≠ .notify r
  chained : ∀ n ∈ h, n.body = .notify r → ∀ a k pol, n.state.store.find? r = some a →
    n.state.configurations.get? a.configurationId = some k → k.policy = some pol →
      Chained r pol o

theorem linked_idle (c : ControlRoom) : Linked r [] (.idle c : Office) where
  once := fun ⟨_, hn, _⟩ => absurd hn List.not_mem_nil
  chained := fun _ hn => absurd hn List.not_mem_nil

theorem Linked.aside (hl : Linked r h o) (hr : p.Run h o) (ha : Aside r o o') :
    Linked r h o' where
  once hn t j hj hbody :=
    hl.once hn t j (ha.nobody hj (by rw [hbody]; exact Work.concerns_notify.mpr rfl)) hbody
  chained n hn hbody a k pol hfound hk hpol :=
    (hl.chained n hn hbody a k pol hfound hk hpol).aside hr ha

/-- Other work does not begin the notification. -/
theorem Linked.cons (hl : Linked r h o) (hbody : n.body ≠ .notify r) : Linked r (n :: h) o where
  once := by
    rintro ⟨m, hm, hmbody⟩
    rcases List.mem_cons.mp hm with rfl | hm
    · exact absurd hmbody hbody
    · exact hl.once ⟨m, hm, hmbody⟩
  chained := by
    intro m hm hmbody
    rcases List.mem_cons.mp hm with rfl | hm
    · exact absurd hmbody hbody
    · exact hl.chained m hm hmbody

/-- **Any stint leaves the alert in its chain**, if it is none on the open alert that fails. -/
theorem Linked.stint (hl : Linked r h o) (hs : p.Step h o n o') (hc : Course r h o)
    (hsole : o'.state.store.Sole r)
    (hn : n.body.concerns r = true → Falters n → n.state.store.Closed r) :
    Linked r (n :: h) o' := by
  cases hcn : n.body.concerns r with
  | false =>
      have hbody : n.body ≠ .notify r := by
        intro hbody
        rw [hbody, Work.concerns_notify.mpr rfl] at hcn
        exact nomatch hcn
      by_cases hnotified : ∃ m ∈ h, m.body = .notify r
      · obtain ⟨m, hm, hmbody⟩ := hnotified
        have ha := hs.before.announced_of_notify hm hmbody
        exact (hl.aside hs.before (hs.aside_of_other hc ha hsole hcn)).cons hbody
      · refine Linked.cons ⟨fun h => absurd h hnotified, fun m hm hmbody => ?_⟩ hbody
        exact absurd ⟨m, hm, hmbody⟩ hnotified
  | true =>
      refine ⟨fun _ t j hj hbody => ?_, fun m hm hmbody a k pol ha hk hpol => ?_⟩
      · have hheir := hs.succeeds hc hcn hj (by rw [hbody]; exact Work.concerns_notify.mpr rfl)
        rw [hbody] at hheir
        exact hs.after.notify_notMem_successors List.mem_cons_self hcn hheir
      · by_cases hfalters : Falters n
        · exact .closed (hs.closed (hs.state ▸ hn hcn hfalters))
        rcases List.mem_cons.mp hm with rfl | hm
        · -- the notification begins
          have hwake := (hs.after.first hm (by rw [hmbody]; trivial)).2
          rcases sequels_notify hmbody hwake hfalters ha hk hpol with h | h
          · exact hs.chained_of_collects h
          · exact hs.chained_of_hands hc hcn h
        · exact hs.chained hc hcn hfalters (hl.chained m hm hmbody a k pol ha hk hpol)

/-! ## Requests about the alert -/

/-- Somebody who deals with the alert closes it, or takes notice of it while no escalation is
pending. -/
theorem Chained.remedy (hch : Chained r pol o) (hr : p.Run h o) (hsole : o.state.store.Sole r)
    {q : Request} (hq : LeavesChain r o q) {f : Alert → Option Alert}
    (hremedy : q.remedy? o = some (r.id, f)) : Chained r pol (serve o q) := by
  have htidy := hr.tidy
  have hserve := serve_of_remedy? hremedy
  have hheeds := heeds_serve htidy q
  have hadding := adding_serve htidy.numbered q
  rcases settleAlert_cases htidy r.id f with hsame | ⟨b, hb, hstate, -⟩
  · rw [hserve, hsame]
    exact hch
  · obtain ⟨a, ha, hfa⟩ := Option.bind_eq_some_iff.mp hb
    have hfound : o.state.store.find? (o.ref r.id) = some a := (Store.find?_ref _ _).trans ha
    have href : o.ref r.id = r := hsole _ a rfl hfound
    rw [href] at hfound hstate
    have hafter : (serve o q).state.store.find? r = some b := by
      rw [hserve, hstate]
      refine (Store.find?_adjustAt _ _ _ _).trans ?_
      rw [if_pos rfl]
      exact congrArg _ hfound
    -- somebody who closes the alert ends the chain
    have hclose : b.isOpen = false → Chained r pol (serve o q) := fun hopen =>
      .closed ⟨b, hafter, hopen⟩
    cases q with
    | resolve id who notes =>
        obtain ⟨-, rfl⟩ := Prod.mk.inj (Option.some.inj hremedy)
        unfold Alert.resolve? at hfa
        dsimp only at hfa
        split at hfa
        · obtain rfl := Option.some.inj hfa
          exact hclose rfl
        · exact nomatch hfa
    | markFalsePositive id who =>
        obtain ⟨-, rfl⟩ := Prod.mk.inj (Option.some.inj hremedy)
        obtain rfl := Option.some.inj hfa
        exact hclose rfl
    | acknowledge id who =>
        obtain ⟨hid, rfl⟩ := Prod.mk.inj (Option.some.inj hremedy)
        have hfa : a.acknowledge? who o.clock = some b := hfa
        cases hch with
        | closed hclosed =>
            obtain ⟨a', ha', hopen⟩ := hclosed
            obtain rfl := Option.some.inj (hfound.symm.trans ha')
            unfold Alert.acknowledge? at hfa
            split at hfa
            · rename_i hstatus
              unfold Alert.isOpen at hopen
              rw [hstatus] at hopen
              exact nomatch hopen
            · exact nomatch hfa
        | notifying hx hbegun hbody =>
            obtain ⟨y, hy, hxy⟩ := hheeds.kept nofun hx
            exact .notifying hy (hxy.begun.trans hbegun) (hxy.body.trans hbody)
        | spent hnone hnobody =>
            refine .spent (fun c hc => ?_) fun t j hj => ?_
            · obtain rfl := Option.some.inj (hafter.symm.trans hc)
              exact Alert.nextStage?_acknowledge hfa (hnone a hfound)
            · rcases hadding.cases hj with hj | hj
              · exact hnobody t j hj
              · exact concerns_begun hq.isOrderly j hj
        | @waits _ s _ _ _ _ hx _ _ =>
            -- none of its escalations was pending
            have hsome : (o.acknowledge id who).1.isSome = true := by
              have hbound : (o.state.store.get? id).bind (·.acknowledge? who o.clock) = some b :=
                hid ▸ hb
              unfold acknowledge settleAlert
              rw [hbound]
              rfl
            refine absurd ?_ (hq hid hsome s.level)
            rcases hr.isFor hx with ⟨e, -, hkey, -⟩ | ⟨id', level, hkey, hfor⟩
            · exact absurd hkey.symm (retryKey_ne_escalationKey _ _ _)
            · rw [← escalationKey_inj hkey] at hfor
              exact (htidy.agrees.listed r.id _).mpr ⟨_, hx, hfor⟩
    | _ => exact nomatch hremedy

/-- **Requests leave the alert in its chain.** -/
theorem Linked.serve (hl : Linked r h o) (hr : p.Run h o) (hsole : o.state.store.Sole r)
    {q : Request} (hq : LeavesChain r o q) : Linked r h (Office.serve o q) := by
  by_cases hmine : ∃ f, q.remedy? o = some (r.id, f)
  · obtain ⟨f, hf⟩ := hmine
    refine ⟨fun hn t j hj => ?_, fun n hn hbody a k pol ha hk hpol => ?_⟩
    · rcases (adding_serve hr.tidy.numbered q).cases hj with hj | hj
      · exact hl.once hn t j hj
      · intro hbody
        have hcj := concerns_begun hq.isOrderly j hj
        rw [hbody, Work.concerns_notify.mpr rfl] at hcj
        exact nomatch hcj
    · exact (hl.chained n hn hbody a k pol ha hk hpol).remedy hr hsole hq hf
  · refine hl.aside hr (hr.aside_serve hsole hq fun id f hremedy => ?_)
    rintro rfl
    exact hmine ⟨f, hremedy⟩

end Office

end BuildingAlerts
