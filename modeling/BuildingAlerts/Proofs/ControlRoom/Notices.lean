/-
The notices of an alert.

Somebody who asks for the notification of an alert gets one log entry for each pair of a channel and a
recipient that the alert reaches and whose recipient the limits admit. The entries come in the order in
which the deliveries have ended, whatever their providers have done, and the log of the alert grows by
just these.
-/
import BuildingAlerts.Proofs.ControlRoom.Completion
import BuildingAlerts.Proofs.ControlRoom.Returning
import BuildingAlerts.Proofs.Lists
import Mathlib.Data.List.Nodup

set_option autoImplicit false

namespace BuildingAlerts

open Agenda

namespace Office

variable {h : Past} {o : Office}

/-- What the log entry of a delivery shows about a pair of a channel and a recipient: it is about the
alert, it carries the address of the recipient's contact for the channel, and it is sent if the
delivery has succeeded and failed if not. -/
structure Notice (h : Past) (o : Office) (alert : AlertRef) (id : String)
    (y : ChannelSetting × Recipient) (e : LogEntry) (k : Contact) : Prop where
  entry : o.state.journal.get? id = some e
  contact : y.2.contactFor y.1.channel = some k
  address : e.address = k.value
  channel : e.channel = y.1.channel
  recipient : e.request.bind (·.recipientId) = some y.2.id
  alertId : e.alertId = alert.id
  shows : e.Shows (∃ n ∈ h, Succeeds id n)

/-- A delivery of a call gives notice to the pair that it was asked for. -/
theorem Delivered.notice {q : DeliveryRequest} {t : TaskId} {id : String}
    (hd : Delivered h o q t id) {alert : AlertRef} {y : ChannelSetting × Recipient} {k : Contact}
    (hk : y.2.contactFor y.1.channel = some k) (hchannel : q.channel = y.1.channel)
    (haddress : q.address = k.value) (halert : q.alert = alert)
    (hrecipient : q.recipientId = some y.2.id) : ∃ e, Notice h o alert id y e k := by
  obtain ⟨e, he, hfor, hshows⟩ := hd.entry
  refine ⟨e, he, hk, hfor.address.trans haddress, hfor.channel.trans hchannel, ?_,
    hfor.alertId.trans (congrArg _ halert), hshows⟩
  rw [hfor.request]
  exact hrecipient

namespace Call

variable {x : Call} {now : Moment} {a : Alert} {rs : List DeliveryRequest}

/-- Different deliveries have different identifiers. -/
theorem Run.nodup_names (hr : x.Run h o) (hsends : x.Sends now a rs)
    (hlines : ∀ q ∈ rs, x.room.supports q.channel = true) (hsmooth : Smooth h) {ids : List String}
    (hids : (h.endings ControlRoom.program 0).map (·.2) = ids.map deliveredAs) : ids.Nodup := by
  have hendings : (h.endings ControlRoom.program 0).Nodup :=
    List.Nodup.of_map (·.1) hr.sound.coherent.nodup_endings
  refine List.Nodup.of_map deliveredAs ?_
  rw [← hids]
  refine List.Nodup.map_on (fun g hg g' hg' hsame => ?_) hendings
  obtain ⟨i, q, id, -, rfl, ⟨d, hd, hdraws, htask⟩, -⟩ := hr.delivered hsends hlines hsmooth hg
  obtain ⟨i', q', id', -, rfl, ⟨d', hd', hdraws', htask'⟩, -⟩ :=
    hr.delivered hsends hlines hsmooth hg'
  obtain rfl : id = id' := (List.cons.inj (Yield.names.inj (Except.ok.inj hsame))).1
  rw [← htask, ← htask', hsmooth.once id d hd d' hd' hdraws hdraws']

/-- The endings of deliveries, each with the pair at its place. -/
theorem forall₂_of_endings {α : Type} {R : String → α → Prop} {ys : List α}
    {gs : List (TaskId × Outcome Yield)} {ids : List String}
    (hids : gs.map (·.2) = ids.map deliveredAs)
    (hall : ∀ g ∈ gs, ∃ i y id, ys[i]? = some y ∧ g = (i + 1, deliveredAs id) ∧ R id y) :
    List.Forall₂ R ids ((gs.map (·.1)).filterMap fun t => ys[t - 1]?) := by
  induction gs generalizing ids with
  | nil =>
      obtain rfl := List.map_eq_nil_iff.mp hids.symm
      exact .nil
  | cons g gs ih =>
      obtain ⟨i, y, id, hy, rfl, hR⟩ := hall g List.mem_cons_self
      cases ids with
      | nil => exact nomatch hids
      | cons id' ids =>
          obtain ⟨hhead, htail⟩ := List.cons.inj hids
          obtain rfl : id = id' := (List.cons.inj (Yield.names.inj (Except.ok.inj hhead))).1
          rw [List.map_cons, List.filterMap_cons_some (f := fun t : TaskId => ys[t - 1]?) hy]
          exact .cons hR (ih htail fun g hg => hall g (List.mem_cons_of_mem _ hg))

/-- **Somebody who asks for a notification gets one entry for each chosen pair.** Quiet hours do not
hold the alert back, the channels that take it have lines, and it is known who is on call and whom the
limits admit. When all is done the call has returned, the entries are those of the chosen pairs, each
once, in the order in which the deliveries have ended, and each shows how its delivery has ended; and
the log of the alert has grown by these entries. -/
theorem Run.notices (hr : x.Run h o) {admitted : List String} {l : Limiter}
    (hnow : x.room.clock? 0 = some now) (hfound : x.room.store.find? x.alert = some a)
    (hquiet : x.routing.quietHours.suppresses a.id a.severity now = .ok false)
    (hlines : ∀ c ∈ x.routing.channels, c.accepts a.severity = true →
      x.room.supports c.channel = true)
    (hduty : x.routing.Rostered a.severity now)
    (hlimits : StateT.run (Limiter.allow x.routing.limits ⟨a.configurationId, a.ruleId⟩
      (x.routing.asked a.severity now) now) x.room.limiter = (.ok admitted, l))
    (hone : ∀ id, GivenOnce id h) (hcalendar : CalendarLasts h) (hserved : Served h)
    (hready : o.ready = []) (hawake : ∀ t p, o.process? t = some p → p.waiting ≠ .asleep) :
    ∃ ids ys, o.answer = some (.ok (.names ids)) ∧ ids.Nodup ∧
      (h.endings ControlRoom.program 0).map (·.2) = ids.map deliveredAs ∧
      List.Perm ys (x.routing.chosen a.severity now admitted) ∧
      List.Forall₂ (fun id y => ∃ e k, Notice h o x.alert id y e k) ids ys ∧
      ∀ r, o.state.store.logOf r = x.room.store.logOf r ++ if x.alert = r then ids else [] := by
  have hsmooth : Smooth h := ⟨hone, hcalendar, hserved⟩
  have hsends : x.Sends now a _ :=
    ⟨hnow, hfound, ControlRoom.requests_eq hquiet hlines hduty hlimits⟩
  have hsome := ControlRoom.map_some_requests x.room now x.routing x.alert a admitted
  generalize hrs : (x.routing.chosen a.severity now admitted).filterMap
    (x.room.requestOf? x.alert a) = rs at hsends hsome
  -- each request is that of the pair at its place
  have hpair : ∀ (i : Nat) q, rs[i]? = some q → ∃ y, (x.routing.chosen a.severity now admitted)[i]? = some y ∧
      y ∈ x.routing.chosen a.severity now admitted ∧ x.room.requestOf? x.alert a y = some q := by
    intro i q hq
    have hi := congrArg (·[i]?) hsome
    rw [List.getElem?_map, List.getElem?_map, hq] at hi
    obtain ⟨y, hy, hyq⟩ := Option.map_eq_some_iff.mp hi.symm
    exact ⟨y, hy, List.mem_of_getElem? hy, hyq⟩
  have hsupported : ∀ q ∈ rs, x.room.supports q.channel = true := by
    intro q hq
    obtain ⟨i, hi⟩ := List.mem_iff_getElem?.mp hq
    obtain ⟨y, -, hy, hyq⟩ := hpair i q hi
    obtain ⟨k, q', -, hq', hchannel, -⟩ :=
      ControlRoom.requestOf?_of_chosen x.room x.alert hy
    obtain rfl := Option.some.inj (hyq.symm.trans hq')
    obtain ⟨hchannels, haccepts⟩ := Routing.of_mem_chosen hy
    rw [hchannel]
    exact hlines y.1 hchannels haccepts
  obtain ⟨hopening, hgone⟩ := hr.gone hsends hsupported hsmooth hready hawake
  obtain ⟨d, ids, hended⟩ := hr.ended hsends hsupported hsmooth hopening hgone
  have hcaller : ∀ s ∈ h, s.audience = .caller → s.task = 0 := by
    intro s hs haudience
    rcases hr.roles.stints s hs with hmain | hpart
    · exact hmain.task
    · exact nomatch haudience.symm.trans hpart.audience
  have hlength : rs.length = (x.routing.chosen a.severity now admitted).length := by
    have hsame := congrArg List.length hsome
    rw [List.length_map, List.length_map] at hsame
    exact hsame
  refine ⟨ids, ((h.endings ControlRoom.program 0).map (·.1)).filterMap
      (fun t => (x.routing.chosen a.severity now admitted)[t - 1]?), ?_,
    hr.nodup_names hsends hsupported hsmooth hended.order, hended.order, ?_, ?_,
    hr.logOf hsends hcalendar hended⟩
  · exact hr.run.answer_of_ends ControlRoom.plain_isOfCall x.sound_start x.undisturbed_start hcaller
      hended.mem hended.main.audience hended.ends
  · -- all tasks have ended, each at its own place
    have hcount := congrArg List.length hended.order
    rw [List.length_map, List.length_map, hended.count] at hcount
    have hperm : ((h.endings ControlRoom.program 0).map (·.1)).Perm (List.range' 1 rs.length) := by
      refine (List.subperm_of_subset hr.sound.coherent.nodup_endings
        (hr.endings_subset hsends hsupported hsmooth)).perm_of_length_le ?_
      rw [List.length_range', List.length_map, hcount]
    refine (hperm.filterMap _).trans ?_
    rw [hlength, filterMap_getElem?_range']
  · refine forall₂_of_endings hended.order fun g hg => ?_
    obtain ⟨i, q, id, hq, rfl, hdelivered⟩ := hr.delivered hsends hsupported hsmooth hg
    obtain ⟨y, hy, hmem, hyq⟩ := hpair i q hq
    obtain ⟨k, q', hk, hq', hchannel, haddress, halert, hrecipient⟩ :=
      ControlRoom.requestOf?_of_chosen x.room x.alert hmem
    obtain rfl := Option.some.inj (hyq.symm.trans hq')
    obtain ⟨e, hnotice⟩ := hdelivered.notice hk hchannel haddress halert hrecipient
    exact ⟨i, y, id, hy, rfl, e, k, hnotice⟩

end Call

/-! ## A call for two -/

/-- A call goes on with moves that take the first ready item or let time pass. -/
theorem Call.run_after {x : Call} {ms : List Move} (hms : ∀ m ∈ ms, m = .turn 0 ∨ ∃ t, m = .wait t)
    {y : Past × Office} (hy : x.Run y.1 y.2) :
    x.Run (ms.foldl Move.after y).1 (ms.foldl Move.after y).2 := by
  induction ms generalizing y with
  | nil => exact hy
  | cons m ms ih =>
      refine ih (fun m' hm' => hms m' (List.mem_cons_of_mem m hm')) ?_
      unfold Move.after
      rcases hms m List.mem_cons_self with rfl | ⟨t, rfl⟩
      · dsimp only
        split
        · exact hy
        · rename_i hb
          exact .step hy hb
      · dsimp only
        split
        · rename_i hcan
          rw [Bool.and_eq_true, List.isEmpty_iff, decide_eq_true_iff] at hcan
          exact .pass hy hcan.1 hcan.2
        · exact hy

namespace Sample

/-- The first message takes some time to arrive, and all others are refused at once. -/
def slow (number : Nat) : Handling :=
  if number = 0 then ⟨.grains 1000, .ok ⟨true, .null, none, none⟩⟩
  else ⟨.zero, .ok ⟨false, .null, none, none⟩⟩

/-- A room with an alert of which nobody was told. -/
def untold : ControlRoom :=
  ((premises fun _ => .ok ⟨true, .null, none, none⟩).play
    ([.ask (.addConfiguration { crowd with routing := { crowd.routing with recipients := [] } }),
      .ask (.pass snapshot)] ++ List.replicate 24 (.turn 0))).2.state

/-- Somebody asks for the notification of both. -/
def calling : Call where
  room := { untold with
    lines := fun c => if c = .email then some (.fresh (.provider slow)) else none }
  alert := ⟨"alert_0000000000000001", 0⟩
  routing := crowd.routing

/-- What comes of that. -/
def called : Past × Office :=
  (List.replicate 5 (Move.turn 0) ++ Move.wait 1000 :: List.replicate 3 (Move.turn 0)).foldl Move.after
    ([], calling.start)

theorem run_called : calling.Run called.1 called.2 := by
  refine Call.run_after (y := ([], calling.start)) (fun m hm => ?_) .idle
  rcases List.mem_append.mp hm with hm | hm
  · exact .inl (List.eq_of_mem_replicate hm)
  · rcases List.mem_cons.mp hm with hm | hm
    · exact .inr ⟨1000, hm⟩
    · exact .inl (List.eq_of_mem_replicate hm)

end Sample

set_option maxRecDepth 100000 in
/-- Both are told, and the entry of the one whose message arrives later comes last. -/
theorem both_told : ∃ (x : Call) (h : Past) (o : Office) (now : Moment) (a : Alert)
    (admitted : List String) (l : Limiter), x.Run h o ∧
    x.room.clock? 0 = some now ∧ x.room.store.find? x.alert = some a ∧
    x.routing.quietHours.suppresses a.id a.severity now = .ok false ∧
    (∀ c ∈ x.routing.channels, c.accepts a.severity = true → x.room.supports c.channel = true) ∧
    x.routing.Rostered a.severity now ∧
    StateT.run (Limiter.allow x.routing.limits ⟨a.configurationId, a.ruleId⟩
      (x.routing.asked a.severity now) now) x.room.limiter = (.ok admitted, l) ∧
    (∀ id, GivenOnce id h) ∧ CalendarLasts h ∧ Call.Served h ∧ o.ready = [] ∧
    (∀ t p, o.process? t = some p → p.waiting ≠ .asleep) ∧
    (x.routing.chosen a.severity now admitted).length = 2 ∧
    ∃ ids ys, o.answer = some (.ok (.names ids)) ∧ ids.Nodup ∧
      (h.endings ControlRoom.program 0).map (·.2) = ids.map deliveredAs ∧
      List.Perm ys (x.routing.chosen a.severity now admitted) ∧
      List.Forall₂ (fun id y => ∃ e k, Notice h o x.alert id y e k) ids ys ∧
      ∀ r, o.state.store.logOf r = x.room.store.logOf r ++ if x.alert = r then ids else [] := by
  have hsettings : ∃ now ∈ Sample.calling.room.clock? 0,
      ∃ a ∈ Sample.calling.room.store.find? Sample.calling.alert,
        ∃ admitted ∈ (StateT.run (Limiter.allow Sample.calling.routing.limits
            ⟨a.configurationId, a.ruleId⟩ (Sample.calling.routing.asked a.severity now) now)
              Sample.calling.room.limiter).1.toOption,
          (Sample.calling.routing.quietHours.suppresses a.id a.severity now).toOption = some false ∧
          (Sample.calling.routing.chosen a.severity now admitted).length = 2 := by
    decide +kernel
  have hlines : ∀ c ∈ Sample.calling.routing.channels,
      Sample.calling.room.supports c.channel = true := by
    decide +kernel
  have hduty : ∀ y ∈ Sample.calling.routing.pairs, y.2.duty.isNone = true := by
    decide +kernel
  have hone : ∀ d ∈ Sample.called.1, ∀ e ∈ Sample.called.1, about? d = about? e →
      (about? d).isSome = true → d.task = e.task := by
    decide +kernel
  have hlasts : CalendarLasts Sample.called.1 := by
    unfold CalendarLasts
    decide +kernel
  have hserved : ∀ n ∈ Sample.called.1, ∀ id ∈ about? n,
      ¬ ControlRoom.IsUnsupported (reply? id n) := by
    decide +kernel
  have hready : Sample.called.2.ready.isEmpty = true := by decide +kernel
  have hover : ∀ t ∈ List.range Sample.called.2.started,
      (Sample.called.2.process? t).isNone = true := by
    decide +kernel
  have hrun := Sample.run_called
  obtain ⟨now, hnow, a, ha, admitted, hadmitted, hquiet, hchosen⟩ := hsettings
  have hquiet : Sample.calling.routing.quietHours.suppresses a.id a.severity now = .ok false := by
    revert hquiet
    generalize Sample.calling.routing.quietHours.suppresses a.id a.severity now = b
    cases b with
    | error f => exact nofun
    | ok b => exact fun h => congrArg _ (Option.some.inj h)
  have hlimits : ∃ l, StateT.run (Limiter.allow Sample.calling.routing.limits
      ⟨a.configurationId, a.ruleId⟩ (Sample.calling.routing.asked a.severity now) now)
        Sample.calling.room.limiter = (.ok admitted, l) := by
    revert hadmitted
    generalize StateT.run (Limiter.allow Sample.calling.routing.limits
      ⟨a.configurationId, a.ruleId⟩ (Sample.calling.routing.asked a.severity now) now)
        Sample.calling.room.limiter = b
    obtain ⟨b, l⟩ := b
    cases b with
    | error f => exact nofun
    | ok b =>
        intro h
        have h : some b = some admitted := h
        exact ⟨l, Prod.ext (congrArg Except.ok (Option.some.inj h)) rfl⟩
  obtain ⟨l, hlimits⟩ := hlimits
  have hrostered : Sample.calling.routing.Rostered a.severity now := by
    intro y hy _ _ _
    refine ⟨true, ?_⟩
    unfold Recipient.isOnCall
    rw [Option.isNone_iff_eq_none.mp (hduty y hy)]
  have hready := List.isEmpty_iff.mp hready
  have hawake : ∀ t p, Sample.called.2.process? t = some p → p.waiting ≠ .asleep := by
    intro t p hp
    have hnone := hover t (List.mem_range.mpr (hrun.sound.numbered hp))
    rw [hp] at hnone
    exact nomatch hnone
  exact ⟨_, _, _, now, a, admitted, l, hrun, hnow, ha, hquiet, fun c hc _ => hlines c hc, hrostered,
    hlimits, givenOnce_of_about? hone, hlasts, Call.served_of_about? hserved, hready, hawake, hchosen,
    Call.Run.notices hrun hnow ha hquiet (fun c hc _ => hlines c hc) hrostered hlimits
      (givenOnce_of_about? hone) hlasts (Call.served_of_about? hserved) hready hawake⟩

end Office

end BuildingAlerts
