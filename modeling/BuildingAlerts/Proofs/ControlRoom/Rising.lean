/-
What a call to escalate comes to.

A call either leaves everything as it is, or it fires one stage. Then there is one delivery for each
recipient and channel of the stage that can be reached, the entries come in the order in which the stage
names recipients and channels, whichever delivery ends first and however it ends, and the alert rises to
the level of the stage.
-/
import BuildingAlerts.Proofs.Alert.Growth
import BuildingAlerts.Proofs.ControlRoom.Escalations
import BuildingAlerts.Proofs.ControlRoom.Notices
import BuildingAlerts.Proofs.ControlRoom.Summons
import BuildingAlerts.Proofs.Lists
import BuildingAlerts.Proofs.Notification.Targets

set_option autoImplicit false

namespace BuildingAlerts

open Agenda

/-! ## When nothing is fired -/

namespace Alert

variable {a : Alert} {p : Policy} {level : Int} {entries : List LogEntry} {now : Moment} {s : Stage}

/-- Why no stage is fired after a level: the alert is closed, the most is reached, there is no such
stage, it is skipped because somebody has taken notice, or it is not yet due. -/
inductive Withheld (a : Alert) (p : Policy) (level : Int) (entries : List LogEntry) (now : Moment) :
    Prop where
  | closed (h : a.isOpen = false)
  | most (h : p.most ≤ level)
  | noStage (h : p.stageAfter level = none)
  | acknowledged {s : Stage} (hs : p.stageAfter level = some s) (hskip : s.skipIfAcknowledged = true)
      (htaken : a.isAcknowledged = true)
  | early {s : Stage} {due : Moment} (hs : p.stageAfter level = some s)
      (hdue : a.dueAt entries s = .ok due) (hearly : now.lt? due = some true)

/-- A stage is to be fired after a level. -/
structure IsDue (a : Alert) (p : Policy) (level : Int) (entries : List LogEntry) (now : Moment)
    (s : Stage) : Prop where
  isOpen : a.isOpen = true
  most : level < p.most
  stage : p.stageAfter level = some s
  heeded : ¬ (s.skipIfAcknowledged = true ∧ a.isAcknowledged = true)
  due : ∃ due, a.dueAt entries s = .ok due ∧ now.lt? due = some false

theorem withheld_of_no_stage (h : a.nextStage? p level = none) : a.Withheld p level entries now := by
  -- if none of the other reasons holds, there is a stage
  by_contra hno
  have hopen : a.isOpen = true := Bool.not_eq_false _ ▸ fun hclosed => hno (.closed hclosed)
  have hmost : level < p.most := Int.not_le.mp fun hmost => hno (.most hmost)
  obtain ⟨s, hs⟩ := Option.ne_none_iff_exists'.mp fun hnone => hno (.noStage hnone)
  have hskip : ¬ (s.skipIfAcknowledged = true ∧ a.isAcknowledged = true) :=
    fun ⟨hskip, htaken⟩ => hno (.acknowledged hs hskip htaken)
  exact nomatch h.symm.trans (nextStage?_eq_some.mpr ⟨hopen, hmost, hs, hskip⟩)

/-- A stage that is due is not withheld. -/
theorem IsDue.not_withheld (h : a.IsDue p level entries now s) : ¬ a.Withheld p level entries now := by
  rintro (hclosed | hmost | hnone | ⟨hs, hskip, htaken⟩ | ⟨hs, hdue, hearly⟩)
  · exact nomatch h.isOpen.symm.trans hclosed
  · exact absurd h.most (Int.not_lt.mpr hmost)
  · exact nomatch h.stage.symm.trans hnone
  · obtain rfl := Option.some.inj (h.stage.symm.trans hs)
    exact h.heeded ⟨hskip, htaken⟩
  · obtain rfl := Option.some.inj (h.stage.symm.trans hs)
    obtain ⟨due, hdue', hlt⟩ := h.due
    obtain rfl := Except.ok.inj (hdue'.symm.trans hdue)
    exact nomatch hlt.symm.trans hearly

theorem lt?_of_untilDue {left : Span} (h : a.untilDue entries s now = .ok left) :
    ∃ due, a.dueAt entries s = .ok due ∧ now.lt? due = some (decide (0 < left.micros)) := by
  obtain ⟨due, hdue, hleft⟩ := bind_eq_ok_iff.mp h
  refine ⟨due, hdue, ?_⟩
  unfold Moment.lt?
  rw [orFault_eq_ok_iff.mp hleft]
  rfl

end Alert

/-! ## Whom a stage reaches -/

/-- The recipients of a stage, each with every channel. -/
def Stage.pairs (s : Stage) : List (String × Channel) :=
  s.recipients.flatMap fun id => s.channels.map fun ch => (id, ch)

theorem Recipient.isSome_contactFor (r : Recipient) (ch : Channel) :
    (r.contactFor ch).isSome = r.contacts.any fun k => k.channel == ch && k.verified := by
  rw [Bool.eq_iff_iff, List.any_eq_true, Option.isSome_iff_exists]
  constructor
  · rintro ⟨k, hk⟩
    obtain ⟨hmem, hchannel, hverified⟩ := of_contactFor hk
    refine ⟨k, hmem, ?_⟩
    rw [hchannel, hverified, beq_self_eq_true]
    rfl
  · rintro ⟨k, hmem, hk⟩
    have hverified : k ∈ r.verifiedContacts ch := List.mem_filter.mpr ⟨hmem, hk⟩
    rw [← Option.isSome_iff_exists]
    unfold contactFor
    rw [Option.isSome_or, Bool.or_eq_true]
    exact .inr (List.isSome_head?.mpr (List.ne_nil_of_mem hverified))

namespace ControlRoom

variable {c : ControlRoom} {r : AlertRef} {a : Alert} {s : Stage}

/-- Whether a recipient can be reached on a channel: they are in the directory, the channel has a line,
and they have a verified contact for it. -/
def reaches (c : ControlRoom) (y : String × Channel) : Bool :=
  (c.directory.get? y.1).any fun p =>
    c.supports y.2 && p.contacts.any fun k => k.channel == y.2 && k.verified

theorem isSome_stageRequest? (c : ControlRoom) (r : AlertRef) (a : Alert) (s : Stage)
    (y : String × Channel) : (c.stageRequest? r a s y.1 y.2).isSome = c.reaches y := by
  unfold stageRequest? reaches
  cases c.directory.get? y.1 with
  | none => rfl
  | some p =>
      rw [Option.any_some, ← p.isSome_contactFor]
      cases hline : c.supports y.2 with
      | false => rfl
      | true =>
          show ((p.contactFor y.2).bind _).isSome = _
          cases p.contactFor y.2 <;> rfl

/-- **A stage asks for one delivery for each pair that it reaches**, in their order. -/
theorem forall₂_stageRequests (c : ControlRoom) (r : AlertRef) (a : Alert) (s : Stage) :
    List.Forall₂ (fun q y => c.stageRequest? r a s y.1 y.2 = some q) (c.stageRequests r a s)
      (s.pairs.filter c.reaches) := by
  have hrequests : c.stageRequests r a s = s.pairs.filterMap fun y => c.stageRequest? r a s y.1 y.2 := by
    unfold stageRequests Stage.pairs
    rw [List.filterMap_flatMap]
    exact List.flatMap_congr fun id _ => by rw [List.filterMap_map]; rfl
  have hreaches : c.reaches = fun y => (c.stageRequest? r a s y.1 y.2).isSome :=
    funext fun y => (c.isSome_stageRequest? r a s y).symm
  rw [hrequests, hreaches]
  exact forall₂_filterMap _ _

end ControlRoom

namespace Office

/-- The identifiers that deliveries have ended with, beside what was asked for. -/
theorem forall₂_ids {γ : Type} {R : γ → Yield → Prop} {D : String → γ → Prop} {gs : List γ}
    {ys : List Yield} (h : List.Forall₂ R gs ys)
    (hall : ∀ g ∈ gs, ∀ y, R g y → ∃ id, y = .names [id] ∧ D id g) :
    List.Forall₂ D (ys.flatMap (·.ids)) gs := by
  induction h with
  | nil => exact .nil
  | @cons g y gs ys hr _ ih =>
      obtain ⟨id, rfl, hd⟩ := hall g List.mem_cons_self y hr
      exact .cons hd (ih fun g hg => hall g (List.mem_cons_of_mem _ hg))

namespace Summons

variable {x : Summons} {h : Past} {o : Office} {now : Moment} {a : Alert} {s : Stage} {n : Doing}

/-! ## What a call does at first -/

/-- A call is withheld, or it cannot be told when the next stage is due, or that stage is fired. -/
theorem opens (hclock : x.room.clock? 0 = some now) (hfound : x.room.store.find? x.alert = some a) :
    (a.Withheld x.policy x.level (x.room.entriesOf a) now ∧
        x.opening.turn ControlRoom.program = x.room.done []) ∨
      (∃ s f, a.nextStage? x.policy x.level = some s ∧
        a.untilDue (x.room.entriesOf a) s now = .error f ∧
        x.opening.turn ControlRoom.program = x.room.fail f) ∨
      ∃ s, x.Fires now a s := by
  rw [x.turn_opening hclock]
  unfold ControlRoom.beginEscalation
  rw [hfound]
  dsimp only [Option.getD_some]
  cases hstage : a.nextStage? x.policy x.level with
  | none => exact .inl ⟨Alert.withheld_of_no_stage hstage, rfl⟩
  | some s =>
      dsimp only
      cases hleft : a.untilDue (x.room.entriesOf a) s now with
      | error f => exact .inr (.inl ⟨s, f, rfl, hleft, rfl⟩)
      | ok left =>
          dsimp only
          by_cases hearly : 0 < left.micros
          · obtain ⟨due, hdue, hlt⟩ := Alert.lt?_of_untilDue hleft
            rw [decide_eq_true hearly] at hlt
            rw [if_pos hearly]
            exact .inl ⟨.early (Alert.nextStage?_eq_some.mp hstage).2.2.1 hdue hlt, rfl⟩
          · exact .inr (.inr ⟨s, hclock, hfound, hstage, left, hleft, hearly⟩)

theorem Fires.isDue (hf : x.Fires now a s) :
    a.IsDue x.policy x.level (x.room.entriesOf a) now s := by
  obtain ⟨hopen, hmost, hstage, hheeded⟩ := Alert.nextStage?_eq_some.mp hf.next
  obtain ⟨left, hleft, hdue⟩ := hf.due
  obtain ⟨due, hat, hlt⟩ := Alert.lt?_of_untilDue hleft
  rw [decide_eq_false hdue] at hlt
  exact ⟨hopen, hmost, hstage, hheeded, due, hat, hlt⟩

/-- A call that ends at once has answered, and there is nothing else. -/
theorem Run.over_at_once (hr : x.Run h o) (hopening : x.opening ∈ h) {y : Outcome Yield}
    (hends : x.opening.Ends ControlRoom.program y) :
    o.answer = some y ∧ o.state = (x.opening.turn ControlRoom.program).state ∧
      ∀ n ∈ h, n = x.opening := by
  have honly : ∀ n ∈ h, n = x.opening := fun n hn =>
    Agenda.Asked.eq_opening ControlRoom.parted_isSummons x.isSummons_work hr hends hn
  refine ⟨?_, ?_, honly⟩
  · exact Agenda.Asked.answer_of_ends ControlRoom.parted_isSummons x.isSummons_work hr hopening rfl hends
  · exact (Agenda.Run.as_left (f := id) (Agenda.sound_asked _ _ _) hr hopening hends
      fun n hn hne => absurd (honly n hn) hne).2

/-! ## How the deliveries end -/

/-- A delivery that ends has drawn an identifier and ends with it. -/
theorem Run.delivered (hr : x.Run h o) (hf : x.Fires now a s) (hsmooth : Call.Smooth h)
    (hn : n ∈ h) (haudience : n.audience = .task 0) {y : Outcome Yield}
    (hends : n.Ends ControlRoom.program y) :
    ∃ i q id, (x.requests a s)[i]? = some q ∧ n.task = i + 1 ∧ y = deliveredAs id ∧
      Delivered h o q n.task id := by
  -- its task has begun with a delivery that the call has started
  obtain ⟨d, hd, hdt, hfirst, hda⟩ := hr.sound.coherent.exists_first hn
  obtain ⟨e, he, -, -, i, hi, -⟩ := Agenda.Asked.started ControlRoom.parted_isSummons
    x.isSummons_work hr hd (hda.trans haudience) hfirst
  obtain ⟨q, level, hbody⟩ := hr.deliver_of_child he (List.mem_of_getElem? hi)
  obtain ⟨-, i, hq, hdi⟩ := hr.request_of_deliver hf hd hbody
  -- the identifier is the one that it has drawn then
  have hdraws : draws d.state.nextEntry d = true := draws_iff.mpr
    ⟨⟨q, level, hbody⟩, Option.ne_none_iff_exists'.mp (hsmooth.clock d hd), rfl⟩
  have hfollowed := hr.followed hf (hsmooth.once d.state.nextEntry) hsmooth.clock hsmooth.served
  obtain ⟨hsame, hdelivered⟩ := hfollowed.delivered hr.sound hd hdraws hbody hn hdt hends
  exact ⟨i, q, _, hq, hdt.symm.trans hdi, hsame, hdt ▸ hdelivered⟩

/-! ## How the call ends -/

/-- **The call has ended** when nothing is ready and nobody sleeps. -/
theorem Run.gone (hr : x.Run h o) (hf : x.Fires now a s) (hready : o.ready = [])
    (hawake : ∀ t p, o.process? t = some p → p.waiting ≠ .asleep) : o.process? 0 = none := by
  have hsound := hr.sound
  have hopening : x.opening ∈ h := Agenda.Asked.opening_mem_of_ready hr hready
  refine Option.eq_none_iff_forall_not_mem.mpr fun p hp => ?_
  have hp : o.process? 0 = some p := hp
  obtain ⟨l, hlatest⟩ : ∃ l, h.latest 0 = some l := History.exists_latest hopening
  obtain ⟨hl, hzero⟩ := History.latest_eq_some hlatest
  have hmain := hr.isSummons hl hzero
  rcases ControlRoom.program_summons l.now l.state hmain l.wake with
    ⟨d, y, hturn⟩ | ⟨_, _, _, _, _, _, -, hturn⟩
  · have hnone := (hsound.living 0 nofun l hlatest).mpr ⟨y, congrArg Turn.next hturn⟩
    exact nomatch hnone.symm.trans hp
  · -- it waits for its deliveries, and one of them is still to end
    have hnext := congrArg Turn.next hturn
    obtain rfl := hr.eq_opening hl hmain hnext
    have hne : x.opening.childIds ControlRoom.program ≠ [] := by
      rcases hf.turn with ⟨-, hnothing⟩ | ⟨hsome, -⟩
      · exact nomatch (congrArg Turn.next hnothing).symm.trans hnext
      · rw [hf.childIds]
        exact fun hnil => hsome (List.length_eq_zero_iff.mp (List.range'_eq_nil_iff.mp hnil))
    obtain ⟨-, hattentive⟩ := Agenda.Asked.calm ControlRoom.parted_isSummons.plain
      (.inl x.isSummons_work) hr
    obtain ⟨c, -, q, hq, haudience⟩ := hattentive.exists_waited hsound hready hp hlatest hnext hne
    exact hawake c q hq (Agenda.Asked.asleep_of_part ControlRoom.parted_isSummons x.isSummons_work hr
      hready (fun k hk hw => (hr.shaped hk).next.waits_for_nobody hw.isDelivery) hq haudience)

/-- The stint with which a call ends that has heard of all its deliveries. -/
structure Raised (x : Summons) (h : Past) (o : Office) (now : Moment) (a : Alert) (s : Stage)
    (d : Doing) (ids : List String) : Prop where
  mem : d ∈ h
  main : d.body.IsSummons
  turn : d.turn ControlRoom.program = (d.state.rise x.alert s now ids).done ids
  order : List.Forall₂ (fun id g => Delivered h o g.1 g.2 id) ids ((x.requests a s).zipIdx 1)

/-- What the deliveries have ended with are their identifiers, in the order in which the stage asks for
them. -/
theorem Run.delivered_in_order (hr : x.Run h o) (hf : x.Fires now a s) (hsmooth : Call.Smooth h)
    {e : Past} (he : ∀ n ∈ e, n ∈ h) {ys : List Yield}
    (hys : List.Forall₂ (fun c y => e.Ended ControlRoom.program 0 c (.ok y))
      (x.opening.childIds ControlRoom.program) ys) :
    List.Forall₂ (fun id g => Delivered h o g.1 g.2 id) (ys.flatMap (·.ids))
      ((x.requests a s).zipIdx 1) := by
  rw [hf.childIds, ← List.zipIdx_map_snd, List.forall₂_map_left_iff] at hys
  refine forall₂_ids hys fun g hg y hended => ?_
  obtain ⟨f, hfe, hft, hfa, hfends⟩ := History.Ended.of_ok hended
  obtain ⟨i, q, id, hq, hfi, hsame, hdelivered⟩ := hr.delivered hf hsmooth (he f hfe) hfa hfends
  refine ⟨id, Except.ok.inj hsame, ?_⟩
  -- the delivery that has ended is the one at this place
  have hgi : g.2 = i + 1 := hft.symm.trans hfi
  have hgq : (x.requests a s)[i]? = some g.1 := mem_zipIdx_one.mp (hgi ▸ hg)
  obtain rfl := Option.some.inj (hgq.symm.trans hq)
  exact hft ▸ hdelivered

/-- **The call ends with the identifiers of its deliveries**, in the order in which it has asked for
them. -/
theorem Run.raised (hr : x.Run h o) (hf : x.Fires now a s) (hsome : x.requests a s ≠ [])
    (hsmooth : Call.Smooth h) (hopening : x.opening ∈ h) (hgone : o.process? 0 = none) :
    ∃ d ids, Raised x h o now a s d ids := by
  have hcoherent := hr.sound.coherent
  have hturn := (hf.turn.resolve_left fun hnothing => hsome hnothing.1).2
  have hnext : (x.opening.turn ControlRoom.program).next = .gather _ _ := congrArg Turn.next hturn
  obtain ⟨d, hlatest⟩ : ∃ d, h.latest 0 = some d := History.exists_latest hopening
  obtain ⟨hd, hzero⟩ := History.latest_eq_some hlatest
  obtain ⟨y, hends⟩ := (hr.sound.living 0 nofun d hlatest).mp hgone
  obtain ⟨e, he⟩ := History.exists_suffix_of_mem hd
  have hsuffix : e <:+ h := (List.suffix_cons d e).trans he
  have hfollows := hcoherent d e he
  unfold History.Follows at hfollows
  split at hfollows
  · -- it would be the first stint, and this one waits for others
    obtain rfl := hcoherent.first_unique hd hopening hfollows.1 rfl hzero
    exact nomatch hends.symm.trans hnext
  · rename_i l hlast
    obtain ⟨hl, hlt⟩ := History.latest_eq_some hlast
    have hlh := hsuffix.subset hl
    have hlead := hfollows.2.2
    obtain rfl := hr.eq_opening_of_body? hlh (hlt.trans hzero) hlead.body
    obtain ⟨hbody, ⟨ys, hwake, hys⟩ | ⟨st, hwake⟩⟩ := hlead.of_gather hnext
    · -- all deliveries have ended
      obtain ⟨m, hm⟩ := Option.ne_none_iff_exists'.mp (hsmooth.clock d hd)
      refine ⟨d, ys.flatMap (·.ids), hd, hr.isSummons hd hzero, ?_,
        hr.delivered_in_order hf hsmooth (fun n hn => hsuffix.subset hn) hys⟩
      unfold Stint.turn
      rw [hbody, hwake]
      exact ControlRoom.program_of_clock hm _ _
    · -- nobody fails
      obtain ⟨f, hfm, -, hfa, hfends⟩ := Agenda.Asked.stopped_by ControlRoom.parted_isSummons.plain
        (.inl x.isSummons_work) hr he hlast ⟨_, _, hnext⟩ hwake
      obtain ⟨_, _, _, -, -, hsame, -⟩ := hr.delivered hf hsmooth hfm hfa hfends
      exact nomatch hsame

/-! ## What a call comes to -/

/-- What the entry of a delivery shows about a recipient of the stage and a channel: it carries the
address of their verified contact, it is on the level of the stage, and it is sent if the delivery has
succeeded and failed if not. -/
structure Entered (x : Summons) (h : Past) (o : Office) (s : Stage) (id : String) (y : String × Channel)
    (e : LogEntry) (p : Recipient) (k : Contact) : Prop where
  entry : o.state.journal.get? id = some e
  recipient : x.room.directory.get? y.1 = some p
  line : x.room.supports y.2 = true
  contact : p.contactFor y.2 = some k
  alertId : e.alertId = x.alert.id
  recipientId : e.request.bind (·.recipientId) = some p.id
  channel : e.channel = y.2
  address : e.address = k.value
  level : e.escalationLevel = s.level
  shows : e.Shows (∃ n ∈ h, Succeeds id n)

/-- Nothing was fired. Everything is as it was, and nobody was handed anything. -/
structure Untouched (x : Summons) (h : Past) (o : Office) : Prop where
  state : o.state = x.room
  sends : ∀ n ∈ h, ¬ n.body.Sends

/-- A stage was fired. There is one delivery for each pair that it reaches, and nobody else hands
anything over. The entries are returned in the order of the pairs, and the alert rises with just them. -/
structure Fired (x : Summons) (h : Past) (o : Office) (now : Moment) (a : Alert) (s : Stage)
    (ids : List String) : Prop where
  answer : o.answer = some (.ok (.names ids))
  entries : List.Forall₂ (fun id y => ∃ e p k, Entered x h o s id y e p k) ids
    (s.pairs.filter x.room.reaches)
  once : ids.Nodup
  drawn : (h.filterMap drawn?).Perm ids
  sends : ∀ n ∈ h, n.body.Sends → (drawn? n).isSome = true
  alert : o.state.store.find? x.alert = some { a with
    escalationLevel := s.level, escalatedAt := some now, notifications := a.notifications ++ ids }
  others : ∀ r, r ≠ x.alert → o.state.store.find? r = x.room.store.find? r

theorem Run.entered (hr : x.Run h o) (hf : x.Fires now a s) {q : DeliveryRequest} {t : TaskId}
    {id : String} (hd : Delivered h o q t id) {y : String × Channel}
    (hy : x.room.stageRequest? x.alert a s y.1 y.2 = some q) :
    ∃ e p k, Entered x h o s id y e p k := by
  obtain ⟨e, he, hfor, hshows⟩ := hd.entry
  obtain ⟨d, hdm, hdraws, -⟩ := hd.drawn
  obtain ⟨hline, p, k, hp, hk, hchannel, haddress, halert, hrecipient⟩ :=
    ControlRoom.of_stageRequest? hy
  refine ⟨e, p, k, he, hp, hline, hk, hfor.alertId.trans (congrArg _ halert), ?_,
    hfor.channel.trans hchannel, hfor.address.trans haddress,
    hr.level_of_drawn hf ⟨d, hdm, hdraws⟩ he, hshows⟩
  rw [hfor.request]
  exact hrecipient

/-- Only deliveries that begin hand something over. -/
theorem Run.isSome_drawn_of_sends (hr : x.Run h o) (hn : n ∈ h) (hsends : n.body.Sends) :
    (drawn? n).isSome = true := by
  rcases hr.kind hn with hw | hw
  · exact absurd hsends hw.not_sends
  · obtain ⟨q, level, hbody⟩ := hw.deliver_of_sends hsends
    rw [drawn?_eq_some.mpr ⟨⟨q, level, hbody⟩, rfl⟩]
    rfl

/-- A call that ends at once and keeps the room as it is leaves everything untouched. -/
theorem Run.untouched (hr : x.Run h o) (hopening : x.opening ∈ h) {y : Outcome Yield}
    (hturn : x.opening.turn ControlRoom.program = x.room.goOn (.finish y)) :
    o.answer = some y ∧ Untouched x h o := by
  obtain ⟨hanswer, hstate, honly⟩ := hr.over_at_once hopening (congrArg Turn.next hturn)
  refine ⟨hanswer, hstate.trans (congrArg Turn.state hturn), fun n hn => ?_⟩
  rw [honly n hn]
  exact x.isSummons_work.not_sends

/-- **A stage that reaches nobody** is fired all the same. -/
theorem Run.fired_of_nil (hr : x.Run h o) (hf : x.Fires now a s) (hnone : x.requests a s = [])
    (hopening : x.opening ∈ h) : Fired x h o now a s [] := by
  have hturn := (hf.turn.resolve_right fun hsome => hsome.1 hnone).2
  obtain ⟨hanswer, hstate, honly⟩ := hr.over_at_once hopening (congrArg Turn.next hturn)
  have hpairs := x.room.forall₂_stageRequests x.alert a s
  rw [show x.room.stageRequests x.alert a s = [] from hnone] at hpairs
  have hstore : o.state.store = x.room.store.adjustAt x.alert fun a => a.escalate s now [] := by
    rw [hstate, hturn]
    rfl
  refine ⟨hanswer, ?_, List.nodup_nil, ?_, fun n hn hsends => ?_, ?_, fun r hne => ?_⟩
  · rw [List.forall₂_nil_left_iff.mp hpairs]
    exact .nil
  · rw [List.filterMap_eq_nil_iff.mpr fun n hn => by rw [honly n hn]; rfl]
  · exact hr.isSome_drawn_of_sends hn hsends
  · rw [hstore, Store.find?_adjustAt, if_pos rfl, hf.found]
    rfl
  · rw [hstore, Store.find?_adjustAt, if_neg hne]

theorem Raised.ends {d : Doing} {ids : List String} (hraised : Raised x h o now a s d ids) :
    d.Ends ControlRoom.program (.ok (.names ids)) :=
  congrArg Turn.next hraised.turn

/-- Different deliveries have different identifiers. -/
theorem Raised.nodup {d : Doing} {ids : List String} (hraised : Raised x h o now a s d ids)
    (hsmooth : Call.Smooth h) : ids.Nodup := by
  refine nodup_of_forall₂ hraised.order (fun id g g' hg hg' hd hd' => ?_)
    (List.Nodup.of_map Prod.snd (List.zipIdx_map_snd .. ▸ List.nodup_range'))
  obtain ⟨n, hn, hdraws, htask⟩ := hd.drawn
  obtain ⟨n', hn', hdraws', htask'⟩ := hd'.drawn
  -- whoever has drawn an identifier has one place
  have hplace : g.2 = g'.2 :=
    htask.symm.trans ((hsmooth.once id n hn n' hn' hdraws hdraws').trans htask')
  have hat := (List.mk_mem_zipIdx_iff_le_and_getElem?_sub.mp hg).2
  have hat' := (List.mk_mem_zipIdx_iff_le_and_getElem?_sub.mp hg').2
  rw [hplace] at hat
  exact Prod.ext (Option.some.inj (hat.symm.trans hat')) hplace

/-- The identifiers that were drawn are those of the deliveries. -/
theorem Run.perm_of_raised (hr : x.Run h o) (hf : x.Fires now a s) (hsmooth : Call.Smooth h) {d : Doing}
    {ids : List String} (hraised : Raised x h o now a s d ids) : (h.filterMap drawn?).Perm ids := by
  have hfirst : ∀ n ∈ h, ∀ q level, n.body = .deliver q level → n.first = true :=
    fun n hn q level hbody => (hr.first hn (by rw [hbody]; trivial)).1
  -- neither list names anything twice, so it is enough that they name the same
  have hnodup := nodup_drawn hr.sound.coherent hfirst hsmooth.once hsmooth.clock
  refine (List.perm_ext_iff_of_nodup hnodup (hraised.nodup hsmooth)).mpr fun id =>
    ⟨fun hid => ?_, fun hid => ?_⟩
  · -- whoever draws it is the delivery of a request
    obtain ⟨n, hn, hnid⟩ := List.mem_filterMap.mp hid
    obtain ⟨⟨q, level, hbody⟩, -⟩ := drawn?_eq_some.mp hnid
    obtain ⟨-, i, hq, htask⟩ := hr.request_of_deliver hf hn hbody
    obtain ⟨id', hid', hd⟩ := exists_mem_of_forall₂ hraised.order (mem_zipIdx_one.mpr hq)
    obtain ⟨n', hn', hdraws', htask'⟩ := hd.drawn
    obtain ⟨⟨q', level', hbody'⟩, -⟩ := draws_iff.mp hdraws'
    obtain rfl := hr.sound.coherent.first_unique hn hn' (hfirst n hn q level hbody)
      (hfirst n' hn' q' level' hbody') (htask.trans htask'.symm)
    have hnid' := (draws_iff_drawn? (hsmooth.clock n hn)).mp hdraws'
    exact Option.some.inj (hnid.symm.trans hnid') ▸ hid'
  · obtain ⟨g, -, hd⟩ := exists_mem_of_forall₂ (List.Forall₂.flip hraised.order) hid
    obtain ⟨n, hn, hdraws, -⟩ := hd.drawn
    exact List.mem_filterMap.mpr ⟨n, hn, (draws_iff_drawn? (hsmooth.clock n hn)).mp hdraws⟩

/-- Only the last stint of the call writes to the store. -/
theorem Run.store_of_raised (hr : x.Run h o) {d : Doing} {ids : List String}
    (hraised : Raised x h o now a s d ids) :
    o.state.store = x.room.store.adjustAt x.alert fun a => a.escalate s now ids := by
  have hstore := Agenda.Run.as_left (f := fun c : ControlRoom => c.store) (Agenda.sound_asked _ _ _) hr
    hraised.mem hraised.ends fun n hn hne => by
      rcases hr.kind hn with hw | hw
      · rcases ControlRoom.program_summons n.now n.state hw n.wake with
          ⟨_, y, hturn⟩ | ⟨_, _, _, _, _, _, -, hturn⟩
        · refine absurd (hr.sound.coherent.ends_unique hn hraised.mem (congrArg Turn.next hturn)
            hraised.ends ?_) hne
          exact (hr.main hn hw).1.trans (hr.main hraised.mem hraised.main).1.symm
        · exact congrArg (·.state.store) hturn
      · exact ControlRoom.store_delivery n.now n.state hw.isDelivery n.wake
  obtain ⟨hbefore, hafter⟩ := hstore
  rw [hraised.turn] at hafter
  exact hafter.trans (congrArg (Store.adjustAt · x.alert _) hbefore)

/-- **A stage that reaches somebody** is fired when all its deliveries have ended. -/
theorem Run.fired_of_raised (hr : x.Run h o) (hf : x.Fires now a s) (hsmooth : Call.Smooth h) {d : Doing}
    {ids : List String} (hraised : Raised x h o now a s d ids) : Fired x h o now a s ids := by
  have hstore := hr.store_of_raised hraised
  refine ⟨?_, ?_, hraised.nodup hsmooth, hr.perm_of_raised hf hsmooth hraised,
    fun n hn hsends => hr.isSome_drawn_of_sends hn hsends, ?_, fun r hne => ?_⟩
  · exact Agenda.Asked.answer_of_ends ControlRoom.parted_isSummons x.isSummons_work hr hraised.mem
      (hr.main hraised.mem hraised.main).2 hraised.ends
  · have hrequests : List.Forall₂ (fun id q => ∃ t, Delivered h o q t id) ids (x.requests a s) := by
      rw [← List.zipIdx_map_fst 1 (x.requests a s), List.forall₂_map_right_iff]
      exact hraised.order.imp fun id g hd => ⟨g.2, hd⟩
    exact forall₂_trans hrequests (x.room.forall₂_stageRequests x.alert a s)
      fun id q y ⟨t, hd⟩ hy => hr.entered hf hd hy
  · rw [hstore, Store.find?_adjustAt, if_pos rfl, hf.found]
    rfl
  · rw [hstore, Store.find?_adjustAt, if_neg hne]

/-- **A call to escalate fires a stage or leaves everything as it is.** When all is done, the call has
returned no entries and nothing was touched, for one of the reasons to withhold a stage; or it has
failed in the same way, because it cannot be told when the next stage is due; or this stage is due and
was fired, whichever items the room has taken first and whatever the providers have done. -/
theorem Run.escalates (hr : x.Run h o) (hnow : x.room.clock? 0 = some now)
    (hfound : x.room.store.find? x.alert = some a) (hone : ∀ id, GivenOnce id h)
    (hcalendar : CalendarLasts h) (hserved : Call.Served h) (hready : o.ready = [])
    (hawake : ∀ t p, o.process? t = some p → p.waiting ≠ .asleep) :
    (a.Withheld x.policy x.level (x.room.entriesOf a) now ∧ o.answer = some (.ok (.names [])) ∧
        Untouched x h o) ∨
      (∃ s f, a.nextStage? x.policy x.level = some s ∧
        a.untilDue (x.room.entriesOf a) s now = .error f ∧ o.answer = some (.error (.failed f)) ∧
        Untouched x h o) ∨
      ∃ s ids, a.IsDue x.policy x.level (x.room.entriesOf a) now s ∧ Fired x h o now a s ids := by
  have hopening : x.opening ∈ h := Agenda.Asked.opening_mem_of_ready hr hready
  rcases x.opens hnow hfound with ⟨hwithheld, hturn⟩ | ⟨s, f, hstage, hdue, hturn⟩ | ⟨s, hf⟩
  · exact .inl ⟨hwithheld, hr.untouched hopening hturn⟩
  · exact .inr (.inl ⟨s, f, hstage, hdue, hr.untouched hopening hturn⟩)
  · refine .inr (.inr ⟨s, ?_⟩)
    by_cases hnone : x.requests a s = []
    · exact ⟨[], hf.isDue, hr.fired_of_nil hf hnone hopening⟩
    · have hsmooth : Call.Smooth h := ⟨hone, hcalendar, hserved⟩
      obtain ⟨d, ids, hraised⟩ := hr.raised hf hnone hsmooth hopening (hr.gone hf hready hawake)
      exact ⟨ids, hf.isDue, hr.fired_of_raised hf hsmooth hraised⟩

end Summons

/-! ## Two who are called out -/

namespace Sample

/-- The porter and the keeper are called by mail or by message, and with them somebody whom nobody
knows. -/
def callOut (delay : Int) : Policy :=
  ⟨"call-out", "Call-out",
    [⟨2, delay, ["porter", "stranger", "keeper"], [.sms, .email], true, 15, true, ""⟩], 3, rfl⟩

/-- Somebody asks to escalate an alert of which both were told. -/
def summoning (delay : Int) : Summons where
  room := { (told fun _ => .ok ⟨true, .null, none, none⟩).2.state with
    lines := fun c => if c = .email then some (.fresh (.provider slow)) else none }
  alert := warm
  policy := callOut delay
  level := 0

/-- What comes of that. -/
def summoned (delay : Int) : Past × Office :=
  (List.replicate 5 (Move.turn 0) ++ [Move.wait 1000] ++ List.replicate 3 (Move.turn 0)).foldl Move.after
    ([], Agenda.asked (summoning delay).room (summoning delay).work)

theorem run_summoned (delay : Int) : (summoning delay).Run (summoned delay).1 (summoned delay).2 :=
  run_after (x := ([], Agenda.asked (summoning delay).room (summoning delay).work))
    (fun q hq => absurd hq (ask_not_mem_turns 1000 5 3 q)) .idle

set_option maxRecDepth 100000 in
/-- Whether the stage is due or its time is not in the calendar, the call ends, and nothing comes in its
way. -/
theorem settled_summoned (delay : Int) (hdelay : delay ∈ [0, 10 ^ 13]) :
    (∃ now a, (summoning delay).room.clock? 0 = some now ∧
      (summoning delay).room.store.find? (summoning delay).alert = some a) ∧
    (∀ id, GivenOnce id (summoned delay).1) ∧ CalendarLasts (summoned delay).1 ∧
    Call.Served (summoned delay).1 ∧ (summoned delay).2.ready = [] ∧
    ∀ t p, (summoned delay).2.process? t = some p → p.waiting ≠ .asleep := by
  have hsettings : ∀ delay ∈ [0, 10 ^ 13], ((summoning delay).room.clock? 0).isSome = true ∧
      ((summoning delay).room.store.find? (summoning delay).alert).isSome = true := by
    decide +kernel
  have hone : ∀ delay ∈ [0, 10 ^ 13], ∀ d ∈ (summoned delay).1, ∀ e ∈ (summoned delay).1,
      about? d = about? e → (about? d).isSome = true → d.task = e.task := by
    decide +kernel
  have hlasts : ∀ delay ∈ [0, 10 ^ 13], ∀ d ∈ (summoned delay).1, d.state.clock? d.now ≠ none := by
    decide +kernel
  have hserved : ∀ delay ∈ [0, 10 ^ 13], ∀ n ∈ (summoned delay).1, ∀ id ∈ about? n,
      ¬ ControlRoom.IsUnsupported (reply? id n) := by
    decide +kernel
  have hready : ∀ delay ∈ [0, 10 ^ 13], (summoned delay).2.ready.isEmpty = true := by decide +kernel
  have hover : ∀ delay ∈ [0, 10 ^ 13], ∀ t ∈ List.range (summoned delay).2.started,
      ((summoned delay).2.process? t).isNone = true := by
    decide +kernel
  obtain ⟨hnow, ha⟩ := hsettings delay hdelay
  obtain ⟨now, hnow⟩ := Option.isSome_iff_exists.mp hnow
  obtain ⟨a, ha⟩ := Option.isSome_iff_exists.mp ha
  refine ⟨⟨now, a, hnow, ha⟩, givenOnce_of_about? (hone delay hdelay), hlasts delay hdelay,
    Call.served_of_about? (hserved delay hdelay), List.isEmpty_iff.mp (hready delay hdelay), ?_⟩
  intro t p hp
  have hnone := hover delay hdelay t (List.mem_range.mpr ((run_summoned delay).sound.numbered hp))
  rw [hp] at hnone
  exact nomatch hnone

end Sample

set_option maxRecDepth 100000 in
/-- The porter and the keeper are told. The entry of the porter comes first, though the message to the
keeper has ended before. -/
theorem porter_before_keeper : ∃ (x : Summons) (h : Past) (o : Office) (now : Moment) (a : Alert),
    x.Run h o ∧ x.room.clock? 0 = some now ∧ x.room.store.find? x.alert = some a ∧
    (∀ id, GivenOnce id h) ∧ CalendarLasts h ∧ Call.Served h ∧ o.ready = [] ∧
    (∀ t p, o.process? t = some p → p.waiting ≠ .asleep) ∧
    (h.endings ControlRoom.program 0).map (·.1) = [2, 1] ∧
    ∃ s ids, ids.length = 2 ∧ a.IsDue x.policy x.level (x.room.entriesOf a) now s ∧
      Summons.Fired x h o now a s ids := by
  have horder : ((Sample.summoned 0).1.endings ControlRoom.program 0).map (·.1) = [2, 1] := by
    decide +kernel
  have htwo : (Sample.summoned 0).2.answer.map (fun y => y.toOption.map (·.ids.length))
      = some (some 2) := by
    decide +kernel
  have hrun := Sample.run_summoned 0
  obtain ⟨⟨now, a, hnow, ha⟩, hone, hlasts, hserved, hready, hawake⟩ :=
    Sample.settled_summoned 0 List.mem_cons_self
  refine ⟨_, _, _, now, a, hrun, hnow, ha, hone, hlasts, hserved, hready, hawake, horder, ?_⟩
  rcases Summons.Run.escalates hrun hnow ha hone hlasts hserved hready hawake with
    ⟨-, hanswer, -⟩ | ⟨_, _, -, -, hanswer, -⟩ | ⟨s, ids, hdue, hfired⟩
  · rw [hanswer] at htwo
    exact nomatch Option.some.inj (Option.some.inj htwo)
  · rw [hanswer] at htwo
    exact nomatch Option.some.inj htwo
  · rw [hfired.answer] at htwo
    exact ⟨s, ids, Option.some.inj (Option.some.inj htwo), hdue, hfired⟩

set_option maxRecDepth 100000 in
/-- Where the time at which the next stage is due is not in the calendar, the call fails. It neither
returns without entries nor fires a stage. -/
theorem fails_beyond_calendar : ∃ (x : Summons) (h : Past) (o : Office) (now : Moment) (a : Alert),
    x.Run h o ∧ x.room.clock? 0 = some now ∧ x.room.store.find? x.alert = some a ∧
    (∀ id, GivenOnce id h) ∧ CalendarLasts h ∧ Call.Served h ∧ o.ready = [] ∧
    (∀ t p, o.process? t = some p → p.waiting ≠ .asleep) ∧
    ¬ ((a.Withheld x.policy x.level (x.room.entriesOf a) now ∧ o.answer = some (.ok (.names [])) ∧
        Summons.Untouched x h o) ∨
      ∃ s ids, a.IsDue x.policy x.level (x.room.entriesOf a) now s ∧
        Summons.Fired x h o now a s ids) := by
  have hfails : (Sample.summoned (10 ^ 13)).2.answer.map (fun y => y.toOption.map (·.ids))
      = some none := by
    decide +kernel
  obtain ⟨⟨now, a, hnow, ha⟩, hone, hlasts, hserved, hready, hawake⟩ :=
    Sample.settled_summoned (10 ^ 13) (List.mem_cons_of_mem _ List.mem_cons_self)
  refine ⟨_, _, _, now, a, Sample.run_summoned (10 ^ 13), hnow, ha, hone, hlasts, hserved, hready,
    hawake, ?_⟩
  rintro (⟨-, hanswer, -⟩ | ⟨s, ids, -, hfired⟩)
  · rw [hanswer] at hfails
    exact nomatch Option.some.inj hfails
  · rw [hfired.answer] at hfails
    exact nomatch Option.some.inj hfails

end Office

end BuildingAlerts
