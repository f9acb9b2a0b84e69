/-
Where messages go, and with which options.

The address of a message is chosen when the message is asked for, by a notification or by an
escalation, and is kept in the entry of its delivery. Whatever is handed over later, at the first
attempt or at a retry, is the request that the entry was drawn up with. So every message goes to a
verified contact of somebody who was registered when its delivery began.

A message carries the options that its delivery was begun with, at the first attempt as at each
retry. Those of a notification are the options of the channel in the settings under which it
notifies. An escalation only knows which channels its stage turns to: it looks at no settings, and
its deliveries are begun without any options, whatever the settings hold for their channels.
-/
import BuildingAlerts.Proofs.ControlRoom.Directory
import BuildingAlerts.Proofs.ControlRoom.Owners
import BuildingAlerts.Proofs.ControlRoom.Traffic
import Mathlib.Data.List.ReduceOption

set_option autoImplicit false

namespace BuildingAlerts

open Agenda

/-! ## Whom a request turns to -/

/-- A request turns to a recipient: to one of their verified contacts for its channel. -/
structure DeliveryRequest.TurnsTo (q : DeliveryRequest) (y : Recipient) : Prop where
  recipient : q.recipientId = some y.id
  contact : ∃ k ∈ y.contacts, k.channel = q.channel ∧ k.verified = true ∧ q.address = k.value

/-- A target is a recipient of the settings on one of their channels, by the contact that is used
for it. -/
theorem Routing.of_mem_targets {r : Routing} {severity : Option Priority} {now : Moment}
    {ts : List Target} (h : r.targets severity now = .ok ts) {t : Target} (ht : t ∈ ts) :
    t.channel ∈ r.channels ∧ t.recipient ∈ r.recipients ∧
      t.recipient.contactFor t.channel.channel = some t.contact := by
  unfold targets at h
  obtain ⟨found, hfound, h⟩ := bind_eq_ok_iff.mp h
  obtain rfl := Except.ok.inj h
  obtain ⟨⟨c, y⟩, hpair, hone⟩ :=
    exists_of_mapM_eq_ok hfound (some t) (List.reduceOption_mem_iff.mp ht)
  obtain ⟨c', hc', hy⟩ := List.mem_flatMap.mp hpair
  obtain ⟨y', hy', heq⟩ := List.mem_map.mp hy
  obtain ⟨rfl, rfl⟩ := Prod.mk.inj heq
  dsimp only at hone
  unfold target? at hone
  split at hone
  · rename_i k hwants hcontact
    cases honCall : y'.isOnCall now with
    | error f =>
        rw [honCall] at hone
        exact nomatch hone
    | ok onCall =>
        rw [honCall] at hone
        cases onCall with
        | false => exact nomatch Except.ok.inj hone
        | true =>
            obtain rfl := Option.some.inj (Except.ok.inj hone)
            exact ⟨List.mem_of_mem_filter hc', hy', hcontact⟩
  · exact nomatch Except.ok.inj hone

namespace ControlRoom

variable {c : ControlRoom} {now : Moment} {r : AlertRef} {a : Alert}

/-- A notification asks for its alert on channels of its settings, and turns to their recipients. -/
theorem of_mem_asks {s : Routing} {q : DeliveryRequest} (hq : q ∈ c.asks now s r a) :
    ∃ t, q = c.requestFor r a t ∧ t.channel ∈ s.channels ∧ t.recipient ∈ s.recipients ∧
      t.recipient.contactFor t.channel.channel = some t.contact := by
  unfold asks at hq
  cases hqs : (c.requests now s r a).1 with
  | error f =>
      rw [hqs] at hq
      exact absurd hq List.not_mem_nil
  | ok qs =>
      rw [hqs] at hq
      obtain ⟨ts, us, hts, hus, rfl⟩ := requests_eq_ok hqs
      obtain ⟨t, ht, rfl⟩ := List.mem_map.mp hq
      have htargets := (admitted_sublist hus).subset ht
      rcases candidates_eq_ok hts with rfl | hts
      · exact absurd htargets List.not_mem_nil
      · exact ⟨t, rfl, Routing.of_mem_targets hts htargets⟩

/-- **The requests of a notification** turn to recipients of its settings. -/
theorem turnsTo_of_mem_asks {s : Routing} {q : DeliveryRequest} (hq : q ∈ c.asks now s r a) :
    ∃ y ∈ s.recipients, q.TurnsTo y := by
  obtain ⟨t, rfl, -, hy, hcontact⟩ := of_mem_asks hq
  obtain ⟨hk, hchannel, hverified⟩ := Recipient.of_contactFor hcontact
  exact ⟨t.recipient, hy, rfl, t.contact, hk, hchannel, hverified, rfl⟩

/-- **The requests of a stage** turn to recipients whom the room knows. -/
theorem turnsTo_of_mem_stageRequests {s : Stage} {q : DeliveryRequest}
    (hq : q ∈ c.stageRequests r a s) :
    ∃ id ∈ s.recipients, ∃ y, c.directory.get? id = some y ∧ q.TurnsTo y := by
  obtain ⟨id, hid, y, hy, -, hrecipient, hcontact⟩ := of_mem_stageRequests hq
  exact ⟨id, hid, y, hy, hrecipient, hcontact⟩

/-- **What a wave asks for.** The deliveries of a notification are those that the settings of its
configuration ask for, those of an escalation are those of the stage that comes next. -/
theorem asked_of_child (now : Instant) (c : ControlRoom) {w : Work} (hw : w.IsManaged)
    {wake : Wake Yield} {q : DeliveryRequest} {level : Int}
    (hq : .deliver q level ∈ (program now c w wake).next.children) :
    (∃ r a k m, w = .notify r ∧ c.store.find? r = some a ∧
        c.configurations.get? a.configurationId = some k ∧ q ∈ c.asks m k.routing r a ∧
        level = 0) ∨
      ∃ r pol l a s, w = .escalate r pol l ∧ c.store.find? r = some a ∧
        a.nextStage? pol (l.getD a.escalationLevel) = some s ∧ q ∈ c.stageRequests r a s ∧
        level = s.level := by
  rcases wave_of_child now c hw hq with ⟨r, rfl⟩ | ⟨r, pol, l, rfl⟩
  · have hbegin : ∃ m, .deliver q level ∈ (c.beginAnnouncement m r).next.children := by
      unfold program at hq
      split at hq
      · rename_i m _
        cases wake with
        | stopped st => exact absurd hq List.not_mem_nil
        | _ => exact ⟨m, hq⟩
      · exact absurd hq List.not_mem_nil
    obtain ⟨m, hq⟩ := hbegin
    unfold beginAnnouncement at hq
    split at hq
    · exact absurd hq List.not_mem_nil
    · rename_i k hk
      obtain ⟨a, ha, hk⟩ := Option.bind_eq_some_iff.mp hk
      rw [(beginNotification_eq ha m k.routing (.book k.policy)).2] at hq
      obtain ⟨x, hx, heq⟩ := List.mem_map.mp hq
      obtain ⟨rfl, rfl⟩ := Work.deliver.inj heq
      exact .inl ⟨r, a, k, m, rfl, ha, hk, hx, rfl⟩
  · rcases program_escalate now c r pol l wake with ⟨-, st, hstop⟩ | ⟨m, -, -, hbegin⟩
    · rw [hstop] at hq
      exact absurd hq List.not_mem_nil
    · rw [hbegin] at hq
      obtain ⟨a, s, ha, hs, hchildren⟩ := children_beginEscalation (List.ne_nil_of_mem hq)
      rw [hchildren] at hq
      obtain ⟨x, hx, heq⟩ := List.mem_map.mp hq
      obtain ⟨rfl, rfl⟩ := Work.deliver.inj heq
      exact .inr ⟨r, pol, l, a, s, rfl, ha, hs, hx, rfl⟩

/-- **Whom a wave turns to.** A notification turns to recipients in the settings of the configuration
of its alert, an escalation to recipients in the directory. -/
theorem turnsTo_of_child (now : Instant) (c : ControlRoom) {w : Work} (hw : w.IsManaged)
    {wake : Wake Yield} {q : DeliveryRequest} {level : Int}
    (hq : .deliver q level ∈ (program now c w wake).next.children) :
    ∃ y, q.TurnsTo y ∧ ((∃ r a k, w = .notify r ∧ c.store.find? r = some a ∧
        c.configurations.get? a.configurationId = some k ∧ y ∈ k.routing.recipients) ∨
      ∃ r pol l id, w = .escalate r pol l ∧ c.directory.get? id = some y) := by
  rcases asked_of_child now c hw hq with
    ⟨r, a, k, m, rfl, ha, hk, hasked, -⟩ | ⟨r, pol, l, a, s, rfl, -, -, hasked, -⟩
  · obtain ⟨y, hy, hturns⟩ := turnsTo_of_mem_asks hasked
    exact ⟨y, hturns, .inl ⟨r, a, k, rfl, ha, hk, hy⟩⟩
  · obtain ⟨id, -, y, hy, hturns⟩ := turnsTo_of_mem_stageRequests hasked
    exact ⟨y, hturns, .inr ⟨r, pol, l, id, rfl, hy⟩⟩

/-! ## What is handed over -/

/-- What work hands over when it goes on, if it does: the entry of the delivery and the message. -/
def hands? (c : ControlRoom) (now : Moment) : Work → Option (String × DeliveryRequest)
  | .deliver q level => ((c.entering now q level).handing? c.nextEntry).map (c.nextEntry, ·)
  | .attempt e => (c.handing? e).map (e, ·)
  | _ => none

/-- What is handed over goes to the line of its channel, and nothing else is written to the lines,
unless somebody hands over a message that is not logged. -/
theorem lines_goOnWith (c : ControlRoom) (now : Moment) {w : Work} (hsends : w.Sends)
    (hlogged : ∀ q, w ≠ .hand q) :
    (c.goOnWith now w .start).state.lines
      = ((c.hands? now w).map fun x => c.linesWith now x.2 (some x.1)).getD c.lines := by
  unfold hands?
  cases w with
  | deliver q level =>
      dsimp only
      rw [Option.map_map]
      exact (traffic_beginAttempt (c.entering now q level) now c.nextEntry).1
  | attempt e =>
      dsimp only
      rw [Option.map_map]
      exact (traffic_beginAttempt c now e).1
  | hand q => exact absurd rfl (hlogged q)
  | _ => exact hsends.elim

theorem hands?_of_not_sends (c : ControlRoom) (now : Moment) {w : Work} (hsends : ¬ w.Sends) :
    c.hands? now w = none := by
  unfold hands?
  split
  · exact absurd trivial hsends
  · exact absurd trivial hsends
  · rfl

end ControlRoom

namespace Office

variable {p : Premises} {h : Past} {o : Office} {ks : List Configuration}

/-- What a stint hands over, if it does: when, for which delivery, and the message. -/
def handsOver? (n : Doing) : Option (Moment × String × DeliveryRequest) :=
  match n.state.clock? n.now, n.wake with
  | none, _ | some _, .stopped _ => none
  | some m, _ => (n.state.hands? m n.body).map (m, ·)

theorem handsOver?_of_stopped {n : Doing}
    (h : n.state.clock? n.now = none ∨ ∃ st, n.wake = .stopped st) : handsOver? n = none := by
  unfold handsOver?
  split
  · rfl
  · rfl
  · rename_i m hclock hgoes
    rcases h with hnone | ⟨st, hst⟩
    · exact nomatch hnone.symm.trans hclock
    · exact absurd hst (hgoes st)

theorem handsOver?_of_goesOn {n : Doing} {m : Moment} (hm : n.state.clock? n.now = some m)
    (hgoes : ∀ st, n.wake ≠ .stopped st) :
    handsOver? n = (n.state.hands? m n.body).map (m, ·) := by
  unfold handsOver?
  rw [hm]
  cases hwake : n.wake with
  | stopped st => exact absurd hwake (hgoes st)
  | _ => rfl

/-- A stint that hands over is an attempt at a delivery: the first one, which draws up its entry,
or one more, with the request of the entry. -/
theorem of_handsOver? {n : Doing} {m : Moment} {id : String} {q : DeliveryRequest}
    (hn : handsOver? n = some (m, id, q)) :
    (draws id n = true ∧ ∃ level, n.body = .deliver q level) ∨
      n.body = .attempt id ∧ (n.state.journal.get? id).bind (·.request) = some q := by
  rcases ControlRoom.stopped_or_goesOn n.now n.state n.wake with hstop | ⟨m', hm, hgoes⟩
  · rw [handsOver?_of_stopped hstop] at hn
    cases hn
  · rw [handsOver?_of_goesOn hm hgoes] at hn
    obtain ⟨⟨id', q'⟩, hhands, heq⟩ := Option.map_eq_some_iff.mp hn
    obtain ⟨rfl, rfl, rfl⟩ : m' = m ∧ id' = id ∧ q' = q := by
      simpa only [Prod.mk.injEq] using heq
    unfold ControlRoom.hands? at hhands
    split at hhands
    · rename_i q'' level hbody
      obtain ⟨r, hr, heq⟩ := Option.map_eq_some_iff.mp hhands
      obtain ⟨rfl, rfl⟩ := Prod.mk.inj heq
      obtain rfl := ControlRoom.eq_of_handing?_entering hr
      exact .inl ⟨draws_iff.mpr ⟨⟨r, level, hbody⟩, ⟨m', hm⟩, rfl⟩, level, hbody⟩
    · rename_i e hbody
      obtain ⟨r, hr, heq⟩ := Option.map_eq_some_iff.mp hhands
      obtain ⟨rfl, rfl⟩ := Prod.mk.inj heq
      exact .inr ⟨hbody, (ControlRoom.request_of_handing? hr).1⟩
    · cases hhands

/-- **What is handed over is what the stint says.** Nothing else is written to the lines, unless
somebody hands over a message that is not logged. -/
theorem lines_turn (n : Doing) (hlogged : ∀ q, n.body ≠ .hand q) :
    (n.turn ControlRoom.program).state.lines
      = ((handsOver? n).map fun x => n.state.linesWith x.1 x.2.2 (some x.2.1)).getD
        n.state.lines := by
  unfold Stint.turn
  rcases ControlRoom.stopped_or_goesOn n.now n.state n.wake with hstop | ⟨m, hm, hgoes⟩
  · rw [handsOver?_of_stopped hstop]
    exact (ControlRoom.sameTraffic_of_stopped n.now n.state n.body hstop).lines
  · rw [handsOver?_of_goesOn hm hgoes]
    by_cases hsends : n.body.Sends
    · rw [ControlRoom.program_of_goesOn (.inl hsends) hm hgoes, Option.map_map]
      exact n.state.lines_goOnWith m hsends hlogged
    · rw [n.state.hands?_of_not_sends m hsends]
      exact ControlRoom.lines_program n.now n.state hsends n.wake

/-! ## Where requests come from -/

/-- **Whatever is handed over is the request that a delivery was begun with**: the one whose entry
it is handed over for, which keeps the request and the level of the delivery. -/
theorem Premises.Run.entry_of_handsOver? (hr : p.Run h o) {n : Doing} {e : Past}
    (hn : n :: e <:+ h) {m : Moment} {id : String} {q : DeliveryRequest}
    (hq : handsOver? n = some (m, id, q)) :
    ∃ x, (n.turn ControlRoom.program).state.journal.get? id = some x ∧ x.request = some q ∧
      ∃ d ∈ n :: e, draws id d = true ∧ d.body = .deliver q x.escalationLevel ∧
        (d = n ∨ n.body = .attempt id) := by
  have hnh : n ∈ h := hn.subset List.mem_cons_self
  rcases of_handsOver? hq with ⟨hdraws, level, hbody⟩ | ⟨hbody, hrequest⟩
  · obtain ⟨r, level', m', hbody', -, rfl, hturn⟩ := hr.turn_of_draws hnh hdraws
    obtain ⟨rfl, rfl⟩ := Work.deliver.inj (hbody.symm.trans hbody')
    obtain ⟨⟨x, hx, hrevises⟩, -⟩ := n.state.revised_beginDelivery m' q level
    refine ⟨x, hturn ▸ hx, hrevises.request, n, List.mem_cons_self, hdraws, ?_, .inl rfl⟩
    rw [hrevises.escalationLevel]
    exact hbody
  · obtain ⟨b, -, place, hb, hplace, -⟩ := hr.before hn
    obtain ⟨-, -, _, -, hof⟩ := stintAt?_eq_some hplace
    obtain ⟨x, hx, hxq⟩ := Option.bind_eq_some_iff.mp hrequest
    have hxb := hx
    rw [hof.state] at hxb
    obtain ⟨d, hd, hdraws, q', level, hdbody, hxq', -, hlevel⟩ := Premises.Run.drawnBy hb hxb
    obtain rfl := Option.some.inj (hxq.symm.trans hxq')
    rcases ControlRoom.revised_program n.now n.state (hr.mayBeDone n hnh).1 n.wake id with
      ⟨f, hf, hget⟩ | ⟨r, level', -, -, hdeliver, -⟩
    · rw [hx] at hget
      refine ⟨f x, hget, (hf x).request.trans hxq, d, List.mem_cons_of_mem n hd, hdraws, ?_,
        .inr hbody⟩
      rw [(hf x).escalationLevel, hlevel]
      exact hdbody
    · exact nomatch hbody.symm.trans hdeliver

/-- A wave has started the delivery of whatever is handed over. -/
theorem Premises.Run.wave_of_handsOver? (hr : p.Run h o) {n : Doing} {e : Past}
    (hn : n :: e <:+ h) {m : Moment} {id : String} {q : DeliveryRequest}
    (hq : handsOver? n = some (m, id, q)) :
    ∃ x, (n.turn ControlRoom.program).state.journal.get? id = some x ∧ x.request = some q ∧
      ∃ w ∈ e, ∃ d ∈ n :: e, w.Starts ControlRoom.program d.task d.body ∧ draws id d = true ∧
        d.body = .deliver q x.escalationLevel ∧ (d = n ∨ n.body = .attempt id) := by
  obtain ⟨x, hx, hxq, d, hd, hdraws, hbody, hwhen⟩ := hr.entry_of_handsOver? hn hq
  obtain ⟨f, hdf⟩ := History.exists_suffix_of_mem hd
  obtain ⟨w, hw, -, -, hstarts⟩ :=
    hr.origin (hdf.trans hn) (by rw [hbody]; trivial) (by rw [hbody]; exact fun h => h)
  refine ⟨x, hx, hxq, w, ?_, d, hd, hstarts, hdraws, hbody, hwhen⟩
  rcases List.suffix_cons_iff.mp hdf with heq | hlater
  · obtain ⟨-, rfl⟩ := List.cons.inj heq
    exact hw
  · exact hlater.subset (List.mem_cons_of_mem d hw)

/-- The stints before one, with what was put in place until then. -/
theorem Premises.Filed.before (hf : p.Filed ks h o) {s : Doing} {e : Past} (hs : s :: e <:+ h) :
    ∃ since ks' b place, ks = since ++ ks' ∧ p.Filed ks' e b ∧ b.stintAt? place = some s := by
  induction hf with
  | idle => exact absurd (List.suffix_nil.mp hs) (List.cons_ne_nil s e)
  | @step ks h b c place hf hb ih =>
      cases hd : b.stintAt? place with
      | none =>
          rw [hd] at hs
          exact ih hs
      | some d =>
          rw [hd] at hs
          rcases List.suffix_cons_iff.mp hs with heq | hs
          · obtain ⟨rfl, rfl⟩ := List.cons.inj heq
            exact ⟨[], ks, b, place, rfl, hf, hd⟩
          · exact ih hs
  | pass _ _ _ ih => exact ih hs
  | ask _ q ih =>
      obtain ⟨since, ks', b, place, rfl, hb, hplace⟩ := ih hs
      exact ⟨_, ks', b, place, (List.append_assoc ..).symm, hb, hplace⟩

/-! ## Who is registered -/

/-- A recipient is listed in the settings under which a stint notifies of an alert. -/
def ListsIn (w : Doing) (y : Recipient) : Prop :=
  ∃ r a k, w.body = .notify r ∧ w.state.store.find? r = some a ∧
    w.state.configurations.get? a.configurationId = some k ∧ y ∈ k.routing.recipients

/-- An escalation finds a recipient in the directory under an identifier. -/
def LooksUp (w : Doing) (id : String) (y : Recipient) : Prop :=
  (∃ r pol level, w.body = .escalate r pol level) ∧ w.state.directory.get? id = some y

/-- A recipient was registered when a delivery `d` began after a past `e`. The wave that started the
delivery, in the same instant, has read them off the settings under which it notified, or has found
them in the directory. In the latter case the directory still knows them when the delivery begins,
unless a configuration that lists the identifier was put in place since the wave began. -/
inductive Premises.Registered (p : Premises) (e : Past) (d : Doing) (y : Recipient) : Prop where
  | listed {w : Doing} (hw : w ∈ e) (hstarts : w.Starts ControlRoom.program d.task d.body)
      (hnow : w.now = d.now) (hlists : ListsIn w y)
  | known {w : Doing} {id : String} {since ks : List Configuration} {e' : Past} {b b' : Office}
      (hw : w :: e' <:+ e) (hstarts : w.Starts ControlRoom.program d.task d.body)
      (hnow : w.now = d.now) (hlooks : LooksUp w id y) (hb : p.Filed ks e' b)
      (hw' : b.state = w.state) (hb' : p.Filed (since ++ ks) e b') (hd : b'.state = d.state)
      (hstill : (∀ k ∈ since, k.routing.listed? id = none) →
        d.state.directory.get? id = some y)

/-- Whoever was known is so for as long as nobody else is listed under the identifier. -/
theorem Premises.Filed.still_known {since : List Configuration} {e' : Past} {b : Office} {id : String}
    {y : Recipient} (hb : p.Filed ks e' b) (hf : p.Filed (since ++ ks) h o)
    (hy : b.state.directory.get? id = some y)
    (hsince : ∀ k ∈ since, k.routing.listed? id = none) : o.state.directory.get? id = some y := by
  have hnone : lastListed? since id = none := List.findSome?_eq_none_iff.mpr hsince
  have hlast : lastListed? (since ++ ks) id = lastListed? ks id := by
    unfold lastListed? at hnone ⊢
    rw [List.findSome?_append, hnone]
    rfl
  rw [hf.known.1, hlast, ← hb.known.1, hy]

/-- **A delivery turns to somebody who is registered when it begins.** -/
theorem Premises.Filed.registered (hf : p.Filed ks h o) {d : Doing} {e : Past} (hd : d :: e <:+ h)
    {q : DeliveryRequest} {level : Int} (hbody : d.body = .deliver q level) :
    ∃ y, q.TurnsTo y ∧ p.Registered e d y := by
  obtain ⟨w, hw, -, hnow, hstarts⟩ :=
    hf.run.origin hd (by rw [hbody]; trivial) (by rw [hbody]; exact id)
  have hwh : w ∈ h := hd.subset (List.mem_cons_of_mem d hw)
  obtain ⟨i, hi, -⟩ := id hstarts
  have hchild := List.mem_of_getElem? hi
  rw [hbody] at hchild
  obtain ⟨y, hturns, ⟨r, a, k, hwbody, ha, hk, hy⟩ | ⟨r, pol, l, id, hwbody, hy⟩⟩ :=
    ControlRoom.turnsTo_of_child w.now w.state (hf.run.mayBeDone w hwh).1 hchild
  · exact ⟨y, hturns, .listed hw hstarts hnow ⟨r, a, k, hwbody, ha, hk, hy⟩⟩
  · obtain ⟨-, ksd, b', place', -, hb', hplace'⟩ := hf.before hd
    obtain ⟨e', he'⟩ := History.exists_suffix_of_mem hw
    obtain ⟨since, ksw, b, place, rfl, hb, hplace⟩ := hb'.before he'
    obtain ⟨-, -, _, -, hofd⟩ := stintAt?_eq_some hplace'
    obtain ⟨-, -, _, -, hofw⟩ := stintAt?_eq_some hplace
    refine ⟨y, hturns, .known he' hstarts hnow ⟨⟨r, pol, l, hwbody⟩, hy⟩ hb hofw.state.symm hb'
      hofd.state.symm fun hsince => ?_⟩
    rw [hofw.state] at hy
    rw [hofd.state]
    exact hb.still_known hb' hy hsince

namespace Sample

/-- A retry that hands a message over. -/
def isResending (n : Doing) : Bool :=
  match n.body with
  | .attempt _ => (handsOver? n).isSome
  | _ => false

theorem of_isResending {n : Doing} (hn : isResending n = true) :
    ∃ m id q, n.body = .attempt id ∧ handsOver? n = some (m, id, q) := by
  unfold isResending at hn
  split at hn
  · rename_i id hbody
    obtain ⟨⟨m, id', q⟩, hq⟩ := Option.isSome_iff_exists.mp hn
    rcases of_handsOver? hq with ⟨-, level, hdeliver⟩ | ⟨hattempt, -⟩
    · rw [hbody] at hdeliver
      cases hdeliver
    · exact ⟨m, id', q, hattempt, hq⟩
  · exact absurd hn Bool.false_ne_true

end Sample

end Office

/-! ## Options in settings -/

/-- The options of a channel in some settings, if they hold the channel once. -/
def Routing.options? (r : Routing) (channel : Channel) : Option (List (String × Json)) :=
  match r.channels.filter fun x => x.channel = channel with
  | [x] => some x.options
  | _ => none

/-- Settings that hold a channel once hold it with its options. -/
theorem Routing.options_eq {r : Routing} {x : ChannelSetting} {options : List (String × Json)}
    (hx : x ∈ r.channels) (h : r.options? x.channel = some options) : x.options = options := by
  have hmem : x ∈ r.channels.filter fun y => y.channel = x.channel :=
    List.mem_filter.mpr ⟨hx, decide_eq_true rfl⟩
  unfold options? at h
  split at h
  · rename_i y hone
    rw [hone] at hmem
    obtain rfl := List.mem_singleton.mp hmem
    exact Option.some.inj h
  · exact nomatch h

namespace ControlRoom

/-- The options that the configuration of an alert holds for the channel of a request, if it holds the
channel once. -/
def optionsFor? (c : ControlRoom) (q : DeliveryRequest) : Option (List (String × Json)) := do
  let a ← c.store.find? q.alert
  let k ← c.configurations.get? a.configurationId
  k.routing.options? q.channel

variable {c : ControlRoom} {now : Moment} {r : AlertRef} {a : Alert} {q : DeliveryRequest}

/-- **The requests of a notification** carry the options of a channel of its settings. -/
theorem options_of_mem_asks {s : Routing} (hq : q ∈ c.asks now s r a) :
    q.alert = r ∧ ∃ x ∈ s.channels, x.channel = q.channel ∧ q.options = x.options := by
  obtain ⟨t, rfl, hx, -, -⟩ := of_mem_asks hq
  exact ⟨rfl, t.channel, hx, rfl, rfl⟩

/-- **The requests of a stage** carry no options. -/
theorem options_of_mem_stageRequests {s : Stage} (hq : q ∈ c.stageRequests r a s) :
    q.alert = r ∧ q.options = [] := by
  refine ⟨alert_of_stageRequests hq, ?_⟩
  obtain ⟨id, -, hq⟩ := List.mem_flatMap.mp hq
  obtain ⟨ch, -, hq⟩ := List.mem_filterMap.mp hq
  unfold stageRequest? at hq
  obtain ⟨y, -, hq⟩ := Option.bind_eq_some_iff.mp hq
  obtain ⟨-, -, hq⟩ := Option.bind_eq_some_iff.mp hq
  obtain ⟨k, -, hq⟩ := Option.bind_eq_some_iff.mp hq
  rw [← Option.some.inj hq]

end ControlRoom

namespace Office

variable {p : Premises} {h : Past} {o : Office}

/-! ## Options on the way -/

/-- A wave notifies of an alert and asks for a delivery with the options of a channel in the settings
under which it notifies: those that the channel has there if the settings hold it once. -/
structure Configured (w : Doing) (q : DeliveryRequest) : Prop where
  notifies : w.body = .notify q.alert
  held : ∃ a k, w.state.store.find? q.alert = some a ∧
    w.state.configurations.get? a.configurationId = some k ∧
    ∃ x ∈ k.routing.channels, x.channel = q.channel ∧ q.options = x.options
  once : ∀ options, w.state.optionsFor? q = some options → q.options = options

/-- A wave asks for a delivery without options: it escalates the alert. -/
def Bare (w : Doing) (q : DeliveryRequest) : Prop :=
  (∃ pol level, w.body = .escalate q.alert pol level) ∧ q.options = []

/-- **A wave asks for its deliveries** with the options of its settings if it notifies, and without
any if it escalates. -/
theorem configured_or_bare {w : Doing} (hw : w.body.IsManaged) {t : TaskId} {q : DeliveryRequest}
    {level : Int} (hstarts : w.Starts ControlRoom.program t (.deliver q level)) :
    Configured w q ∨ Bare w q := by
  obtain ⟨i, hi, -⟩ := hstarts
  rcases ControlRoom.asked_of_child w.now w.state hw (List.mem_of_getElem? hi) with
    ⟨r, a, k, m, hbody, ha, hk, hasked, -⟩ | ⟨r, pol, l, a, s, hbody, -, -, hasked, -⟩
  · obtain ⟨rfl, x, hx, hchannel, hoptions⟩ := ControlRoom.options_of_mem_asks hasked
    refine .inl ⟨hbody, ⟨a, k, ha, hk, x, hx, hchannel, hoptions⟩, fun options hone => ?_⟩
    have hone : k.routing.options? x.channel = some options := by
      rw [hchannel, ← hone]
      unfold ControlRoom.optionsFor?
      rw [ha, Option.bind_eq_bind, Option.bind_some, hk]
      rfl
    exact hoptions.trans (Routing.options_eq hx hone)
  · obtain ⟨rfl, hoptions⟩ := ControlRoom.options_of_mem_stageRequests hasked
    exact .inr ⟨⟨pol, l, hbody⟩, hoptions⟩

/-- **Which options a message is handed over with.** What a stint hands over goes to the line of its
channel as it is. It was asked for by a wave, at whose start the delivery began, in this stint or
earlier: with the options that the settings hold for its channel if the wave notified of the alert,
and without options if it was an escalation. -/
theorem Premises.Run.options_handed (hr : p.Run h o) {n : Doing} {e : Past} (hn : n :: e <:+ h)
    {m : Moment} {id : String} {q : DeliveryRequest} (hq : handsOver? n = some (m, id, q)) :
    (n.turn ControlRoom.program).state.lines = n.state.linesWith m q (some id) ∧
      ∃ w ∈ e, ∃ d ∈ n :: e, w.Starts ControlRoom.program d.task d.body ∧ draws id d = true ∧
        (∃ level, d.body = .deliver q level) ∧ (d = n ∨ n.body = .attempt id) ∧
        (Configured w q ∨ Bare w q) := by
  have hmanaged := (hr.mayBeDone n (hn.subset List.mem_cons_self)).1
  refine ⟨?_, ?_⟩
  · rw [lines_turn n fun q hbody => by rw [hbody] at hmanaged; exact hmanaged, hq]
    rfl
  · obtain ⟨x, -, -, w, hw, d, hd, hstarts, hdraws, hbody, hwhen⟩ := hr.wave_of_handsOver? hn hq
    have hwh : w ∈ h := ((List.suffix_cons n e).trans hn).subset hw
    exact ⟨w, hw, d, hd, hstarts, hdraws, ⟨_, hbody⟩, hwhen,
      configured_or_bare (hr.mayBeDone w hwh).1 (hbody ▸ hstarts)⟩

/-! ## A letterhead -/

namespace Sample

/-- A configuration whose mails name somebody to reply to, and whose alerts are escalated. -/
def letterhead : Configuration :=
  { configuration "ward" .standard (some ladder) with
    routing := { routing .standard with
      channels := [⟨.email, true, [("reply_to", .text "ward@example.org")], [.medium]⟩] } }

/-- The keeper is told of an alert, once more after a second since the first mail did not arrive, and
at the first stage of the ladder. -/
def letters : Past × Office :=
  mailbox.play (.ask (.addConfiguration letterhead) ::
    .ask (.pass snapshot) :: List.replicate 20 (.turn 0) ++
    .wait Instant.perSecond :: List.replicate 20 (.turn 0) ++
    .wait (62 * Instant.perSecond) :: List.replicate 20 (.turn 0))

theorem run_letters : mailbox.Run letters.1 letters.2 :=
  mailbox.run_play _

/-- A stint that hands a message over without options although the configuration of its alert holds
some for the channel. -/
def strips (n : Doing) : Bool :=
  (handsOver? n).any fun x =>
    (n.state.optionsFor? x.2.2).any fun options => x.2.2.options.isEmpty && !options.isEmpty

theorem of_strips {n : Doing} (hn : strips n = true) :
    ∃ m id q options, handsOver? n = some (m, id, q) ∧ n.state.optionsFor? q = some options ∧
      q.options ≠ options := by
  obtain ⟨⟨m, id, q⟩, hq, hn⟩ := (Option.any_eq_true ..).mp hn
  obtain ⟨options, hoptions, hn⟩ := (Option.any_eq_true ..).mp hn
  rw [Bool.and_eq_true, List.isEmpty_iff, Bool.not_eq_true', List.isEmpty_eq_false_iff] at hn
  exact ⟨m, id, q, options, hq, hoptions, fun heq => hn.2 (heq.symm.trans hn.1)⟩

end Sample

set_option maxRecDepth 100000 in
/-- The second letter goes out as the first one did. -/
theorem options_handed_letters : ∃ n e m id q, n :: e <:+ Sample.letters.1 ∧ n.body = .attempt id ∧
    handsOver? n = some (m, id, q) ∧
    (n.turn ControlRoom.program).state.lines = n.state.linesWith m q (some id) ∧
      ∃ w ∈ e, ∃ d ∈ n :: e, w.Starts ControlRoom.program d.task d.body ∧ draws id d = true ∧
        (∃ level, d.body = .deliver q level) ∧ (d = n ∨ n.body = .attempt id) ∧
        (Configured w q ∨ Bare w q) := by
  have hfound : Sample.letters.1.any Sample.isResending = true := by decide +kernel
  obtain ⟨n, hn, hresending⟩ := List.any_eq_true.mp hfound
  obtain ⟨m, id, q, hbody, hq⟩ := Sample.of_isResending hresending
  obtain ⟨e, he⟩ := History.exists_suffix_of_mem hn
  exact ⟨n, e, m, id, q, he, hbody, hq, Sample.run_letters.options_handed he hq⟩

set_option maxRecDepth 100000 in
/-- The letter of the escalation does not carry the options that the configuration holds. -/
theorem stripped_letters : ¬ ∀ (p : Premises) (h : Past) (o : Office), p.Run h o → ∀ n ∈ h,
    ∀ m id q options, handsOver? n = some (m, id, q) → n.state.optionsFor? q = some options →
      q.options = options := by
  intro hall
  have hfound : Sample.letters.1.any Sample.strips = true := by decide +kernel
  obtain ⟨n, hn, hstrips⟩ := List.any_eq_true.mp hfound
  obtain ⟨m, id, q, options, hq, hoptions, hne⟩ := Sample.of_strips hstrips
  exact hne (hall _ _ _ Sample.run_letters n hn m id q options hq hoptions)

end Office

end BuildingAlerts
