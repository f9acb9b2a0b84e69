/-
What notifications cost.

A notification is held back, fails, finds nobody or is refused, and then it costs nothing. Otherwise
it starts deliveries, and what it costs is one entry for its configuration, or one for each recipient
to whom a delivery goes, and it is noted as the last one of its rule. No other work costs anything, so
the limiter holds no entry that was not paid for with a delivery.
-/
import BuildingAlerts.Proofs.ControlRoom.Directory
import BuildingAlerts.Proofs.ControlRoom.QuietHours
import BuildingAlerts.Proofs.ControlRoom.Traffic
import BuildingAlerts.Proofs.Notification.Spending

set_option autoImplicit false

namespace BuildingAlerts

open Agenda

namespace ControlRoom

variable {c : ControlRoom} {now : Moment} {s : Routing} {a : Alert} {alert : AlertRef}
  {ts : List Target} {keys : List CounterKey} {qs : List DeliveryRequest}

/-! ## What is charged -/

/-- What the limits are asked about some targets of an alert. -/
def callFor (s : Routing) (a : Alert) (now : Moment) (ts : List Target) : Limiter.Call :=
  ⟨s.limits, ⟨a.configurationId, a.ruleId⟩, firsts (ts.map (·.recipient.id)), now⟩

theorem ruling_eq (c : ControlRoom) (now : Moment) (s : Routing) (a : Alert) (ts : List Target) :
    c.ruling now s a ts = (callFor s a now ts).on c.limiter :=
  rfl

/-- The keys that a notification of an alert is charged to. -/
def charges (c : ControlRoom) (now : Moment) (s : Routing) (a : Alert) : List CounterKey :=
  match c.candidates now s a with
  | .error _ | .ok [] => []
  | .ok ts => (callFor s a now ts).recorded c.limiter

/-- What is charged for the requests that a notification of an alert makes under given settings:
nothing for none, and otherwise the configuration once, or each recipient of a request once. -/
inductive Pays (s : Routing) (a : Alert) : List CounterKey → List DeliveryRequest → Prop where
  | nothing : Pays s a [] []
  | once {qs : List DeliveryRequest} (hscope : s.limits.scope = .configuration) (hne : qs ≠ []) :
      Pays s a [⟨.configuration, a.configurationId⟩] qs
  | each {keys : List CounterKey} {qs : List DeliveryRequest} (hscope : s.limits.scope = .recipient)
      (hne : keys ≠ []) (hnodup : keys.Nodup)
      (hkeys : ∀ key, key ∈ keys ↔ ∃ q ∈ qs, ∃ id, q.recipientId = some id ∧ key = ⟨.recipient, id⟩) :
      Pays s a keys qs

/-- Something is charged if and only if there is a request. -/
theorem Pays.ne_nil_iff (h : Pays s a keys qs) : keys ≠ [] ↔ qs ≠ [] := by
  cases h with
  | nothing => exact ⟨fun h => absurd rfl h, fun h => absurd rfl h⟩
  | once _ hne => exact ⟨fun _ => hne, fun _ => List.cons_ne_nil _ _⟩
  | each _ hne _ hkeys =>
      refine ⟨fun _ => ?_, fun _ => hne⟩
      obtain ⟨key, hkey⟩ := List.exists_mem_of_ne_nil keys hne
      obtain ⟨q, hq, -⟩ := (hkeys key).mp hkey
      exact List.ne_nil_of_mem hq

/-- Admitted recipients are charged for the requests to them. -/
theorem pays_charges {ids : List String} (hids : ids.Sublist (firsts (ts.map (·.recipient.id)))) :
    Pays s a ((callFor s a now ts).charges ids)
      ((ts.filter fun t => ids.contains t.recipient.id).map (c.requestFor alert a)) := by
  cases hempty : ids.isEmpty with
  | true =>
      obtain rfl := List.isEmpty_iff.mp hempty
      have hnone : (ts.filter fun t => ([] : List String).contains t.recipient.id) = [] :=
        List.filter_eq_nil_iff.mpr fun t _ => Bool.false_ne_true
      rw [hnone, List.isEmpty_iff.mp ((callFor s a now ts).isEmpty_charges [])]
      exact .nothing
  | false =>
      have hne : ids ≠ [] := fun h => nomatch (List.isEmpty_iff.mpr h).symm.trans hempty
      -- every admitted recipient is that of a target
      have htarget : ∀ id ∈ ids, ∃ t ∈ ts, t.recipient.id = id := fun id hid =>
        List.mem_map.mp (mem_firsts.mp (hids.subset hid))
      unfold Limiter.Call.charges
      cases hscope : (callFor s a now ts).limits.scope with
      | configuration =>
          dsimp only
          rw [hempty]
          refine .once hscope fun hnil => ?_
          obtain ⟨id, hid⟩ := List.exists_mem_of_ne_nil ids hne
          obtain ⟨t, ht, rfl⟩ := htarget id hid
          have hmem : t ∈ ts.filter fun t => ids.contains t.recipient.id :=
            List.mem_filter.mpr ⟨ht, List.contains_iff_mem.mpr hid⟩
          rw [List.map_eq_nil_iff.mp hnil] at hmem
          exact absurd hmem List.not_mem_nil
      | recipient =>
          refine .each hscope (mt List.map_eq_nil_iff.mp hne) ?_ fun key => ⟨fun hkey => ?_, ?_⟩
          · exact ((nodup_firsts _).sublist hids).map fun r r' h => (CounterKey.mk.inj h).2
          · obtain ⟨id, hid, rfl⟩ := List.mem_map.mp hkey
            obtain ⟨t, ht, rfl⟩ := htarget id hid
            refine ⟨c.requestFor alert a t, List.mem_map_of_mem ?_, t.recipient.id, rfl, rfl⟩
            exact List.mem_filter.mpr ⟨ht, List.contains_iff_mem.mpr hid⟩
          · rintro ⟨q, hq, id, hid, rfl⟩
            obtain ⟨t, ht, rfl⟩ := List.mem_map.mp hq
            obtain rfl := Option.some.inj hid
            exact List.mem_map_of_mem (List.contains_iff_mem.mp (List.mem_filter.mp ht).2)

/-! ## Notifications -/

/-- A notification that fails or finds nobody before the limits are asked leaves the room alone. -/
theorem requests_of_nobody (alert : AlertRef)
    (h : (∃ f, c.candidates now s a = .error f) ∨ c.candidates now s a = .ok []) :
    (c.requests now s alert a).2 = c ∧ c.asks now s alert a = [] := by
  unfold asks requests
  rcases h with ⟨f, h⟩ | h
  · rw [h]
    exact ⟨rfl, rfl⟩
  · rw [h]
    exact ⟨rfl, rfl⟩

/-- A notification that finds somebody asks the limits. -/
theorem requests_of_somebody (alert : AlertRef) (h : c.candidates now s a = .ok ts) (hne : ts ≠ []) :
    (c.requests now s alert a).2.limiter = (c.ruling now s a ts).2 ∧
      c.asks now s alert a = match (c.ruling now s a ts).1 with
        | .error _ => []
        | .ok ids => (ts.filter fun t => ids.contains t.recipient.id).map (c.requestFor alert a) := by
  unfold asks requests
  rw [h]
  dsimp only
  rw [admitted_eq hne]
  refine ⟨rfl, ?_⟩
  cases (c.ruling now s a ts).1 with
  | error f => rfl
  | ok ids => rfl

/-- **What a notification costs.** Its keys are charged, and they pay for its requests. -/
theorem charged_requests (hc : c.OnOneClock) (hnow : now.offset = c.opened.offset)
    (alert : AlertRef) :
    Limiter.Charged now ⟨a.configurationId, a.ruleId⟩ (c.charges now s a) c.limiter
        (c.requests now s alert a).2.limiter ∧
      Pays s a (c.charges now s a) (c.asks now s alert a) := by
  unfold charges
  split
  · rename_i f hf
    obtain ⟨hstate, hasks⟩ := requests_of_nobody alert (.inl ⟨f, hf⟩)
    rw [hstate, hasks]
    exact ⟨Limiter.charged_rfl _ _ _, .nothing⟩
  · rename_i hnil
    obtain ⟨hstate, hasks⟩ := requests_of_nobody alert (.inr hnil)
    rw [hstate, hasks]
    exact ⟨Limiter.charged_rfl _ _ _, .nothing⟩
  · rename_i ts hne hts
    obtain ⟨hlimiter, hasks⟩ := requests_of_somebody alert hts hne
    have hsomebody : (callFor s a now ts).recipients ≠ [] := by
      obtain ⟨t, ht⟩ := List.exists_mem_of_ne_nil ts hne
      exact List.ne_nil_of_mem (mem_firsts.mpr (List.mem_map_of_mem ht))
    obtain ⟨hcharged, hruling⟩ := Limiter.Call.on_charged (c := callFor s a now ts)
      (congrArg Option.isSome hnow) hc (nodup_firsts _) hsomebody
    rw [hlimiter, hasks, ruling_eq]
    refine ⟨hcharged, ?_⟩
    rcases hruling with ⟨f, hf, hnone⟩ | ⟨ids, hids, hsub, hcharges⟩
    · rw [hf, hnone]
      exact .nothing
    · rw [hids, hcharges]
      exact pays_charges hsub

/-- A notification is refused: it is held back by the quiet hours, a channel that it needs has no
line, nobody is eligible, or the limits admit nobody, for a limit that is used up or for a similar
alert a short while ago. -/
inductive Refused (c : ControlRoom) (now : Moment) (s : Routing) (a : Alert) : Prop where
  | held (h : s.quietHours.suppresses a.id a.severity now = .ok true)
  | unsupported {channel : Channel} (h : c.missingLine? s a = some channel)
  | nobody (h : s.targets a.severity now = .ok [])
  | cooling (h : Limiter.isCooling s.limits now
      (c.limiter.lastSimilar ⟨a.configurationId, a.ruleId⟩) = .ok true)
  | limited {ts : List Target} (hts : c.candidates now s a = .ok ts)
      (h : (c.ruling now s a ts).1 = .ok [])

/-- The ways to go before the limits are asked. -/
theorem candidates_cases (c : ControlRoom) (now : Moment) (s : Routing) (a : Alert) :
    (∃ f, c.candidates now s a = .error f) ∨ c.candidates now s a = .ok [] ∨
      s.quietHours.suppresses a.id a.severity now = .ok false ∧ c.missingLine? s a = none ∧
        c.candidates now s a = s.targets a.severity now := by
  unfold candidates
  cases s.quietHours.suppresses a.id a.severity now with
  | error f => exact .inl ⟨f, rfl⟩
  | ok held =>
      cases held with
      | true => exact .inr (.inl rfl)
      | false =>
          cases c.missingLine? s a with
          | none => exact .inr (.inr ⟨rfl, rfl, rfl⟩)
          | some channel => exact .inl ⟨_, rfl⟩

/-- **Whoever is refused asks for nothing.** -/
theorem asks_of_refused (alert : AlertRef) (h : c.Refused now s a) :
    c.asks now s alert a = [] := by
  rcases candidates_cases c now s a with hf | hnil | ⟨hfree, hlines, htargets⟩
  · exact (requests_of_nobody alert (.inl hf)).2
  · exact (requests_of_nobody alert (.inr hnil)).2
  · have hruled : ∀ ts, c.candidates now s a = .ok ts → (c.ruling now s a ts).1 = .ok [] →
        c.asks now s alert a = [] := by
      intro ts hts hruling
      by_cases hne : ts = []
      · exact (requests_of_nobody alert (.inr (hne ▸ hts))).2
      · rw [(requests_of_somebody alert hts hne).2, hruling]
        exact List.map_eq_nil_iff.mpr (List.filter_eq_nil_iff.mpr fun t _ => Bool.false_ne_true)
    cases h with
    | held h => exact nomatch h.symm.trans hfree
    | unsupported h => exact nomatch h.symm.trans hlines
    | nobody h => exact (requests_of_nobody alert (.inr (htargets.trans h))).2
    | cooling h =>
        cases hts : c.candidates now s a with
        | error f => exact (requests_of_nobody alert (.inl ⟨f, hts⟩)).2
        | ok ts =>
            refine hruled ts hts ?_
            rw [ruling_eq, Limiter.Call.on_of_cooling (c := callFor s a now ts) h]
    | limited hts h => exact hruled _ hts h

end ControlRoom

namespace Office

variable {p : Premises} {h : Past} {o : Office} {n : Doing}

/-! ## Calls to notify -/

/-- What may be asked of an office: a request, or to notify of an alert under given settings. -/
inductive Asked (o : Office) : Office → Prop where
  | request (q : Request) : Asked o (serve o q)
  | route (id : String) (s : Routing) :
      Asked o (Agenda.launch o .caller (.route (o.ref id) s))

/-- What an office may come to that is asked for anything at any time, and the stints on the way. -/
abbrev Premises.CallRun (p : Premises) : Past → Office → Prop :=
  Agenda.Run ControlRoom.program Asked (.idle p.room)

theorem Asked.outside {b : Office} (hn : Agenda.Numbered o) (hb : Asked o b) :
    Agenda.Outside o b := by
  cases hb with
  | request q => exact (served_serve o q).outside hn
  | route id s => exact ⟨o.state, rebooked_launch (w := .caller) hn (fun _ h => nomatch h) _⟩

theorem Premises.CallRun.keeps (hr : p.CallRun h o) : Sound ControlRoom.program none h o :=
  hr.sound (sound_idle _ _) Asked.outside

/-- The limiter is asked on the clock of the room. -/
theorem Premises.CallRun.onOneClock (hr : p.CallRun h o) (hn : n ∈ h) : n.state.OnOneClock := by
  have hasked : ∀ {a b : Office}, Agenda.Numbered a → Asked a b → a.state.Later b.state := by
    intro a b ha hb
    cases hb with
    | request q => exact (kept_serve ha q).toLater
    | route id s => exact .rfl
  have hlater := hr.rises (R := ControlRoom.Later) (fun _ => .rfl) .trans (sound_idle _ _)
    Asked.outside (fun now c w wake => ControlRoom.later_program now c w wake) hasked
  exact (hlater.2.1 n hn).1.clock (Limiter.onOneClock_fresh _)

/-- Nothing that is asked for is written into the limiter. -/
theorem limiter_serve (hn : Agenda.Numbered o) (q : Request) :
    (serve o q).state.limiter = o.state.limiter := by
  have hsettle : ∀ (id : String) (f : Alert → Option Alert),
      (o.settleAlert id f).2.state.limiter = o.state.limiter := by
    intro id f
    unfold settleAlert
    split
    · rfl
    · dsimp only
      rw [(rebooked_cancelAlert _ id).state]
      rfl
  cases q with
  | addConfiguration k => exact (ControlRoom.equipment_addConfiguration _ k).limiter
  | addFromTemplate key u => exact (ControlRoom.equipment_addFromTemplate _ _ key u).limiter
  | updateConfiguration id ch => exact (ControlRoom.equipment_updateConfiguration _ _ id ch).limiter
  | setStatus id s => rfl
  | setRuleEnabled id ruleId on =>
      show (o.state.setRuleEnabled o.clock id ruleId on).limiter = _
      unfold ControlRoom.setRuleEnabled
      split
      · rfl
      · rfl
  | openLine channel carrier => rfl
  | pass s => rfl
  | retry entries most => rfl
  | escalate id p level => rfl
  | acknowledge id who => exact hsettle id _
  | resolve id who notes => exact hsettle id _
  | markFalsePositive id who => exact hsettle id _
  | bookRetries entries =>
      exact congrArg (·.limiter) (rebooked_bookAll (o.state.retryAppointments o.clock entries).1 hn).state
  | bookEscalation id p =>
      show (o.bookEscalation id p).2.state.limiter = _
      unfold bookEscalation
      split
      · rfl
      · rename_i m _
        exact congrArg (·.limiter) (rebooked_bookAll m.toList hn).state
  | shutdown => exact congrArg (·.limiter) (rebooked_cancelBookings o).state

/-- A stint begins a notification of an alert under some settings at a moment: those that somebody
gave, or those of the configuration of a new alert. -/
structure Opens (n : Doing) (m : Moment) (r : AlertRef) (s : Routing) (a : Alert) : Prop where
  clock : n.state.clock? n.now = some m
  goes : ∀ st, n.wake ≠ .stopped st
  alert : n.state.store.find? r = some a
  call : n.body = .route r s ∨ n.body = .notify r ∧
    ∃ k, n.state.configurations.get? a.configurationId = some k ∧ k.routing = s

theorem Opens.asksLimits {m : Moment} {r : AlertRef} {s : Routing} {a : Alert}
    (ho : Opens n m r s a) : n.body.AsksLimits := by
  rcases ho.call with hbody | ⟨hbody, -⟩
  · rw [hbody]
    trivial
  · rw [hbody]
    trivial

/-- A stint that begins a notification goes on as one under its settings. -/
theorem Opens.eq_begin {m : Moment} {r : AlertRef} {s : Routing} {a : Alert}
    (ho : Opens n m r s a) :
    ∃ sequel, n.turn ControlRoom.program = n.state.beginNotification m r s sequel := by
  unfold Stint.turn
  rw [ControlRoom.program_of_goesOn (.inr ho.asksLimits) ho.clock ho.goes]
  rcases ho.call with hbody | ⟨hbody, k, hk, rfl⟩
  · rw [hbody]
    exact ⟨.none, rfl⟩
  · have hknown : ((n.state.store.find? r).bind fun a =>
        n.state.configurations.get? a.configurationId) = some k := by
      rw [ho.alert]
      exact hk
    rw [hbody]
    refine ⟨.book k.policy, ?_⟩
    show n.state.beginAnnouncement m r = _
    unfold ControlRoom.beginAnnouncement
    rw [hknown]

/-- Who begins a notification starts a delivery for each of its requests. -/
theorem Opens.turn {m : Moment} {r : AlertRef} {s : Routing} {a : Alert} (ho : Opens n m r s a) :
    (n.turn ControlRoom.program).state = (n.state.requests m s r a).2 ∧
      (n.turn ControlRoom.program).next.children
        = (n.state.asks m s r a).map fun q => .deliver q 0 := by
  obtain ⟨sequel, hturn⟩ := ho.eq_begin
  rw [hturn]
  exact ControlRoom.beginNotification_eq ho.alert m s sequel

/-- Whoever begins no notification leaves the limiter alone. -/
theorem limiter_of_not_opens (hno : ¬ ∃ m r s a, Opens n m r s a) :
    (n.turn ControlRoom.program).state.limiter = n.state.limiter := by
  unfold Stint.turn
  by_cases hasks : n.body.AsksLimits
  · rcases ControlRoom.stopped_or_goesOn n.now n.state n.wake with hstop | ⟨m, hm, hgoes⟩
    · exact (ControlRoom.sameTraffic_of_stopped n.now n.state n.body hstop).limiter
    · rw [ControlRoom.program_of_goesOn (.inr hasks) hm hgoes]
      cases hbody : n.body with
      | route r s =>
          have hnone : n.state.store.find? r = none :=
            Option.eq_none_iff_forall_ne_some.mpr fun a ha =>
              hno ⟨m, r, s, a, hm, hgoes, ha, .inl hbody⟩
          show (n.state.beginNotification m r s .none).state.limiter = _
          rw [ControlRoom.beginNotification_of_none hnone]
          rfl
      | notify r =>
          have hnone : ((n.state.store.find? r).bind fun a =>
              n.state.configurations.get? a.configurationId) = none := by
            refine Option.eq_none_iff_forall_ne_some.mpr fun k hk => ?_
            obtain ⟨a, ha, hk⟩ := Option.bind_eq_some_iff.mp hk
            exact hno ⟨m, r, k.routing, a, hm, hgoes, ha, .inr ⟨hbody, k, hk, rfl⟩⟩
          show (n.state.beginAnnouncement m r).state.limiter = _
          unfold ControlRoom.beginAnnouncement
          rw [hnone]
          rfl
      | _ =>
          rw [hbody] at hasks
          exact hasks.elim
  · exact ControlRoom.limiter_program n.now n.state hasks n.wake

/-! ## What calls cost -/

/-- What the beginning of a notification costs: some keys are charged, they pay for the deliveries
that it starts, and a notification that is refused starts none. -/
structure Costs (n : Doing) (m : Moment) (s : Routing) (a : Alert) (keys : List CounterKey)
    (qs : List DeliveryRequest) : Prop where
  starts : (n.turn ControlRoom.program).next.children = qs.map fun q => .deliver q 0
  charged : Limiter.Charged m ⟨a.configurationId, a.ruleId⟩ keys n.state.limiter
    (n.turn ControlRoom.program).state.limiter
  paid : keys ≠ [] ↔ qs ≠ []
  pays : ControlRoom.Pays s a keys qs
  refused : n.state.Refused m s a → keys = [] ∧ qs = []

/-- **What a notification costs** when it begins. -/
theorem Premises.CallRun.costs (hr : p.CallRun h o) (hn : n ∈ h) {m : Moment} {r : AlertRef}
    {s : Routing} {a : Alert} (ho : Opens n m r s a) :
    Costs n m s a (n.state.charges m s a) (n.state.asks m s r a) := by
  obtain ⟨hstate, hchildren⟩ := ho.turn
  obtain ⟨hcharged, hpays⟩ := ControlRoom.charged_requests (s := s) (a := a) (hr.onOneClock hn)
    (ControlRoom.offset_of_clock? ho.clock) r
  refine ⟨hchildren, hstate ▸ hcharged, hpays.ne_nil_iff, hpays, fun hrefused => ?_⟩
  have hnone := ControlRoom.asks_of_refused r hrefused
  exact ⟨not_not.mp (mt hpays.ne_nil_iff.mp (not_not.mpr hnone)), hnone⟩

/-- An entry was bought: a notification has begun at its moment that starts a delivery and was charged
to its key. -/
def Bought (h : Past) (key : CounterKey) (m : Moment) : Prop :=
  ∃ n ∈ h, ∃ r s a, Opens n m r s a ∧ key ∈ n.state.charges m s a ∧
    (n.turn ControlRoom.program).next.children ≠ []

/-- A notification of a rule has begun at a moment that starts a delivery. -/
def Sent (h : Past) (rule : RuleKey) (m : Moment) : Prop :=
  ∃ n ∈ h, ∃ r s a, Opens n m r s a ∧ rule = ⟨a.configurationId, a.ruleId⟩ ∧
    (n.turn ControlRoom.program).next.children ≠ []

theorem Bought.mono {k : Past} {key : CounterKey} {m : Moment} (hb : Bought h key m)
    (hk : ∀ d ∈ h, d ∈ k) : Bought k key m :=
  let ⟨n, hn, hrest⟩ := hb
  ⟨n, hk n hn, hrest⟩

theorem Sent.mono {k : Past} {rule : RuleKey} {m : Moment} (hs : Sent h rule m)
    (hk : ∀ d ∈ h, d ∈ k) : Sent k rule m :=
  let ⟨n, hn, hrest⟩ := hs
  ⟨n, hk n hn, hrest⟩

/-- The limiter holds only what was bought with deliveries. -/
structure Solvent (h : Past) (l : Limiter) : Prop where
  bought : ∀ key, ∀ m ∈ l.sent key, Bought h key m
  sent : ∀ rule m, l.lastSimilar rule = some m → Sent h rule m

theorem Solvent.mono {k : Past} {l : Limiter} (hl : Solvent h l) (hk : ∀ d ∈ h, d ∈ k) :
    Solvent k l :=
  ⟨fun key m hm => (hl.bought key m hm).mono hk, fun rule m hm => (hl.sent rule m hm).mono hk⟩

/-- Whatever a notification adds to the limiter it pays for. -/
theorem Solvent.costs (hl : Solvent h n.state.limiter) {m : Moment} {r : AlertRef} {s : Routing}
    {a : Alert} (ho : Opens n m r s a)
    (hcosts : Costs n m s a (n.state.charges m s a) (n.state.asks m s r a)) :
    Solvent (n :: h) (n.turn ControlRoom.program).state.limiter := by
  have hold := hl.mono fun d => List.mem_cons_of_mem n
  have hsends : n.state.charges m s a ≠ [] → (n.turn ControlRoom.program).next.children ≠ [] := by
    intro hkeys
    rw [hcosts.starts]
    exact mt List.map_eq_nil_iff.mp (hcosts.paid.mp hkeys)
  refine ⟨fun key t ht => ?_, fun rule t ht => ?_⟩
  · obtain ⟨old, kept, hbefore, -, hafter⟩ := hcosts.charged.counters key
    rw [hafter] at ht
    rcases List.mem_append.mp ht with ht | ht
    · exact hold.bought key t (hbefore ▸ List.mem_append_right old ht)
    · obtain ⟨hcount, rfl⟩ := List.mem_replicate.mp ht
      have hkey : key ∈ n.state.charges t s a := List.count_pos_iff.mp (Nat.pos_of_ne_zero hcount)
      exact ⟨n, List.mem_cons_self, r, s, a, ho, hkey, hsends (List.ne_nil_of_mem hkey)⟩
  · rw [hcosts.charged.noted] at ht
    split at ht
    · exact hold.sent rule t ht
    · rename_i hkeys
      by_cases hrule : rule = ⟨a.configurationId, a.ruleId⟩
      · subst hrule
        rw [assign_self] at ht
        obtain rfl := Option.some.inj ht
        exact ⟨n, List.mem_cons_self, r, s, a, ho, rfl,
          hsends fun hnil => hkeys (List.isEmpty_iff.mpr hnil)⟩
      · rw [assign_of_ne hrule] at ht
        exact hold.sent rule t ht

/-- **Every entry of the limiter was bought with a delivery.** The induction is on the run. -/
theorem Premises.CallRun.solvent (hr : p.CallRun h o) : Solvent h o.state.limiter := by
  induction hr with
  | idle => exact ⟨fun key m hm => absurd hm List.not_mem_nil, fun rule m hm => nomatch hm⟩
  | @step h b c place hr hb ih =>
      have hrun : p.CallRun h b := hr
      have hstate := state_of_stepAt hrun.keeps.numbered hb
      have hstep : p.CallRun _ c := .step hr hb
      cases hs : b.stintAt? place with
      | none =>
          rw [hs] at hstate
          rw [show c.state = b.state from hstate]
          exact ih
      | some n =>
          rw [hs] at hstate hstep
          obtain ⟨-, -, _, -, hof⟩ := stintAt?_eq_some hs
          rw [← hof.state] at ih
          rw [show c.state = (n.turn ControlRoom.program).state from hstate]
          by_cases hopens : ∃ m r s a, Opens n m r s a
          · obtain ⟨m, r, s, a, ho⟩ := hopens
            exact ih.costs ho (hstep.costs List.mem_cons_self ho)
          · rw [limiter_of_not_opens hopens]
            exact ih.mono fun d => List.mem_cons_of_mem n
  | pass _ _ _ ih =>
      rw [state_passTo]
      exact ih
  | @serve h b c hr hb ih =>
      have hrun : p.CallRun h b := hr
      cases hb with
      | request q =>
          rw [limiter_serve hrun.keeps.numbered q]
          exact ih
      | route id s => exact ih

/-- **Quota is spent on deliveries.** A notification records an admission if and only if it starts a
delivery: one for its configuration, or one for each recipient to whom it sends. One that is refused
records none. Nothing else is written into the limiter, and so it holds only what was bought with
deliveries. -/
theorem Premises.CallRun.spends_iff_sends (hr : p.CallRun h o) :
    (∀ n ∈ h, (∀ m r s a, Opens n m r s a → ∃ keys qs, Costs n m s a keys qs) ∧
      ((¬ ∃ m r s a, Opens n m r s a) →
        (n.turn ControlRoom.program).state.limiter = n.state.limiter)) ∧
      Solvent h o.state.limiter :=
  ⟨fun _ hn => ⟨fun _ _ _ _ ho => ⟨_, _, hr.costs hn ho⟩, limiter_of_not_opens⟩, hr.solvent⟩

/-! ## Two calls -/

namespace Sample

/-- Each recipient counts, and what is similar waits for a minute. -/
def tight : Routing :=
  { routing .standard with limits := ⟨10, 50, 1, .recipient⟩ }

/-- The caller notifies of the first alert, and the office works for a while. -/
def call (x : Past × Office) : Past × Office :=
  (List.replicate 10 (.turn 0)).foldl Move.after
    (x.1, Agenda.launch x.2 .caller (.route (x.2.ref "alert_0000000000000001") tight))

theorem callRun_call {x : Past × Office} (hx : p.CallRun x.1 x.2) :
    p.CallRun (call x).1 (call x).2 :=
  run_after (x := (x.1, _)) (fun q _ _ => .request q) (.serve hx (.route _ tight))

/-- Two calls late in the evening, one right after the other. -/
def insistent : Past × Office :=
  call (call evening)

theorem run_insistent : mailbox.CallRun insistent.1 insistent.2 :=
  callRun_call (callRun_call (run_evening.mono fun ⟨q, hq⟩ => hq ▸ Asked.request q))

/-- The moment, the settings and the alert of a call that begins. -/
def begun? (n : Doing) : Option (Moment × AlertRef × Routing × Alert) :=
  match n.state.clock? n.now, n.wake, n.body with
  | some m, .start, .route r s => (n.state.store.find? r).map fun a => (m, r, s, a)
  | _, _, _ => none

/-- A call begins that starts so many deliveries. -/
def startsSo (count : Nat) (n : Doing) : Bool :=
  (begun? n).isSome && (n.turn ControlRoom.program).next.children.length == count

theorem exists_opens {count : Nat} (hn : startsSo count n = true) :
    (∃ m r s a, Opens n m r s a) ∧ (n.turn ControlRoom.program).next.children.length = count := by
  unfold startsSo at hn
  rw [Bool.and_eq_true, beq_iff_eq] at hn
  refine ⟨?_, hn.2⟩
  obtain ⟨⟨m, r, s, a⟩, hbegun⟩ := Option.isSome_iff_exists.mp hn.1
  unfold begun? at hbegun
  split at hbegun
  · rename_i m' r' s' hclock hwake hbody
    obtain ⟨a', ha, heq⟩ := Option.map_eq_some_iff.mp hbegun
    refine ⟨m', r', s', a', hclock, fun st hst => ?_, ha, .inl hbody⟩
    exact nomatch hwake.symm.trans hst
  · exact nomatch hbegun

end Sample

set_option maxRecDepth 100000 in
/-- The first call sends and pays, the second one does neither. -/
theorem insistent_spends : Solvent Sample.insistent.1 Sample.insistent.2.state.limiter ∧
    (∃ n ∈ Sample.insistent.1, ∃ m r s a keys qs, Opens n m r s a ∧ Costs n m s a keys qs ∧
      keys ≠ []) ∧
    ∃ n ∈ Sample.insistent.1, ∃ m r s a qs, Opens n m r s a ∧ Costs n m s a [] qs := by
  have hsends : Sample.insistent.1.any (Sample.startsSo 1) = true := by decide +kernel
  have hrefuses : Sample.insistent.1.any (Sample.startsSo 0) = true := by decide +kernel
  obtain ⟨hcosts, hsolvent⟩ := Sample.run_insistent.spends_iff_sends
  obtain ⟨n, hn, hstarts⟩ := List.any_eq_true.mp hsends
  obtain ⟨n', hn', hstarts'⟩ := List.any_eq_true.mp hrefuses
  obtain ⟨⟨m, r, s, a, ho⟩, hone⟩ := Sample.exists_opens hstarts
  obtain ⟨⟨m', r', s', a', ho'⟩, hnone⟩ := Sample.exists_opens hstarts'
  obtain ⟨keys, qs, hpaid⟩ := (hcosts n hn).1 m r s a ho
  obtain ⟨keys', qs', hpaid'⟩ := (hcosts n' hn').1 m' r' s' a' ho'
  rw [hpaid.starts, List.length_map] at hone
  rw [hpaid'.starts, List.length_map, List.length_eq_zero_iff] at hnone
  obtain rfl := not_not.mp (mt hpaid'.paid.mp (not_not.mpr hnone))
  refine ⟨hsolvent, ⟨n, hn, m, r, s, a, keys, qs, ho, hpaid, hpaid.paid.mpr ?_⟩,
    ⟨n', hn', m', r', s', a', qs', ho', hpaid'⟩⟩
  exact List.ne_nil_of_length_eq_add_one hone

end Office

end BuildingAlerts
