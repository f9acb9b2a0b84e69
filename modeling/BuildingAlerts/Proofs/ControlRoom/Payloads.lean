/-
Which level a webhook names.

What is posted to a webhook is rendered anew at every attempt, from the alert as it is at that moment,
and names the level that the alert has reached by then. The entry of the delivery keeps the level on
which the delivery was begun, which is that of the stage if it escalates the alert. But an alert rises
to the level of a stage only when all deliveries of the stage have ended. So the first attempt at a
delivery of a stage names a lower level than the entry, and a retry names the level of whatever stage
was the last to end.
-/
import BuildingAlerts.Proofs.ControlRoom.Addresses
import BuildingAlerts.Proofs.ControlRoom.Succession

set_option autoImplicit false

namespace BuildingAlerts

open Agenda

/-! ## What is posted -/

/-- The level that a payload names. -/
def Json.levelNamed? (v : Json) : Option Json :=
  (v.member? "custom_fields").bind (·.member? "escalation_level")

/-- A payload names the level of its alert. -/
theorem Rendering.levelNamed?_webhookBody {a : Alert} {c : Content} {v : Json}
    (h : webhookBody a c = .ok v) : v.levelNamed? = some (.whole a.escalationLevel) := by
  unfold webhookBody at h
  obtain ⟨severity, -, h⟩ := bind_eq_ok_iff.mp h
  obtain rfl := Except.ok.inj h
  rfl

/-- A desk has noted no other requests than those of a kind. -/
def Desk.Notes (kind : WebRequest → Prop) (d e : Desk) : Prop :=
  ∀ x ∈ e.traffic.requests, x ∈ d.traffic.requests ∨ kind x

instance (kind : WebRequest → Prop) : Std.Refl (Desk.Notes kind) :=
  ⟨fun _ _ => .inl⟩

instance (kind : WebRequest → Prop) : IsTrans Desk (Desk.Notes kind) :=
  ⟨fun _ _ _ h k x hx => (k x hx).elim (h x) .inr⟩

/-- A request carries the payload of a parcel. -/
def Parcel.Carries (p : Parcel) (x : WebRequest) : Prop :=
  ∃ v, Rendering.webhookBody p.alert p.content = .ok v ∧ x.body = .text (Json.write v)

namespace Sending

theorem notes_draw (kind : WebRequest → Prop) (k : IdKind) :
    StaysWithin (Desk.Notes kind) (draw k) :=
  fun _ _ => .inl

theorem notes_note {kind : WebRequest → Prop} {r : WebRequest} (hr : kind r) :
    StaysWithin (Desk.Notes kind) (note r) := by
  intro d x hx
  rcases List.mem_append.mp hx with hx | hx
  · exact .inl hx
  · obtain rfl := List.mem_singleton.mp hx
    exact .inr hr

/-- **All that goes to a webhook** carries the payload, whatever the webhook answers. -/
theorem notes_webhook (w : WebhookSetup) (far : FarEnd) (now : Moment) (p : Parcel) :
    StaysWithin (Desk.Notes p.Carries) (webhook w far now p) := by
  unfold webhook
  refine staysWithin_except_bind fun url _ => .ite (staysWithin_pure _) ?_
  refine staysWithin_except_bind fun body hbody => staysWithin_except_bind fun headers _ =>
    staysWithin_except_bind fun secret _ => staysWithin_except_bind fun method _ =>
    (notes_note ⟨body, hbody, rfl⟩).bind fun _ => ?_
  split
  · exact staysWithin_throw _
  · exact .ite (staysWithin_throw_bind _ _) ((notes_draw _ _).bind fun _ => staysWithin_pure _)

end Sending

namespace ControlRoom

/-- What a message is sent with: the alert as it is now. -/
def parcel? (c : ControlRoom) (q : DeliveryRequest) : Option Parcel :=
  (c.store.find? q.alert).map fun a => ⟨q.address, q.content, a, q.options⟩

/-- What comes of sending a message through the service of its channel if the far end behaves in some
way, and what is left on the desk. -/
def sending? (c : ControlRoom) (far : FarEnd) (now : Moment) (q : DeliveryRequest) :
    Option (Except Fault DeliveryResult × Desk) :=
  (c.parcel? q).map fun p => StateT.run (c.setup.send q.channel far now p) ⟨c.registry.ids, .none⟩

/-- The requests that are posted for a message. -/
def posted (c : ControlRoom) (far : FarEnd) (now : Moment) (q : DeliveryRequest) : List WebRequest :=
  (c.sending? far now q).elim [] (·.2.traffic.requests)

/-- The payload of a message, if it has one. -/
def payload? (c : ControlRoom) (q : DeliveryRequest) : Option Json := do
  let p ← c.parcel? q
  (Rendering.webhookBody p.alert p.content).toOption

variable {c : ControlRoom} {now : Moment} {q : DeliveryRequest}

/-- The service of a line is sent through with a far end that accepts everything. -/
theorem sendThrough_eq (c : ControlRoom) (now : Moment) (q : DeliveryRequest) :
    c.sendThrough now q = (c.sending? {} now q).elim (.error .noPart, c) fun x =>
      (x.1, { c with registry := { c.registry with ids := x.2.ids } }) := by
  unfold sendThrough sending? parcel?
  cases c.store.find? q.alert with
  | none => rfl
  | some a => rfl

/-- **What is posted for a message** is its payload. -/
theorem body_of_mem_posted {far : FarEnd} (hchannel : q.channel = .webhook) {x : WebRequest}
    (hx : x ∈ c.posted far now q) :
    ∃ v, c.payload? q = some v ∧ x.body = .text (Json.write v) := by
  unfold posted sending? at hx
  unfold payload?
  cases hp : c.parcel? q with
  | none =>
      rw [hp] at hx
      exact absurd hx List.not_mem_nil
  | some p =>
      rw [hp, hchannel] at hx
      rcases Sending.notes_webhook c.setup.webhook far now p _ x hx with hold | ⟨v, hv, hbody⟩
      · exact absurd hold List.not_mem_nil
      · refine ⟨v, ?_, hbody⟩
        show (Rendering.webhookBody p.alert p.content).toOption = some v
        rw [hv]
        rfl

/-- **A payload names the level that the alert has now.** -/
theorem levelNamed?_of_payload? {v : Json} (h : c.payload? q = some v) :
    v.levelNamed? = some (.whole (c.levelOf q.alert)) := by
  obtain ⟨p, hp, h⟩ := Option.bind_eq_some_iff.mp h
  obtain ⟨a, ha, rfl⟩ := Option.map_eq_some_iff.mp hp
  cases hv : Rendering.webhookBody a q.content with
  | error f =>
      rw [hv] at h
      exact nomatch h
  | ok w =>
      rw [hv] at h
      obtain rfl := Option.some.inj h
      rw [Rendering.levelNamed?_webhookBody hv]
      exact congrArg (some ∘ Json.whole) (Store.levelOf_of_find? ha).symm

end ControlRoom

namespace Office

variable {p : Premises} {r : AlertRef} {h e : Past} {o : Office} {n w : Doing}

/-! ## On which level a delivery is begun -/

/-- A wave asks for a delivery on a level: zero if it notifies of the alert, and the level of the stage
that comes next if it escalates the alert. -/
inductive AsksOn (w : Doing) (q : DeliveryRequest) : Int → Prop where
  | notifies (hbody : w.body = .notify q.alert) : AsksOn w q 0
  | escalates {pol : Policy} {l : Option Int} {a : Alert} {s : Stage}
      (hbody : w.body = .escalate q.alert pol l) (ha : w.state.store.find? q.alert = some a)
      (hs : a.nextStage? pol (l.getD a.escalationLevel) = some s) : AsksOn w q s.level

/-- Whoever asks for a delivery begins a wave of its alert. -/
theorem AsksOn.wave {q : DeliveryRequest} {level : Int} (hw : AsksOn w q level) :
    w.body.IsFirst ∧ w.body.IsWave ∧ w.body.concerns q.alert = true := by
  cases hw with
  | notifies hbody =>
      rw [hbody]
      exact ⟨trivial, trivial, Work.concerns_notify.mpr rfl⟩
  | escalates hbody =>
      rw [hbody]
      exact ⟨trivial, trivial, Work.concerns_escalate.mpr rfl⟩

/-- **Waves ask for their deliveries on their levels.** -/
theorem asksOn_of_starts (hw : w.body.IsManaged) {t : TaskId} {q : DeliveryRequest} {level : Int}
    (hstarts : w.Starts ControlRoom.program t (.deliver q level)) : AsksOn w q level := by
  obtain ⟨i, hi, -⟩ := hstarts
  rcases ControlRoom.asked_of_child w.now w.state hw (List.mem_of_getElem? hi) with
    ⟨r, a, k, m, hbody, -, -, hasked, rfl⟩ | ⟨r, pol, l, a, s, hbody, ha, hs, hasked, rfl⟩
  · obtain ⟨t, rfl, -⟩ := ControlRoom.of_mem_asks hasked
    exact .notifies hbody
  · obtain rfl := ControlRoom.alert_of_stageRequests hasked
    exact .escalates hbody ha hs

/-- **On which level an alert is when its deliveries are begun**: on that of the deliveries if the
wave notifies, and below it if it escalates. -/
theorem Premises.OrderlyRun.level_of_asksOn (hr : p.OrderlyRun r h o) (hw : w :: e <:+ h)
    {q : DeliveryRequest} {level : Int} (hasks : AsksOn w q level) (hq : q.alert = r) :
    (w.body = .notify r → w.state.levelOf r = level) ∧
      (w.body ≠ .notify r → w.state.levelOf r < level) := by
  subst hq
  obtain ⟨b, -, place, hb, hplace, -⟩ := Agenda.Run.before hr hw
  have hb : p.OrderlyRun q.alert e b := hb
  obtain ⟨-, -, _, -, hof⟩ := stintAt?_eq_some hplace
  have hjob := job?_of_stintAt hplace
  cases hasks with
  | notifies hbody =>
      refine ⟨fun _ => ?_, fun hne => absurd hbody hne⟩
      -- nothing has been fired before the alert is notified of
      have hsuits := hb.course.suits hjob (by rw [hbody]; exact Work.concerns_notify.mpr rfl)
      rw [hbody] at hsuits
      rw [hof.state]
      rcases hb.reached.level with hzero | ⟨x, hx, -⟩
      · exact hzero
      · rw [show fired q.alert e = [] from hsuits] at hx
        exact absurd hx List.not_mem_nil
  | @escalates pol l a s hbody ha hs =>
      refine ⟨fun hnotify => (nomatch hbody.symm.trans hnotify), fun _ => ?_⟩
      obtain rfl := hb.booked hjob hbody
      have hlevel := (Alert.allows_of_nextStage? hs).level
      rw [show w.state.levelOf q.alert = a.escalationLevel from Store.levelOf_of_find? ha]
      exact hlevel

/-! ## Which level is named -/

/-- **Which level a webhook names.** Whatever is posted for a delivery carries the payload of the moment,
and that names the level that the alert has then. The entry keeps the level on which the wave of the
delivery has asked for it. If requests are orderly for the alert, then the level that is named is zero
or that of a stage that was fired by then; at the first attempt it is the level in the entry if the
wave notified of the alert, and a lower one if the wave escalated it. -/
theorem Premises.Run.level_posted (hr : p.Run h o) (hn : n :: e <:+ h) {m : Moment} {id : String}
    {q : DeliveryRequest} (hq : handsOver? n = some (m, id, q)) (hchannel : q.channel = .webhook) :
    (∀ far, ∀ x ∈ n.state.posted far m q,
        ∃ v, n.state.payload? q = some v ∧ x.body = .text (Json.write v)) ∧
      (∀ v, n.state.payload? q = some v →
        v.levelNamed? = some (.whole (n.state.levelOf q.alert))) ∧
      ∃ y, (n.turn ControlRoom.program).state.journal.get? id = some y ∧ y.request = some q ∧
        ∃ w ∈ e, ∃ d ∈ n :: e, w.Starts ControlRoom.program d.task d.body ∧ draws id d = true ∧
          d.body = .deliver q y.escalationLevel ∧ (d = n ∨ n.body = .attempt id) ∧
          AsksOn w q y.escalationLevel ∧
          (p.OrderlyRun q.alert h o →
            (n.state.levelOf q.alert = 0 ∨
              ∃ x ∈ fired q.alert e, x.2.level = n.state.levelOf q.alert) ∧
            (d = n → w.body = .notify q.alert → n.state.levelOf q.alert = y.escalationLevel) ∧
            (d = n → w.body ≠ .notify q.alert → n.state.levelOf q.alert < y.escalationLevel)) := by
  refine ⟨fun far x => ControlRoom.body_of_mem_posted hchannel,
    fun v => ControlRoom.levelNamed?_of_payload?, ?_⟩
  obtain ⟨y, hy, hyq, w, hw, d, hd, hstarts, hdraws, hbody, hwhen⟩ := hr.wave_of_handsOver? hn hq
  have hwh : w ∈ h := ((List.suffix_cons n e).trans hn).subset hw
  have hasks : AsksOn w q y.escalationLevel :=
    asksOn_of_starts (hr.mayBeDone w hwh).1 (hbody ▸ hstarts)
  refine ⟨y, hy, hyq, w, hw, d, hd, hstarts, hdraws, hbody, hwhen, hasks, fun ho => ?_⟩
  obtain ⟨b, -, place, hb, hplace, -⟩ := Agenda.Run.before ho hn
  have hb : p.OrderlyRun q.alert e b := hb
  obtain ⟨-, -, _, -, hof⟩ := stintAt?_eq_some hplace
  -- until its first attempt the level is the one at the start of the wave
  have hstays : d = n → n.state.levelOf q.alert = w.state.levelOf q.alert := by
    rintro rfl
    obtain ⟨hfirst, hwave, hconcerns⟩ := hasks.wave
    have hbegins := (hr.first (hn.subset List.mem_cons_self) (by rw [hbody]; trivial)).1
    rw [hof.state]
    exact hb.level_until_begun hw (hr.first hwh hfirst).1 hwave hconcerns
      (History.mem_childIds.mpr ⟨_, hstarts⟩) (hr.keeps.coherent.ne_of_first hn hbegins)
  obtain ⟨k, hk⟩ := History.exists_suffix_of_mem hw
  obtain ⟨hnotifies, hescalates⟩ :=
    ho.level_of_asksOn ((hk.trans (List.suffix_cons n e)).trans hn) hasks rfl
  refine ⟨?_, fun hdn hnotify => ?_, fun hdn hnot => ?_⟩
  · rw [hof.state]
    exact hb.reached.level
  · rw [hstays hdn]
    exact hnotifies hnotify
  · rw [hstays hdn]
    exact hescalates hnot

/-! ## A webhook -/

namespace Sample

/-- An office where messages go to webhooks. -/
def switchboard : Premises :=
  { premises fun _ => .error .noPart with
    lines := fun c => if c = .webhook then some (.fresh .service) else none }

/-- The webhook of the keeper is called, and once more after a minute. -/
def hooked : Configuration :=
  { configuration "ward" .standard (some ⟨"keeper", "Keeper",
      [⟨1, 1, ["keeper"], [.webhook], true, 15, true, ""⟩], 3, rfl⟩) with
    routing := { routing .standard with
      channels := [⟨.webhook, true, [], [.medium]⟩]
      recipients := [⟨"keeper", "", "", "",
        [⟨.webhook, "https://example.org/keeper", true, true⟩], [(.medium, [.webhook])], none⟩] } }

/-- A pass and the minute after it. -/
def calls : Past × Office :=
  (List.replicate 22 (Move.turn 0) ++ [Move.wait (60 * Instant.perSecond)] ++
    List.replicate 12 (Move.turn 0)).foldl Move.after
    ([], serve (serve (.idle switchboard.room) (.addConfiguration hooked)) (.pass snapshot))

theorem orderlyRun_calls : switchboard.OrderlyRun warm calls.1 calls.2 :=
  orderlyRun_after_pass _ _ warm (ask_not_mem_turns _ 22 12)

/-- A first attempt at which something is posted to a webhook while the alert is below the level of the
delivery. -/
def understates (n : Doing) : Bool :=
  match n.body with
  | .deliver q level => decide (q.alert = warm) && decide (n.state.levelOf q.alert < level) &&
      (handsOver? n).any fun x => decide (x.2.2.channel = .webhook) &&
        !(n.state.posted {} x.1 x.2.2).isEmpty
  | _ => false

theorem of_understates {n : Doing} (hn : understates n = true) :
    ∃ m id q level, n.body = .deliver q level ∧ q.alert = warm ∧
      n.state.levelOf q.alert < level ∧ handsOver? n = some (m, id, q) ∧ q.channel = .webhook ∧
      n.state.posted {} m q ≠ [] := by
  unfold understates at hn
  split at hn
  · rename_i q level hbody
    rw [Bool.and_eq_true, Bool.and_eq_true, decide_eq_true_iff, decide_eq_true_iff] at hn
    obtain ⟨⟨halert, hlevel⟩, hn⟩ := hn
    obtain ⟨⟨m, id, q'⟩, hq, hn⟩ := (Option.any_eq_true ..).mp hn
    rw [Bool.and_eq_true, decide_eq_true_iff, Bool.not_eq_true', List.isEmpty_eq_false_iff] at hn
    rcases of_handsOver? hq with ⟨-, level', hbody'⟩ | ⟨hattempt, -⟩
    · obtain ⟨rfl, rfl⟩ := Work.deliver.inj (hbody.symm.trans hbody')
      exact ⟨m, id, q, level, hbody, halert, hlevel, hq, hn.1, hn.2⟩
    · exact nomatch hbody.symm.trans hattempt
  · exact absurd hn Bool.false_ne_true

end Sample

set_option maxRecDepth 100000 in
/-- The webhook of the keeper is called for the first stage. -/
theorem level_posted_calls : ∃ n e m id q, n :: e <:+ Sample.calls.1 ∧
    handsOver? n = some (m, id, q) ∧ q.channel = .webhook ∧ n.state.posted {} m q ≠ [] ∧
    (∀ far, ∀ x ∈ n.state.posted far m q,
        ∃ v, n.state.payload? q = some v ∧ x.body = .text (Json.write v)) ∧
      (∀ v, n.state.payload? q = some v →
        v.levelNamed? = some (.whole (n.state.levelOf q.alert))) ∧
      ∃ y, (n.turn ControlRoom.program).state.journal.get? id = some y ∧ y.request = some q ∧
        ∃ w ∈ e, ∃ d ∈ n :: e, w.Starts ControlRoom.program d.task d.body ∧ draws id d = true ∧
          d.body = .deliver q y.escalationLevel ∧ (d = n ∨ n.body = .attempt id) ∧
          AsksOn w q y.escalationLevel ∧
          (n.state.levelOf q.alert = 0 ∨
            ∃ x ∈ fired q.alert e, x.2.level = n.state.levelOf q.alert) ∧
          (d = n → w.body = .notify q.alert → n.state.levelOf q.alert = y.escalationLevel) ∧
          (d = n → w.body ≠ .notify q.alert → n.state.levelOf q.alert < y.escalationLevel) := by
  have hfound : Sample.calls.1.any Sample.understates = true := by decide +kernel
  obtain ⟨n, hn, hunderstates⟩ := List.any_eq_true.mp hfound
  obtain ⟨m, id, q, level, -, halert, -, hq, hchannel, hposted⟩ :=
    Sample.of_understates hunderstates
  obtain ⟨e, he⟩ := History.exists_suffix_of_mem hn
  obtain ⟨hbodies, hnamed, y, hy, hyq, w, hw, d, hd, hstarts, hdraws, hbody, hwhen, hasks, horderly⟩ :=
    Sample.orderlyRun_calls.run.level_posted he hq hchannel
  exact ⟨n, e, m, id, q, he, hq, hchannel, hposted, hbodies, hnamed, y, hy, hyq, w, hw, d, hd,
    hstarts, hdraws, hbody, hwhen, hasks, horderly (halert ▸ Sample.orderlyRun_calls)⟩

set_option maxRecDepth 100000 in
/-- What is posted for the first stage does not name the level of its entry. -/
theorem understated_calls : ¬ ∀ (p : Premises) (h : Past) (o : Office), p.Run h o → ∀ n ∈ h,
    ∀ m id q y, handsOver? n = some (m, id, q) → q.channel = .webhook →
      (n.turn ControlRoom.program).state.journal.get? id = some y →
      ∀ x ∈ n.state.posted {} m q, ∃ v, n.state.payload? q = some v ∧
        x.body = .text (Json.write v) ∧ v.levelNamed? = some (.whole y.escalationLevel) := by
  intro hall
  have hfound : Sample.calls.1.any Sample.understates = true := by decide +kernel
  obtain ⟨n, hn, hunderstates⟩ := List.any_eq_true.mp hfound
  obtain ⟨m, id, q, level, hbody, -, hlevel, hq, hchannel, hposted⟩ :=
    Sample.of_understates hunderstates
  obtain ⟨e, he⟩ := History.exists_suffix_of_mem hn
  have hrun := Sample.orderlyRun_calls.run
  obtain ⟨y, hy, -, d, -, -, hd, hwhen⟩ := hrun.entry_of_handsOver? he hq
  obtain ⟨x, hx⟩ := List.exists_mem_of_ne_nil _ hposted
  obtain ⟨v, hv, -, hnamed⟩ := hall _ _ _ hrun n hn m id q y hq hchannel hy x hx
  have hsame := hnamed.symm.trans (ControlRoom.levelNamed?_of_payload? hv)
  have hsame : y.escalationLevel = n.state.levelOf q.alert :=
    Number.whole.inj (Json.number.inj (Option.some.inj hsame))
  rcases hwhen with rfl | hattempt
  · have hlevels : level = y.escalationLevel := (Work.deliver.inj (hbody.symm.trans hd)).2
    omega
  · exact nomatch hbody.symm.trans hattempt

end Office

end BuildingAlerts
