/-
Whom a notification turns to.

The targets of an alert are read off the pairs of the channels and the recipients of its settings:
each pair that is reached makes one, in order, and no other does. A notification makes one request
for each target whose recipient the limits admit, with the address of the recipient's contact.
-/
import BuildingAlerts.ControlRoom.Notification
import BuildingAlerts.Proofs.Fault

set_option autoImplicit false

namespace BuildingAlerts

namespace Recipient

/-- The contact that is used for a channel is a verified one for it. -/
theorem of_contactFor {r : Recipient} {c : Channel} {k : Contact} (h : r.contactFor c = some k) :
    k ∈ r.contacts ∧ k.channel = c ∧ k.verified = true := by
  have hmem : k ∈ r.verifiedContacts c := by
    rcases Option.or_eq_some_iff.mp h with hprimary | ⟨-, hfirst⟩
    · exact List.mem_of_find?_eq_some hprimary
    · exact List.mem_of_mem_head? (Option.mem_def.mpr hfirst)
  obtain ⟨hk, hof⟩ := List.mem_filter.mp hmem
  rw [Bool.and_eq_true, beq_iff_eq] at hof
  exact ⟨hk, hof⟩

end Recipient

/-- A chain of steps none of which fails. -/
theorem mapM_eq_ok {ε α β : Type} {f : α → Except ε β} {g : α → β} {l : List α}
    (h : ∀ a ∈ l, f a = .ok (g a)) : l.mapM f = .ok (l.map g) := by
  induction l with
  | nil => rfl
  | cons a l ih =>
      rw [List.mapM_cons, h a List.mem_cons_self, ih fun b hb => h b (List.mem_cons_of_mem a hb)]
      rfl

namespace Routing

variable {r : Routing} {severity : Option Priority} {now : Moment}

/-- All pairs of a channel and a recipient, in the order of the channels. -/
def pairs (r : Routing) : List (ChannelSetting × Recipient) :=
  r.channels.flatMap fun c => r.recipients.map fun p => (c, p)

/-- Whether an alert may reach a recipient on a channel: the channel takes it, and the recipient
wants it there, has a verified contact and is on call. -/
def reaches (severity : Option Priority) (now : Moment) (x : ChannelSetting × Recipient) : Bool :=
  x.1.accepts severity && x.2.wants severity x.1.channel && (x.2.contactFor x.1.channel).isSome &&
    (x.2.isOnCall now).toOption == some true

/-- The target that a pair makes. -/
def targetOf? (x : ChannelSetting × Recipient) : Option Target :=
  (x.2.contactFor x.1.channel).map fun k => ⟨x.1, x.2, k⟩

theorem flatMap_channelsFor (r : Routing) (severity : Option Priority) :
    ((r.channelsFor severity).flatMap fun c => r.recipients.map fun p => (c, p))
      = r.pairs.filter (·.1.accepts severity) := by
  unfold channelsFor pairs
  induction r.channels with
  | nil => rfl
  | cons c cs ih =>
      rw [List.flatMap_cons, List.filter_append, ← ih, List.filter_cons]
      by_cases hc : c.accepts severity = true
      · rw [if_pos hc, List.flatMap_cons]
        refine congrArg (· ++ _) (List.filter_eq_self.mpr fun x hx => ?_).symm
        obtain ⟨p, -, rfl⟩ := List.mem_map.mp hx
        exact hc
      · have hnone : (r.recipients.map fun p => (c, p)).filter (·.1.accepts severity) = [] := by
          refine List.filter_eq_nil_iff.mpr fun x hx => ?_
          obtain ⟨p, -, rfl⟩ := List.mem_map.mp hx
          exact hc
        rw [if_neg hc, hnone]
        rfl

/-- It can be told whether somebody is on call whom an alert may reach on a channel. -/
def Rostered (r : Routing) (severity : Option Priority) (now : Moment) : Prop :=
  ∀ x ∈ r.pairs, x.1.accepts severity = true → x.2.wants severity x.1.channel = true →
    (x.2.contactFor x.1.channel).isSome = true → ∃ b, x.2.isOnCall now = .ok b

/-- A channel that takes an alert and a recipient make a target if the alert reaches them. -/
theorem target?_eq {c : ChannelSetting} {p : Recipient} (hc : c.accepts severity = true)
    (hp : p.wants severity c.channel = true → (p.contactFor c.channel).isSome = true →
      ∃ b, p.isOnCall now = .ok b) :
    target? severity now c p = .ok (if reaches severity now (c, p) then targetOf? (c, p) else none) := by
  unfold target? reaches targetOf?
  dsimp only
  rw [hc]
  cases hwants : p.wants severity c.channel with
  | false => rfl
  | true =>
      cases hcontact : p.contactFor c.channel with
      | none => rfl
      | some k =>
          obtain ⟨b, hb⟩ := hp hwants (by rw [hcontact]; rfl)
          rw [hb]
          cases b <;> rfl

/-- **The targets of an alert** are those of the pairs that it reaches. -/
theorem targets_eq (hduty : r.Rostered severity now) :
    r.targets severity now = .ok ((r.pairs.filter (reaches severity now)).filterMap targetOf?) := by
  have hfound : (r.pairs.filter (·.1.accepts severity)).mapM
      (fun x => target? severity now x.1 x.2)
        = .ok ((r.pairs.filter (·.1.accepts severity)).map fun x =>
            if reaches severity now x then targetOf? x else none) := by
    refine mapM_eq_ok fun x hx => ?_
    obtain ⟨hpair, hc⟩ := List.mem_filter.mp hx
    exact target?_eq hc (hduty x hpair hc)
  have hreaches : (r.pairs.filter (·.1.accepts severity)).filter (reaches severity now)
      = r.pairs.filter (reaches severity now) := by
    rw [List.filter_filter]
    refine List.filter_congr fun x _ => ?_
    unfold reaches
    cases x.1.accepts severity <;> simp
  unfold targets
  dsimp only
  rw [flatMap_channelsFor]
  refine (congrArg (fun x => x >>= fun found => Except.ok found.reduceOption) hfound).trans ?_
  rw [← hreaches, List.filterMap_filter (l := r.pairs.filter _)]
  exact congrArg Except.ok List.filterMap_map

/-! ## The requests of a notification -/

/-- Those whom the limits are asked about, each once. -/
def asked (r : Routing) (severity : Option Priority) (now : Moment) : List String :=
  firsts ((r.pairs.filter (reaches severity now)).map (·.2.id))

/-- The pairs that an alert reaches and whose recipients are admitted. -/
def chosen (r : Routing) (severity : Option Priority) (now : Moment) (admitted : List String) :
    List (ChannelSetting × Recipient) :=
  r.pairs.filter fun x => reaches severity now x && admitted.contains x.2.id

/-- The channel of a chosen pair takes the alert. -/
theorem of_mem_chosen {admitted : List String} {x : ChannelSetting × Recipient}
    (hx : x ∈ r.chosen severity now admitted) : x.1 ∈ r.channels ∧ x.1.accepts severity = true := by
  obtain ⟨hpair, hchosen⟩ := List.mem_filter.mp hx
  obtain ⟨c, hc, hx⟩ := List.mem_flatMap.mp hpair
  obtain ⟨p, -, rfl⟩ := List.mem_map.mp hx
  unfold reaches at hchosen
  simp only [Bool.and_eq_true] at hchosen
  exact ⟨hc, hchosen.1.1.1.1⟩

/-- A pair that is reached makes a target. -/
theorem targetOf?_of_reaches {x : ChannelSetting × Recipient} (hx : reaches severity now x = true) :
    ∃ k, x.2.contactFor x.1.channel = some k ∧ targetOf? x = some ⟨x.1, x.2, k⟩ := by
  unfold reaches at hx
  rw [Bool.and_eq_true, Bool.and_eq_true] at hx
  obtain ⟨k, hk⟩ := Option.isSome_iff_exists.mp hx.1.2
  refine ⟨k, hk, ?_⟩
  unfold targetOf?
  rw [hk]
  rfl

/-- The recipients of the targets are those of the pairs that are reached. -/
theorem map_targets (xs : List (ChannelSetting × Recipient)) :
    ((xs.filter (reaches severity now)).filterMap targetOf?).map (·.recipient.id)
      = (xs.filter (reaches severity now)).map (·.2.id) := by
  induction xs with
  | nil => rfl
  | cons x xs ih =>
      by_cases hx : reaches severity now x = true
      · obtain ⟨k, -, htarget⟩ := targetOf?_of_reaches hx
        rw [List.filter_cons_of_pos hx, List.filterMap_cons, htarget, List.map_cons, List.map_cons, ih]
      · rw [List.filter_cons_of_neg hx]
        exact ih

/-- The targets that are admitted are those of the chosen pairs. -/
theorem filter_targets (admitted : List String) :
    ((r.pairs.filter (reaches severity now)).filterMap targetOf?).filter
        (fun t => admitted.contains t.recipient.id)
      = (r.chosen severity now admitted).filterMap targetOf? := by
  unfold chosen
  induction r.pairs with
  | nil => rfl
  | cons x xs ih =>
      rw [List.filter_cons, List.filter_cons (p := fun x => _ && _)]
      cases hx : reaches severity now x with
      | false => exact ih
      | true =>
          obtain ⟨k, -, htarget⟩ := targetOf?_of_reaches hx
          rw [if_pos rfl, List.filterMap_cons, htarget, Bool.true_and]
          dsimp only
          rw [List.filter_cons, ih]
          cases admitted.contains x.2.id with
          | false => rfl
          | true => exact ((List.filterMap_cons ..).trans (by rw [htarget]; rfl)).symm

end Routing

namespace ControlRoom

variable {c : ControlRoom} {now : Moment} {r : Routing} {alert : AlertRef} {a : Alert}

/-- The request for a pair. -/
def requestOf? (c : ControlRoom) (alert : AlertRef) (a : Alert) (x : ChannelSetting × Recipient) :
    Option DeliveryRequest :=
  (Routing.targetOf? x).map (c.requestFor alert a)

/-- **The requests for an alert** are those of the chosen pairs, in order. -/
theorem requests_eq (hquiet : r.quietHours.suppresses a.id a.severity now = .ok false)
    (hlines : ∀ ch ∈ r.channels, ch.accepts a.severity = true → c.supports ch.channel = true)
    (hduty : r.Rostered a.severity now) {admitted : List String} {l : Limiter}
    (hlimits : StateT.run (Limiter.allow r.limits ⟨a.configurationId, a.ruleId⟩
      (r.asked a.severity now) now) c.limiter = (.ok admitted, l)) :
    (c.requests now r alert a).1
      = .ok ((r.chosen a.severity now admitted).filterMap (c.requestOf? alert a)) := by
  have hmissing : c.missingLine? r a = none := by
    unfold missingLine?
    refine List.find?_eq_none.mpr fun ch hch => ?_
    obtain ⟨s, hs, rfl⟩ := List.mem_map.mp hch
    obtain ⟨hmem, haccepts⟩ := List.mem_filter.mp hs
    rw [hlines s hmem haccepts]
    exact Bool.false_ne_true
  have hcandidates : c.candidates now r a
      = .ok ((r.pairs.filter (Routing.reaches a.severity now)).filterMap Routing.targetOf?) := by
    unfold candidates
    rw [hquiet, hmissing]
    exact Routing.targets_eq hduty
  have hrequest : c.requestOf? alert a = fun x => (Routing.targetOf? x).map (c.requestFor alert a) := rfl
  unfold requests
  rw [hcandidates]
  dsimp only
  unfold ControlRoom.admitted
  rw [hrequest, ← List.map_filterMap, ← Routing.filter_targets]
  split
  · rename_i hempty
    rw [List.isEmpty_iff.mp hempty]
    rfl
  · rw [Routing.map_targets]
    have hasked : firsts ((r.pairs.filter (Routing.reaches a.severity now)).map (·.2.id))
      = r.asked a.severity now := rfl
    rw [hasked]
    dsimp only
    rw [hlimits]
    rfl

/-- A chosen pair makes a request with the address of the recipient's contact. -/
theorem requestOf?_of_chosen (c : ControlRoom) (alert : AlertRef) {admitted : List String}
    {x : ChannelSetting × Recipient} (hx : x ∈ r.chosen a.severity now admitted) : ∃ k q, x.2.contactFor x.1.channel = some k ∧
      c.requestOf? alert a x = some q ∧ q.channel = x.1.channel ∧ q.address = k.value ∧
      q.alert = alert ∧ q.recipientId = some x.2.id := by
  have hreaches := (Bool.and_eq_true_iff.mp (List.mem_filter.mp hx).2).1
  obtain ⟨k, hk, htarget⟩ := Routing.targetOf?_of_reaches hreaches
  refine ⟨k, c.requestFor alert a ⟨x.1, x.2, k⟩, hk, ?_, rfl, rfl, rfl, rfl⟩
  unfold requestOf?
  rw [htarget]
  rfl

/-- Each chosen pair makes one request. -/
theorem map_some_requests (c : ControlRoom) (now : Moment) (r : Routing) (alert : AlertRef)
    (a : Alert) (admitted : List String) :
    ((r.chosen a.severity now admitted).filterMap (c.requestOf? alert a)).map some
      = (r.chosen a.severity now admitted).map (c.requestOf? alert a) := by
  have hall : ∀ x ∈ r.chosen a.severity now admitted, ∃ q, c.requestOf? alert a x = some q := by
    intro x hx
    obtain ⟨-, q, -, hq, -⟩ := requestOf?_of_chosen c alert hx
    exact ⟨q, hq⟩
  generalize r.chosen a.severity now admitted = xs at hall
  induction xs with
  | nil => rfl
  | cons x xs ih =>
      obtain ⟨q, hq⟩ := hall x List.mem_cons_self
      rw [List.filterMap_cons_some hq, List.map_cons, List.map_cons, hq,
        ih fun y hy => hall y (List.mem_cons_of_mem x hy)]

end ControlRoom

end BuildingAlerts
