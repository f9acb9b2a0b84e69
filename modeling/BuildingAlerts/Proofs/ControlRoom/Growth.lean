/-
What becomes of the room.

Whatever a task does and whatever is asked for, the room keeps its alerts and the names of its
configurations, takes back no identifier that it has given out, and its limiter remembers moments
of the room's own clock only. `Later` is the
relation that every step keeps; what is needed of a room at some moment of a run is carried by
it from an earlier moment.
-/
import BuildingAlerts.Proofs.Alert.Growth
import BuildingAlerts.Proofs.ControlRoom.Requests
import BuildingAlerts.Proofs.Ident
import BuildingAlerts.Proofs.Notification.Limiting

set_option autoImplicit false

namespace BuildingAlerts

open Agenda

namespace ControlRoom

/-- The limiter remembers moments of the room's clock. -/
def OnOneClock (c : ControlRoom) : Prop :=
  c.limiter.OnOneClock c.opened.offset.isSome

/-- What `c` may have become. -/
structure Later (c d : ControlRoom) : Prop where
  opened : d.opened = c.opened
  limit : d.limit = c.limit
  grows : c.store.Grows d.store
  registered : ∀ id, (c.configurations.get? id).isSome = true →
    (d.configurations.get? id).isSome = true
  keyed : c.configurations.KeyedBy (·.id) → d.configurations.KeyedBy (·.id)
  clock : c.OnOneClock → d.OnOneClock
  drawn : c.registry.ids.Grows d.registry.ids

variable {c d e : ControlRoom}

theorem Later.rfl : c.Later c :=
  ⟨.refl _, .refl _, .rfl, fun _ h => h, fun h => h, fun h => h, .rfl⟩

theorem Later.trans (h : c.Later d) (k : d.Later e) : c.Later e where
  opened := k.opened.trans h.opened
  limit := k.limit.trans h.limit
  grows := h.grows.trans k.grows
  registered := fun id hid => k.registered id (h.registered id hid)
  keyed := fun hc => k.keyed (h.keyed hc)
  clock := fun hc => k.clock (h.clock hc)
  drawn := h.drawn.trans k.drawn

/-- What `c` may have become without an evaluation: no configuration has got an alert, and no
alert has come in. -/
structure Kept (c d : ControlRoom) : Prop extends Later c d where
  of : ∀ {I : String → Prop}, c.store.Of I → d.store.Of I
  ids : c.store.Keyed → ∀ id ∈ d.store.ids, id ∈ c.store.ids

theorem Kept.rfl : c.Kept c :=
  ⟨.rfl, fun h => h, fun _ _ h => h⟩

theorem Kept.trans (h : c.Kept d) (k : d.Kept e) : c.Kept e :=
  ⟨h.toLater.trans k.toLater, fun hc => k.of (h.of hc),
    fun hc id hid => h.ids hc id (k.ids (h.grows.keyed hc) id hid)⟩

/-- What `c` may have become through work that is no evaluation: the configurations and the
recipients that are known stay as they are. -/
structure Worked (c d : ControlRoom) : Prop extends Kept c d where
  configurations : d.configurations = c.configurations
  directory : d.directory = c.directory

theorem Worked.rfl : c.Worked c :=
  ⟨.rfl, .refl _, .refl _⟩

theorem Worked.trans (h : c.Worked d) (k : d.Worked e) : c.Worked e :=
  ⟨h.toKept.trans k.toKept, k.configurations.trans h.configurations,
    k.directory.trans h.directory⟩

/-- Everything else may change. -/
theorem worked_of_eq (hopened : d.opened = c.opened) (hlimit : d.limit = c.limit)
    (hstore : d.store = c.store) (hconfigurations : d.configurations = c.configurations)
    (hdirectory : d.directory = c.directory) (hlimiter : d.limiter = c.limiter)
    (hdrawn : c.registry.ids.Grows d.registry.ids) : c.Worked d where
  opened := hopened
  limit := hlimit
  grows := hstore ▸ .rfl
  registered := fun _ h => hconfigurations ▸ h
  keyed := fun h => hconfigurations ▸ h
  clock := fun h => by unfold OnOneClock; rw [hopened, hlimiter]; exact h
  drawn := hdrawn
  of := fun h => hstore ▸ h
  ids := fun _ _ h => hstore ▸ h
  configurations := hconfigurations
  directory := hdirectory

theorem worked_adjustAlert {r : AlertRef} {f : Alert → Alert} (hf : c.store.Spares r f) :
    c.Worked (c.adjustAlert r f) :=
  ⟨⟨⟨rfl, rfl, Store.grows_adjustAt hf, fun _ h => h, fun h => h, fun h => h, .rfl⟩,
    fun h => h.adjustAt hf, fun hc _ => (Store.mem_ids_adjustAt hc hf).mp⟩, rfl, rfl⟩

theorem worked_adjustEntry (c : ControlRoom) (id : String) (f : LogEntry → LogEntry) :
    c.Worked (c.adjustEntry id f) :=
  worked_of_eq rfl rfl rfl rfl rfl rfl .rfl

/-! ## Deliveries -/

theorem worked_handOver (c : ControlRoom) (now : Moment) (r : DeliveryRequest)
    (entry : Option String) : c.Worked (c.handOver now r entry).2 := by
  unfold handOver
  split
  · exact .rfl
  · split
    · dsimp only
      unfold sendThrough
      split
      · exact .rfl
      · exact worked_of_eq rfl rfl rfl rfl rfl rfl
          (c.setup.gives_send _ _ _ _ ⟨c.registry.ids, .none⟩)
    · exact worked_of_eq rfl rfl rfl rfl rfl rfl .rfl

theorem worked_conclude (c : ControlRoom) (now : Moment) (entry : String)
    (result : Except Fault DeliveryResult) : c.Worked (c.conclude now entry result).state := by
  unfold conclude
  split
  · exact worked_adjustEntry c _ _
  · split
    · exact .rfl
    · exact worked_adjustEntry c _ _

theorem worked_beginAttempt (c : ControlRoom) (now : Moment) (entry : String) :
    c.Worked (c.beginAttempt now entry).state := by
  unfold beginAttempt
  split
  · exact .rfl
  · exact worked_adjustEntry c _ _
  · exact .rfl
  · rename_i r limit _ _ _
    have hhand := worked_handOver c now r (some entry)
    split
    · rename_i f d hd
      rw [hd] at hhand
      exact hhand
    · rename_i h d hd
      rw [hd] at hhand
      split
      · exact hhand.trans (worked_conclude d now entry _)
      · exact hhand

theorem worked_beginDelivery (c : ControlRoom) (now : Moment) (r : DeliveryRequest)
    (level : Int) : c.Worked (c.beginDelivery now r level).state := by
  have hdraw : c.Worked (c.draw .notification).2 :=
    worked_of_eq rfl rfl rfl rfl rfl rfl (c.registry.ids.grows_draw _)
  unfold beginDelivery
  cases hd : c.draw .notification with
  | mk id d =>
      rw [hd] at hdraw
      have hbegun : d.Worked { d with journal := d.journal.insert id (.begin id r level now) } :=
        worked_of_eq rfl rfl rfl rfl rfl rfl .rfl
      exact (hdraw.trans hbegun).trans (worked_beginAttempt _ now id)

theorem worked_beginHanding (c : ControlRoom) (now : Moment) (r : DeliveryRequest) :
    c.Worked (c.beginHanding now r).state := by
  have hhand := worked_handOver c now r none
  unfold beginHanding
  split
  · rename_i f d hd
    rw [hd] at hhand
    exact hhand
  · rename_i h d hd
    rw [hd] at hhand
    split
    · exact hhand
    · exact hhand

/-! ## Notifications -/

theorem endNotification_state (c : ControlRoom) (now : Moment) (r : AlertRef)
    (entries : List String) (sequel : Sequel) :
    (c.endNotification now r entries sequel).state = c := by
  unfold endNotification
  split
  · rfl
  · dsimp only
    split
    · rfl
    · rfl
    · split
      · rfl
      · rfl

theorem stopNotification_state (c : ControlRoom) (s : Stop) (sequel : Sequel) :
    (c.stopNotification s sequel).state = c := by
  unfold stopNotification
  split
  · rfl
  · split
    · split
      · rfl
      · rfl
    · rfl

variable {now : Moment} (hnow : now.offset = c.opened.offset)

include hnow

theorem worked_admitted (r : Routing) (a : Alert) (ts : List Target) :
    c.Worked (c.admitted now r a ts).2 := by
  unfold admitted
  split
  · exact .rfl
  · refine ⟨⟨⟨rfl, rfl, .rfl, fun _ h => h, fun h => h, fun hc => ?_, .rfl⟩, fun h => h,
      fun _ _ h => h⟩, rfl, rfl⟩
    obtain ⟨result, l, hrun, hl, -⟩ := Limiter.run_allow r.limits
      ⟨a.configurationId, a.ruleId⟩ (firsts (ts.map (·.recipient.id)))
      (congrArg Option.isSome hnow) hc
    dsimp only
    rw [hrun]
    exact hl

/-- Limits that fail leave the room as it was. -/
theorem admitted_of_error (hc : c.OnOneClock) {r : Routing} {a : Alert} {ts : List Target}
    {f : Fault} (h : (c.admitted now r a ts).1 = .error f) : (c.admitted now r a ts).2 = c := by
  unfold admitted at *
  split at h
  · exact nomatch h
  · rename_i hts
    obtain ⟨result, l, hrun, -, hkeep⟩ := Limiter.run_allow r.limits
      ⟨a.configurationId, a.ruleId⟩ (firsts (ts.map (·.recipient.id)))
      (congrArg Option.isSome hnow) hc
    rw [if_neg hts]
    dsimp only at h ⊢
    rw [hrun] at h ⊢
    cases result with
    | error g =>
        dsimp only
        rw [hkeep ⟨g, rfl⟩]
    | ok ids => exact nomatch h

theorem worked_requests (r : Routing) (alert : AlertRef) (a : Alert) :
    c.Worked (c.requests now r alert a).2 := by
  unfold requests
  split
  · exact .rfl
  · exact worked_admitted hnow r a _

/-- Routing that fails leaves the room as it was. -/
theorem requests_of_error (hc : c.OnOneClock) {r : Routing} {alert : AlertRef} {a : Alert}
    {f : Fault} (h : (c.requests now r alert a).1 = .error f) :
    (c.requests now r alert a).2 = c := by
  unfold requests at *
  split at h
  · rfl
  · rename_i ts hcand
    refine admitted_of_error hnow hc (f := f) ?_
    dsimp only at h
    cases hres : (c.admitted now r a ts).1 with
    | error g =>
        rw [hres] at h
        have hg : g = f := Except.error.inj h
        rw [hg]
    | ok us =>
        rw [hres] at h
        exact nomatch h

theorem worked_beginNotification (alert : AlertRef) (r : Routing) (sequel : Sequel) :
    c.Worked (c.beginNotification now alert r sequel).state := by
  unfold beginNotification
  split
  · exact .rfl
  · rename_i a _
    have hreq := worked_requests hnow r alert a
    split
    · rename_i f d hd
      rw [hd] at hreq
      rw [stopNotification_state]
      exact hreq
    · rename_i d hd
      rw [hd] at hreq
      rw [endNotification_state]
      exact hreq
    · rename_i rs d _ hd
      rw [hd] at hreq
      exact hreq

theorem worked_beginAnnouncement (alert : AlertRef) :
    c.Worked (c.beginAnnouncement now alert).state := by
  unfold beginAnnouncement
  split
  · exact .rfl
  · exact worked_beginNotification hnow alert _ _

omit hnow

theorem worked_takeIn (c : ControlRoom) (now : Moment) (alert : AlertRef) (left : Nat)
    (entries : List String) (sequel : Sequel) (os : List (Outcome Yield)) :
    c.Worked (c.takeIn now alert left entries sequel os).state := by
  unfold takeIn
  split
  · rw [stopNotification_state]
    exact .rfl
  · dsimp only
    split
    · rw [endNotification_state]
      exact worked_adjustAlert (Store.spares_of_forall fun _ => ⟨rfl, rfl⟩)
    · exact .rfl

/-! ## Retries and escalations -/

theorem worked_endRetry (c : ControlRoom) (now : Moment) (tried asked : List String) (most : Int)
    (again : Bool) : c.Worked (c.endRetry now tried asked most again).state := by
  unfold endRetry
  dsimp only
  split
  · exact worked_of_eq rfl rfl rfl rfl rfl rfl .rfl
  · exact worked_of_eq rfl rfl rfl rfl rfl rfl .rfl

theorem worked_beginRetry (c : ControlRoom) (now : Moment) (entries : List String) (most : Int)
    (again : Bool) : c.Worked (c.beginRetry now entries most again).state := by
  have hall : ∀ (ids : List String) (d : ControlRoom),
      d.Worked (ids.foldl (fun d id => d.adjustEntry id (·.beginRetry now)) d) := by
    intro ids
    induction ids with
    | nil => exact fun _ => .rfl
    | cons id ids ih => exact fun d => (worked_adjustEntry d id _).trans (ih _)
  unfold beginRetry
  split
  · exact .rfl
  · exact worked_endRetry c now _ _ _ _
  · exact hall _ c

theorem endEscalation_state (c : ControlRoom) (now : Moment) (alert : AlertRef) (p : Policy)
    (booked : Bool) (entries : List String) :
    (c.endEscalation now alert p booked entries).state = c := by
  unfold endEscalation
  split
  · unfold followUp
    dsimp only
    split
    · rfl
    · split
      · rfl
      · rfl
  · rfl

theorem worked_rise (c : ControlRoom) (alert : AlertRef) (s : Stage) (since : Moment)
    (entries : List String) : c.Worked (c.rise alert s since entries) :=
  worked_adjustAlert (Store.spares_of_forall fun _ => ⟨rfl, rfl⟩)

theorem worked_beginEscalation (c : ControlRoom) (now : Moment) (alert : AlertRef) (p : Policy)
    (level : Option Int) : c.Worked (c.beginEscalation now alert p level).state := by
  unfold beginEscalation
  split
  · exact .rfl
  · split
    · rw [endEscalation_state]
      exact .rfl
    · split
      · exact .rfl
      · split
        · rw [endEscalation_state]
          exact .rfl
        · split
          · rw [endEscalation_state]
            exact worked_rise c alert _ now []
          · exact .rfl

/-! ## Passes -/

theorem worked_adjustRounds (c : ControlRoom) (f : Rounds → Rounds) : c.Worked (c.adjustRounds f) :=
  worked_of_eq rfl rfl rfl rfl rfl rfl .rfl

theorem worked_leaveRow (c : ControlRoom) (awaited : Bool) : c.Worked (c.leaveRow awaited) := by
  unfold leaveRow
  split
  · exact worked_adjustRounds c _
  · exact .rfl

theorem worked_afterRound (c : ControlRoom) (most : Option Int) (made : Nat) (awaited : Bool) :
    c.Worked (c.afterRound most made awaited).state := by
  unfold afterRound
  dsimp only
  split
  · exact worked_leaveRow c awaited
  · split
    · exact worked_leaveRow c awaited
    · exact .rfl

theorem worked_endPass (c : ControlRoom) (p : PassFor) (found : List String) :
    c.Worked (c.endPass p found).state := by
  cases p with
  | caller => exact .rfl
  | single =>
      exact worked_of_eq rfl rfl rfl rfl rfl rfl .rfl
  | row most made awaited =>
      exact (worked_adjustRounds c _).trans (worked_afterRound _ most made awaited)

theorem worked_stopPass (c : ControlRoom) (p : PassFor) (s : Stop) :
    c.Worked (c.stopPass p s).state := by
  unfold stopPass
  split
  · exact (worked_adjustRounds c _).trans (worked_afterRound _ _ _ _)
  · exact worked_leaveRow c _
  · exact .rfl

theorem worked_announce (c : ControlRoom) (p : PassFor) (known found : List String) :
    c.Worked (c.announce p known found).state := by
  unfold announce
  split
  · exact worked_endPass c p []
  · exact .rfl

theorem worked_beginPass (c : ControlRoom) (p : PassFor) (s : Snapshot) :
    c.Worked (c.beginPass p s).state := by
  unfold beginPass
  dsimp only
  split
  · exact worked_stopPass c p _
  · split
    · exact worked_announce c p _ []
    · exact .rfl

theorem worked_beginRound (c : ControlRoom) (now : Moment) (p : PassFor) :
    c.Worked (c.beginRound now p).state := by
  unfold beginRound
  dsimp only
  split
  · exact (worked_adjustRounds c _).trans (worked_stopPass _ p _)
  · exact (worked_adjustRounds c _).trans (worked_beginPass _ p _)

theorem worked_nextRound (c : ControlRoom) (now : Moment) (p : PassFor) :
    c.Worked (c.nextRound now p).state := by
  unfold nextRound
  split
  · split
    · exact worked_beginRound c now _
    · exact worked_leaveRow c _
  · exact worked_beginRound c now p

theorem worked_stopWork (c : ControlRoom) (s : Stop) (w : Work) :
    c.Worked (c.stopWork s w).state := by
  unfold stopWork
  split
  · exact worked_stopPass c _ s
  · exact worked_stopPass c _ s
  · exact worked_stopPass c _ s
  · exact worked_stopPass c _ s
  · exact worked_stopPass c _ s
  · rw [stopNotification_state]
    exact .rfl
  · exact .rfl

/-- The clock of the room keeps the offset with which the room was opened. -/
theorem offset_of_clock? {now : Instant} {m : Moment} (h : c.clock? now = some m) :
    m.offset = c.opened.offset := by
  unfold clock? Moment.plus? at h
  dsimp only at h
  split at h
  · rw [← Option.some.inj h]
  · exact nomatch h

/-- Work that is no evaluation. -/
theorem worked_program (now : Instant) (c : ControlRoom) {w : Work}
    (hw : ∀ b s, w ≠ .evaluate b s) (wake : Wake Yield) :
    c.Worked (program now c w wake).state := by
  unfold program
  split
  · rename_i now hnow
    have hoffset := offset_of_clock? hnow
    unfold goOnWith
    split
    · exact worked_stopWork c _ _
    · exact worked_beginRound c now _
    · exact worked_nextRound c now _
    · exact worked_beginPass c _ _
    · exact worked_announce c _ _ _
    · exact worked_endPass c _ _
    · exact absurd rfl (hw _ _)
    · exact worked_beginAnnouncement hoffset _
    · exact worked_beginNotification hoffset _ _ _
    · exact worked_takeIn c now _ _ _ _ _
    · exact worked_beginDelivery c now _ _
    · exact worked_beginAttempt c now _
    · exact worked_adjustEntry c _ _
    · exact worked_conclude c now _ _
    · exact worked_adjustEntry c _ _
    · exact .rfl
    · exact worked_beginHanding c now _
    · exact .rfl
    · exact worked_beginRetry c now _ _ _
    · exact worked_endRetry c now _ _ _ _
    · exact worked_beginEscalation c now _ _ _
    · rw [endEscalation_state]
      exact worked_rise c _ _ _ _
    · exact .rfl
  · exact worked_stopWork c _ w

/-- The room after an evaluation, which does nothing where the calendar ends. -/
theorem evaluate_cases (now : Instant) (c : ControlRoom) (b : Assignment) (s : Snapshot) :
    program now c (.evaluate b s) .start = c.evaluate b s ∨
      c.clock? now = none ∧ program now c (.evaluate b s) .start = c.fail .outOfBounds := by
  unfold program
  split
  · exact .inl rfl
  · rename_i hnone
    exact .inr ⟨hnone, rfl⟩

theorem later_evaluate (now : Instant) (c : ControlRoom) (b : Assignment) (s : Snapshot)
    (wake : Wake Yield) : c.Later (program now c (.evaluate b s) wake).state := by
  have hrun : c.Later (c.evaluate b s).state :=
    ⟨rfl, rfl, (b.evaluated_run s c.registry).grows, fun _ h => h, fun h => h, fun h => h,
      b.grows_run s c.registry⟩
  unfold program
  split
  · cases wake with
    | stopped st => exact Later.rfl
    | _ => exact hrun
  · exact Later.rfl

/-- No work changes the configurations or the recipients that are known. -/
theorem settings_program (now : Instant) (c : ControlRoom) (w : Work) (wake : Wake Yield) :
    (program now c w wake).state.configurations = c.configurations ∧
      (program now c w wake).state.directory = c.directory := by
  by_cases hw : ∃ b s, w = .evaluate b s
  · obtain ⟨b, s, rfl⟩ := hw
    unfold program
    split
    · cases wake <;> exact ⟨rfl, rfl⟩
    · exact ⟨rfl, rfl⟩
  · have hworked := worked_program now c (fun b s h => hw ⟨b, s, h⟩) wake
    exact ⟨hworked.configurations, hworked.directory⟩

/-- **All work keeps what is in the room.** -/
theorem later_program (now : Instant) (c : ControlRoom) (w : Work) (wake : Wake Yield) :
    c.Later (program now c w wake).state := by
  by_cases hw : ∃ b s, w = .evaluate b s
  · obtain ⟨b, s, rfl⟩ := hw
    exact later_evaluate now c b s wake
  · exact (worked_program now c (fun b s h => hw ⟨b, s, h⟩) wake).toLater

/-! ## Requests -/

theorem kept_keep (c : ControlRoom) (k : Configuration) : c.Kept (c.keep k) :=
  ⟨⟨rfl, rfl, .rfl, fun _ h => Table.isSome_get?_insert _ _ _ _ h, fun h => h.insert rfl,
    fun h => h, .rfl⟩, fun h => h, fun _ _ h => h⟩

theorem kept_addConfiguration (c : ControlRoom) (k : Configuration) :
    c.Kept (c.addConfiguration k).2 := by
  unfold addConfiguration
  split
  · exact .rfl
  · exact kept_keep c k

theorem kept_addFromTemplate (c : ControlRoom) (now : Moment) (key : String) (u : TemplateUse) :
    c.Kept (c.addFromTemplate now key u).2 := by
  unfold addFromTemplate
  split
  · exact .rfl
  · rename_i t _
    have hdraft : c.Worked (c.drafting (t.configuration u now)).2 :=
      worked_of_eq rfl rfl rfl rfl rfl rfl (t.gives_configuration u now c.registry.ids)
    split
    · rename_i f d hd
      rw [hd] at hdraft
      exact hdraft.toKept
    · rename_i k d hd
      rw [hd] at hdraft
      have hadd := kept_addConfiguration d k
      split
      · rename_i e d' hd'
        rw [hd'] at hadd
        exact hdraft.toKept.trans hadd
      · rename_i v d' hd'
        rw [hd'] at hadd
        exact hdraft.toKept.trans hadd

theorem kept_updateConfiguration (c : ControlRoom) (now : Moment) (id : String) (ch : Change) :
    c.Kept (c.updateConfiguration now id ch).2 := by
  unfold updateConfiguration
  split
  · exact .rfl
  · rename_i k hk
    split
    · exact .rfl
    · dsimp only
      split
      · exact .rfl
      · refine ⟨⟨rfl, rfl, .rfl, fun _ h => Table.isSome_get?_insert _ _ _ _ h, fun h => ?_,
          fun h => h, .rfl⟩, fun h => h, fun _ _ h => h⟩
        have hid : k.id = id := h.of_get? hk
        exact h.insert hid

theorem kept_touch (c : ControlRoom) (now : Moment) (id : String)
    {f : Configuration → Configuration} (hf : ∀ k, (f k).id = k.id) :
    c.Kept (c.touch now id f) :=
  ⟨⟨rfl, rfl, .rfl, fun _ h => (Table.isSome_get?_adjust _ _ _ _).trans h,
    fun h => h.adjust fun k hk => (hf k).trans hk, fun h => h, .rfl⟩, fun h => h, fun _ _ h => h⟩

theorem kept_setRuleEnabled (c : ControlRoom) (now : Moment) (id ruleId : String) (on : Bool) :
    c.Kept (c.setRuleEnabled now id ruleId on) := by
  unfold setRuleEnabled
  split
  · exact .rfl
  · exact kept_touch c now id fun _ => rfl

end ControlRoom

namespace Office

/-- What somebody does about an alert. -/
theorem kept_settleAlert (o : Office) (id : String) {f : Alert → Option Alert}
    (hf : ∀ a b, f a = some b → b.Follows a) : o.state.Kept (o.settleAlert id f).2.state := by
  unfold settleAlert
  split
  · exact .rfl
  · rename_i b hb
    obtain ⟨a, ha, hfa⟩ := Option.bind_eq_some_iff.mp hb
    have hfollows := hf a b hfa
    have hspares : o.state.store.Spares (o.ref id) fun _ => b := by
      refine ⟨fun hs _ _ => hfollows.id.trans (hs.of_get? ha), fun x hx => ?_⟩
      rw [show o.ref id = o.state.store.ref id from rfl, Store.find?_ref] at hx
      rw [← Option.some.inj (ha.symm.trans hx)]
      exact hfollows.configurationId
    have hstate := (rebooked_cancelAlert (o.adjust (·.adjustAlert (o.ref id) fun _ => b)) id).state
    dsimp only
    rw [hstate]
    exact (ControlRoom.worked_adjustAlert hspares).toKept

/-- **All that is asked for keeps what is in the room.** -/
theorem kept_serve {o : Office} (hn : Agenda.Numbered o) (r : Request) :
    o.state.Kept (serve o r).state := by
  have hsettle : ∀ (id : String) (m : Remedy) (f : Alert → Option Alert),
      (∀ a b, f a = some b → m.apply a = b) → o.state.Kept (o.settleAlert id f).2.state :=
    fun id m f hf => kept_settleAlert o id fun a b h => hf a b h ▸ Alert.follows_remedy m a
  cases r with
  | addConfiguration k => exact ControlRoom.kept_addConfiguration _ k
  | addFromTemplate key u => exact ControlRoom.kept_addFromTemplate _ _ key u
  | updateConfiguration id ch => exact ControlRoom.kept_updateConfiguration _ _ id ch
  | setStatus id s => exact ControlRoom.kept_touch _ _ id fun _ => rfl
  | setRuleEnabled id ruleId on => exact ControlRoom.kept_setRuleEnabled _ _ id ruleId on
  | openLine channel carrier =>
      have hopened : o.state.Worked (o.state.openLine channel carrier) :=
        ControlRoom.worked_of_eq rfl rfl rfl rfl rfl rfl .rfl
      exact hopened.toKept
  | pass s => exact .rfl
  | retry entries most => exact .rfl
  | escalate id p level => exact .rfl
  | acknowledge id who =>
      refine hsettle id (.acknowledge who o.clock) _ fun a b h => ?_
      unfold Remedy.apply
      dsimp only
      rw [h]
      rfl
  | resolve id who notes =>
      refine hsettle id (.resolve who notes o.clock) _ fun a b h => ?_
      unfold Remedy.apply
      dsimp only
      rw [h]
      rfl
  | markFalsePositive id who =>
      exact hsettle id (.markFalsePositive who o.clock) _ fun a b h => Option.some.inj h
  | bookRetries entries =>
      have hstate := (rebooked_bookAll (o.state.retryAppointments o.clock entries).1 hn).state
      exact hstate ▸ .rfl
  | bookEscalation id p =>
      show o.state.Kept (o.bookEscalation id p).2.state
      unfold bookEscalation
      split
      · exact .rfl
      · rename_i m _
        have hstate := (rebooked_bookAll m.toList hn).state
        exact hstate ▸ .rfl
  | shutdown =>
      have hstate := (rebooked_cancelBookings o).state
      exact hstate ▸ .rfl

variable {p : Premises} {h : History ControlRoom Work Yield} {o : Office}

/-- What is in the room stays there in every run. -/
theorem Premises.Run.later (hr : p.Run h o) :
    p.room.Later o.state ∧
      (∀ s ∈ h, p.room.Later s.state ∧ (s.turn ControlRoom.program).state.Later o.state) ∧
      h.Pairwise fun d s => (s.turn ControlRoom.program).state.Later d.state :=
  hr.rises (fun _ => .rfl) .trans (sound_idle _ _) outside_of_serve
    (fun now c w wake => ControlRoom.later_program now c w wake)
    fun hn ⟨r, hb⟩ => hb ▸ (kept_serve hn r).toLater

end Office

end BuildingAlerts
