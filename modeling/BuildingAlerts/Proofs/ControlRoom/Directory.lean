/-
Whom escalations turn to.

The room knows recipients by their identifiers alone, whichever configuration lists them, and it
forgets none of them. An identifier stands for the recipient whom the latest configuration put in
place that lists it says, and a stage turns to the contacts of that recipient. So an escalation
goes where the configuration of the alert says for as long as no other one lists the same
identifier, and only then.
-/
import BuildingAlerts.Proofs.ControlRoom.Escalations
import BuildingAlerts.Proofs.Notification.Targets

set_option autoImplicit false

namespace BuildingAlerts

open Agenda

/-- The recipient that a routing lists under an identifier; of several the last counts. -/
def Routing.listed? (r : Routing) (id : String) : Option Recipient :=
  r.directory.reverse.lookup id

theorem Routing.of_listed? {r : Routing} {id : String} {y : Recipient} (h : r.listed? id = some y) :
    y ∈ r.recipients ∧ y.id = id := by
  obtain ⟨l, l', hl, -⟩ := List.lookup_eq_some_iff.mp h
  have hmem : (id, y) ∈ r.directory := by
    rw [← List.mem_reverse, hl]
    exact List.mem_append_right l List.mem_cons_self
  obtain ⟨x, hx, heq⟩ := List.mem_map.mp hmem
  obtain ⟨hid, rfl⟩ := Prod.mk.inj heq
  exact ⟨hx, hid⟩

/-- The recipient that an identifier stands for after some configurations were put in place, the
latest first. -/
def lastListed? (ks : List Configuration) (id : String) : Option Recipient :=
  ks.findSome? (·.routing.listed? id)

/-- A configuration that lists an identifier decides whom it stands for, unless one that was put in
place after it does. -/
theorem lastListed?_eq {ks : List Configuration} {configurationId id : String} {r : Routing}
    (hr : (ks.find? (·.id == configurationId)).map (·.routing) = some r)
    (hlists : (r.listed? id).isSome = true)
    (hothers : ∀ k ∈ ks.takeWhile (·.id != configurationId), k.routing.listed? id = none) :
    lastListed? ks id = r.listed? id := by
  induction ks with
  | nil => exact nomatch hr
  | cons k ks ih =>
      unfold lastListed?
      cases hk : k.id == configurationId with
      | true =>
          rw [List.find?_cons, hk] at hr
          obtain rfl := Option.some.inj hr
          obtain ⟨y, hy⟩ := Option.isSome_iff_exists.mp hlists
          rw [List.findSome?_cons, hy]
      | false =>
          have hne : (k.id != configurationId) = true := by rw [bne, hk]; rfl
          rw [List.find?_cons, hk] at hr
          rw [List.takeWhile_cons, hne, if_pos rfl] at hothers
          rw [List.findSome?_cons, hothers k List.mem_cons_self]
          exact ih hr fun x hx => hothers x (List.mem_cons_of_mem k hx)

namespace ControlRoom

/-! ## What is known of recipients -/

/-- `d` is `c` after a configuration was put in place, or as it was: as far as the recipients that
are known and the routings of the configurations go. -/
structure Files (c : ControlRoom) (k? : Option Configuration) (d : ControlRoom) : Prop where
  directory : ∀ id, d.directory.get? id
    = (k?.bind (·.routing.listed? id)).or (c.directory.get? id)
  routing : ∀ id, (d.configurations.get? id).map (·.routing)
    = ((k?.filter (·.id == id)).or (c.configurations.get? id)).map (·.routing)

variable {c d : ControlRoom}

theorem files_of_eq (hdirectory : d.directory = c.directory)
    (hconfigurations : d.configurations = c.configurations) : c.Files none d :=
  ⟨fun id => by rw [hdirectory]; rfl, fun id => by rw [hconfigurations]; rfl⟩

theorem files_keep (c : ControlRoom) (k : Configuration) : c.Files (some k) (c.keep k) where
  directory := fun id => Table.get?_insertAll c.directory k.routing.directory id
  routing := by
    intro id
    show ((c.configurations.insert k.id k).get? id).map (·.routing) = _
    rw [Table.get?_insert]
    by_cases hid : id = k.id
    · rw [if_pos hid, Option.filter_some, if_pos (beq_iff_eq.mpr hid.symm)]
      rfl
    · rw [if_neg hid, Option.filter_some, if_neg fun h => hid (beq_iff_eq.mp h).symm]
      rfl

theorem files_touch (c : ControlRoom) (now : Moment) (id : String)
    {f : Configuration → Configuration} (hf : ∀ k, (f k).routing = k.routing) :
    c.Files none (c.touch now id f) where
  directory := fun _ => rfl
  routing := by
    intro other
    show ((c.configurations.adjust id _).get? other).map (·.routing) = _
    rw [Table.get?_adjust]
    split
    · cases c.configurations.get? other with
      | none => rfl
      | some k => exact congrArg some (hf k)
    · rfl

theorem files_addConfiguration (c : ControlRoom) (k : Configuration) :
    c.Files ((c.addConfiguration k).1.toOption.map fun _ => k) (c.addConfiguration k).2 := by
  unfold addConfiguration
  split
  · exact files_of_eq rfl rfl
  · exact files_keep c k

theorem files_addFromTemplate (c : ControlRoom) (now : Moment) (key : String) (u : TemplateUse) :
    c.Files (c.addFromTemplate now key u).1.toOption (c.addFromTemplate now key u).2 := by
  unfold addFromTemplate
  split
  · exact files_of_eq rfl rfl
  · rename_i t _
    have hdraft : (c.drafting (t.configuration u now)).2.directory = c.directory ∧
      (c.drafting (t.configuration u now)).2.configurations = c.configurations := ⟨rfl, rfl⟩
    split
    · rename_i f d hd
      rw [hd] at hdraft
      exact files_of_eq hdraft.1 hdraft.2
    · rename_i k d hd
      rw [hd] at hdraft
      have hadd := files_addConfiguration d k
      -- the draft has drawn identifiers only
      have hback : ∀ {k? : Option Configuration} {e : ControlRoom}, d.Files k? e → c.Files k? e := by
        intro k? e he
        exact ⟨fun id => hdraft.1 ▸ he.directory id, fun id => hdraft.2 ▸ he.routing id⟩
      split
      · rename_i e d' hd'
        rw [hd'] at hadd
        exact hback hadd
      · rename_i v d' hd'
        rw [hd'] at hadd
        exact hback hadd

theorem files_updateConfiguration (hc : c.configurations.KeyedBy (·.id)) (now : Moment)
    (id : String) (ch : Change) : c.Files (c.updateConfiguration now id ch).1.toOption
      (c.updateConfiguration now id ch).2 := by
  unfold updateConfiguration
  split
  · exact files_of_eq rfl rfl
  · rename_i k hk
    split
    · exact files_of_eq rfl rfl
    · dsimp only
      split
      · exact files_of_eq rfl rfl
      · have hid : k.id = id := hc.of_get? hk
        have hkeep := files_keep c (ch.apply k now)
        unfold keep at hkeep
        rw [show (ch.apply k now).id = id from hid] at hkeep
        exact hkeep

theorem files_setRuleEnabled (c : ControlRoom) (now : Moment) (id ruleId : String) (on : Bool) :
    c.Files none (c.setRuleEnabled now id ruleId on) := by
  unfold setRuleEnabled
  split
  · exact files_of_eq rfl rfl
  · exact files_touch c now id fun _ => rfl

/-! ## What a configuration leaves alone -/

/-- The lines, the setup and the limiter are as they were. -/
structure SameEquipment (c d : ControlRoom) : Prop where
  lines : d.lines = c.lines
  setup : d.setup = c.setup
  limiter : d.limiter = c.limiter

theorem SameEquipment.trans {e : ControlRoom} (h : SameEquipment c d) (k : SameEquipment d e) :
    SameEquipment c e :=
  ⟨k.lines.trans h.lines, k.setup.trans h.setup, k.limiter.trans h.limiter⟩

theorem equipment_addConfiguration (c : ControlRoom) (k : Configuration) :
    SameEquipment c (c.addConfiguration k).2 := by
  unfold addConfiguration
  split
  · exact ⟨rfl, rfl, rfl⟩
  · exact ⟨rfl, rfl, rfl⟩

theorem equipment_addFromTemplate (c : ControlRoom) (now : Moment) (key : String)
    (u : TemplateUse) : SameEquipment c (c.addFromTemplate now key u).2 := by
  unfold addFromTemplate
  split
  · exact ⟨rfl, rfl, rfl⟩
  · rename_i t _
    have hdraft : SameEquipment c (c.drafting (t.configuration u now)).2 := ⟨rfl, rfl, rfl⟩
    split
    · rename_i f d hd
      rw [hd] at hdraft
      exact hdraft
    · rename_i k d hd
      rw [hd] at hdraft
      have hadd := equipment_addConfiguration d k
      split
      · rename_i e d' hd'
        rw [hd'] at hadd
        exact hdraft.trans hadd
      · rename_i v d' hd'
        rw [hd'] at hadd
        exact hdraft.trans hadd

theorem equipment_updateConfiguration (c : ControlRoom) (now : Moment) (id : String) (ch : Change) :
    SameEquipment c (c.updateConfiguration now id ch).2 := by
  unfold updateConfiguration
  split
  · exact ⟨rfl, rfl, rfl⟩
  · split
    · exact ⟨rfl, rfl, rfl⟩
    · dsimp only
      split
      · exact ⟨rfl, rfl, rfl⟩
      · exact ⟨rfl, rfl, rfl⟩

/-! ## The deliveries of a stage -/

/-- What a stage asks for depends on the room only through its recipients, its lines and the address
of its dashboard. -/
theorem stageRequests_congr {a : Alert} {s : Stage} (r : AlertRef)
    (hdirectory : ∀ id ∈ s.recipients, d.directory.get? id = c.directory.get? id)
    (hlines : d.lines = c.lines) (hsetup : d.setup = c.setup) :
    d.stageRequests r a s = c.stageRequests r a s := by
  have hone : ∀ id ∈ s.recipients, ∀ ch,
      d.stageRequest? r a s id ch = c.stageRequest? r a s id ch := by
    intro id hid ch
    have hsupports : d.supports ch = c.supports ch := by
      unfold supports
      rw [hlines]
    unfold stageRequest?
    rw [hdirectory id hid, hsupports, hsetup]
  unfold stageRequests
  rw [List.flatMap_def, List.flatMap_def]
  refine congrArg List.flatten (List.map_congr_left fun id hid => ?_)
  exact List.filterMap_congr fun ch _ => hone id hid ch

/-- Each delivery of a stage turns to a verified contact of whomever the room knows under one of the
identifiers of the stage. -/
theorem of_mem_stageRequests {r : AlertRef} {a : Alert} {s : Stage} {q : DeliveryRequest}
    (hq : q ∈ c.stageRequests r a s) : ∃ id ∈ s.recipients, ∃ y, c.directory.get? id = some y ∧
      q.channel ∈ s.channels ∧ q.recipientId = some y.id ∧
      ∃ k ∈ y.contacts, k.channel = q.channel ∧ k.verified = true ∧ q.address = k.value := by
  obtain ⟨id, hid, hq⟩ := List.mem_flatMap.mp hq
  obtain ⟨ch, hch, hq⟩ := List.mem_filterMap.mp hq
  unfold stageRequest? at hq
  obtain ⟨y, hy, hq⟩ := Option.bind_eq_some_iff.mp hq
  obtain ⟨-, -, hq⟩ := Option.bind_eq_some_iff.mp hq
  obtain ⟨k, hk, hq⟩ := Option.bind_eq_some_iff.mp hq
  obtain rfl := Option.some.inj hq
  obtain ⟨hmem, hof⟩ := Recipient.of_contactFor hk
  exact ⟨id, hid, y, hy, hch, rfl, k, hmem, hof.1, hof.2, rfl⟩

/-- The tasks that an escalation starts are the deliveries of the stage that comes next. -/
theorem children_beginEscalation {now : Moment} {r : AlertRef} {p : Policy} {level : Option Int}
    (hne : (c.beginEscalation now r p level).next.children ≠ []) :
    ∃ a s, c.store.find? r = some a ∧ a.nextStage? p (level.getD a.escalationLevel) = some s ∧
      (c.beginEscalation now r p level).next.children
        = (c.stageRequests r a s).map fun q => .deliver q s.level := by
  have hend : ∀ (d : ControlRoom) (booked : Bool),
      (d.endEscalation now r p booked []).next.children = [] := fun d booked =>
    (shaped_endEscalation (N := fun n => n.children = []) (c := d) (fun _ => rfl) now r p booked
      []).next
  unfold beginEscalation at *
  split at hne
  · exact absurd rfl hne
  · rename_i a ha
    split at hne
    · exact absurd (hend c _) hne
    · rename_i s hs
      split at hne
      · exact absurd rfl hne
      · rename_i left hleft
        split at hne
        · exact absurd (hend c _) hne
        · rename_i hdue
          split at hne
          · exact absurd (hend _ _) hne
          · refine ⟨a, s, ha, hs, ?_⟩
            rw [if_neg hdue]
            rfl

end ControlRoom

namespace Office

variable {p : Premises} {h : Past} {o : Office} {ks : List Configuration}

/-! ## Configurations that are put in place -/

/-- The configuration that a request puts in place, unless it is rejected. -/
def Request.files? (o : Office) : Request → Option Configuration
  | .addConfiguration k => (o.state.addConfiguration k).1.toOption.map fun _ => k
  | .addFromTemplate key u => (o.state.addFromTemplate o.clock key u).1.toOption
  | .updateConfiguration id ch => (o.state.updateConfiguration o.clock id ch).1.toOption
  | _ => none

theorem files_settleAlert (o : Office) (id : String) (f : Alert → Option Alert) :
    o.state.Files none (o.settleAlert id f).2.state := by
  unfold settleAlert
  split
  · exact ControlRoom.files_of_eq rfl rfl
  · rename_i a _
    have hstate := (rebooked_cancelAlert (o.adjust (·.adjustAlert (o.ref id) fun _ => a)) id).state
    dsimp only
    rw [hstate]
    exact ControlRoom.files_of_eq rfl rfl

/-- What a request does to the recipients that are known and to the routings. -/
theorem files_serve (hn : Agenda.Numbered o) (hkeyed : o.state.configurations.KeyedBy (·.id))
    (q : Request) : o.state.Files (q.files? o) (serve o q).state := by
  have hsame : ∀ {b : Office}, b.state = o.state → o.state.Files none b.state := fun hb =>
    ControlRoom.files_of_eq (congrArg ControlRoom.directory hb)
      (congrArg ControlRoom.configurations hb)
  cases q with
  | addConfiguration k => exact ControlRoom.files_addConfiguration _ k
  | addFromTemplate key u => exact ControlRoom.files_addFromTemplate _ _ key u
  | updateConfiguration id ch => exact ControlRoom.files_updateConfiguration hkeyed _ id ch
  | setStatus id s => exact ControlRoom.files_touch _ _ id fun _ => rfl
  | setRuleEnabled id ruleId on => exact ControlRoom.files_setRuleEnabled _ _ id ruleId on
  | openLine channel carrier => exact ControlRoom.files_of_eq rfl rfl
  | pass s => exact hsame rfl
  | retry entries most => exact hsame rfl
  | escalate id p level => exact hsame rfl
  | acknowledge id who => exact files_settleAlert o id _
  | resolve id who notes => exact files_settleAlert o id _
  | markFalsePositive id who => exact files_settleAlert o id _
  | bookRetries entries => exact hsame (rebooked_bookAll _ hn).state
  | bookEscalation id p =>
      show o.state.Files none (o.bookEscalation id p).2.state
      unfold bookEscalation
      split
      · exact hsame rfl
      · exact hsame (rebooked_bookAll _ hn).state
  | shutdown => exact hsame (rebooked_cancelBookings o).state

/-- Putting a configuration in place opens no line and leaves the setup alone. -/
theorem equipment_serve {q : Request} {k : Configuration} (hq : q.files? o = some k) :
    o.state.SameEquipment (serve o q).state := by
  cases q with
  | addConfiguration k => exact ControlRoom.equipment_addConfiguration _ k
  | addFromTemplate key u => exact ControlRoom.equipment_addFromTemplate _ _ key u
  | updateConfiguration id ch => exact ControlRoom.equipment_updateConfiguration _ _ id ch
  | _ => exact nomatch hq

/-- What an office may come to, with the configurations that were put in place on the way, the
latest first. -/
inductive Premises.Filed (p : Premises) : List Configuration → Past → Office → Prop
  | idle : p.Filed [] [] (.idle p.room)
  | step {ks : List Configuration} {h : Past} {o b : Office} {place : Nat} (hf : p.Filed ks h o)
      (hb : o.stepAt ControlRoom.program place = some b) :
      p.Filed ks ((o.stintAt? place).toList ++ h) b
  | pass {ks : List Configuration} {h : Past} {o : Office} {time : Instant} (hf : p.Filed ks h o)
      (hready : o.ready = []) (htime : o.now ≤ time) : p.Filed ks h (o.passTo time)
  | ask {ks : List Configuration} {h : Past} {o : Office} (hf : p.Filed ks h o) (q : Request) :
      p.Filed ((q.files? o).toList ++ ks) h (serve o q)

theorem Premises.Filed.run (hf : p.Filed ks h o) : p.Run h o := by
  induction hf with
  | idle => exact .idle
  | step _ hb ih => exact .step ih hb
  | pass _ hready htime ih => exact .pass ih hready htime
  | ask _ q ih => exact .serve ih ⟨q, rfl⟩

/-- **Whom an identifier stands for, and where alerts of a configuration go**, is told by the
configurations that were put in place, and by whom the office knew from the start. -/
theorem Premises.Filed.known (hf : p.Filed ks h o) :
    (∀ id, o.state.directory.get? id = (lastListed? ks id).or (p.directory.get? id)) ∧
      ∀ id, (o.state.configurations.get? id).map (·.routing)
        = (ks.find? (·.id == id)).map (·.routing) := by
  induction hf with
  | idle => exact ⟨fun id => rfl, fun id => rfl⟩
  | @step ks h o b place hf hb ih =>
      have hstate := state_of_stepAt hf.run.keeps.numbered hb
      cases hs : o.stintAt? place with
      | none =>
          rw [hs] at hstate
          rw [show b.state = o.state from hstate]
          exact ih
      | some n =>
          rw [hs] at hstate
          obtain ⟨-, -, _, -, hof⟩ := stintAt?_eq_some hs
          obtain ⟨hconfigurations, hdirectory⟩ :=
            ControlRoom.settings_program n.now n.state n.body n.wake
          rw [show b.state = (n.turn ControlRoom.program).state from hstate]
          unfold Stint.turn
          rw [hconfigurations, hdirectory, hof.state]
          exact ih
  | pass hf _ _ ih =>
      rw [state_passTo]
      exact ih
  | @ask ks h o hf q ih =>
      have hkeyed : o.state.configurations.KeyedBy (·.id) :=
        hf.run.later.1.keyed fun _ he => absurd he List.not_mem_nil
      have hfiles := files_serve hf.run.keeps.numbered hkeyed q
      refine ⟨fun id => ?_, fun id => ?_⟩
      · rw [hfiles.directory, ih.1]
        cases q.files? o with
        | none => rfl
        | some k =>
            show (k.routing.listed? id).or ((lastListed? ks id).or _)
              = (List.findSome? _ (k :: ks)).or _
            rw [List.findSome?_cons]
            cases k.routing.listed? id <;> rfl
      · rw [hfiles.routing]
        cases q.files? o with
        | none => exact ih.2 id
        | some k =>
            show _ = ((k :: ks).find? (·.id == id)).map (·.routing)
            rw [List.find?_cons, Option.filter_some]
            cases k.id == id with
            | true => rfl
            | false => exact ih.2 id

/-- An office that knew nobody at first knows whom the configurations list. -/
theorem Premises.Filed.told (hf : p.Filed ks h o) (hempty : p.directory = .empty) :
    (∀ id, o.state.directory.get? id = lastListed? ks id) ∧
      ∀ id, (o.state.configurations.get? id).map (·.routing)
        = (ks.find? (·.id == id)).map (·.routing) := by
  refine ⟨fun id => ?_, hf.known.2⟩
  rw [hf.known.1, hempty]
  exact Option.or_none

/-- What an escalation sends is what the stage that comes next asks for. -/
theorem stage_of_escalate {n : Doing} {r : AlertRef} {pol : Policy} {level : Option Int}
    (hbody : n.body = .escalate r pol level)
    (hne : (n.turn ControlRoom.program).next.children ≠ []) :
    ∃ a s, n.state.store.find? r = some a ∧
      a.nextStage? pol (level.getD a.escalationLevel) = some s ∧
      (n.turn ControlRoom.program).next.children
        = (n.state.stageRequests r a s).map (fun q => .deliver q s.level) := by
  unfold Stint.turn at *
  rw [hbody] at *
  rcases ControlRoom.program_escalate n.now n.state r pol level n.wake with ⟨-, st, hst⟩ |
    ⟨m, -, -, hbegin⟩
  · rw [hst] at hne
    exact absurd rfl hne
  · rw [hbegin] at hne ⊢
    exact ControlRoom.children_beginEscalation hne

/-- **An escalation turns to whomever its stage's identifiers stand for.** Each of its deliveries
goes to a verified contact of the recipient whom the latest configuration that lists the identifier
says; and that one is in the settings of the alert's own configuration where it lists the identifier
and no other has listed it since. To put a configuration in place that lists none of the
identifiers changes nothing about what the stage sends. -/
theorem Premises.Filed.turns_to (hf : p.Filed ks h o) (hempty : p.directory = .empty)
    {place : Nat} {n : Doing} (hn : o.stintAt? place = some n) {r : AlertRef} {pol : Policy}
    {level : Option Int} (hbody : n.body = .escalate r pol level)
    (hne : (n.turn ControlRoom.program).next.children ≠ []) :
    ∃ a s, o.state.store.find? r = some a ∧
      a.nextStage? pol (level.getD a.escalationLevel) = some s ∧
      (n.turn ControlRoom.program).next.children
        = (o.state.stageRequests r a s).map (fun q => .deliver q s.level) ∧
      (∀ q ∈ o.state.stageRequests r a s, ∃ id ∈ s.recipients, ∃ y, lastListed? ks id = some y ∧
        q.channel ∈ s.channels ∧ q.recipientId = some id ∧
        (∃ k ∈ y.contacts, k.channel = q.channel ∧ k.verified = true ∧ q.address = k.value) ∧
        ∀ k, o.state.configurations.get? a.configurationId = some k →
          (k.routing.listed? id).isSome = true →
          (∀ x ∈ ks.takeWhile (·.id != a.configurationId), x.routing.listed? id = none) →
          y ∈ k.routing.recipients) ∧
      ∀ q k, q.files? o = some k → (∀ id ∈ s.recipients, k.routing.listed? id = none) →
        (Office.serve o q).state.stageRequests r a s = o.state.stageRequests r a s := by
  obtain ⟨hdirectory, hrouting⟩ := hf.told hempty
  obtain ⟨-, -, _, -, hof⟩ := stintAt?_eq_some hn
  obtain ⟨a, s, ha, hs, hchildren⟩ := stage_of_escalate hbody hne
  rw [hof.state] at ha hchildren
  refine ⟨a, s, ha, hs, hchildren, fun q hq => ?_, fun q k hk hnone => ?_⟩
  · obtain ⟨id, hid, y, hy, hchannel, hrecipient, hcontact⟩ := ControlRoom.of_mem_stageRequests hq
    rw [hdirectory] at hy
    obtain ⟨x, -, hx⟩ := List.exists_of_findSome?_eq_some hy
    refine ⟨id, hid, y, hy, hchannel, (Routing.of_listed? hx).2 ▸ hrecipient, hcontact,
      fun k hk hlists hothers => ?_⟩
    have hr := hrouting a.configurationId
    rw [hk] at hr
    rw [lastListed?_eq hr.symm hlists hothers] at hy
    exact (Routing.of_listed? hy).1
  · have hkeyed : o.state.configurations.KeyedBy (·.id) :=
      hf.run.later.1.keyed fun _ he => absurd he List.not_mem_nil
    have hfiles := files_serve hf.run.keeps.numbered hkeyed q
    obtain ⟨hlines, hsetup, -⟩ := equipment_serve hk
    refine ControlRoom.stageRequests_congr r (fun id hid => ?_) hlines hsetup
    rw [hfiles.directory, hk]
    show (k.routing.listed? id).or _ = _
    rw [hnone id hid]
    rfl

/-! ## Two keepers -/

/-- Turns and waiting put nothing in place. -/
theorem Premises.Filed.after {ms : List Move} (hms : ∀ q, .ask q ∉ ms)
    {x : Past × Office} (hf : p.Filed ks x.1 x.2) :
    p.Filed ks (ms.foldl Move.after x).1 (ms.foldl Move.after x).2 := by
  induction ms generalizing x with
  | nil => exact hf
  | cons m ms ih =>
      refine ih (fun q hq => hms q (List.mem_cons_of_mem m hq)) ?_
      unfold Move.after
      cases m with
      | turn place =>
          dsimp only
          split
          · exact hf
          · rename_i hb
            exact hf.step hb
      | wait time =>
          dsimp only
          split
          · rename_i hcan
            rw [Bool.and_eq_true, List.isEmpty_iff, decide_eq_true_iff] at hcan
            exact hf.pass hcan.1 hcan.2
          · exact hf
      | ask q => exact absurd List.mem_cons_self (hms q)

namespace Sample

/-- The keeper is told again at once. -/
def promptly : Policy :=
  ⟨"keeper", "Keeper", [⟨1, 0, ["keeper"], [.email], true, 15, true, ""⟩], 3, rfl⟩

/-- The annex has a keeper too, who reads other mail. -/
def annex : Configuration :=
  { configuration "annex" .standard none with
    routing := { routing .standard with recipients := [⟨"keeper", "", "", "",
      [⟨.email, "porter@example.org", true, true⟩], [(.medium, [.email])], none⟩] } }

/-- An office that was asked for a pass over the ward. -/
def begun : Office :=
  serve (serve (.idle (premises fun _ => .ok ⟨true, .null, none, none⟩).room)
    (.addConfiguration (configuration "ward" .standard none))) (.pass snapshot)

/-- The ward after the pass. -/
def noticed : Past × Office :=
  (List.replicate 22 (Move.turn 0)).foldl Move.after ([], begun)

/-- Somebody escalates the alert of the ward by hand. -/
def press (o : Office) : Office :=
  serve o (.escalate warm.id promptly 0)

set_option maxRecDepth 100000 in
theorem filed_noticed : (premises fun _ => .ok ⟨true, .null, none, none⟩).Filed
    [configuration "ward" .standard none] noticed.1 noticed.2 := by
  have hfiles : Request.files? (.idle (premises fun _ => .ok ⟨true, .null, none, none⟩).room)
      (.addConfiguration (configuration "ward" .standard none))
        = some (configuration "ward" .standard none) := by
    obtain ⟨v, hv⟩ : ∃ v, (ControlRoom.addConfiguration
        (premises fun _ => .ok ⟨true, .null, none, none⟩).room
          (configuration "ward" .standard none)).1.toOption = some v :=
      Option.isSome_iff_exists.mp (by decide +kernel)
    exact congrArg (Option.map fun _ => configuration "ward" .standard none) hv
  have hadded := (Premises.Filed.idle (p := premises fun _ => .ok ⟨true, .null, none, none⟩)).ask
    (.addConfiguration (configuration "ward" .standard none))
  rw [hfiles] at hadded
  refine Premises.Filed.after (x := ([], begun)) (fun q hq => ?_) (hadded.ask (.pass snapshot))
  exact nomatch List.eq_of_mem_replicate hq

/-- An escalation of the alert of the ward that sends something. -/
def isPressing (n : Doing) : Bool :=
  match n.body with
  | .escalate r _ _ => decide (r = warm) && !(n.turn ControlRoom.program).next.children.isEmpty
  | _ => false

theorem of_isPressing {n : Doing} (hn : isPressing n = true) :
    (∃ pol level, n.body = .escalate warm pol level) ∧
      (n.turn ControlRoom.program).next.children ≠ [] := by
  unfold isPressing at hn
  split at hn
  · rename_i r pol level hbody
    rw [Bool.and_eq_true, decide_eq_true_iff, Bool.not_eq_true'] at hn
    obtain ⟨rfl, hne⟩ := hn
    refine ⟨⟨pol, level, hbody⟩, fun hnil => ?_⟩
    rw [hnil] at hne
    exact nomatch hne
  · exact nomatch hn

/-- A delivery to an address that the configuration of the ward does not list. -/
def isStray (c : ControlRoom) (w : Work) : Bool :=
  match w with
  | .deliver q _ => ((c.store.find? warm).bind fun a => c.configurations.get? a.configurationId).any
      fun k => k.routing.recipients.all fun y => y.contacts.all fun x => decide (q.address ≠ x.value)
  | _ => false

theorem of_isStray {c : ControlRoom} {w : Work} (hw : isStray c w = true) :
    ∃ q level a k, w = .deliver q level ∧ c.store.find? warm = some a ∧
      c.configurations.get? a.configurationId = some k ∧
      ∀ y ∈ k.routing.recipients, ∀ x ∈ y.contacts, q.address ≠ x.value := by
  unfold isStray at hw
  split at hw
  · rename_i q level
    obtain ⟨k, hk, hall⟩ := (Option.any_eq_true ..).mp hw
    obtain ⟨a, ha, hk⟩ := Option.bind_eq_some_iff.mp hk
    refine ⟨q, level, a, k, rfl, ha, hk, fun y hy x hx => ?_⟩
    exact of_decide_eq_true (List.all_eq_true.mp (List.all_eq_true.mp hall y hy) x hx)
  · exact nomatch hw

end Sample

set_option maxRecDepth 100000 in
/-- Where the ward's configuration is the only one, its keeper is told. -/
theorem turns_to_keeper : ∃ n pol level, (Sample.press Sample.noticed.2).stintAt? 0 = some n ∧
    n.body = .escalate Sample.warm pol level ∧
    (n.turn ControlRoom.program).next.children ≠ [] ∧
    ∃ a s, (Sample.press Sample.noticed.2).state.store.find? Sample.warm = some a ∧
      a.nextStage? pol (level.getD a.escalationLevel) = some s ∧
      (n.turn ControlRoom.program).next.children
        = ((Sample.press Sample.noticed.2).state.stageRequests Sample.warm a s).map
          (fun q => .deliver q s.level) ∧
      (∀ q ∈ (Sample.press Sample.noticed.2).state.stageRequests Sample.warm a s,
        ∃ id ∈ s.recipients, ∃ y,
          lastListed? [Sample.configuration "ward" .standard none] id = some y ∧
          q.channel ∈ s.channels ∧ q.recipientId = some id ∧
          (∃ k ∈ y.contacts, k.channel = q.channel ∧ k.verified = true ∧ q.address = k.value) ∧
          ∀ k, (Sample.press Sample.noticed.2).state.configurations.get? a.configurationId = some k →
            (k.routing.listed? id).isSome = true →
            (∀ x ∈ [Sample.configuration "ward" .standard none].takeWhile
              (·.id != a.configurationId), x.routing.listed? id = none) →
            y ∈ k.routing.recipients) ∧
      ∀ q k, q.files? (Sample.press Sample.noticed.2) = some k →
        (∀ id ∈ s.recipients, k.routing.listed? id = none) →
        (Office.serve (Sample.press Sample.noticed.2) q).state.stageRequests Sample.warm a s
          = (Sample.press Sample.noticed.2).state.stageRequests Sample.warm a s := by
  have hfound : ((Sample.press Sample.noticed.2).stintAt? 0).any Sample.isPressing = true := by
    decide +kernel
  obtain ⟨n, hn, hpressing⟩ := (Option.any_eq_true ..).mp hfound
  obtain ⟨⟨pol, level, hbody⟩, hne⟩ := Sample.of_isPressing hpressing
  exact ⟨n, pol, level, hn, hbody, hne, (Sample.filed_noticed.ask (.escalate Sample.warm.id
    Sample.promptly 0)).turns_to rfl hn hbody hne⟩

set_option maxRecDepth 100000 in
/-- **An escalation may turn to somebody whom the configuration of its alert does not list.** The
annex lists another recipient under the same identifier, and the alert of the ward goes there. -/
theorem turns_to_porter : ∃ (p : Premises) (h : Past) (o : Office), p.Run h o ∧
    p.directory = .empty ∧ ∃ place n r pol level, o.stintAt? place = some n ∧
      n.body = .escalate r pol level ∧ ∃ q x a k,
        .deliver q x ∈ (n.turn ControlRoom.program).next.children ∧
        o.state.store.find? r = some a ∧ o.state.configurations.get? a.configurationId = some k ∧
        ∀ y ∈ k.routing.recipients, ∀ c ∈ y.contacts, q.address ≠ c.value := by
  have hfound : ((Sample.press (serve Sample.noticed.2 (.addConfiguration Sample.annex))).stintAt?
      0).any (fun n => Sample.isPressing n &&
        (n.turn ControlRoom.program).next.children.any
          (Sample.isStray (Sample.press (serve Sample.noticed.2
            (.addConfiguration Sample.annex))).state)) = true := by
    decide +kernel
  obtain ⟨n, hn, hboth⟩ := (Option.any_eq_true ..).mp hfound
  obtain ⟨hpressing, hstray⟩ := Bool.and_eq_true_iff.mp hboth
  obtain ⟨⟨pol, level, hbody⟩, -⟩ := Sample.of_isPressing hpressing
  obtain ⟨w, hw, hw'⟩ := List.any_eq_true.mp hstray
  obtain ⟨q, x, a, k, rfl, ha, hk, hall⟩ := Sample.of_isStray hw'
  exact ⟨_, _, _, ((Sample.filed_noticed.ask (.addConfiguration Sample.annex)).ask
    (.escalate Sample.warm.id Sample.promptly 0)).run, rfl, 0, n, Sample.warm, pol, level, hn, hbody,
    q, x, a, k, hw, ha, hk, hall⟩

end Office

end BuildingAlerts
