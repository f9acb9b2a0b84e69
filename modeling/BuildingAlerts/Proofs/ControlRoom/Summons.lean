/-
Calls to escalate.

Somebody asks an idle room to escalate an alert from a level, and for nothing else. The room may take
its ready items in any order. All there is are the call and the deliveries of the stage that it fires,
and each of these is followed from the draw of its identifier to its end.
-/
import BuildingAlerts.Proofs.ControlRoom.Firing
import BuildingAlerts.Proofs.ControlRoom.Owners
import BuildingAlerts.Proofs.ControlRoom.Returning
import BuildingAlerts.Proofs.ControlRoom.Traffic

set_option autoImplicit false

namespace BuildingAlerts

open Agenda

/-! ## Work of a call -/

namespace Work

variable {w b : Work} {n : Next Work Yield}

/-- Work of a call to escalate from a level, not of its deliveries. -/
def IsSummons (w : Work) : Prop :=
  (∃ r p level, w = .escalate r p (some level)) ∨ ∃ r p s since, w = .escalating r p s since false

/-- Work on a delivery that nobody has tried before. -/
def IsDispatch (w : Work) : Prop :=
  (∃ q level, w = .deliver q level) ∨ (∃ e y, w = .sending e y) ∨ ∃ e k, w = .lapsing e k

theorem IsSummons.isManaged (hw : w.IsSummons) : w.IsManaged := by
  rcases hw with ⟨r, p, level, rfl⟩ | ⟨r, p, s, since, rfl⟩ <;> trivial

theorem IsSummons.not_sends (hw : w.IsSummons) : ¬ w.Sends := by
  rcases hw with ⟨r, p, level, rfl⟩ | ⟨r, p, s, since, rfl⟩ <;> exact id

theorem IsSummons.not_isDispatch (hw : w.IsSummons) : ¬ w.IsDispatch := by
  rintro (⟨_, _, rfl⟩ | ⟨_, _, rfl⟩ | ⟨_, _, rfl⟩) <;>
    rcases hw with ⟨_, _, _, h⟩ | ⟨_, _, _, _, h⟩ <;> exact nomatch h

theorem IsDispatch.isDelivery (hw : w.IsDispatch) : w.IsDelivery := by
  rcases hw with h | ⟨e, y, rfl⟩ | ⟨e, k, rfl⟩
  · exact .inl h
  · exact .inr ⟨e, decide_eq_true rfl⟩
  · exact .inr ⟨e, decide_eq_true rfl⟩

/-- Of this work only deliveries that begin hand something over. -/
theorem IsDispatch.deliver_of_sends (hw : w.IsDispatch) (hsends : w.Sends) :
    ∃ q level, w = .deliver q level := by
  rcases hw with h | ⟨e, y, rfl⟩ | ⟨e, k, rfl⟩
  · exact h
  · exact hsends.elim
  · exact hsends.elim

/-- Deliveries do not go on with another attempt. -/
theorem Leads.isDispatch (hn : w.Leads n) (hw : w.IsDelivery) (hb : n.body? = some b) :
    b.IsDispatch := by
  cases hn with
  | finish => exact nomatch hb
  | sending => exact .inr (.inl ⟨_, _, (Option.some.inj hb).symm⟩)
  | lapsing => exact .inr (.inr ⟨_, _, (Option.some.inj hb).symm⟩)
  | _ => rcases hw with ⟨q, level, h⟩ | ⟨e, h⟩ <;> exact nomatch h

end Work

namespace ControlRoom

variable {now : Instant} {c : ControlRoom} {w : Work} {wake : Wake Yield}

/-- A call to escalate ends at once, or it waits for the deliveries of a stage. -/
theorem beginEscalation_of_level (c : ControlRoom) (m : Moment) (r : AlertRef) (p : Policy)
    (level : Int) :
    (∃ d y, c.beginEscalation m r p (some level) = goOn d (.finish y)) ∨
      ∃ (rs : List DeliveryRequest) (s : Stage), c.beginEscalation m r p (some level)
        = c.goOn (.gather (rs.map fun q => .deliver q s.level) (.escalating r p s m false)) := by
  unfold beginEscalation
  split
  · exact .inl ⟨_, _, rfl⟩
  · split
    · exact .inl ⟨_, _, rfl⟩
    · split
      · exact .inl ⟨_, _, rfl⟩
      · split
        · exact .inl ⟨_, _, rfl⟩
        · split
          · exact .inl ⟨_, _, rfl⟩
          · exact .inr ⟨_, _, rfl⟩

/-- What a call does when it goes on. -/
theorem program_summons (now : Instant) (c : ControlRoom) (hw : w.IsSummons) (wake : Wake Yield) :
    (∃ d y, program now c w wake = goOn d (.finish y)) ∨
      ∃ r p level m s, ∃ rs : List DeliveryRequest, w = .escalate r p (some level) ∧
        program now c w wake
          = c.goOn (.gather (rs.map fun q => .deliver q s.level) (.escalating r p s m false)) := by
  rcases hw with ⟨r, p, level, rfl⟩ | ⟨r, p, s, since, rfl⟩
  · rcases program_escalate now c r p (some level) wake with ⟨-, st, h⟩ | ⟨m, -, -, h⟩
    · exact .inl ⟨_, _, h⟩
    · rcases beginEscalation_of_level c m r p level with ⟨d, y, h'⟩ | ⟨rs, s, h'⟩
      · exact .inl ⟨d, y, h.trans h'⟩
      · exact .inr ⟨r, p, level, m, s, rs, rfl, h.trans h'⟩
  · rcases program_escalating now c r p s since false wake with ⟨st, h⟩ | ⟨m, ys, es, -, h⟩
    · exact .inl ⟨_, _, h⟩
    · exact .inl ⟨_, _, h⟩

/-- **A call and its deliveries** keep apart. Only the call waits for others. -/
theorem parted_isSummons : Parted program Work.IsSummons Work.IsDispatch
    fun w => ∃ r p s since, w = .escalating r p s since false where
  booksNothing := by
    rintro now c w wake (hw | hw)
    · rcases program_summons now c hw wake with ⟨d, y, h⟩ | ⟨_, _, _, _, _, _, -, h⟩ <;> rw [h] <;> rfl
    · exact (ofCall_delivery now c hw.isDelivery wake).booksNothing
  keeps := by
    intro now c w wake hw b hb
    rcases program_summons now c hw wake with ⟨d, y, h⟩ | ⟨r, p, _, m, s, _, -, h⟩
    · rw [h] at hb
      exact nomatch hb
    · rw [h] at hb
      exact .inr ⟨r, p, s, m, (Option.some.inj hb).symm⟩
  starts := by
    intro now c w wake hw v hv
    rcases program_summons now c hw wake with ⟨d, y, h⟩ | ⟨_, _, _, _, s, rs, -, h⟩
    · rw [h] at hv
      exact absurd hv List.not_mem_nil
    · rw [h] at hv
      obtain ⟨q, -, rfl⟩ := List.mem_map.mp hv
      exact .inl ⟨q, s.level, rfl⟩
  parts := fun now c _ wake hw b hb =>
    (shaped_program now c hw.isDelivery.isManaged wake).next.isDispatch hw.isDelivery hb
  leaf := fun now c _ wake hw =>
    (shaped_program now c hw.isDelivery.isManaged wake).next.children_of_isDelivery hw.isDelivery
  waits := by
    rintro now c w wake (hw | hw) cs b hnext
    · rcases program_summons now c hw wake with ⟨d, y, h⟩ | ⟨r, p, _, m, s, _, -, h⟩
      · rw [h] at hnext
        exact nomatch hnext
      · rw [h] at hnext
        exact ⟨r, p, s, m, (Next.gather.inj hnext).2.symm⟩
    · exact absurd hnext ((shaped_program now c hw.isDelivery.isManaged wake).next.waits_for_nobody
        hw.isDelivery cs b).2.2

/-! ## What a stage asks for -/

/-- A request of a stage is for a channel that has a line. -/
theorem supports_of_stageRequests {r : AlertRef} {a : Alert} {s : Stage} {q : DeliveryRequest}
    (hq : q ∈ c.stageRequests r a s) : c.supports q.channel = true := by
  obtain ⟨recipient, -, ch, -, hq⟩ := mem_stageRequests hq
  obtain ⟨hline, p, k, -, -, hchannel, -⟩ := of_stageRequest? hq
  exact hchannel ▸ hline

end ControlRoom

namespace Office

variable {h : Past} {o : Office} {id : String} {n : Doing} {q : DeliveryRequest}

/-! ## What becomes of an entry -/

/-- A delivery that begins enters its level. -/
theorem level_of_draws (hdraws : draws id n = true) {level : Int} (hbody : n.body = .deliver q level)
    (hwake : n.wake = .start) {e : LogEntry}
    (he : (n.turn ControlRoom.program).state.journal.get? id = some e) : e.escalationLevel = level := by
  obtain ⟨-, ⟨m, hm⟩, rfl⟩ := draws_iff.mp hdraws
  unfold Stint.turn at he
  rw [hbody, hwake, ControlRoom.program_of_clock hm] at he
  obtain ⟨⟨x, hx, hrevises⟩, -⟩ := ControlRoom.revised_beginDelivery n.state m q level
  obtain rfl := Option.some.inj (hx.symm.trans he)
  exact hrevises.escalationLevel

/-- Other work revises an entry at most. -/
theorem stays_of_not_draws (hn : n.body.IsManaged) (hdraws : draws id n = false) :
    LogEntry.Stays (n.state.clock? n.now) (n.state.journal.get? id)
      ((n.turn ControlRoom.program).state.journal.get? id) := by
  refine (ControlRoom.revised_program n.now n.state hn n.wake id).resolve_right ?_
  rintro ⟨q, level, m, e, hbody, hm, hid, -⟩
  exact Bool.false_ne_true
    (hdraws.symm.trans (draws_iff.mpr ⟨⟨q, level, hbody⟩, ⟨m, hm⟩, hid⟩))

/-- The identifier that a delivery draws as it begins. -/
def drawn? (n : Doing) : Option String :=
  match n.body with
  | .deliver _ _ => some n.state.nextEntry
  | _ => none

theorem drawn?_eq_some : drawn? n = some id ↔
    (∃ q level, n.body = .deliver q level) ∧ n.state.nextEntry = id := by
  unfold drawn?
  split
  · rename_i q level hbody
    exact ⟨fun h => ⟨⟨q, level, hbody⟩, Option.some.inj h⟩, fun h => congrArg some h.2⟩
  · rename_i hno
    exact ⟨nofun, fun ⟨⟨q, level, hbody⟩, _⟩ => absurd hbody (hno q level)⟩

theorem draws_iff_drawn? (hclock : n.state.clock? n.now ≠ none) :
    draws id n = true ↔ drawn? n = some id := by
  rw [draws_iff, drawn?_eq_some]
  exact ⟨fun ⟨hbody, _, hid⟩ => ⟨hbody, hid⟩,
    fun ⟨hbody, hid⟩ => ⟨hbody, Option.ne_none_iff_exists'.mp hclock, hid⟩⟩

/-- Identifiers that are given once are drawn once. The induction is on the past. -/
theorem nodup_drawn (hh : History.Coherent ControlRoom.program h)
    (hfirst : ∀ n ∈ h, ∀ q level, n.body = .deliver q level → n.first = true)
    (hone : ∀ id, GivenOnce id h) (hclock : CalendarLasts h) : (h.filterMap drawn?).Nodup := by
  induction h with
  | nil => exact List.nodup_nil
  | cons n h ih =>
      have hrest := ih (hh.of_suffix (List.suffix_cons n h))
        (fun m hm => hfirst m (List.mem_cons_of_mem n hm))
        (fun id => (hone id).of_subset fun m hm => List.mem_cons_of_mem n hm)
        (fun m hm => hclock m (List.mem_cons_of_mem n hm))
      cases hn : drawn? n with
      | none =>
          rw [List.filterMap_cons_none hn]
          exact hrest
      | some id =>
          rw [List.filterMap_cons_some hn]
          -- a second draw would be by the same task, and that begins once
          refine List.nodup_cons.mpr ⟨fun hid => ?_, hrest⟩
          obtain ⟨m, hm, hmid⟩ := List.mem_filterMap.mp hid
          have hdraws : ∀ {d : Doing}, d ∈ n :: h → drawn? d = some id → draws id d = true :=
            fun hd => (draws_iff_drawn? (hclock _ hd)).mpr
          obtain ⟨⟨q, level, hbody⟩, -⟩ := drawn?_eq_some.mp hn
          refine hh.ne_of_first (List.suffix_refl _) (hfirst n List.mem_cons_self q level hbody) m hm ?_
          exact hone id m (List.mem_cons_of_mem n hm) n List.mem_cons_self
            (hdraws (List.mem_cons_of_mem n hm) hmid) (hdraws List.mem_cons_self hn)

/-! ## A call to escalate -/

/-- A call to escalate: the room, the alert, its policy, and the level from which. -/
structure Summons where
  room : ControlRoom
  alert : AlertRef
  policy : Policy
  level : Int

namespace Summons

variable {x : Summons}

/-- The work that is asked for. -/
def work (x : Summons) : Work :=
  .escalate x.alert x.policy (some x.level)

/-- What the room comes to, whichever ready items it takes, and the stints on the way there. -/
abbrev Run (x : Summons) : Past → Office → Prop :=
  Agenda.Asked ControlRoom.program x.room x.work

/-- The first stint of the call. -/
def opening (x : Summons) : Doing :=
  Agenda.opening x.room x.work

theorem isSummons_work (x : Summons) : x.work.IsSummons :=
  .inl ⟨_, _, _, rfl⟩

/-- A stint is of the call or of a delivery. -/
theorem Run.kind (hr : x.Run h o) (hn : n ∈ h) : n.body.IsSummons ∨ n.body.IsDispatch :=
  Agenda.Asked.kind ControlRoom.parted_isSummons.plain (.inl x.isSummons_work) hr hn

theorem Run.isManaged (hr : x.Run h o) (hn : n ∈ h) : n.body.IsManaged :=
  (hr.kind hn).elim Work.IsSummons.isManaged fun hw => hw.isDelivery.isManaged

theorem Run.shaped (hr : x.Run h o) (hn : n ∈ h) :
    ControlRoom.Shaped n.body.Leads (n.turn ControlRoom.program) :=
  ControlRoom.shaped_program n.now n.state (hr.isManaged hn) n.wake

theorem Run.roles (hr : x.Run h o) :
    (∀ t j, Agenda.job? o t = some j →
      Agenda.Asked.Role Work.IsSummons Work.IsDispatch t j.1 j.2) ∧
    ∀ n ∈ h, Agenda.Asked.Role Work.IsSummons Work.IsDispatch n.task n.audience n.body :=
  Agenda.Asked.roles ControlRoom.parted_isSummons x.isSummons_work hr

theorem Run.main (hr : x.Run h o) (hn : n ∈ h) (hw : n.body.IsSummons) :
    n.task = 0 ∧ n.audience = .caller := by
  rcases hr.roles.2 n hn with ⟨hzero, haudience, -⟩ | ⟨-, -, hpart⟩
  · exact ⟨hzero, haudience⟩
  · exact absurd hpart hw.not_isDispatch

theorem Run.part (hr : x.Run h o) (hn : n ∈ h) (hw : n.body.IsDispatch) :
    n.task ≠ 0 ∧ n.audience = .task 0 := by
  rcases hr.roles.2 n hn with ⟨-, -, hmain⟩ | ⟨hne, haudience, -⟩
  · exact absurd hw hmain.not_isDispatch
  · exact ⟨hne, haudience⟩

theorem Run.isSummons (hr : x.Run h o) (hn : n ∈ h) (hzero : n.task = 0) : n.body.IsSummons :=
  (hr.kind hn).resolve_right fun hpart => (hr.part hn hpart).1 hzero

/-- Work with which tasks begin is done in the first stint of a task. -/
theorem Run.first (hr : x.Run h o) (hn : n ∈ h) (hbody : n.body.IsFirst) :
    n.first = true ∧ n.wake = .start :=
  hr.sound.coherent.first_of_body hn fun _ hd hb => (hr.shaped hd).next.not_isFirst hb hbody

/-- Deliveries are not stopped. -/
theorem Run.unstopped (hr : x.Run h o) (hn : n ∈ h) (hbody : n.body.IsDelivery) (st : Stop) :
    n.wake ≠ .stopped st := by
  intro hwake
  obtain ⟨r, p, s, since, hw⟩ := Agenda.Asked.unstopped ControlRoom.parted_isSummons.plain
    (.inl x.isSummons_work) hr hn hwake
  rw [hw] at hbody
  rcases hbody with ⟨q, level, h⟩ | ⟨e, h⟩ <;> exact nomatch h

/-- Whoever starts others is the call as it begins. -/
theorem Run.eq_opening (hr : x.Run h o) (hn : n ∈ h) (hbody : n.body.IsSummons) {cs : List Work}
    {b : Work} (hnext : (n.turn ControlRoom.program).next = .gather cs b) : n = x.opening := by
  have hopening : x.opening ∈ h := Agenda.Asked.opening_mem hr hn
  -- when a call goes on it starts nobody, so whoever starts others begins
  have hfirst : n.first = true := by
    rcases ControlRoom.program_summons n.now n.state hbody n.wake with
      ⟨d, y, h⟩ | ⟨_, _, _, _, _, _, hw, -⟩
    · exact nomatch (congrArg Turn.next h).symm.trans hnext
    · exact (hr.first hn (by rw [hw]; trivial)).1
  exact hr.sound.coherent.first_unique hn hopening hfirst rfl (hr.main hn hbody).1

/-- The call goes on only from its first stint. -/
theorem Run.eq_opening_of_body? (hr : x.Run h o) (hn : n ∈ h) (hzero : n.task = 0) {b : Work}
    (hb : (n.turn ControlRoom.program).next.body? = some b) : n = x.opening := by
  have hmain := hr.isSummons hn hzero
  rcases ControlRoom.program_summons n.now n.state hmain n.wake with
    ⟨d, y, h⟩ | ⟨_, _, _, _, _, _, -, h⟩
  · rw [show (n.turn ControlRoom.program).next = .finish y from congrArg Turn.next h] at hb
    exact nomatch hb
  · exact hr.eq_opening hn hmain (congrArg Turn.next h)

/-- A delivery that begins was started by the call as it began. -/
theorem Run.starts (hr : x.Run h o) (hn : n ∈ h) {level : Int} (hbody : n.body = .deliver q level) :
    x.opening ∈ h ∧ x.opening.Starts ControlRoom.program n.task (.deliver q level) := by
  have haudience : n.audience = .task 0 := (hr.part hn (.inl ⟨q, level, hbody⟩)).2
  obtain ⟨d, hd, hzero, -, hstarts⟩ := Agenda.Asked.started ControlRoom.parted_isSummons
    x.isSummons_work hr hn haudience (hr.first hn (by rw [hbody]; trivial)).1
  rw [hbody] at hstarts
  have hmain := hr.isSummons hd hzero
  obtain ⟨i, hi, hc⟩ := hstarts
  rcases ControlRoom.program_summons d.now d.state hmain d.wake with
    ⟨_, y, h⟩ | ⟨_, _, _, _, _, _, -, h⟩
  · rw [show (d.turn ControlRoom.program).next = .finish y from congrArg Turn.next h] at hi
    exact nomatch hi
  · obtain rfl := hr.eq_opening hd hmain (congrArg Turn.next h)
    exact ⟨hd, i, hi, hc⟩

/-- Nobody tries a delivery again. -/
theorem Run.retries (hr : x.Run h o) (hn : n ∈ h) (id : String) : n.body.retries id = false := by
  rcases hr.kind hn with hw | hw
  · rcases hw with ⟨_, _, _, h⟩ | ⟨_, _, _, _, h⟩ <;> rw [h] <;> rfl
  · exact ControlRoom.retries_of_isDelivery hw.isDelivery id

/-- What a call starts are deliveries that begin. -/
theorem Run.deliver_of_child (hr : x.Run h o) (hn : n ∈ h) {v : Work}
    (hv : v ∈ (n.turn ControlRoom.program).next.children) : ∃ q level, v = .deliver q level := by
  rcases hr.kind hn with hw | hw
  · rcases ControlRoom.program_summons n.now n.state hw n.wake with
      ⟨d, y, h⟩ | ⟨_, _, _, _, s, rs, -, h⟩
    · rw [show (n.turn ControlRoom.program).next = .finish y from congrArg Turn.next h] at hv
      exact absurd hv List.not_mem_nil
    · rw [show (n.turn ControlRoom.program).next = _ from congrArg Turn.next h] at hv
      obtain ⟨q, -, rfl⟩ := List.mem_map.mp hv
      exact ⟨q, s.level, rfl⟩
  · exact absurd ((hr.shaped hn).next.children_of_isDelivery hw.isDelivery ▸ hv) List.not_mem_nil

/-- A call deals with its deliveries as it should. -/
theorem Run.minds (hr : x.Run h o) (hn : n ∈ h) (id : String) : Minds id n where
  begins := fun q level hq => hr.first hn (by rw [hq]; trivial)
  waited := fun hlater htries => by
    obtain ⟨e, he⟩ := History.exists_suffix_of_mem hn
    refine wake_of_tries (hr.sound.coherent.of_suffix he) hlater
      (hr.unstopped hn (.inr ⟨id, htries⟩) _) fun d hd hb => ?_
    exact (hr.shaped (he.subset (List.mem_cons_of_mem n hd))).next.waits_of_tries hb htries
  adds := fun j hj => by
    unfold Stint.jobs at hj
    rw [show (n.turn ControlRoom.program).appointments = [] from
      ControlRoom.parted_isSummons.booksNothing _ _ _ _ (hr.kind hn)] at hj
    obtain ⟨v, hv, rfl⟩ := List.mem_map.mp hj
    obtain ⟨q, level, rfl⟩ := hr.deliver_of_child hn hv
    rfl
  goesOn := fun _ hb htries =>
    ControlRoom.tries_of_goesOn (hr.isManaged hn) (hr.retries hn id) hb htries
  leaves := fun htries hdeliver =>
    ControlRoom.leaves_program n.now n.state (hr.isManaged hn) htries (hr.retries hn id) hdeliver n.wake

/-- Channels that have a line when the call is made keep it. -/
theorem Run.supports (hr : x.Run h o) {ch : Channel} (hch : x.room.supports ch = true) :
    o.state.supports ch = true ∧ ∀ n ∈ h, n.state.supports ch = true := by
  refine Agenda.Run.holds (I := fun c => ControlRoom.supports c ch = true) (Agenda.sound_asked _ _ _)
    hr (fun n hn => ?_) hch
  rcases hr.kind hn with hw | hw
  · exact ControlRoom.Equips.of_lines (ControlRoom.lines_program n.now n.state hw.not_sends n.wake) ch
  · exact ControlRoom.equips_delivery n.now n.state hw.isDelivery n.wake ch

/-! ## The stage that a call fires -/

/-- The stage that comes after the level is due. -/
structure Fires (x : Summons) (now : Moment) (a : Alert) (s : Stage) : Prop where
  clock : x.room.clock? 0 = some now
  found : x.room.store.find? x.alert = some a
  next : a.nextStage? x.policy x.level = some s
  due : ∃ left, a.untilDue (x.room.entriesOf a) s now = .ok left ∧ ¬ 0 < left.micros

variable {now : Moment} {a : Alert} {s : Stage}

/-- What the stage asks for. -/
def requests (x : Summons) (a : Alert) (s : Stage) : List DeliveryRequest :=
  x.room.stageRequests x.alert a s

theorem turn_opening (x : Summons) (hclock : x.room.clock? 0 = some now) :
    x.opening.turn ControlRoom.program
      = x.room.beginEscalation now x.alert x.policy (some x.level) :=
  ControlRoom.program_of_clock (c := x.room) hclock x.work .start

/-- A stage that reaches nobody is over at once. Otherwise all its deliveries start together. -/
theorem Fires.turn (hf : x.Fires now a s) :
    (x.requests a s = [] ∧
        x.opening.turn ControlRoom.program = (x.room.rise x.alert s now []).done []) ∨
      x.requests a s ≠ [] ∧ x.opening.turn ControlRoom.program = x.room.goOn
        (.gather ((x.requests a s).map fun q => .deliver q s.level)
          (.escalating x.alert x.policy s now false)) := by
  obtain ⟨left, hleft, hdue⟩ := hf.due
  rw [x.turn_opening hf.clock]
  unfold ControlRoom.beginEscalation requests
  rw [hf.found]
  dsimp only [Option.getD_some]
  rw [hf.next]
  dsimp only
  rw [hleft]
  dsimp only
  rw [if_neg hdue]
  split
  · rename_i hnone
    exact .inl ⟨hnone, rfl⟩
  · rename_i hsome
    exact .inr ⟨hsome, rfl⟩

theorem Fires.children (hf : x.Fires now a s) :
    (x.opening.turn ControlRoom.program).next.children
      = (x.requests a s).map fun q => .deliver q s.level := by
  rcases hf.turn with ⟨hnone, hturn⟩ | ⟨-, hturn⟩
  · rw [hturn, hnone]
    rfl
  · rw [hturn]
    rfl

/-- The deliveries are numbered from one. -/
theorem firstChild_opening (x : Summons) : x.opening.firstChild ControlRoom.program = 1 := by
  unfold Stint.firstChild
  rw [show (x.opening.turn ControlRoom.program).appointments = [] from
    ControlRoom.parted_isSummons.booksNothing _ _ _ _ (.inl x.isSummons_work)]
  rfl

theorem Fires.childIds (hf : x.Fires now a s) :
    x.opening.childIds ControlRoom.program = List.range' 1 (x.requests a s).length := by
  unfold Stint.childIds
  rw [x.firstChild_opening, hf.children, List.length_map]

/-- A delivery of the call is one that the stage asks for, on the level of the stage. -/
theorem Run.request_of_deliver (hr : x.Run h o) (hf : x.Fires now a s) (hn : n ∈ h) {level : Int}
    (hbody : n.body = .deliver q level) :
    level = s.level ∧ ∃ i, (x.requests a s)[i]? = some q ∧ n.task = i + 1 := by
  obtain ⟨-, i, hi, htask⟩ := hr.starts hn hbody
  rw [hf.children, List.getElem?_map] at hi
  obtain ⟨q', hq', heq⟩ := Option.map_eq_some_iff.mp hi
  obtain ⟨rfl, rfl⟩ := Work.deliver.inj heq
  rw [x.firstChild_opening, Nat.add_comm] at htask
  exact ⟨rfl, i, hq', htask⟩

/-! ## All deliveries of a call -/

/-- **Every delivery of a call is followed.** -/
theorem Run.followed (hr : x.Run h o) (hf : x.Fires now a s) (hone : GivenOnce id h)
    (hclock : CalendarLasts h) (hserved : Call.Served h) : Followed id h o := by
  refine followed_of_asked ControlRoom.parted_isSummons.plain (.inl x.isSummons_work) rfl hr
    (fun n hn => hr.minds hn id) hone hclock (fun n hn => hserved n hn id) fun n hn q level hq => ?_
  -- the room keeps its lines, so a delivery finds the one that its stage has found
  obtain ⟨-, i, hi, -⟩ := hr.request_of_deliver hf hn hq
  exact (hr.supports (ControlRoom.supports_of_stageRequests (List.mem_of_getElem? hi))).2 n hn

/-- **The entries of a call are on the level of the stage.** The induction is on the run. -/
theorem Run.level_of_drawn (hr : x.Run h o) (hf : x.Fires now a s) (hdrawn : ∃ d ∈ h, draws id d = true)
    {e : LogEntry} (he : o.state.journal.get? id = some e) : e.escalationLevel = s.level := by
  induction hr generalizing e with
  | idle =>
      obtain ⟨d, hd, -⟩ := hdrawn
      exact absurd hd List.not_mem_nil
  | @step h b c place hr hb ih =>
      have hrun : x.Run h b := hr
      have hnow : x.Run _ c := Agenda.Run.step hr hb
      have hstate := Agenda.state_of_stepAt hrun.sound.numbered hb
      cases hs : Agenda.stintAt? b place with
      | none =>
          rw [hs] at hstate hdrawn
          have hstate : c.state = b.state := hstate
          exact ih hdrawn (hstate ▸ he)
      | some n =>
          rw [hs] at hstate hdrawn hnow
          have hstate : c.state = (n.turn ControlRoom.program).state := hstate
          obtain ⟨-, -, p, -, hof⟩ := Agenda.stintAt?_eq_some hs
          rw [hstate] at he
          cases hdraws : draws id n with
          | true =>
              obtain ⟨⟨q, level, hbody⟩, -⟩ := draws_iff.mp hdraws
              obtain ⟨rfl, -⟩ := hnow.request_of_deliver hf List.mem_cons_self hbody
              exact level_of_draws hdraws hbody
                (hnow.first List.mem_cons_self (by rw [hbody]; trivial)).2 he
          | false =>
              obtain ⟨f, hrevises, hget⟩ := stays_of_not_draws (hnow.isManaged List.mem_cons_self) hdraws
              rw [hget, hof.state] at he
              obtain ⟨y, hy, rfl⟩ := Option.map_eq_some_iff.mp he
              refine (hrevises y).escalationLevel.trans (ih ?_ hy)
              obtain ⟨d, hd, hdd⟩ := hdrawn
              refine ⟨d, (List.mem_cons.mp hd).resolve_left ?_, hdd⟩
              rintro rfl
              exact Bool.false_ne_true (hdraws.symm.trans hdd)
  | @pass h b time hr hready htime ih => exact ih hdrawn (state_passTo b time ▸ he)
  | serve _ hb _ => exact hb.elim

end Summons

end Office

end BuildingAlerts
