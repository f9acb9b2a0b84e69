/-
Calls to notify.

Somebody may ask for the notification of an alert under given settings and wait for it, while nothing
else is under way. The call starts a delivery for each request and listens to them, and nothing
disturbs it.
-/
import BuildingAlerts.Proofs.Agenda.Asked
import BuildingAlerts.Proofs.ControlRoom.Isolation
import BuildingAlerts.Proofs.ControlRoom.Listening
import BuildingAlerts.Proofs.ControlRoom.Retries
import BuildingAlerts.Proofs.Notification.Targets

set_option autoImplicit false

namespace BuildingAlerts

open Agenda

/-- Work of a call to notify: the call itself and its deliveries. -/
def Work.IsOfCall (w : Work) : Prop :=
  (∃ r q, w = .route r q) ∨ (∃ r left es, w = .collecting r left es .none) ∨ w.IsDelivery

/-- Work of a call itself, not of its deliveries. -/
def Work.IsCall (w : Work) : Prop :=
  (∃ r q, w = .route r q) ∨ ∃ r left es, w = .collecting r left es .none

theorem Work.isOfCall_iff {w : Work} : w.IsOfCall ↔ w.IsCall ∨ w.IsDelivery :=
  or_assoc.symm

theorem Work.IsCall.isOfCall {w : Work} (hw : w.IsCall) : w.IsOfCall :=
  Work.isOfCall_iff.mpr (.inl hw)

/-- Work on a delivery is managed work. -/
theorem Work.IsDelivery.isManaged {w : Work} (hw : w.IsDelivery) : w.IsManaged := by
  rcases hw with ⟨r, level, rfl⟩ | ⟨e, he⟩
  · trivial
  · rcases Work.of_tries he with rfl | ⟨x, rfl⟩ | ⟨k, rfl⟩ <;> trivial

/-- A delivery starts no others. -/
theorem Work.Leads.children_of_isDelivery {w : Work} {n : Next Work Yield} (hn : w.Leads n)
    (hw : w.IsDelivery) : n.children = [] := by
  cases hn with
  | finish | awaiting | sending | lapsing => rfl
  | _ => rcases hw with ⟨r, level, h⟩ | ⟨e, h⟩ <;> exact nomatch h

/-- Deliveries do not wait for others. -/
theorem Work.Leads.waits_for_nobody {w : Work} {n : Next Work Yield} (hn : w.Leads n)
    (hw : w.IsDelivery) (cs : List Work) (b : Work) :
    n ≠ .collect cs b ∧ n ≠ .await b ∧ n ≠ .gather cs b := by
  cases hn with
  | finish | sending | lapsing => exact ⟨nofun, nofun, nofun⟩
  | _ => rcases hw with ⟨r, level, h⟩ | ⟨e, h⟩ <;> exact nomatch h

namespace ControlRoom

/-- A stretch of a call: it books nothing, and leads to work of a call only. -/
structure OfCall (t : Stretch) : Prop where
  booksNothing : t.appointments = []
  keeps : ∀ b, t.next.body? = some b → b.IsOfCall
  children : ∀ v ∈ t.next.children, ∃ q, v = .deliver q 0
  listens : ∀ cs b, t.next ≠ .gather cs b

theorem ofCall_goOn (c : ControlRoom) {n : Next Work Yield} (hkeeps : ∀ b, n.body? = some b → b.IsOfCall)
    (hchildren : ∀ v ∈ n.children, ∃ q, v = .deliver q 0) (hlistens : ∀ cs b, n ≠ .gather cs b) :
    OfCall (c.goOn n) :=
  ⟨rfl, hkeeps, hchildren, hlistens⟩

theorem ofCall_finish (c : ControlRoom) (o : Outcome Yield) : OfCall (c.goOn (.finish o)) :=
  ofCall_goOn c (fun _ hb => nomatch (show none = some _ from hb))
    (fun _ hc => absurd hc List.not_mem_nil) fun _ _ h => nomatch h

/-- A call begins, or it is stopped before that. -/
theorem program_route (now : Instant) (c : ControlRoom) (r : AlertRef) (q : Routing)
    (wake : Wake Yield) : (∃ st, program now c (.route r q) wake = c.stop st) ∨
      ∃ m, c.clock? now = some m ∧
        program now c (.route r q) wake = c.beginNotification m r q .none := by
  unfold program
  split
  · rename_i m hm
    cases wake with
    | stopped st => exact .inl ⟨st, rfl⟩
    | _ => exact .inr ⟨m, hm, rfl⟩
  · exact .inl ⟨_, rfl⟩

theorem ofCall_beginNotification (c : ControlRoom) (now : Moment) (r : AlertRef) (q : Routing) :
    OfCall (c.beginNotification now r q .none) := by
  unfold beginNotification
  split
  · exact ofCall_finish c _
  · split
    · exact ofCall_finish _ _
    · exact ofCall_finish _ _
    · refine ofCall_goOn _ (fun b hb => ?_) (fun d hd => ?_) fun _ _ h => nomatch h
      · exact .inr (.inl ⟨_, _, _, (Option.some.inj hb).symm⟩)
      · obtain ⟨x, -, rfl⟩ := List.mem_map.mp hd
        exact ⟨x, rfl⟩

theorem ofCall_takeIn (c : ControlRoom) (now : Moment) (r : AlertRef) (left : Nat) (es : List String)
    (os : List (Outcome Yield)) : OfCall (c.takeIn now r left es .none os) := by
  unfold takeIn
  split
  · exact ofCall_finish c _
  · dsimp only
    split
    · exact ofCall_finish _ _
    · refine ofCall_goOn _ (fun b hb => ?_) (fun d hd => absurd hd List.not_mem_nil)
        fun _ _ h => nomatch h
      exact .inr (.inl ⟨_, _, _, (Option.some.inj hb).symm⟩)

/-- A delivery has no other heir than what it goes on with. -/
theorem Tries.appointments {id : String} {x y : Option LogEntry} {t : Stretch} (ht : Tries id x y t) :
    t.appointments = [] := by
  have hnil : t.appointments.map (·.body) = [] := by
    cases ht with
    | fails _ hheirs _ => exact (List.append_eq_nil_iff.mp (List.append_eq_nil_iff.mp hheirs).2).1
    | ends _ _ hheirs _ => exact (List.append_eq_nil_iff.mp (List.append_eq_nil_iff.mp hheirs).2).1
    | goesOn _ _ _ hheirs hnext =>
        unfold Turn.heirs at hheirs
        rw [hnext] at hheirs
        have hrest : t.appointments.map (·.body) ++ t.next.children = [] := (List.cons.inj hheirs).2
        exact (List.append_eq_nil_iff.mp hrest).1
  exact List.map_eq_nil_iff.mp hnil

theorem ofCall_delivery (now : Instant) (c : ControlRoom) {w : Work} (hw : w.IsDelivery)
    (wake : Wake Yield) : OfCall (program now c w wake) := by
  have hshaped := (shaped_program now c hw.isManaged wake).next
  refine ⟨?_, fun b hb => .inr (.inr (hshaped.isDelivery hw hb)), fun d hd => ?_,
    fun cs b => (hshaped.waits_for_nobody hw cs b).2.2⟩
  · rcases hw with ⟨r, level, rfl⟩ | ⟨e, he⟩
    · rcases program_deliver now c r level wake with ⟨st, h⟩ | ⟨m, -, h⟩
      · rw [h]
        rfl
      · rw [h]
        obtain ⟨d, -, -, -, -, htried⟩ := tried_beginDelivery c m r level
        exact htried.tries.appointments
    · exact (tried_program now c he wake).tries.appointments
  · exact absurd hd (hshaped.children_of_isDelivery hw ▸ List.not_mem_nil)

/-- **Work of a call** leads to such work only. -/
theorem ofCall_program (now : Instant) (c : ControlRoom) {w : Work} (hw : w.IsOfCall)
    (wake : Wake Yield) : OfCall (program now c w wake) := by
  rcases hw with ⟨r, q, rfl⟩ | ⟨r, left, es, rfl⟩ | hw
  · rcases program_route now c r q wake with ⟨st, h⟩ | ⟨m, -, h⟩
    · rw [h]
      exact ofCall_finish c _
    · rw [h]
      exact ofCall_beginNotification c m r q
  · unfold program
    split
    · cases wake with
      | arrived os => exact ofCall_takeIn c _ r left es os
      | _ => exact ofCall_finish c _
    · exact ofCall_finish c _
  · exact ofCall_delivery now c hw wake

theorem plain_isOfCall : Plain program Work.IsOfCall fun _ => False where
  booksNothing := fun now c _ wake hw => (ofCall_program now c hw wake).booksNothing
  keeps := fun now c _ wake hw => (ofCall_program now c hw wake).keeps
  children := by
    intro now c w wake hw v hv
    obtain ⟨q, rfl⟩ := (ofCall_program now c hw wake).children v hv
    exact .inr (.inr (.inl ⟨q, 0, rfl⟩))
  waits := fun now c _ wake hw cs b hnext => absurd hnext ((ofCall_program now c hw wake).listens cs b)

/-- What a call goes on with, apart from its deliveries. -/
theorem collecting_of_call {now : Instant} {c : ControlRoom} {w b : Work} {wake : Wake Yield}
    (hw : w.IsCall) (hb : (program now c w wake).next.body? = some b) :
    ∃ r left es, b = .collecting r left es .none := by
  rcases hw with ⟨r, q, rfl⟩ | ⟨r, left, es, rfl⟩
  · rcases program_route now c r q wake with ⟨st, h⟩ | ⟨m, -, h⟩
    · rw [h] at hb
      exact nomatch hb
    · rw [h] at hb
      obtain ⟨rs, -, rfl, -⟩ := of_body?_beginNotification hb
      exact ⟨_, _, _, rfl⟩
  · obtain ⟨os, -, -, -, rfl, -⟩ := taken_in now c hb
    exact ⟨_, _, _, rfl⟩

/-- **A call and its deliveries** keep apart. -/
theorem parted_isCall : Parted program Work.IsCall Work.IsDelivery fun _ => False where
  booksNothing := fun now c _ wake hw =>
    (ofCall_program now c (hw.elim Work.IsCall.isOfCall fun hw => .inr (.inr hw)) wake).booksNothing
  keeps := fun now c _ wake hw b hb => .inr (collecting_of_call hw hb)
  starts := by
    intro now c w wake hw v hv
    obtain ⟨q, rfl⟩ := (ofCall_program now c hw.isOfCall wake).children v hv
    exact .inl ⟨q, 0, rfl⟩
  parts := fun now c _ wake hw b hb =>
    (shaped_program now c hw.isManaged wake).next.isDelivery hw hb
  leaf := fun now c _ wake hw => (shaped_program now c hw.isManaged wake).next.children_of_isDelivery hw
  waits := fun now c _ wake hw cs b hnext => absurd hnext
    ((ofCall_program now c (hw.elim Work.IsCall.isOfCall fun hw => .inr (.inr hw)) wake).listens cs b)

/-- No work of a call goes on as a call that begins. -/
theorem body?_ne_route (now : Instant) (c : ControlRoom) {w : Work} (hw : w.IsOfCall)
    (wake : Wake Yield) (r : AlertRef) (q : Routing) :
    (program now c w wake).next.body? ≠ some (.route r q) := by
  intro hb
  rcases Work.isOfCall_iff.mp hw with hw | hw
  · obtain ⟨_, _, _, heq⟩ := collecting_of_call hw hb
    exact nomatch heq
  · have hshaped := (shaped_program now c hw.isManaged wake).next
    rcases hshaped.isDelivery hw hb with ⟨r', level, heq⟩ | ⟨e, heq⟩
    · exact nomatch heq
    · exact nomatch heq

/-- Only a call starts others to listen to them. -/
theorem route_of_collect {now : Instant} {c : ControlRoom} {w : Work} (hw : w.IsOfCall)
    {wake : Wake Yield} {cs : List Work} {b : Work}
    (hnext : (program now c w wake).next = .collect cs b) : ∃ r q, w = .route r q := by
  rcases hw with ⟨r, q, rfl⟩ | ⟨r, left, es, rfl⟩ | hw
  · exact ⟨r, q, rfl⟩
  · obtain ⟨os, -, -, -, -, hawait⟩ := taken_in now c (congrArg Next.body? hnext)
    exact nomatch hawait.symm.trans hnext
  · have hshaped := (shaped_program now c hw.isManaged wake).next
    rw [hnext] at hshaped
    cases hshaped with
    | _ => rcases hw with ⟨r, level, h⟩ | ⟨e, h⟩ <;> exact nomatch h

theorem listeners_isOfCall : Listeners program Work.IsOfCall Work.IsCollecting where
  begins := by
    intro now c w wake hw cs b hnext
    obtain ⟨r, q, rfl⟩ := route_of_collect hw hnext
    have hb := congrArg Next.body? hnext
    rcases program_route now c r q wake with ⟨st, h⟩ | ⟨m, -, h⟩
    · rw [h] at hb
      exact nomatch hb
    · rw [h] at hb
      obtain ⟨rs, -, rfl, -⟩ := of_body?_beginNotification hb
      trivial
  goesOn := by
    intro now c w wake _ hcollecting b hb
    cases w with
    | collecting r left es sequel =>
        obtain ⟨os, hwake, -, -, rfl, hnext⟩ := taken_in now c hb
        exact ⟨trivial, hnext, os, hwake⟩
    | _ => exact hcollecting.elim

end ControlRoom

namespace Office

/-- A call to notify: the room, the alert and the settings. -/
structure Call where
  room : ControlRoom
  alert : AlertRef
  routing : Routing

namespace Call

variable {x : Call} {h : Past} {o : Office}

/-- The office when the call is made. -/
def start (x : Call) : Office :=
  Agenda.launch (.idle x.room) .caller (.route x.alert x.routing)

/-- What the office comes to that takes its ready items in their order, and the stints on the way
there. -/
abbrev Run (x : Call) : Past → Office → Prop :=
  InTurn ControlRoom.program x.start

/-- The first stint of the call. -/
def opening (x : Call) : Doing :=
  ⟨0, .caller, 0, x.room, .route x.alert x.routing, .start, true, 1⟩

/-! ## Nobody disturbs a call -/

theorem sound_start (x : Call) : Sound ControlRoom.program none [] x.start :=
  Agenda.sound_asked _ _ _

theorem undisturbed_start (x : Call) : Undisturbed Work.IsOfCall (fun _ => False) x.start :=
  Agenda.undisturbed_asked (.inl ⟨_, _, rfl⟩)

/-- The room is asked for the notification, and for nothing else. -/
theorem Run.asked (hr : x.Run h o) :
    Agenda.Asked ControlRoom.program x.room (.route x.alert x.routing) h o :=
  hr.run

theorem Run.sound (hr : x.Run h o) : Sound ControlRoom.program none h o :=
  hr.asked.sound

theorem Run.undisturbed (hr : x.Run h o) : Undisturbed Work.IsOfCall (fun _ => False) o :=
  hr.asked.undisturbed ControlRoom.plain_isOfCall (.inl ⟨_, _, rfl⟩)

theorem Run.isOfCall (hr : x.Run h o) {s : Doing} (hs : s ∈ h) : s.body.IsOfCall :=
  hr.asked.kind ControlRoom.plain_isOfCall (.inl ⟨_, _, rfl⟩) hs

theorem Run.unstopped (hr : x.Run h o) {s : Doing} (hs : s ∈ h) (st : Stop) : s.wake ≠ .stopped st :=
  hr.asked.unstopped ControlRoom.plain_isOfCall (.inl ⟨_, _, rfl⟩) hs

/-- The call has begun, or nothing has happened yet. -/
theorem Run.begun (hr : x.Run h o) : h = [] ∧ o = x.start ∨ x.opening ∈ h :=
  hr.asked.begun

/-! ## The call and its deliveries -/

/-- A stint of the call itself. -/
structure IsMain (x : Call) (n : Doing) : Prop where
  task : n.task = 0
  audience : n.audience = .caller
  begun : n = x.opening ∨ ∃ r left es, n.body = .collecting r left es .none

/-- A stint of a delivery that the call has started. -/
structure IsPart (n : Doing) : Prop where
  task : n.task ≠ 0
  audience : n.audience = .task 0
  body : n.body.IsDelivery

/-- All tasks are the call and its deliveries, and so are all stints. -/
structure Roles (x : Call) (h : Past) (o : Office) : Prop where
  jobs : ∀ t j, Agenda.job? o t = some j →
    (t = 0 ∧ j.1 = .caller ∧ (h = [] ∧ o = x.start ∨ ∃ r left es, j.2 = .collecting r left es .none)) ∨
      (t ≠ 0 ∧ j.1 = .task 0 ∧ j.2.IsDelivery)
  stints : ∀ n ∈ h, x.IsMain n ∨ IsPart n

theorem stintAt?_start (x : Call) : Agenda.stintAt? x.start 0 = some x.opening := rfl

/-- A call that begins is the first stint of its task. -/
theorem Run.first_of_route (hr : x.Run h o) {s : Doing} (hs : s ∈ h) {r : AlertRef} {q : Routing}
    (hbody : s.body = .route r q) : s.first = true :=
  (hr.sound.coherent.first_of_body hs fun d hd => hbody ▸
    ControlRoom.body?_ne_route d.now d.state (hr.isOfCall hd) d.wake r q).1

/-- **The call and its deliveries** are all there is. -/
theorem Run.roles (hr : x.Run h o) : x.Roles h o := by
  obtain ⟨hjobs, hstints⟩ := hr.asked.roles ControlRoom.parted_isCall (.inl ⟨_, _, rfl⟩)
  refine ⟨fun t j hj => ?_, fun n hn => ?_⟩
  · rcases hjobs t j hj with ⟨rfl, haudience, hbody⟩ | hpart
    · refine .inl ⟨rfl, haudience, hr.begun.imp_right fun hopening => ?_⟩
      refine hbody.resolve_left fun ⟨r, q, hroute⟩ => ?_
      -- it has begun, and nothing goes on as a call that begins
      obtain ⟨p, hp, -, hpbody⟩ := Agenda.job?_eq_some.mp hj
      obtain ⟨l, hlatest⟩ : ∃ l, h.latest 0 = some l := History.exists_latest hopening
      have hstands := hr.sound.stands 0 nofun p hp
      unfold Stands at hstands
      rw [hlatest] at hstands
      have hb := hstands.2.2.body
      rw [hpbody, hroute] at hb
      exact ControlRoom.body?_ne_route l.now l.state
        (hr.isOfCall (History.latest_eq_some hlatest).1) l.wake r q hb
    · exact .inr hpart
  · rcases hstints n hn with ⟨htask, haudience, hbody⟩ | ⟨htask, haudience, hbody⟩
    · refine .inl ⟨htask, haudience, hbody.imp_left fun ⟨r, q, hroute⟩ => ?_⟩
      have hopening : x.opening ∈ h := hr.asked.opening_mem hn
      exact hr.sound.coherent.first_unique hn hopening (hr.first_of_route hn hroute) rfl htask
    · exact .inr ⟨htask, haudience, hbody⟩

/-- The call starts others only as it begins. -/
theorem IsMain.eq_opening {n : Doing} (hn : x.IsMain n) {v : Work}
    (hv : v ∈ (n.turn ControlRoom.program).next.children) : n = x.opening := by
  refine hn.begun.resolve_right fun ⟨r, left, es, hbody⟩ => ?_
  unfold Stint.turn at hv
  rw [hbody] at hv
  cases hnext : (ControlRoom.program n.now n.state (.collecting r left es .none) n.wake).next with
  | finish o =>
      rw [hnext] at hv
      exact absurd hv List.not_mem_nil
  | _ =>
      obtain ⟨os, -, -, -, -, hawait⟩ := ControlRoom.taken_in n.now n.state (congrArg Next.body? hnext)
      rw [hawait] at hv
      exact absurd hv List.not_mem_nil

theorem Run.first_of_listens (hr : x.Run h o) {s : Doing} (hs : s ∈ h)
    (hlistens : s.Listens ControlRoom.program) : s.first = true := by
  obtain ⟨cs, b, hnext⟩ := hlistens
  obtain ⟨r, q, hbody⟩ := ControlRoom.route_of_collect (hr.isOfCall hs) hnext
  exact hr.first_of_route hs hbody

/-- **A call is told of its deliveries in the order in which they end.** -/
theorem Run.hearkens (hr : x.Run h o) {s : Doing} (hs : s ∈ h)
    (hlistens : s.Listens ControlRoom.program) {p : Process Work Yield}
    (hp : o.process? s.task = some p) : Hearkens ControlRoom.program h o s.task p :=
  InTurn.hearkens ControlRoom.plain_isOfCall ControlRoom.listeners_isOfCall x.sound_start
    x.undisturbed_start (fun _ => rfl) (fun hr _ hs => Run.first_of_listens (x := x) hr hs)
    (fun hr _ hs => Run.isOfCall (x := x) hr hs) hr s hs hlistens p hp

theorem Run.notifies (hr : x.Run h o) : Notifies h where
  coherent := hr.sound.coherent
  begins := by
    intro s hs r left es sequel hb
    have hkind := hr.isOfCall hs
    unfold Stint.turn at hb
    rcases hkind with ⟨r', q, hbody⟩ | ⟨r', left', es', hbody⟩ | hdelivery
    · refine .inr ⟨hr.first_of_route hs hbody, ?_⟩
      unfold Dispatches Stint.turn
      rw [hbody] at hb ⊢
      rcases ControlRoom.program_route s.now s.state r' q s.wake with ⟨st, h⟩ | ⟨m, -, h⟩
      · rw [h] at hb
        exact nomatch hb
      · rw [h] at hb ⊢
        obtain ⟨rs, hne, hw, hnext⟩ := ControlRoom.of_body?_beginNotification hb
        obtain ⟨rfl, rfl, rfl, rfl⟩ := Work.collecting.inj hw
        exact ⟨rs, ⟨hne, hnext⟩, rfl, rfl⟩
    · rw [hbody] at hb
      obtain ⟨os, -, -, -, hw, -⟩ := ControlRoom.taken_in s.now s.state hb
      obtain ⟨rfl, -, -, rfl⟩ := Work.collecting.inj hw
      exact .inl ⟨left', es', hbody⟩
    · have hshaped := (ControlRoom.shaped_program s.now s.state hdelivery.isManaged s.wake).next
      rcases hshaped.isDelivery hdelivery hb with ⟨q, level, heq⟩ | ⟨e, heq⟩
      · exact nomatch heq
      · exact nomatch heq

/-- A delivery that begins was started by the call as it began. -/
theorem Run.starts (hr : x.Run h o) {n : Doing} (hn : n ∈ h) (hpart : IsPart n)
    (hfirst : n.first = true) :
    x.opening ∈ h ∧ x.opening.Starts ControlRoom.program n.task n.body := by
  obtain ⟨d, hd, hzero, -, hstarts⟩ := hr.asked.started ControlRoom.parted_isCall
    (.inl ⟨_, _, rfl⟩) hn hpart.audience hfirst
  have hmain := (hr.roles.stints d hd).resolve_right fun hpart => hpart.task hzero
  obtain ⟨i, hi, -⟩ := id hstarts
  obtain rfl := hmain.eq_opening (List.mem_of_getElem? hi)
  exact ⟨hd, hstarts⟩

/-! ## What a call asks for -/

/-- What a call asks for when it is made. -/
structure Sends (x : Call) (now : Moment) (a : Alert) (rs : List DeliveryRequest) : Prop where
  clock : x.room.clock? 0 = some now
  found : x.room.store.find? x.alert = some a
  requests : (x.room.requests now x.routing x.alert a).1 = .ok rs

variable {now : Moment} {a : Alert} {rs : List DeliveryRequest}

/-- A call ends at once if it asks for nothing. -/
theorem Sends.turn (hs : x.Sends now a rs) :
    (rs = [] ∧ x.opening.Ends ControlRoom.program (.ok (.names []))) ∨
      Dispatches x.opening x.alert .none rs := by
  have hturn : x.opening.turn ControlRoom.program
      = x.room.beginNotification now x.alert x.routing .none :=
    ControlRoom.program_of_clock (c := x.room) hs.clock (.route x.alert x.routing) .start
  have hrequests := hs.requests
  unfold Stint.Ends Dispatches
  rw [hturn]
  unfold ControlRoom.beginNotification
  rw [hs.found]
  dsimp only
  generalize x.room.requests now x.routing x.alert a = y at hrequests
  obtain ⟨result, c⟩ := y
  obtain rfl : result = .ok rs := hrequests
  cases rs with
  | nil => exact .inl ⟨rfl, rfl⟩
  | cons r rs => exact .inr ⟨List.cons_ne_nil r rs, rfl⟩

theorem Sends.children (hs : x.Sends now a rs) :
    (x.opening.turn ControlRoom.program).next.children = rs.map fun q => .deliver q 0 := by
  rcases hs.turn with ⟨rfl, hends⟩ | hdispatches
  · rw [show (x.opening.turn ControlRoom.program).next = _ from hends]
    rfl
  · rw [hdispatches.2]
    rfl

/-- The deliveries are numbered from one. -/
theorem firstChild_opening (x : Call) : x.opening.firstChild ControlRoom.program = 1 := by
  have hplain := ControlRoom.ofCall_program x.opening.now x.opening.state (w := x.opening.body)
    (.inl ⟨_, _, rfl⟩) x.opening.wake
  unfold Stint.firstChild
  rw [show (x.opening.turn ControlRoom.program).appointments = [] from hplain.booksNothing]
  rfl

theorem Sends.childIds (hs : x.Sends now a rs) :
    x.opening.childIds ControlRoom.program = List.range' 1 rs.length := by
  unfold Stint.childIds
  rw [x.firstChild_opening, hs.children, List.length_map]

/-- The deliveries of a call are numbered like the requests. -/
theorem Sends.request (hs : x.Sends now a rs) {t : TaskId} {w : Work}
    (hw : x.opening.Starts ControlRoom.program t w) :
    ∃ i q, rs[i]? = some q ∧ t = i + 1 ∧ w = .deliver q 0 := by
  obtain ⟨i, hi, rfl⟩ := hw
  rw [hs.children, List.getElem?_map] at hi
  obtain ⟨q, hq, rfl⟩ := Option.map_eq_some_iff.mp hi
  exact ⟨i, q, hq, by rw [x.firstChild_opening, Nat.add_comm], rfl⟩

end Call

end Office

end BuildingAlerts
