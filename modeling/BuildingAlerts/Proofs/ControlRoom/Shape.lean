/-
What the work of the control room leads to.

For each form of work that somebody who asks for passes can cause, `Leads` lists what a task may
do when it stops working: what it goes on with, and which tasks it starts. What is booked is
always a retry or an escalation. All that matters about the order of the work is read off here,
so the program is looked through once.
-/
import BuildingAlerts.ControlRoom.Program
import BuildingAlerts.Proofs.Agenda.Calm
import BuildingAlerts.Proofs.Fault

set_option autoImplicit false

namespace BuildingAlerts

namespace Work

/-- Work that is booked, or serves what is booked. -/
def IsSubordinate : Work → Prop
  | .retry .. | .retrying .. | .escalate .. | .escalating .. | .deliver .. | .attempt ..
  | .sending .. | .lapsing .. => True
  | _ => False

/-- Work that comes of passes that somebody asks for. -/
def IsManaged : Work → Prop
  | .pass .caller _ | .evaluating .caller _ | .notifying .caller _ | .evaluate .. | .notify _
  | .collecting .. => True
  | w => w.IsSubordinate

/-- Such work is managed work. -/
theorem IsSubordinate.isManaged {w : Work} (hw : w.IsSubordinate) : w.IsManaged := by
  cases w with
  | retry => trivial
  | retrying => trivial
  | escalate => trivial
  | escalating => trivial
  | deliver => trivial
  | attempt => trivial
  | sending => trivial
  | lapsing => trivial
  | round | interval | pass | evaluating | notifying | evaluate | notify | route | collecting
  | hand | handing => exact hw.elim

/-- Work of tasks that no other task started. -/
def IsOuter : Work → Prop
  | .pass .. | .evaluating .. | .notifying .. | .retry .. | .retrying .. | .escalate ..
  | .escalating .. => True
  | _ => False

/-- Which work is done for whom. -/
def MayBeDone (w : Work) (v : Audience) : Prop :=
  w.IsManaged ∧ ((∀ t, v ≠ .task t) → w.IsOuter)

/-- What a task may do after such work, by what it goes on with and what it starts. -/
inductive Leads : Work → Next Work Yield → Prop where
  | finish (w : Work) (o : Outcome Yield) : Leads w (.finish o)
  | evaluating (s : Snapshot) (bs : List Assignment) (known : List String) :
      Leads (.pass .caller s) (.gather (bs.map fun b => .evaluate b s) (.evaluating .caller known))
  | notifying (known : List String) (refs : List AlertRef) (found : List String) :
      Leads (.evaluating .caller known) (.gather (refs.map .notify) (.notifying .caller found))
  | collecting (r : AlertRef) (rs : List DeliveryRequest) (sequel : Sequel) :
      Leads (.notify r) (.collect (rs.map fun q => .deliver q 0) (.collecting r rs.length [] sequel))
  | awaiting (r : AlertRef) (left left' : Nat) (es es' : List String) (sequel : Sequel) :
      Leads (.collecting r left es sequel) (.await (.collecting r left' es' sequel))
  | retrying (es tried : List String) (most : Int) (again : Bool) :
      Leads (.retry es most again) (.gather (tried.map .attempt) (.retrying tried most again))
  | escalating (r : AlertRef) (p : Policy) (level : Option Int) (rs : List DeliveryRequest)
      (s : Stage) (since : Moment) (booked : Bool) :
      Leads (.escalate r p level)
        (.gather (rs.map fun q => .deliver q s.level) (.escalating r p s since booked))
  | sending (w : Work) (entry : String) (d l : Delay) (result : Except Fault DeliveryResult)
      (hw : (∃ r level, w = .deliver r level) ∨ ∃ e, w = .attempt e) :
      Leads w (.sleep d l (.sending entry result))
  | lapsing (w : Work) (entry : String) (turns : Nat)
      (hw : (∃ r level, w = .deliver r level) ∨ (∃ e, w = .attempt e) ∨
        ∃ e n, w = .lapsing e n) : Leads w (.pause (.lapsing entry turns))

end Work

namespace ControlRoom

/-- Work that is booked: a retry or an escalation. -/
def IsBooked (w : Work) : Prop :=
  (∃ es most again, w = .retry es most again) ∨ ∃ r p level, w = .escalate r p level

/-! ## What is booked -/

theorem isBooked_of_mem_retryAppointments {c : ControlRoom} {now : Moment} {es : List String}
    {m : Appointment Work} (hm : m ∈ (c.retryAppointments now es).1) : IsBooked m.body := by
  induction es with
  | nil => exact absurd hm List.not_mem_nil
  | cons e es ih =>
      unfold retryAppointments at hm
      split at hm
      · exact absurd hm List.not_mem_nil
      · rename_i o ho
        rcases List.mem_append.mp hm with hm | hm
        · obtain rfl := Option.mem_toList.mp hm
          unfold retryAppointment? at ho
          obtain ⟨d, -, ho⟩ := bind_eq_ok_iff.mp ho
          obtain ⟨d, -, rfl⟩ := Option.map_eq_some_iff.mp (Except.ok.inj ho)
          exact .inl ⟨_, _, _, rfl⟩
        · exact ih hm

theorem isBooked_of_escalationAppointment? {c : ControlRoom} {now : Moment} {r : AlertRef}
    {p : Policy} {m : Appointment Work} (hm : c.escalationAppointment? now r p = .ok (some m)) :
    IsBooked m.body := by
  unfold escalationAppointment? at hm
  split at hm
  · exact nomatch hm
  · split at hm
    · exact nomatch hm
    · obtain ⟨left, -, hm⟩ := bind_eq_ok_iff.mp hm
      obtain rfl := Option.some.inj (Except.ok.inj hm)
      exact .inr ⟨_, _, _, rfl⟩

/-- A stretch of work books retries and escalations only, and leads on as `N` says. If it books
something it is the last one. -/
structure Shaped (N : Next Work Yield → Prop) (s : Stretch) : Prop where
  booked : ∀ m ∈ s.appointments, IsBooked m.body
  next : N s.next
  ends : s.appointments = [] ∨ ∃ o, s.next = .finish o

variable {N : Next Work Yield → Prop} {c : ControlRoom}

theorem shaped_goOn {n : Next Work Yield} (hn : N n) : Shaped N (c.goOn n) :=
  ⟨fun _ hm => absurd hm List.not_mem_nil, hn, .inl rfl⟩

section

variable (hN : ∀ o, N (.finish o))

include hN

theorem shaped_done (ids : List String) : Shaped N (c.done ids) := shaped_goOn (hN _)

theorem shaped_stop (s : Stop) : Shaped N (c.stop s) := shaped_goOn (hN _)

theorem shaped_fail (f : Fault) : Shaped N (c.fail f) := shaped_goOn (hN _)

/-- Deliveries that have ended are followed by retries and perhaps by an escalation. -/
theorem shaped_endNotification (now : Moment) (r : AlertRef) (es : List String)
    (sequel : Sequel) : Shaped N (c.endNotification now r es sequel) := by
  have hretries : ∀ m ∈ (c.retryAppointments now es).1, IsBooked m.body :=
    fun _ => isBooked_of_mem_retryAppointments
  unfold endNotification
  split
  · exact shaped_done hN _
  · dsimp only
    split
    · exact ⟨hretries, hN _, .inr ⟨_, rfl⟩⟩
    · exact ⟨hretries, hN _, .inr ⟨_, rfl⟩⟩
    · split
      · exact ⟨hretries, hN _, .inr ⟨_, rfl⟩⟩
      · rename_i m hm
        refine ⟨fun x hx => ?_, hN _, .inr ⟨_, rfl⟩⟩
        rcases List.mem_append.mp hx with hx | hx
        · exact hretries x hx
        · obtain rfl := Option.mem_toList.mp hx
          exact isBooked_of_escalationAppointment? hm

theorem shaped_stopNotification (s : Stop) (sequel : Sequel) :
    Shaped N (c.stopNotification s sequel) := by
  unfold stopNotification
  split
  · exact shaped_stop hN _
  · split
    · split
      · exact shaped_done hN _
      · exact shaped_fail hN _
    · exact shaped_stop hN _

theorem shaped_endEscalation (now : Moment) (r : AlertRef) (p : Policy) (booked : Bool)
    (es : List String) : Shaped N (c.endEscalation now r p booked es) := by
  unfold endEscalation
  split
  · unfold followUp
    have hretries : ∀ m ∈ (c.retryAppointments now es).1, IsBooked m.body :=
      fun _ => isBooked_of_mem_retryAppointments
    dsimp only
    split
    · exact ⟨hretries, hN _, .inr ⟨_, rfl⟩⟩
    · split
      · exact ⟨hretries, hN _, .inr ⟨_, rfl⟩⟩
      · rename_i m hm
        refine ⟨fun x hx => ?_, hN _, .inr ⟨_, rfl⟩⟩
        rcases List.mem_append.mp hx with hx | hx
        · exact hretries x hx
        · obtain rfl := Option.mem_toList.mp hx
          exact isBooked_of_escalationAppointment? hm
  · exact shaped_done hN _

theorem shaped_endRetry (now : Moment) (tried asked : List String) (most : Int) (again : Bool) :
    Shaped N (c.endRetry now tried asked most again) := by
  unfold endRetry
  dsimp only
  split
  · exact ⟨fun _ => isBooked_of_mem_retryAppointments, hN _, .inr ⟨_, rfl⟩⟩
  · exact shaped_done hN _

theorem shaped_timeOut (entry : String) : Shaped N (c.timeOut entry) := shaped_done hN _

theorem shaped_conclude (now : Moment) (entry : String) (r : Except Fault DeliveryResult) :
    Shaped N (c.conclude now entry r) := by
  unfold conclude
  split
  · exact shaped_done hN _
  · split
    · exact shaped_fail hN _
    · exact shaped_done hN _

end

/-! ## What work leads to -/

/-- The first steps of an attempt at a delivery. -/
theorem shaped_beginAttempt {w : Work} (hw : (∃ r level, w = .deliver r level) ∨ ∃ e, w = .attempt e)
    (c : ControlRoom) (now : Moment) (entry : String) :
    Shaped w.Leads (c.beginAttempt now entry) := by
  have hfinish := Work.Leads.finish w
  unfold beginAttempt
  split
  · exact shaped_fail hfinish _
  · exact shaped_done hfinish _
  · exact shaped_goOn (.lapsing w _ _ (hw.imp_right .inl))
  · split
    · exact shaped_fail hfinish _
    · split
      · exact shaped_conclude hfinish _ _ _
      · exact shaped_goOn (.sending w _ _ _ _ hw)

theorem shaped_beginNotification (c : ControlRoom) (now : Moment) (r : AlertRef) (q : Routing)
    (sequel : Sequel) : Shaped (Work.notify r).Leads (c.beginNotification now r q sequel) := by
  have hfinish := Work.Leads.finish (.notify r)
  unfold beginNotification
  split
  · exact shaped_fail hfinish _
  · split
    · exact shaped_stopNotification hfinish _ _
    · exact shaped_endNotification hfinish _ _ _ _
    · exact shaped_goOn (.collecting r _ _)

theorem shaped_announce_empty {w : Work} (c : ControlRoom) (known : List String) :
    Shaped w.Leads (c.announce .caller known []) :=
  shaped_done (.finish w) []

theorem shaped_announce (c : ControlRoom) (known found : List String) :
    Shaped (Work.evaluating .caller known).Leads (c.announce .caller known found) := by
  have hgather : ∀ new, (Work.evaluating .caller known).Leads
      (.gather (new.map fun id => .notify (c.store.ref id)) (.notifying .caller new)) := by
    intro new
    have h := Work.Leads.notifying known (new.map c.store.ref) new
    rw [List.map_map] at h
    exact h
  unfold announce
  split
  · exact shaped_done (.finish _) []
  · exact shaped_goOn (hgather _)

theorem shaped_beginPass (c : ControlRoom) (s : Snapshot) :
    Shaped (Work.pass .caller s).Leads (c.beginPass .caller s) := by
  unfold beginPass
  dsimp only
  split
  · exact shaped_stop (.finish _) _
  · split
    · exact shaped_announce_empty c _
    · exact shaped_goOn (.evaluating s _ _)

theorem shaped_takeIn (c : ControlRoom) (now : Moment) (r : AlertRef) (left : Nat)
    (es : List String) (sequel : Sequel) (os : List (Outcome Yield)) :
    Shaped (Work.collecting r left es sequel).Leads (c.takeIn now r left es sequel os) := by
  have hfinish := Work.Leads.finish (.collecting r left es sequel)
  unfold takeIn
  split
  · exact shaped_stopNotification hfinish _ _
  · dsimp only
    split
    · exact shaped_endNotification hfinish _ _ _ _
    · exact shaped_goOn (.awaiting r _ _ _ _ _)

theorem shaped_beginRetry (c : ControlRoom) (now : Moment) (es : List String) (most : Int)
    (again : Bool) : Shaped (Work.retry es most again).Leads (c.beginRetry now es most again) := by
  have hfinish := Work.Leads.finish (.retry es most again)
  unfold beginRetry
  split
  · exact shaped_fail hfinish _
  · exact shaped_endRetry hfinish _ _ _ _ _
  · exact shaped_goOn (.retrying es _ most again)

theorem shaped_beginEscalation (c : ControlRoom) (now : Moment) (r : AlertRef) (p : Policy)
    (level : Option Int) :
    Shaped (Work.escalate r p level).Leads (c.beginEscalation now r p level) := by
  have hfinish := Work.Leads.finish (.escalate r p level)
  unfold beginEscalation
  split
  · exact shaped_fail hfinish _
  · split
    · exact shaped_endEscalation hfinish _ _ _ _ _
    · split
      · exact shaped_fail hfinish _
      · split
        · exact shaped_endEscalation hfinish _ _ _ _ _
        · split
          · exact shaped_endEscalation hfinish _ _ _ _ _
          · exact shaped_goOn (.escalating r p level _ _ _ _)

/-- Work that is stopped ends. -/
theorem shaped_stopWork {w : Work} (hw : w.IsManaged) (c : ControlRoom) (s : Stop) :
    Shaped w.Leads (c.stopWork s w) := by
  have hfinish := Work.Leads.finish w
  unfold stopWork
  split
  · exact hw.elim
  · exact hw.elim
  · rename_i p q
    cases p with
    | caller => exact shaped_stop hfinish _
    | single | row => exact hw.elim
  · rename_i p q
    cases p with
    | caller => exact shaped_stop hfinish _
    | single | row => exact hw.elim
  · rename_i p q
    cases p with
    | caller => exact shaped_stop hfinish _
    | single | row => exact hw.elim
  · exact shaped_stopNotification hfinish _ _
  · exact shaped_stop hfinish _

/-- **What managed work leads to**, whatever it goes on for. -/
theorem shaped_program (now : Instant) (c : ControlRoom) {w : Work} (hw : w.IsManaged)
    (wake : Wake Yield) : Shaped w.Leads (program now c w wake) := by
  have hfinish := Work.Leads.finish w
  unfold program
  split
  · rename_i now _
    unfold goOnWith
    split
    · exact shaped_stopWork hw c _
    · exact hw.elim
    · exact hw.elim
    · rename_i p s _
      cases p with
      | caller => exact shaped_beginPass c s
      | single | row => exact hw.elim
    · rename_i p known ys
      cases p with
      | caller => exact shaped_announce c known _
      | single | row => exact hw.elim
    · rename_i p found ys
      cases p with
      | caller => exact shaped_done hfinish _
      | single | row => exact hw.elim
    · exact shaped_done hfinish _
    · rename_i r _
      unfold beginAnnouncement
      split
      · exact shaped_done hfinish _
      · exact shaped_beginNotification c now r _ _
    · exact hw.elim
    · exact shaped_takeIn c now _ _ _ _ _
    · unfold beginDelivery
      exact shaped_beginAttempt (.inl ⟨_, _, rfl⟩) _ now _
    · exact shaped_beginAttempt (.inr ⟨_, rfl⟩) c now _
    · exact shaped_timeOut hfinish _
    · exact shaped_conclude hfinish _ _ _
    · exact shaped_timeOut hfinish _
    · exact shaped_goOn (.lapsing _ _ _ (.inr (.inr ⟨_, _, rfl⟩)))
    · exact hw.elim
    · exact hw.elim
    · exact shaped_beginRetry c now _ _ _
    · exact shaped_endRetry hfinish _ _ _ _ _
    · exact shaped_beginEscalation c now _ _ _
    · dsimp only
      exact shaped_endEscalation hfinish _ _ _ _ _
    · exact shaped_stop hfinish _
  · exact shaped_stopWork hw c _

/-! ## Kinds of work -/

theorem IsBooked.isSubordinate {w : Work} (hw : IsBooked w) : w.IsSubordinate := by
  rcases hw with ⟨es, most, again, rfl⟩ | ⟨r, p, level, rfl⟩
  · trivial
  · trivial

/-- Managed work leads to managed work. -/
theorem closed_isManaged : Agenda.Closed program fun _ => Work.IsManaged where
  booked := fun now c w wake _ hw m hm =>
    ((shaped_program now c hw wake).booked m hm).isSubordinate.isManaged
  keeps := by
    intro now c w wake _ hw b hb
    have hn := (shaped_program now c hw wake).next
    generalize (program now c w wake).next = n at hn hb
    cases hn with
    | finish o => exact nomatch hb
    | _ =>
        obtain rfl := Option.some.inj hb
        trivial
  children := by
    intro now c w wake _ hw b hb _
    have hn := (shaped_program now c hw wake).next
    generalize (program now c w wake).next = n at hn hb
    cases hn with
    | evaluating | notifying | collecting | retrying | escalating =>
        obtain ⟨x, -, rfl⟩ := List.mem_map.mp hb
        trivial
    | _ => exact absurd hb List.not_mem_nil

/-- Tasks that no other task started do what was asked for or booked. -/
theorem closed_mayBeDone : Agenda.Closed program (fun v w => w.MayBeDone v) where
  booked := by
    intro now c w wake v hw m hm
    have hbooked := (shaped_program now c hw.1 wake).booked m hm
    refine ⟨hbooked.isSubordinate.isManaged, fun _ => ?_⟩
    rcases hbooked with ⟨es, most, again, hm⟩ | ⟨r, p, level, hm⟩
    · rw [hm]
      trivial
    · rw [hm]
      trivial
  keeps := by
    intro now c w wake v hw b hb
    refine ⟨closed_isManaged.keeps now c w wake v hw.1 b hb, fun hv => ?_⟩
    have houter := hw.2 hv
    have hn := (shaped_program now c hw.1 wake).next
    generalize (program now c w wake).next = n at hn hb
    cases hn with
    | finish o => exact nomatch hb
    | collecting | awaiting => exact houter.elim
    | sending _ entry d l result hw =>
        rcases hw with ⟨r, level, rfl⟩ | ⟨e, rfl⟩
        · exact houter.elim
        · exact houter.elim
    | lapsing _ entry turns hw =>
        rcases hw with ⟨r, level, rfl⟩ | ⟨e, rfl⟩ | ⟨e, n, rfl⟩
        · exact houter.elim
        · exact houter.elim
        · exact houter.elim
    | _ =>
        obtain rfl := Option.some.inj hb
        trivial
  children := fun now c w wake v hw b hb t =>
    ⟨closed_isManaged.children now c w wake v hw.1 b hb t, fun h => absurd rfl (h t)⟩

/-- Work that is booked stays apart from passes and their notifications. -/
theorem divides_isSubordinate :
    Agenda.Divides program Work.IsManaged Work.IsSubordinate where
  booked := fun now c w wake hw m hm =>
    ((shaped_program now c hw wake).booked m hm).isSubordinate
  keeps := by
    intro now c w wake hw b hb
    have hn := (shaped_program now c hw wake).next
    generalize (program now c w wake).next = n at hn hb
    cases hn with
    | finish o => exact nomatch hb
    | sending _ entry d l result hw =>
        obtain rfl := Option.some.inj hb
        rcases hw with ⟨r, level, rfl⟩ | ⟨e, rfl⟩
        · exact .rfl
        · exact .rfl
    | lapsing _ entry turns hw =>
        obtain rfl := Option.some.inj hb
        rcases hw with ⟨r, level, rfl⟩ | ⟨e, rfl⟩ | ⟨e, n, rfl⟩
        · exact .rfl
        · exact .rfl
        · exact .rfl
    | _ =>
        obtain rfl := Option.some.inj hb
        exact .rfl
  children := by
    intro now c w wake hw hsub b hb
    have hn := (shaped_program now c hw wake).next
    generalize (program now c w wake).next = n at hn hb
    cases hn with
    | evaluating | notifying | collecting => exact hsub.elim
    | retrying | escalating =>
        obtain ⟨x, -, rfl⟩ := List.mem_map.mp hb
        trivial
    | _ => exact absurd hb List.not_mem_nil

end ControlRoom

end BuildingAlerts
