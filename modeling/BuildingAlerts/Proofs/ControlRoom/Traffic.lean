/-
Who writes to the lines and who to the limiter.

Most of what the room does touches neither. An attempt at a delivery hands one message to a line,
and asks no limits; a notification asks the limits once, where it begins, and hands nothing over.
Everything else leaves both as they are.
-/
import BuildingAlerts.Proofs.ControlRoom.Retries

set_option autoImplicit false

namespace BuildingAlerts

open Agenda

namespace ControlRoom

variable {c d e : ControlRoom}

/-- The lines and the limiter are as they were. -/
structure SameTraffic (c d : ControlRoom) : Prop where
  lines : d.lines = c.lines
  limiter : d.limiter = c.limiter

theorem SameTraffic.rfl : SameTraffic c c :=
  ⟨.refl _, .refl _⟩

theorem SameTraffic.trans (h : SameTraffic c d) (k : SameTraffic d e) : SameTraffic c e :=
  ⟨k.lines.trans h.lines, k.limiter.trans h.limiter⟩

/-! ## Passes -/

theorem sameTraffic_leaveRow (c : ControlRoom) (awaited : Bool) :
    SameTraffic c (c.leaveRow awaited) := by
  unfold leaveRow
  split
  · exact ⟨rfl, rfl⟩
  · exact .rfl

theorem sameTraffic_afterRound (c : ControlRoom) (most : Option Int) (made : Nat)
    (awaited : Bool) : SameTraffic c (c.afterRound most made awaited).state := by
  unfold afterRound
  dsimp only
  split
  · exact sameTraffic_leaveRow c awaited
  · split
    · exact sameTraffic_leaveRow c awaited
    · exact .rfl

theorem sameTraffic_endPass (c : ControlRoom) (p : PassFor) (found : List String) :
    SameTraffic c (c.endPass p found).state := by
  cases p with
  | caller => exact .rfl
  | single => exact ⟨rfl, rfl⟩
  | row most made awaited =>
      exact SameTraffic.trans (d := c.adjustRounds _) ⟨rfl, rfl⟩ (sameTraffic_afterRound _ _ _ _)

theorem sameTraffic_stopPass (c : ControlRoom) (p : PassFor) (s : Stop) :
    SameTraffic c (c.stopPass p s).state := by
  unfold stopPass
  split
  · exact SameTraffic.trans (d := c.adjustRounds _) ⟨rfl, rfl⟩ (sameTraffic_afterRound _ _ _ _)
  · exact sameTraffic_leaveRow c _
  · exact .rfl

theorem sameTraffic_announce (c : ControlRoom) (p : PassFor) (known found : List String) :
    SameTraffic c (c.announce p known found).state := by
  unfold announce
  split
  · exact sameTraffic_endPass c p []
  · exact .rfl

theorem sameTraffic_beginPass (c : ControlRoom) (p : PassFor) (s : Snapshot) :
    SameTraffic c (c.beginPass p s).state := by
  unfold beginPass
  dsimp only
  split
  · exact sameTraffic_stopPass c p _
  · split
    · exact sameTraffic_announce c p _ []
    · exact .rfl

theorem sameTraffic_beginRound (c : ControlRoom) (now : Moment) (p : PassFor) :
    SameTraffic c (c.beginRound now p).state := by
  unfold beginRound
  dsimp only
  split
  · exact SameTraffic.trans (d := c.adjustRounds _) ⟨rfl, rfl⟩ (sameTraffic_stopPass _ p _)
  · exact SameTraffic.trans (d := c.adjustRounds _) ⟨rfl, rfl⟩ (sameTraffic_beginPass _ p _)

theorem sameTraffic_nextRound (c : ControlRoom) (now : Moment) (p : PassFor) :
    SameTraffic c (c.nextRound now p).state := by
  unfold nextRound
  split
  · split
    · exact sameTraffic_beginRound c now _
    · exact sameTraffic_leaveRow c _
  · exact sameTraffic_beginRound c now p

theorem sameTraffic_stopWork (c : ControlRoom) (s : Stop) (w : Work) :
    SameTraffic c (c.stopWork s w).state := by
  unfold stopWork
  split
  · exact sameTraffic_stopPass c _ s
  · exact sameTraffic_stopPass c _ s
  · exact sameTraffic_stopPass c _ s
  · exact sameTraffic_stopPass c _ s
  · exact sameTraffic_stopPass c _ s
  · rw [stopNotification_state]
    exact .rfl
  · exact .rfl

/-! ## Waves, retries and escalations -/

theorem sameTraffic_takeIn (c : ControlRoom) (now : Moment) (alert : AlertRef) (left : Nat)
    (entries : List String) (sequel : Sequel) (os : List (Outcome Yield)) :
    SameTraffic c (c.takeIn now alert left entries sequel os).state := by
  unfold takeIn
  split
  · rw [stopNotification_state]
    exact .rfl
  · dsimp only
    split
    · rw [endNotification_state]
      exact ⟨rfl, rfl⟩
    · exact .rfl

theorem sameTraffic_endRetry (c : ControlRoom) (now : Moment) (tried asked : List String)
    (most : Int) (again : Bool) :
    SameTraffic c (c.endRetry now tried asked most again).state := by
  rw [endRetry_state]
  exact ⟨rfl, rfl⟩

theorem sameTraffic_beginRetry (c : ControlRoom) (now : Moment) (entries : List String)
    (most : Int) (again : Bool) : SameTraffic c (c.beginRetry now entries most again).state := by
  have hall : ∀ (ids : List String) (d : ControlRoom),
      SameTraffic d (ids.foldl (fun d id => d.adjustEntry id (·.beginRetry now)) d) := by
    intro ids
    induction ids with
    | nil => exact fun _ => .rfl
    | cons id ids ih =>
        exact fun d => SameTraffic.trans (d := d.adjustEntry id _) ⟨rfl, rfl⟩ (ih _)
  unfold beginRetry
  split
  · exact .rfl
  · exact sameTraffic_endRetry c now _ _ _ _
  · exact hall _ c

theorem sameTraffic_beginEscalation (c : ControlRoom) (now : Moment) (alert : AlertRef)
    (p : Policy) (level : Option Int) :
    SameTraffic c (c.beginEscalation now alert p level).state := by
  unfold beginEscalation
  split
  · exact .rfl
  · split
    · rw [endEscalation_state]
      exact .rfl
    · split
      · exact .rfl
      · split
        · rw [endEscalation_state]
          exact .rfl
        · split
          · rw [endEscalation_state]
            exact ⟨rfl, rfl⟩
          · exact .rfl

theorem sameTraffic_conclude (c : ControlRoom) (now : Moment) (entry : String)
    (result : Except Fault DeliveryResult) :
    SameTraffic c (c.conclude now entry result).state := by
  unfold conclude
  split
  · exact ⟨rfl, rfl⟩
  · split
    · exact .rfl
    · exact ⟨rfl, rfl⟩

/-! ## Notifications -/

/-- A notification hands nothing over. -/
theorem lines_requests (c : ControlRoom) (now : Moment) (r : Routing) (alert : AlertRef)
    (a : Alert) : (c.requests now r alert a).2.lines = c.lines := by
  unfold requests
  split
  · rfl
  · dsimp only
    unfold admitted
    split
    · rfl
    · rfl

/-- The requests that a notification makes; none if it fails. -/
def asks (c : ControlRoom) (now : Moment) (r : Routing) (alert : AlertRef) (a : Alert) :
    List DeliveryRequest :=
  (c.requests now r alert a).1.toOption.getD []

/-- The requests of an alert are those for the targets that the limits admit. -/
theorem requests_eq_ok {now : Moment} {r : Routing} {alert : AlertRef} {a : Alert}
    {qs : List DeliveryRequest} (h : (c.requests now r alert a).1 = .ok qs) :
    ∃ ts us, c.candidates now r a = .ok ts ∧ (c.admitted now r a ts).1 = .ok us ∧
      qs = us.map (c.requestFor alert a) := by
  unfold requests at h
  cases hts : c.candidates now r a with
  | error f =>
      rw [hts] at h
      exact nomatch h
  | ok ts =>
      rw [hts] at h
      dsimp only at h
      cases hus : (c.admitted now r a ts).1 with
      | error f =>
          rw [hus] at h
          exact nomatch h
      | ok us =>
          rw [hus] at h
          refine ⟨ts, us, rfl, hus, (Except.ok.inj h).symm.trans ?_⟩
          -- the limits are asked between the targets and the requests, which do not look at them
          unfold admitted
          split
          · rfl
          · rfl

/-- An alert that is not held back turns to the targets of its settings. -/
theorem candidates_eq_ok {now : Moment} {r : Routing} {a : Alert} {ts : List Target}
    (h : c.candidates now r a = .ok ts) : ts = [] ∨ r.targets a.severity now = .ok ts := by
  unfold candidates at h
  obtain ⟨held, -, h⟩ := bind_eq_ok_iff.mp h
  cases held with
  | true => exact .inl (Except.ok.inj h).symm
  | false =>
      cases hmissing : c.missingLine? r a with
      | none =>
          rw [hmissing] at h
          exact .inr h
      | some channel =>
          rw [hmissing] at h
          exact nomatch h

/-- What the limits rule on some targets of an alert, and the limiter after that. -/
def ruling (c : ControlRoom) (now : Moment) (r : Routing) (a : Alert) (ts : List Target) :
    Except Fault (List String) × Limiter :=
  StateT.run (Limiter.allow r.limits ⟨a.configurationId, a.ruleId⟩
    (firsts (ts.map (·.recipient.id))) now) c.limiter

/-- The limits are not asked where there is nobody to turn to. -/
theorem admitted_eq {now : Moment} {r : Routing} {a : Alert} {ts : List Target} (hne : ts ≠ []) :
    c.admitted now r a ts
      = ((c.ruling now r a ts).1.map fun ids => ts.filter fun t => ids.contains t.recipient.id,
        { c with limiter := (c.ruling now r a ts).2 }) := by
  unfold admitted
  rw [if_neg (mt List.isEmpty_iff.mp hne)]
  rfl

theorem admitted_sublist {now : Moment} {r : Routing} {a : Alert} {ts us : List Target}
    (h : (c.admitted now r a ts).1 = .ok us) : us.Sublist ts := by
  by_cases hne : ts = []
  · subst hne
    rw [← Except.ok.inj h]
  · rw [admitted_eq hne] at h
    cases hruling : (c.ruling now r a ts).1 with
    | error f =>
        rw [hruling] at h
        exact nomatch h
    | ok ids =>
        rw [hruling] at h
        obtain rfl := Except.ok.inj h
        exact List.filter_sublist

/-- **A notification** starts a delivery for each of its requests, and leaves the room as it was
after they were made. -/
theorem beginNotification_eq {alert : AlertRef} {a : Alert} (ha : c.store.find? alert = some a)
    (now : Moment) (r : Routing) (sequel : Sequel) :
    (c.beginNotification now alert r sequel).state = (c.requests now r alert a).2 ∧
      (c.beginNotification now alert r sequel).next.children
        = (c.asks now r alert a).map fun q => .deliver q 0 := by
  have hstop : ∀ (d : ControlRoom) (s : Stop), (d.stopNotification s sequel).next.children = [] :=
    fun d s => (shaped_stopNotification (N := fun n => n.children = []) (c := d)
      (fun _ => rfl) s sequel).next
  have hend : ∀ d : ControlRoom, (d.endNotification now alert [] sequel).next.children = [] :=
    fun d => (shaped_endNotification (N := fun n => n.children = []) (c := d)
      (fun _ => rfl) now alert [] sequel).next
  unfold beginNotification asks
  rw [ha]
  dsimp only
  cases hrequests : c.requests now r alert a with
  | mk result d =>
      cases result with
      | error f => exact ⟨stopNotification_state d _ sequel, hstop d _⟩
      | ok qs =>
          cases qs with
          | nil => exact ⟨endNotification_state d now alert [] sequel, hend d⟩
          | cons q qs => exact ⟨rfl, rfl⟩

/-- A notification of an alert that is not there does nothing. -/
theorem beginNotification_of_none {alert : AlertRef} (ha : c.store.find? alert = none)
    (now : Moment) (r : Routing) (sequel : Sequel) :
    c.beginNotification now alert r sequel = c.fail .nothingToRoute := by
  unfold beginNotification
  rw [ha]

theorem lines_notification (c : ControlRoom) (now : Moment) (alert : AlertRef) (r : Routing)
    (sequel : Sequel) : (c.beginNotification now alert r sequel).state.lines = c.lines := by
  cases ha : c.store.find? alert with
  | none =>
      rw [beginNotification_of_none ha]
      rfl
  | some a =>
      rw [(beginNotification_eq ha now r sequel).1]
      exact lines_requests c now r alert a

theorem lines_announcement (c : ControlRoom) (now : Moment) (alert : AlertRef) :
    (c.beginAnnouncement now alert).state.lines = c.lines := by
  unfold beginAnnouncement
  split
  · rfl
  · exact lines_notification c now alert _ _

/-! ## Attempts -/

/-- The lines after a message was handed over: a provider's line keeps what it was given. -/
def linesWith (c : ControlRoom) (now : Moment) (q : DeliveryRequest) (entry : Option String) :
    Channel → Option Line :=
  match c.lines q.channel with
  | none => c.lines
  | some line =>
    match line.carrier with
    | .service => c.lines
    | .provider _ =>
      assign c.lines q.channel (some { line with handed := line.handed ++ [handed now q entry] })

/-- **Handing over** writes to the line of the message and to nothing else of the traffic. -/
theorem traffic_handOver (c : ControlRoom) (now : Moment) (q : DeliveryRequest)
    (entry : Option String) : (c.handOver now q entry).2.lines = c.linesWith now q entry ∧
      (c.handOver now q entry).2.limiter = c.limiter := by
  unfold handOver linesWith
  cases c.lines q.channel with
  | none => exact ⟨rfl, rfl⟩
  | some line =>
      dsimp only
      cases line.carrier with
      | provider handle => exact ⟨rfl, rfl⟩
      | service =>
          dsimp only
          unfold sendThrough
          split
          · exact ⟨rfl, rfl⟩
          · exact ⟨rfl, rfl⟩

/-- The message that an attempt hands over: none without a line for it or without any time. -/
def handing? (c : ControlRoom) (entry : String) : Option DeliveryRequest :=
  match (c.journal.get? entry).bind (·.request), Delay.of? c.setup.dispatchTimeout with
  | none, _ | some _, none | some _, some .zero => none
  | some q, some _ => if c.supports q.channel then some q else none

theorem handing?_eq {entry : String} {q : DeliveryRequest} {limit : Delay}
    (hq : (c.journal.get? entry).bind (·.request) = some q)
    (hlimit : Delay.of? c.setup.dispatchTimeout = some limit) (hne : limit ≠ .zero) :
    c.handing? entry = if c.supports q.channel then some q else none := by
  unfold handing?
  rw [hq, hlimit]
  cases limit with
  | zero => exact absurd rfl hne
  | grains n => rfl
  | endless => rfl

/-- An attempt hands over the request of its entry. -/
theorem request_of_handing? {entry : String} {q : DeliveryRequest} (h : c.handing? entry = some q) :
    (c.journal.get? entry).bind (·.request) = some q ∧ c.supports q.channel = true := by
  unfold handing? at h
  split at h
  · exact nomatch h
  · exact nomatch h
  · exact nomatch h
  · rename_i r limit _ hr _
    split at h
    · rename_i hline
      obtain rfl := Option.some.inj h
      exact ⟨hr, hline⟩
    · exact nomatch h

/-- How an attempt goes on when its message was handed over, or could not be. -/
def afterHanding (now : Moment) (entry : String) (limit : Delay) :
    Except Fault Handling × ControlRoom → Stretch
  | (.error f, c) => c.fail f
  | (.ok h, c) =>
    if h.delay = .zero then c.conclude now entry h.result
    else c.goOn (.sleep h.delay limit (.sending entry h.result))

theorem beginAttempt_eq {now : Moment} {entry : String} {q : DeliveryRequest} {limit : Delay}
    (hq : (c.journal.get? entry).bind (·.request) = some q)
    (hlimit : Delay.of? c.setup.dispatchTimeout = some limit) (hne : limit ≠ .zero) :
    c.beginAttempt now entry = afterHanding now entry limit (c.handOver now q (some entry)) := by
  unfold beginAttempt
  rw [hq, hlimit]
  cases limit with
  | zero => exact absurd rfl hne
  | grains n => rfl
  | endless => rfl

theorem sameTraffic_afterHanding (now : Moment) (entry : String) (limit : Delay)
    (x : Except Fault Handling × ControlRoom) :
    SameTraffic x.2 (afterHanding now entry limit x).state := by
  unfold afterHanding
  split
  · exact .rfl
  · split
    · exact sameTraffic_conclude _ now entry _
    · exact .rfl

/-- **What an attempt hands over** goes to the line of its message, and nothing else does. -/
theorem traffic_beginAttempt (c : ControlRoom) (now : Moment) (entry : String) :
    (c.beginAttempt now entry).state.lines
        = ((c.handing? entry).map fun q => c.linesWith now q (some entry)).getD c.lines ∧
      (c.beginAttempt now entry).state.limiter = c.limiter := by
  have hnone : c.handing? entry = none → SameTraffic c (c.beginAttempt now entry).state →
      (c.beginAttempt now entry).state.lines
          = ((c.handing? entry).map fun q => c.linesWith now q (some entry)).getD c.lines ∧
        (c.beginAttempt now entry).state.limiter = c.limiter := by
    intro hnone hsame
    rw [hnone]
    exact ⟨hsame.lines, hsame.limiter⟩
  cases hq : (c.journal.get? entry).bind (·.request) with
  | none =>
      refine hnone ?_ ?_
      · unfold handing?
        rw [hq]
      · unfold beginAttempt
        rw [hq]
        exact .rfl
  | some q =>
      cases hlimit : Delay.of? c.setup.dispatchTimeout with
      | none =>
          refine hnone ?_ ?_
          · unfold handing?
            rw [hq, hlimit]
          · unfold beginAttempt
            rw [hq, hlimit]
            exact ⟨rfl, rfl⟩
      | some limit =>
          by_cases hzero : limit = .zero
          · subst hzero
            refine hnone ?_ ?_
            · unfold handing?
              rw [hq, hlimit]
            · unfold beginAttempt
              rw [hq, hlimit]
              exact .rfl
          · have hover := traffic_handOver c now q (some entry)
            have hafter := sameTraffic_afterHanding now entry limit (c.handOver now q (some entry))
            rw [beginAttempt_eq hq hlimit hzero, hafter.lines, hafter.limiter, hover.1, hover.2,
              handing?_eq hq hlimit hzero]
            refine ⟨?_, .refl _⟩
            split
            · rfl
            · rename_i hline
              unfold supports at hline
              unfold linesWith
              rw [Option.not_isSome_iff_eq_none.mp hline]
              rfl

/-- The room with the entry of a delivery that begins. -/
def entering (c : ControlRoom) (now : Moment) (q : DeliveryRequest) (level : Int) : ControlRoom :=
  { (c.draw .notification).2 with
    journal := c.journal.insert c.nextEntry (.begin c.nextEntry q level now) }

/-- A delivery begins with an attempt at it. -/
theorem beginDelivery_eq (c : ControlRoom) (now : Moment) (q : DeliveryRequest) (level : Int) :
    c.beginDelivery now q level = (c.entering now q level).beginAttempt now c.nextEntry :=
  rfl

/-- What the first attempt at a delivery hands over is what was asked for. -/
theorem eq_of_handing?_entering {now : Moment} {q r : DeliveryRequest} {level : Int}
    (h : (c.entering now q level).handing? c.nextEntry = some r) : r = q := by
  have hrequest := (request_of_handing? h).1
  have hget : (c.entering now q level).journal.get? c.nextEntry
      = some (.begin c.nextEntry q level now) := by
    show (c.journal.insert c.nextEntry _).get? c.nextEntry = _
    rw [Table.get?_insert, if_pos rfl]
  rw [hget] at hrequest
  exact (Option.some.inj hrequest).symm

theorem limiter_beginHanding (c : ControlRoom) (now : Moment) (q : DeliveryRequest) :
    (c.beginHanding now q).state.limiter = c.limiter := by
  have hover := (traffic_handOver c now q none).2
  unfold beginHanding
  generalize c.handOver now q none = x at hover
  obtain ⟨result, d⟩ := x
  cases result with
  | error f => exact hover
  | ok x =>
      dsimp only
      split
      · exact hover
      · exact hover

/-! ## All work -/

end ControlRoom

namespace Work

/-- Work that hands messages over. -/
def Sends : Work → Prop
  | .deliver .. | .attempt _ | .hand _ => True
  | _ => False

/-- Work that asks the limits. -/
def AsksLimits : Work → Prop
  | .notify _ | .route .. => True
  | _ => False

end Work

namespace ControlRoom

variable {c : ControlRoom}

/-- **Whoever neither hands messages over nor asks the limits leaves both as they are.** -/
theorem sameTraffic_program (now : Instant) (c : ControlRoom) {w : Work} (hsends : ¬ w.Sends)
    (hasks : ¬ w.AsksLimits) (wake : Wake Yield) : SameTraffic c (program now c w wake).state := by
  unfold program
  split
  · unfold goOnWith
    split
    · exact sameTraffic_stopWork c _ _
    · exact sameTraffic_beginRound c _ _
    · exact sameTraffic_nextRound c _ _
    · exact sameTraffic_beginPass c _ _
    · exact sameTraffic_announce c _ _ _
    · exact sameTraffic_endPass c _ _
    · exact ⟨rfl, rfl⟩
    · exact absurd trivial hasks
    · exact absurd trivial hasks
    · exact sameTraffic_takeIn c _ _ _ _ _ _
    · exact absurd trivial hsends
    · exact absurd trivial hsends
    · exact ⟨rfl, rfl⟩
    · exact sameTraffic_conclude c _ _ _
    · exact ⟨rfl, rfl⟩
    · exact .rfl
    · exact absurd trivial hsends
    · exact .rfl
    · exact sameTraffic_beginRetry c _ _ _ _
    · exact sameTraffic_endRetry c _ _ _ _ _
    · exact sameTraffic_beginEscalation c _ _ _ _
    · rw [endEscalation_state]
      exact ⟨rfl, rfl⟩
    · exact .rfl
  · exact sameTraffic_stopWork c _ _

/-- Work that is stopped, or for which the calendar has ended, writes to neither. -/
theorem sameTraffic_of_stopped (now : Instant) (c : ControlRoom) (w : Work) {wake : Wake Yield}
    (h : c.clock? now = none ∨ ∃ st, wake = .stopped st) :
    SameTraffic c (program now c w wake).state := by
  unfold program
  split
  · rename_i m hm
    obtain ⟨st, rfl⟩ := h.resolve_left fun hnone => nomatch hnone.symm.trans hm
    unfold goOnWith
    exact sameTraffic_stopWork c st w
  · exact sameTraffic_stopWork c _ w

/-- Work is stopped, or it goes on at a moment. -/
theorem stopped_or_goesOn (now : Instant) (c : ControlRoom) (wake : Wake Yield) :
    (c.clock? now = none ∨ ∃ st, wake = .stopped st) ∨
      ∃ m, c.clock? now = some m ∧ ∀ st, wake ≠ .stopped st := by
  cases hclock : c.clock? now with
  | none => exact .inl (.inl rfl)
  | some m =>
      by_cases hwake : ∃ st, wake = .stopped st
      · exact .inl (.inr hwake)
      · exact .inr ⟨m, rfl, not_exists.mp hwake⟩

/-- Whoever hands messages over or asks the limits goes on the same however woken. -/
theorem program_of_goesOn {now : Instant} {m : Moment} {w : Work} {wake : Wake Yield}
    (hw : w.Sends ∨ w.AsksLimits) (hm : c.clock? now = some m) (hgoes : ∀ st, wake ≠ .stopped st) :
    program now c w wake = c.goOnWith m w .start := by
  rw [program_of_clock hm]
  cases wake with
  | stopped st => exact absurd rfl (hgoes st)
  | _ => cases w <;> first | rfl | exact hw.elim False.elim False.elim

/-- **Nothing is written to the lines but by whoever hands messages over.** -/
theorem lines_program (now : Instant) (c : ControlRoom) {w : Work} (hsends : ¬ w.Sends)
    (wake : Wake Yield) : (program now c w wake).state.lines = c.lines := by
  by_cases hasks : w.AsksLimits
  · rcases stopped_or_goesOn now c wake with hstop | ⟨m, hm, hgoes⟩
    · exact (sameTraffic_of_stopped now c w hstop).lines
    · rw [program_of_goesOn (.inr hasks) hm hgoes]
      cases w with
      | notify r => exact lines_announcement c m r
      | route r settings => exact lines_notification c m r settings .none
      | _ => exact hasks.elim
  · exact (sameTraffic_program now c hsends hasks wake).lines

/-- **Nothing is written to the limiter but by whoever asks the limits.** -/
theorem limiter_program (now : Instant) (c : ControlRoom) {w : Work} (hasks : ¬ w.AsksLimits)
    (wake : Wake Yield) : (program now c w wake).state.limiter = c.limiter := by
  by_cases hsends : w.Sends
  · rcases stopped_or_goesOn now c wake with hstop | ⟨m, hm, hgoes⟩
    · exact (sameTraffic_of_stopped now c w hstop).limiter
    · rw [program_of_goesOn (.inl hsends) hm hgoes]
      cases w with
      | deliver q level =>
          show (c.beginDelivery m q level).state.limiter = c.limiter
          rw [beginDelivery_eq, (traffic_beginAttempt _ m _).2]
          rfl
      | attempt e => exact (traffic_beginAttempt c m e).2
      | hand q => exact limiter_beginHanding c m q
      | _ => exact hsends.elim
  · exact (sameTraffic_program now c hsends hasks wake).limiter

end ControlRoom

end BuildingAlerts
