/-
What an attempt at a delivery comes to.

An attempt goes on, or it ends with its entry sent if the provider has reported success and failed
otherwise, whatever else has become of it: an answer that refuses, a failure, or none in time. Only
that a channel is not supported leaves the entry as it was.
-/
import BuildingAlerts.Proofs.ControlRoom.Retries

set_option autoImplicit false

namespace BuildingAlerts

namespace LogEntry

/-- The entry is about a delivery. -/
structure IsFor (e : LogEntry) (q : DeliveryRequest) : Prop where
  request : e.request = some q
  channel : e.channel = q.channel
  address : e.address = q.address
  alertId : e.alertId = q.alert.id

/-- The entry of a delivery that is over: sent if it has succeeded, and failed if not. -/
def Shows (e : LogEntry) (succeeded : Prop) : Prop :=
  (succeeded → e.status = .sent) ∧ (¬ succeeded → e.status = .failed)

variable {e : LogEntry} {q : DeliveryRequest}

theorem IsFor.markSent (h : e.IsFor q) (r : DeliveryResult) (now : Moment) :
    (e.markSent r now).IsFor q :=
  ⟨h.request, h.channel, h.address, h.alertId⟩

theorem IsFor.markFailed (h : e.IsFor q) (error : String) : (e.markFailed error).IsFor q :=
  ⟨h.request, h.channel, h.address, h.alertId⟩

theorem shows_markFailed {succeeded : Prop} (h : ¬ succeeded) (error : String) :
    (e.markFailed error).Shows succeeded :=
  ⟨fun hs => absurd hs h, fun _ => rfl⟩

theorem isFor_begin (id : String) (q : DeliveryRequest) (level : Int) (now : Moment) :
    (LogEntry.begin id q level now).IsFor q :=
  ⟨rfl, rfl, rfl, rfl⟩

end LogEntry

namespace ControlRoom

/-- A provider has answered with success. -/
def IsSuccess (reply : Option (Except Fault DeliveryResult)) : Prop :=
  ∃ r, reply = some (.ok r) ∧ r.success = true

/-- A provider has answered that the channel is not supported. -/
def IsUnsupported (reply : Option (Except Fault DeliveryResult)) : Prop :=
  ∃ f, reply = some (.error f) ∧ f.isUnsupported = true

/-- How an attempt at a delivery goes whose channel has a line or not, and whose provider has
answered so. -/
inductive Fares (id : String) (q : DeliveryRequest) (supported : Bool)
    (reply : Option (Except Fault DeliveryResult)) (t : Stretch) : Prop where
  | goesOn {w : Work} {e : LogEntry} (hnext : t.next.body? = some w) (hw : w.tries id = true)
      (hattempt : w ≠ .attempt id) (he : t.state.journal.get? id = some e) (hfor : e.IsFor q)
      (hreply : reply = none)
  | ends {e : LogEntry} (hnext : t.next = .finish (.ok (.names [id])))
      (he : t.state.journal.get? id = some e) (hfor : e.IsFor q) (hshows : e.Shows (IsSuccess reply))
  | fails (hwhy : supported = false ∨ IsUnsupported reply)

variable {c d : ControlRoom} {id : String} {q : DeliveryRequest} {e : LogEntry} {supported : Bool}
  {reply : Option (Except Fault DeliveryResult)}

theorem get?_adjustEntry (he : c.journal.get? id = some e) (f : LogEntry → LogEntry) :
    (c.adjustEntry id f).journal.get? id = some (f e) := by
  show (c.journal.adjust id f).get? id = _
  rw [Table.get?_adjust, if_pos rfl, he]
  rfl

/-- An attempt that fails without an answer of success. -/
theorem fares_done (he : c.journal.get? id = some e) (hfor : e.IsFor q) (hno : ¬ IsSuccess reply)
    (error : String) :
    Fares id q supported reply ((c.adjustEntry id (·.markFailed error)).done [id]) :=
  .ends rfl (get?_adjustEntry he _) (hfor.markFailed error) (LogEntry.shows_markFailed hno error)

theorem not_isSuccess_none : ¬ IsSuccess none :=
  fun ⟨_, h, _⟩ => nomatch h

theorem fares_timeOut (he : c.journal.get? id = some e) (hfor : e.IsFor q) :
    Fares id q supported none (c.timeOut id) :=
  fares_done he hfor not_isSuccess_none _

/-- What a provider has answered is put down. -/
theorem fares_conclude (now : Moment) (result : Except Fault DeliveryResult)
    (he : c.journal.get? id = some e) (hfor : e.IsFor q) :
    Fares id q supported (some result) (c.conclude now id result) := by
  unfold conclude
  split
  · rename_i r
    refine .ends rfl (get?_adjustEntry he (·.answered r now)) ?_ ?_
    · unfold LogEntry.answered
      split
      · exact hfor.markSent r now
      · exact hfor.markFailed _
    · unfold LogEntry.answered
      split
      · rename_i hsuccess
        exact ⟨fun _ => rfl, fun hno => absurd ⟨r, rfl, hsuccess⟩ hno⟩
      · rename_i hno
        refine LogEntry.shows_markFailed ?_ _
        rintro ⟨r', heq, hsuccess⟩
        rw [← Except.ok.inj (Option.some.inj heq)] at hsuccess
        exact hno hsuccess
  · rename_i f
    split
    · rename_i hf
      exact .fails (.inr ⟨f, rfl, hf⟩)
    · exact fares_done he hfor (fun ⟨_, heq, _⟩ => nomatch Option.some.inj heq) _

/-- A delivery is handed over. -/
theorem fares_handOver (now : Moment) (limit : Delay) (he : c.journal.get? id = some e)
    (hfor : e.IsFor q) :
    Fares id q (c.supports q.channel)
      (match (c.handOver now q (some id)).1 with
        | .ok h => if h.delay = .zero then some h.result else none
        | .error _ => none)
      (match c.handOver now q (some id) with
        | (.error f, c) => c.fail f
        | (.ok h, c) =>
          if h.delay = .zero then c.conclude now id h.result
          else c.goOn (.sleep h.delay limit (.sending id h.result))) := by
  have hself : decide (id = id) = true := decide_eq_true rfl
  have hbooks := sameBooks_handOver c now q (some id)
  have hfault : ∀ f, (c.handOver now q (some id)).1 = .error f → c.supports q.channel = false := by
    intro f hf
    unfold handOver at hf
    split at hf
    · rename_i hline
      unfold supports
      rw [hline]
      rfl
    · split at hf
      · exact nomatch hf
      · exact nomatch hf
  generalize c.handOver now q (some id) = x at hbooks hfault
  obtain ⟨handled, d⟩ := x
  have hd : d.journal.get? id = some e := (congrArg (·.get? id) hbooks.journal).trans he
  cases handled with
  | error f =>
      exact .fails (.inl (hfault f rfl))
  | ok h =>
      dsimp only
      split
      · exact fares_conclude now h.result hd hfor
      · exact .goesOn (w := .sending id h.result) rfl hself (fun h => nomatch h) hd hfor rfl

/-- An attempt begins. -/
theorem fares_beginAttempt (now : Moment) (he : c.journal.get? id = some e) (hfor : e.IsFor q) :
    Fares id q (c.supports q.channel) (c.replyAtOnce? now id) (c.beginAttempt now id) := by
  have hself : decide (id = id) = true := decide_eq_true rfl
  have hrequest : (c.journal.get? id).bind (·.request) = some q := by
    rw [he]
    exact hfor.request
  unfold replyAtOnce? beginAttempt
  rw [hrequest]
  cases Delay.of? c.setup.dispatchTimeout with
  | none => exact fares_done he hfor not_isSuccess_none _
  | some limit =>
      cases limit with
      | zero => exact .goesOn (w := .lapsing id lapseTurns) rfl hself (fun h => nomatch h) he hfor rfl
      | _ => exact fares_handOver now _ he hfor

/-! ## Lines -/

/-- Channels that have a line keep it. -/
def Equips (c d : ControlRoom) : Prop :=
  ∀ ch, c.supports ch = true → d.supports ch = true

theorem Equips.of_lines (h : d.lines = c.lines) : Equips c d := by
  intro ch hch
  unfold supports
  rw [h]
  exact hch

theorem Equips.trans {c d e : ControlRoom} (h : Equips c d) (k : Equips d e) : Equips c e :=
  fun ch hch => k ch (h ch hch)

theorem equips_handOver (c : ControlRoom) (now : Moment) (q : DeliveryRequest)
    (entry : Option String) : Equips c (c.handOver now q entry).2 := by
  unfold handOver
  split
  · exact .of_lines rfl
  · rename_i line hline
    split
    · have hlines : (c.sendThrough now q).2.lines = c.lines := by
        unfold sendThrough
        split
        · rfl
        · rfl
      exact .of_lines hlines
    · intro ch hch
      show (assign c.lines q.channel _ ch).isSome = true
      unfold assign
      split
      · rfl
      · exact hch

theorem equips_conclude (c : ControlRoom) (now : Moment) (entry : String)
    (result : Except Fault DeliveryResult) : Equips c (c.conclude now entry result).state := by
  unfold conclude
  split
  · exact .of_lines rfl
  · split
    · exact .of_lines rfl
    · exact .of_lines rfl

theorem equips_beginAttempt (c : ControlRoom) (now : Moment) (entry : String) :
    Equips c (c.beginAttempt now entry).state := by
  unfold beginAttempt
  split
  · exact .of_lines rfl
  · exact .of_lines rfl
  · exact .of_lines rfl
  · rename_i q limit _ _ _
    have hlines := equips_handOver c now q (some entry)
    split
    · rename_i f d hd
      rw [hd] at hlines
      exact hlines
    · rename_i h d hd
      rw [hd] at hlines
      split
      · exact hlines.trans (equips_conclude d now entry h.result)
      · exact hlines

theorem equips_beginDelivery (c : ControlRoom) (now : Moment) (q : DeliveryRequest) (level : Int) :
    Equips c (c.beginDelivery now q level).state :=
  Equips.trans (d := c.drawn now q level) (.of_lines rfl) (equips_beginAttempt _ now _)

end ControlRoom

namespace Office

variable {id : String} {n : Doing} {q : DeliveryRequest}

/-- **What a delivery comes to** with the stint that draws its identifier. -/
theorem fares_of_draws (hdraws : draws id n = true) {level : Int} (hbody : n.body = .deliver q level)
    (hwake : n.wake = .start) :
    ControlRoom.Fares id q (n.state.supports q.channel) (reply? id n)
      (n.turn ControlRoom.program) := by
  obtain ⟨-, ⟨m, hm⟩, hid⟩ := draws_iff.mp hdraws
  have hreply : reply? id n = (n.state.drawn m q level).replyAtOnce? m id := by
    unfold reply?
    rw [hm, hbody, hwake]
    exact if_pos hid
  have hturn : n.turn ControlRoom.program = (n.state.drawn m q level).beginAttempt m id := by
    unfold Stint.turn
    rw [hbody, hwake, ControlRoom.program_of_clock hm, ← hid]
    rfl
  have he : (n.state.drawn m q level).journal.get? id = some (.begin id q level m) := by
    show (n.state.journal.insert n.state.nextEntry _).get? id = _
    rw [hid, Table.get?_insert, if_pos rfl]
  have hlines : n.state.supports q.channel = (n.state.drawn m q level).supports q.channel := rfl
  rw [hreply, hturn, hlines]
  exact ControlRoom.fares_beginAttempt m he (LogEntry.isFor_begin id q level m)

/-- What an attempt comes to with a stint that goes on with it. -/
theorem fares_of_tries (htries : n.body.tries id = true) (hattempt : n.body ≠ .attempt id)
    (hclock : n.state.clock? n.now ≠ none) (hwake : n.wake = .resumed ∨ n.wake = .expired)
    {e : LogEntry} (he : n.state.journal.get? id = some e) (hfor : e.IsFor q) :
    ControlRoom.Fares id q true (reply? id n) (n.turn ControlRoom.program) := by
  have hself : decide (id = id) = true := decide_eq_true rfl
  obtain ⟨m, hm⟩ := Option.ne_none_iff_exists'.mp hclock
  unfold Stint.turn
  rcases Work.of_tries htries with hbody | ⟨result, hbody⟩ | ⟨k, hbody⟩
  · exact absurd hbody hattempt
  · rw [hbody, ControlRoom.program_of_clock hm]
    rcases hwake with hwake | hwake
    · have hreply : reply? id n = some result := by
        unfold reply?
        rw [hm, hbody, hwake]
        exact if_pos rfl
      rw [hreply, hwake]
      exact ControlRoom.fares_conclude m result he hfor
    · have hreply : reply? id n = none := by
        unfold reply?
        rw [hm, hbody, hwake]
      rw [hreply, hwake]
      exact ControlRoom.fares_timeOut he hfor
  · have hreply : reply? id n = none := by
      unfold reply?
      rw [hm, hbody]
    rw [hreply, hbody, ControlRoom.program_of_clock hm]
    have hgo : n.state.goOnWith m (.lapsing id k) n.wake = match k with
        | 0 => n.state.timeOut id
        | k + 1 => n.state.goOn (.pause (.lapsing id k)) := by
      rcases hwake with hwake | hwake
      · rw [hwake]
        cases k <;> rfl
      · rw [hwake]
        cases k <;> rfl
    rw [hgo]
    cases k with
    | zero => exact ControlRoom.fares_timeOut he hfor
    | succ k => exact .goesOn (w := .lapsing id k) rfl hself (fun h => nomatch h) he hfor rfl

end Office

end BuildingAlerts
