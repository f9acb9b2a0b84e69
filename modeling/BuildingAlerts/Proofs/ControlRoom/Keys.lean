/-
The keys of the office.

A retry is booked under the key of its delivery, an escalation under the key of its alert and of the
stage that is next. No two of them share a key, and what a task does always fits its key: a task of
a delivery's key tries that delivery at most, a task of an alert's key escalates that alert, and
whoever has no key was not booked. Each booking is for the alert that its key is about.
-/
import BuildingAlerts.Proofs.Agenda.Keys
import BuildingAlerts.Proofs.ControlRoom.Owners

set_option autoImplicit false

namespace BuildingAlerts

open Agenda

/-! ## Keys -/

theorem retryKey_inj {e e' : String} (h : retryKey e = retryKey e') : e = e' :=
  (String.append_right_inj _).mp h

theorem retryKey_ne_escalationKey (e id : String) (level : Int) :
    retryKey e ≠ escalationKey id level := by
  intro h
  have h := congrArg String.toList h
  unfold retryKey escalationKey at h
  have hretry : "retry:".toList = 'r' :: "etry:".toList := by decide
  have hescalation : "escalation:".toList = 'e' :: "scalation:".toList := by decide
  simp only [String.toList_append, hretry, hescalation, List.cons_append] at h
  exact absurd (List.cons.inj h).1 (by decide)

/-- A number is written without colons. -/
theorem colon_notMem_toString (n : Int) : ':' ∉ (toString n).toList := by
  have hnat : ∀ k : Nat, ':' ∉ k.repr.toList := by
    intro k hk
    rw [Nat.toList_repr] at hk
    exact absurd (Nat.isDigit_of_mem_toDigits (by decide) (by decide) hk) (by decide)
  cases n with
  | ofNat k => exact hnat k
  | negSucc k =>
      show ':' ∉ ("-" ++ (k + 1).repr).toList
      rw [String.toList_append, List.mem_append]
      rintro (h | h)
      · exact absurd h (by decide)
      · exact hnat _ h

/-- The last colon of a text parts it in one way. -/
theorem eq_of_append_cons {α : Type} {x : α} {as bs cs ds : List α} (hb : x ∉ bs) (hd : x ∉ ds)
    (h : as ++ x :: bs = cs ++ x :: ds) : as = cs := by
  rcases List.append_eq_append_iff.mp h with ⟨es, rfl, hes⟩ | ⟨es, rfl, hes⟩
  · cases es with
    | nil => exact (List.append_nil as).symm
    | cons e es =>
        obtain ⟨-, hes⟩ := List.cons.inj hes
        exact absurd (hes ▸ List.mem_append_right es List.mem_cons_self) hb
  · cases es with
    | nil => exact List.append_nil cs
    | cons e es =>
        obtain ⟨-, hes⟩ := List.cons.inj hes
        exact absurd (hes ▸ List.mem_append_right es List.mem_cons_self) hd

/-- The key of an escalation tells its alert. -/
theorem escalationKey_inj {id id' : String} {level level' : Int}
    (h : escalationKey id level = escalationKey id' level') : id = id' := by
  have hlist : ∀ (id : String) (level : Int), (escalationKey id level).toList
      = ("escalation:".toList ++ id.toList) ++ ':' :: (toString level).toList := by
    intro id level
    unfold escalationKey
    have hcolon : ":".toList = [':'] := by decide
    simp only [String.toList_append, hcolon, List.append_assoc, List.cons_append, List.nil_append]
  have h := congrArg String.toList h
  rw [hlist, hlist] at h
  have hid := eq_of_append_cons (colon_notMem_toString level) (colon_notMem_toString level') h
  exact String.toList_inj.mp (List.append_cancel_left hid)

/-! ## What a task of a key does -/

namespace Work

/-- What a task does fits the key under which it was booked, if it was. -/
def Fits (key : Option String) : Work → Prop
  | .retry es _ again | .retrying es _ again =>
    if again then ∃ e, key = some (retryKey e) ∧ ∀ x ∈ es, x = e else key = none
  | .escalate q _ level =>
    if level.isNone then ∃ l, key = some (escalationKey q.id l) else key = none
  | .escalating q _ _ _ booked =>
    if booked then ∃ l, key = some (escalationKey q.id l) else key = none
  | _ => key = none

end Work

namespace ControlRoom

variable {c d : ControlRoom} {m : Appointment Work} {key : Option String}

theorem IsRetryOf.fits {e : String} (hm : IsRetryOf c e m) : m.body.Fits (some m.key) := by
  rw [hm.body, hm.key]
  exact ⟨e, rfl, fun x hx => List.mem_singleton.mp hx⟩

theorem IsNextOf.fits {q : AlertRef} {p : Policy} (hm : IsNextOf c q p m) :
    m.body.Fits (some m.key) := by
  obtain ⟨a, s, -, -, hkey⟩ := hm.stage
  rw [hm.body, hkey]
  exact ⟨s.level, rfl⟩

/-- What is booked fits its key. -/
theorem Books.fits {w : Work} {wake : Wake Yield} (h : Books d m w wake) :
    m.body.Fits (some m.key) := by
  cases h with
  | notified he hm => exact hm.fits
  | escalated he hm => exact hm.fits
  | waited he hm => exact hm.fits
  | retried he hm => exact hm.fits
  | next hw hm => exact hm.fits

/-- Retries go on with some of the deliveries that they were asked for. -/
theorem fits_beginRetry {now : Moment} {es : List String} {most : Int} {again : Bool} {b : Work}
    (hb : (c.beginRetry now es most again).next.body? = some b)
    (hw : (Work.retry es most again).Fits key) : b.Fits key := by
  rcases beginRetry_cases c now es most again with ⟨f, -, h⟩ | ⟨-, h⟩ | ⟨tried, -, htried, h⟩
  · rw [h] at hb
    exact nomatch hb
  · rw [h] at hb
    have hnext := (shaped_endRetry (N := fun n => n.body? = none) (c := c) (fun _ => rfl) now [] es most
      again).next
    exact nomatch hb.symm.trans hnext
  · rw [h] at hb
    obtain rfl := Option.some.inj hb
    cases again with
    | false => exact hw
    | true =>
        obtain ⟨e, hkey, hes⟩ := hw
        exact ⟨e, hkey, fun x hx => hes x ((of_eligible htried).1.subset hx)⟩

/-- An escalation goes on with the same alert, and as booked as it was. -/
theorem fits_beginEscalation {now : Moment} {q : AlertRef} {p : Policy} {level : Option Int}
    {b : Work} (hb : (c.beginEscalation now q p level).next.body? = some b)
    (hw : (Work.escalate q p level).Fits key) : b.Fits key := by
  have hend : ∀ {d : ControlRoom} {es : List String},
      (d.endEscalation now q p level.isNone es).next.body? ≠ some b := by
    intro d es h
    have hnext := (shaped_endEscalation (N := fun n => n.body? = none) (c := d) (fun _ => rfl) now q p
      level.isNone es).next
    exact nomatch h.symm.trans hnext
  unfold beginEscalation at hb
  split at hb
  · exact nomatch hb
  · split at hb
    · exact absurd hb hend
    · split at hb
      · exact nomatch hb
      · split at hb
        · exact absurd hb hend
        · split at hb
          · exact absurd hb hend
          · obtain rfl := Option.some.inj hb
            exact hw

/-- **What a task goes on with fits its key.** -/
theorem fits_program (now : Instant) (c : ControlRoom) {w b : Work} (hw : w.IsManaged)
    {wake : Wake Yield} (hb : (program now c w wake).next.body? = some b) (hkey : w.Fits key) :
    b.Fits key := by
  by_cases hretry : ∃ es most again, w = .retry es most again
  · obtain ⟨es, most, again, rfl⟩ := hretry
    rcases program_retry now c es most again wake with ⟨st, h⟩ | ⟨m, -, h⟩
    · rw [h] at hb
      exact nomatch hb
    · rw [h] at hb
      exact fits_beginRetry hb hkey
  by_cases hescalate : ∃ q p level, w = .escalate q p level
  · obtain ⟨q, p, level, rfl⟩ := hescalate
    rcases program_escalate now c q p level wake with ⟨-, st, h⟩ | ⟨m, -, -, h⟩
    · rw [h] at hb
      exact nomatch hb
    · rw [h] at hb
      exact fits_beginEscalation hb hkey
  · have hn := (shaped_program now c hw wake).next
    generalize (program now c w wake).next = n at hn hb
    cases hn with
    | finish o => exact nomatch hb
    | retrying es tried most again => exact absurd ⟨es, most, again, rfl⟩ hretry
    | escalating q p level => exact absurd ⟨q, p, level, rfl⟩ hescalate
    | sending _ entry d l result hw =>
        obtain rfl := Option.some.inj hb
        rcases hw with ⟨q, level, rfl⟩ | ⟨e, rfl⟩
        · exact hkey
        · exact hkey
    | lapsing _ entry turns hw =>
        obtain rfl := Option.some.inj hb
        rcases hw with ⟨q, level, rfl⟩ | ⟨e, rfl⟩ | ⟨e, k, rfl⟩
        · exact hkey
        · exact hkey
        · exact hkey
    | _ =>
        obtain rfl := Option.some.inj hb
        exact hkey

end ControlRoom

/-- What work starts has no key. -/
theorem Work.Leads.fits_child {w b : Work} {n : Next Work Yield} (hn : w.Leads n)
    (hb : b ∈ n.children) : b.Fits none := by
  cases hn with
  | evaluating | notifying | collecting | retrying | escalating =>
      obtain ⟨x, -, rfl⟩ := List.mem_map.mp hb
      rfl
  | _ => exact absurd hb List.not_mem_nil

namespace Office

variable {p : Premises} {h : Past} {o : Office} {n : Doing} {t : TaskId}

/-! ## Requests -/

/-- What a request books. -/
def appointments (o : Office) : Request → List (Appointment Work)
  | .bookRetries entries => (o.state.retryAppointments o.clock entries).1
  | .bookEscalation id p =>
    match o.state.escalationAppointment? o.clock (o.ref id) p with
    | .error _ => []
    | .ok m => m.toList
  | _ => []

/-- A request books retries of the deliveries that it names, or the next escalation of an alert. -/
inductive AsksFor (o : Office) (m : Appointment Work) : Request → Prop where
  | retry {es : List String} {e : String} (he : e ∈ es) (hm : ControlRoom.IsRetryOf o.state e m) :
      AsksFor o m (.bookRetries es)
  | next {id : String} {p : Policy} (hm : ControlRoom.IsNextOf o.state (o.ref id) p m) :
      AsksFor o m (.bookEscalation id p)

theorem asksFor_of_mem {m : Appointment Work} {q : Request} (hm : m ∈ o.appointments q) :
    AsksFor o m q := by
  cases q with
  | bookRetries entries =>
      obtain ⟨e, he, hm⟩ := ControlRoom.isRetryOf_of_mem hm
      exact .retry he hm
  | bookEscalation id p =>
      unfold appointments at hm
      dsimp only at hm
      split at hm
      · exact absurd hm List.not_mem_nil
      · rename_i m? hm?
        obtain rfl := Option.mem_toList.mp hm
        exact .next (ControlRoom.isNextOf_of_eq hm?)
  | _ => exact absurd hm List.not_mem_nil

theorem AsksFor.fits {m : Appointment Work} {q : Request} (h : AsksFor o m q) :
    m.body.Fits (some m.key) := by
  cases h with
  | retry he hm => exact hm.fits
  | next hm => exact hm.fits

/-- What becomes of the tasks and of the timetable when something is asked for: nothing, or the
bookings of an alert or all of them are taken out, or one task is started, or what is asked for is
booked. -/
inductive Serves (o : Office) : Request → Office → Prop where
  | adjusted (q : Request) (f : ControlRoom → ControlRoom) : Serves o q (o.adjust f)
  | settled {q : Request} {id : String} {f : Alert → Option Alert}
      (hq : q.remedy? o = some (id, f)) : Serves o q (o.settleAlert id f).2
  | launched (q : Request) {w : Work} (hw : w.Fits none) :
      Serves o q (Agenda.launch o .caller w)
  | booked (q : Request) : Serves o q (Agenda.bookAll o (o.appointments q))
  | shut : Serves o .shutdown (Agenda.cancelBookings o)

theorem serves (o : Office) (q : Request) : Serves o q (serve o q) := by
  cases q with
  | addConfiguration k => exact .adjusted _ fun c => (c.addConfiguration k).2
  | addFromTemplate key u => exact .adjusted _ fun c => (c.addFromTemplate o.clock key u).2
  | updateConfiguration id ch => exact .adjusted _ fun c => (c.updateConfiguration o.clock id ch).2
  | setStatus id s => exact .adjusted _ (·.setStatus o.clock id s)
  | setRuleEnabled id ruleId on => exact .adjusted _ (·.setRuleEnabled o.clock id ruleId on)
  | openLine channel carrier => exact .adjusted _ (·.openLine channel carrier)
  | pass s => exact .launched _ rfl
  | retry entries most => exact .launched _ rfl
  | escalate id p level => exact .launched _ rfl
  | acknowledge id who => exact .settled (q := .acknowledge id who) rfl
  | resolve id who notes => exact .settled (q := .resolve id who notes) rfl
  | markFalsePositive id who => exact .settled (q := .markFalsePositive id who) rfl
  | bookRetries entries => exact .booked (.bookRetries entries)
  | bookEscalation id p =>
      have hbook : (o.bookEscalation id p).2
          = Agenda.bookAll o (o.appointments (.bookEscalation id p)) := by
        unfold bookEscalation appointments
        dsimp only
        cases o.state.escalationAppointment? o.clock (o.ref id) p with
        | error f => rfl
        | ok m => rfl
      show Serves o (.bookEscalation id p) (o.bookEscalation id p).2
      rw [hbook]
      exact .booked (.bookEscalation id p)
  | shutdown => exact .shut

/-- Whatever is asked for keeps the tasks under way at what they do. -/
theorem heeds_serve (ht : Tidy o) (q : Request) : Heeds none o (serve o q) := by
  generalize hs : serve o q = b
  have hserves : Serves o q b := hs ▸ serves o q
  clear hs
  cases hserves with
  | adjusted f => exact heeds_edit rfl rfl
  | @settled _ id f hq =>
      unfold settleAlert
      split
      · exact .rfl
      · rename_i a _
        have hadjust : Heeds none o (o.adjust (·.adjustAlert (o.ref id) fun _ => a)) :=
          heeds_edit rfl rfl
        exact hadjust.trans (heeds_cancelAlert _ id)
  | @launched _ w hw => exact heeds_start ht.numbered (.fresh w .caller)
  | booked => exact heeds_bookAll (o.appointments q) ht.numbered
  | shut => exact (heeds_foldl_cancel _ o).trans (heeds_edit rfl rfl)

/-- Who is there after a request did the same before under the same key, or fits its key anew. -/
theorem fits_serve (ht : Tidy o) (q : Request)
    (hfits : ∀ t x, o.process? t = some x → x.body.Fits x.key) {x : Process Work Yield}
    (hx : (serve o q).process? t = some x) : x.body.Fits x.key := by
  have hold : (∃ y, o.process? t = some y ∧ x.key = y.key ∧ x.body = y.body) → x.body.Fits x.key := by
    rintro ⟨y, hy, hkey, hbody⟩
    rw [hkey, hbody]
    exact hfits t y hy
  have hheeds := heeds_serve ht q
  generalize hs : serve o q = b at hx hheeds
  have hserves : Serves o q b := hs ▸ serves o q
  clear hs
  cases hserves with
  | adjusted f => exact hold ⟨x, hx, rfl, rfl⟩
  | @settled _ id f hq => exact hold (hheeds.key_of (job?_settleAlert o id f t) hx)
  | @launched _ w hw =>
      have hstart : (Agenda.launch o .caller w).process? t
          = if t = o.started then some (.fresh w .caller) else o.process? t :=
        Numbered.process?_start ht.numbered (.fresh w .caller) t
      rw [hstart] at hx
      split at hx
      · obtain rfl := Option.some.inj hx
        exact hw
      · exact hold ⟨x, hx, rfl, rfl⟩
  | booked =>
      rcases ht.key_of_bookAll hx with h | ⟨m, hm, hkey, hbody⟩
      · exact hold h
      · rw [hkey, hbody]
        exact (asksFor_of_mem hm).fits
  | shut => exact hold (hheeds.key_of job?_cancelBookings hx)

/-- **What every task does fits its key.** The induction is on the run. -/
theorem Premises.Run.fits (hr : p.Run h o) {x : Process Work Yield} (hx : o.process? t = some x) :
    x.body.Fits x.key := by
  induction hr generalizing t x with
  | idle => exact nomatch hx
  | @step h a b place hr hb ih =>
      have hrun : p.Run h a := hr
      have hmanaged : ∀ {s : Doing}, Agenda.stintAt? a place = some s → s.body.IsManaged := by
        intro s hs
        have hstep := hrun.step hb
        rw [hs] at hstep
        exact (Premises.Run.mayBeDone hstep s List.mem_cons_self).1
      cases hrun.tidy.key_of_stepAt hb hx with
      | stays hp hkey hbody =>
          rw [hkey, hbody]
          exact ih hp
      | goesOn hs ht hp hkey hbody =>
          obtain ⟨-, -, y, hy, hof⟩ := stintAt?_eq_some hs
          rw [ht] at hy
          obtain rfl := Option.some.inj (hp.symm.trans hy)
          rw [hkey]
          exact ControlRoom.fits_program _ _ (hmanaged hs) hbody (hof.body ▸ ih hp)
      | booked hs hm hkey hbody =>
          rw [hkey, hbody]
          exact (ControlRoom.books_program _ _ (hmanaged hs) hm).fits
      | started hs hkey hbody =>
          rw [hkey]
          exact (ControlRoom.shaped_program _ _ (hmanaged hs) _).next.fits_child hbody
  | @pass h a time hr hready htime ih =>
      obtain ⟨y, hy, hkey, hbody⟩ := (heeds_passTo a time).key_of (job?_passTo time) hx
      rw [hkey, hbody]
      exact ih hy
  | @serve h a b hr hb ih =>
      have hrun : p.Run h a := hr
      obtain ⟨q, rfl⟩ := hb
      exact fits_serve hrun.tidy q (fun t x hx => ih hx) hx

/-! ## Bookings -/

/-- Whatever somebody does about an alert changes that alert and takes out what is booked for it, or
does nothing. -/
theorem settleAlert_cases (ht : Tidy o) (id : String) (f : Alert → Option Alert) :
    (o.settleAlert id f).2 = o ∨ ∃ a, (o.state.store.get? id).bind f = some a ∧
      (o.settleAlert id f).2.state = o.state.adjustAlert (o.ref id) (fun _ => a) ∧
      ∀ key, (o.settleAlert id f).2.timetable.bookings.get? key
        = (o.timetable.bookings.get? key).filter fun b => b.alertId ≠ some id := by
  unfold settleAlert
  split
  · exact .inl rfl
  · rename_i a ha
    refine .inr ⟨a, ha, ?_, fun key => ?_⟩
    · exact (rebooked_cancelAlert (o.adjust (·.adjustAlert (o.ref id) fun _ => a)) id).state
    · have hadjust := (ht.after (.edit (o.state.adjustAlert (o.ref id) fun _ => a))).1
      exact hadjust.get?_obey (.cancelAlert id) key

/-- What is booked after a request was booked before, or the request asked for it. -/
theorem get?_serve (ht : Tidy o) (q : Request) {key : String} {x : Booking}
    (hx : (serve o q).timetable.bookings.get? key = some x) :
    o.timetable.bookings.get? key = some x ∨
      ∃ m, AsksFor o m q ∧ m.key = key ∧ x.alertId = m.alertId := by
  generalize hs : serve o q = b at hx
  have hserves : Serves o q b := hs ▸ serves o q
  clear hs
  cases hserves with
  | adjusted f => exact .inl hx
  | @settled _ id f hq =>
      rcases settleAlert_cases ht id f with h | ⟨a, -, -, hget⟩
      · exact .inl (h ▸ hx)
      · exact .inl (Option.eq_some_of_filter_eq_some ((hget key).symm.trans hx))
  | launched => exact .inl hx
  | booked =>
      rcases ht.get?_bookAll _ hx with h | ⟨m, hm, hkey, hid⟩
      · exact .inl h
      · exact .inr ⟨m, asksFor_of_mem hm, hkey, hid⟩
  | shut =>
      have hget := ht.get?_obey .shutdown key
      exact nomatch hget.symm.trans hx

/-- A booking is for the alert that its key is about: that of the delivery or of the escalation. -/
def IsFor (h : Past) (key : String) (alertId : Option String) : Prop :=
  (∃ e id, key = retryKey e ∧ DrawnFor e id h ∧ alertId = some id) ∨
    ∃ id level, key = escalationKey id level ∧ alertId = some id

theorem IsFor.mono {k : Past} {key : String} {id : Option String} (hf : IsFor h key id)
    (hk : ∀ d ∈ h, d ∈ k) : IsFor k key id := by
  rcases hf with ⟨e, id, hkey, hd, hid⟩ | hf
  · exact .inl ⟨e, id, hkey, hd.mono hk, hid⟩
  · exact .inr hf

theorem isFor_of_isRetryOf (hr : p.Run h o) {c : ControlRoom} (hc : c.journal = o.state.journal)
    {e : String} {m : Appointment Work} (hm : ControlRoom.IsRetryOf c e m) :
    IsFor h m.key m.alertId := by
  obtain ⟨x, hx, hid⟩ := hm.entry
  rw [hc] at hx
  exact .inl ⟨e, x.alertId, hm.key, hr.drawnFor hx, hid⟩

theorem isFor_of_isNextOf {c : ControlRoom} {q : AlertRef} {pol : Policy} {m : Appointment Work}
    (hm : ControlRoom.IsNextOf c q pol m) : IsFor h m.key m.alertId := by
  obtain ⟨a, s, -, -, hkey⟩ := hm.stage
  exact .inr ⟨q.id, s.level, hkey, hm.alertId⟩

theorem isFor_of_books (hr : p.Run h o) {c : ControlRoom} (hc : c.journal = o.state.journal)
    {w : Work} {wake : Wake Yield} {m : Appointment Work} (hm : ControlRoom.Books c m w wake) :
    IsFor h m.key m.alertId := by
  cases hm with
  | notified he hm => exact isFor_of_isRetryOf hr hc hm
  | escalated he hm => exact isFor_of_isRetryOf hr hc hm
  | waited he hm => exact isFor_of_isRetryOf hr hc hm
  | retried he hm => exact isFor_of_isRetryOf hr hc hm
  | next hw hm => exact isFor_of_isNextOf hm

/-- **Every booking is for the alert that its key is about.** The induction is on the run. -/
theorem Premises.Run.isFor (hr : p.Run h o) {key : String} {x : Booking}
    (hx : o.timetable.bookings.get? key = some x) : IsFor h key x.alertId := by
  induction hr generalizing key x with
  | idle => exact nomatch hx
  | @step h a b place hr hb ih =>
      have hrun : p.Run h a := hr
      have hstep : p.Run _ b := hrun.step hb
      rcases hrun.tidy.get?_stepAt hb hx with hold | ⟨s, hs, m, hm, hkey, hid⟩
      · exact (ih hold).mono fun d => List.mem_append_right _
      · rw [hs] at hstep ⊢
        have hstate := state_of_stepAt hrun.keeps.numbered hb
        rw [hs] at hstate
        have hmanaged := (hstep.mayBeDone s List.mem_cons_self).1
        rw [← hkey, hid]
        exact isFor_of_books hstep (by rw [hstate]; rfl) (ControlRoom.books_program _ _ hmanaged hm)
  | @pass h a time hr hready htime ih =>
      rw [(moves_passTo a time).timetable] at hx
      exact ih hx
  | @serve h a b hr hb ih =>
      have hrun : p.Run h a := hr
      obtain ⟨q, rfl⟩ := hb
      rcases get?_serve hrun.tidy q hx with hold | ⟨m, hm, hkey, hid⟩
      · exact ih hold
      · rw [← hkey, hid]
        cases hm with
        | retry he hm => exact isFor_of_isRetryOf hrun rfl hm
        | next hm => exact isFor_of_isNextOf hm

end Office

end BuildingAlerts
