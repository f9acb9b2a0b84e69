/-
Whose deliveries are whose.

The entry of a delivery names the alert for which the delivery was begun and keeps its request and its
level, and no later work changes that. What a wave carries are its own deliveries. So the entries of the
deliveries that a notification or an escalation carries name its own alert.
-/
import BuildingAlerts.Proofs.ControlRoom.Appointments
import BuildingAlerts.Proofs.ControlRoom.Firing
import BuildingAlerts.Proofs.ControlRoom.QuietHours
import BuildingAlerts.Proofs.ControlRoom.Tracking

set_option autoImplicit false

namespace BuildingAlerts

open Agenda

/-! ## What stays of an entry -/

/-- What work makes of an entry at a time: it stays that of its delivery, and the time in it is the
one that it had or the present one. -/
structure LogEntry.Revises (now : Option Moment) (after before : LogEntry) : Prop where
  alertId : after.alertId = before.alertId
  request : after.request = before.request
  escalationLevel : after.escalationLevel = before.escalationLevel
  sentAt : after.sentAt = before.sentAt ∨ now = some after.sentAt

namespace LogEntry

variable {now : Option Moment}

theorem revises_self (now : Option Moment) (x : LogEntry) : x.Revises now x :=
  ⟨rfl, rfl, rfl, .inl rfl⟩

theorem Revises.trans {x y z : LogEntry} (h : z.Revises now y) (k : y.Revises now x) :
    z.Revises now x where
  alertId := h.alertId.trans k.alertId
  request := h.request.trans k.request
  escalationLevel := h.escalationLevel.trans k.escalationLevel
  sentAt := by
    rcases h.sentAt with hsame | hnow
    · rw [hsame]
      exact k.sentAt
    · exact .inr hnow

/-- An attempt that ends leaves the entry its time. -/
theorem Follows.revises {after before : LogEntry} (h : after.Follows before)
    (now : Option Moment) : after.Revises now before :=
  ⟨h.alertId, h.request, h.escalationLevel, .inl h.sentAt⟩

/-- An entry that is there stays that of its delivery, and none comes that is not. -/
def Stays (now : Option Moment) (before after : Option LogEntry) : Prop :=
  ∃ f : LogEntry → LogEntry, (∀ x, (f x).Revises now x) ∧ after = before.map f

theorem stays_self (now : Option Moment) (x : Option LogEntry) : Stays now x x :=
  ⟨fun y => y, fun y => y.revises_self now, Option.map_id'.symm⟩

theorem Stays.trans {x y z : Option LogEntry} (h : Stays now x y) (k : Stays now y z) :
    Stays now x z := by
  obtain ⟨f, hf, rfl⟩ := h
  obtain ⟨g, hg, rfl⟩ := k
  exact ⟨g ∘ f, fun x => (hg (f x)).trans (hf x), Option.map_map g f x⟩

end LogEntry

namespace ControlRoom

variable {c d e : ControlRoom} {id : String} {now? : Option Moment}

/-- All entries stay those of their deliveries, and no others come. -/
def Revised (now? : Option Moment) (c d : ControlRoom) : Prop :=
  ∀ id, LogEntry.Stays now? (c.journal.get? id) (d.journal.get? id)

theorem revised_of_journal (h : d.journal = c.journal) : Revised now? c d :=
  fun id => h ▸ LogEntry.stays_self now? (c.journal.get? id)

theorem Revised.trans (h : Revised now? c d) (k : Revised now? d e) : Revised now? c e :=
  fun id => (h id).trans (k id)

theorem revised_adjustEntry (c : ControlRoom) (id : String) {f : LogEntry → LogEntry}
    (hf : ∀ x, (f x).Revises now? x) : Revised now? c (c.adjustEntry id f) := by
  intro other
  have hget : (c.adjustEntry id f).journal.get? other
      = if other = id then (c.journal.get? other).map f else c.journal.get? other :=
    Table.get?_adjust c.journal id other f
  rw [hget]
  split
  · exact ⟨f, hf, rfl⟩
  · exact LogEntry.stays_self now? _

/-- Work on an attempt leaves all entries to their deliveries. -/
theorem Tried.revised {t : Stretch} (ht : Tried id c t) : Revised now? c t.state := by
  intro other
  by_cases hid : other = id
  · subst hid
    cases ht.tries with
    | fails hentry => exact hentry ▸ LogEntry.stays_self now? _
    | goesOn hentry => exact hentry ▸ LogEntry.stays_self now? _
    | ends hentry hf => exact ⟨_, fun x => (hf x).revises now?, hentry⟩
  · exact ht.others other hid ▸ LogEntry.stays_self now? _

theorem revised_endRetry (c : ControlRoom) (now : Moment) (tried asked : List String) (most : Int)
    (again : Bool) : Revised now? c (c.endRetry now tried asked most again).state := by
  rw [endRetry_state]
  exact revised_of_journal rfl

/-- Retries that begin take the time. -/
theorem revised_beginTries (c : ControlRoom) (now : Moment) (ids : List String) :
    Revised (some now) c (c.beginTries now ids) := by
  induction ids generalizing c with
  | nil => exact revised_of_journal rfl
  | cons id ids ih =>
      have hone : Revised (some now) c (c.adjustEntry id (·.beginRetry now)) :=
        revised_adjustEntry c id fun _ => ⟨rfl, rfl, rfl, .inr rfl⟩
      exact hone.trans (ih _)

theorem revised_beginRetry (c : ControlRoom) (now : Moment) (es : List String) (most : Int)
    (again : Bool) : Revised (some now) c (c.beginRetry now es most again).state := by
  rcases beginRetry_cases c now es most again with ⟨f, -, h⟩ | ⟨-, h⟩ | ⟨tried, -, -, h⟩
  · rw [h]
    exact revised_of_journal rfl
  · rw [h]
    exact revised_endRetry c now [] es most again
  · rw [h]
    exact revised_beginTries c now tried

/-- A new delivery draws up its entry, and leaves the others to their deliveries. -/
theorem revised_beginDelivery (c : ControlRoom) (now : Moment) (r : DeliveryRequest) (level : Int) :
    (∃ x, (c.beginDelivery now r level).state.journal.get? c.nextEntry = some x ∧
        x.Revises (some now) (.begin c.nextEntry r level now)) ∧
      ∀ id, id ≠ c.nextEntry → LogEntry.Stays (some now) (c.journal.get? id)
        ((c.beginDelivery now r level).state.journal.get? id) := by
  obtain ⟨d, -, -, hothers, hnew, htried⟩ := tried_beginDelivery c now r level
  refine ⟨?_, fun id hid => ?_⟩
  · have hrevised : Revised (some now) d (c.beginDelivery now r level).state := htried.revised
    obtain ⟨f, hf, hget⟩ := hrevised c.nextEntry
    rw [hnew] at hget
    exact ⟨_, hget, hf _⟩
  · rw [← hothers id hid]
    exact htried.revised id

/-- **What work makes of the journal.** It draws up the entry of a delivery that begins, and leaves
all other entries to their deliveries. -/
theorem revised_program (now : Instant) (c : ControlRoom) {w : Work} (hw : w.IsManaged)
    (wake : Wake Yield) (id : String) :
    LogEntry.Stays (c.clock? now) (c.journal.get? id)
        ((program now c w wake).state.journal.get? id) ∨
      ∃ r level m x, w = .deliver r level ∧ c.clock? now = some m ∧ c.nextEntry = id ∧
        (program now c w wake).state.journal.get? id = some x ∧
        x.Revises (some m) (.begin id r level m) := by
  have hall : Revised (c.clock? now) c (program now c w wake).state →
      LogEntry.Stays (c.clock? now) (c.journal.get? id)
        ((program now c w wake).state.journal.get? id) := fun h => h id
  by_cases htries : ∃ e, w.tries e = true
  · obtain ⟨e, he⟩ := htries
    exact .inl (hall (tried_program now c he wake).revised)
  by_cases hretry : (∃ es most again, w = .retry es most again) ∨
      ∃ es most again, w = .retrying es most again
  · refine .inl (hall ?_)
    rcases hretry with ⟨es, most, again, rfl⟩ | ⟨es, most, again, rfl⟩
    · rcases program_retry now c es most again wake with ⟨st, h⟩ | ⟨m, hm, h⟩
      · rw [h]
        exact revised_of_journal rfl
      · rw [h, hm]
        exact revised_beginRetry c m es most again
    · rcases program_retrying now c es most again wake with ⟨st, h⟩ | ⟨m, ys, -, h⟩
      · rw [h]
        exact revised_of_journal rfl
      · rw [h]
        exact revised_endRetry c m es es most again
  by_cases hdeliver : ∃ r level, w = .deliver r level
  · obtain ⟨r, level, rfl⟩ := hdeliver
    rcases program_deliver now c r level wake with ⟨st, h⟩ | ⟨m, hm, h⟩
    · refine .inl (hall ?_)
      rw [h]
      exact revised_of_journal rfl
    · obtain ⟨⟨x, hx, hrevises⟩, hothers⟩ := revised_beginDelivery c m r level
      rw [h, hm]
      by_cases hid : id = c.nextEntry
      · subst hid
        exact .inr ⟨r, level, m, x, rfl, rfl, rfl, hx, hrevises⟩
      · exact .inl (hothers id hid)
  · refine .inl (hall (revised_of_journal (sameBooks_program now c hw (fun e => ?_)
      (fun es most again => ⟨fun h => ?_, fun h => ?_⟩)
      (fun r level h => hdeliver ⟨r, level, h⟩) wake).journal))
    · exact Bool.not_eq_true _ ▸ fun h => htries ⟨e, h⟩
    · exact hretry (.inl ⟨es, most, again, h⟩)
    · exact hretry (.inr ⟨es, most, again, h⟩)

/-! ## What a wave delivers -/

/-- What a stage asks for goes to a verified contact of a recipient in the directory, on a channel with
a line. -/
theorem of_stageRequest? {r : AlertRef} {a : Alert} {s : Stage} {recipient : String} {ch : Channel}
    {q : DeliveryRequest} (hq : c.stageRequest? r a s recipient ch = some q) :
    c.supports ch = true ∧ ∃ p k, c.directory.get? recipient = some p ∧ p.contactFor ch = some k ∧
      q.channel = ch ∧ q.address = k.value ∧ q.alert = r ∧ q.recipientId = some p.id := by
  unfold stageRequest? at hq
  obtain ⟨p, hp, hq⟩ := Option.bind_eq_some_iff.mp hq
  obtain ⟨_, hline, hq⟩ := Option.bind_eq_some_iff.mp hq
  obtain ⟨k, hk, hq⟩ := Option.bind_eq_some_iff.mp hq
  obtain rfl := Option.some.inj hq
  refine ⟨by_contra fun hno => ?_, p, k, hp, hk, rfl, rfl, rfl, rfl⟩
  unfold guard at hline
  rw [if_neg hno] at hline
  exact nomatch hline

theorem mem_stageRequests {r : AlertRef} {a : Alert} {s : Stage} {q : DeliveryRequest}
    (hq : q ∈ c.stageRequests r a s) : ∃ recipient ∈ s.recipients, ∃ ch ∈ s.channels,
      c.stageRequest? r a s recipient ch = some q := by
  obtain ⟨recipient, hrecipient, hq⟩ := List.mem_flatMap.mp hq
  obtain ⟨ch, hch, hq⟩ := List.mem_filterMap.mp hq
  exact ⟨recipient, hrecipient, ch, hch, hq⟩

/-- An escalation delivers its own alert. -/
theorem alert_of_stageRequests {r : AlertRef} {a : Alert} {s : Stage} {q : DeliveryRequest}
    (hq : q ∈ c.stageRequests r a s) : q.alert = r := by
  obtain ⟨recipient, -, ch, -, hq⟩ := mem_stageRequests hq
  obtain ⟨-, p, k, -, -, -, -, halert, -⟩ := of_stageRequest? hq
  exact halert

/-- The deliveries of an escalation. -/
theorem alert_of_escalation {now : Moment} {r : AlertRef} {p : Policy} {level : Option Int}
    {q : DeliveryRequest} {l : Int}
    (hq : .deliver q l ∈ (c.beginEscalation now r p level).next.children) :
    q.alert = r ∧ ∃ a, c.store.find? r = some a := by
  have hend : ∀ {d : ControlRoom} {es : List String},
      .deliver q l ∉ (d.endEscalation now r p level.isNone es).next.children := by
    intro d es hq
    have hnext := (shaped_endEscalation (N := fun n => n.children = []) (c := d) (fun _ => rfl) now r p
      level.isNone es).next
    rw [hnext] at hq
    exact absurd hq List.not_mem_nil
  unfold beginEscalation at hq
  split at hq
  · exact absurd hq List.not_mem_nil
  · rename_i a ha
    split at hq
    · exact absurd hq hend
    · split at hq
      · exact absurd hq List.not_mem_nil
      · split at hq
        · exact absurd hq hend
        · split at hq
          · exact absurd hq hend
          · obtain ⟨x, hx, heq⟩ := List.mem_map.mp hq
            obtain ⟨rfl, -⟩ := Work.deliver.inj heq
            exact ⟨alert_of_stageRequests hx, a, ha⟩

/-- Deliveries are begun by notifications and escalations. -/
theorem wave_of_child (now : Instant) (c : ControlRoom) {w : Work} (hw : w.IsManaged)
    {wake : Wake Yield} {q : DeliveryRequest} {level : Int}
    (hq : .deliver q level ∈ (program now c w wake).next.children) :
    (∃ r, w = .notify r) ∨ ∃ r p level, w = .escalate r p level := by
  have hn := (shaped_program now c hw wake).next
  generalize (program now c w wake).next = n at hn hq
  cases hn with
  | evaluating | notifying | retrying =>
      obtain ⟨x, -, hx⟩ := List.mem_map.mp hq
      exact nomatch hx
  | collecting r => exact .inl ⟨r, rfl⟩
  | escalating r p level => exact .inr ⟨r, p, level, rfl⟩
  | _ => exact absurd hq List.not_mem_nil

/-- **A wave delivers its own alert**, which is there. -/
theorem alert_of_child (now : Instant) (c : ControlRoom) {w : Work} (hw : w.IsManaged)
    {wake : Wake Yield} {q : DeliveryRequest} {level : Int}
    (hq : .deliver q level ∈ (program now c w wake).next.children) :
    w.concerns q.alert = true ∧ w.IsFirst ∧ ∃ a, c.store.find? q.alert = some a := by
  rcases wave_of_child now c hw hq with ⟨r, rfl⟩ | ⟨r, p, l, rfl⟩
  · have hstart : .deliver q level ∈ (program now c (.notify r) .start).next.children := by
      unfold program at hq ⊢
      split at hq
      · cases wake with
        | stopped st => exact absurd hq List.not_mem_nil
        | _ => exact hq
      · exact absurd hq List.not_mem_nil
    obtain ⟨a, k, m, x, ha, -, -, hx, rfl, -⟩ := not_held_of_notification hstart
    obtain ⟨rfl, -⟩ := Work.deliver.inj hx
    exact ⟨decide_eq_true rfl, trivial, a, ha⟩
  · rcases program_escalate now c r p l wake with ⟨-, st, h⟩ | ⟨m, -, -, h⟩
    · rw [h] at hq
      exact absurd hq List.not_mem_nil
    · rw [h] at hq
      obtain ⟨rfl, a, ha⟩ := alert_of_escalation hq
      exact ⟨decide_eq_true rfl, trivial, a, ha⟩

end ControlRoom

namespace Work

/-- Work is on one alert at most. -/
theorem concerns_unique {w : Work} {q r : AlertRef} (hq : w.concerns q = true)
    (hr : w.concerns r = true) : q = r := by
  unfold Work.concerns at hq hr
  split at hq
  · exact (of_decide_eq_true hq).symm.trans (of_decide_eq_true hr)
  · exact (of_decide_eq_true hq).symm.trans (of_decide_eq_true hr)
  · exact (of_decide_eq_true hq).symm.trans (of_decide_eq_true hr)
  · exact (of_decide_eq_true hq).symm.trans (of_decide_eq_true hr)
  · exact nomatch hq

/-- Whoever goes on with an alert goes on with the same. -/
theorem Leads.concerns {w b : Work} {n : Next Work Yield} (hn : w.Leads n) (hb : n.body? = some b)
    (r : AlertRef) : b.concerns r = w.concerns r := by
  cases hn with
  | finish _ o => exact nomatch hb
  | sending _ entry d l result hw =>
      obtain rfl := Option.some.inj hb
      rcases hw with ⟨q, level, rfl⟩ | ⟨e, rfl⟩
      · rfl
      · rfl
  | lapsing _ entry turns hw =>
      obtain rfl := Option.some.inj hb
      rcases hw with ⟨q, level, rfl⟩ | ⟨e, rfl⟩ | ⟨e, k, rfl⟩
      · rfl
      · rfl
      · rfl
  | _ =>
      obtain rfl := Option.some.inj hb
      rfl

end Work

namespace Office

variable {p : Premises} {h : Past} {o o' : Office} {n : Doing} {e id : String} {place : Nat}

/-! ## Deliveries in a run -/

/-- A delivery was begun for an alert. -/
def DrawnFor (e id : String) (h : Past) : Prop :=
  ∃ d ∈ h, draws e d = true ∧ ∃ q level, d.body = .deliver q level ∧ q.alert.id = id

theorem DrawnFor.mono {k : Past} (hd : DrawnFor e id h) (hk : ∀ d ∈ h, d ∈ k) : DrawnFor e id k := by
  obtain ⟨d, hd, h⟩ := hd
  exact ⟨d, hk d hd, h⟩

/-- A delivery whose identifier is given once was begun for one alert. -/
theorem Premises.Run.drawnFor_unique (hr : p.Run h o) (hone : GivenOnce e h) {id' : String}
    (hd : DrawnFor e id h) (hd' : DrawnFor e id' h) : id = id' := by
  obtain ⟨d, hd, hdraws, q, level, hbody, rfl⟩ := hd
  obtain ⟨d', hd', hdraws', q', level', hbody', rfl⟩ := hd'
  have hfirst : ∀ {s : Doing} {q : DeliveryRequest} {level : Int}, s ∈ h →
      s.body = .deliver q level → s.first = true :=
    fun hs hbody => (hr.first hs (by rw [hbody]; trivial)).1
  obtain rfl := hr.keeps.coherent.first_unique hd hd' (hfirst hd hbody) (hfirst hd' hbody')
    (hone d hd d' hd' hdraws hdraws')
  rw [(Work.deliver.inj (hbody.symm.trans hbody')).1]

/-- An entry was drawn up by the delivery of a request, on its level. -/
def DrawnBy (e : String) (x : LogEntry) (h : Past) : Prop :=
  ∃ d ∈ h, draws e d = true ∧ ∃ q level, d.body = .deliver q level ∧ x.request = some q ∧
    x.alertId = q.alert.id ∧ x.escalationLevel = level

theorem DrawnBy.revised {k : Past} {x y : LogEntry} {now : Option Moment} (hd : DrawnBy e x h)
    (hk : ∀ d ∈ h, d ∈ k) (hy : y.Revises now x) : DrawnBy e y k := by
  obtain ⟨d, hd, hdraws, q, level, hbody, hx, hid, hlevel⟩ := hd
  exact ⟨d, hk d hd, hdraws, q, level, hbody, hy.request.trans hx, hy.alertId.trans hid,
    hy.escalationLevel.trans hlevel⟩

/-- **Every entry was drawn up by the delivery of its request.** The induction is on the run. -/
theorem Premises.Run.drawnBy (hr : p.Run h o) {x : LogEntry}
    (hx : o.state.journal.get? e = some x) : DrawnBy e x h := by
  induction hr generalizing x with
  | idle => exact nomatch hx
  | @step h a b place hr hb ih =>
      have hrun : p.Run h a := hr
      have hstate := state_of_stepAt hrun.keeps.numbered hb
      have hstep := hrun.step hb
      cases hs : Agenda.stintAt? a place with
      | none =>
          rw [hs] at hstate
          have hstate : b.state = a.state := hstate
          exact ih (hstate ▸ hx)
      | some n =>
          rw [hs] at hstate hstep
          have hs : p.Step h a n b := ⟨hrun, hstep, place, hs, hb⟩
          have hstate : b.state = (n.turn ControlRoom.program).state := hstate
          rw [hstate] at hx
          have hmanaged := (hs.after.mayBeDone n List.mem_cons_self).1
          rcases ControlRoom.revised_program n.now n.state hmanaged n.wake e with
            ⟨f, hf, hget⟩ | ⟨q, level, m, y, hbody, hclock, hnext, hget, hy⟩
          · rw [show (n.turn ControlRoom.program).state.journal.get? e = _ from hget, hs.state] at hx
            obtain ⟨y, hy, rfl⟩ := Option.map_eq_some_iff.mp hx
            exact (ih hy).revised (fun d => List.mem_cons_of_mem n) (hf y)
          · obtain rfl := Option.some.inj (hget.symm.trans hx)
            exact ⟨n, List.mem_cons_self, draws_iff.mpr ⟨⟨q, level, hbody⟩, ⟨m, hclock⟩, hnext⟩, q,
              level, hbody, hy.request, hy.alertId, hy.escalationLevel⟩
  | @pass h a time hr hready htime ih =>
      have hstate : (a.passTo time).state = a.state := state_passTo a time
      exact ih (hstate ▸ hx)
  | @serve h a b hr hb ih =>
      have hrun : p.Run h a := hr
      obtain ⟨q, rfl⟩ := hb
      exact ih ((sameBooks_serve hrun.keeps.numbered q).journal ▸ hx)

/-- **Every entry is of the alert for which its delivery was begun.** -/
theorem Premises.Run.drawnFor (hr : p.Run h o) {x : LogEntry}
    (hx : o.state.journal.get? e = some x) : DrawnFor e x.alertId h := by
  obtain ⟨d, hd, hdraws, q, level, hbody, -, hid, -⟩ := hr.drawnBy hx
  exact ⟨d, hd, hdraws, q, level, hbody, hid.symm⟩

/-- A task is on one alert from first to last. -/
theorem Premises.Run.concerns_of_task (hr : p.Run h o) {s : Doing} (hs : s ∈ h) (hn : n ∈ h)
    (hfirst : s.first = true) (htask : n.task = s.task) {r : AlertRef}
    (hconcerns : s.body.concerns r = true) : n.body.concerns r = true :=
  hr.keeps.coherent.kind (F := fun w => w.concerns r = true)
    (fun _ hx _ hb hw => ((hr.shaped hx).next.concerns hb r).trans hw) hs hn hfirst htask hconcerns

/-- **What a wave carries are deliveries of its own alert**, which was there when they began. -/
theorem Premises.Step.drawnFor (hs : p.Step h o n o') (hone : GivenOnce e (n :: h))
    (he : e ∈ n.body.carried n.wake) :
    ∃ q, n.body.concerns q = true ∧ DrawnFor e q.id h ∧
      ∃ s ∈ h, ∃ a, s.state.store.find? q = some a := by
  obtain ⟨place, hplace, -⟩ := hs.taken
  obtain ⟨hwave, f, hf, haudience, y, hends, hid⟩ :=
    (hs.before.carried_once hs.after hone hplace).2 he
  obtain ⟨-, d, hd, hdraws, -, hdaudience⟩ := hs.after.drawn_of_ends List.mem_cons_self hwave
    (List.mem_cons_of_mem n hf) haudience hends hid
  obtain ⟨⟨q, level, hbody⟩, -⟩ := draws_iff.mp hdraws
  have hdh : d ∈ h := by
    rcases List.mem_cons.mp hd with rfl | hd
    · rw [hbody] at hwave
      exact hwave.elim
    · exact hd
  -- the wave has started the delivery with its first stint
  obtain ⟨k, hk⟩ := History.exists_suffix_of_mem hdh
  obtain ⟨s, hsk, hsaudience, -, i, hi, -⟩ := hs.before.origin hk (by rw [hbody]; trivial)
    (by rw [hbody]; exact id)
  have hsh : s ∈ h := hk.subset (List.mem_cons_of_mem d hsk)
  rw [hbody] at hi
  obtain ⟨hconcerns, hfirst, a, ha⟩ := ControlRoom.alert_of_child s.now s.state
    (hs.before.mayBeDone s hsh).1 (List.mem_of_getElem? hi)
  have htask : s.task = n.task :=
    Audience.task.inj (hsaudience.symm.trans (hdaudience.trans haudience))
  refine ⟨q.alert, ?_, ⟨d, hdh, hdraws, q, level, hbody, rfl⟩, s, hsh, a, ha⟩
  exact hs.after.concerns_of_task (List.mem_cons_of_mem n hsh) List.mem_cons_self
    (hs.before.first hsh hfirst).1 htask.symm hconcerns

end Office

end BuildingAlerts
