/-
What a notification hears.

A notification starts its deliveries and listens to them. It keeps count of those that it has not
heard of, and of the entries of the others in the order in which they ended, so what it knows can be
read off the history; and as long as it waits, one of its deliveries is under way.
-/
import BuildingAlerts.Proofs.Agenda.Collecting
import BuildingAlerts.Proofs.ControlRoom.Firing
import BuildingAlerts.Proofs.ControlRoom.Waves

set_option autoImplicit false

namespace BuildingAlerts

open Agenda

/-- Work of a notification that listens to its deliveries. -/
def Work.IsCollecting : Work → Prop
  | .collecting .. => True
  | _ => False

namespace ControlRoom

/-- What has arrived after some more. -/
theorem arrivals_append {os : List (Outcome Yield)} {es : List String}
    (hos : arrivals os = (es, none)) (os' : List (Outcome Yield)) :
    arrivals (os ++ os') = (es ++ (arrivals os').1, (arrivals os').2) := by
  induction os generalizing es with
  | nil =>
      obtain rfl := (Prod.mk.inj hos).1
      rfl
  | cons o os ih =>
      cases o with
      | error st => exact nomatch (Prod.mk.inj hos).2
      | ok y =>
          obtain ⟨rfl, hnone⟩ := Prod.mk.inj hos
          have hos : arrivals os = ((arrivals os).1, none) := Prod.ext rfl hnone
          have hrest := ih hos
          show ((y.ids ++ (arrivals (os ++ os')).1), (arrivals (os ++ os')).2) = _
          rw [hrest]
          exact Prod.ext (List.append_assoc _ _ _).symm rfl

/-- A notification that goes on has started a delivery for each request. -/
theorem of_body?_beginNotification {c : ControlRoom} {now : Moment} {r : AlertRef} {s : Routing}
    {sequel : Sequel} {w : Work} (hw : (c.beginNotification now r s sequel).next.body? = some w) :
    ∃ rs, rs ≠ [] ∧ w = .collecting r rs.length [] sequel ∧
      (c.beginNotification now r s sequel).next = .collect (rs.map fun q => .deliver q 0) w := by
  unfold beginNotification at hw ⊢
  split at hw
  · exact nomatch hw
  · split at hw
    · exact nomatch (body?_stopNotification _ _ sequel).symm.trans hw
    · rename_i d _
      obtain ⟨o, ho⟩ := next_endNotification d now r [] sequel
      rw [ho] at hw
      exact nomatch hw
    · rename_i rs d hne _
      obtain rfl := Option.some.inj hw
      exact ⟨rs, fun hnil => hne hnil, rfl, rfl⟩

/-- An escalation that goes on has started a delivery for each request. -/
theorem of_body?_beginEscalation {c : ControlRoom} {now : Moment} {r : AlertRef} {p : Policy}
    {level : Option Int} {w : Work} (hw : (c.beginEscalation now r p level).next.body? = some w) :
    ∃ rs, ∃ s : Stage, rs ≠ [] ∧
      (c.beginEscalation now r p level).next = .gather (rs.map fun q => .deliver q s.level) w := by
  have hend : ∀ {d : ControlRoom} {es : List String},
      (d.endEscalation now r p level.isNone es).next.body? ≠ some w := by
    intro d es hb
    have hends := (shaped_endEscalation (c := d) (N := fun n => n.body? = none) (fun _ => rfl) now r p
      level.isNone es).next
    exact nomatch hends.symm.trans hb
  unfold beginEscalation at hw ⊢
  split at hw
  · exact nomatch hw
  · split at hw
    · exact absurd hw hend
    · split at hw
      · exact nomatch hw
      · split at hw
        · exact absurd hw hend
        · rename_i hdue
          rw [if_neg hdue]
          split at hw
          · exact absurd hw hend
          · rename_i s _ _ _ _ _ hne
            obtain rfl := Option.some.inj hw
            exact ⟨_, s, hne, rfl⟩

end ControlRoom

namespace Office

variable {h : Past} {o : Office} {r : AlertRef} {left : Nat} {es : List String} {sequel : Sequel}

/-! ## What a history shows of notifications -/

/-- A stint starts deliveries of an alert and listens to them. -/
def Dispatches (s : Doing) (r : AlertRef) (sequel : Sequel) (rs : List DeliveryRequest) : Prop :=
  rs ≠ [] ∧ (s.turn ControlRoom.program).next
    = .collect (rs.map fun q => .deliver q 0) (.collecting r rs.length [] sequel)

/-- Every notification that listens goes back to a stint that has started its deliveries. -/
structure Notifies (h : Past) : Prop where
  coherent : History.Coherent ControlRoom.program h
  begins : ∀ q ∈ h, ∀ {r left es sequel},
    (q.turn ControlRoom.program).next.body? = some (.collecting r left es sequel) →
      (∃ left' es', q.body = .collecting r left' es' sequel) ∨ q.first = true ∧
        ∃ rs, Dispatches q r sequel rs ∧ left = rs.length ∧ es = []

/-- What a notification knows after a stint that it goes on from. -/
structure Knows (h : Past) (t : TaskId) (r : AlertRef) (left : Nat) (es : List String)
    (sequel : Sequel) (s : Doing) (rs : List DeliveryRequest) : Prop where
  mem : s ∈ h
  task : s.task = t
  dispatches : Dispatches s r sequel rs
  count : left + (History.heard t h).length = rs.length
  waits : left ≠ 0
  entries : ControlRoom.arrivals (History.heard t h) = (es, none)

/-- **What a notification knows** is what it was told since it started its deliveries. The induction
is on the history before the stint. -/
theorem Notifies.knows (hh : Notifies h) {q : Doing} {e : Past} (hq : q :: e <:+ h)
    (hb : (q.turn ControlRoom.program).next.body? = some (.collecting r left es sequel)) :
    ∃ s rs, Knows (q :: e) q.task r left es sequel s rs := by
  induction hlen : e.length using Nat.strongRecOn generalizing q e left es with
  | ind m ih =>
      have hmem : q ∈ h := hq.subset List.mem_cons_self
      have hfollows := hh.coherent q e hq
      unfold History.Follows at hfollows
      rcases hh.begins q hmem hb with ⟨left', es', hbody⟩ | ⟨hfirst, rs, hrs, rfl, rfl⟩
      · have hturn := hb
        unfold Stint.turn at hturn
        rw [hbody] at hturn
        obtain ⟨os, hwake, hfine, hleft, hw, -⟩ := ControlRoom.taken_in q.now q.state hturn
        obtain ⟨-, rfl, rfl, -⟩ := Work.collecting.inj hw
        split at hfollows
        · exact nomatch hwake.symm.trans hfollows.2.1
        · rename_i d hlatest
          obtain ⟨hdm, hdt⟩ := History.latest_eq_some hlatest
          obtain ⟨k, hk, hheard⟩ := History.heard_latest hlatest
          have hshorter : k.length < m := by
            rw [← hlen]
            exact Nat.lt_of_lt_of_le (Nat.lt_succ_self _) hk.length_le
          have hdbody := hfollows.2.2.body
          rw [hbody] at hdbody
          obtain ⟨s, rs, hknows⟩ := ih k.length hshorter
            (hk.trans ((List.suffix_cons q e).trans hq)) hdbody rfl
          have hknown := hknows.entries
          have hcount := hknows.count
          rw [hdt, ← hheard] at hknown hcount
          refine ⟨s, rs, List.mem_cons_of_mem q (hk.subset hknows.mem), hknows.task.trans hdt,
            hknows.dispatches, ?_, hleft, ?_⟩
          · rw [History.heard_cons_self rfl, hwake, List.length_append]
            show left' - os.length + (_ + os.length) = _
            omega
          · rw [History.heard_cons_self rfl, hwake, Wake.outcomes,
              ControlRoom.arrivals_append hknown, hfine]
      · -- it has just begun
        split at hfollows
        · rename_i hnone
          have hheard : History.heard q.task (q :: e) = [] := by
            rw [History.heard_cons_self rfl, hfollows.2.1,
              History.heard_eq_nil (History.latest_eq_none.mp hnone)]
            rfl
          refine ⟨q, rs, List.mem_cons_self, rfl, hrs, ?_, ?_, ?_⟩
          · rw [hheard]
            rfl
          · exact fun hzero => hrs.1 (List.length_eq_zero_iff.mp hzero)
          · rw [hheard]
            rfl
        · exact nomatch hfirst.symm.trans hfollows.1

/-- What a notification knows that waits for its deliveries. -/
theorem Notifies.knows_of_process (hh : Notifies h) (ho : Sound ControlRoom.program none h o)
    {t : TaskId} {x : Process Work Yield} (hx : o.process? t = some x) (hbegun : x.begun = true)
    (hbody : x.body = .collecting r left es sequel) :
    ∃ s rs, Knows h t r left es sequel s rs := by
  have hstands := ho.stands t nofun x hx
  unfold Stands at hstands
  split at hstands
  · exact nomatch hbegun.symm.trans hstands.begun
  · rename_i d hlatest
    obtain ⟨k, hk, hheard⟩ := History.heard_latest hlatest
    obtain ⟨hdm, hdt⟩ := History.latest_eq_some hlatest
    have hb := hstands.2.2.body
    rw [hbody] at hb
    obtain ⟨s, rs, hknows⟩ := hh.knows hk hb
    have hknown := hknows.entries
    have hcount := hknows.count
    rw [hdt, ← hheard] at hknown hcount
    exact ⟨s, rs, hk.subset hknows.mem, hknows.task.trans hdt, hknows.dispatches, hcount, hknows.waits,
      hknown⟩

theorem Dispatches.listens {s : Doing} {rs : List DeliveryRequest} (hs : Dispatches s r sequel rs) :
    s.Listens ControlRoom.program :=
  ⟨_, _, hs.2⟩

theorem Dispatches.length_childIds {s : Doing} {rs : List DeliveryRequest}
    (hs : Dispatches s r sequel rs) : (s.childIds ControlRoom.program).length = rs.length := by
  unfold Stint.childIds
  rw [List.length_range', hs.2]
  exact List.length_map _

/-- When nothing is ready, one of the deliveries of a notification that waits is under way. -/
theorem Notifies.exists_child {F : Work → Prop} (hh : Notifies h)
    (ho : Sound ControlRoom.program none h o) (hl : Listening ControlRoom.program F h o)
    (hready : o.ready = []) {t : TaskId} {x : Process Work Yield} (hx : o.process? t = some x)
    (hbegun : x.begun = true) (hbody : x.body = .collecting r left es sequel) :
    ∃ s rs, s ∈ h ∧ s.task = t ∧ Dispatches s r sequel rs ∧
      ∃ c q, o.process? c = some q ∧ q.audience = .task t := by
  obtain ⟨s, rs, hknows⟩ := hh.knows_of_process ho hx hbegun hbody
  obtain rfl := hknows.task
  refine ⟨s, rs, hknows.mem, rfl, hknows.dispatches, ?_⟩
  obtain ⟨told, hhears, hmap, hall⟩ := hl.quiet ho hready hknows.mem hknows.dispatches.listens hx
  have hlength : (told.map (·.1)).length ≠ (s.childIds ControlRoom.program).length := by
    have hcount := hknows.count
    have hwaits := hknows.waits
    rw [← hmap, List.length_map] at hcount
    rw [List.length_map, hknows.dispatches.length_childIds]
    omega
  obtain ⟨c, hc, hno⟩ := exists_not_heard List.nodup_range' hhears.once (fun c hc => by
    obtain ⟨g, hg, rfl⟩ := List.mem_map.mp hc
    exact (hhears.owned g hg).1) hlength
  obtain ⟨q, hq, hqt⟩ := (hall c hc).resolve_left hno
  exact ⟨c, q, hq, hqt⟩

/-! ## Runs of the office -/

variable {p : Premises}

/-- Notifications do nothing but listen on once they have started their deliveries. -/
theorem listeners_isManaged : Listeners ControlRoom.program Work.IsManaged Work.IsCollecting where
  begins := by
    intro now c w wake hw cs b hnext
    have hshaped := (ControlRoom.shaped_program now c hw wake).next
    rw [hnext] at hshaped
    cases hshaped
    trivial
  goesOn := by
    intro now c w wake hw hcollecting b hb
    cases w with
    | collecting r left es sequel =>
        obtain ⟨os, hwake, -, -, rfl, hnext⟩ := ControlRoom.taken_in now c hb
        exact ⟨trivial, hnext, os, hwake⟩
    | _ => exact hcollecting.elim

/-- A stint that starts deliveries and listens to them is the first one of its task. -/
theorem Premises.Run.first_of_listens (hr : p.Run h o) {s : Doing} (hs : s ∈ h)
    (hlistens : s.Listens ControlRoom.program) : s.first = true := by
  obtain ⟨cs, b, hnext⟩ := hlistens
  have hshaped := (hr.shaped hs).next
  rw [hnext] at hshaped
  generalize hbody : s.body = w at hshaped
  cases hshaped with
  | collecting r rs sequel => exact (hr.first hs (by rw [hbody]; trivial)).1

/-- **Notifications hear of each of their deliveries once.** -/
theorem Premises.Run.listening (hr : p.Run h o) :
    Listening ControlRoom.program Work.IsSubordinate h o :=
  Agenda.Run.listening ControlRoom.closed_isManaged ControlRoom.divides_isSubordinate
    listeners_isManaged (sound_idle _ _) outside_of_serve (fun _ _ h => nomatch h) managed_of_serve
    (fun hr => Premises.Run.calm hr) (fun hr => Premises.Run.attentive hr)
    (fun hr _ hs hlistens => Premises.Run.first_of_listens hr hs hlistens) hr

/-- Who goes on to listen has listened before, or has just started its deliveries. -/
theorem begins_of_collecting {q : Doing} (hleads : q.body.Leads (q.turn ControlRoom.program).next)
    (hfirst : q.body.IsFirst → q.first = true ∧ q.wake = .start)
    (hb : (q.turn ControlRoom.program).next.body? = some (.collecting r left es sequel)) :
    (∃ left' es', q.body = .collecting r left' es' sequel) ∨ q.first = true ∧
      ∃ rs, Dispatches q r sequel rs ∧ left = rs.length ∧ es = [] := by
  rcases hleads.of_collecting hb with ⟨hbody, rfl⟩ | hold
  · obtain ⟨hfirst, hwake⟩ := hfirst (by rw [hbody]; trivial)
    refine .inr ⟨hfirst, ?_⟩
    unfold Dispatches
    unfold Stint.turn at hb ⊢
    rw [hbody, hwake] at hb ⊢
    cases hclock : q.state.clock? q.now with
    | none =>
        rw [ControlRoom.program_of_no_clock hclock] at hb
        exact nomatch hb
    | some m =>
        rw [ControlRoom.program_of_clock hclock] at hb ⊢
        have hturn : q.state.goOnWith m (.notify r) .start = q.state.beginAnnouncement m r := rfl
        rw [hturn] at hb ⊢
        unfold ControlRoom.beginAnnouncement at hb ⊢
        split at hb
        · exact nomatch hb
        · obtain ⟨rs, hne, hw, hnext⟩ := ControlRoom.of_body?_beginNotification hb
          obtain ⟨-, rfl, -, rfl⟩ := Work.collecting.inj hw
          exact ⟨rs, ⟨hne, hnext⟩, rfl, rfl⟩
  · exact .inl hold

theorem Premises.Run.notifies (hr : p.Run h o) : Notifies h where
  coherent := hr.keeps.coherent
  begins _ hq _ _ _ _ hb := begins_of_collecting (hr.shaped hq).next (hr.first hq) hb

/-- Whoever a wave has started is at work on a delivery. -/
theorem Premises.Run.isDelivery_of_child (hr : p.Run h o) {n : Doing} (hn : n ∈ h)
    (hwave : n.body.IsWave) {c : TaskId} {q : Process Work Yield} (hq : o.process? c = some q)
    (hqn : q.audience = .task n.task) : q.body.IsDelivery := by
  have hstands := hr.keeps.stands c nofun q hq
  unfold Stands at hstands
  split at hstands
  · obtain ⟨s, hs, hst, -, i, hi, -⟩ := hstands.started n.task hqn
    have hswave := hr.isWave_of_task hn hwave hs hst
    exact .inl ((hr.shaped hs).next.deliver_of_isWave hswave (List.mem_of_getElem? hi))
  · rename_i f hf
    obtain ⟨hfm, rfl⟩ := History.latest_eq_some hf
    obtain ⟨-, haudience, hrests⟩ := hstands
    obtain ⟨d, hd, htask, hfirst, -, hdelivers⟩ :=
      hr.deliver_of_child hn hwave hfm (haudience.symm.trans hqn)
    have hdelivery : f.body.IsDelivery := hr.keeps.coherent.kind (F := Work.IsDelivery)
      (fun s hs b hb hw => (hr.shaped hs).next.isDelivery hw hb) hd hfm hfirst htask.symm
      (.inl hdelivers)
    exact (hr.shaped hfm).next.isDelivery hdelivery hrests.body

/-- **A notification that waits has a delivery under way**, whenever nothing is ready. -/
theorem Premises.Run.exists_delivery (hr : p.Run h o) (hready : o.ready = []) {t : TaskId}
    {x : Process Work Yield} (hx : o.process? t = some x) (hbegun : x.begun = true)
    (hbody : x.body = .collecting r left es sequel) :
    ∃ c q, o.process? c = some q ∧ q.body.IsDelivery := by
  obtain ⟨s, rs, hs, rfl, hdispatches, c, q, hq, hqt⟩ :=
    hr.notifies.exists_child hr.keeps hr.listening hready hx hbegun hbody
  have hwave : s.body.IsWave := by
    have hb := congrArg Next.body? hdispatches.2
    exact ((hr.shaped hs).next.isWave_iff hb).mp trivial
  exact ⟨c, q, hq, hr.isDelivery_of_child hs hwave hq hqt⟩

/-- An escalation that waits has started its deliveries. -/
theorem Premises.Run.gather_of_escalating (hr : p.Run h o) {d : Doing} (hd : d ∈ h) {pol : Policy}
    {s : Stage} {since : Moment} {booked : Bool}
    (hb : (d.turn ControlRoom.program).next.body? = some (.escalating r pol s since booked)) :
    ∃ rs, ∃ s' : Stage, rs ≠ [] ∧ (d.turn ControlRoom.program).next
      = .gather (rs.map fun q => .deliver q s'.level) (.escalating r pol s since booked) := by
  obtain ⟨level, hbody⟩ := (hr.shaped hd).next.of_escalating hb
  unfold Stint.turn at hb ⊢
  rw [hbody] at hb ⊢
  rcases ControlRoom.program_escalate d.now d.state r pol level d.wake with
    ⟨-, st, h⟩ | ⟨m, -, -, h⟩
  · rw [h] at hb
    exact nomatch hb
  · rw [h] at hb ⊢
    exact ControlRoom.of_body?_beginEscalation hb

/-- **An escalation that waits has a delivery under way**, whenever nothing is ready. -/
theorem Premises.Run.exists_delivery_of_escalating (hr : p.Run h o) (hready : o.ready = [])
    {t : TaskId} {x : Process Work Yield} (hx : o.process? t = some x) (hbegun : x.begun = true)
    {pol : Policy} {s : Stage} {since : Moment} {booked : Bool}
    (hbody : x.body = .escalating r pol s since booked) :
    ∃ c q, o.process? c = some q ∧ q.body.IsDelivery := by
  have hstands := hr.keeps.stands t nofun x hx
  unfold Stands at hstands
  split at hstands
  · exact nomatch hbegun.symm.trans hstands.begun
  · rename_i d hlatest
    obtain ⟨hd, rfl⟩ := History.latest_eq_some hlatest
    have hb := hstands.2.2.body
    rw [hbody] at hb
    obtain ⟨rs, s', hne, hgather⟩ := hr.gather_of_escalating hd hb
    have hchildren : d.childIds ControlRoom.program ≠ [] := by
      unfold Stint.childIds
      rw [hgather]
      intro hnil
      exact hne (List.map_eq_nil_iff.mp (List.length_eq_zero_iff.mp (List.range'_eq_nil_iff.mp hnil)))
    obtain ⟨c, -, q, hq, hqt⟩ :=
      hr.attentive.exists_waited hr.keeps hready hx hlatest hgather hchildren
    have hwave : d.body.IsWave := ((hr.shaped hd).next.isWave_iff hb).mp trivial
    exact ⟨c, q, hq, hr.isDelivery_of_child hd hwave hq hqt⟩

end Office

end BuildingAlerts
