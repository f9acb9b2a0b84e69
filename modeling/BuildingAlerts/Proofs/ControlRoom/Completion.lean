/-
What a wave leaves when it is over.

A wave of deliveries writes to the log of its alert when it has heard of all of them, and then all of
them are in the log, each once. A wave that is cut short, because it is told to stop or because one
of its deliveries is, writes nothing, whatever was sent by then. What was sent stays sent all the
same, so the log of an alert may lack deliveries that have arrived.
-/
import BuildingAlerts.Proofs.ControlRoom.Listening
import BuildingAlerts.Proofs.ControlRoom.Logs
import BuildingAlerts.Proofs.ControlRoom.Owners
import BuildingAlerts.Proofs.ControlRoom.Retries
import BuildingAlerts.Proofs.ControlRoom.Sequels

set_option autoImplicit false

namespace BuildingAlerts

open Agenda

namespace ControlRoom

/-- Without a failure among them, all that has arrived is taken in. -/
theorem mem_arrivals {os : List (Outcome Yield)} {ids : List String}
    (hos : arrivals os = (ids, none)) {x : Outcome Yield} (hx : x ∈ os) :
    ∃ y, x = .ok y ∧ ∀ i ∈ y.ids, i ∈ ids := by
  induction os generalizing ids with
  | nil => exact absurd hx List.not_mem_nil
  | cons z os ih =>
      cases z with
      | error st => exact nomatch (Prod.mk.inj hos).2
      | ok z =>
          obtain ⟨rfl, hnone⟩ := Prod.mk.inj hos
          rcases List.mem_cons.mp hx with rfl | hx
          · exact ⟨z, rfl, fun i hi => List.mem_append_left _ hi⟩
          · have hrest : arrivals os = ((arrivals os).1, none) := Prod.ext rfl hnone
            obtain ⟨y, hy, hids⟩ := ih hrest hx
            exact ⟨y, hy, fun i hi => List.mem_append_right _ (hids i hi)⟩

/-- What is taken in has arrived. -/
theorem of_mem_arrivals {os : List (Outcome Yield)} {i : String} (hi : i ∈ (arrivals os).1) :
    ∃ y, .ok y ∈ os ∧ i ∈ y.ids := by
  induction os with
  | nil => exact absurd hi List.not_mem_nil
  | cons z os ih =>
      cases z with
      | error st => exact absurd hi List.not_mem_nil
      | ok z =>
          rcases List.mem_append.mp hi with hi | hi
          · exact ⟨z, List.mem_cons_self, hi⟩
          · obtain ⟨y, hy, hids⟩ := ih hi
            exact ⟨y, List.mem_cons_of_mem _ hy, hids⟩

/-- Who does not go on ends. -/
theorem finishes_of_body? {n : Next Work Yield} (hn : n.body? = none) : ∃ out, n = .finish out := by
  cases n with
  | finish out => exact ⟨out, rfl⟩
  | _ => exact nomatch hn

/-- A wave that has heard of all its deliveries ends. -/
theorem finishes_of_completes {now : Instant} {c : ControlRoom} {w : Work} (hmanaged : w.IsManaged)
    {wake : Wake Yield} (hw : w.completes wake = true) :
    ∃ out, (program now c w wake).next = .finish out := by
  refine finishes_of_body? ?_
  cases hbody : (program now c w wake).next.body? with
  | none => rfl
  | some b =>
      have hnext := (shaped_program now c hmanaged wake).next
      unfold Work.completes at hw
      split at hw
      · rw [Bool.and_eq_true, decide_eq_true_iff] at hw
        obtain ⟨os, hos, -, hne, -⟩ := taken_in now c hbody
        obtain rfl := Wake.arrived.inj hos
        exact absurd hw.2 hne
      · generalize (program now c _ _).next = n at hnext hbody
        cases hnext with
        | finish out => exact nomatch hbody
        | sending _ entry d l result hw => rcases hw with ⟨q, level, hw⟩ | ⟨e, hw⟩ <;> exact nomatch hw
        | lapsing _ entry turns hw =>
            rcases hw with ⟨q, level, hw⟩ | ⟨e, hw⟩ | ⟨e, m, hw⟩ <;> exact nomatch hw
      · exact nomatch hw

end ControlRoom

namespace Office

variable {p : Premises} {h : Past} {o : Office} {r : AlertRef} {id : String} {n : Doing}

/-! ## Waves that are cut short -/

/-- A stint of a wave is told to stop, or of a delivery that was, or there is no calendar any more. -/
def CutShort (n : Doing) : Prop :=
  n.wake.isStopped = true ∨ n.wake.bringsFailure = true ∨ n.state.clock? n.now = none

/-- Who is cut short writes nothing. -/
theorem logged_of_cutShort (hn : CutShort n) (r : AlertRef) : logged r n = [] := by
  refine if_neg fun ⟨hcompletes, hclock, _⟩ => ?_
  rcases hn with hstopped | hfailure | hnone
  · unfold Work.completes at hcompletes
    split at hcompletes
    · rename_i hwake
      rw [hwake] at hstopped
      exact nomatch hstopped
    · rename_i hwake
      rw [hwake] at hstopped
      exact nomatch hstopped
    · exact nomatch hcompletes
  · unfold Work.completes at hcompletes
    split at hcompletes
    · rename_i hwake
      rw [hwake] at hfailure
      rw [Bool.and_eq_true, Option.isNone_iff_eq_none] at hcompletes
      have hfailure : (ControlRoom.arrivals _).2.isSome = true := hfailure
      rw [hcompletes.1] at hfailure
      exact nomatch hfailure
    · rename_i hwake
      rw [hwake] at hfailure
      exact nomatch hfailure
    · exact nomatch hcompletes
  · rw [hnone] at hclock
    exact nomatch hclock

/-- What a wave goes on with that has begun before: what it hears of its deliveries, unless it is
told to stop. -/
theorem Premises.Run.wake_of_wave (hr : p.Run h o) {e : Past} (hn : n :: e <:+ h)
    (hwave : n.body.IsWave) {s : Doing} (hs : s ∈ e) (htask : s.task = n.task) :
    ∃ q ∈ e, q.task = n.task ∧ History.latest e n.task = some q ∧
      History.Leads ControlRoom.program e q n.body n.wake ∧
      ((∃ r left es sequel os, n.body = .collecting r left es sequel ∧ n.wake = .arrived os) ∨
        (∃ r pol st since booked ys, n.body = .escalating r pol st since booked ∧
          n.wake = .gathered ys) ∨
        n.wake.isStopped = true) := by
  have hfollows := hr.keeps.coherent n e hn
  unfold History.Follows at hfollows
  split at hfollows
  · rename_i hnone
    exact absurd htask (History.latest_eq_none.mp hnone s hs)
  · rename_i q hlatest
    obtain ⟨hq, hqt⟩ := History.latest_eq_some hlatest
    obtain ⟨-, -, hleads⟩ := hfollows
    have hqm : q ∈ h := ((List.suffix_cons n e).trans hn).subset hq
    refine ⟨q, hq, hqt, hlatest, hleads, ?_⟩
    have hnext := (hr.shaped hqm).next
    unfold History.Leads at hleads
    generalize (q.turn ControlRoom.program).next = m at hnext hleads
    generalize q.body = v at hnext
    cases hnext with
    | finish out => exact hleads.elim
    | collecting | awaiting =>
        obtain ⟨hbody, ⟨os, hos, -⟩ | hstop⟩ := hleads
        · exact .inl ⟨_, _, _, _, os, hbody, hos⟩
        · exact .inr (.inr (by rw [hstop]; rfl))
    | escalating =>
        obtain ⟨hbody, ⟨ys, hys, -⟩ | ⟨st, hstop, -⟩⟩ := hleads
        · exact .inr (.inl ⟨_, _, _, _, _, ys, hbody, hys⟩)
        · exact .inr (.inr (by rw [hstop]; rfl))
    | _ =>
        rw [hleads.1] at hwave
        exact hwave.elim

/-- A wave that ends is cut short, or it has heard of all its deliveries. -/
theorem Premises.Run.completes_of_ends (hr : p.Run h o) {e : Past} (hn : n :: e <:+ h)
    (hwave : n.body.IsWave) {s : Doing} (hs : s ∈ e) (htask : s.task = n.task) {out : Outcome Yield}
    (hends : n.Ends ControlRoom.program out) (hcut : ¬ CutShort n) :
    n.body.completes n.wake = true ∧ (n.state.clock? n.now).isSome = true := by
  unfold CutShort at hcut
  rw [not_or, not_or] at hcut
  obtain ⟨hstopped, hfailure, hclock⟩ := hcut
  obtain ⟨m, hm⟩ := Option.ne_none_iff_exists'.mp hclock
  refine ⟨?_, Option.isSome_iff_exists.mpr ⟨m, hm⟩⟩
  obtain ⟨-, -, -, -, -, ⟨r, left, es, sequel, os, hbody, hwake⟩ |
    ⟨r, pol, st, since, booked, ys, hbody, hwake⟩ | hstop⟩ := hr.wake_of_wave hn hwave hs htask
  · unfold Stint.Ends Stint.turn at hends
    rw [hbody, hwake] at hends ⊢
    rw [hwake] at hfailure
    have hfailure : ¬ (ControlRoom.arrivals os).2.isSome = true := hfailure
    rw [Option.not_isSome_iff_eq_none] at hfailure
    exact ControlRoom.completes_of_finish hm hfailure hends
  · rw [hbody, hwake]
    rfl
  · exact absurd hstop hstopped

/-! ## Waves that have heard of all their deliveries -/

/-- **What a notification goes on with** is all that it was told of its deliveries: each of them once,
and as many as it has not to wait for any more. -/
theorem Premises.Run.told_of_notification (hr : p.Run h o) {e : Past} (hn : n :: e <:+ h)
    {left : Nat} {es : List String} {sequel : Sequel} {os : List (Outcome Yield)}
    (hbody : n.body = .collecting r left es sequel) (hwake : n.wake = .arrived os) :
    ∃ s ∈ e, ∃ rs told, s.task = n.task ∧ s.first = true ∧ Dispatches s r sequel rs ∧
      e.Hears ControlRoom.program Work.IsSubordinate s told ∧
      ControlRoom.arrivals (told.map (·.2))
        = (es ++ (ControlRoom.arrivals os).1, (ControlRoom.arrivals os).2) ∧
      left + told.length = rs.length + os.length := by
  have heh : e <:+ h := (List.suffix_cons n e).trans hn
  obtain ⟨q, -, hqt, hlatest, hleads⟩ := hr.previous hn (by rw [hwake]; nofun)
  obtain ⟨k, hk, hheard⟩ := History.heard_latest hlatest
  have hb := hleads.body
  rw [hbody] at hb
  obtain ⟨s, rs, hknows⟩ := hr.notifies.knows (hk.trans heh) hb
  have hs : s ∈ e := hk.subset hknows.mem
  have htask : s.task = n.task := hknows.task.trans hqt
  obtain ⟨told, hhears, hmap⟩ := Agenda.Run.told (fun hr => Premises.Run.listening hr) hr hn hs
    hknows.dispatches.listens htask.symm hwake
  have hall : History.heard s.task (n :: e) = History.heard q.task (q :: k) ++ os := by
    rw [History.heard_cons_self htask.symm, hwake, htask, ← hqt, ← hheard]
    rfl
  refine ⟨s, hs, rs, told, htask, hr.first_of_listens (heh.subset hs) hknows.dispatches.listens,
    hknows.dispatches, hhears, ?_, ?_⟩
  · rw [hmap, hall]
    exact ControlRoom.arrivals_append hknows.entries os
  · have hcount := hknows.count
    have hlength := congrArg List.length (hmap.trans hall)
    rw [List.length_map, List.length_append] at hlength
    omega

/-- What a wave carries was drawn by a delivery that is over. -/
theorem Premises.Run.over_of_carried (hr : p.Run h o) {e : Past} (hn : n :: e <:+ h)
    (hid : id ∈ n.body.carried n.wake) : n.body.IsWave ∧ Over id n.task e := by
  have hended : ∀ {t c y}, t = n.task → History.Ended ControlRoom.program e t c (.ok y) →
      id ∈ y.ids → Over id n.task e := by
    rintro t c y rfl hended hy
    obtain ⟨f, hf, -, hfa, hends⟩ := hended.of_ok
    exact ⟨f, hf, hfa, y, hends, hy⟩
  rcases Work.carried_cases n.body n.wake with ⟨r, left, es, sequel, os, hbody, hwake, hcarried⟩ |
    ⟨r, pol, st, since, booked, ys, hbody, hwake, hcarried⟩ | hcarried
  · obtain ⟨s, -, rs, told, htask, -, -, hhears, harrivals, -⟩ :=
      hr.told_of_notification hn hbody hwake
    have hall : (ControlRoom.arrivals (told.map (·.2))).1 = es ++ (ControlRoom.arrivals os).1 :=
      congrArg Prod.fst harrivals
    rw [hcarried, ← hall] at hid
    obtain ⟨y, hy, hids⟩ := ControlRoom.of_mem_arrivals hid
    obtain ⟨g, hg, hgy⟩ := List.mem_map.mp hy
    exact ⟨by rw [hbody]; trivial, hended htask (hgy ▸ hhears.ended g hg) hids⟩
  · obtain ⟨q, -, hqt, -, hleads⟩ := hr.previous hn (by rw [hwake]; nofun)
    rw [hwake] at hleads
    obtain ⟨cs, -, hys⟩ := hleads.of_gathered
    rw [hcarried] at hid
    obtain ⟨y, hy, hids⟩ := List.mem_flatMap.mp hid
    obtain ⟨c, -, hc⟩ := History.exists_child_of_result hys hy
    exact ⟨by rw [hbody]; trivial, hended hqt hc hids⟩
  · rw [hcarried] at hid
    exact absurd hid List.not_mem_nil

/-- **A wave that completes carries all its deliveries**, which have ended well. -/
theorem Premises.Run.carries_all (hr : p.Run h o) {e : Past} (hn : n :: e <:+ h)
    (hwave : n.body.IsWave) {s : Doing} (hs : s ∈ e) (hfirst : s.first = true)
    (htask : s.task = n.task) (hcompletes : n.body.completes n.wake = true) {c : TaskId}
    (hc : c ∈ s.childIds ControlRoom.program) :
    ∃ y, History.Ended ControlRoom.program e s.task c (.ok y) ∧
      ∀ i ∈ y.ids, i ∈ n.body.carried n.wake := by
  have heh : e <:+ h := (List.suffix_cons n e).trans hn
  obtain ⟨q, hq, hqt, hlatest, hleads, ⟨r, left, es, sequel, os, hbody, hwake⟩ |
    ⟨r, pol, st, since, booked, ys, hbody, hwake⟩ | hstop⟩ := hr.wake_of_wave hn hwave hs htask
  · -- a notification has been told of each of them
    obtain ⟨s', hs', rs, told, htask', hfirst', hdispatches, hhears, harrivals, hcount⟩ :=
      hr.told_of_notification hn hbody hwake
    obtain rfl := hr.keeps.coherent.first_unique (heh.subset hs') (heh.subset hs) hfirst' hfirst
      (htask'.trans htask.symm)
    rw [hbody, hwake] at hcompletes ⊢
    have hcompletes : ((ControlRoom.arrivals os).2.isNone && decide (left - os.length = 0)) = true :=
      hcompletes
    rw [Bool.and_eq_true, Option.isNone_iff_eq_none, decide_eq_true_iff] at hcompletes
    obtain ⟨hnone, hleft⟩ := hcompletes
    rw [hnone] at harrivals
    have hchild : c ∈ told.map (·.1) := by
      by_contra hno
      have hsub : ∀ x ∈ told.map (·.1), x ∈ s'.childIds ControlRoom.program := by
        intro x hx
        obtain ⟨g, hg, rfl⟩ := List.mem_map.mp hx
        exact (hhears.owned g hg).1
      have hlonger := (List.subperm_of_subset (List.nodup_cons.mpr ⟨hno, hhears.once⟩)
        (List.cons_subset.mpr ⟨hc, hsub⟩)).length_le
      rw [List.length_cons, List.length_map, hdispatches.length_childIds] at hlonger
      omega
    obtain ⟨g, hg, rfl⟩ := List.mem_map.mp hchild
    obtain ⟨y, hy, hids⟩ := ControlRoom.mem_arrivals harrivals (List.mem_map_of_mem hg)
    exact ⟨y, hy ▸ hhears.ended g hg, hids⟩
  · -- an escalation is given all results at once
    rw [hbody, hwake]
    rw [hwake] at hleads
    obtain ⟨cs, hgather, hys⟩ := hleads.of_gathered
    have hqh : q ∈ h := heh.subset hq
    have hqfirst : q.first = true := by
      have hb := hleads.body
      rw [hbody] at hb
      obtain ⟨level, hescalate⟩ := (hr.shaped hqh).next.of_escalating hb
      exact (hr.first hqh (by rw [hescalate]; trivial)).1
    obtain rfl := hr.keeps.coherent.first_unique hqh (heh.subset hs) hqfirst hfirst
      (hqt.trans htask.symm)
    obtain ⟨y, hy, hended⟩ := History.exists_result_of_child hys hc
    exact ⟨y, hended, fun i hi => List.mem_flatMap.mpr ⟨y, hy, hi⟩⟩
  · unfold Work.completes at hcompletes
    split at hcompletes
    · rename_i hwake
      rw [hwake] at hstop
      exact nomatch hstop
    · rename_i hwake
      rw [hwake] at hstop
      exact nomatch hstop
    · exact nomatch hcompletes

/-! ## What is in the log of an alert -/

/-- A wave is over, and its last stint was cut short. -/
def BreaksOff (h : Past) (t : TaskId) : Prop :=
  ∃ n ∈ h, n.task = t ∧ CutShort n ∧ ∃ out, n.Ends ControlRoom.program out

/-- A delivery was started by the first stint of a wave of its alert, which is there. -/
theorem Premises.Run.starter_of_deliver (hr : p.Run h o) {d : Doing} (hd : d ∈ h)
    {q : DeliveryRequest} {level : Int} (hbody : d.body = .deliver q level) {t : TaskId}
    (haudience : d.audience = .task t) :
    ∃ s ∈ h, s.task = t ∧ s.first = true ∧ s.body.IsWave ∧ s.body.concerns q.alert = true ∧
      (∃ a, s.state.store.find? q.alert = some a) ∧
      s.Starts ControlRoom.program d.task (.deliver q level) := by
  have hfirst := (hr.first hd (by rw [hbody]; trivial)).1
  obtain ⟨k, hk⟩ := History.exists_suffix_of_mem hd
  obtain ⟨s, hs, htask, -, hstarts⟩ := hr.keeps.coherent.origin hk hfirst haudience
  have hsh : s ∈ h := hk.subset (List.mem_cons_of_mem d hs)
  rw [hbody] at hstarts
  obtain ⟨i, hi, -⟩ := id hstarts
  have hmanaged := (hr.mayBeDone s hsh).1
  obtain ⟨hconcerns, hsfirst, hthere⟩ :=
    ControlRoom.alert_of_child s.now s.state hmanaged (List.mem_of_getElem? hi)
  refine ⟨s, hsh, htask, (hr.first hsh hsfirst).1, ?_, hconcerns, hthere, hstarts⟩
  unfold Work.concerns at hconcerns
  split at hconcerns
  · rename_i heq
    rw [heq]
    trivial
  · rename_i heq
    rw [heq]
    trivial
  · rename_i heq
    rw [heq]
    trivial
  · rename_i heq
    rw [heq]
    trivial
  · exact nomatch hconcerns

/-- **What a wave that completes writes** includes each of its deliveries. -/
theorem Premises.Run.logged_of_completes (hr : p.Run h o) {d : Doing} (hd : d ∈ h)
    (hdraws : draws id d = true) {q : DeliveryRequest} {level : Int}
    (hbody : d.body = .deliver q level) (hn : n ∈ h) (haudience : d.audience = .task n.task)
    (hcompletes : n.body.completes n.wake = true)
    (hclock : (n.state.clock? n.now).isSome = true) : id ∈ logged q.alert n := by
  have hcoherent := hr.keeps.coherent
  obtain ⟨s, hsh, htask, hfirst, hwave, hconcerns, ⟨a, ha⟩, hstarts⟩ :=
    hr.starter_of_deliver hd hbody haudience
  have hnwave : n.body.IsWave := hr.isWave_of_task hsh hwave hn htask.symm
  -- the wave began before, as it still had to start its deliveries
  obtain ⟨e, he⟩ := History.exists_suffix_of_mem hn
  have hs : s ∈ e := by
    refine hcoherent.first_before he hsh hfirst htask fun heq => ?_
    obtain ⟨out, hends⟩ : ∃ out, (n.turn ControlRoom.program).next = .finish out :=
      ControlRoom.finishes_of_completes (hr.mayBeDone n hn).1 hcompletes
    obtain ⟨i, hi, -⟩ := hstarts
    rw [heq, hends] at hi
    exact nomatch hi
  obtain ⟨y, hended, hids⟩ := hr.carries_all he hnwave hs hfirst htask hcompletes
    (History.mem_childIds.mpr ⟨_, hstarts⟩)
  obtain ⟨f, hf, hft, hfa, hends⟩ := hended.of_ok
  have hfh : f ∈ h := he.subset (List.mem_cons_of_mem n hf)
  obtain ⟨i, hy, d', hd', hdraws', htask', -⟩ := hr.drawn_of_child hsh hwave hfh hfa hends
  obtain ⟨⟨q', level', hbody'⟩, -, hid'⟩ := draws_iff.mp hdraws'
  obtain rfl := hcoherent.first_unique hd' hd (hr.first hd' (by rw [hbody']; trivial)).1
    (hr.first hd (by rw [hbody]; trivial)).1 (htask'.trans hft)
  obtain ⟨-, -, hid⟩ := draws_iff.mp hdraws
  obtain rfl : i = id := hid'.symm.trans hid
  have hcarried : i ∈ n.body.carried n.wake := hids i (hy ▸ List.mem_singleton_self i)
  have hnconcerns := hr.concerns_of_task hsh hn hfirst htask.symm hconcerns
  have hthere : (n.state.store.find? q.alert).isSome = true := by
    have hlater := (later_turn s).trans (hr.later_of_suffix he hs)
    obtain ⟨b, hb, -⟩ := hlater.grows.kept q.alert a ha
    exact Option.isSome_iff_exists.mpr ⟨b, hb⟩
  unfold logged ControlRoom.logged
  rw [if_pos ⟨hcompletes, hclock, hnconcerns, hthere⟩]
  exact hcarried

/-- **What is written to the log of an alert** was drawn by a delivery of the alert, in the wave that
writes. -/
theorem Premises.Run.drawn_of_logged (hr : p.Run h o) (hn : n ∈ h) (hid : id ∈ logged r n) :
    ∃ d ∈ h, draws id d = true ∧ d.audience = .task n.task ∧
      ∃ q level, d.body = .deliver q level ∧ q.alert = r := by
  unfold logged ControlRoom.logged at hid
  split at hid
  · rename_i hwrites
    obtain ⟨e, he⟩ := History.exists_suffix_of_mem hn
    obtain ⟨hwave, f, hf, hfa, y, hends, hy⟩ := hr.over_of_carried he hid
    obtain ⟨-, d, hd, hdraws, -, hda⟩ :=
      hr.drawn_of_ends hn hwave (he.subset (List.mem_cons_of_mem n hf)) hfa hends hy
    obtain ⟨⟨q, level, hbody⟩, -⟩ := draws_iff.mp hdraws
    have haudience := hda.trans hfa
    obtain ⟨s, hsh, htask, hfirst, -, hconcerns, -⟩ := hr.starter_of_deliver hd hbody haudience
    have hnconcerns := hr.concerns_of_task hsh hn hfirst htask.symm hconcerns
    exact ⟨d, hd, hdraws, haudience, q, level, hbody,
      Work.concerns_unique hnconcerns hwrites.2.2.1⟩
  · exact absurd hid List.not_mem_nil

/-- **Who writes a delivery to a log** is the wave of the delivery, when it ends, and once. -/
theorem Premises.Run.of_mem_logged (hr : p.Run h o) (hone : GivenOnce id h) {d : Doing} (hd : d ∈ h)
    (hdraws : draws id d = true) {q : DeliveryRequest} {level : Int}
    (hbody : d.body = .deliver q level) (hn : n ∈ h) (hid : id ∈ logged r n) :
    d.audience = .task n.task ∧ r = q.alert ∧ (logged r n).count id = 1 ∧
      ∃ out, n.Ends ControlRoom.program out := by
  obtain ⟨d', hd', hdraws', haudience, q', level', hbody', rfl⟩ := hr.drawn_of_logged hn hid
  obtain rfl := hr.keeps.coherent.first_unique hd' hd (hr.first hd' (by rw [hbody']; trivial)).1
    (hr.first hd (by rw [hbody]; trivial)).1 (hone d' hd' d hd hdraws' hdraws)
  obtain ⟨rfl, -⟩ := Work.deliver.inj (hbody.symm.trans hbody')
  obtain ⟨e, he⟩ := History.exists_suffix_of_mem hn
  obtain ⟨b, c, place, hb, hs, hstep⟩ := hr.before he
  have hb : p.Run e b := hb
  have hc := hb.step hstep
  rw [hs] at hc
  obtain ⟨hcount, -⟩ := hb.carried_once hc (hone.of_subset fun x hx => he.subset hx) hs
  unfold logged ControlRoom.logged at hid ⊢
  split at hid
  · rename_i hwrites
    rw [if_pos hwrites]
    exact ⟨haudience, rfl, Nat.le_antisymm hcount (List.count_pos_iff.mpr hid),
      ControlRoom.finishes_of_completes (hr.mayBeDone n hn).1 hwrites.1⟩
  · exact absurd hid List.not_mem_nil

/-- A delivery is written to a log once. The induction is on the history. -/
theorem Premises.Run.count_logged_le (hr : p.Run h o) (hone : GivenOnce id h) {d : Doing}
    (hd : d ∈ h) (hdraws : draws id d = true) (r : AlertRef) {k : Past} (hk : k <:+ h) :
    (k.flatMap (logged r)).count id ≤ 1 := by
  obtain ⟨⟨q, level, hbody⟩, -⟩ := draws_iff.mp hdraws
  induction k with
  | nil => exact Nat.zero_le 1
  | cons n k ih =>
      have hold := ih ((List.suffix_cons n k).trans hk)
      rw [List.flatMap_cons, List.count_append]
      by_cases hid : id ∈ logged r n
      · -- the wave has ended with this stint, so it has written nothing before
        have hn : n ∈ h := hk.subset List.mem_cons_self
        obtain ⟨haudience, -, hcount, -⟩ := hr.of_mem_logged hone hd hdraws hbody hn hid
        have hnone : id ∉ k.flatMap (logged r) := by
          intro hmem
          obtain ⟨m, hm, hmid⟩ := List.mem_flatMap.mp hmem
          obtain ⟨hma, -, -, out, hends⟩ := hr.of_mem_logged hone hd hdraws hbody
            (hk.subset (List.mem_cons_of_mem n hm)) hmid
          refine hr.keeps.coherent.ne_of_ends hk hm hends ?_
          exact Audience.task.inj (hma.symm.trans haudience)
        rw [hcount, List.count_eq_zero.mpr hnone]
      · rw [List.count_eq_zero.mpr hid, Nat.zero_add]
        exact hold

/-- **What is in the log when a wave is over**: each of its deliveries once, in the log of its alert
and in no other, or none of them if the wave was cut short. -/
theorem Premises.Run.listed_when_over (hr : p.Run h o) (hone : GivenOnce id h) {d : Doing}
    (hd : d ∈ h) (hdraws : draws id d = true) {q : DeliveryRequest} {level : Int}
    (hbody : d.body = .deliver q level) {t : TaskId} (haudience : d.audience = .task t)
    (hover : o.process? t = none) :
    (BreaksOff h t → ∀ r, id ∉ o.state.store.logOf r) ∧
      (¬ BreaksOff h t → (o.state.store.logOf q.alert).count id = 1 ∧
        ∀ r, r ≠ q.alert → id ∉ o.state.store.logOf r) := by
  have hwriter : ∀ {r}, id ∈ o.state.store.logOf r → ∃ n ∈ h, n.task = t ∧ r = q.alert ∧
      id ∈ logged r n ∧ ∃ out, n.Ends ControlRoom.program out := by
    intro r hid
    rw [hr.logOf_eq r] at hid
    obtain ⟨n, hn, hid⟩ := List.mem_flatMap.mp hid
    have hn := List.mem_reverse.mp hn
    obtain ⟨hna, hrq, -, hends⟩ := hr.of_mem_logged hone hd hdraws hbody hn hid
    exact ⟨n, hn, Audience.task.inj (hna.symm.trans haudience), hrq, hid, hends⟩
  refine ⟨fun ⟨n, hn, htask, hcut, out, hends⟩ r hid => ?_, fun hno => ⟨?_, fun r hrq hid => ?_⟩⟩
  · -- a task ends but once
    obtain ⟨m, hm, hmtask, -, hmid, out', hmends⟩ := hwriter hid
    obtain rfl := hr.keeps.coherent.ends_unique hn hm hends hmends (htask.trans hmtask.symm)
    rw [logged_of_cutShort hcut] at hmid
    exact List.not_mem_nil hmid
  · obtain ⟨s, hsh, rfl, hfirst, hwave, -, -, i, hi, -⟩ := hr.starter_of_deliver hd hbody haudience
    have hgoes : ¬ ∃ out, s.Ends ControlRoom.program out := by
      rintro ⟨out, hends⟩
      rw [show (s.turn ControlRoom.program).next = .finish out from hends] at hi
      exact nomatch hi
    -- the last stint of the wave
    obtain ⟨n, hlatest⟩ : ∃ n, h.latest s.task = some n := by
      cases hlatest : h.latest s.task with
      | none => exact absurd rfl (History.latest_eq_none.mp hlatest s hsh)
      | some n => exact ⟨n, rfl⟩
    obtain ⟨hn, htask⟩ := History.latest_eq_some hlatest
    obtain ⟨out, hends⟩ := (hr.keeps.living s.task nofun n hlatest).mp hover
    obtain ⟨e, he⟩ := History.exists_suffix_of_mem hn
    have hs : s ∈ e := hr.keeps.coherent.first_before he hsh hfirst htask.symm
      fun heq => hgoes ⟨out, heq ▸ hends⟩
    have hcut : ¬ CutShort n := fun hcut => hno ⟨n, hn, htask, hcut, out, hends⟩
    obtain ⟨hcompletes, hclock⟩ := hr.completes_of_ends he (hr.isWave_of_task hsh hwave hn htask) hs
      htask.symm hends hcut
    have hid := hr.logged_of_completes hd hdraws hbody hn (htask ▸ haudience) hcompletes hclock
    have hle := hr.count_logged_le hone hd hdraws q.alert (List.suffix_refl h)
    rw [hr.logOf_eq, (h.reverse_perm.flatMap_right _).count_eq]
    exact Nat.le_antisymm hle (List.count_pos_iff.mpr (List.mem_flatMap.mpr ⟨n, hn, hid⟩))
  · obtain ⟨-, -, -, heq, -⟩ := hwriter hid
    exact hrq heq

/-- **What is left of a delivery when its wave is over.** If its provider has reported success it is
sent. It is in the log of its alert once and in no other, unless the wave was cut short: then it is
in no log, sent or not. -/
theorem Premises.SteadyRun.listed_unless_cut (hr : p.SteadyRun id h o) (hone : GivenOnce id h)
    {d : Doing} (hd : d ∈ h) (hdraws : draws id d = true) {q : DeliveryRequest} {level : Int}
    (hbody : d.body = .deliver q level) {t : TaskId} (haudience : d.audience = .task t)
    (hover : o.process? t = none) :
    ((∃ n ∈ h, Succeeds id n) → IsSent id o.state) ∧
      (BreaksOff h t → ∀ r, id ∉ o.state.store.logOf r) ∧
      (¬ BreaksOff h t → (o.state.store.logOf q.alert).count id = 1 ∧
        ∀ r, r ≠ q.alert → id ∉ o.state.store.logOf r) := by
  refine ⟨?_, hr.run.listed_when_over hone hd hdraws hbody haudience hover⟩
  rintro ⟨n, hn, hsucceeds⟩
  exact (hr.tracked hone).sent n hn (hr.isSent_of_succeeds hone hn hsucceeds)

/-! ## A wave with a delivery that is not supported -/

namespace Sample

/-- Alerts go to two people by mail. -/
def crowd : Configuration :=
  let k := configuration "ward" .standard none
  { k with routing := { k.routing with recipients := k.routing.recipients ++ [⟨"porter", "", "", "",
    [⟨.email, "porter@example.org", true, true⟩], [(.medium, [.email])], none⟩] } }

/-- A pass over the ward that tells both. -/
def told (answer : Nat → Except Fault DeliveryResult) : Past × Office :=
  (premises answer).play
    ([.ask (.addConfiguration crowd), .ask (.pass snapshot)] ++ List.replicate 24 (.turn 0))

theorem steadyRun_told (answer : Nat → Except Fault DeliveryResult) (id : String) :
    (premises answer).SteadyRun id (told answer).1 (told answer).2 := by
  refine run_after (x := ([], .idle (premises answer).room)) (fun q hq o => ⟨q, ?_, rfl⟩) .idle
  rcases List.mem_append.mp hq with hq | hq
  · rcases List.mem_cons.mp hq with hq | hq
    · rw [Move.ask.inj hq]
      trivial
    · rw [Move.ask.inj (List.mem_singleton.mp hq)]
      trivial
  · exact nomatch List.eq_of_mem_replicate hq

/-- The mail line takes the first message, and says of the second that it takes none. -/
def fading (number : Nat) : Except Fault DeliveryResult :=
  if number = 0 then .ok ⟨true, .null, none, none⟩ else .error (.unsupportedChannel .email)

end Sample

instance (id : String) (n : Doing) : Decidable (Succeeds id n) :=
  decidable_of_iff ((match reply? id n with
    | some (.ok r) => r.success
    | _ => false) = true) <| by
    unfold Succeeds
    split
    · rename_i r hr
      exact ⟨fun h => ⟨r, hr, h⟩, fun ⟨r', hr', h⟩ =>
        Except.ok.inj (Option.some.inj (hr.symm.trans hr')) ▸ h⟩
    · rename_i hno
      exact ⟨nofun, fun ⟨r, hr, _⟩ => absurd hr (hno r)⟩

/-- The alert of a delivery that a stint begins, and the task that waits for the delivery. -/
def delivering? (id : String) (n : Doing) : Option (AlertRef × TaskId) :=
  match n.body, n.audience with
  | .deliver q _, .task t => if draws id n = true then some (q.alert, t) else none
  | _, _ => none

theorem of_delivering? {x : AlertRef × TaskId} (hn : delivering? id n = some x) :
    draws id n = true ∧ ∃ q level, n.body = .deliver q level ∧ q.alert = x.1 ∧
      n.audience = .task x.2 := by
  unfold delivering? at hn
  split at hn
  · rename_i q level t hbody haudience
    split at hn
    · rename_i hdraws
      obtain rfl := Option.some.inj hn
      exact ⟨hdraws, q, level, hbody, rfl, haudience⟩
    · exact nomatch hn
  · exact nomatch hn

set_option maxRecDepth 100000 in
/-- Two messages that arrive are both in the log, here the first of them. -/
theorem listed_told : ∃ d ∈ (Sample.told fun _ => .ok ⟨true, .null, none, none⟩).1, ∃ q level t,
    GivenOnce "notif_0000000000000001" (Sample.told fun _ => .ok ⟨true, .null, none, none⟩).1 ∧
      draws "notif_0000000000000001" d = true ∧ d.body = .deliver q level ∧ d.audience = .task t ∧
      (Sample.told fun _ => .ok ⟨true, .null, none, none⟩).2.process? t = none ∧
      (∃ n ∈ (Sample.told fun _ => .ok ⟨true, .null, none, none⟩).1,
        Succeeds "notif_0000000000000001" n) ∧
      ((∃ n ∈ (Sample.told fun _ => .ok ⟨true, .null, none, none⟩).1,
          Succeeds "notif_0000000000000001" n) →
        IsSent "notif_0000000000000001"
          (Sample.told fun _ => .ok ⟨true, .null, none, none⟩).2.state) ∧
      (BreaksOff (Sample.told fun _ => .ok ⟨true, .null, none, none⟩).1 t → ∀ r,
        "notif_0000000000000001" ∉
          (Sample.told fun _ => .ok ⟨true, .null, none, none⟩).2.state.store.logOf r) ∧
      (¬ BreaksOff (Sample.told fun _ => .ok ⟨true, .null, none, none⟩).1 t →
        ((Sample.told fun _ => .ok ⟨true, .null, none, none⟩).2.state.store.logOf q.alert).count
          "notif_0000000000000001" = 1 ∧
          ∀ r, r ≠ q.alert → "notif_0000000000000001" ∉
            (Sample.told fun _ => .ok ⟨true, .null, none, none⟩).2.state.store.logOf r) := by
  have hone : GivenOnce "notif_0000000000000001"
      (Sample.told fun _ => .ok ⟨true, .null, none, none⟩).1 := by
    decide +kernel
  have hdelivers : ∃ d ∈ (Sample.told fun _ => .ok ⟨true, .null, none, none⟩).1,
      ∃ x ∈ delivering? "notif_0000000000000001" d,
        ((Sample.told fun _ => .ok ⟨true, .null, none, none⟩).2.process? x.2).isNone = true ∧
          ∃ n ∈ (Sample.told fun _ => .ok ⟨true, .null, none, none⟩).1,
            Succeeds "notif_0000000000000001" n := by
    decide +kernel
  obtain ⟨d, hd, x, hx, hover, hsucceeds⟩ := hdelivers
  obtain ⟨hdraws, q, level, hbody, -, haudience⟩ := of_delivering? hx
  rw [Option.isNone_iff_eq_none] at hover
  exact ⟨d, hd, q, level, x.2, hone, hdraws, hbody, haudience, hover, hsucceeds,
    (Sample.steadyRun_told _ _).listed_unless_cut hone hd hdraws hbody haudience hover⟩

set_option maxRecDepth 100000 in
/-- A message arrives, and the log of its alert does not show it when its wave is over. -/
theorem unlisted_fading : ∃ (p : Premises) (id : String) (h : Past) (o : Office),
    p.SteadyRun id h o ∧ GivenOnce id h ∧ ∃ d ∈ h, draws id d = true ∧ ∃ q level t,
      d.body = .deliver q level ∧ d.audience = .task t ∧ o.process? t = none ∧
        (∃ n ∈ h, Succeeds id n) ∧ (o.state.store.logOf q.alert).count id = 0 := by
  have hone : GivenOnce "notif_0000000000000001" (Sample.told Sample.fading).1 := by decide +kernel
  have hdelivers : ∃ d ∈ (Sample.told Sample.fading).1,
      ∃ x ∈ delivering? "notif_0000000000000001" d,
        ((Sample.told Sample.fading).2.process? x.2).isNone = true ∧
          (∃ n ∈ (Sample.told Sample.fading).1, Succeeds "notif_0000000000000001" n) ∧
          ((Sample.told Sample.fading).2.state.store.logOf x.1).count
            "notif_0000000000000001" = 0 := by
    decide +kernel
  obtain ⟨d, hd, x, hx, hover, hsucceeds, hnone⟩ := hdelivers
  obtain ⟨hdraws, q, level, hbody, halert, haudience⟩ := of_delivering? hx
  rw [Option.isNone_iff_eq_none] at hover
  exact ⟨_, _, _, _, Sample.steadyRun_told _ _, hone, d, hd, hdraws, q, level, x.2, hbody, haudience,
    hover, hsucceeds, halert ▸ hnone⟩

end Office

end BuildingAlerts
