/-
Bookings in runs of the office.

Only retries and escalations are booked, and they start nothing but deliveries and attempts. So
a retry or an escalation that has lost its booking does nothing more in its next turn than to
stop, and one that has its booking and has not begun yet will begin.
-/
import BuildingAlerts.Proofs.Agenda.Keeping
import BuildingAlerts.Proofs.ControlRoom.Deliveries

set_option autoImplicit false

namespace BuildingAlerts

open Agenda

namespace Work

variable {w b : Work} {n : Next Work Yield}

theorem IsDelivery.isSubordinate (hw : w.IsDelivery) : w.IsSubordinate := by
  rcases hw with ⟨r, level, rfl⟩ | ⟨e, he⟩
  · trivial
  · rcases of_tries he with rfl | ⟨r, rfl⟩ | ⟨n, rfl⟩
    · trivial
    · trivial
    · trivial

/-- Who goes on with a delivery is at work on one. -/
theorem Leads.isDelivery_iff (hn : w.Leads n) (hb : n.body? = some b) :
    b.IsDelivery ↔ w.IsDelivery := by
  refine ⟨fun h => ?_, fun h => hn.isDelivery h hb⟩
  rcases h with ⟨r, level, rfl⟩ | ⟨e, he⟩
  · cases hn <;> exact nomatch hb
  · exact hn.of_tries hb he

/-- Work on a delivery waits for no other task. -/
theorem Leads.ne_gather (hn : w.Leads n) (hw : w.IsDelivery) (cs : List Work) (b : Work) :
    n ≠ .gather cs b := by
  rintro rfl
  have hsame := (hn.isDelivery_iff (b := b) rfl).mpr hw
  cases hn with
  | evaluating | notifying | retrying | escalating =>
      rcases hw with ⟨r, level, hw⟩ | ⟨e, he⟩
      · exact nomatch hw
      · exact nomatch he

/-- What is booked starts deliveries and attempts. -/
theorem Leads.isDelivery_child (hn : w.Leads n) (hw : w.IsSubordinate) (hb : b ∈ n.children) :
    b.IsDelivery := by
  cases hn with
  | evaluating | notifying | collecting => exact hw.elim
  | retrying es tried most again =>
      obtain ⟨e, -, rfl⟩ := List.mem_map.mp hb
      exact .inr ⟨e, decide_eq_true rfl⟩
  | escalating r p level rs s since booked =>
      obtain ⟨q, -, rfl⟩ := List.mem_map.mp hb
      exact .inl ⟨q, s.level, rfl⟩
  | _ => exact absurd hb List.not_mem_nil

end Work

namespace ControlRoom

variable {c : ControlRoom} {id : String}

/-- An attempt books nothing. -/
theorem Tried.appointments {t : Stretch} (ht : Tried id c t) : t.appointments = [] := by
  have hnil : ∀ {ws : List Work}, t.next.body?.toList ++ (t.appointments.map (·.body) ++ ws)
      = t.next.body?.toList → t.appointments = [] := by
    intro ws h
    have h := List.append_right_eq_self.mp h
    exact List.map_eq_nil_iff.mp (List.append_eq_nil_iff.mp h).1
  cases ht.tries with
  | fails hentry hheirs hnext => exact hnil (hheirs.trans (by rw [hnext]; rfl))
  | goesOn hentry hw hattempt hheirs hnext => exact hnil (hheirs.trans (by rw [hnext]; rfl))
  | ends hentry hf hheirs hnext => exact hnil (hheirs.trans (by rw [hnext]; rfl))

/-- Work on a delivery books nothing. -/
theorem appointments_of_isDelivery (now : Instant) (c : ControlRoom) {w : Work}
    (hw : w.IsDelivery) (wake : Wake Yield) : (program now c w wake).appointments = [] := by
  rcases hw with ⟨r, level, rfl⟩ | ⟨e, he⟩
  · rcases program_deliver now c r level wake with ⟨st, h⟩ | ⟨m, -, h⟩
    · rw [h]
      rfl
    · rw [h]
      obtain ⟨d, -, -, -, -, htried⟩ := tried_beginDelivery c m r level
      exact htried.appointments
  · exact (tried_program now c he wake).appointments

/-- What is booked, and what serves it, ends when it is stopped. -/
theorem program_stopped (now : Instant) (c : ControlRoom) {w : Work} (hw : w.IsSubordinate)
    (st : Stop) : ∃ st', program now c w (.stopped st) = c.stop st' := by
  have hstop : ∀ st, c.stopWork st w = c.stop st := by
    intro st
    cases w with
    | retry | retrying | escalate | escalating | deliver | attempt | sending | lapsing => rfl
    | _ => exact hw.elim
  cases hc : c.clock? now with
  | none => exact ⟨_, (program_of_no_clock hc w _).trans (hstop _)⟩
  | some m =>
      refine ⟨st, (program_of_clock hc w _).trans ?_⟩
      rw [← hstop]
      cases w <;> rfl

/-- **Work comes in layers**: what is booked among all managed work, and the deliveries and attempts
that it starts. -/
theorem layered_program :
    Layered program Work.IsManaged Work.IsSubordinate Work.IsDelivery where
  toDivides := divides_isSubordinate
  managed := fun _ hw => hw.isManaged
  lower := fun _ hw => hw.isSubordinate
  stops := by
    intro now c w st hw
    obtain ⟨st', h⟩ := program_stopped now c hw st
    exact ⟨st', by rw [h]; exact ⟨rfl, rfl⟩⟩
  ends := fun now c w wake hw => (shaped_program now c hw wake).ends
  leaf := fun now c w wake hw => ⟨appointments_of_isDelivery now c hw wake,
    (shaped_program now c hw.isSubordinate.isManaged wake).next.ne_gather hw⟩
  stays := fun now c w wake hw _ hb => (shaped_program now c hw wake).next.isDelivery_iff hb
  lowers := fun now c w wake hw hsub _ hb =>
    (shaped_program now c hw wake).next.isDelivery_child hsub hb

end ControlRoom

namespace Office

variable {p : Premises} {h : Past} {o o' : Office} {n : Doing} {place : Nat} {t : TaskId}

/-! ## Bookings and requests -/

/-- What is asked for is a row of events. -/
theorem Served.events (h : Served o o') : ∃ es, o' = Agenda.afterAll o es := by
  cases h with
  | adjusted f => exact ⟨[.edit (f o.state)], rfl⟩
  | settled f id => exact ⟨[.edit (f o.state), .order (.cancelAlert id)], rfl⟩
  | launched w hw houter => exact ⟨[.launch .caller w], rfl⟩
  | booked ms hms => exact ⟨ms.map fun m => .order (.book m), (afterAll_book o ms).symm⟩
  | shut => exact ⟨[.order .shutdown], rfl⟩

/-- **Bookings and tasks agree** in every run. -/
theorem Premises.Run.tidy (hr : p.Run h o) : Tidy o := by
  obtain ⟨es, rfl⟩ := Agenda.Run.events (sound_idle _ _) outside_of_serve
    (fun _ ⟨q, hq⟩ => hq ▸ (served_serve _ q).events) hr
  exact ((tidy_idle _).afterAll es).1

/-- What is asked for leaves booked tasks faithful. -/
theorem faithful_serve (hf : Faithful ControlRoom.program Work.IsSubordinate Work.IsDelivery none h o)
    (ht : Tidy o) (hc : Calm Work.IsSubordinate o) (q : Request) :
    Faithful ControlRoom.program Work.IsSubordinate Work.IsDelivery none h (serve o q) := by
  have hadjust : ∀ f, Faithful ControlRoom.program Work.IsSubordinate Work.IsDelivery none h
      (o.adjust f) := fun f => hf.quiet (quiet_edit rfl rfl rfl)
  generalize hs : serve o q = b
  cases hs ▸ served_serve o q with
  | adjusted f => exact hadjust f
  | settled f id =>
      exact (hadjust f).cancelAlert ((ht.after (.edit (f o.state))).1) (hc.edit rfl rfl rfl) id
  | launched w hw houter => exact hf.launch ht.numbered .caller w
  | booked ms hms => exact hf.bookAll ht hc fun m hm => (hms m hm).isSubordinate
  | shut => exact hf.cancelBookings ht hc

/-- **Booked tasks keep to their bookings** in every run. -/
theorem Premises.Run.faithful (hr : p.Run h o) :
    Faithful ControlRoom.program Work.IsSubordinate Work.IsDelivery none h o :=
  Agenda.Run.faithful ControlRoom.layered_program (faithful_idle _)
    (fun hr => Premises.Run.keeps hr) (fun hr => Premises.Run.tidy hr)
    (fun hr => Premises.Run.calm hr)
    (fun hr => (hr.only ControlRoom.closed_isManaged (sound_idle _ _) outside_of_serve
      (fun _ _ h => nomatch h) managed_of_serve).1)
    (fun ht hc hf hq => by
      obtain ⟨q, rfl⟩ := hq
      exact faithful_serve hf ht hc q) hr

/-- A task that has lost its booking stops. -/
theorem Premises.Run.stops_of_unregistered (hr : p.Run h o) (hs : Agenda.stintAt? o place = some n)
    {q : Process Work Yield} {key : String} (hq : o.process? n.task = some q)
    (hkey : q.key = some key) (hlost : ¬ Agenda.Registered o key n.task) :
    ∃ st, n.turn ControlRoom.program = n.state.stop st := by
  obtain ⟨-, hstint, -⟩ := stintAt?_eq_some hs
  have hfated := hr.faithful.fated nofun hq hkey hlost
  obtain ⟨hsub, st, hst⟩ := hfated.stops hr.keeps hstint
  obtain ⟨st', h⟩ := ControlRoom.program_stopped n.now n.state hsub st
  refine ⟨st', ?_⟩
  unfold Stint.turn
  rw [hst]
  exact h

end Office

end BuildingAlerts
