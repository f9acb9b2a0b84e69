/-
What requests begin.

A request leaves all tasks under way at what they do, even where it tells them to stop, and begins
those that it says: a pass, retries or an escalation that somebody waits for, or what it books. So
whatever else is under way came of a stint.
-/
import BuildingAlerts.Proofs.ControlRoom.Heirs

set_option autoImplicit false

namespace BuildingAlerts

open Agenda

namespace Agenda

variable {σ β ρ : Type} {P : Program σ β ρ} {a b : Agenda σ β ρ} {u : TaskId}

/-- What is added to an agenda under the next numbers. -/
def Adding (js : List (Audience × β)) (a b : Agenda σ β ρ) : Prop :=
  ∀ u, b.job? u = if u < a.started then a.job? u else js[u - a.started]?

theorem adding_nil (ha : a.Numbered) (hb : ∀ u, b.job? u = a.job? u) : Adding [] a b := by
  intro u
  rw [hb]
  split
  · rfl
  · rename_i hu
    exact job?_eq_none.mpr (ha.process?_eq_none (Nat.le_of_not_lt hu))

theorem adding_launch (ha : a.Numbered) (v : Audience) (body : β) :
    Adding [(v, body)] a (a.launch v body) := by
  intro u
  have hstart := job?_start (u := u) ha (.fresh body v)
  refine hstart.trans ?_
  rcases Nat.lt_trichotomy u a.started with hu | hu | hu
  · rw [if_neg (Nat.ne_of_lt hu), if_pos hu]
  · rw [if_pos hu, hu, if_neg (Nat.lt_irrefl _), Nat.sub_self]
    rfl
  · rw [if_neg (Nat.ne_of_gt hu), if_neg (Nat.not_lt.mpr (Nat.le_of_lt hu)),
      List.getElem?_eq_none (Nat.sub_pos_of_lt hu)]
    exact job?_eq_none.mpr (ha.process?_eq_none (Nat.le_of_lt hu))

theorem adding_bookAll (ha : a.Numbered) (ms : List (Appointment β)) :
    Adding (ms.map fun m => (.nobody, m.body)) a (a.bookAll ms) := by
  intro u
  rw [job?_bookAll ms ha, List.getElem?_map]

/-- What is there afterwards was there before or is added. -/
theorem Adding.cases {js : List (Audience × β)} (h : Adding js a b) {j : Audience × β}
    (hj : b.job? u = some j) : a.job? u = some j ∨ j ∈ js := by
  rw [h u] at hj
  split at hj
  · exact .inl hj
  · exact .inr (List.mem_of_getElem? hj)

end Agenda

namespace Office

/-- The tasks that a request begins. -/
def begun (o : Office) : Request → List (Audience × Work)
  | .pass s => [(.caller, .pass .caller s)]
  | .retry entries most => [(.caller, .retry entries most false)]
  | .escalate id p level => [(.caller, .escalate (o.ref id) p (some level))]
  | .bookRetries entries =>
    (o.state.retryAppointments o.clock entries).1.map fun m => (.nobody, m.body)
  | .bookEscalation id p =>
    match o.state.escalationAppointment? o.clock (o.ref id) p with
    | .error _ => []
    | .ok m => m.toList.map fun m => (.nobody, m.body)
  | _ => []

/-- Which work a request calls for. -/
inductive CallsFor (o : Office) : Request → Work → Prop where
  | pass (s : Snapshot) : CallsFor o (.pass s) (.pass .caller s)
  | retry (entries : List String) (most : Int) :
      CallsFor o (.retry entries most) (.retry entries most false)
  | escalate (id : String) (p : Policy) (level : Int) :
      CallsFor o (.escalate id p level) (.escalate (o.ref id) p (some level))
  | bookRetries {entries : List String} {e : String} (he : e ∈ entries) :
      CallsFor o (.bookRetries entries) (.retry [e] o.state.setup.maxRetries true)
  | bookEscalation (id : String) (p : Policy) :
      CallsFor o (.bookEscalation id p) (.escalate (o.ref id) p none)

/-- A request begins only what it calls for. -/
theorem callsFor_of_mem_begun {o : Office} {q : Request} {j : Audience × Work}
    (hj : j ∈ o.begun q) : o.CallsFor q j.2 := by
  cases q with
  | pass s =>
      rw [List.mem_singleton.mp hj]
      exact .pass s
  | retry entries most =>
      rw [List.mem_singleton.mp hj]
      exact .retry entries most
  | escalate id p level =>
      rw [List.mem_singleton.mp hj]
      exact .escalate id p level
  | bookRetries entries =>
      obtain ⟨m, hm, rfl⟩ := List.mem_map.mp hj
      obtain ⟨xs, hsub, -, hxs⟩ :=
        ControlRoom.map_body_retryAppointments o.state o.clock entries
      have hbody := List.mem_map_of_mem (f := (·.body)) hm
      rw [hxs] at hbody
      obtain ⟨e, he, hm⟩ := List.mem_map.mp hbody
      dsimp only
      rw [← hm]
      exact .bookRetries (hsub.subset he)
  | bookEscalation id p =>
      unfold begun at hj
      dsimp only at hj
      split at hj
      · exact absurd hj List.not_mem_nil
      · rename_i m? hm
        obtain ⟨m, hmem, rfl⟩ := List.mem_map.mp hj
        obtain rfl := Option.mem_toList.mp hmem
        dsimp only
        rw [ControlRoom.body_of_escalationAppointment? hm]
        exact .bookEscalation id p
  | _ => exact absurd hj List.not_mem_nil

theorem job?_settleAlert (o : Office) (id : String) (f : Alert → Option Alert) (u : TaskId) :
    Agenda.job? (o.settleAlert id f).2 u = Agenda.job? o u := by
  unfold settleAlert
  split
  · rfl
  · exact job?_cancelAlert id

/-- **A request begins what it says**, and nothing else becomes of the tasks under way. -/
theorem adding_serve {o : Office} (hn : Agenda.Numbered o) (q : Request) :
    Adding (o.begun q) o (serve o q) := by
  cases q with
  | pass s => exact adding_launch hn _ _
  | retry entries most => exact adding_launch hn _ _
  | escalate id p level => exact adding_launch hn _ _
  | acknowledge id who => exact adding_nil hn (job?_settleAlert o id _)
  | resolve id who notes => exact adding_nil hn (job?_settleAlert o id _)
  | markFalsePositive id who => exact adding_nil hn (job?_settleAlert o id _)
  | bookRetries entries => exact adding_bookAll hn _
  | bookEscalation id p =>
      show Adding (begun o (.bookEscalation id p)) o (o.bookEscalation id p).2
      unfold bookEscalation begun
      dsimp only
      cases o.state.escalationAppointment? o.clock (o.ref id) p with
      | error f => exact adding_nil hn fun _ => rfl
      | ok m => exact adding_bookAll hn _
  | shutdown => exact adding_nil hn fun _ => job?_cancelBookings
  | addConfiguration k => exact adding_nil hn fun _ => rfl
  | addFromTemplate key u => exact adding_nil hn fun _ => rfl
  | updateConfiguration id ch => exact adding_nil hn fun _ => rfl
  | setStatus id s => exact adding_nil hn fun _ => rfl
  | setRuleEnabled id ruleId on => exact adding_nil hn fun _ => rfl
  | openLine channel carrier => exact adding_nil hn fun _ => rfl

end Office

end BuildingAlerts
