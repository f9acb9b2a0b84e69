/-
How a pass goes.

A pass has three stints at most. In the first it starts the evaluations, in the second it has
their results and starts a notification for each alert that was not there when it began, and in
the third it ends. What the notifications and the evaluations of a pass are is read back from
the history: an evaluation belongs to the pass that began it, a notification to the alert that
an evaluation of its pass came across.
-/
import BuildingAlerts.Proofs.ControlRoom.Growth

set_option autoImplicit false

namespace BuildingAlerts

open Agenda

/-- What was done in an office, the latest first. -/
abbrev Past := History ControlRoom Work Yield

/-- One stretch of work in an office. -/
abbrev Doing := Stint ControlRoom Work Yield

namespace Work

/-- Work of a pass that somebody asked for. -/
def IsOfPass : Work → Prop
  | .pass .caller _ | .evaluating .caller _ | .notifying .caller _ => True
  | _ => False

instance (w : Work) : Decidable w.IsOfPass := by
  unfold IsOfPass
  split <;> infer_instance

theorem isOfPass_iff {w : Work} : w.IsOfPass ↔ (∃ s, w = .pass .caller s) ∨
    (∃ known, w = .evaluating .caller known) ∨ ∃ found, w = .notifying .caller found := by
  constructor
  · intro hw
    unfold IsOfPass at hw
    split at hw
    · exact .inl ⟨_, rfl⟩
    · exact .inr (.inl ⟨_, rfl⟩)
    · exact .inr (.inr ⟨_, rfl⟩)
    · exact hw.elim
  · rintro (⟨s, rfl⟩ | ⟨known, rfl⟩ | ⟨found, rfl⟩)
    · trivial
    · trivial
    · trivial

/-- The snapshot of a pass that somebody asked for. -/
def snapshot? : Work → Option Snapshot
  | .pass .caller x => some x
  | _ => none

theorem snapshot?_eq_some {w : Work} {x : Snapshot} :
    w.snapshot? = some x ↔ w = .pass .caller x := by
  unfold snapshot?
  split
  · simp
  · simp_all

/-- The alert whose notification begins. -/
def notified? : Work → Option AlertRef
  | .notify r => some r
  | _ => none

theorem notified?_eq_some {w : Work} {r : AlertRef} : w.notified? = some r ↔ w = .notify r := by
  unfold notified?
  split
  · simp
  · simp_all

/-- Work with which a task begins. -/
def IsFirst : Work → Prop
  | .pass .. | .evaluate .. | .notify _ | .deliver .. | .attempt _ | .retry .. | .escalate .. => True
  | _ => False

/-- No task goes on with work with which tasks begin. -/
theorem Leads.not_isFirst {w : Work} {n : Next Work Yield} (hn : w.Leads n) {b : Work}
    (hb : n.body? = some b) : ¬ b.IsFirst := by
  cases hn with
  | finish o => exact nomatch hb
  | _ =>
      obtain rfl := Option.some.inj hb
      exact id

/-! ## What starts what -/

theorem Leads.of_evaluate {w : Work} {n : Next Work Yield} (hn : w.Leads n) {b : Assignment}
    {s : Snapshot} (hc : .evaluate b s ∈ n.children) : w = .pass .caller s := by
  cases hn with
  | evaluating s' bs known =>
      obtain ⟨x, -, hx⟩ := List.mem_map.mp hc
      rw [(Work.evaluate.inj hx).2]
  | notifying | collecting | retrying | escalating =>
      obtain ⟨x, -, hx⟩ := List.mem_map.mp hc
      exact nomatch hx
  | _ => exact absurd hc List.not_mem_nil

theorem Leads.of_notify {w : Work} {n : Next Work Yield} (hn : w.Leads n) {r : AlertRef}
    (hc : .notify r ∈ n.children) : ∃ known, w = .evaluating .caller known := by
  cases hn with
  | notifying known refs found => exact ⟨known, rfl⟩
  | evaluating | collecting | retrying | escalating =>
      obtain ⟨x, -, hx⟩ := List.mem_map.mp hc
      exact nomatch hx
  | _ => exact absurd hc List.not_mem_nil

theorem Leads.of_evaluating {w : Work} {n : Next Work Yield} (hn : w.Leads n)
    {known : List String} (hb : n.body? = some (.evaluating .caller known)) :
    ∃ s, w = .pass .caller s := by
  cases hn with
  | evaluating s bs known => exact ⟨s, rfl⟩
  | finish o => exact nomatch hb
  | _ => exact nomatch Option.some.inj hb

/-- A pass ends, or it goes on when some tasks have ended that nobody tells to stop. -/
theorem Leads.of_isOfPass {w : Work} {n : Next Work Yield} (hn : w.Leads n) (hw : w.IsOfPass) :
    (∃ o, n = .finish o) ∨
      ∃ cs b, n = .gather cs b ∧ b.IsOfPass ∧ ∀ c ∈ cs, ¬ c.IsSubordinate := by
  cases hn with
  | finish => exact .inl ⟨_, rfl⟩
  | evaluating | notifying =>
      refine .inr ⟨_, _, rfl, trivial, fun c hc => ?_⟩
      obtain ⟨x, -, rfl⟩ := List.mem_map.mp hc
      exact id
  | sending _ entry d l result hw' =>
      rcases hw' with ⟨r, level, rfl⟩ | ⟨e, rfl⟩
      · exact hw.elim
      · exact hw.elim
  | lapsing _ entry turns hw' =>
      rcases hw' with ⟨r, level, rfl⟩ | ⟨e, rfl⟩ | ⟨e, n, rfl⟩
      · exact hw.elim
      · exact hw.elim
      · exact hw.elim
  | _ => exact hw.elim

end Work

namespace ControlRoom

/-! ## The turns of a pass -/

/-- The alerts among some that are to be announced. -/
def unknown (known found : List String) : List String :=
  firsts (found.filter fun id => !known.contains id)

theorem mem_unknown {known found : List String} {id : String} :
    id ∈ unknown known found ↔ id ∈ found ∧ id ∉ known := by
  unfold unknown
  rw [mem_firsts, List.mem_filter, Bool.not_eq_true', ← Bool.not_eq_true, List.contains_iff_mem]

/-- What a pass does when the evaluations have ended. -/
def announcement (c : ControlRoom) (new : List String) : Next Work Yield :=
  match new with
  | [] => .finish (.ok (.names []))
  | new => .gather (new.map fun id => .notify (c.store.ref id)) (.notifying .caller new)

variable (now : Instant) (c : ControlRoom)

/-- A pass begins its evaluations, unless it fails at once. -/
theorem next_pass (s : Snapshot) :
    (c.clock? now = none ∨ ∃ f, c.limit.check = .error f) ∧
        (∃ st, (program now c (.pass .caller s) .start).next = .finish (.error st)) ∨
      Assignment.batch c.configurations.values = [] ∧
        (program now c (.pass .caller s) .start).next = .finish (.ok (.names [])) ∨
      Assignment.batch c.configurations.values ≠ [] ∧
        (program now c (.pass .caller s) .start).next
          = .gather ((Assignment.batch c.configurations.values).map fun b => .evaluate b s)
            (.evaluating .caller c.store.ids) := by
  unfold program
  split
  · rename_i m _
    have hbegin : c.goOnWith m (.pass .caller s) .start = c.beginPass .caller s := rfl
    rw [hbegin]
    unfold beginPass
    dsimp only
    cases hl : c.limit.check with
    | error f => exact .inl ⟨.inr ⟨f, rfl⟩, .failed f, rfl⟩
    | ok u =>
        cases hb : Assignment.batch c.configurations.values with
        | nil => exact .inr (.inl ⟨rfl, rfl⟩)
        | cons b bs => exact .inr (.inr ⟨List.cons_ne_nil b bs, rfl⟩)
  · rename_i hnone
    exact .inl ⟨.inl hnone, .failed .outOfBounds, rfl⟩

/-- A pass goes on when its evaluations have ended, or it fails. -/
theorem next_evaluating (known : List String) (wake : Wake Yield) :
    (c.clock? now = none ∨ ∀ ys, wake ≠ .gathered ys) ∧
        (∃ st, (program now c (.evaluating .caller known) wake).next = .finish (.error st)) ∨
      ∃ ys, wake = .gathered ys ∧ (program now c (.evaluating .caller known) wake).next
        = c.announcement (unknown known (ys.flatMap (·.ids))) := by
  unfold program
  split
  · cases wake with
    | gathered ys =>
        refine .inr ⟨ys, rfl, ?_⟩
        show (c.announce .caller known (ys.flatMap (·.ids))).next = _
        unfold announce announcement unknown
        generalize firsts ((ys.flatMap (·.ids)).filter fun id => !known.contains id) = new
        cases new with
        | nil => rfl
        | cons id new => rfl
    | stopped st => exact .inl ⟨.inr (fun _ h => nomatch h), st, rfl⟩
    | _ => exact .inl ⟨.inr (fun _ h => nomatch h), .cancelled, rfl⟩
  · rename_i hnone
    exact .inl ⟨.inl hnone, .failed .outOfBounds, rfl⟩

/-- A pass ends when its notifications have ended, or it fails. -/
theorem next_notifying (found : List String) (wake : Wake Yield) :
    (c.clock? now = none ∨ ∀ ys, wake ≠ .gathered ys) ∧
        (∃ st, (program now c (.notifying .caller found) wake).next = .finish (.error st)) ∨
      ∃ ys, wake = .gathered ys ∧ (program now c (.notifying .caller found) wake).next
        = .finish (.ok (.names found)) := by
  unfold program
  split
  · cases wake with
    | gathered ys => exact .inr ⟨ys, rfl, rfl⟩
    | stopped st => exact .inl ⟨.inr (fun _ h => nomatch h), st, rfl⟩
    | _ => exact .inl ⟨.inr (fun _ h => nomatch h), .cancelled, rfl⟩
  · rename_i hnone
    exact .inl ⟨.inl hnone, .failed .outOfBounds, rfl⟩

/-- A pass leaves the room to its evaluations and its notifications, and books nothing. -/
theorem program_of_isOfPass {w : Work} (hw : w.IsOfPass) (wake : Wake Yield) :
    ∃ n, program now c w wake = ⟨c, [], n⟩ := by
  have hannounce : ∀ known found, ∃ n, c.announce .caller known found = ⟨c, [], n⟩ := by
    intro known found
    unfold announce
    split
    · exact ⟨_, rfl⟩
    · exact ⟨_, rfl⟩
  have hbegin : ∀ s, ∃ n, c.beginPass .caller s = ⟨c, [], n⟩ := by
    intro s
    unfold beginPass
    dsimp only
    split
    · exact ⟨_, rfl⟩
    · split
      · exact hannounce _ _
      · exact ⟨_, rfl⟩
  unfold program
  rcases Work.isOfPass_iff.mp hw with ⟨s, rfl⟩ | ⟨known, rfl⟩ | ⟨found, rfl⟩
  · split
    · cases wake with
      | stopped st => exact ⟨_, rfl⟩
      | _ => exact hbegin s
    · exact ⟨_, rfl⟩
  · split
    · cases wake with
      | gathered ys => exact hannounce known _
      | _ => exact ⟨_, rfl⟩
    · exact ⟨_, rfl⟩
  · split
    · cases wake with
      | _ => exact ⟨_, rfl⟩
    · exact ⟨_, rfl⟩

/-- A pass over a room whose limit is of no use fails. -/
theorem fails_of_limit {f : Fault} (hl : c.limit.check = .error f) (s : Snapshot) :
    ∃ st, (program now c (.pass .caller s) .start).next = .finish (.error st) := by
  unfold program
  split
  · rename_i m _
    have hbegin : c.goOnWith m (.pass .caller s) .start = c.beginPass .caller s := rfl
    rw [hbegin]
    unfold beginPass
    rw [hl]
    exact ⟨.failed f, rfl⟩
  · exact ⟨.failed .outOfBounds, rfl⟩

/-- Where the calendar ends all managed work fails. -/
theorem fails_of_calendar (hclock : c.clock? now = none) {w : Work} (hw : w.IsManaged)
    (wake : Wake Yield) : ∃ st, (program now c w wake).next = .finish (.error st) := by
  unfold program
  rw [hclock]
  dsimp only
  unfold stopWork
  split
  · exact hw.elim
  · exact hw.elim
  · rename_i p s
    cases p with
    | caller => exact ⟨_, rfl⟩
    | single | row => exact hw.elim
  · rename_i p known
    cases p with
    | caller => exact ⟨_, rfl⟩
    | single | row => exact hw.elim
  · rename_i p found
    cases p with
    | caller => exact ⟨_, rfl⟩
    | single | row => exact hw.elim
  · rename_i r left es sequel
    cases sequel with
    | none => exact ⟨_, rfl⟩
    | book => exact ⟨_, rfl⟩
  · exact ⟨_, rfl⟩

end ControlRoom

namespace Office

variable {p : Premises} {h : Past} {o : Office}

/-! ## Stints of an office -/

/-- A stint is of the form that its work has. -/
theorem Premises.Run.shaped (hr : p.Run h o) {s : Doing} (hs : s ∈ h) :
    ControlRoom.Shaped s.body.Leads (s.turn ControlRoom.program) :=
  ControlRoom.shaped_program _ _ (hr.mayBeDone s hs).1 _

/-- Work with which tasks begin is done in the first stint of a task. -/
theorem Premises.Run.first (hr : p.Run h o) {s : Doing} (hs : s ∈ h) (hbody : s.body.IsFirst) :
    s.first = true ∧ s.wake = .start :=
  hr.keeps.coherent.first_of_body hs fun _ hd hb => (hr.shaped hd).next.not_isFirst hb hbody

/-- Work that no caller asks for is done for the task that started it, in the same instant. -/
theorem Premises.Run.origin (hr : p.Run h o) {s : Doing} {e : Past} (hs : s :: e <:+ h)
    (hbody : s.body.IsFirst) (houter : ¬ s.body.IsOuter) :
    ∃ q ∈ e, s.audience = .task q.task ∧ q.now = s.now ∧
      q.Starts ControlRoom.program s.task s.body := by
  have hsm : s ∈ h := hs.subset List.mem_cons_self
  have haudience : ∃ t, s.audience = .task t := by
    refine not_forall_not.mp fun hno => houter ((hr.mayBeDone s hsm).2 fun t ht => hno t ht)
  obtain ⟨t, ht⟩ := haudience
  obtain ⟨q, hq, rfl, hnow, hstarts⟩ :=
    hr.keeps.coherent.origin hs (hr.first hsm hbody).1 ht
  exact ⟨q, hq, ht, hnow, hstarts⟩

/-- A stint that comes later in the history. -/
theorem Premises.Run.later_of_suffix (hr : p.Run h o) {d : Doing} {e : Past} (hd : d :: e <:+ h)
    {s : Doing} (hs : s ∈ e) : (s.turn ControlRoom.program).state.Later d.state := by
  have hpair := hr.later.2.2.sublist hd.sublist
  exact (List.pairwise_cons.mp hpair).1 s hs

/-- A stint after the first one follows from the one before it. -/
theorem Premises.Run.previous (hr : p.Run h o) {d : Doing} {e : Past} (hd : d :: e <:+ h)
    (hwake : d.wake ≠ .start) : ∃ q ∈ e, q.task = d.task ∧
      History.latest e q.task = some q ∧
      History.Leads ControlRoom.program e q d.body d.wake := by
  have hfollows := hr.keeps.coherent _ _ hd
  unfold History.Follows at hfollows
  split at hfollows
  · exact absurd hfollows.2.1 hwake
  · rename_i q hq
    obtain ⟨hmem, htask⟩ := History.latest_eq_some hq
    exact ⟨q, hmem, htask, htask ▸ hq, hfollows.2.2⟩

/-! ## The stints of a pass -/

/-- A task fails with a stint, or ends with it because it was told to stop. -/
def Fails (s : Doing) : Prop :=
  ∃ st, s.Ends ControlRoom.program (.error st)

instance (s : Doing) : Decidable (Fails s) :=
  match hn : (s.turn ControlRoom.program).next with
  | .finish (.error st) => .isTrue ⟨st, hn⟩
  | .finish (.ok _) => .isFalse fun ⟨_, hst⟩ => nomatch hn.symm.trans hst
  | .pause _ | .sleep .. | .gather .. | .collect .. | .await _ =>
    .isFalse fun ⟨_, hst⟩ => nomatch hn.symm.trans hst

/-- A pass over a snapshot begins. -/
def IsPass (s : Doing) : Prop :=
  ∃ x, s.body = .pass .caller x

instance (s : Doing) : Decidable (IsPass s) :=
  decidable_of_iff (s.body.snapshot?.isSome = true)
    (Option.isSome_iff_exists.trans (exists_congr fun _ => Work.snapshot?_eq_some))

/-- A pass has a first stint only once. -/
theorem Premises.Run.pass_unique (hr : p.Run h o) {s t : Doing} (hs : s ∈ h) (ht : t ∈ h)
    (hps : IsPass s) (hpt : IsPass t) (htask : s.task = t.task) : s = t := by
  obtain ⟨x, hx⟩ := hps
  obtain ⟨y, hy⟩ := hpt
  exact hr.keeps.coherent.first_unique hs ht (hr.first hs (by rw [hx]; trivial)).1
    (hr.first ht (by rw [hy]; trivial)).1 htask

/-- What the pass does that begins with a stint. -/
theorem Premises.Run.turn_pass (hr : p.Run h o) {s : Doing} (hs : s ∈ h) {x : Snapshot}
    (hx : s.body = .pass .caller x) :
    s.turn ControlRoom.program = ControlRoom.program s.now s.state (.pass .caller x) .start := by
  have hwake := (hr.first hs (by rw [hx]; trivial)).2
  unfold Stint.turn
  rw [hx, hwake]

/-- A pass goes on with the results of the evaluations that it began. -/
theorem Premises.Run.begin_of_evaluating (hr : p.Run h o) {d : Doing} {e : Past}
    (hd : d :: e <:+ h) {known : List String} {ys : List Yield}
    (hbody : d.body = .evaluating .caller known) (hwake : d.wake = .gathered ys) :
    ∃ s ∈ e, IsPass s ∧ s.task = d.task ∧ known = s.state.store.ids ∧
      List.Forall₂ (fun c r => History.Ended ControlRoom.program e s.task c (.ok r))
        (s.childIds ControlRoom.program) ys := by
  obtain ⟨s, hs, htask, -, hleads⟩ := hr.previous hd (by rw [hwake]; exact nofun)
  have hsm : s ∈ h := hd.subset (List.mem_cons_of_mem _ hs)
  have hnext := hleads.body
  rw [hbody, hwake] at hleads
  rw [hbody] at hnext
  obtain ⟨cs, hgather, hresults⟩ := hleads.of_gathered
  obtain ⟨x, hx⟩ := (hr.shaped hsm).next.of_evaluating hnext
  refine ⟨s, hs, ⟨x, hx⟩, htask, ?_, hresults⟩
  rw [hr.turn_pass hsm hx] at hnext
  rcases ControlRoom.next_pass s.now s.state x with ⟨-, st, hn⟩ | ⟨-, hn⟩ | ⟨-, hn⟩
  · rw [hn] at hnext
    exact nomatch hnext
  · rw [hn] at hnext
    exact nomatch hnext
  · rw [hn] at hnext
    exact (Work.evaluating.inj (Option.some.inj hnext)).2.symm

/-- An evaluation is over at once, and nothing else is done in its task. -/
theorem Premises.Run.ends_evaluate (hr : p.Run h o) {f : Doing} (hf : f ∈ h) {b : Assignment}
    {x : Snapshot} (hbody : f.body = .evaluate b x) :
    f.turn ControlRoom.program = f.state.evaluate b x ∧
        f.Ends ControlRoom.program (.ok (.names (b.run x f.state.registry).1)) ∨
      f.state.clock? f.now = none ∧ f.turn ControlRoom.program = f.state.fail .outOfBounds ∧
        f.Ends ControlRoom.program (.error (.failed .outOfBounds)) := by
  have hwake := (hr.first hf (by rw [hbody]; trivial)).2
  unfold Stint.Ends Stint.turn
  rw [hbody, hwake]
  rcases ControlRoom.evaluate_cases f.now f.state b x with he | ⟨hnone, he⟩
  · rw [he]
    exact .inl ⟨rfl, rfl⟩
  · rw [he]
    exact .inr ⟨hnone, rfl, rfl⟩

theorem Premises.Run.eq_of_evaluate (hr : p.Run h o) {f g : Doing} (hf : f ∈ h) (hg : g ∈ h)
    {b : Assignment} {x : Snapshot} (hbody : f.body = .evaluate b x) (htask : f.task = g.task) :
    f = g := by
  have hfirst := (hr.first hf (by rw [hbody]; trivial)).1
  rcases hr.ends_evaluate hf hbody with ⟨-, hends⟩ | ⟨-, -, hends⟩
  · exact hr.keeps.coherent.eq_of_first_ends hf hg hfirst hends htask
  · exact hr.keeps.coherent.eq_of_first_ends hf hg hfirst hends htask

/-- A pass that begins evaluations goes on with what it knew before. -/
theorem Premises.Run.gather_of_pass (hr : p.Run h o) {s : Doing} (hs : s ∈ h) (hps : IsPass s)
    {c : TaskId} (hc : c ∈ s.childIds ControlRoom.program) :
    ∃ x, (s.turn ControlRoom.program).next
      = .gather ((Assignment.batch s.state.configurations.values).map fun b => .evaluate b x)
        (.evaluating .caller s.state.store.ids) := by
  obtain ⟨x, hx⟩ := hps
  obtain ⟨body, i, hi, -⟩ := History.mem_childIds.mp hc
  have hchild := List.mem_of_getElem? hi
  rw [hr.turn_pass hs hx] at hchild ⊢
  rcases ControlRoom.next_pass s.now s.state x with ⟨-, st, hn⟩ | ⟨-, hn⟩ | ⟨-, hn⟩
  · rw [hn] at hchild
    exact absurd hchild List.not_mem_nil
  · rw [hn] at hchild
    exact absurd hchild List.not_mem_nil
  · exact ⟨x, hn⟩

/-- The tasks that a pass begins with are evaluations. -/
theorem Premises.Run.evaluate_of_child (hr : p.Run h o) {s : Doing} (hs : s ∈ h) (hps : IsPass s)
    {c : TaskId} (hc : c ∈ s.childIds ControlRoom.program) {f : Doing} (hf : f ∈ h)
    (htask : f.task = c) (haudience : f.audience = .task s.task) :
    ∃ b x, f.body = .evaluate b x := by
  obtain ⟨x, hgather⟩ := hr.gather_of_pass hs hps hc
  obtain ⟨body, hstarts⟩ := History.mem_childIds.mp hc
  obtain ⟨e, he, hbegins⟩ :=
    hr.first_of_child (sound_idle _ _) outside_of_serve hs hstarts hf htask haudience
  obtain ⟨i, hi, -⟩ := hstarts
  have hchild := List.mem_of_getElem? hi
  rw [hgather] at hchild
  obtain ⟨b, -, rfl⟩ := List.mem_map.mp hchild
  rw [← hr.eq_of_evaluate he hf hbegins.body (hbegins.task.trans htask.symm)]
  exact ⟨b, x, hbegins.body⟩

/-- A task is no longer there, or nothing is left that any task could do at once. -/
def Settled (o : Office) (t : TaskId) : Prop :=
  o.process? t = none ∨ o.ready = []

/-- A pass that begins evaluations goes on when they are over. -/
theorem Premises.Run.exists_evaluating (hr : p.Run h o) {s : Doing} (hs : s ∈ h) (hps : IsPass s)
    {c : TaskId} (hc : c ∈ s.childIds ControlRoom.program) (hsettled : Settled o s.task) :
    ∃ d e, d :: e <:+ h ∧ d.task = s.task ∧ d.audience = s.audience ∧
      d.body = .evaluating .caller s.state.store.ids ∧ ((∃ ys, d.wake = .gathered ys ∧
        List.Forall₂ (fun c r => History.Ended ControlRoom.program e s.task c (.ok r))
          (s.childIds ControlRoom.program) ys) ∨ ∃ st, d.wake = .stopped st) := by
  obtain ⟨x, hgather⟩ := hr.gather_of_pass hs hps hc
  rcases History.latest_or_next hs with hlatest | ⟨d, e, hd, htask, hlatest⟩
  · -- otherwise it would wait for one of them that is still under way
    have hunder : o.process? s.task ≠ none := by
      intro hnone
      obtain ⟨out, hends⟩ := (hr.keeps.living s.task nofun s hlatest).mp hnone
      exact nomatch hgather.symm.trans hends
    obtain ⟨q, hq⟩ := Option.ne_none_iff_exists'.mp hunder
    have hready := hsettled.resolve_left hunder
    obtain ⟨c', hc', r, hr', hra⟩ := hr.attentive.exists_waited hr.keeps hready hq hlatest hgather
      (List.ne_nil_of_mem hc)
    have hstands := hr.keeps.stands c' nofun r hr'
    unfold Stands at hstands
    split at hstands
    · have hturn := hr.keeps.turn c' nofun r _ hr' (hstands.child _ hra).2
      rw [hready] at hturn
      exact absurd hturn List.not_mem_nil
    · rename_i f hf
      obtain ⟨hfm, rfl⟩ := History.latest_eq_some hf
      obtain ⟨b, y, hbody⟩ :=
        hr.evaluate_of_child hs hps hc' hfm rfl (hstands.2.1.symm.trans hra)
      have hends : ∃ out, f.Ends ControlRoom.program out := by
        rcases hr.ends_evaluate hfm hbody with ⟨-, hends⟩ | ⟨-, -, hends⟩
        · exact ⟨_, hends⟩
        · exact ⟨_, hends⟩
      exact nomatch hr'.symm.trans ((hr.keeps.living f.task nofun f hf).mpr hends)
  · obtain ⟨-, haudience, hleads⟩ := hr.keeps.coherent.next hd htask hlatest
    obtain ⟨hbody, hwake⟩ := hleads.of_gather hgather
    exact ⟨d, e, hd, htask, haudience, hbody, hwake⟩

/-- A notification is of an alert that its pass came across and did not know. -/
theorem Premises.Run.origin_notify (hr : p.Run h o) {n : Doing} {e : Past} (hn : n :: e <:+ h)
    {r : AlertRef} (hbody : n.body = .notify r) :
    ∃ d ∈ e, n.audience = .task d.task ∧ d.now = n.now ∧ ∃ known ys id,
      d.body = .evaluating .caller known ∧ d.wake = .gathered ys ∧ r = d.state.store.ref id ∧
        id ∈ ys.flatMap (·.ids) ∧ id ∉ known := by
  obtain ⟨d, hd, haudience, hnow, hstarts⟩ :=
    hr.origin hn (by rw [hbody]; trivial) (by rw [hbody]; exact id)
  have hdm : d ∈ h := hn.subset (List.mem_cons_of_mem _ hd)
  obtain ⟨i, hi, -⟩ := hstarts
  have hchild := List.mem_of_getElem? hi
  rw [hbody] at hchild
  obtain ⟨known, hd⟩ := (hr.shaped hdm).next.of_notify hchild
  unfold Stint.turn at hchild
  rw [hd] at hchild
  rcases ControlRoom.next_evaluating d.now d.state known d.wake with
    ⟨-, st, hnext⟩ | ⟨ys, hwake, hnext⟩
  · rw [hnext] at hchild
    exact absurd hchild List.not_mem_nil
  · rw [hnext] at hchild
    unfold ControlRoom.announcement at hchild
    split at hchild
    · exact absurd hchild List.not_mem_nil
    · obtain ⟨id, hid, heq⟩ := List.mem_map.mp hchild
      obtain ⟨hfound, hknown⟩ := ControlRoom.mem_unknown.mp hid
      exact ⟨d, ‹_›, haudience, hnow, known, ys, id, hd, hwake, (Work.notify.inj heq).symm, hfound,
        hknown⟩

/-- What a pass does when its evaluations have ended, if it has not failed. -/
theorem turn_evaluating {d : Doing} {known : List String} (hbody : d.body = .evaluating .caller known)
    (hok : ¬ Fails d) :
    ∃ ys, d.wake = .gathered ys ∧ (d.turn ControlRoom.program).next
      = d.state.announcement (ControlRoom.unknown known (ys.flatMap (·.ids))) := by
  unfold Fails Stint.Ends at hok
  unfold Stint.turn at hok ⊢
  rw [hbody] at hok ⊢
  rcases ControlRoom.next_evaluating d.now d.state known d.wake with ⟨-, st, hnext⟩ | hnext
  · exact absurd ⟨st, hnext⟩ hok
  · exact hnext

/-- What a pass does when its notifications have ended, if it has not failed. -/
theorem turn_notifying {d : Doing} {found : List String} (hbody : d.body = .notifying .caller found)
    (hok : ¬ Fails d) :
    ∃ ys, d.wake = .gathered ys ∧
      (d.turn ControlRoom.program).next = .finish (.ok (.names found)) := by
  unfold Fails Stint.Ends at hok
  unfold Stint.turn at hok ⊢
  rw [hbody] at hok ⊢
  rcases ControlRoom.next_notifying d.now d.state found d.wake with ⟨-, st, hnext⟩ | hnext
  · exact absurd ⟨st, hnext⟩ hok
  · exact hnext

end Office

end BuildingAlerts
