/-
Rows of passes that somebody waits for.

A row is asked for once, on top of whatever is under way, and the office may be asked for anything
else while its passes are made. Unless it is told to stop it is under way in one of three ways: it
waits for its first turn, it pauses between two passes, or it is in the middle of a pass. Each of
its stints begins a pass, ends one, or both; the counts change where a pass ends, and with nothing
else that happens meanwhile. With the last pass the row ends, and nobody makes passes any longer.
One pass is made in any case: a row of no passes cannot be asked for.
-/
import BuildingAlerts.Proofs.ControlRoom.Rows

set_option autoImplicit false

namespace BuildingAlerts

open Agenda

namespace Office

/-! ## Rows -/

/-- A row of passes: where its snapshots come from, the pause between two of its passes, and how
many are made at most. -/
structure Row where
  source : SnapshotSource
  interval : Number
  most : Nat

namespace Row

/-- An office in which no periodic pass was made yet. -/
def newly (x : Row) (o : Office) : Office :=
  o.adjustRounds fun _ => ⟨x.source, x.interval, false, 0, 0, 0, none⟩

/-- The row is asked for. -/
def begin (x : Row) (o : Office) : Office :=
  Agenda.launch ((x.newly o).adjustRounds fun r => { r with running := true }) .caller
    (.round (.row (some x.most) 0 true))

/-- What an office may come to when the row was asked for, and the stints since then. -/
abbrev Run (x : Row) (o : Office) : Past → Office → Prop :=
  Agenda.Run ControlRoom.program (fun o o' => ∃ q, o' = serve o q) (x.begin o)

/-- **Who makes a row and waits for its end** makes such a run. -/
theorem exists_run_makeRounds (x : Row) {o : Office} (ho : o.answer = none) :
    ∃ h b, x.Run o h b ∧ (x.newly o).makeRounds (some x.most)
      = (b.answer.getD (.error .cancelled), { b with answer := none }) := by
  have hmakes : ∃ h, x.Run o h (Agenda.untilAnswered ControlRoom.program Agenda.patience
      (x.begin o)) := exists_run_untilAnswered Agenda.patience (x.begin o)
  obtain ⟨h, hr⟩ := hmakes
  have hasked : { (x.newly o).adjustRounds fun r => { r with running := true } with answer := none }
      = (x.newly o).adjustRounds fun r => { r with running := true } := by
    rw [← ho]
    rfl
  refine ⟨h, _, hr, ?_⟩
  unfold makeRounds Office.await Agenda.ask
  dsimp only
  rw [hasked]
  rfl

/-- What an office may be asked for that makes rows, the row included. -/
inductive Asks (x : Row) (o : Office) : Office → Prop where
  | request (q : Request) : Asks x o (serve o q)
  | row : Asks x o (x.begin o)

/-- What an office may come to that makes rows, and all stints since it was opened. -/
abbrev Whole (x : Row) (p : Premises) : Past → Office → Prop :=
  Agenda.Run ControlRoom.program x.Asks (.idle p.room)

variable {x : Row} {p : Premises} {e h k : Past} {a b o : Office} {t u : TaskId}

theorem Run.whole (hr : x.Run a h o) (ha : p.Run e a) : x.Whole p (h ++ e) o := by
  have hbefore : x.Whole p e a := ha.mono fun ⟨q, hb⟩ => hb ▸ .request q
  exact (hbefore.serve .row).append (hr.mono fun ⟨q, hb⟩ => hb ▸ .request q)

/-! ## What holds while rows are made -/

theorem outside_of_asks (hn : Agenda.Numbered a) (hb : x.Asks a b) : Agenda.Outside a b := by
  cases hb with
  | request q => exact outside_of_serve hn ⟨q, rfl⟩
  | row =>
      have hlaunch := rebooked_launch (w := .caller) (a := (x.newly a).adjustRounds fun r =>
        { r with running := true }) hn (fun _ h => nomatch h)
        (Work.round (.row (some x.most) 0 true))
      exact ⟨_, hlaunch⟩

theorem only_of_asks {G : Audience → Work → Prop} (hrow : ∀ w, w.IsOfRow → G .caller w)
    (hlaunched : ∀ w, w.IsManaged → w.IsOuter → G .caller w)
    (hbooked : ∀ w, ControlRoom.IsBooked w → G .nobody w) (ha : Only G a) (hb : x.Asks a b) :
    Only G b := by
  cases hb with
  | request q => exact only_of_serve hlaunched hbooked ha ⟨q, rfl⟩
  | row =>
      have hedit : Only G ((x.newly a).adjustRounds fun r => { r with running := true }) :=
        ha.edit rfl
      exact hedit.start (p := .fresh _ .caller) (hrow _ ⟨_, _, _, .round⟩)

theorem allowed_of_asks (ha : Only (fun _ => Work.IsAllowed) a) (hb : x.Asks a b) :
    Only (fun _ => Work.IsAllowed) b :=
  only_of_asks (fun _ hw => .inr hw) (fun _ hw _ => .inl hw)
    (fun _ hw => .inl hw.isSubordinate.isManaged) ha hb

theorem calm_of_asks (hn : Agenda.Numbered a) (ha : Calm Work.IsSubordinate a) (hb : x.Asks a b) :
    Calm Work.IsSubordinate b := by
  cases hb with
  | request q => exact calm_of_serve hn ha ⟨q, rfl⟩
  | row =>
      have hedit : Calm Work.IsSubordinate
          ((x.newly a).adjustRounds fun r => { r with running := true }) := ha.edit rfl rfl rfl
      exact hedit.launch (w := .caller) hn (fun _ h => nomatch h) _

namespace Whole

theorem keeps (hr : x.Whole p k o) : Sound ControlRoom.program none k o :=
  hr.sound (sound_idle _ _) outside_of_asks

/-- All work comes of requests and of rows, and tasks that another one started do inner work. -/
theorem allowed (hr : x.Whole p k o) :
    Only (fun v w => w.IsAllowedFor v) o ∧ ∀ s ∈ k, s.body.IsAllowedFor s.audience :=
  hr.only ControlRoom.closed_isAllowedFor (sound_idle _ _) outside_of_asks (fun _ _ h => nomatch h)
    (only_of_asks (fun _ hw => ⟨.inr hw, fun ⟨_, h⟩ => nomatch h⟩)
      (fun _ hw _ => ⟨.inl hw, fun ⟨_, h⟩ => nomatch h⟩)
      fun _ hw => ⟨.inl hw.isSubordinate.isManaged, fun ⟨_, h⟩ => nomatch h⟩)

theorem calm (hr : x.Whole p k o) : Calm Work.IsSubordinate o :=
  Agenda.Run.calm ControlRoom.closed_isAllowed ControlRoom.divides_isAllowed (sound_idle _ _)
    outside_of_asks (fun _ _ h => nomatch h) allowed_of_asks (calm_idle _) calm_of_asks hr

theorem attentive (hr : x.Whole p k o) : Attentive ControlRoom.program Work.IsSubordinate k o :=
  Agenda.Run.attentive ControlRoom.closed_isAllowed ControlRoom.divides_isAllowed (sound_idle _ _)
    outside_of_asks (fun _ _ h => nomatch h) allowed_of_asks (calm_idle _) calm_of_asks hr rfl

theorem first (hr : x.Whole p k o) {s : Doing} (hs : s ∈ k) (hbody : s.body.IsFirst) :
    s.first = true ∧ s.wake = .start :=
  hr.keeps.coherent.first_of_body hs fun d hd hb =>
    ControlRoom.not_isFirst_of_body? (hr.allowed.2 d hd).1 hb hbody

/-- Rows neither start tasks to listen to them nor go on as notifications do. -/
theorem leads_of_collecting (hr : x.Whole p k o) {s : Doing} (hs : s ∈ k) {b : Work}
    (hb : (s.turn ControlRoom.program).next.body? = some b) (hcollecting : b.IsCollecting) :
    s.body.Leads (s.turn ControlRoom.program).next := by
  rcases (hr.allowed.2 s hs).1 with hw | hw
  · exact (ControlRoom.shaped_program s.now s.state hw s.wake).next
  · obtain ⟨_, _, _, hrow⟩ := (ControlRoom.rowShaped_program s.now s.state hw s.wake).next.isOfRow hb
    cases hrow <;> exact hcollecting.elim

theorem listening (hr : x.Whole p k o) : Listening ControlRoom.program Work.IsSubordinate k o := by
  refine Agenda.Run.listening ControlRoom.closed_isAllowed ControlRoom.divides_isAllowed
    ControlRoom.listeners_isAllowed (sound_idle _ _) outside_of_asks (fun _ _ h => nomatch h)
    allowed_of_asks (fun hr => Whole.calm hr) (fun hr => Whole.attentive hr)
    (fun {k o} hr s hs hlistens => ?_) hr
  have hr : x.Whole p k o := hr
  obtain ⟨cs, b, hnext⟩ := hlistens
  have hcollecting := ControlRoom.listeners_isAllowed.begins s.now s.state s.body s.wake
    (hr.allowed.2 s hs).1 cs b hnext
  have hleads := hr.leads_of_collecting hs (congrArg Next.body? hnext) hcollecting
  rw [hnext] at hleads
  generalize hbody : s.body = w at hleads
  cases hleads with
  | collecting r rs sequel => exact (hr.first hs (by rw [hbody]; trivial)).1

theorem notifies (hr : x.Whole p k o) : Notifies k where
  coherent := hr.keeps.coherent
  begins _ hq _ _ _ _ hb :=
    begins_of_collecting (hr.leads_of_collecting hq hb trivial) (hr.first hq) hb

/-! ## That somebody is awake -/

/-- A task was started before those that it started. -/
theorem lt_of_audience (hr : x.Whole p k o) {q : Process Work Yield} (hq : o.process? t = some q)
    (hu : q.audience = .task u) : u < t := by
  obtain ⟨s, hs, rfl, body, ⟨i, -, rfl⟩, -⟩ :=
    hr.keeps.kind ControlRoom.divides_isAllowed (fun s hs => (hr.allowed.2 s hs).1) hq hu
  have hlt := hr.task_lt_started (sound_idle _ _) outside_of_asks hs
  exact Nat.lt_of_lt_of_le hlt (Nat.le_trans (Nat.le_add_right _ _) (Nat.le_add_right _ _))

/-- **When nothing is ready, somebody sleeps** for each task that another one waits for: it sleeps
itself, or it waits for a task that was started after it. -/
theorem exists_asleep (hr : x.Whole p k o) (hready : o.ready = []) {q : Process Work Yield}
    (hq : o.process? t = some q) (hu : q.audience = .task u) :
    ∃ v r, o.process? v = some r ∧ r.waiting = .asleep := by
  induction hdepth : o.started - t using Nat.strongRecOn generalizing t u q with
  | ind m ih =>
      have hsound := hr.keeps
      have hstands := hsound.stands t nofun q hq
      unfold Stands at hstands
      split at hstands
      · exact absurd (hstands.child u hu).2 (hsound.not_queued hready hq _)
      · rename_i l hlatest
        obtain ⟨hbegun, haudience, hrests⟩ := hstands
        obtain ⟨hl, -⟩ := History.latest_eq_some hlatest
        obtain ⟨hmanaged, houter⟩ := (hr.allowed.2 l hl).2 ⟨u, haudience.symm.trans hu⟩
        have hleads := (ControlRoom.shaped_program l.now l.state hmanaged l.wake).next
        have hlistens : q.body.IsCollecting →
            ∃ v r, o.process? v = some r ∧ r.waiting = .asleep := by
          intro hcollecting
          obtain ⟨r, left, es, sequel, hbody⟩ :
              ∃ r left es sequel, q.body = .collecting r left es sequel := by
            generalize q.body = w at hcollecting
            cases w with
            | collecting r left es sequel => exact ⟨r, left, es, sequel, rfl⟩
            | _ => exact hcollecting.elim
          obtain ⟨-, -, -, -, -, c, q', hq', hqt⟩ :=
            hr.notifies.exists_child hsound hr.listening hready hq hbegun hbody
          have hless := Nat.sub_lt_sub_left (hsound.numbered hq) (hr.lt_of_audience hq' hqt)
          exact ih (o.started - c) (hdepth ▸ hless) hq' hqt rfl
        cases hrests with
        | queued hw _ => exact absurd hw (hsound.not_queued hready hq _)
        | asleep hw _ => exact ⟨t, q, hq, hw⟩
        | collecting _ hnext =>
            exact hlistens (ControlRoom.listeners_isAllowed.begins l.now l.state l.body l.wake
              (.inl hmanaged) _ _ hnext)
        | awaiting _ hnext =>
            have hnext : (ControlRoom.program l.now l.state l.body l.wake).next = _ := hnext
            rw [hnext] at hleads
            exact hlistens hleads.isCollecting_of_await
        | gathering _ hnext _ _ =>
            -- only tasks that nobody waits for wait for all that they have started
            have hnext : (ControlRoom.program l.now l.state l.body l.wake).next = _ := hnext
            rw [hnext] at hleads
            exact absurd hleads.isOuter_of_gather houter

end Whole

/-! ## What is counted -/

/-- What a pass does in a stint, if it is made alone. -/
def alone (d : Doing) : Stretch :=
  ControlRoom.program d.now d.state d.body.alone d.wake

/-- A stint of the task, of a kind. -/
def isOf (t : TaskId) (c : Doing → Bool) (d : Doing) : Bool :=
  decide (d.task = t) && c d

/-- A pass of the task begins with a stint. -/
def begins (t : TaskId) : Doing → Bool :=
  isOf t (·.body.beginsPass)

/-- A pass of the task succeeds with a stint. -/
def succeeds (t : TaskId) : Doing → Bool :=
  isOf t fun d => (alone d).next.isResult

/-- A pass of the task fails with a stint. -/
def fails (t : TaskId) : Doing → Bool :=
  isOf t fun d => (alone d).next.isFault

/-- The counts are those of the passes that have succeeded and failed. -/
structure Tally (x : Row) (t : TaskId) (h : Past) (r : Rounds) : Prop where
  interval : r.interval = x.interval
  completed : r.completed = h.countP (succeeds t)
  failed : r.failed = h.countP (fails t)

/-- How a row ends after so many passes: with the last one, or because it cannot pause. -/
inductive EndsWith (x : Row) (made : Nat) : Outcome Yield → Prop where
  | last (hmade : made = max 1 x.most) : EndsWith x made (.ok (.names []))
  | unable (hmade : made = 1) (hmost : 2 ≤ x.most) (hpause : Delay.of? x.interval = none) :
      EndsWith x made (.error (.failed .outOfBounds))

/-! ## How far a row is -/

/-- How a row is under way after so many passes, and whether it is in the middle of another one. -/
inductive At (x : Row) (t : TaskId) (k : Past) (o : Office) : Nat → Bool → Prop where
  | poised {q : Process Work Yield} (hq : Poised o t q)
      (hbody : q.body = .round (.row (some x.most) 0 true)) (hnone : k.latest t = none) :
      At x t k o 0 false
  | pausing {made : Nat} {l : Doing} {d : Delay} (hl : k.latest t = some l)
      (hnext : (l.turn ControlRoom.program).next
        = .sleep d .endless (.interval (.row (some x.most) made true))) : At x t k o made false
  | passing {made : Nat} {l : Doing} {cs : List Work} {w : Work} (hl : k.latest t = some l)
      (hnext : (l.turn ControlRoom.program).next = .gather cs w) (hcs : cs ≠ [])
      (hw : w.IsFor (.row (some x.most) made true)) (hgoes : w.beginsPass = false) :
      At x t k o made true

/-- How far a row is: it is under way, or it has returned. -/
inductive Stage (x : Row) (t : TaskId) (e h : Past) (o : Office) : Prop where
  | underWay {made : Nat} {passing : Bool} (hat : At x t (h ++ e) o made passing)
      (hrunning : o.state.rounds.running = true)
      (hmade : o.state.rounds.completed + o.state.rounds.failed = made)
      (hbegun : h.countP (begins t) = made + passing.toNat) (hbound : made < max 1 x.most)
      (hpause : made = 0 ∨ Delay.of? x.interval ≠ none)
  | returned {f : Doing} {y : Outcome Yield} (hf : f ∈ h) (hft : f.task = t)
      (hends : f.Ends ControlRoom.program y) (hrunning : o.state.rounds.running = false)
      (hbegun : h.countP (begins t) = o.state.rounds.completed + o.state.rounds.failed)
      (hy : x.EndsWith (o.state.rounds.completed + o.state.rounds.failed) y)

variable {ds : Past} {o' : Office} {made : Nat} {passing : Bool}

/-! ## What others do -/

theorem countP_append_of_ne (c : Doing → Bool) (hds : ∀ d ∈ ds, d.task ≠ t) :
    (ds ++ h).countP (isOf t c) = h.countP (isOf t c) := by
  have hnone : ds.countP (isOf t c) = 0 := List.countP_eq_zero.mpr fun d hd hof =>
    hds d hd (of_decide_eq_true (Bool.and_eq_true_iff.mp hof).1)
  rw [List.countP_append, hnone, Nat.zero_add]

theorem Tally.frame {r : Rounds} (htally : Tally x t h r) (hds : ∀ d ∈ ds, d.task ≠ t) :
    Tally x t (ds ++ h) r where
  interval := htally.interval
  completed := htally.completed.trans (countP_append_of_ne _ hds).symm
  failed := htally.failed.trans (countP_append_of_ne _ hds).symm

theorem At.frame (hat : At x t k o made passing) (hds : ∀ d ∈ ds, d.task ≠ t)
    (hpoised : ∀ q, Poised o t q → ¬ q.body.IsSubordinate → ∃ q', Poised o' t q' ∧ q.Told q') :
    At x t (ds ++ k) o' made passing := by
  have hlatest := History.latest_append_of_ne (h := k) hds
  cases hat with
  | poised hq hbody hnone =>
      obtain ⟨q', hq', htold⟩ := hpoised _ hq (by rw [hbody]; exact id)
      exact .poised hq' (htold.body.trans hbody) (hlatest.trans hnone)
  | pausing hl hnext => exact .pausing (hlatest.trans hl) hnext
  | passing hl hnext hcs hw hgoes => exact .passing (hlatest.trans hl) hnext hcs hw hgoes

/-- **What others do** neither makes passes of the row nor counts any. -/
theorem Stage.frame (hstage : Stage x t e h o) (hds : ∀ d ∈ ds, d.task ≠ t)
    (hrounds : o'.state.rounds = o.state.rounds)
    (hpoised : ∀ q, Poised o t q → ¬ q.body.IsSubordinate → ∃ q', Poised o' t q' ∧ q.Told q') :
    Stage x t e (ds ++ h) o' := by
  have hcount : (ds ++ h).countP (begins t) = h.countP (begins t) := countP_append_of_ne _ hds
  cases hstage with
  | underWay hat hrunning hmade hbegun hbound hpause =>
      rw [← hrounds] at hrunning hmade
      refine .underWay ?_ hrunning hmade (hcount.trans hbegun) hbound hpause
      rw [List.append_assoc]
      exact hat.frame hds hpoised
  | returned hf hft hends hrunning hbegun hy =>
      rw [← hrounds] at hrunning hbegun hy
      exact .returned (List.mem_append_right _ hf) hft hends hrunning (hcount.trans hbegun) hy

/-- Nor does anything that is no stint. -/
theorem Stage.stays (hstage : Stage x t e h o) (hrounds : o'.state.rounds = o.state.rounds)
    (hpoised : ∀ q, Poised o t q → ¬ q.body.IsSubordinate → ∃ q', Poised o' t q' ∧ q.Told q') :
    Stage x t e h o' := by
  have hnone : ∀ d ∈ ([] : Past), d.task ≠ t := fun _ hd => absurd hd List.not_mem_nil
  exact hstage.frame hnone hrounds hpoised

/-! ## A stint of the row -/

theorem countP_cons_of_task (c : Doing → Bool) {d : Doing} (ht : d.task = t) :
    (d :: h).countP (isOf t c) = h.countP (isOf t c) + (c d).toNat := by
  have hof : isOf t c d = c d := by
    unfold isOf
    rw [decide_eq_true ht, Bool.true_and]
  rw [List.countP_cons, hof]
  cases c d <;> rfl

/-- A stint of the row is counted by what the pass does in it. -/
theorem Tally.step {d : Doing} {r r' : Rounds} (htally : Tally x t h r) (ht : d.task = t)
    (hcounts : ControlRoom.Counted r r' (alone d).next) : Tally x t (d :: h) r' where
  interval := hcounts.interval.trans htally.interval
  completed := by
    rw [hcounts.completed, htally.completed]
    exact (countP_cons_of_task _ ht).symm
  failed := by
    rw [hcounts.failed, htally.failed]
    exact (countP_cons_of_task _ ht).symm

/-- With what a row goes on: with a pass that begins, or with the one in the middle of which it is. -/
theorem At.goesOn (hat : At x t k o made passing) {place : Nat} {d : Doing}
    (hd : o.stintAt? place = some d) (ht : d.task = t)
    (hcoherent : History.Coherent ControlRoom.program (d :: k)) :
    d.body.IsFor (.row (some x.most) made true) ∧ d.body.beginsPass = !passing ∧
      (d.body.beginsPass = true ∨ (∃ ys, d.wake = .gathered ys) ∨ ∃ st, d.wake = .stopped st) := by
  have hfollows := hcoherent d k (List.suffix_refl _)
  unfold History.Follows at hfollows
  rw [ht] at hfollows
  cases hat with
  | poised hq hbody hnone =>
      obtain ⟨-, -, q', hq', hof⟩ := stintAt?_eq_some hd
      obtain rfl := Option.some.inj ((ht ▸ hq').symm.trans hq.process)
      rw [hof.body, hbody]
      exact ⟨.round, rfl, .inl rfl⟩
  | pausing hl hnext =>
      rw [hl] at hfollows
      have hbody := hfollows.2.2.body
      rw [hnext] at hbody
      rw [← Option.some.inj hbody]
      exact ⟨.interval, rfl, .inl rfl⟩
  | passing hl hnext hcs hw hgoes =>
      rw [hl] at hfollows
      obtain ⟨rfl, hwake⟩ := hfollows.2.2.of_gather hnext
      refine ⟨hw, hgoes, .inr (hwake.imp_left ?_)⟩
      rintro ⟨ys, hys, -⟩
      exact ⟨ys, hys⟩

/-- **With the end of a pass** the row ends, with the last one or because it cannot pause, or it
pauses before the next one. -/
theorem stage_afterRound {c : ControlRoom} {d : Doing} (ht : d.task = t)
    (hturn : d.turn ControlRoom.program = c.afterRound (some x.most) made true)
    (hstate : o'.state = (d.turn ControlRoom.program).state)
    (hbegun : (d :: h).countP (begins t) = made + 1)
    (hmade : o'.state.rounds.completed + o'.state.rounds.failed = made + 1)
    (hinterval : c.rounds.interval = x.interval) (hrunning : c.rounds.running = true)
    (hbound : made < max 1 x.most) (hpause : made = 0 ∨ Delay.of? x.interval ≠ none) :
    Stage x t e (d :: h) o' := by
  rcases ControlRoom.afterRound_cases c (some x.most) made true with
    ⟨hmost, hafter⟩ | ⟨hmost, hnone, hafter⟩ | ⟨delay, hmost, hd, hafter⟩
  · have hle : x.most ≤ made + 1 := Int.ofNat_le.mp (of_decide_eq_true hmost)
    rw [hafter] at hturn
    rw [hturn] at hstate
    refine .returned List.mem_cons_self ht (congrArg Turn.next hturn)
      (congrArg (·.rounds.running) hstate) (hbegun.trans hmade.symm) ?_
    rw [hmade]
    exact .last (by omega)
  · have hlt : ¬ x.most ≤ made + 1 := fun hle =>
      absurd (decide_eq_true (Int.ofNat_le.mpr hle)) (ne_true_of_eq_false hmost)
    rw [hinterval] at hnone
    -- a row that has paused before could do so again, so this was its first pass
    obtain rfl := hpause.resolve_right fun hne => hne hnone
    rw [hafter] at hturn
    rw [hturn] at hstate
    refine .returned List.mem_cons_self ht (congrArg Turn.next hturn)
      (congrArg (·.rounds.running) hstate) (hbegun.trans hmade.symm) ?_
    rw [hmade]
    exact .unable rfl (by omega) hnone
  · have hlt : ¬ x.most ≤ made + 1 := fun hle =>
      absurd (decide_eq_true (Int.ofNat_le.mpr hle)) (ne_true_of_eq_false hmost)
    rw [hinterval] at hd
    rw [hafter] at hturn
    rw [hturn] at hstate
    exact .underWay (.pausing (History.latest_cons_self ht) (congrArg Turn.next hturn))
      ((congrArg (·.rounds.running) hstate).trans hrunning) hmade hbegun (by omega)
      (.inr fun hnone => nomatch hd.symm.trans hnone)

/-- **A stint of the row** begins a pass unless one has begun, and counts it where it ends. -/
theorem Stage.step (hstage : Stage x t e h o) (htally : Tally x t h o.state.rounds) {place : Nat}
    {d : Doing} (hd : o.stintAt? place = some d) (hb : o.stepAt ControlRoom.program place = some o')
    (hn : Agenda.Numbered o) (ht : d.task = t)
    (hcoherent : History.Coherent ControlRoom.program (d :: (h ++ e)))
    (hwake : d.wake ≠ .stopped .cancelled) :
    Tally x t (d :: h) o'.state.rounds ∧ Stage x t e (d :: h) o' := by
  obtain ⟨-, -, q, -, hof⟩ := stintAt?_eq_some hd
  have hstate : o'.state = (d.turn ControlRoom.program).state := by
    rw [state_of_stepAt hn hb, hd]
    rfl
  cases hstage with
  | returned hf hft hends _ _ _ =>
      -- a row that has returned has no stint any more
      exact absurd (hft.trans ht.symm)
        (hcoherent.ne_of_ends (List.suffix_refl _) (List.mem_append_left e hf) hends)
  | @underWay made passing hat hrunning hmade hbegun hbound hpause =>
      obtain ⟨hw, hbegins, hheard⟩ := hat.goesOn hd ht hcoherent
      rw [← hof.state] at hrunning hmade htally
      have hgoes : ControlRoom.Goes d.state (some x.most) _ true (alone d)
          (d.turn ControlRoom.program) :=
        ControlRoom.goes_program d.state d.now hw hwake hheard hrunning
      have hcounts := hgoes.counts
      rw [← hstate] at hcounts
      have hbegun' : (d :: h).countP (begins t) = made + 1 := by
        have hcons : (d :: h).countP (begins t) = h.countP (begins t) + d.body.beginsPass.toNat :=
          countP_cons_of_task _ ht
        rw [hcons, hbegun, hbegins]
        cases passing <;> rfl
      refine ⟨htally.step ht hcounts, ?_⟩
      cases hgoes.proceeds with
      | ends hturn hinterval hrunning' hcount =>
          refine stage_afterRound ht hturn hstate ?_ ?_ (hinterval.trans htally.interval)
            (hrunning'.trans hrunning) hbound hpause
          · exact hbegun'
          · rw [hcounts.completed, hcounts.failed]
            omega
      | goesOn hturn hcs hw' hgoes hrunning' hcount =>
          rw [← hstate] at hrunning'
          refine .underWay (.passing (History.latest_cons_self ht) hturn hcs hw' hgoes)
            (hrunning'.trans hrunning) ?_ ?_ hbound hpause
          · rw [hcounts.completed, hcounts.failed]
            omega
          · exact hbegun'

/-! ## Who makes passes -/

/-- Nobody else makes periodic passes. -/
def Unrivalled (t : TaskId) (o : Office) : Prop :=
  ∀ u j, Agenda.job? o u = some j → u ≠ t → j.2.IsManaged

/-- What a stint books and starts is managed work. -/
theorem isManaged_of_mem_jobs {d : Doing} (hd : d.body.IsAllowed) {j : Audience × Work}
    (hj : j ∈ d.jobs ControlRoom.program) : j.2.IsManaged := by
  rcases List.mem_append.mp hj with hj | hj
  · obtain ⟨m, hm, rfl⟩ := List.mem_map.mp hj
    exact (ControlRoom.isSubordinate_of_mem_appointments hd hm).isManaged
  · obtain ⟨b, hb, rfl⟩ := List.mem_map.mp hj
    exact (ControlRoom.isInner_of_child hd hb).1

theorem managed_of_callsFor {q : Request} {w : Work} (hw : o.CallsFor q w) : w.IsManaged := by
  cases hw <;> trivial

theorem Unrivalled.step (hunrivalled : Unrivalled t o) (hn : Agenda.Numbered o) {place : Nat}
    (hb : o.stepAt ControlRoom.program place = some o')
    (hallowed : ∀ d, o.stintAt? place = some d → d.body.IsAllowed) : Unrivalled t o' := by
  intro u j hj hu
  cases hs : o.stintAt? place with
  | none =>
      rcases job?_of_no_stint hs hb u with hsame | ⟨hgone, -⟩
      · exact hunrivalled u j (hsame.symm.trans hj) hu
      · exact nomatch hgone.symm.trans hj
  | some d =>
      cases comes_of_stint hn hs hb hj with
      | stays _ hj => exact hunrivalled u j hj hu
      | goesOn hd _ hbody =>
          have hmanaged := hunrivalled d.task _ (job?_of_stintAt hs) (hd ▸ hu)
          exact ControlRoom.closed_isManaged.keeps d.now d.state d.body d.wake .nobody hmanaged
            j.2 hbody
      | added _ hj => exact isManaged_of_mem_jobs (hallowed d hs) (List.mem_of_getElem? hj)

theorem Unrivalled.serve (hunrivalled : Unrivalled t o) (hn : Agenda.Numbered o) (q : Request) :
    Unrivalled t (serve o q) := by
  intro u j hj hu
  rcases (adding_serve hn q).cases hj with hj | hj
  · exact hunrivalled u j hj hu
  · exact managed_of_callsFor (callsFor_of_mem_begun hj)

theorem unrivalled_begin (ha : p.Run e a) : Unrivalled a.started (x.begin a) := by
  intro u j hj hu
  have hmanaged : Only (fun _ => Work.IsManaged) a :=
    (Agenda.Run.only ControlRoom.closed_isManaged (sound_idle _ _) outside_of_serve
      (fun _ _ h => nomatch h) managed_of_serve ha).1
  have hn : Agenda.Numbered ((x.newly a).adjustRounds fun r => { r with running := true }) :=
    ha.keeps.numbered
  have hstart := job?_start (u := u) hn (.fresh (.round (.row (some x.most) 0 true)) .caller)
  have hold : Agenda.job? a u = some j := by
    refine Eq.trans ?_ hj
    exact (hstart.trans (if_neg hu)).symm
  obtain ⟨q, hq, -, hbody⟩ := job?_eq_some.mp hold
  exact hbody ▸ hmanaged u q hq

/-- **Nobody else makes passes** while a row is made. -/
theorem Run.unrivalled (ha : p.Run e a) (hr : x.Run a h o) : Unrivalled a.started o := by
  induction hr with
  | idle => exact unrivalled_begin ha
  | step hr hb ih =>
      refine ih.step (Run.whole hr ha).keeps.numbered hb fun d hd => ?_
      have hafter : x.Whole p _ _ := (Run.whole hr ha).step hb
      exact (hafter.allowed.2 d (by rw [hd]; exact List.mem_cons_self)).1
  | @pass h b time hr _ _ ih =>
      intro u j hj hu
      rw [job?_passTo] at hj
      exact ih u j hj hu
  | serve hr hb ih =>
      obtain ⟨q, rfl⟩ := hb
      exact ih.serve (Run.whole hr ha).keeps.numbered q

/-! ## How far a run is -/

theorem poised_begin (hn : Agenda.Numbered a) : Poised (x.begin a) a.started
    (.fresh (.round (.row (some x.most) 0 true)) .caller) where
  process := by
    have hn' : Agenda.Numbered ((x.newly a).adjustRounds fun r => { r with running := true }) := hn
    refine (hn'.process?_start _ _).trans (if_pos rfl)
  begun := rfl
  waiting := rfl
  delay := rfl

/-- What others do in a step leaves the periodic passes as they are, and a row that waits for its
first turn. -/
theorem Run.beside (ha : p.Run e a) (hr : x.Run a h o) {place : Nat}
    (hb : o.stepAt ControlRoom.program place = some o')
    (hothers : ∀ d, o.stintAt? place = some d → d.task ≠ a.started) :
    o'.state.rounds = o.state.rounds ∧ ∀ q, Poised o a.started q → ¬ q.body.IsSubordinate →
      ∃ q', Poised o' a.started q' ∧ q.Told q' := by
  have hwhole := Run.whole hr ha
  have hn : Agenda.Numbered o := hwhole.keeps.numbered
  have hstate := state_of_stepAt hn hb
  constructor
  · cases hs : o.stintAt? place with
    | none =>
        rw [hs] at hstate
        exact congrArg ControlRoom.rounds hstate
    | some d =>
        rw [hs] at hstate
        have hmanaged := Run.unrivalled ha hr d.task _ (job?_of_stintAt hs) (hothers d hs)
        obtain ⟨-, -, q, -, hof⟩ := stintAt?_eq_some hs
        have hrounds := ControlRoom.rounds_program d.now d.state hmanaged d.wake
        exact (congrArg ControlRoom.rounds hstate).trans
          (hrounds.trans (congrArg ControlRoom.rounds hof.state))
  · intro q hq hbody
    rcases hq.step hn (hwhole.calm.unmarked _ q hq.process hbody) hb with ⟨d, hd, hof⟩ | hkept
    · exact absurd hof.task (hothers d hd)
    · exact hkept

/-- **How far a row is, and what is counted**, at any time while nobody tells it to stop. -/
theorem Run.stage (ha : p.Run e a) (hr : x.Run a h o)
    (hordinary : ∀ d ∈ h, d.task = a.started → d.wake ≠ .stopped .cancelled) :
    Tally x a.started h o.state.rounds ∧ Stage x a.started e h o := by
  induction hr with
  | idle =>
      have hnone : History.latest e a.started = none :=
        History.latest_eq_none.mpr fun s hs => Nat.ne_of_lt (ha.keeps.past s hs)
      exact ⟨⟨rfl, rfl, rfl⟩, .underWay (.poised (poised_begin ha.keeps.numbered) rfl hnone) rfl rfl
        rfl (Nat.le_max_left 1 _) (.inl rfl)⟩
  | @step h b c place hr hb ih =>
      obtain ⟨htally, hstage⟩ := ih fun d hd => hordinary d (List.mem_append_right _ hd)
      -- a stint of the row itself, or else one that touches no periodic passes, or none
      by_cases hown : ∃ d, b.stintAt? place = some d ∧ d.task = a.started
      · obtain ⟨d, hs, ht⟩ := hown
        have hn : Agenda.Numbered b := (Run.whole hr ha).keeps.numbered
        have hafter : x.Whole p _ c := (Run.whole hr ha).step hb
        rw [hs] at hafter hordinary ⊢
        exact hstage.step htally hs hb hn ht hafter.keeps.coherent
          (hordinary d List.mem_cons_self ht)
      · have hothers : ∀ d, b.stintAt? place = some d → d.task ≠ a.started :=
          fun d hd ht => hown ⟨d, hd, ht⟩
        obtain ⟨hrounds, hpoised⟩ := Run.beside ha hr hb hothers
        have hds : ∀ d ∈ (b.stintAt? place).toList, d.task ≠ a.started :=
          fun d hd => hothers d (Option.mem_toList.mp hd)
        exact ⟨hrounds ▸ htally.frame hds, hstage.frame hds hrounds hpoised⟩
  | @pass h b time hr hready _ ih =>
      obtain ⟨htally, hstage⟩ := ih hordinary
      have hsound := (Run.whole hr ha).keeps
      have hrounds : (b.passTo time).state.rounds = b.state.rounds :=
        congrArg ControlRoom.rounds (state_passTo b time)
      refine ⟨hrounds ▸ htally, hstage.stays hrounds fun q hq _ => ?_⟩
      exact absurd hq.waiting (hsound.not_queued hready hq.process _)
  | @serve h b c hr hb ih =>
      obtain ⟨htally, hstage⟩ := ih hordinary
      have hn : Agenda.Numbered b := (Run.whole hr ha).keeps.numbered
      obtain ⟨s, hs⟩ := outside_of_serve hn hb
      obtain ⟨q, rfl⟩ := hb
      have hrounds := rounds_serve hn q
      refine ⟨hrounds ▸ htally, hstage.stays hrounds fun q hq _ => ?_⟩
      obtain ⟨q', hq', htold⟩ := hs.kept (p := q) hq.process
      exact ⟨q', hq.told hq' htold, htold⟩

/-! ## How a row comes to its end -/

theorem Stage.begun_le (hstage : Stage x t e h o) : h.countP (begins t) ≤ max 1 x.most := by
  cases hstage with
  | @underWay made passing _ _ _ hbegun hbound _ =>
      rw [hbegun]
      exact Nat.le_trans (Nat.add_le_add_left passing.toNat_le made) hbound
  | returned _ _ _ _ hbegun hy =>
      rw [hbegun]
      cases hy with
      | last hmade => exact Nat.le_of_eq hmade
      | unable hmade _ _ => exact Nat.le_trans (Nat.le_of_eq hmade) (Nat.le_max_left 1 _)

/-- A row that has returned. -/
theorem Stage.of_ends (hstage : Stage x t e h o)
    (hcoherent : History.Coherent ControlRoom.program (h ++ e)) {f : Doing} (hf : f ∈ h)
    (hft : f.task = t) {y : Outcome Yield} (hy : f.Ends ControlRoom.program y) :
    o.state.rounds.running = false ∧
      o.state.rounds.completed + o.state.rounds.failed = h.countP (begins t) ∧
      x.EndsWith (h.countP (begins t)) y := by
  have hlatest := hcoherent.latest_of_ends (List.mem_append_left e hf) hy
  rw [hft] at hlatest
  cases hstage with
  | underWay hat _ _ _ _ _ =>
      cases hat with
      | poised _ _ hnone => exact nomatch hnone.symm.trans hlatest
      | pausing hl hnext =>
          obtain rfl := Option.some.inj (hl.symm.trans hlatest)
          exact nomatch hnext.symm.trans hy
      | passing hl hnext _ _ _ =>
          obtain rfl := Option.some.inj (hl.symm.trans hlatest)
          exact nomatch hnext.symm.trans hy
  | returned hg hgt hends hrunning hbegun hy' =>
      obtain rfl := hcoherent.ends_unique (List.mem_append_left e hg) (List.mem_append_left e hf)
        hends hy (hgt.trans hft.symm)
      obtain rfl := Next.finish.inj (hends.symm.trans hy)
      rw [hbegun]
      exact ⟨hrunning, rfl, hy'⟩

/-- **A row comes to its end** unless somebody sleeps: while it is under way, a turn is due, a pause
lasts, or a task sleeps for which one of its passes waits. -/
theorem Stage.ends_or_sleeps (hstage : Stage x a.started e h o) (hwhole : x.Whole p (h ++ e) o)
    (hready : o.ready = []) :
    (∃ f ∈ h, f.task = a.started ∧ ∃ y, f.Ends ControlRoom.program y) ∨
      ∃ u q, o.process? u = some q ∧ q.waiting = .asleep := by
  have hsound := hwhole.keeps
  have hliving : ∀ l, History.latest (h ++ e) a.started = some l →
      (l.turn ControlRoom.program).next.body? ≠ none → ∃ q, o.process? a.started = some q := by
    intro l hl hbody
    refine Option.ne_none_iff_exists'.mp fun hgone => ?_
    obtain ⟨y, hy⟩ := (hsound.living _ nofun l hl).mp hgone
    exact hbody (congrArg Next.body? hy)
  cases hstage with
  | returned hf hft hends _ _ _ => exact .inl ⟨_, hf, hft, _, hends⟩
  | underWay hat _ _ _ _ _ =>
      refine .inr ?_
      cases hat with
      | poised hq _ _ => exact absurd hq.waiting (hsound.not_queued hready hq.process _)
      | pausing hl hnext =>
          obtain ⟨q, hq⟩ := hliving _ hl (by rw [hnext]; exact nofun)
          have hstands := hsound.stands _ nofun q hq
          unfold Stands at hstands
          rw [hl] at hstands
          cases hstands.2.2 with
          | queued hw _ => exact absurd hw (hsound.not_queued hready hq _)
          | asleep hw _ => exact ⟨_, q, hq, hw⟩
          | collecting _ hs => exact nomatch hnext.symm.trans hs
          | awaiting _ hs => exact nomatch hnext.symm.trans hs
          | gathering _ hs _ _ => exact nomatch hnext.symm.trans hs
      | @passing _ l _ _ hl hnext hcs _ _ =>
          obtain ⟨q, hq⟩ := hliving l hl (by rw [hnext]; exact nofun)
          have hne : l.childIds ControlRoom.program ≠ [] := by
            unfold Stint.childIds
            rw [hnext]
            exact fun hnil => hcs (List.length_eq_zero_iff.mp (List.range'_eq_nil_iff.mp hnil))
          obtain ⟨c, -, r, hr, haudience⟩ :=
            hwhole.attentive.exists_waited hsound hready hq hl hnext hne
          exact hwhole.exists_asleep hready hr haudience

/-- **A row makes its passes, and counts them.** Whatever else is asked for meanwhile and in whatever
order the turns are taken, the counts of a row that is not told to stop are those of its passes that
have succeeded and failed, and it begins no more passes than it may, or one if it may make none.
When it returns nobody makes passes any longer, each pass that has begun is counted, and these are
as many as it may make, unless no pause can be made of its interval. It returns unless somebody
sleeps. -/
theorem Run.makes_its_passes (ha : p.Run e a) (hr : x.Run a h o)
    (hordinary : ∀ d ∈ h, d.task = a.started → d.wake ≠ .stopped .cancelled) :
    o.state.rounds.completed = h.countP (succeeds a.started) ∧
      o.state.rounds.failed = h.countP (fails a.started) ∧
      h.countP (begins a.started) ≤ max 1 x.most ∧
      (∀ f ∈ h, f.task = a.started → ∀ y, f.Ends ControlRoom.program y →
        o.state.rounds.running = false ∧
        o.state.rounds.completed + o.state.rounds.failed = h.countP (begins a.started) ∧
        x.EndsWith (h.countP (begins a.started)) y) ∧
      (o.ready = [] → (∃ f ∈ h, f.task = a.started ∧ ∃ y, f.Ends ControlRoom.program y) ∨
        ∃ u q, o.process? u = some q ∧ q.waiting = .asleep) := by
  have hwhole := Run.whole hr ha
  obtain ⟨htally, hstage⟩ := Run.stage ha hr hordinary
  refine ⟨htally.completed, htally.failed, hstage.begun_le, fun f hf hft y hy => ?_,
    hstage.ends_or_sleeps hwhole⟩
  exact hstage.of_ends hwhole.keeps.coherent hf hft hy

/-! ## Two rows -/

namespace Sample

open Office.Sample

/-- The first snapshot cannot be fetched, and the ward is too warm in all others. -/
def shaky : SnapshotSource :=
  fun n _ => if n = 0 then .error .unreachable else .ok snapshot

/-- An office with a configuration. -/
def attended : Past × Office :=
  (premises fun _ => .ok ⟨true, .null, none, none⟩).play
    [.ask (.addConfiguration (configuration "ward" .standard none))]

theorem run_attended : (premises fun _ => .ok ⟨true, .null, none, none⟩).Run attended.1 attended.2 :=
  Premises.run_play _ _

/-- A row of passes that follow each other without a pause. -/
def row (most : Nat) : Row :=
  ⟨shaky, .whole 0, most⟩

/-- The row is asked for and makes its turns. -/
def under (most turns : Nat) : Past × Office :=
  (List.replicate turns (.turn 0)).foldl Move.after ([], (row most).begin attended.2)

theorem run_under (most turns : Nat) :
    (row most).Run attended.2 (under most turns).1 (under most turns).2 := by
  refine run_after (x := ([], _)) (fun q hq => ?_) .idle
  have hturn : Move.ask q = .turn 0 := List.eq_of_mem_replicate hq
  exact nomatch hturn

/-- The task is told to stop. -/
def isTold (d : Doing) : Bool :=
  match d.wake with
  | .stopped .cancelled => true
  | _ => false

theorem ordinary_of_isTold {k : Past} (hk : (k.any isTold) = false) (t : TaskId) :
    ∀ d ∈ k, d.task = t → d.wake ≠ .stopped .cancelled := by
  intro d hd _ hwake
  have htold : isTold d = true := by
    unfold isTold
    rw [hwake]
  exact List.any_eq_false.mp hk d hd htold

/-- Some stint ends the task with a result. -/
def returns (t : TaskId) (k : Past) : Bool :=
  k.any (isOf t fun d => (d.turn ControlRoom.program).next.isResult)

theorem exists_ends {t : TaskId} {k : Past} (hk : returns t k = true) :
    ∃ f ∈ k, f.task = t ∧ ∃ y, f.Ends ControlRoom.program (.ok y) := by
  obtain ⟨f, hf, hboth⟩ := List.any_eq_true.mp hk
  obtain ⟨hft, hresult⟩ := Bool.and_eq_true_iff.mp hboth
  exact ⟨f, hf, of_decide_eq_true hft, Next.exists_of_isResult hresult⟩

end Sample

set_option maxRecDepth 100000 in
/-- Of two passes the first one fails and the second one succeeds, and both are counted. -/
theorem makes_its_passes_shaky :
    (∀ d ∈ (Sample.under 2 11).1, d.task = Sample.attended.2.started →
        d.wake ≠ .stopped .cancelled) ∧
      (∃ f ∈ (Sample.under 2 11).1, f.task = Sample.attended.2.started ∧
        f.Ends ControlRoom.program (.ok (.names []))) ∧
      (Sample.under 2 11).1.countP (begins Sample.attended.2.started) = 2 ∧
      (Sample.under 2 11).1.countP (succeeds Sample.attended.2.started) = 1 ∧
      (Sample.under 2 11).1.countP (fails Sample.attended.2.started) = 1 ∧
      (Sample.under 2 11).2.state.rounds.completed = 1 ∧
      (Sample.under 2 11).2.state.rounds.failed = 1 ∧
      (Sample.under 2 11).2.state.rounds.running = false := by
  have hordinary := Sample.ordinary_of_isTold
    (show (Sample.under 2 11).1.any Sample.isTold = false by decide +kernel)
    Sample.attended.2.started
  have hcompleted : (Sample.under 2 11).2.state.rounds.completed = 1 := by decide +kernel
  have hfailed : (Sample.under 2 11).2.state.rounds.failed = 1 := by decide +kernel
  obtain ⟨hsucceeds, hfails, -, hreturns, -⟩ :=
    Run.makes_its_passes Sample.run_attended (Sample.run_under 2 11) hordinary
  obtain ⟨f, hf, hft, y, hy⟩ := Sample.exists_ends
    (show Sample.returns Sample.attended.2.started (Sample.under 2 11).1 = true by decide +kernel)
  obtain ⟨hrunning, hbegun, hends⟩ := hreturns f hf hft _ hy
  rw [hcompleted, hfailed] at hbegun
  refine ⟨hordinary, ⟨f, hf, hft, ?_⟩, hbegun.symm, hsucceeds.symm.trans hcompleted,
    hfails.symm.trans hfailed, hcompleted, hfailed, hrunning⟩
  cases hends
  exact hy

set_option maxRecDepth 100000 in
/-- A row of no passes makes one. -/
theorem not_as_many_as_asked :
    ¬ ∀ (x : Row) (p : Premises) (e h : Past) (a o : Office), p.Run e a → x.Run a h o →
      (∀ d ∈ h, d.task = a.started → d.wake ≠ .stopped .cancelled) →
      ∀ f ∈ h, f.task = a.started → ∀ y, f.Ends ControlRoom.program y →
        h.countP (begins a.started) = x.most ∧
          o.state.rounds.completed + o.state.rounds.failed = x.most := by
  intro hall
  have hordinary := Sample.ordinary_of_isTold
    (show (Sample.under 0 1).1.any Sample.isTold = false by decide +kernel)
    Sample.attended.2.started
  have hbegun : (Sample.under 0 1).1.countP (begins Sample.attended.2.started) = 1 := by
    decide +kernel
  obtain ⟨f, hf, hft, y, hy⟩ := Sample.exists_ends
    (show Sample.returns Sample.attended.2.started (Sample.under 0 1).1 = true by decide +kernel)
  have hnone := (hall _ _ _ _ _ _ Sample.run_attended (Sample.run_under 0 1) hordinary f hf hft _
    hy).1
  exact absurd (hbegun.symm.trans hnone) Nat.one_ne_zero

end Row

end Office

end BuildingAlerts
