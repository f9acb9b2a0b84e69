/-
How a pass of a row goes.

A pass of a row does what the same pass does that is made alone, and the row goes on from its end:
to a pause before the next pass, or to its own end. A pass that fails is counted as such, and ends
the row no sooner than one that succeeds. Nothing else that the room does touches the periodic
passes.
-/
import BuildingAlerts.Proofs.ControlRoom.Levels
import BuildingAlerts.Proofs.ControlRoom.Listening

set_option autoImplicit false

namespace BuildingAlerts

open Agenda

namespace Next

variable {β ρ : Type}

/-- It has ended with a result. -/
def isResult : Next β ρ → Bool
  | .finish (.ok _) => true
  | _ => false

theorem exists_of_isResult {n : Next β ρ} (hn : n.isResult = true) :
    ∃ y, n = .finish (.ok y) := by
  cases n with
  | finish y =>
      cases y with
      | ok y => exact ⟨y, rfl⟩
      | error st => exact absurd hn Bool.false_ne_true
  | _ => exact absurd hn Bool.false_ne_true

/-- It has ended with a fault. -/
def isFault : Next β ρ → Bool
  | .finish (.error (.failed _)) => true
  | _ => false

end Next

namespace Work

/-- Work of periodic passes. -/
inductive IsFor (p : PassFor) : Work → Prop where
  | round : IsFor p (.round p)
  | interval : IsFor p (.interval p)
  | evaluating (known : List String) : IsFor p (.evaluating p known)
  | notifying (found : List String) : IsFor p (.notifying p found)

/-- Work of a row of passes. -/
def IsOfRow (w : Work) : Prop :=
  ∃ most made awaited, w.IsFor (.row most made awaited)

/-- The same work for a pass that is made alone. -/
def alone : Work → Work
  | .round _ => .round .single
  | .interval _ => .interval .single
  | .evaluating _ known => .evaluating .single known
  | .notifying _ found => .notifying .single found
  | w => w

/-- A pass begins with such work. -/
def beginsPass : Work → Bool
  | .round _ | .interval _ => true
  | _ => false

/-- Work that only tasks do that another one started. -/
def IsInner (w : Work) : Prop :=
  w.IsManaged ∧ ¬ w.IsOuter

/-- Work that comes of requests and of rows of passes. -/
def IsAllowed (w : Work) : Prop :=
  w.IsManaged ∨ w.IsOfRow

/-- Which of it is done for whom. -/
def IsAllowedFor (w : Work) (v : Audience) : Prop :=
  w.IsAllowed ∧ ((∃ t, v = .task t) → w.IsInner)

theorem IsOfRow.not_isSubordinate {w : Work} (hw : w.IsOfRow) : ¬ w.IsSubordinate := by
  obtain ⟨most, made, awaited, hw⟩ := hw
  cases hw <;> exact id

theorem IsOfRow.not_isFirst {w : Work} (hw : w.IsOfRow) : ¬ w.IsFirst := by
  obtain ⟨most, made, awaited, hw⟩ := hw
  cases hw <;> exact id

/-- Tasks that another one started go on with inner work. -/
theorem Leads.isInner {w : Work} {n : Next Work Yield} (hn : w.Leads n) (hw : ¬ w.IsOuter)
    {b : Work} (hb : n.body? = some b) : b.IsInner := by
  cases hn with
  | finish o => exact nomatch hb
  | evaluating | notifying | retrying | escalating => exact absurd trivial hw
  | collecting | awaiting | sending | lapsing =>
      obtain rfl := Option.some.inj hb
      exact ⟨trivial, id⟩

/-- Whoever waits for the next of its tasks to end listens to them. -/
theorem Leads.isCollecting_of_await {w b : Work} (hn : w.Leads (.await b)) : b.IsCollecting := by
  cases hn
  trivial

/-- Only tasks that no other one started wait for all that they have started. -/
theorem Leads.isOuter_of_gather {w b : Work} {cs : List Work} (hn : w.Leads (.gather cs b)) :
    w.IsOuter := by
  cases hn <;> trivial

/-- Tasks are started for inner work. -/
theorem Leads.isInner_of_child {w : Work} {n : Next Work Yield} (hn : w.Leads n) {b : Work}
    (hb : b ∈ n.children) : b.IsInner := by
  cases hn with
  | evaluating | notifying | collecting | retrying | escalating =>
      obtain ⟨x, -, rfl⟩ := List.mem_map.mp hb
      exact ⟨trivial, id⟩
  | _ => exact absurd hb List.not_mem_nil

end Work

namespace ControlRoom

/-! ## Passes of a row and passes that are made alone -/

/-- What a pass of a row does in a turn, told by what the same pass does that is made alone: it has
succeeded or failed and the row goes on after it, or it goes on itself. -/
inductive Goes (c : ControlRoom) (most : Option Int) (made : Nat) (awaited : Bool)
    (single turn : Stretch) : Prop where
  | succeeds {ids : List String} (hsingle : single.next = .finish (.ok (.names ids)))
      (hrounds : single.state.rounds = { c.rounds with
        fetched := single.state.rounds.fetched, completed := c.rounds.completed + 1 })
      (hturn : turn = single.state.afterRound most made awaited)
  | fails {f : Fault} (hsingle : single.next = .finish (.error (.failed f)))
      (hrounds : single.state.rounds = { c.rounds with fetched := single.state.rounds.fetched })
      (hturn : turn = (single.state.adjustRounds fun r => { r with failed := r.failed + 1 }).afterRound
        most made awaited)
  | goesOn {cs : List Work} {w : Work} (hsingle : single.next = .gather cs w.alone)
      (hrounds : single.state.rounds = { c.rounds with fetched := single.state.rounds.fetched })
      (hw : w.IsFor (.row most made awaited)) (hgoes : w.beginsPass = false) (hcs : cs ≠ [])
      (hinner : ∀ v ∈ cs, v.IsInner) (hturn : turn = ⟨single.state, [], .gather cs w⟩)

section

variable (c : ControlRoom) (most : Option Int) (made : Nat) (awaited : Bool)

theorem goes_stopPass (f : Fault) : Goes c most made awaited (c.stopPass .single (.failed f))
    (c.stopPass (.row most made awaited) (.failed f)) :=
  .fails rfl rfl rfl

theorem goes_endPass (found : List String) :
    Goes c most made awaited (c.endPass .single found) (c.endPass (.row most made awaited) found) :=
  .succeeds rfl rfl rfl

theorem goes_announce (known found : List String) :
    Goes c most made awaited (c.announce .single known found)
      (c.announce (.row most made awaited) known found) := by
  unfold announce
  generalize firsts (found.filter fun id => !known.contains id) = new
  cases new with
  | nil => exact goes_endPass c most made awaited []
  | cons x xs =>
      refine .goesOn (w := .notifying (.row most made awaited) (x :: xs)) rfl rfl (.notifying _) rfl
        (List.cons_ne_nil _ _) (fun v hv => ?_) rfl
      obtain ⟨r, -, rfl⟩ := List.mem_map.mp hv
      exact ⟨trivial, id⟩

theorem goes_beginPass (s : Snapshot) :
    Goes c most made awaited (c.beginPass .single s) (c.beginPass (.row most made awaited) s) := by
  unfold beginPass
  dsimp only
  split
  · exact goes_stopPass c most made awaited _
  · split
    · exact goes_announce c most made awaited _ []
    · rename_i bs hne
      refine .goesOn (w := .evaluating (.row most made awaited) _) rfl rfl (.evaluating _) rfl
        (fun hnil => hne (List.map_eq_nil_iff.mp hnil)) (fun v hv => ?_) rfl
      obtain ⟨b, -, rfl⟩ := List.mem_map.mp hv
      exact ⟨trivial, id⟩

/-- That a snapshot was fetched is all that a pass leaves of its beginning. -/
theorem Goes.of_fetched {n : Nat} {single turn : Stretch}
    (h : Goes (c.adjustRounds fun r => { r with fetched := n }) most made awaited single turn) :
    Goes c most made awaited single turn := by
  cases h with
  | succeeds hsingle hrounds hturn => exact .succeeds hsingle hrounds hturn
  | fails hsingle hrounds hturn => exact .fails hsingle hrounds hturn
  | goesOn hsingle hrounds hw hgoes hcs hinner hturn =>
      exact .goesOn hsingle hrounds hw hgoes hcs hinner hturn

theorem goes_beginRound (now : Moment) :
    Goes c most made awaited (c.beginRound now .single)
      (c.beginRound now (.row most made awaited)) := by
  unfold beginRound
  dsimp only
  split
  · exact (goes_stopPass _ most made awaited _).of_fetched
  · exact (goes_beginPass _ most made awaited _).of_fetched

theorem nextRound_row (now : Moment) : c.nextRound now (.row most made awaited)
    = if c.rounds.running then c.beginRound now (.row most made awaited) else c.endRow awaited :=
  rfl

theorem goes_nextRound (now : Moment) (hrunning : c.rounds.running = true) :
    Goes c most made awaited (c.nextRound now .single)
      (c.nextRound now (.row most made awaited)) := by
  rw [nextRound_row, if_pos hrunning]
  exact goes_beginRound c most made awaited now

variable {most made awaited}

/-- **A pass of a row goes as a pass does that is made alone**, unless it is told to stop, it is
told of something else than what it waits for, or nobody makes passes any longer. -/
theorem goes_program (now : Instant) {w : Work} (hw : w.IsFor (.row most made awaited))
    {wake : Wake Yield} (hwake : wake ≠ .stopped .cancelled)
    (hheard : w.beginsPass = true ∨ (∃ ys, wake = .gathered ys) ∨ ∃ st, wake = .stopped st)
    (hrunning : c.rounds.running = true) :
    Goes c most made awaited (program now c w.alone wake) (program now c w wake) := by
  have hstop : ∀ f, Goes c most made awaited (c.stopWork (.failed f) w.alone)
      (c.stopWork (.failed f) w) := by
    intro f
    cases hw <;> exact goes_stopPass c most made awaited f
  unfold program
  split
  · rename_i now _
    cases wake with
    | stopped st =>
        cases st with
        | failed f => cases hw <;> exact hstop f
        | cancelled => exact absurd rfl hwake
    | gathered ys =>
        cases hw with
        | round => exact goes_beginRound c most made awaited now
        | interval => exact goes_nextRound c most made awaited now hrunning
        | evaluating known => exact goes_announce c most made awaited known _
        | notifying found => exact goes_endPass c most made awaited found
    | _ =>
        cases hw with
        | round => exact goes_beginRound c most made awaited now
        | interval => exact goes_nextRound c most made awaited now hrunning
        | evaluating | notifying =>
            rcases hheard with h | ⟨ys, h⟩ | ⟨st, h⟩
            · exact nomatch h
            · exact nomatch h
            · exact nomatch h
  · exact hstop _

end

/-! ## Between two passes -/

/-- After a pass a row ends, or it pauses before the next one. -/
theorem afterRound_cases (c : ControlRoom) (most : Option Int) (made : Nat) (awaited : Bool) :
    most.any (· ≤ ((made + 1 : Nat) : Int)) = true ∧
        c.afterRound most made awaited = c.endRow awaited ∨
      most.any (· ≤ ((made + 1 : Nat) : Int)) = false ∧ Delay.of? c.rounds.interval = none ∧
        c.afterRound most made awaited = (c.leaveRow awaited).fail .outOfBounds ∨
      ∃ d, most.any (· ≤ ((made + 1 : Nat) : Int)) = false ∧
        Delay.of? c.rounds.interval = some d ∧ c.afterRound most made awaited
          = c.goOn (.sleep d .endless (.interval (.row most (made + 1) awaited))) := by
  unfold afterRound
  dsimp only
  split
  · rename_i hmost
    exact .inl ⟨hmost, rfl⟩
  · rename_i hmost
    refine .inr ?_
    split
    · rename_i hnone
      exact .inl ⟨Bool.not_eq_true _ ▸ hmost, hnone, rfl⟩
    · rename_i d hd
      exact .inr ⟨d, Bool.not_eq_true _ ▸ hmost, hd, rfl⟩

/-! ## What a stint of a row counts -/

section

/-- What becomes of the counts where a pass that is made alone goes on so. -/
structure Counted (before after : Rounds) (n : Next Work Yield) : Prop where
  interval : after.interval = before.interval
  completed : after.completed = before.completed + n.isResult.toNat
  failed : after.failed = before.failed + n.isFault.toNat

variable {c : ControlRoom} {most : Option Int} {made : Nat} {awaited : Bool} {single turn : Stretch}

/-- Nothing more is counted after a pass, whether the row ends or pauses. -/
theorem Counted.afterRound {before : Rounds} {n : Next Work Yield} (h : Counted before c.rounds n)
    (most : Option Int) (made : Nat) (awaited : Bool) :
    Counted before (c.afterRound most made awaited).state.rounds n := by
  have hleave : Counted before (c.leaveRow awaited).rounds n := by
    unfold leaveRow
    cases awaited with
    | false => exact h
    | true => exact ⟨h.interval, h.completed, h.failed⟩
  rcases afterRound_cases c most made awaited with ⟨-, hafter⟩ | ⟨-, -, hafter⟩ | ⟨d, -, -, hafter⟩
  · rw [hafter]
    exact hleave
  · rw [hafter]
    exact hleave
  · rw [hafter]
    exact h

/-- **Each pass is counted where it ends**, by how it ends. -/
theorem Goes.counts (h : Goes c most made awaited single turn) :
    Counted c.rounds turn.state.rounds single.next := by
  cases h with
  | succeeds hsingle hrounds hturn =>
      rw [hturn, hsingle]
      refine Counted.afterRound ?_ most made awaited
      rw [hrounds]
      exact ⟨rfl, rfl, rfl⟩
  | fails hsingle hrounds hturn =>
      rw [hturn, hsingle]
      refine Counted.afterRound ?_ most made awaited
      show Counted c.rounds { single.state.rounds with failed := single.state.rounds.failed + 1 } _
      rw [hrounds]
      exact ⟨rfl, rfl, rfl⟩
  | goesOn hsingle hrounds _ _ _ _ hturn =>
      rw [hturn, hsingle, hrounds]
      exact ⟨rfl, rfl, rfl⟩

/-- With a stint a pass ends, and the row goes on after it, or it goes on itself. -/
inductive Proceeds (c : ControlRoom) (most : Option Int) (made : Nat) (awaited : Bool)
    (single turn : Stretch) : Prop where
  | ends {d : ControlRoom} (hturn : turn = d.afterRound most made awaited)
      (hinterval : d.rounds.interval = c.rounds.interval)
      (hrunning : d.rounds.running = c.rounds.running)
      (hcount : single.next.isResult.toNat + single.next.isFault.toNat = 1)
  | goesOn {cs : List Work} {w : Work} (hturn : turn.next = .gather cs w) (hcs : cs ≠ [])
      (hw : w.IsFor (.row most made awaited)) (hgoes : w.beginsPass = false)
      (hrunning : turn.state.rounds.running = c.rounds.running)
      (hcount : single.next.isResult.toNat + single.next.isFault.toNat = 0)

theorem Goes.proceeds (h : Goes c most made awaited single turn) :
    Proceeds c most made awaited single turn := by
  cases h with
  | succeeds hsingle hrounds hturn =>
      refine .ends hturn (congrArg (·.interval) hrounds) (congrArg (·.running) hrounds) ?_
      rw [hsingle]
      rfl
  | fails hsingle hrounds hturn =>
      refine .ends hturn (congrArg (·.interval) hrounds) (congrArg (·.running) hrounds) ?_
      rw [hsingle]
      rfl
  | goesOn hsingle hrounds hw hgoes hcs _ hturn =>
      subst hturn
      refine .goesOn rfl hcs hw hgoes (congrArg (·.running) hrounds) ?_
      rw [hsingle]
      rfl

end

/-! ## What a row leads to -/

/-- What a turn of a row leads to: its end, a pause, or the rest of a pass. -/
inductive RowLeads : Next Work Yield → Prop where
  | finish (o : Outcome Yield) : RowLeads (.finish o)
  | pausing (d : Delay) (most : Option Int) (made : Nat) (awaited : Bool) :
      RowLeads (.sleep d .endless (.interval (.row most made awaited)))
  | passing {cs : List Work} {w : Work} (hw : w.IsOfRow) (hgoes : w.beginsPass = false)
      (hcs : cs ≠ []) (hinner : ∀ v ∈ cs, v.IsInner) : RowLeads (.gather cs w)

/-- A row books nothing. -/
structure RowShaped (s : Stretch) : Prop where
  appointments : s.appointments = []
  next : RowLeads s.next

theorem rowShaped_done (c : ControlRoom) (ids : List String) : RowShaped (c.done ids) :=
  ⟨rfl, .finish _⟩

theorem rowShaped_afterRound (c : ControlRoom) (most : Option Int) (made : Nat) (awaited : Bool) :
    RowShaped (c.afterRound most made awaited) := by
  rcases afterRound_cases c most made awaited with ⟨-, h⟩ | ⟨-, -, h⟩ | ⟨d, -, -, h⟩
  · rw [h]
    exact rowShaped_done _ []
  · rw [h]
    exact ⟨rfl, .finish _⟩
  · rw [h]
    exact ⟨rfl, .pausing d most (made + 1) awaited⟩

theorem Goes.rowShaped {c : ControlRoom} {most : Option Int} {made : Nat} {awaited : Bool}
    {single turn : Stretch} (h : Goes c most made awaited single turn) : RowShaped turn := by
  cases h with
  | succeeds _ _ hturn => exact hturn ▸ rowShaped_afterRound _ _ _ _
  | fails _ _ hturn => exact hturn ▸ rowShaped_afterRound _ _ _ _
  | goesOn _ _ hw hgoes hcs hinner hturn =>
      exact hturn ▸ ⟨rfl, .passing ⟨_, _, _, hw⟩ hgoes hcs hinner⟩

/-- **What a row leads to**, whatever it goes on for. -/
theorem rowShaped_program (now : Instant) (c : ControlRoom) {w : Work} (hw : w.IsOfRow)
    (wake : Wake Yield) : RowShaped (program now c w wake) := by
  obtain ⟨most, made, awaited, hw⟩ := hw
  have hstop : ∀ st, RowShaped (c.stopWork st w) := by
    intro st
    cases st with
    | failed f => cases hw <;> exact (goes_stopPass c most made awaited f).rowShaped
    | cancelled => cases hw <;> exact rowShaped_done _ []
  have hmismatch : RowShaped (c.stop .cancelled) := ⟨rfl, .finish _⟩
  unfold program
  split
  · rename_i now _
    cases hw with
    | round =>
        cases wake with
        | stopped st => exact hstop st
        | _ => exact (goes_beginRound c most made awaited now).rowShaped
    | interval =>
        cases wake with
        | stopped st => exact hstop st
        | _ =>
            show RowShaped (c.nextRound now (.row most made awaited))
            rw [nextRound_row]
            split
            · exact (goes_beginRound c most made awaited now).rowShaped
            · exact rowShaped_done _ []
    | evaluating known =>
        cases wake with
        | stopped st => exact hstop st
        | gathered ys => exact (goes_announce c most made awaited known _).rowShaped
        | _ => exact hmismatch
    | notifying found =>
        cases wake with
        | stopped st => exact hstop st
        | gathered ys => exact (goes_endPass c most made awaited found).rowShaped
        | _ => exact hmismatch
  · exact hstop _

/-! ## Kinds of work -/

theorem RowLeads.isOfRow {n : Next Work Yield} (hn : RowLeads n) {b : Work}
    (hb : n.body? = some b) : b.IsOfRow := by
  cases hn with
  | finish o => exact nomatch hb
  | pausing d most made awaited =>
      obtain rfl := Option.some.inj hb
      exact ⟨most, made, awaited, .interval⟩
  | passing hw =>
      obtain rfl := Option.some.inj hb
      exact hw

theorem RowLeads.isInner_of_child {n : Next Work Yield} (hn : RowLeads n) {b : Work}
    (hb : b ∈ n.children) : b.IsInner := by
  cases hn with
  | passing _ _ _ hinner => exact hinner b hb
  | _ => exact absurd hb List.not_mem_nil

/-- Tasks are started for inner work, by passes of a row too. -/
theorem isInner_of_child {now : Instant} {c : ControlRoom} {w : Work} (hw : w.IsAllowed)
    {wake : Wake Yield} {b : Work} (hb : b ∈ (program now c w wake).next.children) : b.IsInner := by
  rcases hw with hw | hw
  · exact (shaped_program now c hw wake).next.isInner_of_child hb
  · exact (rowShaped_program now c hw wake).next.isInner_of_child hb

/-- Work with which tasks begin is not gone on with, by passes of a row neither. -/
theorem not_isFirst_of_body? {now : Instant} {c : ControlRoom} {w : Work} (hw : w.IsAllowed)
    {wake : Wake Yield} {b : Work} (hb : (program now c w wake).next.body? = some b) :
    ¬ b.IsFirst := by
  rcases hw with hw | hw
  · exact (shaped_program now c hw wake).next.not_isFirst hb
  · exact ((rowShaped_program now c hw wake).next.isOfRow hb).not_isFirst

theorem isSubordinate_of_mem_appointments {now : Instant} {c : ControlRoom} {w : Work}
    (hw : w.IsAllowed) {wake : Wake Yield} {m : Appointment Work}
    (hm : m ∈ (program now c w wake).appointments) : m.body.IsSubordinate := by
  rcases hw with hw | hw
  · exact ((shaped_program now c hw wake).booked m hm).isSubordinate
  · rw [(rowShaped_program now c hw wake).appointments] at hm
    exact absurd hm List.not_mem_nil

theorem closed_isAllowed : Agenda.Closed program fun _ => Work.IsAllowed where
  booked := fun _ _ _ _ _ hw _ hm => .inl (isSubordinate_of_mem_appointments hw hm).isManaged
  keeps := by
    intro now c w wake v hw b hb
    rcases hw with hw | hw
    · exact .inl (closed_isManaged.keeps now c w wake v hw b hb)
    · exact .inr ((rowShaped_program now c hw wake).next.isOfRow hb)
  children := fun _ _ _ _ _ hw _ hb _ => .inl (isInner_of_child hw hb).1

/-- Tasks that another one started do inner work. -/
theorem closed_isAllowedFor : Agenda.Closed program fun v w => w.IsAllowedFor v where
  booked := fun now c w wake v hw m hm =>
    ⟨closed_isAllowed.booked now c w wake v hw.1 m hm, fun ⟨_, h⟩ => nomatch h⟩
  keeps := by
    intro now c w wake v hw b hb
    refine ⟨closed_isAllowed.keeps now c w wake v hw.1 b hb, fun hv => ?_⟩
    obtain ⟨hmanaged, houter⟩ := hw.2 hv
    exact (shaped_program now c hmanaged wake).next.isInner houter hb
  children := fun now c w wake v hw b hb t =>
    ⟨closed_isAllowed.children now c w wake v hw.1 b hb t, fun _ => isInner_of_child hw.1 hb⟩

/-- Rows stay apart from work that is booked. -/
theorem divides_isAllowed : Agenda.Divides program Work.IsAllowed Work.IsSubordinate where
  booked := fun _ _ _ _ hw _ hm => isSubordinate_of_mem_appointments hw hm
  keeps := by
    intro now c w wake hw b hb
    rcases hw with hw | hw
    · exact divides_isSubordinate.keeps now c w wake hw b hb
    · have hrow := (rowShaped_program now c hw wake).next.isOfRow hb
      exact iff_of_false hrow.not_isSubordinate hw.not_isSubordinate
  children := fun now c w wake hw hsub =>
    divides_isSubordinate.children now c w wake hsub.isManaged hsub

/-- Rows listen to nobody. -/
theorem listeners_isAllowed : Listeners program Work.IsAllowed Work.IsCollecting where
  begins := by
    intro now c w wake hw cs b hnext
    rcases hw with hw | hw
    · exact Office.listeners_isManaged.begins now c w wake hw cs b hnext
    · have hleads := (rowShaped_program now c hw wake).next
      rw [hnext] at hleads
      exact nomatch hleads
  goesOn := by
    intro now c w wake hw hcollecting b hb
    have hmanaged : w.IsManaged := by
      cases w with
      | collecting => trivial
      | _ => exact hcollecting.elim
    exact Office.listeners_isManaged.goesOn now c w wake hmanaged hcollecting b hb

/-! ## What else is done -/

theorem rounds_handOver (c : ControlRoom) (now : Moment) (r : DeliveryRequest)
    (entry : Option String) : (c.handOver now r entry).2.rounds = c.rounds := by
  unfold handOver
  split
  · rfl
  · split
    · dsimp only
      unfold sendThrough
      split <;> rfl
    · rfl

theorem rounds_conclude (c : ControlRoom) (now : Moment) (entry : String)
    (result : Except Fault DeliveryResult) :
    (c.conclude now entry result).state.rounds = c.rounds := by
  unfold conclude
  split
  · rfl
  · split <;> rfl

theorem rounds_beginAttempt (c : ControlRoom) (now : Moment) (entry : String) :
    (c.beginAttempt now entry).state.rounds = c.rounds := by
  unfold beginAttempt
  split
  · rfl
  · rfl
  · rfl
  · have hhanded := fun r => rounds_handOver c now r (some entry)
    split
    · rename_i hd
      exact (congrArg (·.2.rounds) hd).symm.trans (hhanded _)
    · rename_i hd
      replace hhanded := (congrArg (·.2.rounds) hd).symm.trans (hhanded _)
      split
      · exact (rounds_conclude _ now entry _).trans hhanded
      · exact hhanded

theorem rounds_beginNotification (c : ControlRoom) (now : Moment) (r : AlertRef) (s : Routing)
    (sequel : Sequel) : (c.beginNotification now r s sequel).state.rounds = c.rounds := by
  unfold beginNotification
  split
  · rfl
  · rename_i a _
    have hrequests : (c.requests now s r a).2.rounds = c.rounds := by
      unfold requests
      split
      · rfl
      · dsimp only
        unfold admitted
        split <;> rfl
    split
    · rename_i hd
      rw [hd] at hrequests
      rw [stopNotification_state]
      exact hrequests
    · rename_i hd
      rw [hd] at hrequests
      rw [endNotification_state]
      exact hrequests
    · rename_i hd
      rw [hd] at hrequests
      exact hrequests

theorem rounds_takeIn (c : ControlRoom) (now : Moment) (r : AlertRef) (left : Nat)
    (es : List String) (sequel : Sequel) (os : List (Outcome Yield)) :
    (c.takeIn now r left es sequel os).state.rounds = c.rounds := by
  unfold takeIn
  split
  · rw [stopNotification_state]
  · dsimp only
    split
    · rw [endNotification_state]
      rfl
    · rfl

theorem rounds_beginRetry (c : ControlRoom) (now : Moment) (es : List String) (most : Int)
    (again : Bool) : (c.beginRetry now es most again).state.rounds = c.rounds := by
  have hall : ∀ (ids : List String) (d : ControlRoom),
      (ids.foldl (fun d id => d.adjustEntry id (·.beginRetry now)) d).rounds = d.rounds := by
    intro ids
    induction ids with
    | nil => exact fun _ => rfl
    | cons id ids ih => exact fun d => ih _
  unfold beginRetry
  split
  · rfl
  · rw [endRetry_state]
    rfl
  · exact hall _ c

theorem rounds_beginEscalation (c : ControlRoom) (now : Moment) (r : AlertRef) (p : Policy)
    (level : Option Int) : (c.beginEscalation now r p level).state.rounds = c.rounds := by
  unfold beginEscalation
  split
  · rfl
  · split
    · rw [endEscalation_state]
    · split
      · rfl
      · split
        · rw [endEscalation_state]
        · split
          · rw [endEscalation_state]
            rfl
          · rfl

/-- **Managed work does not touch the periodic passes.** -/
theorem rounds_program (now : Instant) (c : ControlRoom) {w : Work} (hw : w.IsManaged)
    (wake : Wake Yield) : (program now c w wake).state.rounds = c.rounds := by
  by_cases hpass : w.IsOfPass
  · obtain ⟨n, hn⟩ := program_of_isOfPass now c hpass wake
    rw [hn]
  · unfold program
    split
    · unfold goOnWith
      split
      · rw [stopWork_state c _ hw]
      · exact hw.elim
      · exact hw.elim
      · exact absurd (isOfPass_of_isManaged hw (.inl ⟨_, rfl⟩)).2 hpass
      · exact absurd (isOfPass_of_isManaged hw (.inr (.inl ⟨_, rfl⟩))).2 hpass
      · exact absurd (isOfPass_of_isManaged hw (.inr (.inr ⟨_, rfl⟩))).2 hpass
      · rfl
      · unfold beginAnnouncement
        split
        · rfl
        · exact rounds_beginNotification c _ _ _ _
      · exact hw.elim
      · exact rounds_takeIn c _ _ _ _ _ _
      · exact rounds_beginAttempt _ _ _
      · exact rounds_beginAttempt c _ _
      · rfl
      · exact rounds_conclude c _ _ _
      · rfl
      · rfl
      · exact hw.elim
      · exact hw.elim
      · exact rounds_beginRetry c _ _ _ _
      · rw [endRetry_state]
        rfl
      · exact rounds_beginEscalation c _ _ _ _
      · rw [endEscalation_state]
        rfl
      · rfl
    · rw [stopWork_state c _ hw]

/-! ## What requests change -/

theorem rounds_addConfiguration (c : ControlRoom) (k : Configuration) :
    (c.addConfiguration k).2.rounds = c.rounds := by
  unfold addConfiguration
  split <;> rfl

theorem rounds_addFromTemplate (c : ControlRoom) (now : Moment) (key : String) (u : TemplateUse) :
    (c.addFromTemplate now key u).2.rounds = c.rounds := by
  unfold addFromTemplate
  split
  · rfl
  · split
    · rename_i hd
      exact congrArg (·.2.rounds) hd.symm
    · rename_i k d hd
      have hdraft : d.rounds = c.rounds := congrArg (·.2.rounds) hd.symm
      have hkept := (rounds_addConfiguration d k).trans hdraft
      split
      · rename_i hd'
        rw [hd'] at hkept
        exact hkept
      · rename_i hd'
        rw [hd'] at hkept
        exact hkept

theorem rounds_updateConfiguration (c : ControlRoom) (now : Moment) (id : String) (ch : Change) :
    (c.updateConfiguration now id ch).2.rounds = c.rounds := by
  unfold updateConfiguration
  split
  · rfl
  · split
    · rfl
    · dsimp only
      split <;> rfl

theorem rounds_setRuleEnabled (c : ControlRoom) (now : Moment) (id ruleId : String) (on : Bool) :
    (c.setRuleEnabled now id ruleId on).rounds = c.rounds := by
  unfold setRuleEnabled
  split <;> rfl

end ControlRoom

namespace Office

theorem rounds_settleAlert (o : Office) (id : String) (f : Alert → Option Alert) :
    (o.settleAlert id f).2.state.rounds = o.state.rounds := by
  unfold settleAlert
  split
  · rfl
  · dsimp only
    rw [(rebooked_cancelAlert _ id).state]
    rfl

/-- **No request touches the periodic passes.** -/
theorem rounds_serve {o : Office} (hn : Agenda.Numbered o) (q : Request) :
    (serve o q).state.rounds = o.state.rounds := by
  cases q with
  | addConfiguration k => exact ControlRoom.rounds_addConfiguration _ k
  | addFromTemplate key u => exact ControlRoom.rounds_addFromTemplate _ _ key u
  | updateConfiguration id ch => exact ControlRoom.rounds_updateConfiguration _ _ id ch
  | setStatus id s => rfl
  | setRuleEnabled id ruleId on => exact ControlRoom.rounds_setRuleEnabled _ _ id ruleId on
  | openLine channel carrier => rfl
  | pass s => rfl
  | retry entries most => rfl
  | escalate id p level => rfl
  | acknowledge id who => exact rounds_settleAlert o id _
  | resolve id who notes => exact rounds_settleAlert o id _
  | markFalsePositive id who => exact rounds_settleAlert o id _
  | bookRetries entries => exact congrArg (·.rounds) (rebooked_bookAll _ hn).state
  | bookEscalation id p =>
      show (o.bookEscalation id p).2.state.rounds = _
      unfold bookEscalation
      split
      · rfl
      · exact congrArg (·.rounds) (rebooked_bookAll _ hn).state
  | shutdown => exact congrArg (·.rounds) (rebooked_cancelBookings o).state

end Office

end BuildingAlerts
