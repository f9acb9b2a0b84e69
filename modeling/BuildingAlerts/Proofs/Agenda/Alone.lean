/-
What concerns one task alone.

A task that is told of another one, or that ends with nothing changed in the room and nothing
booked, leaves no trace but its own: the other tasks, their timers and their ready items are the
same as before, in the same order. So whatever they do next, they do as if it had not happened.
-/
import BuildingAlerts.Proofs.Agenda.Run
import BuildingAlerts.Proofs.Table

set_option autoImplicit false

namespace BuildingAlerts

variable {σ β ρ : Type}

/-- An item is about a task: its turn, or a report from it or to it. -/
def Item.concerns (t : TaskId) : Item ρ → Bool
  | .run u => u == t
  | .report u c _ => u == t || c == t

theorem Item.concerns_parent (t c : TaskId) (o : Outcome ρ) :
    (Item.report t c o).concerns t = true := by
  show (t == t || c == t) = true
  rw [beq_self_eq_true, Bool.true_or]

theorem Item.concerns_child (u t : TaskId) (o : Outcome ρ) :
    (Item.report u t o).concerns t = true := by
  show (u == t || t == t) = true
  rw [beq_self_eq_true, Bool.or_true]

namespace Agenda

variable {P : Program σ β ρ} {a b c : Agenda σ β ρ} {t : TaskId}

/-- Nothing but one task is different, and what is ready or set for it. -/
structure Alone (t : TaskId) (a b : Agenda σ β ρ) : Prop where
  state : b.state = a.state
  now : b.now = a.now
  started : b.started = a.started
  timetable : b.timetable = a.timetable
  others : ∀ u, u ≠ t → b.process? u = a.process? u
  timers : b.timers.filter (·.task ≠ t) = a.timers.filter (·.task ≠ t)
  ready : (b.ready.filter fun i => !i.concerns t) = a.ready.filter fun i => !i.concerns t

theorem Alone.rfl : Alone t a a :=
  ⟨.refl _, .refl _, .refl _, .refl _, fun _ _ => .refl _, .refl _, .refl _⟩

theorem Alone.trans (h : Alone t a b) (k : Alone t b c) : Alone t a c where
  state := k.state.trans h.state
  now := k.now.trans h.now
  started := k.started.trans h.started
  timetable := k.timetable.trans h.timetable
  others := fun u hu => (k.others u hu).trans (h.others u hu)
  timers := k.timers.trans h.timers
  ready := k.ready.trans h.ready

/-- **Another task does the same** in its next turn. -/
theorem Alone.stint? (h : Alone t a b) {u : TaskId} (hu : u ≠ t) : b.stint? u = a.stint? u := by
  unfold Agenda.stint?
  rw [h.others u hu, h.now, h.state, h.started]

/-! ## Steps that concern one task -/

theorem alone_taken {place : Nat} {i : Item ρ} (hi : a.ready[place]? = some i)
    (hc : i.concerns t = true) : Alone t a (a.taken place) :=
  ⟨rfl, rfl, rfl, rfl, fun _ _ => rfl, rfl, filter_eraseIdx hi (by rw [hc]; rfl)⟩

theorem alone_adjust (f : Process β ρ → Process β ρ) : Alone t a (a.adjust t f) :=
  ⟨rfl, rfl, rfl, rfl, fun _ hu => process?_adjust_of_ne a f hu, rfl, rfl⟩

/-- An item about the task gets ready. -/
theorem filter_append_of_concerns (is : List (Item ρ)) {i : Item ρ} (hc : i.concerns t = true) :
    ((is ++ [i]).filter fun i => !i.concerns t) = is.filter fun i => !i.concerns t := by
  rw [List.filter_append, List.filter_cons_of_neg (by rw [hc]; exact Bool.false_ne_true),
    List.filter_nil, List.append_nil]

theorem alone_wake (w : Wake ρ) : Alone t a (a.wake t w) where
  state := rfl
  now := rfl
  started := rfl
  timetable := rfl
  others := fun u hu => by rw [process?_wake, if_neg hu]
  timers := by
    show (a.timers.filter (·.task ≠ t)).filter (·.task ≠ t) = _
    rw [List.filter_filter]
    simp only [Bool.and_self]
  ready := filter_append_of_concerns a.ready (beq_self_eq_true t)

/-- A report is the affair of the task that is told. -/
theorem alone_report (child : TaskId) (o : Outcome ρ) : Alone t a (a.report t child o) := by
  unfold Agenda.report
  split
  · exact .rfl
  · split
    · split
      · split
        · exact alone_wake _
        · dsimp only
          split
          · exact alone_wake _
          · exact alone_adjust _
      · exact .rfl
    · exact alone_wake _
    · exact alone_adjust _
    · exact .rfl

/-- A task that is not booked takes out no booking when it ends. -/
theorem alone_finish {p : Process β ρ} {o : Outcome ρ}
    (hfree : ∀ x ∈ a.timetable.bookings.values, x.task ≠ t) : Alone t a (a.finish t p o) := by
  have hforget : ∀ key, a.timetable.forget key t = a.timetable := by
    intro key
    unfold Timetable.forget
    split
    · rfl
    · rename_i x hx
      exact if_neg (hfree x (Table.mem_values_of_get? hx))
  have hremove : ∀ u, u ≠ t → (a.remove t).process? u = a.process? u := fun u hu => by
    rw [process?_remove, if_neg hu]
  unfold Agenda.finish
  cases p.key with
  | none =>
      cases p.audience with
      | task u =>
          exact ⟨rfl, rfl, rfl, rfl, hremove, rfl,
            filter_append_of_concerns _ (Item.concerns_child u t o)⟩
      | nobody => exact ⟨rfl, rfl, rfl, rfl, hremove, rfl, rfl⟩
      | caller => exact ⟨rfl, rfl, rfl, rfl, hremove, rfl, rfl⟩
  | some key =>
      cases p.audience with
      | task u =>
          exact ⟨rfl, rfl, rfl, hforget key, hremove, rfl,
            filter_append_of_concerns _ (Item.concerns_child u t o)⟩
      | nobody => exact ⟨rfl, rfl, rfl, hforget key, hremove, rfl, rfl⟩
      | caller => exact ⟨rfl, rfl, rfl, hforget key, hremove, rfl, rfl⟩

/-- **A task that is told of another one** is told alone. -/
theorem alone_of_report {place : Nat} {child : TaskId} {o : Outcome ρ}
    (hi : a.ready[place]? = some (.report t child o)) (hb : a.stepAt P place = some b) :
    Alone t a b := by
  unfold stepAt at hb
  rw [hi] at hb
  obtain rfl := Option.some.inj hb
  exact (alone_taken hi (Item.concerns_parent t child o)).trans
    (alone_report (a := a.taken place) child o)

/-- **A task that ends at once**, changes nothing and books nothing ends alone. -/
theorem alone_of_stint (hn : a.Numbered) {place : Nat} {s : Stint σ β ρ}
    (hs : a.stintAt? place = some s) {o : Outcome ρ} (hturn : s.turn P = ⟨s.state, [], .finish o⟩)
    (hfree : ∀ x ∈ a.timetable.bookings.values, x.task ≠ s.task)
    (hb : a.stepAt P place = some b) : Alone s.task a b := by
  obtain ⟨hi, hstint, -⟩ := stintAt?_eq_some hs
  unfold stepAt at hb
  rw [hi] at hb
  obtain rfl := Option.some.inj hb
  have hstint' : (a.taken place).stint? s.task = some s := hstint
  refine (alone_taken hi (beq_self_eq_true s.task)).trans ?_
  show Alone s.task (a.taken place) ((a.taken place).run P s.task)
  cases runsTo P (a.taken place) s.task with
  | idle _ h _ => exact nomatch hstint'.symm.trans h
  | dropped _ _ _ _ h _ => exact nomatch hstint'.symm.trans h
  | delayed _ _ _ _ h _ => exact nomatch hstint'.symm.trans h
  | @works p w v hp hw hv hbegun h hr =>
      have hof := Option.some.inj (hstint'.symm.trans h)
      have hstate : s.state = a.state := congrArg Stint.state hof
      have hnext : P (a.taken place).now (a.taken place).state p.body v
          = ⟨a.state, [], .finish o⟩ := by
        rw [← hstate, ← hturn, hof]
        rfl
      obtain ⟨q, -, -, hwork⟩ := work_eq_settleTurn (a := a.taken place) hn hp p.body v (P := P)
      rw [hnext] at hwork
      rw [hr, hwork]
      have hat : Alone s.task (a.taken place) ((a.taken place).atWork s.task a.state) :=
        ⟨rfl, rfl, rfl, rfl, fun u hu => by rw [process?_atWork, if_neg hu], rfl, rfl⟩
      exact hat.trans (alone_finish hfree)

end Agenda

end BuildingAlerts
