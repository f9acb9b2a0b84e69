/-
The order of moments, on the instants that they name.

`since?`, `le?` and `lt?` answer only for two moments that both have an offset or both have
none, and the answer is the one for their instants. Everything that compares moments is proved
through the three lemmas of the first section, so the readings of the wall are not looked at
again.
-/
import BuildingAlerts.Time.Moment
import Mathlib.Tactic.Linarith

set_option autoImplicit false

namespace BuildingAlerts.Moment

/-! ## Comparison -/

/-- Two moments have a distance exactly if both or none of them have an offset. -/
theorem since?_eq_some_iff {a b : Moment} {s : Span} :
    a.since? b = some s ↔
      a.offset.isSome = b.offset.isSome ∧ s.micros = a.instant - b.instant := by
  unfold since?
  by_cases h : a.offset.isSome = b.offset.isSome
  · rw [if_pos (by rw [h]; exact beq_self_eq_true _), Option.some_inj]
    refine ⟨fun hs => ⟨h, by rw [← hs]⟩, fun hs => ?_⟩
    obtain ⟨-, hm⟩ := hs
    cases s
    simp only at hm
    rw [hm]
  · rw [if_neg (by simpa using h)]
    simp only [reduceCtorEq, false_iff, not_and]
    exact fun h' => absurd h' h

/-- A moment of the same kind as another has a distance from it. -/
theorem since?_of_isSome_eq {a b : Moment} (h : a.offset.isSome = b.offset.isSome) :
    a.since? b = some ⟨a.instant - b.instant⟩ :=
  since?_eq_some_iff.mpr ⟨h, rfl⟩

/-- Two moments of one kind have an order. -/
theorem exists_le? {a b : Moment} (h : b.offset.isSome = a.offset.isSome) :
    ∃ x, a.le? b = some x := by
  unfold le?
  rw [since?_of_isSome_eq h]
  exact ⟨_, rfl⟩

/-- `a` is found to be later than `b`. -/
theorem le?_eq_some_false_iff {a b : Moment} :
    a.le? b = some false ↔
      a.offset.isSome = b.offset.isSome ∧ b.instant < a.instant := by
  unfold le?
  rw [Option.map_eq_some_iff]
  constructor
  · rintro ⟨s, hs, hf⟩
    obtain ⟨ho, hm⟩ := since?_eq_some_iff.mp hs
    have hneg : ¬ 0 ≤ s.micros := of_decide_eq_false hf
    exact ⟨ho.symm, by omega⟩
  · rintro ⟨ho, hlt⟩
    refine ⟨_, since?_of_isSome_eq ho.symm, ?_⟩
    rw [decide_eq_false_iff_not]
    show ¬ 0 ≤ b.instant - a.instant
    omega

/-- `a` is found not to be later than `b`. -/
theorem le?_eq_some_true_iff {a b : Moment} :
    a.le? b = some true ↔
      a.offset.isSome = b.offset.isSome ∧ a.instant ≤ b.instant := by
  unfold le?
  rw [Option.map_eq_some_iff]
  constructor
  · rintro ⟨s, hs, ht⟩
    obtain ⟨ho, hm⟩ := since?_eq_some_iff.mp hs
    have hpos := of_decide_eq_true ht
    exact ⟨ho.symm, by omega⟩
  · rintro ⟨ho, hle⟩
    exact ⟨_, since?_of_isSome_eq ho.symm, decide_eq_true (Int.sub_nonneg_of_le hle)⟩

/-! ## Going on and back by a span -/

/-- The moment a span later names the later instant and keeps its offset. -/
theorem plus?_eq_some {m m' : Moment} {s : Span} (h : m.plus? s = some m') :
    m'.offset = m.offset ∧ m'.instant = m.instant + s.micros := by
  unfold plus? at h
  dsimp only at h
  split at h
  · rw [Option.some_inj] at h
    subst h
    refine ⟨rfl, ?_⟩
    unfold instant
    dsimp only
    cases m.offset with
    | none => dsimp only
    | some o => dsimp only; omega
  · exact absurd h (by simp)

/-- The moment a span earlier names the earlier instant and keeps its offset. -/
theorem minus?_eq_some {m m' : Moment} {s : Span} (h : m.minus? s = some m') :
    m'.offset = m.offset ∧ m'.instant = m.instant - s.micros :=
  plus?_eq_some h

/-! ## Being apart -/

/-- Two moments that can be compared and are more than some minutes apart, whichever of them
is the later one. -/
def Apart (minutes : Int) (a b : Moment) : Prop :=
  ∃ s, a.since? b = some s ∧ minutes * Span.microsPerMinute < |s.micros|

/-- Being apart, on the instants. -/
theorem apart_iff {minutes : Int} {a b : Moment} :
    a.Apart minutes b ↔ a.offset.isSome = b.offset.isSome ∧
      minutes * Span.microsPerMinute < |a.instant - b.instant| := by
  constructor
  · rintro ⟨s, hs, hlt⟩
    obtain ⟨ho, hm⟩ := since?_eq_some_iff.mp hs
    exact ⟨ho, by rwa [hm] at hlt⟩
  · rintro ⟨ho, hlt⟩
    exact ⟨_, since?_of_isSome_eq ho, hlt⟩

theorem Apart.symm {minutes : Int} {a b : Moment} (h : a.Apart minutes b) :
    b.Apart minutes a := by
  rw [apart_iff] at h ⊢
  refine ⟨h.1.symm, ?_⟩
  rw [abs_sub_comm]
  exact h.2

/-! ## Lying behind -/

/-- A moment that lies at least some minutes before another with which it can be compared. -/
def LeadsBy (minutes : Int) (a b : Moment) : Prop :=
  a.offset.isSome = b.offset.isSome ∧ a.instant + minutes * Span.microsPerMinute ≤ b.instant

/-- What lies some minutes before a moment lies as much before all that follow it. -/
theorem LeadsBy.of_le {minutes : Int} {a b c : Moment} (hab : a.LeadsBy 0 b)
    (hbc : b.LeadsBy minutes c) : a.LeadsBy minutes c := by
  obtain ⟨hoffset, hle⟩ := hab
  obtain ⟨hoffset', hle'⟩ := hbc
  exact ⟨hoffset.trans hoffset', by omega⟩

/-- A moment after another by some minutes, and not fewer than none, is not before it. -/
theorem LeadsBy.le {minutes : Int} {a b : Moment} (h : a.LeadsBy minutes b) (hm : 0 ≤ minutes) :
    a.LeadsBy 0 b := by
  obtain ⟨hoffset, hle⟩ := h
  have hmicros : 0 ≤ minutes * Span.microsPerMinute := Int.mul_nonneg hm (by decide)
  exact ⟨hoffset, by omega⟩

theorem leadsBy_self (a : Moment) : a.LeadsBy 0 a :=
  ⟨rfl, by omega⟩

end BuildingAlerts.Moment
