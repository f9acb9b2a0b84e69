/-
Walking through the stages of a policy.

The stage after a level is found by its number or, when no stage has the next number, by its place.
A level counts as a place when it is the number of the stages that it has passed, so the two agree
on policies whose levels are numbered from one. Where they do not, the walk leaves a stage out or
ends too early: which levels lead on to the next stage is told here exactly, for all policies whose
levels are positive.
-/
import BuildingAlerts.Notification.Policy
import Mathlib.Data.List.Sort

set_option autoImplicit false

namespace BuildingAlerts

theorem pairwise_of_isRising {xs : List Int} (h : isRising xs = true) : xs.Pairwise (· < ·) := by
  refine List.isChain_iff_pairwise.mp ?_
  induction xs using isRising.induct with
  | case1 a b rest ih =>
      rw [isRising, Bool.and_eq_true, decide_eq_true_iff] at h
      exact .cons_cons h.1 (ih h.2)
  | case2 xs hshort =>
      match xs with
      | [] => exact .nil
      | [a] => exact .singleton a
      | a :: b :: rest => exact absurd rfl (hshort a b rest)

/-- In a rising list, the numbers up to a bound come first. -/
theorem getElem_le_iff_lt_countP {xs : List Int} (h : xs.Pairwise (· < ·)) (bound : Int) {i : Nat}
    (hi : i < xs.length) : xs[i] ≤ bound ↔ i < xs.countP (· ≤ bound) := by
  induction xs generalizing i with
  | nil => exact absurd hi (Nat.not_lt_zero i)
  | cons x xs ih =>
      obtain ⟨hx, hxs⟩ := List.pairwise_cons.mp h
      by_cases hle : x ≤ bound
      · rw [List.countP_cons_of_pos (p := fun y => decide (y ≤ bound)) (decide_eq_true hle)]
        cases i with
        | zero => exact iff_of_true hle (Nat.succ_pos _)
        | succ i => exact (ih hxs (Nat.lt_of_succ_lt_succ hi)).trans Nat.succ_lt_succ_iff.symm
      · have hnone : (x :: xs).countP (· ≤ bound) = 0 := by
          refine List.countP_eq_zero.mpr fun y hy hyb => hle ?_
          rcases List.mem_cons.mp hy with rfl | hy
          · exact of_decide_eq_true hyb
          · exact (hx y hy).le.trans (of_decide_eq_true hyb)
        rw [hnone]
        refine iff_of_false (fun hib => hle ?_) (Nat.not_lt_zero i)
        rcases List.mem_cons.mp (List.getElem_mem hi) with heq | hmem
        · exact heq ▸ hib
        · exact (hx _ hmem).le.trans hib

namespace Policy

variable {p : Policy} {level : Int} {s : Stage}

/-! ## Stages that a level has passed -/

/-- How many stages stand at or below a level. -/
def passed (p : Policy) (level : Int) : Nat :=
  p.stages.countP (·.level ≤ level)

/-- A stage is the next one above a level: it is above it, and none above it is lower. -/
structure IsNext (p : Policy) (level : Int) (s : Stage) : Prop where
  mem : s ∈ p.stages
  above : level < s.level
  least : ∀ t ∈ p.stages, level < t.level → s.level ≤ t.level

/-- A level leads on to the next stage: that stage has the next number, or the level is the number
of the stages that it has passed. -/
def LeadsOn (p : Policy) (level : Int) : Prop :=
  ∀ s, p.IsNext level s → s.level = level + 1 ∨ p.passed level = level

/-- All levels of a policy are numbers from one on. -/
def Positive (p : Policy) : Prop :=
  ∀ s ∈ p.stages, 1 ≤ s.level

theorem level_lt_level (p : Policy) {i j : Nat} (hi : i < p.stages.length)
    (hj : j < p.stages.length) (hij : i < j) : p.stages[i].level < p.stages[j].level :=
  List.pairwise_iff_getElem.mp (List.pairwise_map.mp (pairwise_of_isRising p.rising)) i j hi hj hij

/-- The stages that a level has passed are the first ones. -/
theorem level_le_iff (p : Policy) (level : Int) {i : Nat} (hi : i < p.stages.length) :
    p.stages[i].level ≤ level ↔ i < p.passed level := by
  have h := getElem_le_iff_lt_countP (pairwise_of_isRising p.rising) level
    (i := i) ((List.length_map _).symm ▸ hi)
  rw [List.getElem_map, List.countP_map] at h
  exact h

theorem lt_level_iff (p : Policy) (level : Int) {i : Nat} (hi : i < p.stages.length) :
    level < p.stages[i].level ↔ p.passed level ≤ i := by
  rw [← Int.not_le, p.level_le_iff level hi, Nat.not_lt]

/-- **The next stage** stands at the place that counts the stages passed. -/
theorem isNext_iff : p.IsNext level s ↔ p.stages[p.passed level]? = some s := by
  constructor
  · intro h
    obtain ⟨i, hi, rfl⟩ := List.getElem_of_mem h.mem
    have hle : p.passed level ≤ i := (p.lt_level_iff level hi).mp h.above
    have hpassed : p.passed level < p.stages.length := hle.trans_lt hi
    have hleast := h.least _ (List.getElem_mem hpassed) ((p.lt_level_iff level hpassed).mpr le_rfl)
    obtain heq | hlt := hle.eq_or_lt
    · rw [heq, List.getElem?_eq_getElem hi]
    · exact absurd (p.level_lt_level hpassed hi hlt) (Int.not_lt.mpr hleast)
  · intro h
    obtain ⟨hpassed, rfl⟩ := List.getElem?_eq_some_iff.mp h
    refine ⟨List.getElem_mem hpassed, (p.lt_level_iff level hpassed).mpr le_rfl, fun t ht hlt => ?_⟩
    obtain ⟨i, hi, rfl⟩ := List.getElem_of_mem ht
    obtain heq | hless := ((p.lt_level_iff level hi).mp hlt).eq_or_lt
    · exact le_of_eq (by simp only [heq])
    · exact (p.level_lt_level hpassed hi hless).le

instance (p : Policy) : Decidable p.Positive :=
  inferInstanceAs (Decidable (∀ s ∈ p.stages, 1 ≤ s.level))

instance (p : Policy) (level : Int) : Decidable (p.LeadsOn level) :=
  decidable_of_iff (∀ s ∈ p.stages[p.passed level]?, s.level = level + 1 ∨ p.passed level = level)
    (forall_congr' fun _ => imp_congr_left isNext_iff.symm)

/-- The level of a stage has passed it and those before it. -/
theorem passed_level (p : Policy) {i : Nat} (hi : i < p.stages.length) :
    p.passed p.stages[i].level = i + 1 := by
  refine Nat.le_antisymm ?_ ((p.level_le_iff _ hi).mp le_rfl)
  refine Nat.not_lt.mp fun hlt => ?_
  have hlen : i + 1 < p.stages.length := hlt.trans_le List.countP_le_length
  exact absurd ((p.level_le_iff _ hlen).mpr hlt)
    (Int.not_le.mpr (p.level_lt_level hi hlen (Nat.lt_succ_self i)))

namespace Positive

variable (hpos : p.Positive)

include hpos

/-- Positive levels are beyond their places. -/
theorem lt_level {i : Nat} (hi : i < p.stages.length) : (i : Int) < p.stages[i].level := by
  induction i with
  | zero => exact hpos _ (List.getElem_mem hi)
  | succ i ih =>
      have hbefore := ih (Nat.lt_of_succ_lt hi)
      have hrise := p.level_lt_level (Nat.lt_of_succ_lt hi) hi (Nat.lt_succ_self i)
      push_cast
      omega

/-- No level has passed more stages than its number says. -/
theorem passed_le (hlevel : 0 ≤ level) : (p.passed level : Int) ≤ level := by
  cases hn : p.passed level with
  | zero => exact hlevel
  | succ n =>
      have hlen : n < p.stages.length :=
        calc n < p.passed level := hn ▸ Nat.lt_succ_self n
          _ ≤ p.stages.length := List.countP_le_length
      have hle := (p.level_le_iff level hlen).mpr (hn ▸ Nat.lt_succ_self n)
      have hplace := hpos.lt_level hlen
      omega

end Positive

/-! ## The stage after a level -/

/-- The stage after a level is one of the policy, on a higher level. -/
theorem of_stageAfter (h : p.stageAfter level = some s) : s ∈ p.stages ∧ level < s.level := by
  unfold stageAfter at h
  split at h
  · rename_i t ht
    obtain rfl := Option.some.inj h
    have hlevel : t.level = level + 1 :=
      beq_iff_eq.mp (List.find?_some (p := fun x : Stage => x.level == level + 1) ht)
    exact ⟨List.mem_of_find?_eq_some ht, by omega⟩
  · obtain ⟨hat, hlt⟩ := Option.filter_eq_some_iff.mp h
    refine ⟨?_, of_decide_eq_true hlt⟩
    unfold stageAt? at hat
    split at hat
    · exact nomatch hat
    · exact List.mem_of_getElem? hat

theorem isNext_of_number (hs : s ∈ p.stages) (hnumber : s.level = level + 1) : p.IsNext level s :=
  ⟨hs, by omega, fun _ _ hlt => by omega⟩

theorem IsNext.unique {t : Stage} (hs : p.IsNext level s) (ht : p.IsNext level t) : s = t :=
  Option.some.inj ((isNext_iff.mp hs).symm.trans (isNext_iff.mp ht))

/-- A next stage that has the next number is found by it. -/
theorem IsNext.stageAfter_of_number (h : p.IsNext level s) (hs : s.level = level + 1) :
    p.stageAfter level = some s := by
  unfold stageAfter
  cases hfind : p.stages.find? (·.level == level + 1) with
  | none =>
      exact absurd (beq_iff_eq.mpr hs) (List.find?_eq_none.mp hfind s h.mem)
  | some t =>
      have hnumber : t.level = level + 1 :=
        beq_iff_eq.mp (List.find?_some (p := fun x : Stage => x.level == level + 1) hfind)
      exact congrArg some ((isNext_of_number (List.mem_of_find?_eq_some hfind) hnumber).unique h)

namespace Positive

variable (hpos : p.Positive)

include hpos

/-- If no stage has the next number, the level is taken for a place. -/
theorem stageAfter_of_no_number (hlevel : 0 ≤ level)
    (hnone : ∀ s ∈ p.stages, s.level ≠ level + 1) :
    p.stageAfter level = p.stages[level.toNat]? := by
  have hfind : p.stages.find? (·.level == level + 1) = none :=
    List.find?_eq_none.mpr fun s hs => beq_iff_eq.not.mpr (hnone s hs)
  unfold stageAfter stageAt?
  rw [hfind, if_neg (Int.not_lt.mpr hlevel)]
  cases hat : p.stages[level.toNat]? with
  | none => rfl
  | some s =>
      obtain ⟨hplace, rfl⟩ := List.getElem?_eq_some_iff.mp hat
      have hbeyond := hpos.lt_level hplace
      exact Option.filter_some_pos (decide_eq_true (by omega))

/-- If the stage after a level is the next one, it was found by its number or at its place. -/
theorem of_stageAfter_isNext (hlevel : 0 ≤ level) (h : p.IsNext level s)
    (hs : p.stageAfter level = some s) : s.level = level + 1 ∨ p.passed level = level := by
  refine or_iff_not_imp_left.mpr fun hnumber => ?_
  have hnone : ∀ t ∈ p.stages, t.level ≠ level + 1 := fun t ht htl =>
    hnumber ((isNext_of_number ht htl).unique h ▸ htl)
  rw [hpos.stageAfter_of_no_number hlevel hnone] at hs
  obtain ⟨hplace, hat⟩ := List.getElem?_eq_some_iff.mp hs
  obtain ⟨hpassed, hnext⟩ := List.getElem?_eq_some_iff.mp (isNext_iff.mp h)
  have hle := hpos.passed_le hlevel
  by_contra hne
  have hrise := p.level_lt_level hpassed hplace (by omega)
  rw [hat, hnext] at hrise
  exact lt_irrefl _ hrise

/-- **The stage after a level** is the next one exactly if the level leads on. -/
theorem stageAfter_iff (hlevel : 0 ≤ level) :
    (∀ s, p.stageAfter level = some s ↔ p.IsNext level s) ↔ p.LeadsOn level := by
  constructor
  · exact fun h s hs => hpos.of_stageAfter_isNext hlevel hs ((h s).mpr hs)
  · intro hleads s
    by_cases hnumber : ∃ t, p.IsNext level t ∧ t.level = level + 1
    · obtain ⟨t, ht, htl⟩ := hnumber
      rw [ht.stageAfter_of_number htl, Option.some.injEq]
      exact ⟨fun hts => hts ▸ ht, fun hs => ht.unique hs⟩
    · have hnone : ∀ t ∈ p.stages, t.level ≠ level + 1 := fun t ht htl =>
        hnumber ⟨t, isNext_of_number ht htl, htl⟩
      have hle := hpos.passed_le hlevel
      rw [hpos.stageAfter_of_no_number hlevel hnone, isNext_iff]
      cases hnext : p.stages[p.passed level]? with
      | none =>
          have hend := List.getElem?_eq_none_iff.mp hnext
          rw [List.getElem?_eq_none (by omega)]
      | some t =>
          -- The next stage has another number, so the level counts the stages passed.
          have ht : p.IsNext level t := isNext_iff.mpr hnext
          have hcounts := (hleads t ht).resolve_left (hnone t ht.mem)
          rw [show level.toNat = p.passed level by omega, hnext]

/-- Level zero always leads on. -/
theorem leadsOn_zero : p.LeadsOn 0 := fun _ _ => by
  have := hpos.passed_le (le_refl 0)
  omega

end Positive

/-! ## The walk -/

theorem passed_lt_passed (hs : s ∈ p.stages) (h : level < s.level) :
    p.passed level < p.passed s.level := by
  obtain ⟨i, hi, rfl⟩ := List.getElem_of_mem hs
  rw [p.passed_level hi]
  exact Nat.lt_succ_of_le ((p.lt_level_iff level hi).mp h)

/-- The stages that are visited from a level on, each the one after the level of the one before. -/
def visits (p : Policy) (level : Int) : List Stage :=
  match _ : p.stageAfter level with
  | none => []
  | some s => s :: p.visits s.level
termination_by p.stages.length - p.passed level
decreasing_by
  rename_i h
  obtain ⟨hmem, hlt⟩ := of_stageAfter h
  have hless := passed_lt_passed hmem hlt
  have hlen : p.passed s.level ≤ p.stages.length := List.countP_le_length
  omega

theorem visits_of_none (h : p.stageAfter level = none) : p.visits level = [] := by
  rw [visits]
  split
  · rfl
  · rename_i hs
    exact nomatch h.symm.trans hs

theorem visits_of_some (h : p.stageAfter level = some s) :
    p.visits level = s :: p.visits s.level := by
  rw [visits]
  split
  · rename_i hnone
    exact nomatch h.symm.trans hnone
  · rename_i t ht
    rw [Option.some.inj (h.symm.trans ht)]

/-- A walk goes through the stages above its level in order, though it may leave some out. -/
theorem visits_sublist (p : Policy) (level : Int) :
    (p.visits level).Sublist (p.stages.drop (p.passed level)) := by
  induction level using visits.induct p with
  | case1 level h =>
      rw [visits_of_none h]
      exact List.nil_sublist _
  | case2 level s h ih =>
      obtain ⟨hmem, hlt⟩ := of_stageAfter h
      obtain ⟨i, hi, rfl⟩ := List.getElem_of_mem hmem
      rw [p.passed_level hi] at ih
      rw [visits_of_some h]
      have hfrom : (p.stages[i] :: p.visits p.stages[i].level).Sublist (p.stages.drop i) := by
        rw [List.drop_eq_getElem_cons hi]
        exact ih.cons_cons _
      exact hfrom.trans (List.drop_sublist_drop_left _ ((p.lt_level_iff level hi).mp hlt))

/-- In a walk, each stage is the one after the level of the one before. -/
theorem isChain_visits (p : Policy) (level : Int) :
    (p.visits level).IsChain fun s t => p.stageAfter s.level = some t := by
  induction level using visits.induct p with
  | case1 level h =>
      rw [visits_of_none h]
      exact .nil
  | case2 level s h ih =>
      rw [visits_of_some h]
      cases hnext : p.stageAfter s.level with
      | none =>
          rw [visits_of_none hnext]
          exact .singleton s
      | some t =>
          rw [visits_of_some hnext] at ih ⊢
          exact .cons_cons hnext ih

namespace Positive

variable (hpos : p.Positive)

include hpos

/-- If all levels lead on, a walk visits all stages above its level. -/
theorem visits_eq_drop (hall : ∀ s ∈ p.stages, p.LeadsOn s.level) (hlevel : 0 ≤ level)
    (hleads : p.LeadsOn level) : p.visits level = p.stages.drop (p.passed level) := by
  induction level using visits.induct p with
  | case1 level h =>
      rw [visits_of_none h]
      refine (List.drop_eq_nil_of_le (List.getElem?_eq_none_iff.mp ?_)).symm
      refine Option.eq_none_iff_forall_ne_some.mpr fun s hs => ?_
      exact nomatch h.symm.trans (((hpos.stageAfter_iff hlevel).mpr hleads s).mpr (isNext_iff.mpr hs))
  | case2 level s h ih =>
      have hnext := isNext_iff.mp (((hpos.stageAfter_iff hlevel).mpr hleads s).mp h)
      obtain ⟨hpassed, rfl⟩ := List.getElem?_eq_some_iff.mp hnext
      have hmem := List.getElem_mem hpassed
      have hone := hpos _ hmem
      rw [visits_of_some h, ih (by omega) (hall _ hmem), p.passed_level hpassed,
        List.drop_eq_getElem_cons hpassed]

/-- **A walk from level zero** visits all stages exactly if all their levels lead on. -/
theorem visits_eq_stages : p.visits 0 = p.stages ↔ ∀ s ∈ p.stages, p.LeadsOn s.level := by
  constructor
  · intro hall s hs t ht
    obtain ⟨i, hi, rfl⟩ := List.getElem_of_mem hs
    have hnext := isNext_iff.mp ht
    rw [p.passed_level hi] at hnext
    obtain ⟨hi', rfl⟩ := List.getElem?_eq_some_iff.mp hnext
    have hchain := p.isChain_visits 0
    rw [hall] at hchain
    have hone := hpos _ hs
    exact hpos.of_stageAfter_isNext (by omega) ht (List.isChain_iff_getElem.mp hchain i hi')
  · intro hall
    have hnone : p.passed 0 = 0 := by
      have := hpos.passed_le (le_refl 0)
      omega
    rw [hpos.visits_eq_drop hall (le_refl 0) hpos.leadsOn_zero, hnone]
    rfl

/-- **What follows a level.** From level zero or that of a stage, the stage after it is the next
one, and there is none exactly if there is no next one, if the level leads on and not otherwise:
then it is the stage whose place is the number of the level, or none. A walk goes through the stages
in order, and visits all of them exactly if all their levels lead on. -/
theorem stages_followed :
    (∀ level, level = 0 ∨ (∃ s ∈ p.stages, s.level = level) →
      ((∀ s, p.stageAfter level = some s ↔ p.IsNext level s) ↔ p.LeadsOn level) ∧
      (¬ p.LeadsOn level → p.stageAfter level = p.stages[level.toNat]?)) ∧
    (p.visits 0).Sublist p.stages ∧
    (p.visits 0 = p.stages ↔ ∀ s ∈ p.stages, p.LeadsOn s.level) := by
  refine ⟨fun level hlevel => ?_, (p.visits_sublist 0).trans (List.drop_sublist _ _),
    hpos.visits_eq_stages⟩
  have hlow : 0 ≤ level := by
    rcases hlevel with rfl | ⟨s, hs, rfl⟩
    · exact le_refl 0
    · exact Int.le_of_lt (hpos s hs)
  refine ⟨hpos.stageAfter_iff hlow, fun hleads => hpos.stageAfter_of_no_number hlow fun s hs hnumber =>
    hleads fun t ht => .inl ?_⟩
  exact (isNext_of_number hs hnumber).unique ht ▸ hnumber

end Positive

/-! ## Two ladders -/

/-- Stages of given levels. -/
def Sample.ladder (levels : List Int) : List Stage :=
  levels.map fun level => ⟨level, 15, ["duty"], [.email], true, 30, true, ""⟩

/-- A policy whose last level leaves a gap, behind a level that counts the stages passed. -/
def Sample.gapped : Policy :=
  ⟨"p", "P", Sample.ladder [1, 2, 5], 9, by decide⟩

/-- A policy with a level that neither counts the stages passed nor is followed by its successor. -/
def Sample.steep : Policy :=
  ⟨"p", "P", Sample.ladder [1, 5, 10], 9, by decide⟩

/-- Each stage of the gapped policy is visited. -/
theorem stages_followed_gapped :
    Sample.gapped.Positive ∧ Sample.gapped.visits 0 = Sample.gapped.stages :=
  have hpos : Sample.gapped.Positive := by decide
  ⟨hpos, hpos.stages_followed.2.2.mpr (by decide)⟩

/-- Behind level five of the steep policy stands a stage that is never reached. -/
theorem unreached_steep :
    Sample.steep.Positive ∧ (∃ s ∈ Sample.steep.stages, s.level = 5) ∧
      (∃ t, Sample.steep.IsNext 5 t) ∧ Sample.steep.stageAfter 5 = none ∧
      Sample.steep.visits 0 ≠ Sample.steep.stages := by
  have hpos : Sample.steep.Positive := by decide
  refine ⟨hpos, by decide, ⟨_, isNext_iff.mpr rfl⟩, rfl, fun hall => ?_⟩
  exact absurd (hpos.visits_eq_stages.mp hall) (by decide)

end Policy

end BuildingAlerts
