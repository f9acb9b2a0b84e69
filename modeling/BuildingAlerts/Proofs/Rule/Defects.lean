/-
What is wrong with a configuration.

A defect stands at its place: in the configuration itself, in one of its rules or in one of the
conditions of a rule. Whether a configuration has it is said by looking at that place alone. The
check names exactly the defects that there are, whether or not their rules are evaluated, each of
them once, by its own path and in the order in which the configuration is read.
-/
import BuildingAlerts.Proofs.Rule.Accepted
import Mathlib.Data.List.Basic

set_option autoImplicit false

namespace BuildingAlerts

/-! ## Lists of numbered parts -/

section

variable {α β γ δ : Type} {l : List α}

/-- What the parts of a list give comes of the part at a place. -/
theorem mem_flatten_mapIdx {f : Nat → α → List β} {y : β} :
    y ∈ (l.mapIdx f).flatten ↔ ∃ i x, l[i]? = some x ∧ y ∈ f i x := by
  rw [List.mem_flatten]
  constructor
  · rintro ⟨ys, hys, hy⟩
    obtain ⟨i, hi, rfl⟩ := List.mem_mapIdx.mp hys
    exact ⟨i, l[i], List.getElem?_eq_getElem hi, hy⟩
  · rintro ⟨i, x, hx, hy⟩
    obtain ⟨hi, rfl⟩ := List.getElem?_eq_some_iff.mp hx
    exact ⟨f i l[i], List.mem_mapIdx.mpr ⟨i, hi, rfl⟩, hy⟩

/-- What the parts of a list give is in order if each part is, and if earlier parts come first. -/
theorem pairwise_flatten_mapIdx {R : β → β → Prop} {f : Nat → α → List β}
    (hone : ∀ i x, (f i x).Pairwise R)
    (htwo : ∀ i j x y, i < j → ∀ a ∈ f i x, ∀ b ∈ f j y, R a b) :
    (l.mapIdx f).flatten.Pairwise R := by
  rw [List.pairwise_flatten]
  refine ⟨fun ys hys => ?_, List.pairwise_iff_getElem.mpr fun i j hi hj hij a ha b hb => ?_⟩
  · obtain ⟨i, hi, rfl⟩ := List.mem_mapIdx.mp hys
    exact hone i l[i]
  · rw [List.getElem_mapIdx] at ha hb
    exact htwo i j _ _ hij a ha b hb

/-- Two views of what the parts of a list give agree if they agree on each part. -/
theorem map_flatten_mapIdx {f : Nat → α → List β} {g : Nat → α → List γ} {u : β → δ} {v : γ → δ}
    (h : ∀ i x, (f i x).map u = (g i x).map v) :
    (l.mapIdx f).flatten.map u = (l.mapIdx g).flatten.map v := by
  rw [List.map_flatten, List.map_flatten]
  refine congrArg List.flatten (List.ext_getElem (by simp) fun i hi hi' => ?_)
  rw [List.getElem_map, List.getElem_map, List.getElem_mapIdx, List.getElem_mapIdx]
  exact h i _

end

/-! ## Defects and their places -/

/-- Something that may be wrong with a configuration, its rule `i` or the condition `j` of that. -/
inductive Defect where
  | noName
  | noRules
  | noConditions (i : Nat)
  | emptyWindow (i : Nat)
  | negativeCooldown (i : Nat)
  | negativeDataPoints (i j : Nat)
  | reversedRange (i j : Nat)

namespace Defect

/-- A path on which a number stands in brackets. -/
def bracketed (before : String) (n : Nat) (after : String) : String :=
  before ++ toString n ++ "]" ++ after

/-- The path under which a defect is named. -/
def path : Defect → String
  | noName => "name"
  | noRules => "rules"
  | noConditions i => bracketed "rules[" i ".conditions"
  | emptyWindow i => bracketed "rules[" i ".evaluation_window"
  | negativeCooldown i => bracketed "rules[" i ".cooldown_period"
  | negativeDataPoints i j =>
    bracketed "rules[" i (bracketed ".conditions[" j ".time_aggregation.minimum_data_points")
  | reversedRange i j => bracketed "rules[" i (bracketed ".conditions[" j ".threshold")

/-- The code of a defect. -/
def code : Defect → String
  | noName | noRules | noConditions _ => "REQUIRED"
  | emptyWindow _ | negativeCooldown _ | negativeDataPoints _ _ => "INVALID_VALUE"
  | reversedRange _ _ => "INVALID_RANGE"

/-- A configuration has the defect. -/
def Present (c : Configuration) : Defect → Prop
  | noName => ∀ ch ∈ c.name.toList, Text.isBlank ch = true
  | noRules => c.rules = []
  | noConditions i => ∃ r, c.rules[i]? = some r ∧ r.conditions = []
  | emptyWindow i => ∃ r, c.rules[i]? = some r ∧ r.window ≤ 0
  | negativeCooldown i => ∃ r, c.rules[i]? = some r ∧ r.cooldown < 0
  | negativeDataPoints i j => ∃ r k, c.rules[i]? = some r ∧ r.conditions[j]? = some k ∧
      k.aggregation.minimumDataPoints < 0
  | reversedRange i j => ∃ r k low high, c.rules[i]? = some r ∧ r.conditions[j]? = some k ∧
      k.threshold = .range low high ∧ high.lt low = true

/-- Where a defect stands in the order of reading: the configuration before its rules, and of each
rule what it says itself before its conditions. -/
def rank : Defect → List Nat
  | noName => [0]
  | noRules => [1]
  | noConditions i => [2, i, 0]
  | emptyWindow i => [2, i, 1]
  | negativeCooldown i => [2, i, 2]
  | negativeDataPoints i j => [2, i, 3, j, 0]
  | reversedRange i j => [2, i, 3, j, 1]

/-- One defect is read before another. -/
def Before (d e : Defect) : Prop :=
  d.rank < e.rank

/-! ## Paths tell defects apart -/

/-- A number in brackets ends at the bracket. -/
theorem takeWhile_bracketed (n : Nat) (s : List Char) :
    ((toString n).toList ++ ']' :: s).takeWhile (· != ']') = (toString n).toList := by
  have hdigit : ∀ ch ∈ (toString n).toList, (ch != ']') = true := by
    intro ch hch
    have hch : ch ∈ n.repr.toList := hch
    rw [Nat.toList_repr] at hch
    rw [bne_iff_ne]
    rintro rfl
    exact absurd (Nat.isDigit_of_mem_toDigits (by decide) (by decide) hch) (by decide)
  rw [List.takeWhile_append_of_pos hdigit, List.takeWhile_cons_of_neg (by decide),
    List.append_nil]

theorem bracketed_inj {s t u : String} {m n : Nat} :
    bracketed s m t = bracketed s n u ↔ m = n ∧ t = u := by
  refine ⟨fun h => ?_, fun ⟨hn, ht⟩ => hn ▸ ht ▸ rfl⟩
  have hlist : ∀ (k : Nat) (x : String), (bracketed s k x).toList
      = s.toList ++ ((toString k).toList ++ ']' :: x.toList) := by
    intro k x
    have hbracket : "]".toList = [']'] := by decide
    unfold bracketed
    simp only [String.toList_append, hbracket, List.append_assoc, List.singleton_append]
  have h := congrArg String.toList h
  rw [hlist, hlist] at h
  have h := List.append_cancel_left h
  -- both numbers end at the first bracket, and what follows it is left
  have hnumber := congrArg (List.takeWhile (· != ']')) h
  rw [takeWhile_bracketed, takeWhile_bracketed] at hnumber
  rw [hnumber] at h
  obtain ⟨-, hrest⟩ := List.cons.inj (List.append_cancel_left h)
  -- a number is read back from its digits
  have hread : ∀ k : Nat, Nat.ofDigitChars 10 (toString k).toList 0 = k := by
    intro k
    rw [Nat.toString_eq_ofList_toDigits, String.toList_ofList]
    exact Nat.ofDigitChars_ten_toDigits
  refine ⟨?_, String.toList_inj.mp hrest⟩
  rw [← hread m, hnumber, hread]

/-- A path without a bracket is not one with a number in brackets. -/
theorem ne_bracketed {s t u : String} {n : Nat} (hs : ']' ∉ s.toList) : s ≠ bracketed t n u := by
  rintro rfl
  refine hs ?_
  have hbracket : ']' ∈ "]".toList := by decide
  unfold bracketed
  rw [String.toList_append, String.toList_append]
  exact List.mem_append_left _ (List.mem_append_right _ hbracket)

/-- **Paths tell defects apart.** Different defects are named by different paths. -/
theorem path_injective {d e : Defect} (h : d.path = e.path) : d = e := by
  have hname : ∀ n u, "name" ≠ bracketed "rules[" n u := fun _ _ => ne_bracketed (by decide)
  have hrules : ∀ n u, "rules" ≠ bracketed "rules[" n u := fun _ _ => ne_bracketed (by decide)
  have hconditions : ∀ n u, ".conditions" ≠ bracketed ".conditions[" n u :=
    fun _ _ => ne_bracketed (by decide)
  have hwindow : ∀ n u, ".evaluation_window" ≠ bracketed ".conditions[" n u :=
    fun _ _ => ne_bracketed (by decide)
  have hcooldown : ∀ n u, ".cooldown_period" ≠ bracketed ".conditions[" n u :=
    fun _ _ => ne_bracketed (by decide)
  -- two paths part at a word, at a number in brackets, or at what follows it
  cases d <;> cases e <;>
    simp_all [path, bracketed_inj, fun n u => (hname n u).symm, fun n u => (hrules n u).symm,
      fun n u => (hconditions n u).symm, fun n u => (hwindow n u).symm,
      fun n u => (hcooldown n u).symm]

/-- Ranks that part at a number are ordered by it. -/
theorem before_of_lt {d e : Defect} {s t u : List Nat} {m n : Nat} (hd : d.rank = s ++ m :: t)
    (he : e.rank = s ++ n :: u) (h : m < n) : d.Before e := by
  unfold Before
  rw [hd, he]
  clear hd he
  induction s with
  | nil => exact List.cons_lt_cons_iff.mpr (.inl h)
  | cons k s ih => exact List.cons_lt_cons_iff.mpr (.inr ⟨rfl, ih⟩)

instance (d e : Defect) : Decidable (d.Before e) :=
  inferInstanceAs (Decidable (d.rank < e.rank))

/-! ## The list of defects -/

/-- A defect that is listed if something is the case. -/
def when (b : Bool) (d : Defect) : List Defect :=
  if b then [d] else []

theorem mem_when {b : Bool} {d e : Defect} : d ∈ when b e ↔ b = true ∧ d = e := by
  cases b with
  | false => exact ⟨fun h => absurd h List.not_mem_nil, fun h => absurd h.1 Bool.false_ne_true⟩
  | true => exact ⟨fun h => ⟨rfl, List.mem_singleton.mp h⟩, fun h => List.mem_singleton.mpr h.2⟩

/-- A range whose ends are the wrong way round. -/
def isReversed : Threshold → Bool
  | .range low high => high.lt low
  | .scalar _ | .percentChange _ _ => false

theorem isReversed_eq_true_iff {t : Threshold} :
    isReversed t = true ↔ ∃ low high, t = .range low high ∧ high.lt low = true := by
  constructor
  · intro h
    cases t with
    | range low high => exact ⟨low, high, rfl, h⟩
    | scalar _ | percentChange _ _ => cases h
  · rintro ⟨low, high, rfl, h⟩
    exact h

/-- The defects of the condition at a place. -/
def ofCondition (i j : Nat) (k : Condition) : List Defect :=
  when (k.aggregation.minimumDataPoints < 0) (.negativeDataPoints i j)
    ++ when (isReversed k.threshold) (.reversedRange i j)

/-- The defects of the rule at a place. -/
def ofRule (i : Nat) (r : Rule) : List Defect :=
  when r.conditions.isEmpty (.noConditions i) ++ (when (r.window ≤ 0) (.emptyWindow i)
    ++ (when (r.cooldown < 0) (.negativeCooldown i)
      ++ (r.conditions.mapIdx (ofCondition i)).flatten))

/-- The defects of a configuration. -/
def ofConfiguration (c : Configuration) : List Defect :=
  when (Text.isAllBlank c.name) .noName
    ++ (when c.rules.isEmpty .noRules ++ (c.rules.mapIdx ofRule).flatten)

variable {d : Defect} {i j : Nat}

theorem mem_ofCondition {k : Condition} : d ∈ ofCondition i j k ↔
    (k.aggregation.minimumDataPoints < 0 ∧ d = .negativeDataPoints i j) ∨
      (isReversed k.threshold = true ∧ d = .reversedRange i j) := by
  unfold ofCondition
  rw [List.mem_append, mem_when, mem_when, decide_eq_true_iff]

theorem mem_ofRule {r : Rule} : d ∈ ofRule i r ↔
    (r.conditions = [] ∧ d = .noConditions i) ∨ (r.window ≤ 0 ∧ d = .emptyWindow i) ∨
      (r.cooldown < 0 ∧ d = .negativeCooldown i) ∨
      ∃ j k, r.conditions[j]? = some k ∧ d ∈ ofCondition i j k := by
  unfold ofRule
  rw [List.mem_append, List.mem_append, List.mem_append, mem_when, mem_when, mem_when,
    decide_eq_true_iff, decide_eq_true_iff, List.isEmpty_iff, mem_flatten_mapIdx]

theorem mem_ofConfiguration {c : Configuration} : d ∈ ofConfiguration c ↔
    ((∀ ch ∈ c.name.toList, Text.isBlank ch = true) ∧ d = .noName) ∨
      (c.rules = [] ∧ d = .noRules) ∨ ∃ i r, c.rules[i]? = some r ∧ d ∈ ofRule i r := by
  unfold ofConfiguration Text.isAllBlank
  rw [List.mem_append, List.mem_append, mem_when, mem_when, List.all_eq_true, List.isEmpty_iff,
    mem_flatten_mapIdx]

/-- The list names the defects that there are. -/
theorem mem_ofConfiguration_iff {c : Configuration} : d ∈ ofConfiguration c ↔ d.Present c := by
  rw [mem_ofConfiguration]
  constructor
  · rintro (⟨h, rfl⟩ | ⟨h, rfl⟩ | ⟨i, r, hr, hd⟩)
    · exact h
    · exact h
    · rcases mem_ofRule.mp hd with ⟨h, rfl⟩ | ⟨h, rfl⟩ | ⟨h, rfl⟩ | ⟨j, k, hk, hd⟩
      · exact ⟨r, hr, h⟩
      · exact ⟨r, hr, h⟩
      · exact ⟨r, hr, h⟩
      · rcases mem_ofCondition.mp hd with ⟨h, rfl⟩ | ⟨h, rfl⟩
        · exact ⟨r, k, hr, hk, h⟩
        · obtain ⟨low, high, h⟩ := isReversed_eq_true_iff.mp h
          exact ⟨r, k, low, high, hr, hk, h⟩
  · intro h
    cases d with
    | noName => exact .inl ⟨h, rfl⟩
    | noRules => exact .inr (.inl ⟨h, rfl⟩)
    | noConditions i =>
        obtain ⟨r, hr, h⟩ := h
        exact .inr (.inr ⟨i, r, hr, mem_ofRule.mpr (.inl ⟨h, rfl⟩)⟩)
    | emptyWindow i =>
        obtain ⟨r, hr, h⟩ := h
        exact .inr (.inr ⟨i, r, hr, mem_ofRule.mpr (.inr (.inl ⟨h, rfl⟩))⟩)
    | negativeCooldown i =>
        obtain ⟨r, hr, h⟩ := h
        exact .inr (.inr ⟨i, r, hr, mem_ofRule.mpr (.inr (.inr (.inl ⟨h, rfl⟩)))⟩)
    | negativeDataPoints i j =>
        obtain ⟨r, k, hr, hk, h⟩ := h
        have h : negativeDataPoints i j ∈ ofCondition i j k := mem_ofCondition.mpr (.inl ⟨h, rfl⟩)
        exact .inr (.inr ⟨i, r, hr, mem_ofRule.mpr (.inr (.inr (.inr ⟨j, k, hk, h⟩)))⟩)
    | reversedRange i j =>
        obtain ⟨r, k, low, high, hr, hk, h⟩ := h
        have h : reversedRange i j ∈ ofCondition i j k :=
          mem_ofCondition.mpr (.inr ⟨isReversed_eq_true_iff.mpr ⟨low, high, h⟩, rfl⟩)
        exact .inr (.inr ⟨i, r, hr, mem_ofRule.mpr (.inr (.inr (.inr ⟨j, k, hk, h⟩)))⟩)

/-! ## Their order -/

theorem Before.trans {a b c : Defect} (h : a.Before b) (h' : b.Before c) : a.Before c :=
  List.lt_trans h h'

/-- A list that is in order after a defect is in order with the defect. -/
theorem pairwise_when_append {b : Bool} {l : List Defect} (h : (d :: l).Pairwise Before) :
    (when b d ++ l).Pairwise Before := by
  cases b with
  | false => exact h.tail
  | true => exact h

/-- A list that is in order after a later defect is in order after an earlier one, with the later
one or without. -/
theorem pairwise_cons_when_append {b : Bool} {l : List Defect} {e : Defect} (hde : d.Before e)
    (h : (e :: l).Pairwise Before) : (d :: (when b e ++ l)).Pairwise Before := by
  obtain ⟨hbefore, -⟩ := List.pairwise_cons.mp h
  refine List.pairwise_cons.mpr ⟨fun f hf => ?_, pairwise_when_append h⟩
  rcases List.mem_append.mp hf with hf | hf
  · obtain ⟨-, rfl⟩ := mem_when.mp hf
    exact hde
  · exact hde.trans (hbefore f hf)

theorem rank_of_mem_ofCondition {k : Condition} (h : d ∈ ofCondition i j k) :
    ∃ n, d.rank = [2, i, 3] ++ j :: [n] := by
  rcases mem_ofCondition.mp h with ⟨-, rfl⟩ | ⟨-, rfl⟩
  · exact ⟨0, rfl⟩
  · exact ⟨1, rfl⟩

theorem rank_of_mem_ofRule {r : Rule} (h : d ∈ ofRule i r) : ∃ t, d.rank = [2] ++ i :: t := by
  rcases mem_ofRule.mp h with ⟨-, rfl⟩ | ⟨-, rfl⟩ | ⟨-, rfl⟩ | ⟨j, k, -, hd⟩
  · exact ⟨[0], rfl⟩
  · exact ⟨[1], rfl⟩
  · exact ⟨[2], rfl⟩
  · obtain ⟨n, hn⟩ := rank_of_mem_ofCondition hd
    exact ⟨3 :: j :: [n], hn⟩

theorem pairwise_ofCondition {k : Condition} : (ofCondition i j k).Pairwise Before := by
  have hrange : (negativeDataPoints i j).Before (reversedRange i j) :=
    before_of_lt (s := [2, i, 3, j]) (t := []) (u := []) rfl rfl (by decide)
  refine pairwise_when_append ?_
  rw [← List.append_nil (when _ _)]
  exact pairwise_cons_when_append hrange (List.pairwise_singleton _ _)

theorem pairwise_ofRule {r : Rule} : (ofRule i r).Pairwise Before := by
  have hwindow : (noConditions i).Before (emptyWindow i) :=
    before_of_lt (s := [2, i]) (t := []) (u := []) rfl rfl (by decide)
  have hcooldown : (emptyWindow i).Before (negativeCooldown i) :=
    before_of_lt (s := [2, i]) (t := []) (u := []) rfl rfl (by decide)
  -- what a rule says itself comes in its order, and its conditions come after that
  refine pairwise_when_append (pairwise_cons_when_append hwindow
    (pairwise_cons_when_append hcooldown (List.pairwise_cons.mpr ⟨fun d hd => ?_, ?_⟩)))
  · obtain ⟨j, k, -, hd⟩ := mem_flatten_mapIdx.mp hd
    obtain ⟨n, hn⟩ := rank_of_mem_ofCondition hd
    exact before_of_lt (s := [2, i]) (t := []) rfl hn (by decide)
  · refine pairwise_flatten_mapIdx (fun _ _ => pairwise_ofCondition) ?_
    intro j j' _ _ hj d hd e he
    obtain ⟨_, hd⟩ := rank_of_mem_ofCondition hd
    obtain ⟨_, he⟩ := rank_of_mem_ofCondition he
    exact before_of_lt hd he hj

/-- The list is in the order of reading. -/
theorem pairwise_ofConfiguration {c : Configuration} : (ofConfiguration c).Pairwise Before := by
  refine pairwise_when_append (pairwise_cons_when_append (by decide)
    (List.pairwise_cons.mpr ⟨fun d hd => ?_, ?_⟩))
  · obtain ⟨i, r, -, hd⟩ := mem_flatten_mapIdx.mp hd
    obtain ⟨t, ht⟩ := rank_of_mem_ofRule hd
    exact before_of_lt (s := []) (t := []) rfl ht (by decide)
  · refine pairwise_flatten_mapIdx (fun _ _ => pairwise_ofRule) ?_
    intro i i' _ _ hi d hd e he
    obtain ⟨_, hd⟩ := rank_of_mem_ofRule hd
    obtain ⟨_, he⟩ := rank_of_mem_ofRule he
    exact before_of_lt hd he hi

/-! ## What the check names -/

/-- The path and the code under which a defect is named. -/
def named (d : Defect) : String × String :=
  (d.path, d.code)

end Defect

/-- The path and the code that a finding names. -/
def Issue.named (e : Issue) : String × String :=
  (e.field, e.code)

namespace Validation

variable {c : Configuration} {v : Validation} {i j : Nat}

theorem map_when {b : Bool} {e : Issue} {d : Defect} (h : e.named = d.named) :
    (when b e).map Issue.named = (Defect.when b d).map Defect.named := by
  cases b with
  | false => rfl
  | true => exact congrArg (fun x => [x]) h

theorem ruleField_append (s : String) : ruleField i ++ s = Defect.bracketed "rules[" i s := rfl

theorem conditionField_append (s : String) : conditionField i j ++ s
    = Defect.bracketed "rules[" i (Defect.bracketed ".conditions[" j s) := by
  unfold conditionField
  rw [← ruleField_append]
  simp only [Defect.bracketed, String.append_assoc]

theorem map_conditionErrors {k : Condition} : (conditionErrors i j k).map Issue.named
    = (Defect.ofCondition i j k).map Defect.named := by
  unfold conditionErrors Defect.ofCondition
  rw [List.map_append, List.map_append]
  refine congrArg₂ (· ++ ·) (map_when (congrArg (·, _) (conditionField_append _))) ?_
  cases k.threshold with
  | range low high => exact map_when (congrArg (·, _) (conditionField_append _))
  | scalar _ | percentChange _ _ => rfl

theorem map_ruleErrors {r : Rule} :
    (ruleErrors i r).map Issue.named = (Defect.ofRule i r).map Defect.named := by
  unfold ruleErrors Defect.ofRule
  rw [List.append_assoc, List.append_assoc]
  simp only [List.map_append]
  refine congrArg₂ (· ++ ·) (map_when rfl) (congrArg₂ (· ++ ·) (map_when rfl)
    (congrArg₂ (· ++ ·) (map_when rfl) ?_))
  exact map_flatten_mapIdx fun _ _ => map_conditionErrors

/-- The findings name the defects of the list, in its order. -/
theorem map_errorsOf :
    (errorsOf c).map Issue.named = (Defect.ofConfiguration c).map Defect.named := by
  unfold errorsOf Defect.ofConfiguration
  rw [List.append_assoc]
  simp only [List.map_append]
  refine congrArg₂ (· ++ ·) (map_when rfl) (congrArg₂ (· ++ ·) (map_when rfl) ?_)
  exact map_flatten_mapIdx fun _ _ => map_ruleErrors

/-- **The check names exactly the defects.** The errors of a configuration that is checked name the
defects that it has, and no others, by their paths and codes and in the order of reading; no path
is named twice; and the configuration is valid exactly if it has none of them. -/
theorem names_defects (h : Validation.of c = .ok v) :
    (∃ ds : List Defect, ds.Pairwise Defect.Before ∧ (∀ d, d ∈ ds ↔ d.Present c) ∧
      v.errors.map (fun e => (e.field, e.code)) = ds.map fun d => (d.path, d.code)) ∧
    (v.errors.map (·.field)).Nodup ∧ (v.isValid = true ↔ ∀ d : Defect, ¬ d.Present c) := by
  have herrors := errors_of_of h
  have hnames : v.errors.map Issue.named = (Defect.ofConfiguration c).map Defect.named :=
    herrors ▸ map_errorsOf
  refine ⟨⟨Defect.ofConfiguration c, Defect.pairwise_ofConfiguration,
    fun _ => Defect.mem_ofConfiguration_iff, hnames⟩, ?_, ?_⟩
  · have hfields : v.errors.map (·.field) = (Defect.ofConfiguration c).map Defect.path := by
      have hfst := congrArg (List.map Prod.fst) hnames
      rw [List.map_map, List.map_map] at hfst
      exact hfst
    rw [hfields]
    -- a path that is named twice is that of one defect, which is not read before itself
    exact List.pairwise_map.mpr (Defect.pairwise_ofConfiguration.imp fun {d e} hde hsame =>
      absurd (Defect.path_injective hsame ▸ hde) (List.lt_irrefl d.rank))
  · unfold isValid
    rw [List.isEmpty_iff, ← List.map_eq_nil_iff (f := Issue.named), hnames, List.map_eq_nil_iff,
      List.eq_nil_iff_forall_not_mem]
    exact forall_congr' fun d => not_congr Defect.mem_ofConfiguration_iff

end Validation

namespace Sample

/-- A configuration without a name: one of its rules is not evaluated and has no conditions, the
other has a range from thirty down to ten. -/
def muddle : Json :=
  .object [("name", .text " "), ("rules", .list [
    .object [("name", .text "Idle"), ("enabled", .bool false), ("evaluation_window", .whole 0),
      ("conditions", .list [])],
    .object [("name", .text "Warm"), ("cooldown_period", .whole (-5)),
      ("conditions", .list [.object [("metric", .object [("type", .text "temperature")]),
        ("operator", .text "between"),
        ("threshold", .object [("value", .whole 30), ("secondary_value", .whole 10)])]])]])]

end Sample

set_option maxRecDepth 100000 in
/-- The defects of the muddle, in the rule that is not evaluated as in the other. -/
theorem Validation.names_muddle : ∃ c v,
    (Configuration.load (.atUtc 0) Sample.muddle .fresh).1 = .ok c ∧ Validation.of c = .ok v ∧
      v.errors.map (fun e => (e.field, e.code)) = [("name", "REQUIRED"),
        ("rules[0].conditions", "REQUIRED"), ("rules[0].evaluation_window", "INVALID_VALUE"),
        ("rules[1].cooldown_period", "INVALID_VALUE"),
        ("rules[1].conditions[0].threshold", "INVALID_RANGE")] ∧
      (∃ ds : List Defect, ds.Pairwise Defect.Before ∧ (∀ d, d ∈ ds ↔ d.Present c) ∧
        v.errors.map (fun e => (e.field, e.code)) = ds.map fun d => (d.path, d.code)) ∧
      (v.errors.map (·.field)).Nodup ∧ (v.isValid = true ↔ ∀ d : Defect, ¬ d.Present c) := by
  have hnames : ∃ c, (Configuration.load (.atUtc 0) Sample.muddle .fresh).1 = .ok c ∧
      ∃ v, Validation.of c = .ok v ∧ v.errors.map (fun e => (e.field, e.code))
        = [("name", "REQUIRED"), ("rules[0].conditions", "REQUIRED"),
          ("rules[0].evaluation_window", "INVALID_VALUE"),
          ("rules[1].cooldown_period", "INVALID_VALUE"),
          ("rules[1].conditions[0].threshold", "INVALID_RANGE")] := by
    decide +kernel
  obtain ⟨c, hload, v, hof, hnames⟩ := hnames
  exact ⟨c, v, hload, hof, hnames, names_defects hof⟩

end BuildingAlerts
