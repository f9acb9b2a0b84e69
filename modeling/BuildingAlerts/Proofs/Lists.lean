/-
Lists that are taken member by member.

Results that come in the order of what was asked for are related to it place by place. What holds of
the members at the same places carries over from one list to the other.
-/
import Mathlib.Data.List.Forall2
import Mathlib.Data.List.Nodup

set_option autoImplicit false

namespace BuildingAlerts

/-- The members of a list, each at its place. -/
theorem filterMap_getElem?_range' {α : Type} (l : List α) (k : Nat) :
    (List.range' k l.length).filterMap (fun t => l[t - k]?) = l := by
  induction l generalizing k with
  | nil => rfl
  | cons y l ih =>
      have hrest : (List.range' (k + 1) l.length).filterMap (fun t => (y :: l)[t - k]?)
          = (List.range' (k + 1) l.length).filterMap fun t => l[t - (k + 1)]? := by
        refine List.filterMap_congr fun t ht => ?_
        obtain ⟨i, rfl⟩ := Nat.exists_eq_add_of_le (List.mem_range'_1.mp ht).1
        rw [Nat.add_sub_cancel_left, show k + 1 + i - k = i + 1 by omega, List.getElem?_cons_succ]
      rw [List.length_cons, List.range'_succ, List.filterMap_cons, Nat.sub_self,
        List.getElem?_cons_zero, hrest, ih (k + 1)]

/-- The members of a list, numbered from one. -/
theorem mem_zipIdx_one {α : Type} {l : List α} {y : α} {i : Nat} :
    (y, i + 1) ∈ l.zipIdx 1 ↔ l[i]? = some y := by
  rw [List.mk_mem_zipIdx_iff_le_and_getElem?_sub, Nat.add_sub_cancel]
  exact and_iff_right (Nat.le_add_left 1 i)

/-! ## Lists that are related member by member -/

theorem exists_of_forall₂ {α β : Type} {R : α → β → Prop} {xs : List α} {ys : List β}
    (h : List.Forall₂ R xs ys) {i : Nat} {y : β} (hy : ys[i]? = some y) :
    ∃ x, xs[i]? = some x ∧ R x y := by
  induction h generalizing i with
  | nil => exact nomatch hy
  | cons hr _ ih =>
      cases i with
      | zero =>
          obtain rfl := Option.some.inj hy
          exact ⟨_, rfl, hr⟩
      | succ i => exact ih (i := i) hy

/-- Lists that are related member by member, with one member exchanged. -/
theorem forall₂_set {α β : Type} {R Q : α → β → Prop} {xs : List α} {ys : List β}
    (h : List.Forall₂ R xs ys) {i : Nat} {y : β}
    (hat : ∀ x, xs[i]? = some x → Q x y)
    (helse : ∀ j x z, j ≠ i → xs[j]? = some x → R x z → Q x z) :
    List.Forall₂ Q xs (ys.set i y) := by
  induction h generalizing i with
  | nil => exact .nil
  | @cons x z xs zs hr hrest ih =>
      cases i with
      | zero =>
          refine .cons (hat x rfl) ?_
          have hall : ∀ x ∈ xs, ∀ z, R x z → Q x z := by
            intro x hx z hz
            obtain ⟨j, hj⟩ := List.getElem?_of_mem hx
            exact helse (j + 1) x z (Nat.succ_ne_zero j) hj hz
          clear ih hat helse
          induction hrest with
          | nil => exact .nil
          | cons hr _ ih =>
              exact .cons (hall _ List.mem_cons_self _ hr)
                (ih fun x hx => hall x (List.mem_cons_of_mem _ hx))
      | succ i =>
          refine .cons (helse 0 x z (Nat.succ_ne_zero i).symm rfl hr) ?_
          exact ih hat fun j x z hj => helse (j + 1) x z fun h => hj (Nat.succ.inj h)

theorem flatMap_eq_of_forall₂ {α β γ : Type} {f : α → List γ} {g : β → List γ} {xs : List α}
    {ys : List β} (h : List.Forall₂ (fun x y => g y = f x) xs ys) : ys.flatMap g = xs.flatMap f := by
  induction h with
  | nil => rfl
  | cons hxy _ ih => rw [List.flatMap_cons, List.flatMap_cons, hxy, ih]

theorem forall₂_flatMap {α β γ : Type} {R : β → γ → Prop} {f : α → List β} {g : α → List γ}
    {xs : List α} (h : ∀ x ∈ xs, List.Forall₂ R (f x) (g x)) :
    List.Forall₂ R (xs.flatMap f) (xs.flatMap g) := by
  induction xs with
  | nil => exact .nil
  | cons x xs ih =>
      rw [List.flatMap_cons, List.flatMap_cons]
      exact List.rel_append (h x List.mem_cons_self) (ih fun y hy => h y (List.mem_cons_of_mem x hy))

theorem forall₂_trans {α β γ : Type} {R : α → β → Prop} {S : β → γ → Prop} {T : α → γ → Prop}
    {xs : List α} {ys : List β} {zs : List γ} (h : List.Forall₂ R xs ys) (k : List.Forall₂ S ys zs)
    (htrans : ∀ x y z, R x y → S y z → T x z) : List.Forall₂ T xs zs := by
  induction h generalizing zs with
  | nil =>
      cases k
      exact .nil
  | cons hr _ ih =>
      cases k with
      | cons hs hrest => exact .cons (htrans _ _ _ hr hs) (ih hrest)

/-- Whom the members of a list stand for is among those of the other. -/
theorem exists_mem_of_forall₂ {α β : Type} {R : α → β → Prop} {xs : List α} {ys : List β}
    (h : List.Forall₂ R xs ys) {y : β} (hy : y ∈ ys) : ∃ x ∈ xs, R x y := by
  obtain ⟨i, hi⟩ := List.getElem?_of_mem hy
  obtain ⟨x, hx, hr⟩ := exists_of_forall₂ h hi
  exact ⟨x, List.mem_of_getElem? hx, hr⟩

/-- Members that stand for different ones are different. -/
theorem nodup_of_forall₂ {α β : Type} {R : α → β → Prop} {xs : List α} {ys : List β}
    (h : List.Forall₂ R xs ys) (hunique : ∀ x y z, y ∈ ys → z ∈ ys → R x y → R x z → y = z)
    (hys : ys.Nodup) : xs.Nodup := by
  induction h with
  | nil => exact List.nodup_nil
  | @cons x y xs ys hr hrest ih =>
      obtain ⟨hy, hnodup⟩ := List.nodup_cons.mp hys
      refine List.nodup_cons.mpr ⟨fun hx => hy ?_, ih (fun x y z hy hz => hunique x y z
        (List.mem_cons_of_mem _ hy) (List.mem_cons_of_mem _ hz)) hnodup⟩
      obtain ⟨z, hz, hr'⟩ := exists_mem_of_forall₂ (List.Forall₂.flip hrest) hx
      rw [hunique x y z List.mem_cons_self (List.mem_cons_of_mem _ hz) hr hr']
      exact hz

/-- What a list is mapped to in part, beside the members that are mapped. -/
theorem forall₂_filterMap {α β : Type} (f : α → Option β) (l : List α) :
    List.Forall₂ (fun b a => f a = some b) (l.filterMap f) (l.filter fun a => (f a).isSome) := by
  induction l with
  | nil => exact .nil
  | cons a l ih =>
      cases hf : f a with
      | none =>
          rw [List.filterMap_cons_none hf, List.filter_cons_of_neg (by rw [hf]; nofun)]
          exact ih
      | some b =>
          rw [List.filterMap_cons_some hf, List.filter_cons_of_pos (by rw [hf]; rfl)]
          exact .cons hf ih

end BuildingAlerts
