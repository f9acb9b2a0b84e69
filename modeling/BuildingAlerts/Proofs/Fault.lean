/-
Working with what may fail.

A chain of steps has a result exactly if each step has one, and a filter whose test may fail
has one exactly if no test fails; it then keeps what passes.
-/
import BuildingAlerts.Fault

set_option autoImplicit false

namespace BuildingAlerts

/-- A step after another has a result exactly if both have. -/
theorem bind_eq_ok_iff {ε α β : Type} {x : Except ε α} {f : α → Except ε β} {b : β} :
    x >>= f = .ok b ↔ ∃ a, x = .ok a ∧ f a = .ok b := by
  cases x with
  | error e =>
      constructor
      · intro h
        exact nomatch h
      · rintro ⟨a, h, -⟩
        exact nomatch h
  | ok a => exact ⟨fun h => ⟨a, rfl, h⟩, fun ⟨_, rfl, h⟩ => h⟩

theorem orFault_eq_ok_iff {α : Type} {f : Fault} {o : Option α} {a : α} :
    orFault f o = .ok a ↔ o = some a := by
  cases o with
  | none =>
      constructor
      · intro h
        exact nomatch h
      · intro h
        exact nomatch h
  | some b => exact ⟨fun h => congrArg some (Except.ok.inj h), fun h => congrArg _ (Option.some.inj h)⟩

private theorem filterAuxM_eq_ok {ε α : Type} {p : α → Except ε Bool} {l acc r : List α}
    (h : l.filterAuxM p acc = .ok r) :
    (∀ a ∈ l, ∃ b, p a = .ok b) ∧
      r = (l.filter fun a => (p a).toOption == some true).reverse ++ acc := by
  induction l generalizing acc with
  | nil => exact ⟨fun a ha => absurd ha List.not_mem_nil, (Except.ok.inj h).symm⟩
  | cons a l ih =>
      obtain ⟨b, hb, h⟩ := bind_eq_ok_iff.mp h
      obtain ⟨hall, hr⟩ := ih h
      refine ⟨fun c hc => ?_, ?_⟩
      · rcases List.mem_cons.mp hc with rfl | hc
        · exact ⟨b, hb⟩
        · exact hall c hc
      · have ha : (p a).toOption = some b := by rw [hb]; rfl
        rw [hr, List.filter_cons, ha]
        cases b with
        | true => simp
        | false => simp

/-- A filter whose test may fail: no test failed, and it kept what passed. -/
theorem filterM_eq_ok {ε α : Type} {p : α → Except ε Bool} {l r : List α}
    (h : l.filterM p = .ok r) :
    (∀ a ∈ l, ∃ b, p a = .ok b) ∧ r = l.filter fun a => (p a).toOption == some true := by
  obtain ⟨s, hs, hr⟩ := bind_eq_ok_iff.mp h
  obtain ⟨hall, hs⟩ := filterAuxM_eq_ok hs
  refine ⟨hall, ?_⟩
  rw [← Except.ok.inj hr, hs]
  simp

/-- A filter whose test may fail and that keeps nothing: every test was answered with no. -/
theorem filterM_eq_ok_nil {ε α : Type} {p : α → Except ε Bool} {l : List α}
    (h : l.filterM p = .ok []) : ∀ a ∈ l, p a = .ok false := by
  intro a ha
  obtain ⟨hall, hr⟩ := filterM_eq_ok h
  obtain ⟨b, hb⟩ := hall a ha
  have hno := List.filter_eq_nil_iff.mp hr.symm a ha
  rw [hb] at hno ⊢
  cases b with
  | true => exact absurd rfl hno
  | false => rfl

private theorem filterAuxM_map {ε α β : Type} (f : β → α) (p : α → Except ε Bool) (l acc : List β) :
    (l.map f).filterAuxM p (acc.map f)
      = (l.filterAuxM (fun b => p (f b)) acc).map (List.map f) := by
  induction l generalizing acc with
  | nil => rfl
  | cons b l ih =>
      show (p (f b) >>= fun x => (l.map f).filterAuxM p (cond x (f b :: acc.map f) (acc.map f)))
        = (p (f b) >>= fun x => l.filterAuxM (fun b => p (f b)) (cond x (b :: acc) acc)).map
            (List.map f)
      cases p (f b) with
      | error e => rfl
      | ok x =>
          cases x with
          | true => exact ih (b :: acc)
          | false => exact ih acc

/-- A filter whose test may fail, over the images of a list. -/
theorem filterM_map {ε α β : Type} (f : β → α) (p : α → Except ε Bool) (l : List β) :
    (l.map f).filterM p = (l.filterM fun b => p (f b)).map (List.map f) := by
  have h := filterAuxM_map f p l []
  unfold List.filterM
  rw [List.map_nil] at h
  rw [h]
  cases l.filterAuxM (fun b => p (f b)) [] with
  | error e => rfl
  | ok r => exact congrArg Except.ok List.map_reverse.symm

private theorem filterAuxM_congr {ε α : Type} {p q : α → Except ε Bool} {l : List α}
    (h : ∀ a ∈ l, p a = q a) (acc : List α) : l.filterAuxM p acc = l.filterAuxM q acc := by
  induction l generalizing acc with
  | nil => rfl
  | cons a l ih =>
      have hrest := fun b hb => h b (List.mem_cons_of_mem _ hb)
      show (p a >>= fun x => l.filterAuxM p (cond x (a :: acc) acc))
        = (q a >>= fun x => l.filterAuxM q (cond x (a :: acc) acc))
      rw [h a List.mem_cons_self]
      exact congrArg _ (funext fun _ => ih hrest _)

/-- Filters with the same tests. -/
theorem filterM_congr {ε α : Type} {p q : α → Except ε Bool} {l : List α}
    (h : ∀ a ∈ l, p a = q a) : l.filterM p = l.filterM q := by
  unfold List.filterM
  rw [filterAuxM_congr h]

private theorem filterAuxM_filter {ε α : Type} {p : α → Except ε Bool} {q : α → Bool} {l : List α}
    (h : ∀ a ∈ l, q a = false → ∃ b, p a = .ok b) (acc : List α) :
    (l.filter q).filterAuxM p (acc.filter q) = (l.filterAuxM p acc).map (List.filter q) := by
  induction l generalizing acc with
  | nil => rfl
  | cons a l ih =>
      have hrest := fun b hb => h b (List.mem_cons_of_mem _ hb)
      show _ = (p a >>= fun x => l.filterAuxM p (cond x (a :: acc) acc)).map (List.filter q)
      cases hq : q a with
      | true =>
          rw [List.filter_cons_of_pos hq]
          show (p a >>= fun x => (l.filter q).filterAuxM p (cond x (a :: acc.filter q)
            (acc.filter q))) = _
          cases p a with
          | error e => rfl
          | ok x =>
              cases x with
              | true => exact List.filter_cons_of_pos (l := acc) hq ▸ ih hrest (a :: acc)
              | false => exact ih hrest acc
      | false =>
          have hno : ¬ q a = true := by rw [hq]; exact Bool.false_ne_true
          obtain ⟨x, hx⟩ := h a List.mem_cons_self hq
          rw [List.filter_cons_of_neg hno, hx]
          cases x with
          | true => exact List.filter_cons_of_neg (l := acc) hno ▸ ih hrest (a :: acc)
          | false => exact ih hrest acc

/-- A filter whose test may fail, over a part of a list: it keeps that part of what it keeps, if no
test fails at what is left out. -/
theorem filterM_filter {ε α : Type} {p : α → Except ε Bool} {q : α → Bool} {l : List α}
    (h : ∀ a ∈ l, q a = false → ∃ b, p a = .ok b) :
    (l.filter q).filterM p = (l.filterM p).map (List.filter q) := by
  have haux := filterAuxM_filter h []
  unfold List.filterM
  rw [List.filter_nil] at haux
  rw [haux]
  cases l.filterAuxM p [] with
  | error e => rfl
  | ok r => exact congrArg Except.ok List.filter_reverse.symm

private theorem exists_filterAuxM_eq_ok {ε α : Type} {p : α → Except ε Bool} {l : List α}
    (h : ∀ a ∈ l, ∃ b, p a = .ok b) (acc : List α) : ∃ r, l.filterAuxM p acc = .ok r := by
  induction l generalizing acc with
  | nil => exact ⟨acc, rfl⟩
  | cons a l ih =>
      obtain ⟨b, hb⟩ := h a List.mem_cons_self
      obtain ⟨r, hr⟩ := ih (fun c hc => h c (List.mem_cons_of_mem _ hc)) (cond b (a :: acc) acc)
      exact ⟨r, bind_eq_ok_iff.mpr ⟨b, hb, hr⟩⟩

/-- A filter does not fail if no test of a member does. -/
theorem exists_filterM_eq_ok {ε α : Type} {p : α → Except ε Bool} {l : List α}
    (h : ∀ a ∈ l, ∃ b, p a = .ok b) : ∃ r, l.filterM p = .ok r := by
  obtain ⟨r, hr⟩ := exists_filterAuxM_eq_ok h []
  exact ⟨r.reverse, bind_eq_ok_iff.mpr ⟨r, hr, rfl⟩⟩

/-- Steps for the members of a list have results if each step has one. -/
theorem exists_mapM_eq_ok {ε α β : Type} {f : α → Except ε β} {l : List α}
    (h : ∀ a ∈ l, ∃ b, f a = .ok b) : ∃ bs, l.mapM f = .ok bs := by
  induction l with
  | nil => exact ⟨[], rfl⟩
  | cons a l ih =>
      obtain ⟨b, hb⟩ := h a List.mem_cons_self
      obtain ⟨bs, hbs⟩ := ih fun c hc => h c (List.mem_cons_of_mem _ hc)
      rw [List.mapM_cons]
      exact ⟨b :: bs, bind_eq_ok_iff.mpr ⟨b, hb, bind_eq_ok_iff.mpr ⟨bs, hbs, rfl⟩⟩⟩

/-- Results of steps for the members of a list: each is the result of one of the steps. -/
theorem exists_of_mapM_eq_ok {ε α β : Type} {f : α → Except ε β} {l : List α} {bs : List β}
    (h : l.mapM f = .ok bs) : ∀ b ∈ bs, ∃ a ∈ l, f a = .ok b := by
  induction l generalizing bs with
  | nil =>
      cases h
      exact fun b hb => absurd hb List.not_mem_nil
  | cons a l ih =>
      rw [List.mapM_cons] at h
      obtain ⟨c, hc, h⟩ := bind_eq_ok_iff.mp h
      obtain ⟨cs, hcs, h⟩ := bind_eq_ok_iff.mp h
      cases h
      intro b hb
      rcases List.mem_cons.mp hb with rfl | hb
      · exact ⟨a, List.mem_cons_self, hc⟩
      · obtain ⟨d, hd, hb⟩ := ih hcs b hb
        exact ⟨d, List.mem_cons_of_mem _ hd, hb⟩

end BuildingAlerts
