/-
What writing to a table does to what is read from it.

A name has the value that was written to it last. The values in order are the old ones with at
most one of them exchanged, or with one more at the end, so a relation between all values at
different places is kept by a write if the new value has it to the old ones.
-/
import BuildingAlerts.Table

set_option autoImplicit false

namespace BuildingAlerts

namespace Table

variable {α : Type}

/-! ## Values in order -/

theorem mem_setEntry {name : String} {value : α} {es : List (String × α)} {e : String × α}
    (h : e ∈ setEntry name value es) : e = (name, value) ∨ e ∈ es := by
  induction es with
  | nil => exact .inl (List.mem_singleton.mp h)
  | cons d es ih =>
      obtain ⟨k, v⟩ := d
      unfold setEntry at h
      by_cases hk : (k == name) = true
      · rw [if_pos hk, List.mem_cons, eq_of_beq hk] at h
        rcases h with h | h
        · exact .inl h
        · exact .inr (List.mem_cons_of_mem _ h)
      · rw [if_neg hk, List.mem_cons] at h
        rcases h with rfl | h
        · exact .inr List.mem_cons_self
        · rcases ih h with h | h
          · exact .inl h
          · exact .inr (List.mem_cons_of_mem _ h)

/-- A value after a write is the new one or an old one. -/
theorem mem_values_insert {t : Table α} {name : String} {value x : α}
    (h : x ∈ (t.insert name value).values) : x = value ∨ x ∈ t.values := by
  obtain ⟨e, he, rfl⟩ := List.mem_map.mp h
  rcases mem_setEntry he with rfl | he
  · exact .inl rfl
  · exact .inr (List.mem_map_of_mem he)

/-- A symmetric relation between the values at different places is kept by a write. -/
theorem pairwise_values_insert {R : α → α → Prop} (hsymm : ∀ x y, R x y → R y x)
    {t : Table α} {name : String} {value : α} (h : t.values.Pairwise R)
    (hv : ∀ x ∈ t.values, R value x) : (t.insert name value).values.Pairwise R := by
  obtain ⟨es⟩ := t
  unfold values insert at *
  dsimp only at *
  rw [List.pairwise_map] at h ⊢
  induction es with
  | nil => exact List.pairwise_singleton _ _
  | cons d es ih =>
      obtain ⟨k, v⟩ := d
      rw [List.pairwise_cons] at h
      have hvs : ∀ x ∈ es.map (·.2), R value x :=
        fun x hx => hv x (List.mem_cons_of_mem _ hx)
      unfold setEntry
      by_cases hk : (k == name) = true
      · rw [if_pos hk, List.pairwise_cons]
        exact ⟨fun e he => hvs e.2 (List.mem_map_of_mem he), h.2⟩
      · rw [if_neg hk, List.pairwise_cons]
        refine ⟨fun e he => ?_, ih h.2 hvs⟩
        rcases mem_setEntry he with rfl | he
        · exact hsymm _ _ (hv v List.mem_cons_self)
        · exact h.1 e he

/-- The values after a change, entry by entry. -/
theorem values_adjust (t : Table α) (name : String) (f : α → α) :
    (t.adjust name f).values
      = t.entries.map fun e => if (e.1 == name) = true then f e.2 else e.2 := by
  unfold values adjust
  dsimp only
  rw [List.map_map]
  refine List.map_congr_left fun e _ => ?_
  obtain ⟨k, v⟩ := e
  rw [Function.comp_apply]
  dsimp only
  split
  · rfl
  · rfl

/-- A value after a change is an old one, changed or not. -/
theorem mem_values_adjust {t : Table α} {name : String} {f : α → α} {x : α}
    (h : x ∈ (t.adjust name f).values) : ∃ y ∈ t.values, x = y ∨ x = f y := by
  rw [values_adjust] at h
  obtain ⟨e, he, rfl⟩ := List.mem_map.mp h
  refine ⟨e.2, List.mem_map_of_mem he, ?_⟩
  split
  · exact .inr rfl
  · exact .inl rfl

/-- A relation between the values at different places is kept by a change that keeps it. -/
theorem pairwise_values_adjust {R : α → α → Prop} {f : α → α}
    (hleft : ∀ x y, R x y → R (f x) y) (hright : ∀ x y, R x y → R x (f y))
    {t : Table α} {name : String} (h : t.values.Pairwise R) :
    (t.adjust name f).values.Pairwise R := by
  rw [values_adjust, List.pairwise_map]
  refine (List.pairwise_map.mp h).imp fun {d e} hr => ?_
  split <;> split
  · exact hright _ _ (hleft _ _ hr)
  · exact hleft _ _ hr
  · exact hright _ _ hr
  · exact hr

/-- A new name brings its value to the end. -/
theorem values_insert_of_new {t : Table α} {name : String} (h : t.get? name = none) (value : α) :
    (t.insert name value).values = t.values ++ [value] := by
  obtain ⟨es⟩ := t
  unfold values insert
  unfold get? at h
  dsimp only at h ⊢
  induction es with
  | nil => rfl
  | cons e es ih =>
      obtain ⟨k, v⟩ := e
      have hne : ¬ k = name := fun hk => by simp [hk] at h
      have hrest : es.lookup name = none := by
        rw [List.lookup_cons] at h
        simpa [show (name == k) = false from by simpa using fun hk : name = k => hne hk.symm] using h
      unfold setEntry
      rw [if_neg (by simpa using hne), List.map_cons, ih hrest]
      rfl

/-- What is read is one of the values. -/
theorem mem_values_of_get? {t : Table α} {name : String} {value : α}
    (h : t.get? name = some value) : value ∈ t.values := by
  obtain ⟨l, r, hl, -⟩ := List.lookup_eq_some_iff.mp h
  unfold values
  rw [hl]
  simp

/-- What is left when a name is taken out was there before. -/
theorem mem_values_of_mem_erase {t : Table α} {name : String} {value : α}
    (h : value ∈ (t.erase name).values) : value ∈ t.values := by
  obtain ⟨e, he, rfl⟩ := List.mem_map.mp h
  exact List.mem_map_of_mem (List.mem_filter.mp he).1

/-! ## Reading by name -/

private theorem lookup_setEntry (name other : String) (value : α) (es : List (String × α)) :
    (setEntry name value es).lookup other
      = if other = name then some value else es.lookup other := by
  induction es with
  | nil =>
      by_cases ho : other = name
      · rw [if_pos ho, ho, setEntry, List.lookup_cons_self]
      · have hb : (other == name) = false := by simpa using ho
        rw [if_neg ho, setEntry, List.lookup_cons, hb]
  | cons e es ih =>
      obtain ⟨k, v⟩ := e
      unfold setEntry
      by_cases hk : (k == name) = true
      · obtain rfl := eq_of_beq hk
        rw [if_pos hk, List.lookup_cons, List.lookup_cons]
        by_cases ho : other = k
        · rw [if_pos ho, ho, beq_self_eq_true]
        · have hb : (other == k) = false := by simpa using ho
          rw [if_neg ho, hb]
      · rw [if_neg hk, List.lookup_cons, List.lookup_cons, ih]
        by_cases ho : other = k
        · have hne : ¬ k = name := fun h => hk (beq_iff_eq.mpr h)
          simp only [ho, beq_self_eq_true, if_neg hne]
        · have hb : (other == k) = false := by simpa using ho
          rw [hb]

theorem get?_insert (t : Table α) (name other : String) (value : α) :
    (t.insert name value).get? other = if other = name then some value else t.get? other :=
  lookup_setEntry name other value t.entries

/-- Of several pairs of one name the last counts. -/
theorem get?_insertAll (t : Table α) (pairs : List (String × α)) (name : String) :
    (t.insertAll pairs).get? name = (pairs.reverse.lookup name).or (t.get? name) := by
  unfold insertAll
  induction pairs generalizing t with
  | nil => rfl
  | cons e pairs ih =>
      obtain ⟨k, v⟩ := e
      rw [List.foldl_cons, ih, get?_insert, List.reverse_cons, List.lookup_append, Option.or_assoc]
      congr 1
      by_cases hk : name = k
      · rw [if_pos hk, hk, List.lookup_cons_self]
        rfl
      · rw [if_neg hk, List.lookup_cons, beq_false_of_ne hk]
        rfl

private theorem lookup_map_entry (name other : String) (f : α → α) (es : List (String × α)) :
    (es.map fun (k, v) => if k == name then (k, f v) else (k, v)).lookup other
      = if other = name then (es.lookup other).map f else es.lookup other := by
  induction es with
  | nil => simp
  | cons e es ih =>
      obtain ⟨k, v⟩ := e
      rw [List.map_cons]
      by_cases hk : (k == name) = true
      · obtain rfl := eq_of_beq hk
        simp only [if_pos hk, List.lookup_cons, ih]
        by_cases ho : other = k
        · simp [ho]
        · have hb : (other == k) = false := by simpa using ho
          simp only [hb]
      · simp only [if_neg hk, List.lookup_cons, ih]
        by_cases ho : other = k
        · have hne : ¬ k = name := fun h => hk (beq_iff_eq.mpr h)
          simp only [ho, beq_self_eq_true, if_neg hne]
        · have hb : (other == k) = false := by simpa using ho
          simp only [hb]

theorem get?_adjust (t : Table α) (name other : String) (f : α → α) :
    (t.adjust name f).get? other
      = if other = name then (t.get? other).map f else t.get? other :=
  lookup_map_entry name other f t.entries

private theorem lookup_filter_entry (name other : String) (es : List (String × α)) :
    (es.filter fun (k, _) => k != name).lookup other
      = if other = name then none else es.lookup other := by
  induction es with
  | nil => simp
  | cons e es ih =>
      obtain ⟨k, v⟩ := e
      by_cases hk : k = name
      · rw [List.filter_cons_of_neg (by simp [hk]), ih, List.lookup_cons]
        by_cases ho : other = name
        · simp [ho]
        · have hb : (other == k) = false := by simp [hk, ho]
          simp only [hb]
      · rw [List.filter_cons_of_pos (by simp [hk]), List.lookup_cons, List.lookup_cons, ih]
        by_cases ho : other = k
        · simp only [ho, beq_self_eq_true, if_neg hk]
        · have hb : (other == k) = false := by simp [ho]
          simp only [hb]

theorem get?_erase (t : Table α) (name other : String) :
    (t.erase name).get? other = if other = name then none else t.get? other :=
  lookup_filter_entry name other t.entries

/-- A name has a value exactly if it is among the names. -/
theorem get?_isSome_iff {t : Table α} {name : String} :
    (t.get? name).isSome = true ↔ ∃ e ∈ t.entries, e.1 = name := by
  constructor
  · intro h
    obtain ⟨v, hv⟩ := Option.isSome_iff_exists.mp h
    obtain ⟨l, r, hl, -⟩ := List.lookup_eq_some_iff.mp hv
    exact ⟨(name, v), by rw [hl]; simp, rfl⟩
  · rintro ⟨e, he, rfl⟩
    unfold get?
    cases hl : t.entries.lookup e.1 with
    | some v => rfl
    | none =>
        have hne := List.lookup_eq_none_iff.mp hl e he
        simp at hne

/-! ## Names that are there once -/

/-- A write adds a name at the end, or none. -/
theorem keys_insert (t : Table α) (name : String) (value : α) :
    (t.insert name value).keys = if name ∈ t.keys then t.keys else t.keys ++ [name] := by
  obtain ⟨es⟩ := t
  unfold keys insert
  dsimp only
  induction es with
  | nil => rfl
  | cons e es ih =>
      obtain ⟨k, v⟩ := e
      unfold setEntry
      by_cases hk : k = name
      · simp [hk]
      · have hne : ¬ name = k := fun h => hk h.symm
        rw [if_neg (by simpa using hk), List.map_cons, ih]
        by_cases hmem : name ∈ es.map (·.1)
        · simp [hmem]
        · simp [hmem, hne]

theorem nodup_keys_insert {t : Table α} (ht : t.keys.Nodup) (name : String) (value : α) :
    (t.insert name value).keys.Nodup := by
  rw [keys_insert]
  split
  · exact ht
  · rename_i hname
    rw [List.nodup_append]
    refine ⟨ht, by simp, ?_⟩
    intro k hk j hj heq
    rw [List.mem_singleton.mp hj] at heq
    exact hname (heq ▸ hk)

theorem nodup_keys_erase {t : Table α} (ht : t.keys.Nodup) (name : String) :
    (t.erase name).keys.Nodup :=
  ht.sublist ((List.filter_sublist).map _)

/-- Where names are there once, an entry is what is read under its name. -/
theorem mem_entries_iff {t : Table α} (ht : t.keys.Nodup) {name : String} {value : α} :
    (name, value) ∈ t.entries ↔ t.get? name = some value := by
  obtain ⟨es⟩ := t
  unfold keys at ht
  unfold get?
  dsimp only at ht ⊢
  induction es with
  | nil => simp
  | cons e es ih =>
      obtain ⟨k, v⟩ := e
      rw [List.map_cons, List.nodup_cons] at ht
      rw [List.mem_cons, List.lookup_cons, ih ht.2]
      by_cases hk : name = k
      · -- the name is not there a second time
        have hrest : es.lookup k = none := by
          rw [List.lookup_eq_none_iff]
          intro d hd
          have hne : d.1 ≠ k := fun h => ht.1 (List.mem_map.mpr ⟨d, hd, h⟩)
          simpa using fun h => hne h.symm
        rw [hk, hrest]
        simp [eq_comm]
      · have hb : (name == k) = false := by simp [hk]
        simp [hb, hk]

/-! ## Values that know their names -/

/-- Every value stands under its own name. -/
def KeyedBy (key : α → String) (t : Table α) : Prop :=
  ∀ e ∈ t.entries, key e.2 = e.1

variable {key : α → String} {t : Table α}

theorem KeyedBy.insert (ht : t.KeyedBy key) {name : String} {value : α}
    (hv : key value = name) : (t.insert name value).KeyedBy key := by
  intro e he
  rcases mem_setEntry he with rfl | he
  · exact hv
  · exact ht e he

theorem KeyedBy.adjust (ht : t.KeyedBy key) {name : String} {f : α → α}
    (hf : ∀ v, key v = name → key (f v) = name) : (t.adjust name f).KeyedBy key := by
  intro e he
  obtain ⟨d, hd, rfl⟩ := List.mem_map.mp he
  obtain ⟨k, v⟩ := d
  dsimp only
  split
  · rename_i hk
    obtain rfl := eq_of_beq hk
    exact hf v (ht _ hd)
  · exact ht _ hd

/-- What is read under a name has that name. -/
theorem KeyedBy.of_get? (ht : t.KeyedBy key) {name : String} {value : α}
    (h : t.get? name = some value) : key value = name := by
  obtain ⟨l, r, hl, -⟩ := List.lookup_eq_some_iff.mp h
  exact ht (name, value) (by rw [hl]; simp)

theorem KeyedBy.map_values (ht : t.KeyedBy key) : t.values.map key = t.keys := by
  unfold values keys
  rw [List.map_map]
  exact List.map_congr_left ht

/-- The names of the values are the names of the table. -/
theorem KeyedBy.mem_map_iff (ht : t.KeyedBy key) {name : String} :
    name ∈ t.values.map key ↔ (t.get? name).isSome = true := by
  rw [get?_isSome_iff]
  unfold values
  rw [List.map_map, List.mem_map]
  exact exists_congr fun e => and_congr_right fun he => by rw [Function.comp_apply, ht e he]

/-- Where names are there once, a value is what is read under its own name. -/
theorem KeyedBy.mem_values_iff (ht : t.KeyedBy key) (honce : t.keys.Nodup) {value : α} :
    value ∈ t.values ↔ t.get? (key value) = some value := by
  rw [← mem_entries_iff honce]
  unfold values
  rw [List.mem_map]
  constructor
  · rintro ⟨⟨k, v⟩, he, rfl⟩
    have hk : key v = k := ht _ he
    rw [hk]
    exact he
  · intro h
    exact ⟨_, h, rfl⟩

theorem isSome_get?_insert (t : Table α) (name other : String) (value : α)
    (h : (t.get? other).isSome = true) : ((t.insert name value).get? other).isSome = true := by
  rw [get?_insert]
  split
  · rfl
  · exact h

@[simp] theorem isSome_get?_adjust (t : Table α) (name other : String) (f : α → α) :
    ((t.adjust name f).get? other).isSome = (t.get? other).isSome := by
  rw [get?_adjust]
  split
  · exact Option.isSome_map
  · rfl

end Table

/-! ## First places -/

private theorem firsts_aux {α : Type} [BEq α] [LawfulBEq α] (xs kept : List α)
    (hkept : kept.Nodup) :
    let all := xs.foldl (fun kept x => if kept.contains x then kept else kept ++ [x]) kept
    all.Nodup ∧ ∀ x, x ∈ all ↔ x ∈ kept ∨ x ∈ xs := by
  induction xs generalizing kept with
  | nil => exact ⟨hkept, fun x => by simp⟩
  | cons y ys ih =>
      dsimp only
      rw [List.foldl_cons]
      split
      · rename_i hy
        obtain ⟨hnodup, hmem⟩ := ih kept hkept
        refine ⟨hnodup, fun x => (hmem x).trans ?_⟩
        rw [List.mem_cons]
        constructor
        · rintro (hx | hx)
          · exact .inl hx
          · exact .inr (.inr hx)
        · rintro (hx | rfl | hx)
          · exact .inl hx
          · exact .inl (by simpa using hy)
          · exact .inr hx
      · rename_i hy
        have hnew : y ∉ kept := by simpa using hy
        have hkept' : (kept ++ [y]).Nodup :=
          List.nodup_append.mpr ⟨hkept, by simp, fun x hx z hz h =>
            hnew (List.mem_singleton.mp hz ▸ h ▸ hx)⟩
        obtain ⟨hnodup, hmem⟩ := ih _ hkept'
        refine ⟨hnodup, fun x => (hmem x).trans ?_⟩
        rw [List.mem_append, List.mem_singleton, List.mem_cons, or_assoc]

/-- The members of a list at their first places: the same members, each of them once. -/
@[simp] theorem mem_firsts {α : Type} [BEq α] [LawfulBEq α] {xs : List α} {x : α} :
    x ∈ firsts xs ↔ x ∈ xs :=
  ((firsts_aux xs [] List.nodup_nil).2 x).trans (by simp)

theorem nodup_firsts {α : Type} [BEq α] [LawfulBEq α] (xs : List α) : (firsts xs).Nodup :=
  (firsts_aux xs [] List.nodup_nil).1

/-! ## Functions that are changed at one place -/

@[simp] theorem assign_self {κ α : Type} [DecidableEq κ] (f : κ → α) (k : κ) (a : α) :
    assign f k a k = a :=
  if_pos rfl

theorem assign_of_ne {κ α : Type} [DecidableEq κ] {f : κ → α} {j k : κ} {a : α} (h : j ≠ k) :
    assign f k a j = f j :=
  if_neg h

end BuildingAlerts
