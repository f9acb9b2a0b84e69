/-
What the timetable answers after each change of it.

The bookings and the lists of keys by alert are two tables that say the same thing twice: a key is
listed under an alert exactly if it is booked, and booked for that alert. `Agrees` is that property,
together with what keeps the lists small: no key stands on a list twice, and an alert that has
nothing booked has no list. Booking a key that is free and taking a booking out keep it.
-/
import BuildingAlerts.Agenda.Timetable
import BuildingAlerts.Proofs.Table

set_option autoImplicit false

namespace BuildingAlerts.Timetable

variable {t : Timetable} {key : String} {b : Booking} {task : TaskId}

/-! ## Lists of keys -/

/-- The keys that a table has for an alert. -/
def listed (l : Table (List String)) (alertId : String) : List String :=
  (l.get? alertId).getD []

theorem keysOf_eq_listed (t : Timetable) (alertId : String) :
    t.keysOf alertId = listed t.byAlert alertId :=
  rfl

/-- A list of keys with one more key at its end, unless it is there. -/
def withKey (keys : List String) (key : String) : List String :=
  if keys.contains key then keys else keys ++ [key]

theorem mem_withKey {keys : List String} {k : String} :
    k ∈ withKey keys key ↔ k ∈ keys ∨ k = key := by
  unfold withKey
  split
  · rename_i h
    constructor
    · exact Or.inl
    · rintro (hk | rfl)
      · exact hk
      · exact List.contains_iff_mem.mp h
  · simp

theorem nodup_withKey {keys : List String} (h : keys.Nodup) : (withKey keys key).Nodup := by
  unfold withKey
  split
  · exact h
  · rename_i hkey
    rw [List.nodup_append]
    refine ⟨h, by simp, ?_⟩
    intro k hk j hj heq
    rw [List.mem_singleton.mp hj] at heq
    exact hkey (List.contains_iff_mem.mpr (heq ▸ hk))

theorem withKey_ne_nil (keys : List String) : withKey keys key ≠ [] := by
  unfold withKey
  split
  · rename_i h
    intro hnil
    simp [hnil] at h
  · simp

theorem get?_list (l : Table (List String)) (alertId other : String) :
    (list l alertId key).get? other
      = if other = alertId then some (withKey (listed l alertId) key) else l.get? other :=
  Table.get?_insert l alertId other _

theorem listed_list (l : Table (List String)) (alertId other : String) :
    listed (list l alertId key) other
      = if other = alertId then withKey (listed l alertId) key else listed l other := by
  unfold listed
  rw [get?_list]
  by_cases h : other = alertId
  · rw [if_pos h, if_pos h]
    rfl
  · rw [if_neg h, if_neg h]

/-- Taking a key off a list; the list goes with the last key. -/
theorem get?_unlist (l : Table (List String)) (alertId other : String) :
    (unlist l alertId key).get? other
      = if other = alertId then
          (let rest := (listed l alertId).filter (· != key)
          if rest = [] then none else some rest)
        else l.get? other := by
  unfold unlist listed
  cases h : l.get? alertId with
  | none =>
      by_cases ho : other = alertId
      · simp [ho, h]
      · simp [ho]
  | some keys =>
      dsimp only [Option.getD_some]
      by_cases hrest : keys.filter (· != key) = []
      · rw [if_pos (by simp [hrest]), Table.get?_erase]
        simp only [hrest, if_true]
      · rw [if_neg (by simpa using hrest), Table.get?_insert]
        simp only [if_neg hrest]

theorem listed_unlist (l : Table (List String)) (alertId other : String) :
    listed (unlist l alertId key) other
      = if other = alertId then (listed l alertId).filter (· != key) else listed l other := by
  unfold listed
  rw [get?_unlist]
  by_cases h : other = alertId
  · rw [if_pos h, if_pos h]
    unfold listed
    dsimp only
    by_cases hrest : ((l.get? alertId).getD []).filter (· != key) = []
    · simp [hrest]
    · simp only [if_neg hrest, Option.getD_some]
  · rw [if_neg h, if_neg h]

/-! ## Bookings -/

theorem get?_book (t : Timetable) (key k : String) (b : Booking) :
    (t.book key b).bookings.get? k = if k = key then some b else t.bookings.get? k :=
  Table.get?_insert t.bookings key k b

/-- Taking out the booking that is there. -/
theorem get?_forget (hb : t.bookings.get? key = some b) (k : String) :
    (t.forget key b.task).bookings.get? k = if k = key then none else t.bookings.get? k := by
  unfold forget
  rw [hb]
  dsimp only
  rw [if_pos rfl]
  exact Table.get?_erase t.bookings key k

/-- A task takes out no booking but its own. -/
theorem forget_of_ne (h : ∀ b, t.bookings.get? key = some b → b.task ≠ task) :
    t.forget key task = t := by
  unfold forget
  split
  · rfl
  · rename_i b hb
    rw [if_neg (h b hb)]

/-- What is booked after a task has left the timetable was booked before. -/
theorem get?_of_forget {k : String} (h : (t.forget key task).bookings.get? k = some b) :
    t.bookings.get? k = some b := by
  by_cases hown : ∃ c, t.bookings.get? key = some c ∧ c.task = task
  · obtain ⟨c, hc, rfl⟩ := hown
    rw [get?_forget hc] at h
    split at h
    · exact nomatch h
    · exact h
  · rwa [forget_of_ne fun c hc he => hown ⟨c, hc, he⟩] at h

/-- The bookings of other tasks stay when a task leaves the timetable. -/
theorem get?_forget_of_ne {k : String} (h : t.bookings.get? k = some b) (hne : b.task ≠ task) :
    (t.forget key task).bookings.get? k = some b := by
  by_cases hown : ∃ c, t.bookings.get? key = some c ∧ c.task = task
  · obtain ⟨c, hc, rfl⟩ := hown
    rw [get?_forget hc, if_neg]
    · exact h
    · rintro rfl
      rw [hc] at h
      exact hne (congrArg Booking.task (Option.some.inj h.symm))
  · rw [forget_of_ne fun c hc he => hown ⟨c, hc, he⟩]
    exact h

/-! ## Agreement -/

/-- The lists of keys say what is booked, and for which alert. -/
structure Agrees (t : Timetable) : Prop where
  /-- One key has one booking at most. -/
  keys : t.bookings.keys.Nodup
  listed : ∀ alertId key, key ∈ t.keysOf alertId ↔
    ∃ b, t.bookings.get? key = some b ∧ b.alertId = some alertId
  once : ∀ alertId, (t.keysOf alertId).Nodup
  /-- No list is empty. -/
  filled : ∀ alertId, t.byAlert.get? alertId ≠ some []

theorem agrees_empty : Agrees .empty where
  keys := List.nodup_nil
  listed := by
    intro alertId key
    constructor
    · intro h
      exact absurd h List.not_mem_nil
    · rintro ⟨b, hb, -⟩
      exact nomatch hb
  once := fun _ => List.nodup_nil
  filled := fun _ => nofun

/-- A key that is free is booked. -/
theorem Agrees.book (ht : t.Agrees) (hfree : t.bookings.get? key = none) (b : Booking) :
    (t.book key b).Agrees := by
  have hkeys := Table.nodup_keys_insert ht.keys key b
  obtain ⟨alertId?, task⟩ := b
  cases alertId? with
  | none =>
      refine ⟨hkeys, fun id k => ?_, ht.once, ht.filled⟩
      show k ∈ t.keysOf id ↔ _
      rw [ht.listed, get?_book]
      by_cases hk : k = key
      · simp [hk, hfree]
      · rw [if_neg hk]
  | some alertId =>
      have hlist : ∀ id, (t.book key ⟨some alertId, task⟩).keysOf id
          = if id = alertId then withKey (t.keysOf alertId) key else t.keysOf id :=
        fun id => listed_list t.byAlert alertId id
      refine ⟨hkeys, fun id k => ?_, fun id => ?_, fun id => ?_⟩
      · rw [hlist, get?_book]
        by_cases hk : k = key
        · -- the key was on no list before
          have hnot : ∀ id, key ∉ t.keysOf id := by
            intro id hmem
            obtain ⟨c, hc, -⟩ := (ht.listed id key).mp hmem
            exact nomatch hfree.symm.trans hc
          by_cases hid : id = alertId
          · simp [hk, hid, mem_withKey]
          · have hid' : ¬ alertId = id := fun h => hid h.symm
            simp [hk, hid, hid', hnot]
        · rw [if_neg hk, ← ht.listed]
          by_cases hid : id = alertId
          · simp [hid, mem_withKey, hk]
          · rw [if_neg hid]
      · rw [hlist]
        split
        · exact nodup_withKey (ht.once alertId)
        · exact ht.once id
      · show (Timetable.list t.byAlert alertId key).get? id ≠ some []
        rw [get?_list]
        split
        · intro h
          exact withKey_ne_nil _ (Option.some.inj h)
        · exact ht.filled id

/-- A task leaves the timetable. -/
theorem Agrees.forget (ht : t.Agrees) (key : String) (task : TaskId) :
    (t.forget key task).Agrees := by
  by_cases hown : ∃ c, t.bookings.get? key = some c ∧ c.task = task
  · obtain ⟨c, hc, rfl⟩ := hown
    have hbookings : (t.forget key c.task).bookings = t.bookings.erase key := by
      unfold Timetable.forget
      rw [hc]
      dsimp only
      rw [if_pos rfl]
    have hkeys : (t.forget key c.task).bookings.keys.Nodup :=
      hbookings ▸ Table.nodup_keys_erase ht.keys key
    have hbyAlert : (t.forget key c.task).byAlert
        = c.alertId.elim t.byAlert fun alertId => unlist t.byAlert alertId key := by
      unfold Timetable.forget
      rw [hc]
      dsimp only
      rw [if_pos rfl]
      dsimp only
      cases c.alertId <;> rfl
    cases halert : c.alertId with
    | none =>
        rw [halert] at hbyAlert
        have hlist : ∀ id, (t.forget key c.task).keysOf id = t.keysOf id := by
          intro id
          rw [keysOf_eq_listed, hbyAlert]
          rfl
        refine ⟨hkeys, fun id k => ?_, fun id => hlist id ▸ ht.once id, fun id => ?_⟩
        · rw [hlist, ht.listed, get?_forget hc]
          by_cases hk : k = key
          · simp [hk, hc, halert]
          · rw [if_neg hk]
        · rw [hbyAlert]
          exact ht.filled id
    | some alertId =>
        rw [halert] at hbyAlert
        have hlist : ∀ id, (t.forget key c.task).keysOf id
            = if id = alertId then (t.keysOf alertId).filter (· != key) else t.keysOf id := by
          intro id
          rw [keysOf_eq_listed, hbyAlert]
          exact listed_unlist t.byAlert alertId id
        refine ⟨hkeys, fun id k => ?_, fun id => ?_, fun id => ?_⟩
        · rw [hlist, get?_forget hc]
          by_cases hk : k = key
          · by_cases hid : id = alertId
            · simp [hk, hid]
            · -- the key is listed under its own alert only
              have hnot : key ∉ t.keysOf id := by
                intro hmem
                obtain ⟨d, hd, hdid⟩ := (ht.listed id key).mp hmem
                obtain rfl := Option.some.inj (hc.symm.trans hd)
                exact hid (Option.some.inj (hdid.symm.trans halert))
              simp [hk, hid, hnot]
          · rw [if_neg hk, ← ht.listed]
            by_cases hid : id = alertId
            · simp [hid, hk]
            · rw [if_neg hid]
        · rw [hlist]
          split
          · exact (ht.once alertId).filter _
          · exact ht.once id
        · rw [hbyAlert]
          show (unlist t.byAlert alertId key).get? id ≠ some []
          rw [get?_unlist]
          split
          · dsimp only
            split
            · exact nofun
            · rename_i hrest
              exact fun h => hrest (Option.some.inj h)
          · exact ht.filled id
  · rwa [forget_of_ne fun c hc he => hown ⟨c, hc, he⟩]

/-- An alert has as many keys on its list as there are bookings for it. -/
theorem Agrees.length_keysOf (ht : t.Agrees) (alertId : String) :
    (t.keysOf alertId).length
      = (t.bookings.entries.filter fun e => e.2.alertId = some alertId).length := by
  have hperm : (t.keysOf alertId).Perm
      ((t.bookings.entries.filter fun e => e.2.alertId = some alertId).map (·.1)) := by
    rw [List.perm_ext_iff_of_nodup (ht.once alertId) (ht.keys.sublist (List.filter_sublist.map _))]
    intro key
    rw [ht.listed, List.mem_map]
    constructor
    · rintro ⟨b, hb, hid⟩
      refine ⟨(key, b), ?_, rfl⟩
      rw [List.mem_filter, Table.mem_entries_iff ht.keys]
      exact ⟨hb, by simpa using hid⟩
    · rintro ⟨⟨k, b⟩, he, rfl⟩
      rw [List.mem_filter, Table.mem_entries_iff ht.keys] at he
      exact ⟨b, he.1, by simpa using he.2⟩
  rw [hperm.length_eq, List.length_map]

end BuildingAlerts.Timetable
