/-
How a store grows.

Nothing is ever taken out of a store. Whoever holds a reference to an alert finds that alert
later on as well, even when another one has come under its identifier, and it stays an alert of
its configuration. Evaluating a configuration adds alerts of that configuration only, and every
identifier that comes of it is in the store by then.

Evaluating rules changes the store in one way only: alerts come in, each of them just triggered and
on level zero. Whatever an alert that comes in does to no other alert, no evaluation does.
-/
import BuildingAlerts.Proofs.Alert.Registration
import BuildingAlerts.Proofs.Fault
import BuildingAlerts.Proofs.Table
import BuildingAlerts.Rule.Pass

set_option autoImplicit false

namespace BuildingAlerts

namespace Store

/-- The identifiers of all alerts. -/
def ids (s : Store) : List String :=
  s.all.map (·.id)

/-- Every alert stands under its own identifier. -/
def Keyed (s : Store) : Prop :=
  s.alerts.KeyedBy (·.id)

/-- All alerts, those whose place was taken too, are of configurations of a kind. -/
def Of (I : String → Prop) (s : Store) : Prop :=
  ∀ r a, s.find? r = some a → I a.configurationId

/-- What `s` may have become. -/
structure Grows (s t : Store) : Prop where
  kept : ∀ r a, s.find? r = some a →
    ∃ b, t.find? r = some b ∧ b.configurationId = a.configurationId
  keyed : s.Keyed → t.Keyed
  ids : s.Keyed → ∀ id ∈ s.ids, id ∈ t.ids

variable {s t u : Store} {a : Alert} {r : AlertRef} {f : Alert → Alert} {I : String → Prop}

theorem Grows.rfl : s.Grows s :=
  ⟨fun _ a ha => ⟨a, ha, .refl _⟩, fun h => h, fun _ _ h => h⟩

theorem Grows.trans (h : s.Grows t) (k : t.Grows u) : s.Grows u where
  kept := by
    intro r a ha
    obtain ⟨b, hb, hba⟩ := h.kept r a ha
    obtain ⟨c, hc, hcb⟩ := k.kept r b hb
    exact ⟨c, hc, hcb.trans hba⟩
  keyed := fun hs => k.keyed (h.keyed hs)
  ids := fun hs id hid => k.ids (h.keyed hs) id (h.ids hs id hid)

/-- Where every alert stands under its identifier, the identifiers are the names. -/
theorem Keyed.mem_ids_iff (hs : s.Keyed) {id : String} :
    id ∈ s.ids ↔ (s.get? id).isSome = true :=
  Table.KeyedBy.mem_map_iff hs

theorem Of.mono {J : String → Prop} (hs : s.Of I) (h : ∀ id, I id → J id) : s.Of J :=
  fun r a ha => h _ (hs r a ha)

/-- The alert that an identifier stands for. -/
@[simp] theorem find?_ref (s : Store) (id : String) : s.find? (s.ref id) = s.get? id := by
  unfold find?
  exact if_pos rfl

/-! ## Adding -/

theorem formerOf_add (s : Store) (a : Alert) (id : String) :
    (s.add a).formerOf id
      = if id = a.id then s.formerOf id ++ (s.get? id).toList else s.formerOf id := by
  unfold add formerOf
  dsimp only
  by_cases hid : id = a.id
  · subst hid
    rw [if_pos rfl]
    cases hg : s.get? a.id with
    | none => exact (List.append_nil _).symm
    | some b =>
        dsimp only
        rw [Table.get?_insert, if_pos rfl]
        rfl
  · rw [if_neg hid]
    cases s.get? a.id with
    | none => rfl
    | some b =>
        dsimp only
        rw [Table.get?_insert, if_neg hid]

theorem get?_add (s : Store) (a : Alert) (id : String) :
    (s.add a).get? id = if id = a.id then some a else s.get? id :=
  Table.get?_insert s.alerts a.id id a

/-- All alerts that came under an identifier, in order. -/
def line (s : Store) (id : String) : List Alert :=
  s.formerOf id ++ (s.get? id).toList

/-- A reference is a place in the line of its identifier. -/
theorem find?_eq_line (s : Store) (r : AlertRef) : s.find? r = (s.line r.id)[r.place]? := by
  obtain ⟨id, place⟩ := r
  unfold find? line ref
  dsimp only
  by_cases hp : place = (s.formerOf id).length
  · rw [if_pos (by rw [hp]), hp, List.getElem?_append_right (Nat.le_refl _), Nat.sub_self]
    cases s.get? id with
    | none => rfl
    | some b => rfl
  · rw [if_neg (fun h => hp (AlertRef.mk.inj h).2)]
    by_cases hlt : place < (s.formerOf id).length
    · rw [List.getElem?_append_left hlt]
    · have hbeyond : (s.formerOf id ++ (s.get? id).toList).length ≤ place := by
        have hone : (s.get? id).toList.length ≤ 1 := by cases s.get? id <;> simp
        rw [List.length_append]
        omega
      rw [List.getElem?_eq_none (Nat.le_of_not_lt hlt), List.getElem?_eq_none hbeyond]

theorem line_add (s : Store) (a : Alert) (id : String) :
    (s.add a).line id = if id = a.id then s.line id ++ [a] else s.line id := by
  unfold line
  rw [formerOf_add, get?_add]
  split
  · rfl
  · rfl

theorem keyed_add (hs : s.Keyed) (a : Alert) : (s.add a).Keyed :=
  Table.KeyedBy.insert hs rfl

/-- Adding an alert. -/
theorem grows_add (s : Store) (a : Alert) : s.Grows (s.add a) where
  kept := by
    intro r b hb
    refine ⟨b, ?_, rfl⟩
    rw [find?_eq_line] at hb ⊢
    rw [line_add]
    split
    · exact List.getElem?_append_left (List.getElem?_eq_some_iff.mp hb).1 ▸ hb
    · exact hb
  keyed := fun hs => keyed_add hs a
  ids := by
    intro hs id hid
    rw [(keyed_add hs a).mem_ids_iff, get?_add]
    split
    · rfl
    · exact hs.mem_ids_iff.mp hid

theorem Of.add (hs : s.Of I) (ha : I a.configurationId) : (s.add a).Of I := by
  intro r b hb
  rw [find?_eq_line, line_add] at hb
  split at hb
  · rcases List.mem_append.mp (List.mem_of_getElem? hb) with hmem | hmem
    · obtain ⟨i, hi⟩ := List.getElem?_of_mem hmem
      exact hs ⟨r.id, i⟩ b ((find?_eq_line s _).trans hi)
    · obtain rfl := List.mem_singleton.mp hmem
      exact ha
  · exact hs r b ((find?_eq_line s r).trans hb)

/-! ## Changing -/

/-- A change that leaves the alert that is meant under its identifier and its configuration. -/
structure Spares (s : Store) (r : AlertRef) (f : Alert → Alert) : Prop where
  id : s.Keyed → ∀ a, a.id = r.id → (f a).id = r.id
  configurationId : ∀ a, s.find? r = some a → (f a).configurationId = a.configurationId

theorem spares_of_forall (hf : ∀ a, (f a).id = a.id ∧ (f a).configurationId = a.configurationId) :
    s.Spares r f :=
  ⟨fun _ a ha => (hf a).1.trans ha, fun a _ => (hf a).2⟩

/-- Only the alert that is meant changes. -/
theorem find?_adjustAt (s : Store) (r q : AlertRef) (f : Alert → Alert) :
    (s.adjustAt r f).find? q = if q = r then (s.find? q).map f else s.find? q := by
  unfold adjustAt
  by_cases hr : r = s.ref r.id
  · have hget : (s.adjust r.id f).get? q.id
        = if q.id = r.id then (s.get? q.id).map f else s.get? q.id :=
      Table.get?_adjust s.alerts r.id q.id f
    have hfind : (s.adjust r.id f).find? q = if q = s.ref q.id then (s.adjust r.id f).get? q.id
        else (s.formerOf q.id)[q.place]? := rfl
    rw [if_pos hr, hfind, hget]
    unfold find?
    by_cases hq : q = s.ref q.id
    · rw [if_pos hq, if_pos hq]
      by_cases hid : q.id = r.id
      · rw [if_pos hid, if_pos (by rw [hq, hid, ← hr])]
      · rw [if_neg hid, if_neg fun h => hid (congrArg _ h)]
    · rw [if_neg hq, if_neg hq, if_neg fun h => hq (by rw [h]; exact hr)]
  · rw [if_neg hr]
    have hformer : ∀ id, formerOf
          ⟨s.alerts, s.former.insert r.id ((s.formerOf r.id).modify r.place f)⟩ id
        = if id = r.id then (s.formerOf id).modify r.place f else s.formerOf id := by
      intro id
      unfold formerOf
      rw [Table.get?_insert]
      by_cases hid : id = r.id
      · rw [if_pos hid, if_pos hid, hid]
        rfl
      · rw [if_neg hid, if_neg hid]
    have hlength : ∀ id, (if id = r.id then (s.formerOf id).modify r.place f
        else s.formerOf id).length = (s.formerOf id).length := by
      intro id
      split
      · exact List.length_modify ..
      · rfl
    have hfind : find? ⟨s.alerts, s.former.insert r.id ((s.formerOf r.id).modify r.place f)⟩ q
        = if q = s.ref q.id then s.get? q.id
          else (if q.id = r.id then (s.formerOf q.id).modify r.place f
            else s.formerOf q.id)[q.place]? := by
      unfold find? ref
      rw [hformer, hlength]
      rfl
    rw [hfind]
    unfold find?
    by_cases hq : q = s.ref q.id
    · have hne : ¬ q = r := fun h => hr (h ▸ hq)
      rw [if_pos hq, if_pos hq, if_neg hne]
    · rw [if_neg hq, if_neg hq]
      by_cases hid : q.id = r.id
      · rw [if_pos hid, List.getElem?_modify]
        by_cases hplace : r.place = q.place
        · have hqr : q = r := by
            cases q
            cases r
            exact congr (congrArg AlertRef.mk hid) hplace.symm
          simp [hqr]
        · rw [if_neg fun h => hplace (congrArg _ h.symm)]
          simp [hplace]
      · rw [if_neg hid, if_neg fun h => hid (congrArg _ h)]

theorem keyed_adjustAt (hs : s.Keyed) (hf : s.Spares r f) : (s.adjustAt r f).Keyed := by
  unfold adjustAt
  split
  · exact Table.KeyedBy.adjust hs (hf.id hs)
  · exact hs

theorem get?_adjustAt_isSome (s : Store) (r : AlertRef) (f : Alert → Alert) (id : String) :
    ((s.adjustAt r f).get? id).isSome = (s.get? id).isSome := by
  unfold adjustAt
  split
  · exact Table.isSome_get?_adjust s.alerts r.id id f
  · rfl

theorem mem_ids_adjustAt (hs : s.Keyed) (hf : s.Spares r f) {id : String} :
    id ∈ (s.adjustAt r f).ids ↔ id ∈ s.ids := by
  rw [(keyed_adjustAt hs hf).mem_ids_iff, get?_adjustAt_isSome, hs.mem_ids_iff]

/-- Changing an alert. -/
theorem grows_adjustAt (hf : s.Spares r f) : s.Grows (s.adjustAt r f) where
  kept := by
    intro q a ha
    rw [find?_adjustAt, ha]
    split
    · rename_i hq
      exact ⟨f a, rfl, hf.configurationId a (hq ▸ ha)⟩
    · exact ⟨a, rfl, rfl⟩
  keyed := fun hs => keyed_adjustAt hs hf
  ids := fun hs _ => (mem_ids_adjustAt hs hf).mpr

theorem Of.adjustAt (hs : s.Of I) (hf : s.Spares r f) : (s.adjustAt r f).Of I := by
  intro q a ha
  rw [find?_adjustAt] at ha
  split at ha
  · rename_i hq
    obtain ⟨b, hb, rfl⟩ := Option.map_eq_some_iff.mp ha
    rw [hf.configurationId b (hq ▸ hb)]
    exact hs q b hb
  · exact hs q a ha

end Store

/-! ## Evaluating -/

/-- What evaluating rules of a configuration does to the store, and the identifiers that come
of it. -/
structure Evaluated (configurationId : String) (s : Store) (found : List String) (t : Store) :
    Prop where
  grows : s.Grows t
  holds : s.Keyed → ∀ id ∈ found, id ∈ t.ids
  new : s.Keyed → ∀ id ∈ t.ids, id ∈ s.ids ∨ id ∈ found
  of : ∀ {I : String → Prop}, I configurationId → s.Of I → t.Of I

theorem Evaluated.trans {configurationId : String} {s t u : Store} {xs ys : List String}
    (h : Evaluated configurationId s xs t) (k : Evaluated configurationId t ys u) :
    Evaluated configurationId s (xs ++ ys) u where
  grows := h.grows.trans k.grows
  holds := by
    intro hs id hid
    rcases List.mem_append.mp hid with hid | hid
    · exact k.grows.ids (h.grows.keyed hs) id (h.holds hs id hid)
    · exact k.holds (h.grows.keyed hs) id hid
  new := by
    intro hs id hid
    rcases k.new (h.grows.keyed hs) id hid with hid | hid
    · exact (h.new hs id hid).imp_right (List.mem_append_left _)
    · exact .inr (List.mem_append_right _ hid)
  of := fun hI hs => k.of hI (h.of hI hs)

theorem evaluated_nil (configurationId : String) (s : Store) :
    Evaluated configurationId s [] s :=
  ⟨.rfl, fun _ _ h => absurd h List.not_mem_nil, fun _ _ => .inl, fun _ hs => hs⟩

namespace Store

theorem mem_of_latest? {as : List Alert} {a : Alert} (h : latest? as = some a) : a ∈ as := by
  cases as with
  | nil => exact nomatch h
  | cons b bs =>
      have hfold : ∀ (cs : List Alert) (best : Alert), cs.foldl (fun best b =>
          if (best.triggeredAt.lt? b.triggeredAt).getD false then b else best) best
            ∈ best :: cs := by
        intro cs
        induction cs with
        | nil => exact fun _ => List.mem_singleton_self _
        | cons c cs ih =>
            intro best
            rw [List.foldl_cons]
            split
            · exact List.mem_cons_of_mem _ (ih c)
            · rcases List.mem_cons.mp (ih best) with heq | hmem
              · rw [heq]
                exact List.mem_cons_self
              · exact List.mem_cons_of_mem _ (List.mem_cons_of_mem _ hmem)
      rw [← Option.some.inj h]
      exact hfold bs b

/-- An open duplicate is in the store. -/
theorem mem_all_of_openDuplicate? {s : Store} {configurationId ruleId : String} {now : Moment}
    {cooldown : Int} {a : Alert}
    (h : s.openDuplicate? configurationId ruleId now cooldown = .ok (some a)) : a ∈ s.all := by
  obtain ⟨span, -, h⟩ := bind_eq_ok_iff.mp h
  obtain ⟨start, -, h⟩ := bind_eq_ok_iff.mp h
  obtain ⟨young, hyoung, h⟩ := bind_eq_ok_iff.mp h
  have hmem := mem_of_latest? (Except.ok.inj h)
  rw [(filterM_eq_ok hyoung).2] at hmem
  exact (List.mem_filter.mp (List.mem_filter.mp hmem).1).1

end Store

/-- A triggering of a rule is answered with an alert of the store, or with one that it adds. -/
theorem evaluated_openOrAdd {k : Triggering} (hk : k.IsFaithful) {s t : Store}
    {ids ids' : IdSource} {a : Alert} {new : Bool}
    (h : (s.openOrAdd k.configurationId k.ruleId k.now k.cooldown k.suppress k.create).on ids
      = (.ok (a, new, t), ids')) : Evaluated k.configurationId s [a.id] t := by
  rw [Store.openOrAdd_on] at h
  split at h
  · exact nomatch (Prod.mk.inj h).1
  · rename_i d hd
    obtain ⟨rfl, -, rfl⟩ := Except.ok.inj (Prod.mk.inj h).1
    refine ⟨.rfl, fun _ id hid => ?_, fun _ _ => .inl, fun _ hs => hs⟩
    obtain rfl := List.mem_singleton.mp hid
    unfold Triggering.lookUp at hd
    split at hd
    · exact List.mem_map_of_mem (Store.mem_all_of_openDuplicate? hd)
    · exact nomatch Except.ok.inj hd
  · cases hc : (k.create s).on ids with
    | mk made mid =>
        rw [hc] at h
        cases made with
        | error f => exact nomatch (Prod.mk.inj h).1
        | ok b =>
            obtain ⟨rfl, -, rfl⟩ := Except.ok.inj (Prod.mk.inj h).1
            refine ⟨s.grows_add a, fun hs id hid => ?_, fun hs id hid => ?_, fun hI hs => hs.add ?_⟩
            · obtain rfl := List.mem_singleton.mp hid
              rw [(Store.keyed_add hs a).mem_ids_iff, Store.get?_add, if_pos rfl]
              rfl
            · rw [(Store.keyed_add hs a).mem_ids_iff, Store.get?_add] at hid
              split at hid
              · rename_i heq
                exact .inr (List.mem_singleton.mpr heq)
              · exact .inl (hs.mem_ids_iff.mpr hid)
            · rw [(hk _ _ _ _ hc).1]
              exact hI

/-- Evaluating one rule. -/
theorem evaluated_evaluate {r : Rule} {c : Configuration} {s : Snapshot} {store store' : Store}
    {ids ids' : IdSource} {found : Option String}
    (h : (r.evaluate c s store).on ids = (.ok (found, store'), ids')) :
    Evaluated c.id store found.toList store' := by
  unfold Rule.evaluate at h
  obtain ⟨results, _, -, h⟩ := Drafting.on_bind_eq_ok h
  split at h
  · obtain ⟨⟨a, new, t⟩, _, hopen, h⟩ := Drafting.on_bind_eq_ok h
    obtain ⟨rfl, rfl⟩ := Prod.mk.inj (Except.ok.inj (Prod.mk.inj h).1)
    exact evaluated_openOrAdd (r.isFaithful_triggering c s results) hopen
  · obtain ⟨rfl, rfl⟩ := Prod.mk.inj (Except.ok.inj (Prod.mk.inj h).1)
    exact evaluated_nil _ _

/-- **Evaluating the rules of a configuration.** The induction is on the rules. -/
theorem Assignment.evaluated_run (b : Assignment) (s : Snapshot) (g : Registry) :
    Evaluated b.configuration.id g.store (b.run s g).1 (b.run s g).2.store := by
  have hstep : ∀ (r : Rule) (xs : List String) (k : Registry),
      ∃ ys, (step b.configuration s (xs, k) r).1 = xs ++ ys ∧
        Evaluated b.configuration.id k.store ys (step b.configuration s (xs, k) r).2.store := by
    intro r xs k
    unfold step
    dsimp only
    cases he : (r.evaluate b.configuration s k.store).on k.ids with
    | mk result ids =>
        dsimp only
        match result with
        | .ok (some id, store) => exact ⟨[id], rfl, evaluated_evaluate he⟩
        | .ok (none, store) => exact ⟨[], (List.append_nil _).symm, evaluated_evaluate he⟩
        | .error f => exact ⟨[], (List.append_nil _).symm, evaluated_nil _ _⟩
  have hall : ∀ (rs : List Rule) (xs : List String) (k : Registry),
      ∃ ys, (rs.foldl (step b.configuration s) (xs, k)).1 = xs ++ ys ∧
        Evaluated b.configuration.id k.store ys
          (rs.foldl (step b.configuration s) (xs, k)).2.store := by
    intro rs
    induction rs with
    | nil => exact fun xs k => ⟨[], (List.append_nil _).symm, evaluated_nil _ _⟩
    | cons r rs ih =>
        intro xs k
        obtain ⟨ys, hys, he⟩ := hstep r xs k
        obtain ⟨zs, hzs, he'⟩ := ih _ (step b.configuration s (xs, k) r).2
        refine ⟨ys ++ zs, ?_, he.trans he'⟩
        rw [List.foldl_cons, ← List.append_assoc, ← hys]
        exact hzs
  obtain ⟨ys, hys, he⟩ := hall b.rules [] g
  unfold run
  rw [hys]
  exact he

/-! ## Alerts that come in -/

/-- An alert that has just triggered. -/
structure Alert.IsNew (a : Alert) : Prop where
  status : a.status = .triggered
  level : a.escalationLevel = 0
  log : a.notifications = []

namespace Store

/-- A relation between stores that holds when a new alert comes in. -/
structure AllowsNew (R : Store → Store → Prop) : Prop where
  refl : ∀ s, R s s
  trans : ∀ {s t u}, R s t → R t u → R s u
  add : ∀ s a, a.IsNew → R s (s.add a)

variable {R : Store → Store → Prop} {s t : Store} {a : Alert}

/-- A triggering that creates new alerts. -/
theorem AllowsNew.openOrAdd (hR : AllowsNew R) {k : Triggering}
    (hk : ∀ s ids a ids', (k.create s).on ids = (.ok a, ids') → a.IsNew)
    {ids ids' : IdSource} {new : Bool}
    (h : (s.openOrAdd k.configurationId k.ruleId k.now k.cooldown k.suppress k.create).on ids
      = (.ok (a, new, t), ids')) : R s t := by
  rw [openOrAdd_on] at h
  split at h
  · exact nomatch (Prod.mk.inj h).1
  · obtain ⟨-, -, rfl⟩ := Except.ok.inj (Prod.mk.inj h).1
    exact hR.refl s
  · cases hc : (k.create s).on ids with
    | mk made mid =>
        rw [hc] at h
        cases made with
        | error f => exact nomatch (Prod.mk.inj h).1
        | ok b =>
            obtain ⟨rfl, -, rfl⟩ := Except.ok.inj (Prod.mk.inj h).1
            exact hR.add s _ (hk _ _ _ _ hc)

end Store

/-- The alert of a rule is a new one. -/
theorem Rule.isNew_alert (r : Rule) (c : Configuration) (s : Snapshot)
    (results : List ConditionResult) {store : Store} {ids ids' : IdSource} {a : Alert}
    (h : (r.alert c s results store).on ids = (.ok a, ids')) : a.IsNew := by
  obtain ⟨_, _, _, _, _, _, rfl⟩ := alert_eq_ok r c s results h
  exact ⟨rfl, rfl, rfl⟩

namespace Store

variable {R : Store → Store → Prop}

/-- Evaluating one rule. -/
theorem AllowsNew.evaluate (hR : AllowsNew R) {r : Rule} {c : Configuration} {s : Snapshot}
    {store store' : Store} {ids ids' : IdSource} {found : Option String}
    (h : (r.evaluate c s store).on ids = (.ok (found, store'), ids')) : R store store' := by
  unfold Rule.evaluate at h
  obtain ⟨results, _, -, h⟩ := Drafting.on_bind_eq_ok h
  split at h
  · obtain ⟨⟨a, new, t⟩, _, hopen, h⟩ := Drafting.on_bind_eq_ok h
    obtain ⟨rfl, rfl⟩ := Prod.mk.inj (Except.ok.inj (Prod.mk.inj h).1)
    exact hR.openOrAdd (k := r.triggering c s results)
      (fun _ _ _ _ hc => r.isNew_alert c s results hc) hopen
  · obtain ⟨rfl, rfl⟩ := Prod.mk.inj (Except.ok.inj (Prod.mk.inj h).1)
    exact hR.refl store

/-- **Evaluating the rules of a configuration** only lets new alerts come in. The induction is on
the rules. -/
theorem AllowsNew.run (hR : AllowsNew R) (b : Assignment) (s : Snapshot) (g : Registry) :
    R g.store (b.run s g).2.store := by
  have hstep : ∀ (x : List String × Registry) (r : Rule),
      R x.2.store (Assignment.step b.configuration s x r).2.store := by
    intro x r
    unfold Assignment.step
    dsimp only
    cases he : (r.evaluate b.configuration s x.2.store).on x.2.ids with
    | mk result ids =>
        dsimp only
        match result with
        | .ok (some id, store) => exact hR.evaluate he
        | .ok (none, store) => exact hR.evaluate he
        | .error f => exact hR.refl _
  have hall : ∀ (rs : List Rule) (x : List String × Registry),
      R x.2.store (rs.foldl (Assignment.step b.configuration s) x).2.store := by
    intro rs
    induction rs with
    | nil => exact fun x => hR.refl _
    | cons r rs ih => exact fun x => hR.trans (hstep x r) (ih _)
  exact hall b.rules ([], g)

/-! ## What was there stays as it is -/

/-- An alert that was there stays as it is, and if it has come in it is open. -/
structure Receives (r : AlertRef) (s t : Store) : Prop where
  kept : ∀ a, s.find? r = some a → t.find? r = some a
  new : ∀ a, t.find? r = some a → s.find? r = some a ∨ a.isOpen = true

variable {s t u : Store} {r : AlertRef}

theorem Receives.rfl : Receives r s s :=
  ⟨fun _ h => h, fun _ h => .inl h⟩

theorem Receives.trans (h : Receives r s t) (k : Receives r t u) : Receives r s u where
  kept := fun a ha => k.kept a (h.kept a ha)
  new := fun a ha => (k.new a ha).elim (h.new a) .inr

/-- Nothing else has become of the alert. -/
theorem receives_of_find? (h : t.find? r = s.find? r) : Receives r s t :=
  ⟨fun _ ha => h.trans ha, fun _ ha => .inl (h.symm.trans ha)⟩

theorem receives_add (s : Store) {a : Alert} (ha : a.isOpen = true) : Receives r s (s.add a) where
  kept := by
    intro b hb
    rw [find?_eq_line] at hb ⊢
    rw [line_add]
    split
    · obtain ⟨hlt, -⟩ := List.getElem?_eq_some_iff.mp hb
      rw [List.getElem?_append_left hlt]
      exact hb
    · exact hb
  new := by
    intro b hb
    rw [find?_eq_line, line_add] at hb
    rw [find?_eq_line]
    split at hb
    · rw [List.getElem?_append] at hb
      split at hb
      · exact .inl hb
      · exact .inr (List.mem_singleton.mp (List.mem_of_getElem? hb) ▸ ha)
    · exact .inl hb

theorem allowsNew_receives (r : AlertRef) : AllowsNew (Receives r) where
  refl := fun _ => .rfl
  trans := Receives.trans
  add := fun s _ ha => s.receives_add (by unfold Alert.isOpen; rw [ha.status]; rfl)

end Store

end BuildingAlerts
