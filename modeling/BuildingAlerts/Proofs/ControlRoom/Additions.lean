/-
Configurations that are taken in, and their alerts.

Configurations are told apart by their identifiers alone, and rules by those of their configurations
and their own; the check asks of neither that they differ. What is taken in later takes the place of
what has the same identifier, and everything else stays. And a pass over a store without alerts opens
one alert for each rule that comes to one by itself, however its evaluations interleave, as long as
no rule that suppresses duplicates has the identifier of an earlier one of its configuration.
-/
import BuildingAlerts.Proofs.ControlRoom.Changes
import BuildingAlerts.Proofs.ControlRoom.Interleaving
import BuildingAlerts.Proofs.Rule.Yields

set_option autoImplicit false

namespace BuildingAlerts

/-! ## Configurations that are taken in -/

namespace ControlRoom

variable {c d : ControlRoom} {k : Configuration} {ks : List Configuration}

/-- Configurations are all taken in if the first one is accepted and the others are taken in. -/
theorem addConfigurations_cons : c.addConfigurations (k :: ks) = (.ok (), d) ↔
    ∃ v, k.accept = .ok v ∧ (c.keep k).addConfigurations ks = (.ok (), d) := by
  rw [addConfigurations, addConfiguration]
  cases k.accept with
  | error e => exact iff_of_false (fun h => nomatch (Prod.mk.inj h).1) fun ⟨_, h, _⟩ => nomatch h
  | ok v => exact ⟨fun h => ⟨v, rfl, h⟩, fun ⟨_, _, h⟩ => h⟩

/-- Configurations that are accepted are taken in. -/
theorem addConfigurations_eq (h : ks.all (·.accept.toBool) = true) :
    c.addConfigurations ks = (.ok (), ks.foldl keep c) := by
  induction ks generalizing c with
  | nil => rfl
  | cons k ks ih =>
      rw [List.all_cons, Bool.and_eq_true] at h
      cases hk : k.accept with
      | error e =>
          rw [hk] at h
          exact nomatch h.1
      | ok v => exact addConfigurations_cons.mpr ⟨v, hk, ih h.2⟩

theorem registry_addConfigurations (h : c.addConfigurations ks = (.ok (), d)) :
    d.registry = c.registry := by
  induction ks generalizing c with
  | nil => exact congrArg registry (Prod.mk.inj h).2.symm
  | cons k ks ih =>
      obtain ⟨v, -, h⟩ := addConfigurations_cons.mp h
      exact (ih h :)

theorem WellKept.addConfigurations (hc : WellKept c.configurations)
    (h : c.addConfigurations ks = (.ok (), d)) : WellKept d.configurations := by
  induction ks generalizing c with
  | nil => exact (Prod.mk.inj h).2 ▸ hc
  | cons k ks ih =>
      obtain ⟨v, hv, h⟩ := addConfigurations_cons.mp h
      exact ih (c := c.keep k) (hc.refiled (.put hv)) h

theorem get?_addConfigurations_of_ne (h : c.addConfigurations ks = (.ok (), d)) {id : String}
    (hne : ∀ k ∈ ks, k.id ≠ id) : d.configurations.get? id = c.configurations.get? id := by
  induction ks generalizing c with
  | nil => rw [(Prod.mk.inj h).2]
  | cons k ks ih =>
      obtain ⟨v, -, h⟩ := addConfigurations_cons.mp h
      rw [ih h fun x hx => hne x (List.mem_cons_of_mem k hx)]
      show (c.configurations.insert k.id k).get? id = _
      rw [Table.get?_insert, if_neg fun heq => hne k List.mem_cons_self heq.symm]

/-- **A configuration that was taken in** stays, unless one of its identifier comes later. -/
theorem get?_addConfigurations {before after : List Configuration}
    (h : c.addConfigurations (before ++ k :: after) = (.ok (), d))
    (hlast : ∀ x ∈ after, x.id ≠ k.id) : d.configurations.get? k.id = some k := by
  induction before generalizing c with
  | nil =>
      obtain ⟨v, -, h⟩ := addConfigurations_cons.mp h
      rw [get?_addConfigurations_of_ne h hlast]
      show (c.configurations.insert k.id k).get? k.id = _
      rw [Table.get?_insert, if_pos rfl]
  | cons x before ih =>
      obtain ⟨v, -, h⟩ := addConfigurations_cons.mp h
      exact ih h

end ControlRoom

/-! ## What the evaluations have found -/

theorem Store.nodup_ids_ofConfiguration {s : Store} (hs : s.Keyed) (honce : s.alerts.keys.Nodup)
    (configurationId : String) : ((s.ofConfiguration configurationId).map (·.id)).Nodup := by
  have hkeys : s.all.map (·.id) = s.alerts.keys := hs.map_values
  have hids : (s.all.map (·.id)).Nodup := hkeys ▸ honce
  exact hids.sublist (List.filter_sublist.map _)

/-- Whoever are beside those on the one side of some pairs are those on the other. -/
theorem Registry.eq_of_beside {ps qs : List (Alert × Alert)} {xs : List String}
    (hps : (ps.map (·.2.id)).Nodup) (hqs : ∀ q ∈ qs, q ∈ ps)
    (h : List.Forall₂ (Beside ps) xs (qs.map (·.2.id))) : xs = qs.map (·.1.id) := by
  induction qs generalizing xs with
  | nil => exact List.forall₂_nil_right_iff.mp h
  | cons q qs ih =>
      cases h with
      | @cons x _ xs _ hx hxs =>
          obtain ⟨r, hr, heq⟩ := List.mem_map.mp hx
          obtain ⟨rfl, hid⟩ := Prod.mk.inj heq
          have hrq : r = q := List.inj_on_of_nodup_map hps hr (hqs q List.mem_cons_self) hid
          rw [ih (fun p hp => hqs p (List.mem_cons_of_mem q hp)) hxs, hrq]
          rfl

/-- An evaluation that is over has found the alerts of its configuration, one for each rule that
comes to an alert by itself. -/
theorem Slot.Follows.found_eq {x : Slot} {s : Snapshot} {old : Store} {g : Registry}
    {e : Assignment × Registry} (h : x.Follows s old g e) (hover : x.rules = [])
    (he : e.2.After old e.1.rules.length)
    (hnone : e.2.store.ofConfiguration e.1.configuration.id = []) (hapart : Rule.Apart e.1.rules) :
    x.found = (g.store.ofConfiguration e.1.configuration.id).map (·.id) ∧
      List.Forall₂ (Rule.Opens e.1.configuration s)
        (e.1.rules.filter (Rule.yields e.1.configuration s))
        (g.store.ofConfiguration e.1.configuration.id) := by
  obtain ⟨done, left, ps, hrules, hleft, hr⟩ := h.comes
  rw [hover] at hleft
  obtain rfl := List.forall₂_nil_right_iff.mp hleft
  rw [List.append_nil] at hrules
  rw [← hrules] at hr
  obtain ⟨as, hstore, hfound, hall⟩ := Registry.After.foldl_yields (n := 0) (s := s) he hapart
    (fun r _ _ a ha => absurd (hnone ▸ ha) List.not_mem_nil) []
  have hend := (Registry.After.foldl (n := 0) he e.1.configuration s []).1
  rw [hnone, List.nil_append] at hstore
  rw [List.nil_append] at hfound
  have has : ps.map (·.2) = as := hr.right.symm.trans hstore
  have hids : (ps.map (·.2.id)).Nodup := by
    have hnodup := Store.nodup_ids_ofConfiguration hend.keyed hend.once e.1.configuration.id
    rw [hr.right, List.map_map] at hnodup
    exact hnodup
  refine ⟨?_, ?_⟩
  · have hbeside := hr.found
    rw [hfound, ← has, List.map_map] at hbeside
    rw [hr.left, List.map_map]
    exact Registry.eq_of_beside hids (fun _ hq => hq) hbeside
  · rw [hr.left]
    rw [← has] at hall
    rw [List.forall₂_map_right_iff] at hall ⊢
    obtain ⟨hlength, hopens⟩ := List.forall₂_iff_zip.mp hall
    exact List.forall₂_iff_zip.mpr ⟨hlength, fun {r p} hrp =>
      (hopens hrp).of_alike (hr.alike p (List.of_mem_zip hrp).2).symm⟩

/-- The rules of some active configurations that come to an alert by themselves, in the order of a
pass. -/
def Assignment.demands (s : Snapshot) (cs : List Configuration) : List (Configuration × Rule) :=
  (batch cs).flatMap fun a =>
    (a.rules.filter (Rule.yields a.configuration s)).map fun r => (a.configuration, r)

namespace Survey

variable {limit : Concurrency} {s : Snapshot} {c : ControlRoom} {cs : List Configuration}
  {v : Survey} {n : Nat}

/-- **A pass over a store without alerts** that is over has found one alert for each rule that comes
to an alert by itself, in order; no two of them are one, and there are no others. -/
theorem Reaches.found_own (hids : (cs.map (·.id)).Nodup)
    (hroom : c.registry.HasRoom ((Assignment.batch cs).map (·.rules.length)).sum)
    (hempty : c.registry.store = .empty) (hapart : ∀ a ∈ Assignment.batch cs, Rule.Apart a.rules)
    (hv : (begin c cs).Reaches limit s n v) (hover : v.IsOver) :
    v.found.Nodup ∧
      List.Forall₂ (fun x id => ∃ a, v.room.registry.store.get? id = some a ∧ x.2.Opens x.1 s a)
        (Assignment.demands s cs) v.found ∧
      ∀ a ∈ v.room.registry.store.all, a.id ∈ v.found := by
  have htracks := hv.tracks hids hroom
  have hbatch := Assignment.nodup_batch hids
  obtain ⟨-, -, harrive⟩ := hroom.after.runAll (n := 0) s hbatch
  generalize hes : Registry.arrivals s (Assignment.batch cs) c.registry = es at htracks harrive
  have hmap : es.map (·.1) = Assignment.batch cs := hes ▸ Registry.map_fst_arrivals s _ _
  rw [hempty] at htracks harrive
  have hnone : ∀ configurationId, Store.empty.ofConfiguration configurationId = [] := fun _ => rfl
  set store := v.room.registry.store with hstore
  -- what each evaluation has found are the alerts of its configuration
  have hslots : List.Forall₂ (fun e x => x.found
        = (store.ofConfiguration e.1.configuration.id).map (·.id) ∧
      List.Forall₂ (Rule.Opens e.1.configuration s)
        (e.1.rules.filter (Rule.yields e.1.configuration s))
        (store.ofConfiguration e.1.configuration.id)) es v.slots := by
    obtain ⟨hlength, hfollows⟩ := List.forall₂_iff_zip.mp htracks.slots
    refine List.forall₂_iff_zip.mpr ⟨hlength, fun {e x} hex => ?_⟩
    obtain ⟨he, hx⟩ := List.of_mem_zip hex
    obtain ⟨hafter, hbefore, -⟩ := harrive e he
    refine (hfollows hex).found_eq ((hfollows hex).finished (hover x hx)) hafter
      (hbefore.trans (hnone _)) (hapart e.1 ?_)
    rw [← hmap]
    exact List.mem_map_of_mem he
  have hfound : v.found = (Assignment.batch cs).flatMap fun a =>
      (store.ofConfiguration a.configuration.id).map (·.id) := by
    unfold found
    rw [← hmap, List.flatMap_map]
    exact flatMap_eq_of_forall₂ (hslots.imp fun _ _ hex => hex.1)
  have hopens : ∀ a ∈ Assignment.batch cs, List.Forall₂ (Rule.Opens a.configuration s)
      (a.rules.filter (Rule.yields a.configuration s))
      (store.ofConfiguration a.configuration.id) := by
    intro a ha
    rw [← hmap] at ha
    obtain ⟨e, he, rfl⟩ := List.mem_map.mp ha
    obtain ⟨i, hi⟩ := List.getElem?_of_mem he
    obtain ⟨x, -, hx⟩ := exists_of_forall₂ (List.Forall₂.flip hslots) hi
    exact hx.2
  have hmem : ∀ {a : Alert} {configurationId : String}, a ∈ store.ofConfiguration configurationId →
      store.get? a.id = some a ∧ a.configurationId = configurationId :=
    fun {_ _} ha => (Store.mem_ofConfiguration_iff htracks.room.keyed htracks.room.once).mp ha
  refine ⟨?_, ?_, fun a ha => ?_⟩
  · rw [hfound, List.nodup_flatMap]
    refine ⟨fun a _ => Store.nodup_ids_ofConfiguration htracks.room.keyed htracks.room.once _, ?_⟩
    refine (List.pairwise_map.mp hbatch).imp fun {a b} hne id hida hidb => hne ?_
    obtain ⟨x, hx, hxid⟩ := List.mem_map.mp hida
    obtain ⟨y, hy, hyid⟩ := List.mem_map.mp hidb
    obtain ⟨hgetx, hcx⟩ := hmem hx
    obtain ⟨hgety, hcy⟩ := hmem hy
    rw [hxid] at hgetx
    rw [hyid] at hgety
    rw [← hcx, ← hcy, Option.some.inj (hgetx.symm.trans hgety)]
  · rw [hfound]
    refine forall₂_flatMap fun a ha => ?_
    rw [List.forall₂_map_left_iff, List.forall₂_map_right_iff]
    obtain ⟨hlength, hall⟩ := List.forall₂_iff_zip.mp (hopens a ha)
    exact List.forall₂_iff_zip.mpr ⟨hlength, fun {r x} hrx =>
      ⟨x, (hmem (List.of_mem_zip hrx).2).1, hall hrx⟩⟩
  · have hown : a ∈ store.ofConfiguration a.configurationId :=
      List.mem_filter.mpr ⟨ha, beq_iff_eq.mpr rfl⟩
    by_cases hin : ∃ e ∈ es, e.1.configuration.id = a.configurationId
    · obtain ⟨e, he, hid⟩ := hin
      rw [hfound]
      refine List.mem_flatMap.mpr ⟨e.1, hmap ▸ List.mem_map_of_mem he, ?_⟩
      rw [hid]
      exact List.mem_map_of_mem hown
    · have hothers := htracks.others a.configurationId fun e he hid => hin ⟨e, he, hid⟩
      rw [← hstore, hnone] at hothers
      exact absurd (hothers ▸ hown) List.not_mem_nil

end Survey

/-- Each enabled rule of an active configuration that comes to an alert by itself is one of those
that a pass has an alert for. -/
theorem Assignment.mem_demands {s : Snapshot} {cs : List Configuration} {k : Configuration} {r : Rule}
    (hk : k ∈ cs) (hactive : k.isActive = true) (hr : r ∈ k.enabledRules)
    (hyields : r.yields k s = true) : (k, r) ∈ demands s cs :=
  List.mem_flatMap.mpr ⟨⟨k, k.enabledRules⟩,
    List.mem_map_of_mem (List.mem_filter.mpr ⟨hk, hactive⟩),
    List.mem_map_of_mem (List.mem_filter.mpr ⟨hr, hyields⟩)⟩

namespace Office

variable {p : Premises} {h : Past} {o : Office} {ks : List Configuration} {c : ControlRoom}

/-- **Everything that was taken in has alerts of its own.** A configuration stays as it was taken in
unless one of its identifier comes later. And a pass over a store without alerts comes to its end
whoever is evaluated when, and has then found one alert for each enabled rule of an active
configuration whose conditions are met and that is evaluated to the end when it has the store for
itself, as long as no rule that suppresses duplicates has the identifier of an earlier one of its
configuration: each of them the alert that its rule opens, no two of them the same one. -/
theorem Premises.Run.own_alerts (hr : p.Run h o) (hempty : o.state.registry.store = .empty)
    (hadd : o.state.addConfigurations ks = (.ok (), c))
    (hapart : ∀ k ∈ c.configurations.values, k.isActive = true → Rule.Apart k.enabledRules)
    (hdigits : c.registry.ids.drawn .alert
      + ((Assignment.batch c.configurations.values).map (·.rules.length)).sum < 16 ^ identWidth)
    {limit : Concurrency} (hlimit : limit.check = .ok ()) {s : Snapshot} {n : Nat} {v : Survey}
    (hv : (Survey.begin c c.configurations.values).Reaches limit s n v) :
    (∀ before k after, ks = before ++ k :: after → (∀ x ∈ after, x.id ≠ k.id) →
      c.configurations.get? k.id = some k ∧
      (k.isActive = true → ∀ r ∈ k.enabledRules, r.isMet s = true → r.completes k s = true →
        (k, r) ∈ Assignment.demands s c.configurations.values)) ∧
    (¬ v.IsOver → ∃ i w, v.workAt limit s i = some w) ∧
    n + v.left ≤ (Survey.begin c c.configurations.values).left ∧
    (v.IsOver → v.found.Nodup ∧
      List.Forall₂ (fun x id => ∃ a, v.room.registry.store.get? id = some a ∧ x.2.Opens x.1 s a)
        (Assignment.demands s c.configurations.values) v.found ∧
      ∀ a ∈ v.room.registry.store.all, a.id ∈ v.found) := by
  have hkept : WellKept c.configurations := ControlRoom.WellKept.addConfigurations hr.wellKept hadd
  have hstore : c.registry.store = .empty :=
    (congrArg Registry.store (ControlRoom.registry_addConfigurations hadd)).trans hempty
  have hids : (c.configurations.values.map (·.id)).Nodup := hkept.keyed.map_values ▸ hkept.once
  have hroom : c.registry.HasRoom
      ((Assignment.batch c.configurations.values).map (·.rules.length)).sum := by
    refine ⟨?_, ?_, hdigits, fun _ _ _ => ?_⟩
    · rw [hstore]
      exact fun _ he => absurd he List.not_mem_nil
    · rw [hstore]
      exact List.nodup_nil
    · rw [hstore]
      rfl
  refine ⟨fun before k after hks hlast => ?_, Survey.exists_workAt hlimit s, hv.left, fun hover =>
    hv.found_own hids hroom hstore (fun a ha => ?_) hover⟩
  · have hget := ControlRoom.get?_addConfigurations (hks ▸ hadd) hlast
    exact ⟨hget, fun hactive r hr hmet hcompletes => Assignment.mem_demands
      (Table.mem_values_of_get? hget) hactive hr (Bool.and_eq_true_iff.mpr ⟨hmet, hcompletes⟩)⟩
  · obtain ⟨k, hk, rfl⟩ := List.mem_map.mp ha
    obtain ⟨hk, hactive⟩ := List.mem_filter.mp hk
    exact hapart k hk hactive

/-! ## Wards that are told apart, and rules that are not -/

namespace Sample

/-- An office without any configurations. -/
def vacant : Premises :=
  premises fun _ => .ok ⟨true, .null, none, none⟩

/-- The ward and the annex. -/
def wards : List Configuration :=
  [configuration "ward" .standard none, configuration "annex" .standard none]

/-- A pass over both; the annex goes first. -/
def surveyed : Survey :=
  (Survey.begin (wards.foldl .keep vacant.room)
    (wards.foldl ControlRoom.keep vacant.room).configurations.values).play
    none snapshot [1, 0, 0, 1, 1, 0, 1, 0]

/-- The ward, and the ward again with a second rule under the identifier of the first. -/
def twins : List Configuration :=
  [configuration "ward" .standard none,
    { configuration "ward" .standard none with
      rules := (configuration "ward" .standard none).rules.flatMap fun r =>
        [r, { r with name := "Hot" }] }]

/-- A pass over what was taken in last. -/
def doubled : Survey :=
  (Survey.begin (twins.foldl .keep vacant.room)
    (twins.foldl ControlRoom.keep vacant.room).configurations.values).play
    none snapshot [0, 0, 0, 0, 0, 0]

end Sample

set_option maxRecDepth 100000 in
/-- The rules of the ward and of the annex have one identifier and two alerts. -/
theorem own_alerts_wards : Sample.surveyed.IsOver ∧
    Sample.surveyed.found = ["alert_0000000000000002", "alert_0000000000000001"] ∧
    List.Forall₂ (fun x id => ∃ a, Sample.surveyed.room.registry.store.get? id = some a ∧
        x.2.Opens x.1 Sample.snapshot a)
      (Assignment.demands Sample.snapshot
        (Sample.wards.foldl ControlRoom.keep Sample.vacant.room).configurations.values)
      Sample.surveyed.found := by
  have hover : Sample.surveyed.IsOver := by
    unfold Survey.IsOver
    decide +kernel
  have hadd : Sample.vacant.room.addConfigurations Sample.wards
      = (.ok (), Sample.wards.foldl ControlRoom.keep Sample.vacant.room) :=
    ControlRoom.addConfigurations_eq (by decide +kernel)
  obtain ⟨n, hn⟩ := Survey.reaches_play .start [1, 0, 0, 1, 1, 0, 1, 0]
  have hlimit : Concurrency.check none = .ok () := rfl
  have hown := Premises.Run.own_alerts (p := Sample.vacant) .idle rfl hadd (by decide) (by decide)
    hlimit hn
  exact ⟨hover, by decide +kernel, (hown.2.2.2 hover).2.1⟩

set_option maxRecDepth 100000 in
/-- **What is taken in may be lost, and rules may share an alert.** The ward that came first is not
there any more, and both rules of the other come to one alert. -/
theorem shared_twins :
    Sample.vacant.room.addConfigurations Sample.twins
      = (.ok (), Sample.twins.foldl ControlRoom.keep Sample.vacant.room) ∧
    ((Sample.twins.foldl ControlRoom.keep Sample.vacant.room).configurations.get? "ward").map
      (·.rules.length) = some 2 ∧
    (Assignment.demands Sample.snapshot
      (Sample.twins.foldl ControlRoom.keep Sample.vacant.room).configurations.values).length = 2 ∧
    (∃ n, (Survey.begin (Sample.twins.foldl ControlRoom.keep Sample.vacant.room)
      (Sample.twins.foldl ControlRoom.keep Sample.vacant.room).configurations.values).Reaches none
        Sample.snapshot n Sample.doubled) ∧
    Sample.doubled.IsOver ∧ ¬ Sample.doubled.found.Nodup := by
  refine ⟨ControlRoom.addConfigurations_eq (by decide +kernel), by decide +kernel, by decide +kernel,
    Survey.reaches_play .start [0, 0, 0, 0, 0, 0], ?_, by decide +kernel⟩
  unfold Survey.IsOver
  decide +kernel

end Office

end BuildingAlerts
