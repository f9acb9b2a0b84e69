/-
How far the open alerts of a rule lie apart.

At a reception where a rule always triggers with duplicates suppressed and with one cooldown, any two
open alerts of the rule lie more than the cooldown apart, in whatever order the triggerings come
and go and whatever times they bring, also earlier ones than before.

The invariant has a second half, about the triggerings that have looked and not yet registered:
every open alert of the rule lies further back than the cooldown from the time that they bring.
Looking establishes it, because the window of the search has no end. Registering uses it up, and
the lock is what keeps it in between: nobody else adds an alert of the rule meanwhile, and what
is done about an alert never opens one.
-/
import BuildingAlerts.Proofs.Alert.Registration
import BuildingAlerts.Proofs.Fault
import BuildingAlerts.Proofs.Table
import BuildingAlerts.Proofs.Time.Order

set_option autoImplicit false

namespace BuildingAlerts

variable {configurationId ruleId : String} {cooldown : Int}

/-! ## What a search that finds nothing says -/

/-- A moment that lies further back than some minutes. -/
def Moment.IsBehind (minutes : Int) (a now : Moment) : Prop :=
  a.offset.isSome = now.offset.isSome ∧ a.instant + minutes * Span.microsPerMinute < now.instant

theorem Moment.IsBehind.apart {minutes : Int} {a now : Moment} (h : a.IsBehind minutes now) :
    now.Apart minutes a := by
  obtain ⟨ho, hlt⟩ := h
  rw [Moment.apart_iff]
  refine ⟨ho.symm, lt_of_lt_of_le ?_ (le_abs_self _)⟩
  omega

/-- A number of minutes as a span. -/
theorem Span.micros_of_ofMinutes? {n : Int} {s : Span} (h : Span.ofMinutes? n = some s) :
    s.micros = n * Span.microsPerMinute := by
  unfold Span.ofMinutes? Span.ofMicros? at h
  dsimp only at h
  split at h
  · rw [← Option.some.inj h]
  · exact absurd h (by simp)

namespace Store

theorem latest?_eq_none {as : List Alert} (h : latest? as = none) : as = [] := by
  cases as with
  | nil => rfl
  | cons a as => exact nomatch h

/-- If no duplicate is found, every open alert of the rule lies further back than the cooldown.
There is no alert past the window, since it has no end. -/
theorem isBehind_of_openDuplicate?_eq_none {s : Store} {now : Moment}
    (h : s.openDuplicate? configurationId ruleId now cooldown = .ok none) {a : Alert}
    (ha : a ∈ s.all) (ho : isOpenOf configurationId ruleId a = true) :
    a.triggeredAt.IsBehind cooldown now := by
  obtain ⟨span, hspan, h⟩ := bind_eq_ok_iff.mp h
  obtain ⟨start, hstart, h⟩ := bind_eq_ok_iff.mp h
  obtain ⟨young, hyoung, h⟩ := bind_eq_ok_iff.mp h
  rw [latest?_eq_none (Except.ok.inj h)] at hyoung
  have hold := filterM_eq_ok_nil hyoung a (List.mem_filter.mpr ⟨ha, ho⟩)
  obtain ⟨hkind, hlt⟩ := Moment.le?_eq_some_false_iff.mp (orFault_eq_ok_iff.mp hold)
  obtain ⟨hoff, hinst⟩ := Moment.minus?_eq_some (orFault_eq_ok_iff.mp hstart)
  rw [Span.micros_of_ofMinutes? (orFault_eq_ok_iff.mp hspan)] at hinst
  rw [hoff] at hkind
  exact ⟨hkind.symm, by omega⟩

/-! ## What a store holds after a change -/

theorem mem_all_add {s : Store} {a x : Alert} (h : x ∈ (s.add a).all) : x = a ∨ x ∈ s.all :=
  Table.mem_values_insert h

/-- An alert after a change of one is an earlier one or what has become of it. -/
theorem mem_all_adjustAt {s : Store} {r : AlertRef} {f : Alert → Alert}
    (hf : ∀ a, (f a).Follows a) {x : Alert} (h : x ∈ (s.adjustAt r f).all) :
    ∃ y ∈ s.all, x.Follows y := by
  unfold adjustAt at h
  split at h
  · obtain ⟨y, hy, hx⟩ := Table.mem_values_adjust h
    refine ⟨y, hy, ?_⟩
    rcases hx with rfl | rfl
    · exact .rfl
    · exact hf y
  · exact ⟨x, h, .rfl⟩

end Store

/-! ## The invariant -/

/-- A symmetric relation between the members at different places is kept when one member is
exchanged for one that has it to all others. -/
theorem pairwise_set {α : Type} {R : α → α → Prop} (hsymm : ∀ x y, R x y → R y x) {l : List α}
    {y : α} {i : Nat} (h : l.Pairwise R) (hy : ∀ x ∈ l.eraseIdx i, R x y) :
    (l.set i y).Pairwise R := by
  have hother : ∀ j (hj : j < l.length), j ≠ i → R l[j] y := fun j hj hne =>
    hy _ (List.mem_eraseIdx_iff_getElem.mpr ⟨j, hj, hne, rfl⟩)
  rw [List.pairwise_iff_getElem] at h ⊢
  intro a b ha hb hab
  rw [List.length_set] at ha hb
  rw [List.getElem_set, List.getElem_set]
  by_cases hia : i = a
  · rw [if_pos hia, if_neg (by omega)]
    exact hsymm _ _ (hother b hb (by omega))
  · rw [if_neg hia]
    split
    · exact hother a ha (Ne.symm hia)
    · exact h a b ha hb hab

/-- A member has a symmetric relation to all that stay when it is taken out. -/
theorem pairwise_of_mem_eraseIdx {α : Type} {R : α → α → Prop} (hsymm : ∀ x y, R x y → R y x)
    {l : List α} (h : l.Pairwise R) {i : Nat} {x y : α} (hx : l[i]? = some x)
    (hy : y ∈ l.eraseIdx i) : R x y := by
  rw [List.pairwise_iff_getElem] at h
  obtain ⟨hi, rfl⟩ := List.getElem?_eq_some_iff.mp hx
  obtain ⟨j, hj, hne, rfl⟩ := List.mem_eraseIdx_iff_getElem.mp hy
  rcases Nat.lt_or_gt_of_ne hne with hlt | hgt
  · exact hsymm _ _ (h j i hj hi hlt)
  · exact h i j hi hj hgt

namespace Reception

/-- Two alerts that, if both are open ones of the rule, lie more than the cooldown apart. -/
def Distant (configurationId ruleId : String) (cooldown : Int) (a b : Alert) : Prop :=
  Store.isOpenOf configurationId ruleId a = true →
    Store.isOpenOf configurationId ruleId b = true →
      a.triggeredAt.Apart cooldown b.triggeredAt

theorem Distant.symm {a b : Alert} (h : Distant configurationId ruleId cooldown a b) :
    Distant configurationId ruleId cooldown b a :=
  fun hb ha => (h ha hb).symm

/-- A triggering as they come at this reception: it creates alerts of its own rule and time, and if
it is one of the rule, it suppresses duplicates with the one cooldown. -/
def Fits (configurationId ruleId : String) (cooldown : Int) (k : Triggering) : Prop :=
  k.IsFaithful ∧
    (k.key = (configurationId, ruleId) → k.suppress = true ∧ k.cooldown = cooldown)

/-- What holds at the reception at every moment. -/
structure Spaced (configurationId ruleId : String) (cooldown : Int) (d : Reception) : Prop where
  /-- The open alerts of the rule lie apart. -/
  alerts : d.store.all.Pairwise (Distant configurationId ruleId cooldown)
  fits : ∀ c ∈ d.calls, Fits configurationId ruleId cooldown c.1
  /-- No two calls of one rule are inside. -/
  alone : d.calls.Pairwise fun c e => c.2 = .inside → e.2 = .inside → c.1.key ≠ e.1.key
  /-- A call of the rule that is inside brings a time past all windows. -/
  behind : ∀ c ∈ d.calls, c.2 = .inside → c.1.key = (configurationId, ruleId) →
    ∀ a ∈ d.store.all, Store.isOpenOf configurationId ruleId a = true →
      a.triggeredAt.IsBehind cooldown c.1.now

/-- What a move may bring to the reception. -/
def Move.Fits (configurationId ruleId : String) (cooldown : Int) : Move → Prop
  | .ask k => Reception.Fits configurationId ruleId cooldown k
  | _ => True

theorem spaced_fresh (ids : IdSource) : Spaced configurationId ruleId cooldown (fresh ids) where
  alerts := List.Pairwise.nil
  fits := fun _ h => absurd h List.not_mem_nil
  alone := List.Pairwise.nil
  behind := fun _ h => absurd h List.not_mem_nil

/-- Fewer calls keep the invariant. -/
theorem Spaced.drop {d : Reception} (h : Spaced configurationId ruleId cooldown d) (place : Nat) :
    Spaced configurationId ruleId cooldown (d.drop place) where
  alerts := h.alerts
  fits := fun c hc => h.fits c (List.mem_of_mem_eraseIdx hc)
  alone := h.alone.sublist (List.eraseIdx_sublist _ _)
  behind := fun c hc => h.behind c (List.mem_of_mem_eraseIdx hc)

/-- A call that comes and waits keeps the invariant. -/
theorem Spaced.ask {d : Reception} (h : Spaced configurationId ruleId cooldown d) {k : Triggering}
    (hk : Fits configurationId ruleId cooldown k) :
    Spaced configurationId ruleId cooldown { d with calls := d.calls ++ [(k, .waiting)] } where
  alerts := h.alerts
  fits := by
    intro c hc
    rcases List.mem_append.mp hc with hc | hc
    · exact h.fits c hc
    · rw [List.mem_singleton.mp hc]
      exact hk
  alone := by
    rw [List.pairwise_append]
    refine ⟨h.alone, List.pairwise_singleton _ _, fun c _ e he _ hin => ?_⟩
    rw [List.mem_singleton.mp he] at hin
    exact absurd hin (by simp)
  behind := by
    intro c hc hin
    rcases List.mem_append.mp hc with hc | hc
    · exact h.behind c hc hin
    · rw [List.mem_singleton.mp hc] at hin
      exact absurd hin (by simp)

/-- What is done about an alert keeps the invariant. -/
theorem Spaced.remedy {d : Reception} (h : Spaced configurationId ruleId cooldown d) (r : AlertRef)
    (m : Remedy) :
    Spaced configurationId ruleId cooldown { d with store := d.store.adjustAt r m.apply } where
  alerts := by
    have hleft : ∀ a b, Distant configurationId ruleId cooldown a b →
        Distant configurationId ruleId cooldown (m.apply a) b := by
      intro a b hab ha hb
      have hf := Alert.follows_remedy m a
      rw [hf.triggeredAt]
      exact hab (Store.isOpenOf_of_follows hf ha) hb
    unfold Store.adjustAt
    split
    · exact Table.pairwise_values_adjust hleft (fun a b hab => (hleft b a hab.symm).symm) h.alerts
    · exact h.alerts
  fits := h.fits
  alone := h.alone
  behind := by
    intro c hc hin hkey a ha ho
    obtain ⟨b, hb, hf⟩ := Store.mem_all_adjustAt (Alert.follows_remedy m) ha
    rw [hf.triggeredAt]
    exact h.behind c hc hin hkey b hb (Store.isOpenOf_of_follows hf ho)

/-- The search of a call of the rule, if it finds nothing, finds all windows closed. -/
theorem isBehind_of_lookUp {d : Reception} {k : Triggering}
    (hk : Fits configurationId ruleId cooldown k) (hkey : k.key = (configurationId, ruleId))
    (hlook : k.lookUp d.store = .ok none) {a : Alert} (ha : a ∈ d.store.all)
    (ho : Store.isOpenOf configurationId ruleId a = true) :
    a.triggeredAt.IsBehind cooldown k.now := by
  obtain ⟨hsup, hcool⟩ := hk.2 hkey
  obtain ⟨hc, hr⟩ := Prod.mk.inj hkey
  unfold Triggering.lookUp at hlook
  rw [if_pos hsup, hc, hr, hcool] at hlook
  exact Store.isBehind_of_openDuplicate?_eq_none hlook ha ho

/-- Taking the free lock and looking keeps the invariant. -/
theorem Spaced.looked {d : Reception} (h : Spaced configurationId ruleId cooldown d) {place : Nat}
    {k : Triggering} (hk : d.calls[place]? = some (k, .waiting)) (hfree : d.isFree k.key = true) :
    Spaced configurationId ruleId cooldown (d.looked place k) := by
  have hfits := h.fits _ (List.mem_of_getElem? hk)
  have hout : ∀ c ∈ d.calls, c.2 = .inside → c.1.key ≠ k.key := by
    intro c hc hin heq
    have := List.all_eq_true.mp hfree c hc
    rw [hin, heq] at this
    simp at this
  unfold Reception.looked
  split
  · rename_i hlook
    refine ⟨h.alerts, fun c hc => ?_, ?_, fun c hc hin hkey => ?_⟩
    · rcases List.mem_or_eq_of_mem_set hc with hc | rfl
      · exact h.fits c hc
      · exact hfits
    · refine pairwise_set (fun c e hce he hc => (hce hc he).symm) h.alone fun c hc hin _ => ?_
      exact hout c (List.mem_of_mem_eraseIdx hc) hin
    · rcases List.mem_or_eq_of_mem_set hc with hc | rfl
      · exact h.behind c hc hin hkey
      · intro a ha ho
        exact isBehind_of_lookUp hfits hkey hlook ha ho
  · exact h.drop place

/-- Registering keeps the invariant: the new alert is past all windows, and nobody else of the
rule is inside. -/
theorem Spaced.registered {d : Reception} (h : Spaced configurationId ruleId cooldown d) {place : Nat}
    {k : Triggering} (hk : d.calls[place]? = some (k, .inside)) :
    Spaced configurationId ruleId cooldown (d.registered place k) := by
  have hdrop := h.drop place
  unfold Reception.registered
  split
  · rename_i a ids hmade
    obtain ⟨hfaithful, -⟩ := h.fits _ (List.mem_of_getElem? hk)
    obtain ⟨hc, hr, hat⟩ := hfaithful _ _ _ _ hmade
    have hkey : Store.isOpenOf configurationId ruleId a = true →
        k.key = (configurationId, ruleId) := by
      intro ho
      unfold Store.isOpenOf at ho
      rw [Bool.and_eq_true, Bool.and_eq_true, beq_iff_eq, beq_iff_eq, hc, hr] at ho
      exact Prod.ext ho.1.1 ho.1.2
    refine ⟨?_, hdrop.fits, hdrop.alone, fun c hc' hin hkey' b hb ho => ?_⟩
    · refine Table.pairwise_values_insert (fun _ _ => Distant.symm) h.alerts fun b hb ha ho => ?_
      rw [hat]
      exact (h.behind _ (List.mem_of_getElem? hk) rfl (hkey ha) b hb ho).apart
    · rcases Store.mem_all_add hb with rfl | hb
      · have hne := pairwise_of_mem_eraseIdx (fun c e hce he hc => (hce hc he).symm) h.alone hk hc'
        exact absurd ((hkey ho).trans hkey'.symm) (hne rfl hin)
      · exact hdrop.behind c hc' hin hkey' b hb ho
  · exact ⟨hdrop.alerts, hdrop.fits, hdrop.alone, hdrop.behind⟩

/-- Every move keeps the invariant. -/
theorem Spaced.step {d d' : Reception} (h : Spaced configurationId ruleId cooldown d) {m : Move}
    (hm : m.Fits configurationId ruleId cooldown) (hstep : d.step m = some d') :
    Spaced configurationId ruleId cooldown d' := by
  cases m with
  | ask k =>
      rw [← Option.some.inj hstep]
      exact h.ask hm
  | look place =>
      unfold Reception.step at hstep
      dsimp only at hstep
      split at hstep
      · rename_i k hk
        split at hstep
        · rename_i hfree
          rw [← Option.some.inj hstep]
          exact h.looked hk hfree
        · exact nomatch hstep
      · exact nomatch hstep
  | register place =>
      unfold Reception.step at hstep
      dsimp only at hstep
      split at hstep
      · rename_i k hk
        rw [← Option.some.inj hstep]
        exact h.registered hk
      · exact nomatch hstep
  | leave place =>
      unfold Reception.step at hstep
      dsimp only at hstep
      split at hstep
      · rw [← Option.some.inj hstep]
        exact h.drop place
      · exact nomatch hstep
  | remedy r m =>
      rw [← Option.some.inj hstep]
      exact h.remedy r m

/-- So does every row of moves. -/
theorem Spaced.play {ms : List Move} {d d' : Reception} (h : Spaced configurationId ruleId cooldown d)
    (hms : ∀ m ∈ ms, m.Fits configurationId ruleId cooldown) (hplay : d.play ms = some d') :
    Spaced configurationId ruleId cooldown d' := by
  induction ms generalizing d with
  | nil =>
      rw [← Option.some.inj hplay]
      exact h
  | cons m ms ih =>
      obtain ⟨e, he, hplay⟩ := Option.bind_eq_some_iff.mp hplay
      exact ih (h.step (hms m List.mem_cons_self) he)
        (fun n hn => hms n (List.mem_cons_of_mem _ hn)) hplay

/-! ## The spacing of open alerts -/

/-- **Open alerts of a rule lie apart.** However the triggerings at a reception come and go, as long
as those of the rule suppress duplicates with the same cooldown, any two of its open alerts lie
more than the cooldown apart at every moment. -/
theorem openAlerts_apart {ids : IdSource} {ms : List Move} {d : Reception}
    (hms : ∀ m ∈ ms, m.Fits configurationId ruleId cooldown)
    (hplay : (fresh ids).play ms = some d) :
    d.store.all.Pairwise fun a b =>
      Store.isOpenOf configurationId ruleId a = true →
        Store.isOpenOf configurationId ruleId b = true →
          a.triggeredAt.Apart cooldown b.triggeredAt :=
  ((spaced_fresh ids).play hms hplay).alerts

/-- A rule that triggers so many minutes after the start of 1970. -/
def warning (minutes : Int) : Triggering :=
  let start : Moment := .atUtc Moment.epoch
  (⟨"rule", "Warm", [], .medium, .all, 5, 30, true, true, "", []⟩ : Rule).triggering
    ⟨"plant", "Plant", [], .standard, none, .standard, .active, "", "", "", start, start⟩
    ⟨.atUtc (Moment.epoch + minutes * Span.microsPerMinute), [], [], [], none, none, []⟩ []

/-- Two triggerings overlap, the one of the earlier time looks last, and a third one follows. -/
def warnings : List Move :=
  [.ask (warning 0), .ask (warning 10), .look 1, .register 1, .look 0, .ask (warning 50), .look 0,
    .register 0]

theorem openAlerts_apart_warnings :
    ∃ d, (fresh .fresh).play warnings = some d ∧ (d.store.openAlerts none).length = 2 ∧
      d.store.all.Pairwise fun a b =>
        Store.isOpenOf "plant" "rule" a = true → Store.isOpenOf "plant" "rule" b = true →
          a.triggeredAt.Apart 30 b.triggeredAt := by
  have hlength : ((fresh .fresh).play warnings).map (fun d => (d.store.openAlerts none).length)
      = some 2 := by decide +kernel
  obtain ⟨d, hplay, hopen⟩ := Option.map_eq_some_iff.mp hlength
  have hfits : ∀ minutes, Fits "plant" "rule" 30 (warning minutes) :=
    fun _ => ⟨Rule.isFaithful_triggering _ _ _ _, fun _ => ⟨rfl, rfl⟩⟩
  refine ⟨d, hplay, hopen, openAlerts_apart (fun m hm => ?_) hplay⟩
  simp only [warnings, List.mem_cons, List.not_mem_nil, or_false] at hm
  rcases hm with rfl | rfl | rfl | rfl | rfl | rfl | rfl | rfl
  all_goals first | exact hfits _ | trivial

end Reception

end BuildingAlerts
