/-
What is known of everything that a document can describe.

A schema yields values with a property if every value that it reads has the property, wherever
the value stands and whatever the document says. The property of an object follows from those of
its members, so one lemma for each way to put schemas together carries a property from the leaves
of a document to the whole. Three are carried here: the thresholds of a configuration are doubles,
the moments of a snapshot lie in the calendar and have an offset, and these offsets are of whole
minutes.
-/
import BuildingAlerts.Document.Configuration
import BuildingAlerts.Proofs.Alert.Registration
import BuildingAlerts.Proofs.Fault

set_option autoImplicit false

namespace BuildingAlerts

/-- Every value that a schema reads has a property. -/
def Schema.Yields {α : Type} (s : Schema α) (P : α → Prop) : Prop :=
  ∀ place v a, s.read place v = .sound a → P a

/-- Every value that is read from members has a property. -/
def Fields.Yields {α : Type} (fs : Fields α) (P : α → Prop) : Prop :=
  ∀ place ms a, fs.read place ms = .sound a → P a

variable {α β : Type} {P : β → Prop} {Q : α → Prop}

/-! ## Values that were read together -/

namespace Checked

theorem apply_eq_sound {f : Checked (α → β)} {a : Checked α} {b : β}
    (h : f.apply a = .sound b) : ∃ g x, f = .sound g ∧ a = .sound x ∧ g x = b := by
  cases f with
  | flawed es =>
      cases a with
      | sound x => cases h
      | flawed fs => cases h
  | sound g =>
      cases a with
      | flawed fs => cases h
      | sound x =>
          cases h
          exact ⟨g, x, rfl, rfl, rfl⟩

theorem map_eq_sound {f : α → β} {a : Checked α} {b : β} (h : a.map f = .sound b) :
    ∃ x, a = .sound x ∧ f x = b := by
  cases a with
  | flawed es => cases h
  | sound x =>
      cases h
      exact ⟨x, rfl, rfl⟩

/-- Each of several values that were read together was read. -/
theorem mem_of_all_eq_sound {cs : List (Checked α)} {l : List α} (h : all cs = .sound l) :
    ∀ a ∈ l, Checked.sound a ∈ cs := by
  induction cs generalizing l with
  | nil =>
      cases h
      exact fun a ha => absurd ha List.not_mem_nil
  | cons c cs ih =>
      obtain ⟨g, tail, hg, htail, rfl⟩ := apply_eq_sound h
      obtain ⟨head, rfl, rfl⟩ := map_eq_sound hg
      intro a ha
      rcases List.mem_cons.mp ha with rfl | ha
      · exact List.mem_cons_self
      · exact List.mem_cons_of_mem _ (ih htail a ha)

end Checked

/-! ## Schemas put together -/

namespace Fields

theorem yields_of_forall (h : ∀ b, P b) (fs : Fields β) : fs.Yields P :=
  fun _ _ b _ => h b

/-- A member that is of no account. -/
theorem Yields.skip {f : Fields (α → β)} (hf : f.Yields fun g => ∀ x, P (g x)) (a : Fields α) :
    (f <*> a).Yields P := by
  intro place ms b h
  obtain ⟨g, x, hg, -, rfl⟩ := Checked.apply_eq_sound h
  exact hf place ms g hg x

/-- A member whose property counts. -/
theorem Yields.seq {f : Fields (α → β)} {a : Fields α}
    (hf : f.Yields fun g => ∀ x, Q x → P (g x)) (ha : a.Yields Q) : (f <*> a).Yields P := by
  intro place ms b h
  obtain ⟨g, x, hg, hx, rfl⟩ := Checked.apply_eq_sound h
  exact hf place ms g hg x (ha place ms x hx)

/-- The first member. -/
theorem Yields.map {f : α → β} {a : Fields α} (ha : a.Yields fun x => P (f x)) :
    (f <$> a).Yields P := by
  intro place ms b h
  obtain ⟨x, hx, rfl⟩ := Checked.map_eq_sound h
  exact ha place ms x hx

theorem yields_required {s : Schema β} (hs : s.Yields P) (name : String) :
    (required name s).Yields P := by
  intro place ms a h
  unfold required at h
  dsimp only at h
  split at h
  · exact hs _ _ a h
  · cases h

theorem yields_withDefault {s : Schema β} {standard : β} (hs : s.Yields P) (name : String)
    (hstandard : P standard) : (withDefault name standard s).Yields P := by
  intro place ms a h
  unfold withDefault at h
  dsimp only at h
  split at h
  · exact hs _ _ a h
  · cases h
    exact hstandard

end Fields

namespace Schema

theorem yields_object {fs : Fields β} (hfs : fs.Yields P) : (object fs).Yields P := by
  intro place v a h
  cases v with
  | object ms => exact hfs place ms a h
  | null => cases h
  | bool b => cases h
  | number n => cases h
  | text s => cases h
  | list l => cases h

theorem yields_list {s : Schema β} (hs : s.Yields P) : (list s).Yields fun l => ∀ a ∈ l, P a := by
  intro place v l h a ha
  cases v with
  | list items =>
      obtain ⟨i, hi, hv⟩ := List.mem_mapIdx.mp (Checked.mem_of_all_eq_sound h a ha)
      exact hs _ _ a hv
  | object ms => cases h
  | null => cases h
  | bool b => cases h
  | number n => cases h
  | text s => cases h

theorem Yields.imp {R : β → Prop} {s : Schema β} (hs : s.Yields P) (h : ∀ b, P b → R b) :
    s.Yields R :=
  fun place v b hb => h b (hs place v b hb)

/-- A document that is accepted describes a value with the property. -/
theorem Yields.of_check {s : Schema β} (hs : s.Yields P) {v : Json} {a : β}
    (h : s.check v = .ok a) : P a := by
  unfold check at h
  cases hr : s.read [] v with
  | sound b =>
      rw [hr] at h
      cases h
      exact hs [] v a hr
  | flawed es =>
      rw [hr] at h
      cases h

end Schema

/-! ## What is created from documents -/

/-- Everything that a creation makes has a property. -/
def Drafting.Makes (d : Drafting α) (Q : α → Prop) : Prop :=
  ∀ ids a ids', d.on ids = (.ok a, ids') → Q a

theorem Drafting.makes_bind {d : Drafting α} {f : α → Drafting β}
    (hf : ∀ a, Q a → (f a).Makes P) (hd : d.Makes Q) : (d >>= f).Makes P := by
  intro ids b ids' h
  obtain ⟨a, mid, ha, hb⟩ := on_bind_eq_ok h
  exact hf a (hd ids a mid ha) mid b ids' hb

/-- Creations one after the other. -/
theorem Drafting.makes_mapM {ds : List (Drafting α)} (h : ∀ d ∈ ds, d.Makes Q) :
    (ds.mapM fun d => d).Makes fun l => ∀ a ∈ l, Q a := by
  induction ds with
  | nil =>
      intro ids l ids' hl
      cases hl
      exact fun a ha => absurd ha List.not_mem_nil
  | cons d ds ih =>
      rw [List.mapM_cons]
      refine makes_bind (fun a ha => ?_) (h d List.mem_cons_self)
      refine makes_bind (fun l hl => ?_) (ih fun e he => h e (List.mem_cons_of_mem _ he))
      intro ids k ids' hk
      cases hk
      intro b hb
      rcases List.mem_cons.mp hb with rfl | hb
      · exact ha
      · exact hl b hb

/-! ## Configurations -/

/-- Whether a number is a double. -/
def Number.IsReal (n : Number) : Prop :=
  ∃ x, n = .real x

/-- Whether the numbers of a threshold are doubles. -/
def Threshold.IsReal : Threshold → Prop
  | .scalar v => v.IsReal
  | .range low high => low.IsReal ∧ high.IsReal
  | .percentChange percent _ => percent.IsReal

theorem Threshold.IsReal.value {t : Threshold} (h : t.IsReal) : t.value.IsReal := by
  cases t with
  | scalar v => exact h
  | range low high => exact h.1
  | percentChange percent written => exact h

/-- Documents give thresholds in doubles. -/
theorem ThresholdParts.isReal_shaped {p : ThresholdParts} {op : Comparison} {t : Threshold}
    (h : p.shaped op = .ok t) : t.IsReal := by
  unfold shaped at h
  cases hshape : op.shape with
  | scalar =>
      rw [hshape] at h
      cases h
      exact ⟨_, rfl⟩
  | percentChange =>
      rw [hshape] at h
      cases h
      exact ⟨_, rfl⟩
  | range =>
      rw [hshape] at h
      cases hs : p.secondary with
      | none =>
          rw [hs] at h
          cases h
      | some high =>
          rw [hs] at h
          cases h
          exact ⟨⟨_, rfl⟩, ⟨_, rfl⟩⟩

/-- Whether the thresholds of all conditions of a rule are doubles. -/
def Rule.IsReal (r : Rule) : Prop :=
  ∀ c ∈ r.conditions, c.threshold.IsReal

open Fields Schema

theorem Condition.makes_draft (id : Option String) (metric : Metric) (op : Comparison)
    (parts : ThresholdParts) (aggregation : Aggregation) (filters : List ReadingFilter) :
    (draft id metric op parts aggregation filters).Makes fun c => c.threshold.IsReal := by
  intro ids c ids' h
  obtain ⟨t, _, ht, h⟩ := Drafting.on_bind_eq_ok h
  obtain ⟨i, _, -, h⟩ := Drafting.on_bind_eq_ok h
  unfold make at h
  split at h
  · cases h
    exact ThresholdParts.isReal_shaped (Prod.mk.inj ht).1
  · cases h

theorem Condition.yields_schema :
    schema.Yields fun d => d.Makes fun c => c.threshold.IsReal :=
  yields_object <| .skip (.skip (.skip (.skip (.skip (.map (yields_of_forall
    (fun id metric op parts aggregation filters =>
      makes_draft id metric op parts aggregation filters) _)) _) _) _) _) _

theorem Rule.yields_schema : schema.Yields fun d => d.Makes Rule.IsReal := by
  refine yields_object <| .skip (.skip (.skip (.skip (.skip (.seq (.skip (.skip (.skip (.skip
    (.map (yields_of_forall (fun id name description enabled priority ds hds connective window
      cooldown suppress tags => ?_) _)) _) _) _) _)
    (yields_withDefault (yields_list Condition.yields_schema) _ ?_)) _) _) _) _) _
  · refine Drafting.makes_bind (fun conditions hconditions => ?_) (Drafting.makes_mapM hds)
    intro ids r ids' h
    obtain ⟨i, _, -, h⟩ := Drafting.on_bind_eq_ok h
    cases h
    exact hconditions
  · exact fun d hd => absurd hd List.not_mem_nil

theorem Configuration.yields_schema (now : Moment) :
    (schema now).Yields fun d => d.Makes fun c => ∀ r ∈ c.rules, r.IsReal := by
  refine yields_object <| .skip (.skip (.skip (.seq (.skip (.skip (.skip (.skip (.skip
    (.map (yields_of_forall (fun id name description status user organization ds hds routing
      policy metadata => ?_) _)) _) _) _) _) _)
    (yields_withDefault (yields_list Rule.yields_schema) _ ?_)) _) _) _
  · refine Drafting.makes_bind (fun rules hrules => ?_) (Drafting.makes_mapM hds)
    intro ids c ids' h
    obtain ⟨p, _, -, h⟩ := Drafting.on_bind_eq_ok h
    obtain ⟨i, _, -, h⟩ := Drafting.on_bind_eq_ok h
    cases h
    exact hrules
  · exact fun d hd => absurd hd List.not_mem_nil

/-- **Thresholds of a loaded configuration.** The numbers that its conditions compare with are
doubles, whatever kind of number the document gave. -/
theorem Configuration.isReal_of_load {now : Moment} {v : Json} {ids ids' : IdSource}
    {c : Configuration} (h : load now v ids = (.ok c, ids')) : ∀ r ∈ c.rules, r.IsReal := by
  unfold load at h
  cases hd : (schema now).check v with
  | error fs =>
      rw [hd] at h
      cases h
  | ok d =>
      rw [hd] at h
      dsimp only at h
      cases hm : d.on ids with
      | mk made ids₁ =>
          rw [hm] at h
          cases made with
          | error f => cases h
          | ok b =>
              cases h
              exact (yields_schema now).of_check hd ids c _ hm

/-! ## Snapshots -/

/-- Whether a moment lies in the calendar and has an offset. -/
def Moment.IsDated (m : Moment) : Prop :=
  inCalendar m.wall = true ∧ m.offset.isSome = true

namespace Moment

theorem isDated_assumeUtc {m : Moment} (h : inCalendar m.wall = true) : m.assumeUtc.IsDated := by
  unfold assumeUtc
  split
  · rename_i o ho
    exact ⟨h, by rw [ho]; rfl⟩
  · exact ⟨h, rfl⟩

/-- Whether the offset of a moment, if it has one, is of whole minutes. -/
def IsInMinutes (m : Moment) : Prop :=
  ∀ o, m.offset = some o → Span.microsPerMinute ∣ o.micros

theorem isInMinutes_atUtc (instant : Int) : (atUtc instant).IsInMinutes := by
  intro o ho
  cases ho
  exact Int.dvd_zero _

theorem isInMinutes_assumeUtc {m : Moment} (h : m.IsInMinutes) : m.assumeUtc.IsInMinutes := by
  unfold assumeUtc
  split
  · exact h
  · exact isInMinutes_atUtc m.wall

theorem isInMinutes_ofCount? {count : Int} {us : Nat} {m : Moment}
    (h : ofCount? count us = some m) : m.IsInMinutes := by
  unfold ofCount? at h
  obtain ⟨-, hm⟩ := Option.ite_none_right_eq_some.mp h
  cases hm
  exact isInMinutes_atUtc _

theorem isInMinutes_ofReal? {x : Float} {m : Moment} (h : ofReal? x = some m) :
    m.IsInMinutes := by
  unfold ofReal? at h
  dsimp only at h
  split at h
  · obtain ⟨-, hm⟩ := Option.ite_none_right_eq_some.mp h
    exact isInMinutes_ofCount? hm
  · cases h

/-- An offset is written in hours and minutes. -/
theorem dvd_of_readDocumentOffset? {cs : List Char} {o : Offset}
    (h : readDocumentOffset? cs = some (some o)) : Span.microsPerMinute ∣ o.micros := by
  have hdistance : ∀ (west : Bool) (cs : List Char),
      ((takeDigits? 2 cs).bind fun hours =>
        (takeDigits? 2 (dropOptional ':' hours.2).2).bind fun minutes =>
          let n : Int := (hours.1 * 60 + minutes.1 : Nat) * Span.microsPerMinute
          if minutes.2.isEmpty && minutes.1 < 60 && n < Span.microsPerDay then
            some (some (⟨if west then -n else n, .bare⟩ : Offset))
          else none) = some (some o) → Span.microsPerMinute ∣ o.micros := by
    intro west cs h
    obtain ⟨hours, -, h⟩ := Option.bind_eq_some_iff.mp h
    obtain ⟨minutes, -, h⟩ := Option.bind_eq_some_iff.mp h
    obtain ⟨-, h⟩ := Option.ite_none_right_eq_some.mp h
    cases h
    dsimp only
    split
    · exact Int.dvd_neg.mpr (Int.dvd_mul_left _ _)
    · exact Int.dvd_mul_left _ _
  unfold readDocumentOffset? at h
  dsimp only at h
  split at h
  · cases h
  · exact hdistance false _ h
  · split at h
    · split at h
      · cases h
        exact Int.dvd_zero _
      · cases h
    · split at h
      · exact hdistance true _ h
      · cases h

theorem isInMinutes_readDocumentText? {s : String} {m : Moment}
    (h : readDocumentText? s = some m) : m.IsInMinutes := by
  unfold readDocumentText? at h
  obtain ⟨⟨day, rest⟩, -, h⟩ := Option.bind_eq_some_iff.mp h
  dsimp only at h
  split at h
  · cases h
    exact fun o ho => nomatch ho
  · split at h
    · -- hours, minutes and seconds have no part in the offset
      obtain ⟨⟨hours, _⟩, -, h⟩ := Option.bind_eq_some_iff.mp h
      obtain ⟨_, -, h⟩ := Option.bind_eq_some_iff.mp h
      obtain ⟨⟨minutes, _⟩, -, h⟩ := Option.bind_eq_some_iff.mp h
      obtain ⟨⟨seconds, us, _⟩, -, h⟩ := Option.bind_eq_some_iff.mp h
      obtain ⟨t, -, h⟩ := Option.bind_eq_some_iff.mp h
      obtain ⟨offset, hoffset, h⟩ := Option.bind_eq_some_iff.mp h
      cases h
      intro o ho
      obtain rfl : offset = some o := ho
      exact dvd_of_readDocumentOffset? hoffset
    · cases h

end Moment

namespace Schema

theorem isInMinutes_momentOfCount? {s : String} {m : Moment} (h : momentOfCount? s = some m) :
    m.IsInMinutes := by
  unfold momentOfCount? at h
  dsimp only at h
  split at h
  · obtain ⟨count, -, h⟩ := Option.bind_eq_some_iff.mp h
    exact Moment.isInMinutes_ofCount? h
  · obtain ⟨x, -, h⟩ := Option.bind_eq_some_iff.mp h
    exact Moment.isInMinutes_ofReal? h
  · cases h

/-- What a moment of a document is made of. -/
def MadeOf (raw m : Moment) : Prop :=
  raw.IsInMinutes ∧ Moment.inCalendar raw.wall = true ∧ raw.assumeUtc = m

theorem madeOf_of_inCalendar {place : Place} {raw m : Moment} (hraw : raw.IsInMinutes)
    (h : momentInCalendar place raw = .sound m) : MadeOf raw m := by
  unfold momentInCalendar at h
  split at h
  · rename_i hcalendar
    cases h
    exact ⟨hraw, hcalendar, rfl⟩
  · cases h

theorem madeOf_of_real {place : Place} {x : Float} {m : Moment}
    (h : momentOfReal place x = .sound m) : ∃ raw, MadeOf raw m := by
  unfold momentOfReal at h
  split at h
  · rename_i hraw
    exact ⟨_, madeOf_of_inCalendar (Moment.isInMinutes_ofReal? hraw) h⟩
  · cases h

theorem yields_madeOf : moment.Yields fun m => ∃ raw, MadeOf raw m := by
  intro place v m h
  unfold moment at h
  dsimp only at h
  split at h
  · split at h
    · rename_i hraw
      refine ⟨_, madeOf_of_inCalendar ?_ h⟩
      rcases Option.or_eq_some_iff.mp hraw with hraw | ⟨-, hraw⟩
      · exact Moment.isInMinutes_readDocumentText? hraw
      · exact isInMinutes_momentOfCount? hraw
    · cases h
  · split at h
    · split at h
      · rename_i hraw
        exact ⟨_, madeOf_of_inCalendar (Moment.isInMinutes_ofCount? hraw) h⟩
      · cases h
    · split at h
      · exact madeOf_of_real h
      · cases h
  · exact madeOf_of_real h
  · cases h

theorem yields_moment : moment.Yields Moment.IsDated :=
  yields_madeOf.imp fun _ ⟨_, _, hcalendar, hm⟩ => hm ▸ Moment.isDated_assumeUtc hcalendar

theorem yields_minutes : moment.Yields Moment.IsInMinutes :=
  yields_madeOf.imp fun _ ⟨_, hraw, _, hm⟩ => hm ▸ Moment.isInMinutes_assumeUtc hraw

end Schema

/-- What is known of every moment of a document is known of the moment of a snapshot. -/
theorem Snapshot.yields_now {P : Moment → Prop} (h : Schema.moment.Yields P) :
    schema.Yields fun s => P s.now :=
  yields_object <| .skip (.skip (.skip (.skip (.skip (.skip (.map (yields_required
    (h.imp fun _ h _ _ _ _ _ _ => h) _)) _) _) _) _) _) _

theorem Snapshot.yields_schema : schema.Yields fun s => s.now.IsDated :=
  yields_now Schema.yields_moment

end BuildingAlerts
