/-
Identifiers that are given out.

A source counts for each kind what it has given out, and nothing takes a count back. Counts are
written with so many digits that the texts of different counts differ until the digits are used
up. So whoever draws later draws another identifier.
-/
import BuildingAlerts.Proofs.Alert.Registration
import BuildingAlerts.Rule.Change
import BuildingAlerts.Rule.Pass
import BuildingAlerts.Delivery.Exchange
import Mathlib.Algebra.GroupWithZero.Nat
import Mathlib.Order.Defs.Unbundled

set_option autoImplicit false

namespace BuildingAlerts

/-! ## Counts as texts -/

namespace Text

theorem hexDigit_inj {m n : Nat} (hm : m < 16) (hn : n < 16) (h : hexDigit m = hexDigit n) :
    m = n := by
  have hall : ∀ m < 16, ∀ n < 16, hexDigit m = hexDigit n → m = n := by decide
  exact hall m hm n hn h

/-- Numbers that have room among so many digits are told apart by them. -/
theorem hexDigits_inj {width m n : Nat} (hm : m < 16 ^ width) (hn : n < 16 ^ width)
    (h : hexDigits width m = hexDigits width n) : m = n := by
  induction width generalizing m n with
  | zero => omega
  | succ width ih =>
      obtain ⟨hinit, hlast⟩ := List.append_inj' h rfl
      have hlast : m % 16 = n % 16 := hexDigit_inj (Nat.mod_lt m (by omega))
        (Nat.mod_lt n (by omega)) (List.cons.inj hlast).1
      rw [Nat.pow_succ] at hm hn
      have hrest : m / 16 = n / 16 :=
        ih (Nat.div_lt_of_lt_mul (by omega)) (Nat.div_lt_of_lt_mul (by omega)) hinit
      omega

end Text

/-- Different counts are different identifiers. -/
theorem IdKind.ident_inj {k : IdKind} {m n : Nat} (hm : m < 16 ^ identWidth)
    (hn : n < 16 ^ identWidth) (h : k.ident m = k.ident n) : m = n := by
  have hlists := congrArg String.toList h
  unfold ident at hlists
  rw [String.toList_append, String.toList_append, String.toList_ofList, String.toList_ofList] at hlists
  exact Text.hexDigits_inj hm hn (List.append_cancel_left hlists)

/-! ## Sources -/

namespace IdSource

/-- What a source may become: it has given out as many identifiers of each kind, or more. -/
def Grows (s t : IdSource) : Prop :=
  ∀ k, s.drawn k ≤ t.drawn k

variable {s t u : IdSource}

theorem Grows.rfl : s.Grows s :=
  fun _ => Nat.le_refl _

theorem Grows.trans (h : s.Grows t) (h' : t.Grows u) : s.Grows u :=
  fun k => Nat.le_trans (h k) (h' k)

theorem drawn_draw (s : IdSource) (k : IdKind) : (s.draw k).2.drawn k = s.drawn k + 1 := by
  unfold draw assign
  exact if_pos rfl

theorem grows_draw (s : IdSource) (k : IdKind) : s.Grows (s.draw k).2 := by
  intro j
  unfold draw assign
  dsimp only
  split
  · rename_i h
    subst h
    exact Nat.le_succ _
  · exact Nat.le_refl _

instance : Std.Refl Grows := ⟨fun _ => .rfl⟩

instance : IsTrans IdSource Grows := ⟨fun _ _ _ => .trans⟩

end IdSource

/-! ## Work that leaves what a relation allows -/

section

variable {σ α β : Type} {R : σ → σ → Prop}

/-- Whatever comes of some work, a relation holds between what it finds and what it leaves. -/
def StaysWithin (R : σ → σ → Prop) (d : ExceptT Fault (StateM σ) α) : Prop :=
  ∀ s, R s (StateT.run d s).2

variable [Std.Refl R]

theorem staysWithin_pure (a : α) : StaysWithin R (pure a) :=
  fun s => refl s

theorem staysWithin_throw (f : Fault) : StaysWithin R (throw f : ExceptT Fault (StateM σ) α) :=
  fun s => refl s

theorem staysWithin_throw_bind (f : Fault) (g : α → ExceptT Fault (StateM σ) β) :
    StaysWithin R (throw f >>= g) :=
  fun s => refl s

theorem staysWithin_except (x : Except Fault α) : StaysWithin R (liftM x) := by
  cases x with
  | error f => exact fun s => refl s
  | ok a => exact fun s => refl s

/-- What follows on a computation is only done if that comes to something. -/
theorem staysWithin_except_bind {x : Except Fault α} {f : α → ExceptT Fault (StateM σ) β}
    (hf : ∀ a, x = .ok a → StaysWithin R (f a)) : StaysWithin R (liftM x >>= f) := by
  cases x with
  | error e => exact fun s => refl s
  | ok a => exact hf a rfl

omit [Std.Refl R] in
theorem StaysWithin.bind [IsTrans σ R] {d : ExceptT Fault (StateM σ) α}
    {f : α → ExceptT Fault (StateM σ) β} (hd : StaysWithin R d) (hf : ∀ a, StaysWithin R (f a)) :
    StaysWithin R (d >>= f) := by
  intro s
  have hfirst := hd s
  show R s (StateT.run (ExceptT.bindCont f (StateT.run d s).1) (StateT.run d s).2).2
  cases hmade : (StateT.run d s).1 with
  | error e => exact hfirst
  | ok a => exact IsTrans.trans _ _ _ hfirst (hf a _)

omit [Std.Refl R] in
theorem StaysWithin.ite {c : Prop} [Decidable c] {d e : ExceptT Fault (StateM σ) α}
    (hd : StaysWithin R d) (he : StaysWithin R e) : StaysWithin R (if c then d else e) := by
  split
  · exact hd
  · exact he

end

/-- Whatever comes of a creation, it gives out identifiers and takes none back. -/
abbrev Drafting.Gives {α : Type} (d : Drafting α) : Prop :=
  StaysWithin IdSource.Grows d

/-- A desk has given out identifiers. -/
def Desk.Gives (d e : Desk) : Prop :=
  d.ids.Grows e.ids

instance : Std.Refl Desk.Gives := ⟨fun _ => .rfl⟩

instance : IsTrans Desk Desk.Gives := ⟨fun _ _ _ => .trans⟩

/-- Whatever comes of a delivery, it gives out identifiers and takes none back. -/
abbrev Sending.Gives {α : Type} (d : Sending α) : Prop :=
  StaysWithin Desk.Gives d

/-! ## Evaluations and templates -/

theorem Drafting.gives_draw (k : IdKind) : Drafting.Gives (Drafting.draw k) :=
  fun s => s.grows_draw k

theorem Rule.gives_alert (r : Rule) (c : Configuration) (s : Snapshot)
    (results : List ConditionResult) (store : Store) : Drafting.Gives (r.alert c s results store) := by
  unfold alert
  refine staysWithin_except_bind fun _ _ => staysWithin_except_bind fun _ _ => ?_
  refine staysWithin_except_bind fun _ _ => staysWithin_except_bind fun _ _ => ?_
  refine staysWithin_except_bind fun _ _ => ?_
  exact (Drafting.gives_draw _).bind fun _ => staysWithin_pure _

theorem Store.gives_openOrAdd (s : Store) (k : Triggering)
    (hcreate : ∀ t, Drafting.Gives (k.create t)) :
    Drafting.Gives
      (s.openOrAdd k.configurationId k.ruleId k.now k.cooldown k.suppress k.create) := by
  intro ids
  show ids.Grows (Drafting.on _ ids).2
  rw [openOrAdd_on]
  split
  · exact .rfl
  · exact .rfl
  · exact hcreate s ids

theorem Rule.gives_evaluate (r : Rule) (c : Configuration) (s : Snapshot) (store : Store) :
    Drafting.Gives (r.evaluate c s store) := by
  unfold evaluate
  refine staysWithin_except_bind fun results _ => ?_
  split
  · exact (store.gives_openOrAdd (r.triggering c s results) fun t =>
      r.gives_alert c s results t).bind fun _ => staysWithin_pure _
  · exact staysWithin_pure _

/-- Evaluating the rules of a configuration gives out identifiers. -/
theorem Assignment.grows_run (b : Assignment) (s : Snapshot) (g : Registry) :
    g.ids.Grows (b.run s g).2.ids := by
  have hstep : ∀ (x : List String × Registry) (r : Rule),
      x.2.ids.Grows (step b.configuration s x r).2.ids := by
    intro x r
    have hgives : x.2.ids.Grows ((r.evaluate b.configuration s x.2.store).on x.2.ids).2 :=
      r.gives_evaluate b.configuration s x.2.store x.2.ids
    unfold step
    dsimp only
    split
    · exact hgives
    · exact hgives
    · exact hgives
  have hall : ∀ (rs : List Rule) (x : List String × Registry),
      x.2.ids.Grows (rs.foldl (step b.configuration s) x).2.ids := by
    intro rs
    induction rs with
    | nil => exact fun _ => .rfl
    | cons r rs ih => exact fun x => (hstep x r).trans (ih _)
  exact hall b.rules ([], g)

theorem AlertTemplate.gives_configuration (t : AlertTemplate) (u : TemplateUse) (now : Moment) :
    Drafting.Gives (t.configuration u now) := by
  have hcondition : Drafting.Gives (t.condition u.sensorId u.threshold) :=
    staysWithin_except_bind fun _ _ => (Drafting.gives_draw _).bind fun _ => staysWithin_except _
  exact hcondition.bind fun _ => (Drafting.gives_draw _).bind fun _ =>
    (Drafting.gives_draw _).bind fun _ => staysWithin_pure _

/-! ## Deliveries -/

namespace Sending

theorem gives_draw (k : IdKind) : Gives (draw k) :=
  fun d => d.ids.grows_draw k

theorem gives_note (r : WebRequest) : Gives (note r) :=
  fun _ => .rfl

theorem gives_noteMail (steps : List MailStep) : Gives (noteMail steps) :=
  fun _ => .rfl

theorem gives_mail (m : MailSetup) (far : FarEnd) (now : Moment) (p : Parcel) :
    Gives (mail m far now p) := by
  unfold mail
  split
  · exact staysWithin_pure _
  · refine (gives_draw _).bind fun _ => ?_
    split
    · exact staysWithin_pure _
    · exact (gives_noteMail _).bind fun _ => staysWithin_except_bind fun _ _ => staysWithin_pure _

theorem gives_sms (s : SmsSetup) (timeout : Number) (far : FarEnd) (now : Moment) (p : Parcel) :
    Gives (sms s timeout far now p) := by
  unfold sms
  refine .ite (staysWithin_pure _) (.ite ((gives_draw _).bind fun _ => staysWithin_pure _) ?_)
  refine .ite (staysWithin_throw_bind _ _) ((gives_note _).bind fun _ => ?_)
  split
  · exact staysWithin_throw _
  · exact .ite (staysWithin_throw_bind _ _) (staysWithin_pure _)

theorem gives_webhook (w : WebhookSetup) (far : FarEnd) (now : Moment) (p : Parcel) :
    Gives (webhook w far now p) := by
  unfold webhook
  refine staysWithin_except_bind fun url _ => .ite (staysWithin_pure _) ?_
  refine staysWithin_except_bind fun body _ => staysWithin_except_bind fun headers _ =>
    staysWithin_except_bind fun secret _ => staysWithin_except_bind fun method _ =>
    (gives_note _).bind fun _ => ?_
  split
  · exact staysWithin_throw _
  · exact .ite (staysWithin_throw_bind _ _) ((gives_draw _).bind fun _ => staysWithin_pure _)

theorem gives_chat (c : ChatSetup) (timeout : Number) (far : FarEnd) (now : Moment) (p : Parcel) :
    Gives (chat c timeout far now p) := by
  unfold chat
  refine staysWithin_except_bind fun url _ => .ite (staysWithin_pure _) ?_
  refine staysWithin_except_bind fun body _ => (gives_note _).bind fun _ => ?_
  split
  · exact staysWithin_throw _
  · exact .ite (staysWithin_throw_bind _ _) ((gives_draw _).bind fun _ => staysWithin_pure _)

end Sending

theorem Setup.gives_send (s : Setup) (c : Channel) (far : FarEnd) (now : Moment) (p : Parcel) :
    Sending.Gives (s.send c far now p) := by
  unfold send
  split
  · exact Sending.gives_mail _ far now p
  · exact Sending.gives_sms _ _ far now p
  · exact Sending.gives_webhook _ far now p
  · exact Sending.gives_chat _ _ far now p
  · exact staysWithin_throw _

end BuildingAlerts
