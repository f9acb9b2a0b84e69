/-
The history of an agenda.

A stint is one stretch of work of a task, with all that the program is given for it. What comes
of a stint is known from the program, so a history is just the list of the stints, the latest
first. In a coherent history a task begins in the instant in which it was started, and goes on
where its own latest stint left it, for the reason that it waited for: above all, a task that
waits for others goes on with all of their results, or else because one of them failed or
because it was told to stop.
-/
import BuildingAlerts.Proofs.Agenda.Process
import Mathlib.Data.List.Forall2

set_option autoImplicit false

namespace BuildingAlerts

variable {σ β ρ : Type}

/-- One stretch of work of a task. -/
structure Stint (σ β ρ : Type) where
  task : TaskId
  audience : Audience
  now : Instant
  state : σ
  body : β
  wake : Wake ρ
  /-- The task has just begun. -/
  first : Bool
  /-- How many tasks had been started before. -/
  started : Nat

/-- What was done, the latest first. -/
abbrev History (σ β ρ : Type) := List (Stint σ β ρ)

namespace Stint

variable (P : Program σ β ρ)

/-- What comes of a stint. -/
def turn (s : Stint σ β ρ) : Turn σ β ρ :=
  P s.now s.state s.body s.wake

/-- The number of the first task that a stint starts, apart from those that it books. -/
def firstChild (s : Stint σ β ρ) : TaskId :=
  s.started + (s.turn P).appointments.length

/-- The numbers of the tasks that a stint starts, apart from those that it books. -/
def childIds (s : Stint σ β ρ) : List TaskId :=
  List.range' (s.firstChild P) (s.turn P).next.children.length

/-- A stint starts a task with something to do. -/
def Starts (s : Stint σ β ρ) (c : TaskId) (body : β) : Prop :=
  ∃ i, (s.turn P).next.children[i]? = some body ∧ c = s.firstChild P + i

/-- A stint ends its task. -/
def Ends (s : Stint σ β ρ) (o : Outcome ρ) : Prop :=
  (s.turn P).next = .finish o

end Stint

namespace History

variable (P : Program σ β ρ)

/-- The latest stint of a task. -/
def latest (h : History σ β ρ) (t : TaskId) : Option (Stint σ β ρ) :=
  h.find? fun s => s.task == t

/-- A task that another one has started has ended in some way; one that was told to stop may
have done so without a stint of its own. -/
def Ended (h : History σ β ρ) (parent child : TaskId) (o : Outcome ρ) : Prop :=
  o = .error .cancelled ∨
    ∃ f ∈ h, f.task = child ∧ f.audience = .task parent ∧ f.Ends P o

/-- A task goes on with `body` for the reason `w`, as its latest stint `s` has it. -/
def Leads (h : History σ β ρ) (s : Stint σ β ρ) (body : β) (w : Wake ρ) : Prop :=
  match (s.turn P).next with
  | .finish _ => False
  | .pause b => body = b ∧ (w = .resumed ∨ w = .stopped .cancelled)
  | .sleep _ _ b => body = b ∧ (w = .resumed ∨ w = .expired ∨ w = .stopped .cancelled)
  | .gather _ b => body = b ∧
      ((∃ rs, w = .gathered rs ∧
          List.Forall₂ (fun c r => h.Ended P s.task c (.ok r)) (s.childIds P) rs) ∨
        ∃ st, w = .stopped st ∧
          (st = .cancelled ∨ ∃ c ∈ s.childIds P, h.Ended P s.task c (.error st)))
  | .collect _ b | .await b => body = b ∧
      ((∃ os, w = .arrived os ∧ ∀ o ∈ os, ∃ c, h.Ended P s.task c o) ∨
        w = .stopped .cancelled)

/-- A task with a stint `p` before has started the task `t` in the instant `now`. -/
def Started (h : History σ β ρ) (audience : Audience) (t : TaskId) (body : β)
    (now : Instant) : Prop :=
  ∀ u, audience = .task u → ∃ p ∈ h, p.task = u ∧ p.now = now ∧ p.Starts P t body

/-- What holds of a stint after the history before it. -/
def Follows (h : History σ β ρ) (s : Stint σ β ρ) : Prop :=
  match h.latest s.task with
  | none => s.first = true ∧ s.wake = .start ∧ h.Started P s.audience s.task s.body s.now
  | some p => s.first = false ∧ s.audience = p.audience ∧ h.Leads P p s.body s.wake

/-- Every stint follows those before it. -/
def Coherent (h : History σ β ρ) : Prop :=
  ∀ s e, s :: e <:+ h → Follows P e s

variable {P}

/-! ## The latest stint -/

theorem latest_eq_some {h : History σ β ρ} {t : TaskId} {s : Stint σ β ρ}
    (hs : h.latest t = some s) : s ∈ h ∧ s.task = t :=
  ⟨List.mem_of_find?_eq_some hs, by simpa using List.find?_some hs⟩

theorem latest_eq_none {h : History σ β ρ} {t : TaskId} :
    h.latest t = none ↔ ∀ s ∈ h, s.task ≠ t := by
  unfold latest
  rw [List.find?_eq_none]
  exact forall₂_congr fun s _ => by rw [beq_iff_eq]

theorem exists_latest {h : History σ β ρ} {s : Stint σ β ρ} (hs : s ∈ h) :
    ∃ l, h.latest s.task = some l :=
  Option.ne_none_iff_exists'.mp fun hnone => latest_eq_none.mp hnone s hs rfl

theorem latest_cons_self {h : History σ β ρ} {s : Stint σ β ρ} {t : TaskId} (ht : s.task = t) :
    latest (s :: h) t = some s :=
  List.find?_cons_of_pos (beq_iff_eq.mpr ht)

theorem latest_cons_of_ne {h : History σ β ρ} {s : Stint σ β ρ} {t : TaskId} (ht : s.task ≠ t) :
    latest (s :: h) t = h.latest t :=
  List.find?_cons_of_neg (by rwa [beq_iff_eq])

/-- The stints of other tasks do not matter. -/
theorem latest_append_of_ne {h k : History σ β ρ} {t : TaskId} (hk : ∀ s ∈ k, s.task ≠ t) :
    latest (k ++ h) t = h.latest t := by
  induction k with
  | nil => rfl
  | cons s k ih =>
      rw [List.cons_append, latest_cons_of_ne (hk s List.mem_cons_self)]
      exact ih fun d hd => hk d (List.mem_cons_of_mem s hd)

/-! ## Longer histories -/

theorem Ended.mono {h k : History σ β ρ} (hk : ∀ s ∈ h, s ∈ k) {t c : TaskId} {o : Outcome ρ}
    (he : h.Ended P t c o) : k.Ended P t c o := by
  rcases he with he | ⟨f, hf, he⟩
  · exact .inl he
  · exact .inr ⟨f, hk f hf, he⟩

theorem Leads.mono {h k : History σ β ρ} (hk : ∀ s ∈ h, s ∈ k) {s : Stint σ β ρ} {body : β}
    {w : Wake ρ} (hl : h.Leads P s body w) : k.Leads P s body w := by
  unfold Leads at *
  split at hl
  · exact hl
  · exact hl
  · exact hl
  · obtain ⟨hb, ⟨rs, hw, hrs⟩ | ⟨st, hw, hst⟩⟩ := hl
    · exact ⟨hb, .inl ⟨rs, hw, hrs.imp fun c r he => he.mono hk⟩⟩
    · refine ⟨hb, .inr ⟨st, hw, hst.imp id ?_⟩⟩
      rintro ⟨c, hc, he⟩
      exact ⟨c, hc, he.mono hk⟩
  · obtain ⟨hb, ⟨os, hw, hos⟩ | hw⟩ := hl
    · exact ⟨hb, .inl ⟨os, hw, fun o ho => (hos o ho).imp fun c he => he.mono hk⟩⟩
    · exact ⟨hb, .inr hw⟩
  · obtain ⟨hb, ⟨os, hw, hos⟩ | hw⟩ := hl
    · exact ⟨hb, .inl ⟨os, hw, fun o ho => (hos o ho).imp fun c he => he.mono hk⟩⟩
    · exact ⟨hb, .inr hw⟩

theorem Started.mono {h k : History σ β ρ} (hk : ∀ s ∈ h, s ∈ k) {w : Audience} {t : TaskId}
    {body : β} {now : Instant} (hs : h.Started P w t body now) : k.Started P w t body now := by
  intro u hu
  obtain ⟨p, hp, hrest⟩ := hs u hu
  exact ⟨p, hk p hp, hrest⟩

/-- A task that does not end may always go on because it was told to stop. -/
theorem leads_cancelled {h : History σ β ρ} {s : Stint σ β ρ} {body : β}
    (hb : (s.turn P).next.body? = some body) : h.Leads P s body (.stopped .cancelled) := by
  unfold Leads
  revert hb
  cases (s.turn P).next with
  | finish o => exact fun hb => nomatch hb
  | pause b => exact fun hb => ⟨(Option.some.inj hb).symm, .inr rfl⟩
  | sleep d l b => exact fun hb => ⟨(Option.some.inj hb).symm, .inr (.inr rfl)⟩
  | gather cs b => exact fun hb => ⟨(Option.some.inj hb).symm, .inr ⟨_, rfl, .inl rfl⟩⟩
  | collect cs b => exact fun hb => ⟨(Option.some.inj hb).symm, .inr rfl⟩
  | await b => exact fun hb => ⟨(Option.some.inj hb).symm, .inr rfl⟩

/-- A task goes on with the work that its latest stint left. -/
theorem Leads.body {h : History σ β ρ} {s : Stint σ β ρ} {body : β} {w : Wake ρ}
    (hl : h.Leads P s body w) : (s.turn P).next.body? = some body := by
  unfold Leads at hl
  revert hl
  cases (s.turn P).next with
  | finish o => exact fun hl => hl.elim
  | pause b => exact fun hl => congrArg some hl.1.symm
  | sleep d l b => exact fun hl => congrArg some hl.1.symm
  | gather cs b => exact fun hl => congrArg some hl.1.symm
  | collect cs b => exact fun hl => congrArg some hl.1.symm
  | await b => exact fun hl => congrArg some hl.1.symm

/-- A task that goes on because some have ended may go on because more have. -/
theorem Leads.arrived {h : History σ β ρ} {s : Stint σ β ρ} {body : β} {os os' : List (Outcome ρ)}
    (hl : h.Leads P s body (.arrived os))
    (hos : (∀ o ∈ os, ∃ c, h.Ended P s.task c o) → ∀ o ∈ os', ∃ c, h.Ended P s.task c o) :
    h.Leads P s body (.arrived os') := by
  unfold Leads at *
  revert hl
  cases (s.turn P).next with
  | finish o => exact fun hl => hl.elim
  | pause b =>
      rintro ⟨-, hw | hw⟩
      · exact nomatch hw
      · exact nomatch hw
  | sleep d l b =>
      rintro ⟨-, hw | hw | hw⟩
      · exact nomatch hw
      · exact nomatch hw
      · exact nomatch hw
  | gather cs b =>
      rintro ⟨-, ⟨rs, hw, -⟩ | ⟨st, hw, -⟩⟩
      · exact nomatch hw
      · exact nomatch hw
  | collect cs b =>
      rintro ⟨hb, ⟨os₁, hw, he⟩ | hw⟩
      · obtain rfl := Wake.arrived.inj hw
        exact ⟨hb, .inl ⟨os', rfl, hos he⟩⟩
      · exact nomatch hw
  | await b =>
      rintro ⟨hb, ⟨os₁, hw, he⟩ | hw⟩
      · obtain rfl := Wake.arrived.inj hw
        exact ⟨hb, .inl ⟨os', rfl, hos he⟩⟩
      · exact nomatch hw

/-! ## Coherent histories -/

theorem coherent_nil : Coherent P ([] : History σ β ρ) :=
  fun _ _ h => absurd (List.suffix_nil.mp h) (List.cons_ne_nil _ _)

theorem Coherent.cons {h : History σ β ρ} {s : Stint σ β ρ} (hh : Coherent P h)
    (hs : Follows P h s) : Coherent P (s :: h) := by
  intro d e hd
  rcases List.suffix_cons_iff.mp hd with heq | hd
  · obtain ⟨rfl, rfl⟩ := List.cons.inj heq
    exact hs
  · exact hh _ _ hd

theorem Coherent.of_suffix {h k : History σ β ρ} (hh : Coherent P h) (hk : k <:+ h) :
    Coherent P k :=
  fun _ _ hs => hh _ _ (hs.trans hk)

/-- A member of a history with the history before it. -/
theorem exists_suffix_of_mem {h : History σ β ρ} {s : Stint σ β ρ} (hs : s ∈ h) :
    ∃ e, s :: e <:+ h := by
  obtain ⟨l, e, rfl⟩ := List.append_of_mem hs
  exact ⟨e, l, rfl⟩

/-- A task has no stint after the one that ended it. -/
theorem Coherent.latest_of_ends {h : History σ β ρ} (hh : Coherent P h) {s : Stint σ β ρ}
    (hs : s ∈ h) {o : Outcome ρ} (ho : s.Ends P o) : h.latest s.task = some s := by
  induction h with
  | nil => exact absurd hs List.not_mem_nil
  | cons d h ih =>
      rcases List.mem_cons.mp hs with rfl | hs
      · exact latest_cons_self rfl
      · have hl := ih (hh.of_suffix (List.suffix_cons d h)) hs
        by_cases hd : d.task = s.task
        · have hf := hh _ _ (List.suffix_refl (d :: h))
          unfold Follows at hf
          rw [hd, hl] at hf
          have hlead := hf.2.2
          unfold Leads at hlead
          rw [show (s.turn P).next = .finish o from ho] at hlead
          exact hlead.elim
        · rw [latest_cons_of_ne hd]
          exact hl

/-- A task ends but once. -/
theorem Coherent.ends_unique {h : History σ β ρ} (hh : Coherent P h) {s d : Stint σ β ρ}
    (hs : s ∈ h) (hd : d ∈ h) {o o' : Outcome ρ} (ho : s.Ends P o) (ho' : d.Ends P o')
    (ht : s.task = d.task) : s = d := by
  have h₁ := hh.latest_of_ends hs ho
  have h₂ := hh.latest_of_ends hd ho'
  rw [ht, h₂] at h₁
  exact (Option.some.inj h₁).symm

/-- Work that no stint goes on with is what a task begins with. -/
theorem Coherent.first_of_body {h : History σ β ρ} (hh : Coherent P h) {s : Stint σ β ρ} (hs : s ∈ h)
    (hnever : ∀ d ∈ h, (d.turn P).next.body? ≠ some s.body) : s.first = true ∧ s.wake = .start := by
  obtain ⟨e, he⟩ := exists_suffix_of_mem hs
  have hf := hh s e he
  unfold Follows at hf
  split at hf
  · exact ⟨hf.1, hf.2.1⟩
  · rename_i d hd
    exact absurd hf.2.2.body (hnever d (he.subset (List.mem_cons_of_mem s (latest_eq_some hd).1)))

/-- A task with stints has a first one, for the same audience. -/
theorem Coherent.exists_first {h : History σ β ρ} (hh : Coherent P h) {s : Stint σ β ρ}
    (hs : s ∈ h) : ∃ e ∈ h, e.task = s.task ∧ e.first = true ∧ e.audience = s.audience := by
  induction h generalizing s with
  | nil => exact absurd hs List.not_mem_nil
  | cons d h ih =>
      have hh' := hh.of_suffix (List.suffix_cons d h)
      rcases List.mem_cons.mp hs with rfl | hs
      · have hf := hh _ _ (List.suffix_refl (s :: h))
        unfold Follows at hf
        split at hf
        · exact ⟨s, List.mem_cons_self, rfl, hf.1, rfl⟩
        · rename_i p hp
          obtain ⟨hpm, hpt⟩ := latest_eq_some hp
          obtain ⟨e, he, het, hef, hea⟩ := ih hh' hpm
          exact ⟨e, List.mem_cons_of_mem _ he, het.trans hpt, hef, hea.trans hf.2.1.symm⟩
      · obtain ⟨e, he, hrest⟩ := ih hh' hs
        exact ⟨e, List.mem_cons_of_mem _ he, hrest⟩

/-- A task that has just begun has no stint before. -/
theorem Coherent.ne_of_first {h : History σ β ρ} (hh : Coherent P h) {d : Stint σ β ρ}
    {e : History σ β ρ} (hd : d :: e <:+ h) (hfirst : d.first = true) :
    ∀ s ∈ e, s.task ≠ d.task := by
  have hf := hh _ _ hd
  unfold Follows at hf
  split at hf
  · rename_i hnone
    exact latest_eq_none.mp hnone
  · rw [hfirst] at hf
    exact nomatch hf.1

/-- A task begins but once. -/
theorem Coherent.first_unique {h : History σ β ρ} (hh : Coherent P h) {s d : Stint σ β ρ}
    (hs : s ∈ h) (hd : d ∈ h) (hsf : s.first = true) (hdf : d.first = true)
    (ht : s.task = d.task) : s = d := by
  induction h with
  | nil => exact absurd hs List.not_mem_nil
  | cons x h ih =>
      have hx : x.first = true → ∀ y ∈ h, y.task ≠ x.task := hh.ne_of_first (List.suffix_refl _)
      have hh' := hh.of_suffix (List.suffix_cons x h)
      rcases List.mem_cons.mp hs with hsx | hs
      · rcases List.mem_cons.mp hd with hdx | hd
        · rw [hsx, hdx]
        · rw [hsx] at ht hsf
          exact absurd ht.symm (hx hsf d hd)
      · rcases List.mem_cons.mp hd with hdx | hd
        · rw [hdx] at ht hdf
          exact absurd ht (hx hdf s hs)
        · exact ih hh' hs hd

/-- The first stint of a task comes before all its others. -/
theorem Coherent.first_before {h : History σ β ρ} (hh : Coherent P h) {s d : Stint σ β ρ}
    {e : History σ β ρ} (hd : d :: e <:+ h) (hs : s ∈ h) (hfirst : s.first = true)
    (ht : s.task = d.task) (hne : s ≠ d) : s ∈ e := by
  obtain ⟨x, hx, hxt, hxf, -⟩ := (hh.of_suffix hd).exists_first List.mem_cons_self
  obtain rfl := hh.first_unique (hd.subset hx) hs hxf hfirst (hxt.trans ht.symm)
  exact (List.mem_cons.mp hx).resolve_left hne

/-- A task that ends with its first stint has no other. -/
theorem Coherent.eq_of_first_ends {h : History σ β ρ} (hh : Coherent P h) {s d : Stint σ β ρ}
    (hs : s ∈ h) (hd : d ∈ h) (hf : s.first = true) {o : Outcome ρ} (ho : s.Ends P o)
    (ht : s.task = d.task) : s = d := by
  obtain ⟨e, he⟩ := exists_suffix_of_mem hd
  have hfol := hh _ _ he
  have he' : e <:+ h := (List.suffix_cons d e).trans he
  unfold Follows at hfol
  split at hfol
  · exact hh.first_unique hs hd hf hfol.1 ht
  · rename_i q hq
    obtain ⟨hqm, hqt⟩ := latest_eq_some hq
    obtain ⟨x, hx, hxt, hxf, -⟩ := (hh.of_suffix he').exists_first hqm
    obtain rfl := hh.first_unique hs (he'.subset hx) hf hxf (ht.trans (hqt.symm.trans hxt.symm))
    have hlatest := (hh.of_suffix he').latest_of_ends hx ho
    rw [ht, hq] at hlatest
    have hlead := hfol.2.2
    rw [Option.some.inj hlatest] at hlead
    unfold Leads at hlead
    rw [show (s.turn P).next = .finish o from ho] at hlead
    exact hlead.elim

/-- A task keeps to the kind of work with which it began. -/
theorem Coherent.kind {F : β → Prop} {h : History σ β ρ} (hh : Coherent P h)
    (hkeeps : ∀ s ∈ h, ∀ b, (s.turn P).next.body? = some b → F s.body → F b) {s d : Stint σ β ρ}
    (hs : s ∈ h) (hd : d ∈ h) (hfirst : s.first = true) (ht : d.task = s.task) (hF : F s.body) :
    F d.body := by
  induction h generalizing d with
  | nil => exact absurd hs List.not_mem_nil
  | cons x h ih =>
      have hh' := hh.of_suffix (List.suffix_cons x h)
      have hkeeps' := fun y hy => hkeeps y (List.mem_cons_of_mem x hy)
      have hfollows := hh _ _ (List.suffix_refl _)
      unfold Follows at hfollows
      rcases List.mem_cons.mp hs with rfl | hsh
      · -- the first stint of the task is the only one so far
        have hall : ∀ y ∈ h, y.task ≠ s.task := by
          split at hfollows
          · rename_i hnone
            exact latest_eq_none.mp hnone
          · exact nomatch hfirst.symm.trans hfollows.1
        rcases List.mem_cons.mp hd with rfl | hd
        · exact hF
        · exact absurd ht (hall d hd)
      · rcases List.mem_cons.mp hd with rfl | hd
        · split at hfollows
          · rename_i hnone
            exact absurd ht.symm (latest_eq_none.mp hnone s hsh)
          · rename_i q hq
            obtain ⟨hqm, hqt⟩ := latest_eq_some hq
            exact hkeeps' q hqm d.body hfollows.2.2.body (ih hh' hkeeps' hsh hqm (hqt.trans ht))
        · exact ih hh' hkeeps' hsh hd ht

/-- A stint is the latest of its task, or there is one that goes on from it. -/
theorem latest_or_next {h : History σ β ρ} {s : Stint σ β ρ} (hs : s ∈ h) :
    h.latest s.task = some s ∨
      ∃ d e, d :: e <:+ h ∧ d.task = s.task ∧ latest e s.task = some s := by
  induction h with
  | nil => exact absurd hs List.not_mem_nil
  | cons x h ih =>
      rcases List.mem_cons.mp hs with rfl | hs
      · exact .inl (latest_cons_self rfl)
      · rcases ih hs with hl | ⟨d, e, hd, hrest⟩
        · by_cases hx : x.task = s.task
          · exact .inr ⟨x, h, List.suffix_refl _, hx, hl⟩
          · rw [latest_cons_of_ne hx]
            exact .inl hl
        · exact .inr ⟨d, e, hd.trans (List.suffix_cons x h), hrest⟩

/-! ## What becomes of tasks that another one starts -/

/-- **A task begins in the instant in which it was started**, with the work that it was started
for, and after the stint that started it. -/
theorem Coherent.origin {h : History σ β ρ} (hh : Coherent P h) {s : Stint σ β ρ}
    {e : History σ β ρ} (hs : s :: e <:+ h) (hf : s.first = true) {u : TaskId}
    (hu : s.audience = .task u) :
    ∃ p ∈ e, p.task = u ∧ p.now = s.now ∧ p.Starts P s.task s.body := by
  have hfol := hh _ _ hs
  unfold Follows at hfol
  split at hfol
  · exact hfol.2.2 u hu
  · rw [hf] at hfol
    exact nomatch hfol.1

/-- A task that was started by another one was so by a stint. -/
theorem Coherent.exists_parent {h : History σ β ρ} (hh : Coherent P h) {s : Stint σ β ρ} (hs : s ∈ h)
    {u : TaskId} (hu : s.audience = .task u) : ∃ p ∈ h, p.task = u := by
  obtain ⟨d, hd, -, hfirst, haudience⟩ := hh.exists_first hs
  obtain ⟨e, he⟩ := exists_suffix_of_mem hd
  obtain ⟨p, hp, hpu, -⟩ := hh.origin he hfirst (haudience.trans hu)
  exact ⟨p, he.subset (List.mem_cons_of_mem d hp), hpu⟩

/-- **A task goes on where it left off.** -/
theorem Coherent.next {h : History σ β ρ} (hh : Coherent P h) {d s : Stint σ β ρ}
    {e : History σ β ρ} (hd : d :: e <:+ h) (ht : d.task = s.task)
    (hs : latest e s.task = some s) :
    d.first = false ∧ d.audience = s.audience ∧ Leads P e s d.body d.wake := by
  have hfol := hh _ _ hd
  unfold Follows at hfol
  rw [ht, hs] at hfol
  exact hfol

/-- A task that has ended has no stint afterwards. -/
theorem Coherent.ne_of_ends {h : History σ β ρ} (hh : Coherent P h) {d s : Stint σ β ρ}
    {e : History σ β ρ} (hd : d :: e <:+ h) (hs : s ∈ e) {o : Outcome ρ} (ho : s.Ends P o) :
    s.task ≠ d.task := by
  intro ht
  have hlatest := (hh.of_suffix ((List.suffix_cons d e).trans hd)).latest_of_ends hs ho
  have hlead := (hh.next hd ht.symm hlatest).2.2
  unfold Leads at hlead
  rw [show (s.turn P).next = .finish o from ho] at hlead
  exact hlead

/-- The tasks that a stint starts are those of its numbers. -/
theorem mem_childIds {s : Stint σ β ρ} {c : TaskId} :
    c ∈ s.childIds P ↔ ∃ body, s.Starts P c body := by
  unfold Stint.childIds Stint.Starts
  rw [List.mem_range']
  constructor
  · rintro ⟨i, hi, rfl⟩
    exact ⟨_, i, List.getElem?_eq_getElem hi, by rw [Nat.one_mul]⟩
  · rintro ⟨body, i, hi, rfl⟩
    exact ⟨i, (List.getElem?_eq_some_iff.mp hi).1, by rw [Nat.one_mul]⟩

/-- A task that ended with a result did so with a stint of its own. -/
theorem Ended.of_ok {h : History σ β ρ} {t c : TaskId} {r : ρ} (he : h.Ended P t c (.ok r)) :
    ∃ f ∈ h, f.task = c ∧ f.audience = .task t ∧ f.Ends P (.ok r) :=
  he.resolve_left fun h => nomatch h

/-- Whoever goes on with results has waited for all of the tasks that it started. -/
theorem Leads.of_gathered {h : History σ β ρ} {s : Stint σ β ρ} {body : β} {rs : List ρ}
    (hl : h.Leads P s body (.gathered rs)) : ∃ cs, (s.turn P).next = .gather cs body ∧
      List.Forall₂ (fun c r => h.Ended P s.task c (.ok r)) (s.childIds P) rs := by
  unfold Leads at hl
  revert hl
  cases (s.turn P).next with
  | finish o => exact fun hl => hl.elim
  | pause b =>
      rintro ⟨-, hw | hw⟩
      · exact nomatch hw
      · exact nomatch hw
  | sleep d l b =>
      rintro ⟨-, hw | hw | hw⟩
      · exact nomatch hw
      · exact nomatch hw
      · exact nomatch hw
  | gather cs b =>
      rintro ⟨rfl, ⟨rs', hw, hrs⟩ | ⟨st, hw, -⟩⟩
      · obtain rfl := Wake.gathered.inj hw
        exact ⟨cs, rfl, hrs⟩
      · exact nomatch hw
  | collect cs b =>
      rintro ⟨-, ⟨os, hw, -⟩ | hw⟩
      · exact nomatch hw
      · exact nomatch hw
  | await b =>
      rintro ⟨-, ⟨os, hw, -⟩ | hw⟩
      · exact nomatch hw
      · exact nomatch hw

/-- Whoever waited for others has their results, or was stopped. -/
theorem Leads.of_gather {h : History σ β ρ} {s : Stint σ β ρ} {body b : β} {cs : List β}
    {w : Wake ρ} (hl : h.Leads P s body w) (hs : (s.turn P).next = .gather cs b) :
    body = b ∧ ((∃ rs, w = .gathered rs ∧
        List.Forall₂ (fun c r => h.Ended P s.task c (.ok r)) (s.childIds P) rs) ∨
      ∃ st, w = .stopped st) := by
  unfold Leads at hl
  rw [hs] at hl
  exact ⟨hl.1, hl.2.imp_right fun ⟨st, hw, _⟩ => ⟨st, hw⟩⟩

/-- Each result is one of a task that was started. -/
theorem exists_child_of_result {h : History σ β ρ} {s : Stint σ β ρ} {cs : List TaskId}
    {rs : List ρ} (hrs : List.Forall₂ (fun c r => h.Ended P s.task c (.ok r)) cs rs) {r : ρ}
    (hr : r ∈ rs) : ∃ c ∈ cs, h.Ended P s.task c (.ok r) := by
  induction hrs with
  | nil => exact absurd hr List.not_mem_nil
  | cons he _ ih =>
      rcases List.mem_cons.mp hr with rfl | hr
      · exact ⟨_, List.mem_cons_self, he⟩
      · obtain ⟨c, hc, he⟩ := ih hr
        exact ⟨c, List.mem_cons_of_mem _ hc, he⟩

/-- Each task that was started has a result. -/
theorem exists_result_of_child {h : History σ β ρ} {s : Stint σ β ρ} {cs : List TaskId}
    {rs : List ρ} (hrs : List.Forall₂ (fun c r => h.Ended P s.task c (.ok r)) cs rs) {c : TaskId}
    (hc : c ∈ cs) : ∃ r ∈ rs, h.Ended P s.task c (.ok r) := by
  induction hrs with
  | nil => exact absurd hc List.not_mem_nil
  | cons he _ ih =>
      rcases List.mem_cons.mp hc with rfl | hc
      · exact ⟨_, List.mem_cons_self, he⟩
      · obtain ⟨r, hr, he⟩ := ih hc
        exact ⟨r, List.mem_cons_of_mem _ hr, he⟩

end History

end BuildingAlerts
