/-
Tasks whose booking is gone.

Whoever takes out a booking tells its task to stop. If the task waits for others that it has
started, it is they who are told, and the task hears of it when the first of them ends. So a booked
task that has lost its booking is `Fated`: it is marked, or one of those that it waits for will
never end with a result, and either way its next turn is one to stop. Work that is stopped ends
there and books nothing, so all that is ever booked is booked by tasks that still have their
booking, or never had one.
-/
import BuildingAlerts.Proofs.Agenda.Calm
import BuildingAlerts.Proofs.Agenda.Marks

set_option autoImplicit false

namespace BuildingAlerts

variable {σ β ρ : Type}

namespace Agenda

variable {P : Program σ β ρ} {G F L : β → Prop} {h : History σ β ρ} {a b : Agenda σ β ρ}
  {t : TaskId} {busy : Option TaskId}

/-- Among the work of a kind `G`, work of the kind `F` ends when it is stopped, and what such work
starts is of a kind `L` that starts nothing itself. Who books something ends with that. -/
structure Layered (P : Program σ β ρ) (G F L : β → Prop) : Prop extends Divides P G F where
  managed : ∀ body, F body → G body
  lower : ∀ body, L body → F body
  stops : ∀ now s body st, F body → ∃ st', (P now s body (.stopped st)).appointments = [] ∧
    (P now s body (.stopped st)).next = .finish (.error st')
  ends : ∀ now s body w, G body → (P now s body w).appointments = [] ∨
    ∃ o, (P now s body w).next = .finish o
  leaf : ∀ now s body w, L body → (P now s body w).appointments = [] ∧
    ∀ cs b, (P now s body w).next ≠ .gather cs b
  stays : ∀ now s body w, G body → ∀ b, (P now s body w).next.body? = some b → (L b ↔ L body)
  lowers : ∀ now s body w, G body → F body → ∀ c ∈ (P now s body w).next.children, L c

/-! ## Waiting for all of some tasks -/

/-- A task that waits for all of some others has started them with its latest stint; nobody has
booked them. -/
structure LeansOn (P : Program σ β ρ) (F L : β → Prop) (h : History σ β ρ) (a : Agenda σ β ρ)
    (t : TaskId) (p : Process β ρ) (cs : List TaskId) : Prop where
  upper : ¬ L p.body
  latest : ∃ s bs, h.latest t = some s ∧ (s.turn P).next = .gather bs p.body ∧ cs = s.childIds P
  past : ∀ c ∈ cs, c < a.started
  others : ∀ c ∈ cs, ∀ q, a.process? c = some q → q.key = none ∧ (F p.body → L q.body)

/-- All tasks that wait so. -/
def Leaning (P : Program σ β ρ) (F L : β → Prop) (h : History σ β ρ) (a : Agenda σ β ρ) : Prop :=
  ∀ t p cs got, a.process? t = some p → p.waiting = .all cs got → LeansOn P F L h a t p cs

theorem LeansOn.heeds {p q : Process β ρ} {cs : List TaskId} (hp : LeansOn P F L h a t p cs)
    (hab : Heeds none a b) (hq : q.body = p.body) : LeansOn P F L h b t q cs where
  upper := hq ▸ hp.upper
  latest := hq ▸ hp.latest
  past := fun c hc => Nat.lt_of_lt_of_le (hp.past c hc) hab.started
  others := by
    intro c hc r hr
    obtain ⟨p', hp', hpr⟩ := hab.of_some nofun (hp.past c hc) hr
    obtain ⟨hkey, hlower⟩ := hp.others c hc p' hp'
    exact ⟨hpr.key.trans hkey, fun hF => hpr.body ▸ hlower (hq ▸ hF)⟩

/-- What is booked does not matter. -/
theorem Leaning.edit (ha : Leaning P F L h a) (hprocess : b.processes = a.processes)
    (hstarted : b.started = a.started) : Leaning P F L h b := by
  intro u q cs got hq hw
  unfold process? at hq
  rw [hprocess] at hq
  exact (ha u q cs got hq hw).heeds (heeds_edit hprocess hstarted) rfl

/-- Telling and booking. -/
theorem Leaning.rebooked (ha : Leaning P F L h a) (hb : a.Rebooked b) (hab : Heeds none a b) :
    Leaning P F L h b := by
  intro u q cs got hq hw
  rcases hb.process?_eq_some hq with ⟨p, hp, hpq⟩ | ⟨-, -, -, houter⟩
  · rcases hpq.waiting with heq | ⟨-, heq⟩
    · exact (ha u p cs got hp (heq ▸ hw)).heeds hab hpq.body
    · exact nomatch heq.symm.trans hw
  · exact nomatch houter.waiting.symm.trans hw

/-! ## Who is told to stop -/

/-- Of the tasks that are booked, no other one is told. -/
theorem process?_cancelWithin (depth : Nat) {a : Agenda σ β ρ} (ha : Leaning P F L h a) {t u : TaskId}
    (hu : u ≠ t) {q : Process β ρ} (hq : (a.cancelWithin t depth).2.process? u = some q)
    (hkey : q.key ≠ none) : a.process? u = some q := by
  induction depth generalizing a t q with
  | zero =>
      unfold cancelWithin at hq
      exact hq
  | succ depth ih =>
      have hmark : ∀ {c : Agenda σ β ρ},
          (c.adjust t fun p => { p with stopping := true }).process? u = some q →
            c.process? u = some q := by
        intro c hc
        rw [process?_adjust_of_ne c _ hu] at hc
        exact hc
      unfold cancelWithin at hq
      cases hp : a.process? t with
      | none =>
          rw [hp] at hq
          exact hq
      | some p =>
          rw [hp] at hq
          dsimp only at hq
          cases hw : p.waiting with
          | queued w =>
              rw [hw] at hq
              exact hmark hq
          | working =>
              rw [hw] at hq
              exact hmark hq
          | asleep =>
              rw [hw] at hq
              dsimp only at hq
              rw [process?_wake, if_neg hu] at hq
              exact hq
          | any =>
              rw [hw] at hq
              dsimp only at hq
              rw [process?_wake, if_neg hu] at hq
              exact hq
          | all cs got =>
              -- those that the task waits for were booked by nobody
              have hall : ∀ (ts : List TaskId) {c : Agenda σ β ρ}, Leaning P F L h c →
                  (∀ x ∈ ts, ∀ r, c.process? x = some r → r.key = none) →
                  (∀ x ∈ ts, x < c.started) →
                  (c.cancelAll ts depth).2.process? u = some q → c.process? u = some q := by
                intro ts
                induction ts with
                | nil =>
                    intro c _ _ _ hc
                    unfold cancelAll at hc
                    exact hc
                | cons x xs ihx =>
                    intro c hlean hfree hpast hc
                    unfold cancelAll at hc
                    have hheeds := heeds_cancelWithin depth c x
                    have hrest := ihx (hlean.rebooked (rebooked_cancelWithin depth c x) hheeds)
                      (fun y hy r hr => by
                        obtain ⟨r', hr', hrr⟩ := hheeds.of_some nofun
                          (hpast y (List.mem_cons_of_mem x hy)) hr
                        exact hrr.key.trans (hfree y (List.mem_cons_of_mem x hy) r' hr'))
                      (fun y hy => Nat.lt_of_lt_of_le (hpast y (List.mem_cons_of_mem x hy))
                        hheeds.started) hc
                    by_cases hx : u = x
                    · subst hx
                      obtain ⟨r, hr, hrq⟩ := hheeds.of_some nofun (hpast u List.mem_cons_self) hrest
                      exact absurd (hrq.key.trans (hfree u List.mem_cons_self r hr)) hkey
                    · exact ih hlean hx hrest hkey
              have hleans := ha t p cs got hp hw
              rw [hw] at hq
              dsimp only at hq
              have hsame := hall cs ha (fun c hc r hr => (hleans.others c hc r hr).1) hleans.past
              split at hq
              · exact hsame hq
              · exact hsame (hmark hq)

/-- A task that waits for no others is marked when it is told. -/
theorem marked_cancelWithin {depth : Nat} (hw : ∀ p cs got, a.process? t = some p →
    p.waiting ≠ .all cs got) (htold : (a.cancelWithin t depth).1 = true) :
    ∃ q, (a.cancelWithin t depth).2.process? t = some q ∧ q.Marked := by
  cases depth with
  | zero =>
      unfold cancelWithin at htold
      exact nomatch htold
  | succ depth =>
      unfold cancelWithin at htold ⊢
      cases hp : a.process? t with
      | none =>
          rw [hp] at htold
          exact nomatch htold
      | some p =>
          have hmark : ∃ q, (a.adjust t fun p => { p with stopping := true }).process? t = some q ∧
              q.Marked := by
            refine ⟨_, (process?_adjust_self a t _).trans (by rw [hp]; rfl), .inl rfl⟩
          have hwake : ∃ q, (a.wake t (.stopped .cancelled)).process? t = some q ∧ q.Marked := by
            refine ⟨_, (process?_wake a t t _).trans (by rw [if_pos rfl, hp]; rfl), .inr ⟨_, rfl⟩⟩
          dsimp only
          cases hwait : p.waiting with
          | queued w => exact hmark
          | working => exact hmark
          | asleep => exact hwake
          | any => exact hwake
          | all cs got => exact absurd hwait (hw p cs got hp)

/-- If any of some leaves was told, one of them is marked. -/
theorem marked_cancelAll {depth : Nat} (ts : List TaskId) {a : Agenda σ β ρ}
    (ha : Leaning P F L h a) (hts : ∀ c ∈ ts, c < a.started ∧ ∀ q, a.process? c = some q → L q.body)
    (htold : (a.cancelAll ts depth).1 = true) :
    ∃ c ∈ ts, ∃ q, (a.cancelAll ts depth).2.process? c = some q ∧ L q.body ∧ q.Marked := by
  induction ts generalizing a with
  | nil =>
      unfold cancelAll at htold
      exact nomatch htold
  | cons t ts ih =>
      unfold cancelAll at htold ⊢
      dsimp only at htold ⊢
      have hheeds := heeds_cancelWithin depth a t
      obtain ⟨hlt, hleaf⟩ := hts t List.mem_cons_self
      rcases Bool.or_eq_true_iff.mp htold with hfirst | hrest
      · obtain ⟨q, hq, hm⟩ := marked_cancelWithin (fun p cs got hp hw =>
          (ha t p cs got hp hw).upper (hleaf p hp)) hfirst
        obtain ⟨p, hp, hpq⟩ := hheeds.of_some nofun hlt hq
        -- the others are told, too
        have hall := heeds_cancelAll depth (a.cancelWithin t depth).2 ts
        obtain ⟨r, hr, hqr⟩ := hall.kept nofun hq
        exact ⟨t, List.mem_cons_self, r, hr, by rw [hqr.body, hpq.body]; exact hleaf p hp,
          hqr.marked hm⟩
      · obtain ⟨c, hc, q, hq, hrest⟩ := ih
          (ha.rebooked (rebooked_cancelWithin depth a t) hheeds) (fun c hc => by
            obtain ⟨hlt', hleaf'⟩ := hts c (List.mem_cons_of_mem t hc)
            refine ⟨Nat.lt_of_lt_of_le hlt' hheeds.started, fun q hq => ?_⟩
            obtain ⟨p, hp, hpq⟩ := hheeds.of_some nofun hlt' hq
            exact hpq.body ▸ hleaf' p hp) hrest
        exact ⟨c, List.mem_cons_of_mem t hc, q, hq, hrest⟩

/-! ## Fate -/

/-- A leaf that will not end with a result: it is marked, or it is gone and had none. -/
def Fails (P : Program σ β ρ) (L : β → Prop) (h : History σ β ρ) (a : Agenda σ β ρ)
    (c : TaskId) : Prop :=
  (∃ q, a.process? c = some q ∧ L q.body ∧ q.Marked) ∨
    c < a.started ∧ a.process? c = none ∧ ∀ f ∈ h, f.task = c → ∀ r, ¬ f.Ends P (.ok r)

/-- A task whose next turn is one to stop. -/
def Fated (P : Program σ β ρ) (F L : β → Prop) (h : History σ β ρ) (a : Agenda σ β ρ)
    (t : TaskId) : Prop :=
  ∃ p, a.process? t = some p ∧ F p.body ∧ (p.Marked ∨ ∃ s bs body, h.latest t = some s ∧
    (s.turn P).next = .gather bs body ∧ ∃ c ∈ s.childIds P, Fails P L h a c)

theorem Fails.heeds {c : TaskId} (hc : Fails P L h a c) (hab : Heeds none a b) :
    Fails P L h b c := by
  rcases hc with ⟨q, hq, hL, hm⟩ | ⟨hlt, hnone, hno⟩
  · obtain ⟨r, hr, hqr⟩ := hab.kept nofun hq
    exact .inl ⟨r, hr, hqr.body ▸ hL, hqr.marked hm⟩
  · exact .inr ⟨Nat.lt_of_lt_of_le hlt hab.started, hab.gone hlt hnone, hno⟩

theorem Fated.heeds (ht : Fated P F L h a t) (hab : Heeds none a b) : Fated P F L h b t := by
  obtain ⟨p, hp, hF, hp'⟩ := ht
  obtain ⟨q, hq, hpq⟩ := hab.kept nofun hp
  refine ⟨q, hq, hpq.body ▸ hF, ?_⟩
  rcases hp' with hm | ⟨s, bs, body, hs, hnext, c, hc, hfails⟩
  · exact .inl (hpq.marked hm)
  · exact .inr ⟨s, bs, body, hs, hnext, c, hc, hfails.heeds hab⟩

/-- **Who is told to stop is fated.** -/
theorem fated_cancel (ha : Leaning P F L h a) (hn : a.Numbered)
    {p : Process β ρ} (hp : a.process? t = some p) (hF : F p.body) :
    Fated P F L h (a.cancel t) t := by
  obtain ⟨q, hq, hpq⟩ := (heeds_cancel a t).kept nofun hp
  refine ⟨q, hq, hpq.body ▸ hF, ?_⟩
  by_cases hall : ∃ cs got, p.waiting = .all cs got
  · obtain ⟨cs, got, hw⟩ := hall
    have hleans := ha t p cs got hp hw
    have hdepth : 0 < a.started := Nat.lt_of_le_of_lt (Nat.zero_le t) (hn hp)
    have hunfold : a.cancel t = if (a.cancelAll cs a.started).1 then (a.cancelAll cs a.started).2
        else (a.cancelAll cs a.started).2.adjust t fun p => { p with stopping := true } := by
      unfold cancel cancelWithin
      rw [hp]
      dsimp only
      rw [hw]
    rw [hunfold] at hq ⊢
    cases hany : (a.cancelAll cs a.started).1 with
    | true =>
        -- one of those that it waits for is marked
        obtain ⟨s, bs, hs, hnext, rfl⟩ := hleans.latest
        obtain ⟨c, hc, r, hr, hL, hm⟩ := marked_cancelAll (s.childIds P) ha
          (fun c hc => ⟨hleans.past c hc, fun r hr => (hleans.others c hc r hr).2 hF⟩) hany
        exact .inr ⟨s, bs, p.body, hs, hnext, c, hc, .inl ⟨r, hr, hL, hm⟩⟩
    | false =>
        rw [hany] at hq
        simp only [Bool.false_eq_true, if_false, process?_adjust_self] at hq
        obtain ⟨r, -, rfl⟩ := Option.map_eq_some_iff.mp hq
        exact .inl (.inl rfl)
  · have hw : ∀ p cs got, a.process? t = some p → p.waiting ≠ .all cs got := by
      intro p' cs got hp' hw
      obtain rfl := Option.some.inj (hp.symm.trans hp')
      exact hall ⟨cs, got, hw⟩
    have htold : (a.cancelWithin t (a.started + 1)).1 = true := by
      unfold cancelWithin
      rw [hp]
      dsimp only
      cases p.waiting <;> rfl
    obtain ⟨r, hr, hm⟩ := marked_cancelWithin hw htold
    obtain rfl := Option.some.inj (hr.symm.trans hq)
    exact .inl hm

/-- A task under way has not ended. -/
theorem Sound.not_ends (ha : Sound P none h a) {p : Process β ρ} (hp : a.process? t = some p)
    {f : Stint σ β ρ} (hf : f ∈ h) (hft : f.task = t) (o : Outcome ρ) : ¬ f.Ends P o := by
  intro hends
  have hlatest := ha.coherent.latest_of_ends hf hends
  rw [hft] at hlatest
  exact nomatch hp.symm.trans ((ha.living t nofun f hlatest).mpr ⟨o, hends⟩)

theorem Fails.not_ends (ha : Sound P none h a) {c : TaskId} (hc : Fails P L h a c)
    {f : Stint σ β ρ} (hf : f ∈ h) (hfc : f.task = c) (r : ρ) : ¬ f.Ends P (.ok r) := by
  rcases hc with ⟨q, hq, -, -⟩ | ⟨-, -, hno⟩
  · exact ha.not_ends hq hf hfc _
  · exact hno f hf hfc r

/-- **The next turn of a fated task is one to stop.** -/
theorem Fated.stops (ha : Sound P none h a) (ht : Fated P F L h a t) {n : Stint σ β ρ}
    (hn : a.stint? t = some n) : F n.body ∧ ∃ st, n.wake = .stopped st := by
  obtain ⟨p, hp, hF, hfate⟩ := ht
  cases runsTo P a t with
  | idle _ hs _ => exact nomatch hn.symm.trans hs
  | dropped _ _ _ _ hs _ => exact nomatch hn.symm.trans hs
  | delayed _ _ _ _ hs _ => exact nomatch hn.symm.trans hs
  | @works q w v hq hw hv hb hs _ =>
      obtain rfl := Option.some.inj (hp.symm.trans hq)
      obtain rfl := Option.some.inj (hs.symm.trans hn)
      refine ⟨hF, ?_⟩
      show ∃ st, v = .stopped st
      rw [hv]
      cases hstop : p.stopping with
      | true => exact ⟨_, rfl⟩
      | false =>
          show ∃ st, w = .stopped st
          rcases hfate with (h' | ⟨st, h'⟩) | ⟨s, bs, body, hlatest, hnext, c, hc, hfails⟩
          · exact nomatch hstop.symm.trans h'
          · exact ⟨st, Waiting.queued.inj (hw.symm.trans h')⟩
          · -- it has not got the results of all that it started
            have hstands := ha.stands t nofun p hp
            unfold Stands at hstands
            rw [hlatest] at hstands
            cases hstands.2.2 with
            | queued hw' hl =>
                obtain rfl := Waiting.queued.inj (hw.symm.trans hw')
                rcases (hl.of_gather hnext).2 with ⟨rs, -, hresults⟩ | hst
                · obtain ⟨r, -, hended⟩ := History.exists_result_of_child hresults hc
                  obtain ⟨f, hf, hfc, -, hends⟩ := hended.of_ok
                  exact absurd hends (hfails.not_ends ha hf hfc r)
                · exact hst
            | asleep hw' _ => exact nomatch hw.symm.trans hw'
            | collecting hw' _ => exact nomatch hw.symm.trans hw'
            | awaiting hw' _ => exact nomatch hw.symm.trans hw'
            | gathering hw' _ _ _ => exact nomatch hw.symm.trans hw'

end Agenda

end BuildingAlerts
