/-
Work that is asked of an idle agenda.

Somebody asks an idle agenda for work and waits for it, and nothing else is asked for. Then there are
only the task that was asked for and those that it starts. If these start no others and nothing is
booked, nobody is told to stop but by one of these, and the answer is how the one task has ended.
-/
import BuildingAlerts.Proofs.Agenda.Beginning
import BuildingAlerts.Proofs.Agenda.Queue

set_option autoImplicit false

namespace BuildingAlerts

variable {σ β ρ : Type} {P : Program σ β ρ} {G M D W : β → Prop}

/-- Work `M` and its parts `D`: the work goes on as such and starts only parts, and these go on as such
and start no others. Nothing is booked, and whoever waits for all others goes on with work of the kind
`W`. -/
structure Parted (P : Program σ β ρ) (M D W : β → Prop) : Prop where
  booksNothing : ∀ now s body w, M body ∨ D body → (P now s body w).appointments = []
  keeps : ∀ now s body w, M body → ∀ b, (P now s body w).next.body? = some b → M b
  starts : ∀ now s body w, M body → ∀ c ∈ (P now s body w).next.children, D c
  parts : ∀ now s body w, D body → ∀ b, (P now s body w).next.body? = some b → D b
  leaf : ∀ now s body w, D body → (P now s body w).next.children = []
  waits : ∀ now s body w, M body ∨ D body → ∀ cs b, (P now s body w).next = .gather cs b → W b

theorem Parted.plain (hP : Parted P M D W) : Plain P (fun b => M b ∨ D b) W where
  booksNothing := hP.booksNothing
  keeps := fun now s body w hG b hb =>
    hG.imp (fun hM => hP.keeps now s body w hM b hb) fun hD => hP.parts now s body w hD b hb
  children := by
    rintro now s body w (hM | hD) c hc
    · exact .inr (hP.starts now s body w hM c hc)
    · exact absurd (hP.leaf now s body w hD ▸ hc) List.not_mem_nil
  waits := hP.waits

/-- Where nothing is booked there is nobody who may be told to stop. -/
theorem Plain.divides (hP : Plain P G W) : Agenda.Divides P G fun _ => False where
  booked := fun now s body w hG _ hm =>
    absurd (hP.booksNothing now s body w hG ▸ hm) List.not_mem_nil
  keeps := fun _ _ _ _ _ _ _ => .rfl
  children := fun _ _ _ _ _ h => h.elim

namespace Agenda

/-! ## What a run keeps -/

section

variable {h : History σ β ρ} {a start : Agenda σ β ρ} {α : Type} {f : σ → α}

/-- What no stint breaks holds throughout. The induction is on the run. -/
theorem Run.holds {I : σ → Prop} (hstart : Sound P none [] start)
    (hr : Run P (fun _ _ => False) start h a) (hkeeps : ∀ n ∈ h, I n.state → I (n.turn P).state)
    (hI : I start.state) : I a.state ∧ ∀ n ∈ h, I n.state := by
  induction hr with
  | idle => exact ⟨hI, fun n hn => absurd hn List.not_mem_nil⟩
  | @step h a b place hr hb ih =>
      have hstate := state_of_stepAt (hr.sound hstart fun _ h => h.elim).numbered hb
      cases hs : a.stintAt? place with
      | none =>
          rw [hs] at hstate hkeeps
          exact ⟨(congrArg I hstate).mpr (ih hkeeps).1, (ih hkeeps).2⟩
      | some n =>
          rw [hs] at hstate hkeeps
          obtain ⟨-, -, p, -, hof⟩ := stintAt?_eq_some hs
          obtain ⟨ha, hall⟩ := ih fun m hm => hkeeps m (List.mem_cons_of_mem n hm)
          have hn : I n.state := hof.state ▸ ha
          exact ⟨(congrArg I hstate).mpr (hkeeps n List.mem_cons_self hn),
            List.forall_mem_cons.mpr ⟨hn, hall⟩⟩
  | @pass h a time _ _ _ ih =>
      rw [state_passTo]
      exact ih hkeeps
  | serve _ hb _ => exact hb.elim

/-- What no stint changes is as it was at the start. -/
theorem Run.as_begun (hstart : Sound P none [] start) (hr : Run P (fun _ _ => False) start h a)
    (hkeeps : ∀ n ∈ h, f (n.turn P).state = f n.state) : f a.state = f start.state :=
  (hr.holds (I := fun s => f s = f start.state) hstart (fun n hn hf => (hkeeps n hn).trans hf) rfl).1

/-- What only a stint changes that ends its task is as at the start when this one begins, and as it has
left it from then on. The induction is on the run. -/
theorem Run.as_left (hstart : Sound P none [] start) (hr : Run P (fun _ _ => False) start h a)
    {d : Stint σ β ρ} (hd : d ∈ h) {o : Outcome ρ} (hends : d.Ends P o)
    (hkeeps : ∀ n ∈ h, n ≠ d → f (n.turn P).state = f n.state) :
    f d.state = f start.state ∧ f a.state = f (d.turn P).state := by
  induction hr with
  | idle => exact absurd hd List.not_mem_nil
  | @step h a b place hr hb ih =>
      have hstate := state_of_stepAt (hr.sound hstart fun _ h => h.elim).numbered hb
      have hcoherent := ((Run.step hr hb).sound hstart fun _ h => h.elim).coherent
      cases hs : a.stintAt? place with
      | none =>
          rw [hs] at hstate hd hkeeps
          obtain ⟨hbefore, hafter⟩ := ih hd hkeeps
          exact ⟨hbefore, (congrArg f hstate).trans hafter⟩
      | some n =>
          rw [hs] at hstate hd hkeeps hcoherent
          obtain ⟨-, -, p, -, hof⟩ := stintAt?_eq_some hs
          have hstate : f b.state = f (n.turn P).state := congrArg f hstate
          by_cases hn : n = d
          · subst hn
            have hnot : ∀ m ∈ h, m ≠ n := by
              rintro m hm rfl
              exact hcoherent.ne_of_ends (List.suffix_refl _) hm hends rfl
            refine ⟨?_, hstate⟩
            rw [hof.state]
            exact hr.as_begun hstart fun m hm => hkeeps m (List.mem_cons_of_mem n hm) (hnot m hm)
          · obtain ⟨hbefore, hafter⟩ := ih ((List.mem_cons.mp hd).resolve_left (Ne.symm hn))
              fun m hm => hkeeps m (List.mem_cons_of_mem n hm)
            refine ⟨hbefore, hstate.trans ?_⟩
            rw [hkeeps n List.mem_cons_self hn, hof.state]
            exact hafter
  | @pass h a time _ _ _ ih =>
      rw [state_passTo]
      exact ih hd hkeeps
  | serve _ hb _ => exact hb.elim

/-- Whoever waits for no others sleeps when nothing is ready. -/
theorem Sound.asleep_of_latest (ha : Sound P none h a) (hready : a.ready = []) {t : TaskId}
    {p : Process β ρ} (hp : a.process? t = some p) {l : Stint σ β ρ} (hl : h.latest t = some l)
    (hnever : ∀ cs b, (l.turn P).next ≠ .collect cs b ∧ (l.turn P).next ≠ .await b ∧
      (l.turn P).next ≠ .gather cs b) : p.waiting = .asleep := by
  have hstands := ha.stands t nofun p hp
  unfold Stands at hstands
  rw [hl] at hstands
  cases hstands.2.2 with
  | queued hw _ => exact absurd hw (ha.not_queued hready hp _)
  | asleep hw _ => exact hw
  | collecting _ hs => exact absurd hs (hnever _ _).1
  | awaiting _ hs => exact absurd hs (hnever [] _).2.1
  | gathering _ hs _ _ => exact absurd hs (hnever _ _).2.2

end

/-! ## Asking -/

/-- An idle agenda that was asked for work. -/
def asked (s : σ) (body : β) : Agenda σ β ρ :=
  launch (.idle s) .caller body

variable {s : σ} {body : β} {h : History σ β ρ} {a : Agenda σ β ρ} {n : Stint σ β ρ} {t : TaskId}

/-- The first stint of the work that was asked for. -/
def opening (s : σ) (body : β) : Stint σ β ρ :=
  ⟨0, .caller, 0, s, body, .start, true, 1⟩

theorem sound_asked (P : Program σ β ρ) (s : σ) (body : β) : Sound P none [] (asked s body) :=
  have hidle := sound_idle P s
  hidle.outside ⟨s, rebooked_launch (w := .caller) hidle.numbered (fun _ h => nomatch h) _⟩

theorem process?_asked {p : Process β ρ} (hp : (asked s body).process? t = some p) :
    t = 0 ∧ p = .fresh body .caller := by
  have hp : ((idle s : Agenda σ β ρ).start _).process? t = some p := hp
  rw [process?_start] at hp
  rcases Option.or_eq_some_iff.mp hp with hp | ⟨-, hp⟩
  · exact nomatch hp
  · split at hp
    · rename_i ht
      exact ⟨ht, (Option.some.inj hp).symm⟩
    · exact nomatch hp

theorem undisturbed_asked (hG : G body) :
    Undisturbed G W (asked s body : Agenda σ β ρ) := by
  intro t p hp
  obtain ⟨-, rfl⟩ := process?_asked hp
  exact ⟨hG, rfl, rfl, nofun, nofun⟩

/-- What an agenda may come to that is asked for work, and for nothing else. -/
abbrev Asked (P : Program σ β ρ) (s : σ) (body : β) : History σ β ρ → Agenda σ β ρ → Prop :=
  Run P (fun _ _ => False) (asked s body)

namespace Asked

theorem sound (hr : Asked P s body h a) : Sound P none h a :=
  Run.sound (sound_asked P s body) (fun _ h => h.elim) hr

/-- The idle agenda is asked. -/
theorem served (hr : Asked P s body h a) :
    Run P (fun b c => b = .idle s ∧ c = asked s body) (.idle s) h a := by
  induction hr with
  | idle => exact .serve .idle ⟨rfl, rfl⟩
  | step _ hb ih => exact .step ih hb
  | pass _ hready htime ih => exact .pass ih hready htime
  | serve _ hb _ => exact hb.elim

/-- The work has begun, or nothing has happened yet. -/
theorem begun (hr : Asked P s body h a) : h = [] ∧ a = asked s body ∨ opening s body ∈ h := by
  induction hr with
  | idle => exact .inl ⟨rfl, rfl⟩
  | @step h a b place hr hb ih =>
      rcases ih with ⟨rfl, rfl⟩ | hopening
      · cases place with
        | zero => exact .inr List.mem_cons_self
        | succ k => exact nomatch (show none = some b from hb)
      · exact .inr (List.mem_append_right _ hopening)
  | pass hr hready _ ih =>
      -- time does not pass before the work begins, for it is ready
      refine ih.imp_left fun ⟨_, ho⟩ => ?_
      rw [ho] at hready
      exact nomatch hready
  | serve _ hb _ => exact hb.elim

theorem opening_mem (hr : Asked P s body h a) (hn : n ∈ h) : opening s body ∈ h :=
  (begun hr).resolve_left fun ⟨hnil, _⟩ => absurd (hnil ▸ hn) List.not_mem_nil

/-- The work has begun when nothing is ready. -/
theorem opening_mem_of_ready (hr : Asked P s body h a) (hready : a.ready = []) : opening s body ∈ h := by
  refine (begun hr).resolve_left ?_
  rintro ⟨-, rfl⟩
  exact nomatch hready

/-! ## Nobody disturbs the work -/

section

variable (hP : Plain P G W) (hG : G body)

include hP hG

theorem undisturbed (hr : Asked P s body h a) : Undisturbed G W a :=
  Run.undisturbed hP (sound_asked P s body) (undisturbed_asked hG) hr

theorem unstopped (hr : Asked P s body h a) (hn : n ∈ h) {st : Stop} (hwake : n.wake = .stopped st) :
    W n.body :=
  Run.unstopped hP (sound_asked P s body) (undisturbed_asked hG) hr hn hwake

theorem kind (hr : Asked P s body h a) (hn : n ∈ h) : G n.body :=
  (Run.only hP.closed (sound_asked P s body) (fun _ h => h.elim)
    (fun t p hp => (undisturbed_asked (W := W) hG t p hp).1) (fun _ h => h.elim) hr).2 n hn

/-- No task comes to an end without a stint. -/
theorem job?_of_no_stint (hr : Asked P s body h a) {b : Agenda σ β ρ} {place : Nat}
    (hs : a.stintAt? place = none) (hb : a.stepAt P place = some b) (u : TaskId) :
    b.job? u = a.job? u := by
  refine (Agenda.job?_of_no_stint hs hb u).resolve_right ?_
  rintro ⟨-, p, hp, hbegun, hstop⟩
  obtain ⟨-, hfree⟩ := hr.undisturbed hP hG u p hp
  rcases hstop with hstop | ⟨st, hst⟩
  · exact nomatch hfree.unmarked.symm.trans hstop
  · exact nomatch hbegun.symm.trans (hfree.unstopped st hst).1

/-- Nobody is told to stop. -/
theorem calm (hr : Asked P s body h a) : Calm (fun _ => False) a ∧ Attentive P (fun _ => False) h a := by
  have hout : ∀ {b c : Agenda σ β ρ}, b.Numbered → b = .idle s ∧ c = asked s body → b.Outside c := by
    rintro b c hn ⟨rfl, rfl⟩
    exact ⟨s, rebooked_launch (w := .caller) hn (fun _ h => nomatch h) _⟩
  have honly : ∀ {b c : Agenda σ β ρ}, Only (fun _ => G) b → b = .idle s ∧ c = asked s body →
      Only (fun _ => G) c := by
    rintro b c - ⟨-, rfl⟩
    exact fun t p hp => (undisturbed_asked (W := W) hG t p hp).1
  have hcalm : ∀ {b c : Agenda σ β ρ}, b.Numbered → Calm (fun _ => False) b →
      b = .idle s ∧ c = asked s body → Calm (fun _ => False) c := by
    rintro b c hn hb ⟨rfl, rfl⟩
    exact hb.launch (w := .caller) hn (fun t h => nomatch h) body
  have hidle : Calm (fun _ => False) (idle s : Agenda σ β ρ) :=
    ⟨fun _ _ h => (nomatch h), fun _ h => absurd h List.not_mem_nil, fun _ _ _ _ h => nomatch h⟩
  exact ⟨Run.calm hP.closed hP.divides (sound_idle P s) hout (fun _ _ h => (nomatch h)) honly hidle hcalm
      hr.served,
    Run.attentive hP.closed hP.divides (sound_idle P s) hout (fun _ _ h => (nomatch h)) honly hidle hcalm
      hr.served rfl⟩

/-- **Whoever waited for others and was stopped** was so because one of them has failed. -/
theorem stopped_by (hr : Asked P s body h a) {d e : Stint σ β ρ} {k : History σ β ρ}
    (hd : d :: k <:+ h) (he : k.latest d.task = some e)
    (hgather : ∃ cs b, (e.turn P).next = .gather cs b) {st : Stop} (hwake : d.wake = .stopped st) :
    ∃ f ∈ h, f.task ∈ e.childIds P ∧ f.audience = .task e.task ∧ f.Ends P (.error st) := by
  obtain ⟨c, hc, ⟨f, hf, rfl, haudience, hends⟩ | ⟨-, -, -, -, -, hfalse⟩⟩ :=
    Run.stopped_by (F := fun _ => False) (fun hr => (calm hP hG hr).1) (fun hr => (calm hP hG hr).2) hr hd
      he hgather id hwake
  · exact ⟨f, hf, hc, haudience, hends⟩
  · exact hfalse.elim

end

/-! ## The work and its parts -/

/-- Who is under way for whom with what. -/
def Role (M D : β → Prop) (t : TaskId) (audience : Audience) (body : β) : Prop :=
  (t = 0 ∧ audience = .caller ∧ M body) ∨ (t ≠ 0 ∧ audience = .task 0 ∧ D body)

/-- **The work that was asked for and its parts** are all there is. The induction is on the run. -/
theorem roles (hP : Parted P M D W) (hM : M body) (hr : Asked P s body h a) :
    (∀ t j, a.job? t = some j → Role M D t j.1 j.2) ∧
      ∀ n ∈ h, Role M D n.task n.audience n.body := by
  induction hr with
  | idle =>
      refine ⟨fun t j hj => ?_, fun n hn => absurd hn List.not_mem_nil⟩
      obtain ⟨p, hp, haudience, hbody⟩ := job?_eq_some.mp hj
      obtain ⟨rfl, rfl⟩ := process?_asked hp
      exact .inl ⟨rfl, haudience.symm, hbody ▸ hM⟩
  | @step h a b place hr hb ih =>
      obtain ⟨ihjobs, ihstints⟩ := ih
      have hnumbered : a.Numbered := (sound hr).numbered
      cases hs : a.stintAt? place with
      | none =>
          refine ⟨fun t j hj => ihjobs t j ?_, ihstints⟩
          exact (job?_of_no_stint hP.plain (.inl hM) hr hs hb t).symm.trans hj
      | some n =>
          have hrole := ihjobs n.task _ (job?_of_stintAt hs)
          refine ⟨fun t j hj => ?_, List.forall_mem_cons.mpr ⟨hrole, ihstints⟩⟩
          cases comes_of_stint hnumbered hs hb hj with
          | stays _ hj => exact ihjobs t j hj
          | goesOn ht haudience hnext =>
              rw [ht, haudience]
              exact hrole.imp (fun ⟨ht, ha, hM⟩ => ⟨ht, ha, hP.keeps _ _ _ _ hM _ hnext⟩)
                fun ⟨ht, ha, hD⟩ => ⟨ht, ha, hP.parts _ _ _ _ hD _ hnext⟩
          | @added i ht hj =>
              -- nothing is booked, so what is added is what the stint starts
              have hmem := List.mem_of_getElem? hj
              unfold Stint.jobs at hmem
              rw [show (n.turn P).appointments = [] from
                hP.booksNothing _ _ _ _ (hrole.imp (·.2.2) (·.2.2))] at hmem
              obtain ⟨c, hc, rfl⟩ := List.mem_map.mp hmem
              rcases hrole with ⟨hzero, -, hM⟩ | ⟨-, -, hD⟩
              · obtain ⟨-, -, p, hp, -⟩ := stintAt?_eq_some hs
                have hlt : n.task < a.started := hnumbered hp
                refine .inr ⟨?_, congrArg _ hzero, hP.starts _ _ _ _ hM c hc⟩
                rw [ht]
                exact Nat.ne_of_gt (Nat.lt_of_lt_of_le (Nat.zero_lt_of_lt hlt) (Nat.le_add_right _ i))
              · exact absurd (hP.leaf _ _ _ _ hD ▸ hc) List.not_mem_nil
  | @pass h a time _ _ _ ih =>
      exact ⟨fun t j hj => ih.1 t j ((job?_passTo time).symm.trans hj), ih.2⟩
  | serve _ hb _ => exact hb.elim

/-- A part that begins was started by a stint of the work that was asked for. -/
theorem started (hP : Parted P M D W) (hM : M body) (hr : Asked P s body h a) (hn : n ∈ h)
    (hpart : n.audience = .task 0) (hfirst : n.first = true) :
    ∃ d ∈ h, d.task = 0 ∧ d.audience = .caller ∧ d.Starts P n.task n.body := by
  -- whoever started it is the task that hears of it, and this is the work itself
  obtain ⟨e, he⟩ := History.exists_suffix_of_mem hn
  obtain ⟨d, hd, hzero, -, hstarts⟩ := hr.sound.coherent.origin he hfirst hpart
  have hdm : d ∈ h := he.subset (List.mem_cons_of_mem n hd)
  rcases (roles hP hM hr).2 d hdm with ⟨-, haudience, -⟩ | ⟨hne, -⟩
  · exact ⟨d, hdm, hzero, haudience, hstarts⟩
  · exact absurd hzero hne

/-- **Parts that wait for nobody** sleep when nothing is ready, unless they have ended. -/
theorem asleep_of_part (hP : Parted P M D W) (hM : M body) (hr : Asked P s body h a)
    (hready : a.ready = [])
    (hnever : ∀ n ∈ h, D n.body → ∀ cs b, (n.turn P).next ≠ .collect cs b ∧ (n.turn P).next ≠ .await b ∧
      (n.turn P).next ≠ .gather cs b)
    {p : Process β ρ} (hp : a.process? t = some p) (haudience : p.audience = .task 0) :
    p.waiting = .asleep := by
  have hsound := sound hr
  cases hlast : h.latest t with
  | none =>
      -- it has not begun, so it is queued
      have hstands := hsound.stands t nofun p hp
      unfold Stands at hstands
      rw [hlast] at hstands
      exact absurd (hstands.child 0 haudience).2 (hsound.not_queued hready hp _)
  | some l =>
      obtain ⟨hl, hlt⟩ := History.latest_eq_some hlast
      refine hsound.asleep_of_latest hready hp hlast (hnever l hl ?_)
      obtain ⟨hjobs, hstints⟩ := roles hP hM hr
      rcases hstints l hl with ⟨hzero, -⟩ | ⟨-, -, hpart⟩
      · rcases hjobs t (p.audience, p.body) (job?_eq_some.mpr ⟨p, hp, rfl, rfl⟩) with
          ⟨-, hcaller, -⟩ | ⟨hne, -⟩
        · exact nomatch haudience.symm.trans hcaller
        · exact absurd (hlt.symm.trans hzero) hne
      · exact hpart

/-- If the work ends with its first stint, there is no other. -/
theorem eq_opening (hP : Parted P M D W) (hM : M body) (hr : Asked P s body h a) {o : Outcome ρ}
    (hends : (opening s body).Ends P o) (hn : n ∈ h) : n = opening s body := by
  have hopening := opening_mem hr hn
  have hmain : ∀ d ∈ h, d.task = 0 → opening s body = d := fun d hd hzero =>
    hr.sound.coherent.eq_of_first_ends hopening hd rfl hends hzero.symm
  rcases (roles hP hM hr).2 n hn with ⟨hzero, -⟩ | ⟨-, haudience, -⟩
  · exact (hmain n hn hzero).symm
  · -- it would be a part, and nobody has started one
    obtain ⟨e, he, -, hfirst, hea⟩ := hr.sound.coherent.exists_first hn
    obtain ⟨d, hd, hzero, -, i, hi, -⟩ := started hP hM hr he (hea.trans haudience) hfirst
    rw [← hmain d hd hzero, show ((opening s body : Stint σ β ρ).turn P).next = _ from hends] at hi
    exact nomatch hi

/-- **The answer** is how the work has ended that was asked for. -/
theorem answer_of_ends (hP : Parted P M D W) (hM : M body) (hr : Asked P s body h a) (hn : n ∈ h)
    (hcaller : n.audience = .caller) {o : Outcome ρ} (hends : n.Ends P o) : a.answer = some o := by
  refine Run.answer_of_ends (t := 0) hP.plain (sound_asked P s body) (undisturbed_asked (.inl hM)) hr
    (fun d hd hda => ?_) hn hcaller hends
  rcases (roles hP hM hr).2 d hd with ⟨hzero, -⟩ | ⟨-, haudience, -⟩
  · exact hzero
  · exact nomatch hda.symm.trans haudience

end Asked

end Agenda

end BuildingAlerts
