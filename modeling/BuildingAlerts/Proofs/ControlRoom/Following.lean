/-
What becomes of the deliveries of a call.

A delivery of a call draws an identifier, and from then on it is followed: it is under way, and
nobody has answered, or it is over, and its entry shows whether its provider has reported success.
-/
import BuildingAlerts.Proofs.ControlRoom.Calls
import BuildingAlerts.Proofs.ControlRoom.Outcomes

set_option autoImplicit false

namespace BuildingAlerts

open Agenda

/-! ## What goes on with a delivery -/

namespace Work

variable {id : String} {w b : Work} {n : Next Work Yield}

/-- An attempt at a delivery comes after some time. -/
theorem Leads.waits_of_tries (hn : w.Leads n) (hb : n.body? = some b) (htries : b.tries id = true) :
    n = .pause b ∨ ∃ d l, n = .sleep d l b := by
  cases hn with
  | finish => exact nomatch hb
  | sending => exact .inr ⟨_, _, congrArg _ (Option.some.inj hb)⟩
  | lapsing => exact .inl (congrArg _ (Option.some.inj hb))
  | _ =>
      obtain rfl := Option.some.inj hb
      exact nomatch htries

/-- Nothing goes on as a delivery that begins. -/
theorem Leads.body?_ne_deliver (hn : w.Leads n) (q : DeliveryRequest) (level : Int) :
    n.body? ≠ some (.deliver q level) := by
  intro hb
  cases hn with
  | finish => exact nomatch hb
  | _ => exact nomatch Option.some.inj hb

end Work

namespace ControlRoom

variable {c : ControlRoom} {id : String} {now : Instant} {w b : Work} {wake : Wake Yield}

/-- Work on a delivery leaves the channels their lines. -/
theorem equips_delivery (now : Instant) (c : ControlRoom) {w : Work} (hw : w.IsDelivery)
    (wake : Wake Yield) : Equips c (program now c w wake).state := by
  unfold program
  split
  · rename_i m _
    rcases hw with ⟨q, level, rfl⟩ | ⟨e, he⟩
    · cases wake with
      | stopped st => exact .of_lines rfl
      | _ => exact equips_beginDelivery c m q level
    · rcases Work.of_tries he with rfl | ⟨result, rfl⟩ | ⟨k, rfl⟩
      · cases wake with
        | stopped st => exact .of_lines rfl
        | _ => exact equips_beginAttempt c m e
      · cases wake with
        | expired => exact .of_lines rfl
        | stopped st => exact .of_lines rfl
        | _ => exact equips_conclude c m e result
      · cases wake with
        | stopped st => exact .of_lines rfl
        | _ => cases k <;> exact .of_lines rfl
  · exact .of_lines (congrArg lines (stopWork_state c _ hw.isManaged))

theorem lines_beginNotification (c : ControlRoom) (now : Moment) (r : AlertRef) (q : Routing) :
    (c.beginNotification now r q .none).state.lines = c.lines := by
  have hrequests : ∀ a : Alert, (c.requests now q r a).2.lines = c.lines := by
    intro a
    unfold requests admitted
    split
    · rfl
    · dsimp only
      split
      · rfl
      · rfl
  unfold beginNotification
  split
  · rfl
  · rename_i a _
    have hlines := hrequests a
    split
    · rename_i f d hd
      rw [hd] at hlines
      exact hlines
    · rename_i d hd
      rw [hd] at hlines
      exact hlines
    · rename_i rs d _ hd
      rw [hd] at hlines
      exact hlines

theorem lines_collecting (now : Instant) (c : ControlRoom) (r : AlertRef) (left : Nat)
    (es : List String) (wake : Wake Yield) :
    (program now c (.collecting r left es .none) wake).state.lines = c.lines := by
  unfold program
  split
  · rename_i m _
    cases wake with
    | arrived os =>
        show (c.takeIn m r left es .none os).state.lines = _
        unfold takeIn
        split
        · rfl
        · dsimp only
          split
          · rfl
          · rfl
    | _ => rfl
  · rfl

/-- Work of a call leaves the channels their lines. -/
theorem equips_program (now : Instant) (c : ControlRoom) (hw : w.IsOfCall) (wake : Wake Yield) :
    Equips c (program now c w wake).state := by
  rcases hw with ⟨r, q, rfl⟩ | ⟨r, left, es, rfl⟩ | hw
  · rcases program_route now c r q wake with ⟨st, h⟩ | ⟨m, -, h⟩
    · rw [h]
      exact .of_lines rfl
    · rw [h]
      exact .of_lines (lines_beginNotification c m r q)
  · exact .of_lines (lines_collecting now c r left es wake)
  · exact equips_delivery now c hw wake

/-- Only a delivery goes on with an attempt at one, after some time. -/
theorem next_of_tries (hw : w.IsOfCall) (hb : (program now c w wake).next.body? = some b)
    (htries : b.tries id = true) : w.IsDelivery ∧ ((program now c w wake).next = .pause b ∨
      ∃ d l, (program now c w wake).next = .sleep d l b) := by
  rcases hw with ⟨r, q, rfl⟩ | ⟨r, left, es, rfl⟩ | hw
  · rcases program_route now c r q wake with ⟨st, h⟩ | ⟨m, -, h⟩
    · rw [h] at hb
      exact nomatch hb
    · rw [h] at hb
      obtain ⟨rs, -, rfl, -⟩ := of_body?_beginNotification hb
      exact nomatch htries
  · obtain ⟨os, -, -, -, rfl, -⟩ := taken_in now c hb
    exact nomatch htries
  · exact ⟨hw, (shaped_program now c hw.isManaged wake).next.waits_of_tries hb htries⟩

/-- No work of a call goes on as a delivery that begins. -/
theorem body?_ne_deliver (hw : w.IsOfCall) (q : DeliveryRequest) (level : Int) :
    (program now c w wake).next.body? ≠ some (.deliver q level) := by
  intro hb
  rcases hw with ⟨r, s, rfl⟩ | ⟨r, left, es, rfl⟩ | hw
  · rcases program_route now c r s wake with ⟨st, h⟩ | ⟨m, -, h⟩
    · rw [h] at hb
      exact nomatch hb
    · rw [h] at hb
      obtain ⟨rs, -, heq, -⟩ := of_body?_beginNotification hb
      exact nomatch heq
  · obtain ⟨os, -, -, -, heq, -⟩ := taken_in now c hb
    exact nomatch heq
  · exact (shaped_program now c hw.isManaged wake).next.body?_ne_deliver q level hb

/-- Work on a delivery does not retry any. -/
theorem retries_of_isDelivery (hw : w.IsDelivery) (id : String) : w.retries id = false := by
  rcases hw with ⟨q, level, rfl⟩ | ⟨e, he⟩
  · rfl
  · exact Work.retries_of_tries he

/-- An attempt at a delivery comes from one before it, or from the draw of its identifier. -/
theorem tries_of_goesOn (hw : w.IsManaged) (hretries : w.retries id = false)
    (hb : (program now c w wake).next.body? = some b) (htries : b.tries id = true) :
    w.tries id = true ∨ ∃ q level, w = .deliver q level ∧ c.nextEntry = id := by
  by_contra hno
  rw [not_or] at hno
  have hnone := tries_heirs now c hw (Bool.not_eq_true _ ▸ hno.1) hretries
    (fun q level heq hid => hno.2 ⟨q, level, heq, hid⟩) wake b
    (List.mem_append_left _ (Option.mem_toList.mpr hb))
  exact nomatch htries.symm.trans hnone

/-- Other work leaves the entry of a delivery as it is. -/
theorem leaves_ofCall (now : Instant) (c : ControlRoom) (hw : w.IsOfCall)
    (htries : w.tries id = false) (hdeliver : ∀ q level, w = .deliver q level → c.nextEntry ≠ id)
    (wake : Wake Yield) : Leaves id c (program now c w wake).state := by
  rcases hw with ⟨r, q, rfl⟩ | ⟨r, left, es, rfl⟩ | hw
  · rcases program_route now c r q wake with ⟨st, h⟩ | ⟨m, -, h⟩
    · rw [h]
      exact .rfl
    · rw [h]
      exact (sameBooks_beginNotification c m r q .none).leaves
  · exact leaves_program now c (w := .collecting r left es .none) trivial htries rfl hdeliver wake
  · exact leaves_program now c hw.isManaged htries (retries_of_isDelivery hw id) hdeliver wake

end ControlRoom

namespace Office

variable {h : Past} {o o' : Office} {id : String} {n d : Doing} {q : DeliveryRequest}

/-- Only a stint that draws the identifier or goes on with an attempt has an answer. -/
theorem reply?_eq_none (hdraws : draws id n = false) (htries : n.body.tries id = false) :
    reply? id n = none := by
  have hdrawn : ∀ {q level m}, n.state.clock? n.now = some m → n.body = .deliver q level →
      n.state.nextEntry ≠ id := by
    intro q level m hm hbody hid
    have hyes := draws_iff.mpr ⟨⟨q, level, hbody⟩, ⟨m, hm⟩, hid⟩
    exact nomatch hyes.symm.trans hdraws
  unfold reply?
  split
  · rename_i m q level hm hbody hwake
    exact if_neg (hdrawn hm hbody)
  · rename_i m e hm hbody hwake
    rw [hbody] at htries
    exact if_neg fun heq => of_decide_eq_false htries heq
  · rename_i m e result hm hbody hwake
    rw [hbody] at htries
    exact if_neg fun heq => of_decide_eq_false htries heq
  · rfl

/-! ## A delivery is followed -/

/-- How a delivery has fared that a stint has begun. -/
inductive Fate (id : String) (h : Past) (o : Office) (d : Doing) (q : DeliveryRequest) : Prop where
  | underWay {u : Audience} {w : Work} {e : LogEntry} (hjob : Agenda.job? o d.task = some (u, w))
      (hw : w.tries id = true) (hattempt : w ≠ .attempt id)
      (he : o.state.journal.get? id = some e) (hfor : e.IsFor q)
      (hnone : ∀ n ∈ h, reply? id n = none)
  | ended {f : Doing} {e : LogEntry} (hf : f ∈ h) (htask : f.task = d.task)
      (hends : f.Ends ControlRoom.program (.ok (.names [id])))
      (he : o.state.journal.get? id = some e) (hfor : e.IsFor q)
      (hshows : e.Shows (∃ n ∈ h, Succeeds id n))

/-- Whoever tries a delivery has drawn its identifier, and it is known how it has fared. -/
structure Followed (id : String) (h : Past) (o : Office) : Prop where
  origin : ∀ {t j}, Agenda.job? o t = some j → j.2.tries id = true →
    ∃ d ∈ h, draws id d = true ∧ d.task = t
  replies : ∀ n ∈ h, reply? id n ≠ none → ∃ d ∈ h, draws id d = true
  fate : ∀ d ∈ h, draws id d = true → ∀ q level, d.body = .deliver q level → Fate id h o d q

/-- What does not touch a delivery. -/
theorem Fate.same (hf : Fate id h o d q)
    (hjob : Agenda.job? o' d.task = Agenda.job? o d.task)
    (hentry : o'.state.journal.get? id = o.state.journal.get? id) {k : Past}
    (hk : ∀ n ∈ k, reply? id n = none) : Fate id (k ++ h) o' d q := by
  cases hf with
  | underWay hj hw hattempt he hfor hnone =>
      exact .underWay (hjob.trans hj) hw hattempt (hentry.trans he) hfor fun n hn =>
        (List.mem_append.mp hn).elim (hk n) (hnone n)
  | ended hf htask hends he hfor hshows =>
      have hsame : (∃ n ∈ k ++ h, Succeeds id n) ↔ ∃ n ∈ h, Succeeds id n := by
        refine ⟨?_, fun ⟨n, hn, hs⟩ => ⟨n, List.mem_append_right k hn, hs⟩⟩
        rintro ⟨n, hn, r, hreply, hsuccess⟩
        rcases List.mem_append.mp hn with hn | hn
        · exact nomatch hreply.symm.trans (hk n hn)
        · exact ⟨n, hn, r, hreply, hsuccess⟩
      refine .ended (List.mem_append_right k hf) htask hends (hentry.trans he) hfor ?_
      rw [hsame]
      exact hshows

/-- What happens apart from stints touches no delivery. -/
theorem Followed.same (hk : Followed id h o)
    (hjob : ∀ u, Agenda.job? o' u = Agenda.job? o u)
    (hentry : o'.state.journal.get? id = o.state.journal.get? id) : Followed id h o' where
  origin := fun {t _} hj htries => hk.origin ((hjob t).symm.trans hj) htries
  replies := hk.replies
  fate := fun d hd hdraws q level hq => (hk.fate d hd hdraws q level hq).same (k := []) (hjob d.task)
    hentry fun _ hn => absurd hn List.not_mem_nil

/-- What an attempt makes of a delivery that nobody has answered before. -/
theorem Fate.of_fares {supported : Bool} (hfares : ControlRoom.Fares id q supported (reply? id n)
    (n.turn ControlRoom.program)) (hsupported : supported = true)
    (hserved : ¬ ControlRoom.IsUnsupported (reply? id n)) (htask : n.task = d.task)
    (hstate : o.state = (n.turn ControlRoom.program).state)
    (hjob : Agenda.job? o n.task
      = (n.turn ControlRoom.program).next.body?.map fun b => (n.audience, b))
    (hnone : ∀ n ∈ h, reply? id n = none) : Fate id (n :: h) o d q := by
  cases hfares with
  | goesOn hnext hw hattempt he hfor hreply =>
      rw [hnext, htask] at hjob
      exact .underWay hjob hw hattempt (hstate ▸ he) hfor (List.forall_mem_cons.mpr ⟨hreply, hnone⟩)
  | ends hnext he hfor hshows =>
      have hsame : (∃ m ∈ n :: h, Succeeds id m) ↔ ControlRoom.IsSuccess (reply? id n) := by
        refine ⟨?_, fun hs => ⟨n, List.mem_cons_self, hs⟩⟩
        rintro ⟨m, hm, r, hreply, hsuccess⟩
        rcases List.mem_cons.mp hm with rfl | hm
        · exact ⟨r, hreply, hsuccess⟩
        · exact nomatch hreply.symm.trans (hnone m hm)
      refine .ended List.mem_cons_self htask hnext (hstate ▸ he) hfor ?_
      rw [hsame]
      exact hshows
  | fails hwhy =>
      rcases hwhy with hwhy | hwhy
      · exact nomatch hwhy.symm.trans hsupported
      · exact absurd hwhy hserved

/-- A stint deals with a delivery as it should. Deliveries begin and attempts go on undisturbed, an
attempt comes from the one before it or from the draw of its identifier, and other work leaves the entry
as it is. -/
structure Minds (id : String) (n : Doing) : Prop where
  begins : ∀ q level, n.body = .deliver q level → n.first = true ∧ n.wake = .start
  waited : n.first = false → n.body.tries id = true → n.wake = .resumed ∨ n.wake = .expired
  adds : ∀ j ∈ n.jobs ControlRoom.program, j.2.tries id = false
  goesOn : ∀ b, (n.turn ControlRoom.program).next.body? = some b → b.tries id = true →
    n.body.tries id = true ∨ ∃ q level, n.body = .deliver q level ∧ n.state.nextEntry = id
  leaves : n.body.tries id = false →
    (∀ q level, n.body = .deliver q level → n.state.nextEntry ≠ id) →
      ControlRoom.Leaves id n.state (n.turn ControlRoom.program).state

/-- An attempt that goes on undisturbed was waited for. -/
theorem wake_of_tries (hh : History.Coherent ControlRoom.program (n :: h)) (hlater : n.first = false)
    (hunstopped : n.wake ≠ .stopped .cancelled) (hnext : ∀ d ∈ h,
      (d.turn ControlRoom.program).next.body? = some n.body →
        (d.turn ControlRoom.program).next = .pause n.body ∨
          ∃ a l, (d.turn ControlRoom.program).next = .sleep a l n.body) :
    n.wake = .resumed ∨ n.wake = .expired := by
  have hfollows := hh n h (List.suffix_refl _)
  unfold History.Follows at hfollows
  split at hfollows
  · exact nomatch hfollows.1.symm.trans hlater
  · rename_i d hd
    have hlead := hfollows.2.2
    have hgoes := hnext d (History.latest_eq_some hd).1 hlead.body
    unfold History.Leads at hlead
    rcases hgoes with hgoes | ⟨a, l, hgoes⟩
    · rw [hgoes] at hlead
      exact .inl (hlead.2.resolve_right hunstopped)
    · rw [hgoes] at hlead
      exact hlead.2.imp_right fun h => h.resolve_right hunstopped

/-- **A stint keeps track of a delivery**: it draws the identifier, or it goes on with an attempt, or
it has nothing to do with the delivery. -/
theorem Followed.stint (hk : Followed id h o) (hsound : Sound ControlRoom.program none h o) {place : Nat}
    (hs : Agenda.stintAt? o place = some n) (hb : o.stepAt ControlRoom.program place = some o')
    (hnow : History.Coherent ControlRoom.program (n :: h)) (hminds : Minds id n)
    (hone : GivenOnce id (n :: h)) (hclock : n.state.clock? n.now ≠ none)
    (hserved : ¬ ControlRoom.IsUnsupported (reply? id n))
    (hline : ∀ q level, n.body = .deliver q level → n.state.supports q.channel = true) :
    Followed id (n :: h) o' := by
  have hnumbered : Agenda.Numbered o := hsound.numbered
  have hself := Agenda.job?_of_stintAt hs
  have hstate : o'.state = (n.turn ControlRoom.program).state := by
    have h := Agenda.state_of_stepAt hnumbered hb
    rw [hs] at h
    exact h
  obtain ⟨-, -, p, hp, hof⟩ := Agenda.stintAt?_eq_some hs
  have hjob : Agenda.job? o' n.task
      = (n.turn ControlRoom.program).next.body?.map fun b => (n.audience, b) :=
    (Agenda.job?_of_stint hnumbered hs hb).trans (if_pos rfl)
  -- two draws would be by one task, and a task begins once
  have hfirst : draws id n = true → ∀ d ∈ h, draws id d ≠ true := by
    intro hn d hd hdraws
    obtain ⟨⟨q, level, hq⟩, -⟩ := draws_iff.mp hn
    refine hnow.ne_of_first (List.suffix_refl _) (hminds.begins q level hq).1 d hd ?_
    exact hone d (List.mem_cons_of_mem n hd) n List.mem_cons_self hdraws hn
  refine ⟨fun {t j} hj htries => ?_, fun m hm hreply => ?_, fun d hd hdraws q level hq => ?_⟩
  · have hdrawer : n.body.tries id = true ∨ draws id n = true →
        ∃ d ∈ n :: h, draws id d = true ∧ d.task = n.task := by
      rintro (hn | hn)
      · obtain ⟨d, hd, hdraws, htask⟩ := hk.origin hself hn
        exact ⟨d, List.mem_cons_of_mem n hd, hdraws, htask⟩
      · exact ⟨n, List.mem_cons_self, hn, rfl⟩
    -- whoever tries now has tried before, or goes on from this stint
    cases Agenda.comes_of_stint hnumbered hs hb hj with
    | stays _ hj =>
        obtain ⟨d, hd, hdraws, htask⟩ := hk.origin hj htries
        exact ⟨d, List.mem_cons_of_mem n hd, hdraws, htask⟩
    | goesOn ht _ hnext =>
        obtain rfl := ht
        refine hdrawer ((hminds.goesOn _ hnext htries).imp_right fun h => ?_)
        obtain ⟨q, level, hq, hid⟩ := h
        exact draws_iff.mpr ⟨⟨q, level, hq⟩, Option.ne_none_iff_exists'.mp hclock, hid⟩
    | added _ hj =>
        exact nomatch htries.symm.trans (hminds.adds _ (List.mem_of_getElem? hj))
  · rcases List.mem_cons.mp hm with rfl | hm
    · cases hn : draws id m with
      | true => exact ⟨m, List.mem_cons_self, hn⟩
      | false =>
          cases htries : m.body.tries id with
          | true =>
              obtain ⟨d, hd, hdraws, -⟩ := hk.origin hself htries
              exact ⟨d, List.mem_cons_of_mem m hd, hdraws⟩
          | false => exact absurd (reply?_eq_none hn htries) hreply
    · obtain ⟨d, hd, hdraws⟩ := hk.replies m hm hreply
      exact ⟨d, List.mem_cons_of_mem n hd, hdraws⟩
  · rcases List.mem_cons.mp hd with rfl | hd
    · -- it has just been drawn
      refine .of_fares (fares_of_draws hdraws hq (hminds.begins q level hq).2) (hline q level hq)
        hserved rfl hstate hjob fun m hm => ?_
      by_contra hreply
      obtain ⟨e, he, hdrawn⟩ := hk.replies m hm hreply
      exact hfirst hdraws e he hdrawn
    · have hfate := hk.fate d hd hdraws q level hq
      by_cases htask : d.task = n.task
      · -- it goes on
        cases hfate with
        | underWay hj hw hattempt he hfor hnone =>
            rw [htask, hself] at hj
            obtain ⟨rfl, rfl⟩ := Prod.mk.inj (Option.some.inj hj)
            have hlater : n.first = false := Bool.not_eq_true _ ▸ fun hfirst =>
              hnow.ne_of_first (List.suffix_refl _) hfirst d hd htask
            exact .of_fares (fares_of_tries hw hattempt hclock (hminds.waited hlater hw)
              (hof.state ▸ he) hfor) rfl hserved htask.symm hstate hjob hnone
        | ended hf hft hends _ _ _ =>
            exact absurd hends (hsound.not_ends hp hf (hft.trans htask) _)
      · -- another task has its turn
        have hn : draws id n = false := Bool.not_eq_true _ ▸ fun hn => hfirst hn d hd hdraws
        have htries : n.body.tries id = false := by
          refine Bool.not_eq_true _ ▸ fun htries => ?_
          obtain ⟨e, he, hdrawn, het⟩ := hk.origin hself htries
          exact htask ((hone d (List.mem_cons_of_mem n hd) e (List.mem_cons_of_mem n he) hdraws
            hdrawn).trans het)
        have hleaves := hminds.leaves htries fun q level hq hid => nomatch hn.symm.trans
          (draws_iff.mpr ⟨⟨q, level, hq⟩, Option.ne_none_iff_exists'.mp hclock, hid⟩)
        refine hfate.same (k := [n]) ?_ ?_ (List.forall_mem_singleton.mpr (reply?_eq_none hn htries))
        · rw [Agenda.job?_of_stint hnumbered hs hb, if_neg htask, if_pos (hsound.past d hd)]
        · rw [hstate, ← hof.state]
          exact hleaves.entry

/-- **Every delivery is followed** of work that is asked for and whose stints deal with it as they
should. The induction is on the run. -/
theorem followed_of_asked {G W : Work → Prop} (hP : Plain ControlRoom.program G W) {c : ControlRoom}
    {w : Work} (hG : G w) (hw : w.tries id = false) (hr : Agenda.Asked ControlRoom.program c w h o)
    (hminds : ∀ n ∈ h, Minds id n) (hone : GivenOnce id h) (hclock : CalendarLasts h)
    (hserved : ∀ n ∈ h, ¬ ControlRoom.IsUnsupported (reply? id n))
    (hlines : ∀ n ∈ h, ∀ q level, n.body = .deliver q level → n.state.supports q.channel = true) :
    Followed id h o := by
  induction hr with
  | idle =>
      refine ⟨fun {t j} hj htries => ?_, fun n hn => absurd hn List.not_mem_nil,
        fun d hd => absurd hd List.not_mem_nil⟩
      obtain ⟨p, hp, -, hbody⟩ := Agenda.job?_eq_some.mp hj
      obtain ⟨-, rfl⟩ := Agenda.process?_asked hp
      rw [← hbody] at htries
      exact nomatch htries.symm.trans hw
  | @step h b o' place hr hb ih =>
      have hrun : Agenda.Asked ControlRoom.program c w h b := hr
      have hnow : Agenda.Asked ControlRoom.program c w _ o' := .step hr hb
      have hk := ih (fun n hn => hminds n (List.mem_append_right _ hn))
        (hone.of_subset fun n hn => List.mem_append_right _ hn)
        (fun n hn => hclock n (List.mem_append_right _ hn))
        (fun n hn => hserved n (List.mem_append_right _ hn))
        (fun n hn => hlines n (List.mem_append_right _ hn))
      cases hs : Agenda.stintAt? b place with
      | none =>
          have hstate := Agenda.state_of_stepAt hrun.sound.numbered hb
          rw [hs] at hstate
          exact hk.same (hrun.job?_of_no_stint hP hG hs hb) (congrArg (·.journal.get? id) hstate)
      | some n =>
          rw [hs] at hminds hone hclock hserved hlines hnow
          exact hk.stint hrun.sound hs hb hnow.sound.coherent (hminds n List.mem_cons_self) hone
            (hclock n List.mem_cons_self) (hserved n List.mem_cons_self) (hlines n List.mem_cons_self)
  | @pass h b time hr hready htime ih =>
      exact (ih hminds hone hclock hserved hlines).same (fun u => Agenda.job?_passTo time)
        (congrArg (fun c : ControlRoom => c.journal.get? id) (state_passTo b time))
  | serve _ hb _ => exact hb.elim

namespace Call

variable {x : Call}

/-! ## Steps of a call -/

/-- A delivery that begins is the first stint of its task. -/
theorem Run.first_of_deliver (hr : x.Run h o) (hn : n ∈ h) {level : Int}
    (hbody : n.body = .deliver q level) : n.first = true ∧ n.wake = .start :=
  hr.sound.coherent.first_of_body hn fun _ hd =>
    hbody ▸ ControlRoom.body?_ne_deliver (hr.isOfCall hd) q level

/-- What a call adds with a stint are deliveries that begin. -/
theorem Run.deliver_of_added (hr : x.Run h o) (hn : n ∈ h) {i : Nat} {j : Audience × Work}
    (hj : (n.jobs ControlRoom.program)[i]? = some j) : ∃ q, j.2 = .deliver q 0 := by
  have hkind := ControlRoom.ofCall_program n.now n.state (hr.isOfCall hn) n.wake
  have hmem := List.mem_map_of_mem (f := Prod.snd) (List.mem_of_getElem? hj)
  rw [Stint.map_jobs, show (n.turn ControlRoom.program).appointments = [] from hkind.booksNothing]
    at hmem
  exact hkind.children _ hmem

/-- A call deals with its deliveries as it should. -/
theorem Run.minds (hr : x.Run h o) (hn : n ∈ h) (id : String) : Minds id n where
  begins := fun _ _ hq => hr.first_of_deliver hn hq
  waited := fun hlater htries => by
    obtain ⟨e, he⟩ := History.exists_suffix_of_mem hn
    refine wake_of_tries (hr.sound.coherent.of_suffix he) hlater (hr.unstopped hn _) fun d hd hb => ?_
    exact (ControlRoom.next_of_tries (hr.isOfCall (he.subset (List.mem_cons_of_mem n hd))) hb htries).2
  adds := fun j hj => by
    obtain ⟨i, hi⟩ := List.mem_iff_getElem?.mp hj
    obtain ⟨q, hq⟩ := hr.deliver_of_added hn hi
    rw [hq]
    rfl
  goesOn := fun _ hb htries => by
    obtain ⟨hw, -⟩ := ControlRoom.next_of_tries (hr.isOfCall hn) hb htries
    exact ControlRoom.tries_of_goesOn hw.isManaged (ControlRoom.retries_of_isDelivery hw id) hb htries
  leaves := fun htries hdeliver =>
    ControlRoom.leaves_ofCall n.now n.state (hr.isOfCall hn) htries hdeliver n.wake

/-! ## All deliveries of a call -/

/-- Channels that have a line when the call is made keep it. -/
theorem Run.supports (hr : x.Run h o) {ch : Channel} (hch : x.room.supports ch = true) :
    o.state.supports ch = true ∧ ∀ n ∈ h, n.state.supports ch = true :=
  hr.run.holds (I := fun c => ControlRoom.supports c ch = true) x.sound_start
    (fun n hn => ControlRoom.equips_program n.now n.state (hr.isOfCall hn) n.wake ch) hch

/-- A delivery of a call is one that it has asked for. -/
theorem Run.request_of_deliver (hr : x.Run h o) {now : Moment} {a : Alert}
    {rs : List DeliveryRequest} (hsends : x.Sends now a rs) (hn : n ∈ h) {level : Int}
    (hbody : n.body = .deliver q level) : ∃ i, rs[i]? = some q ∧ n.task = i + 1 := by
  have hpart : IsPart n := by
    refine (hr.roles.stints n hn).resolve_left fun hmain => ?_
    rcases hmain.begun with rfl | ⟨r, left, es, h⟩
    · exact nomatch hbody
    · exact nomatch hbody.symm.trans h
  obtain ⟨-, hstarts⟩ := hr.starts hn hpart (hr.first_of_deliver hn hbody).1
  obtain ⟨i, r, hr, htask, hw⟩ := hsends.request hstarts
  obtain ⟨rfl, -⟩ := Work.deliver.inj (hbody.symm.trans hw)
  exact ⟨i, hr, htask⟩

/-- No provider answers that its channel is not supported. -/
def Served (h : Past) : Prop :=
  ∀ n ∈ h, ∀ id, ¬ ControlRoom.IsUnsupported (reply? id n)

/-- **Every delivery of a call is followed.** -/
theorem Run.followed (hr : x.Run h o) {now : Moment} {a : Alert} {rs : List DeliveryRequest}
    (hsends : x.Sends now a rs) (hlines : ∀ q ∈ rs, x.room.supports q.channel = true)
    (hone : GivenOnce id h) (hclock : CalendarLasts h) (hserved : Served h) : Followed id h o := by
  refine followed_of_asked ControlRoom.plain_isOfCall (.inl ⟨_, _, rfl⟩) rfl hr.asked
    (fun n hn => hr.minds hn id) hone hclock (fun n hn => hserved n hn id) fun n hn q level hq => ?_
  obtain ⟨i, hi, -⟩ := hr.request_of_deliver hsends hn hq
  exact (hr.supports (hlines q (List.mem_of_getElem? hi))).2 n hn

end Call

end Office

end BuildingAlerts
