/-
What a call to notify returns.

The deliveries of a call end one after the other, and each ends with the identifier of its entry. The
call hears of them in that order, and of each once. It ends with the last of them, returns their
identifiers in the order in which they have ended, and adds these to the log of the alert.
-/
import BuildingAlerts.Proofs.ControlRoom.Following
import BuildingAlerts.Proofs.ControlRoom.Logs
import Mathlib.Data.Set.List

set_option autoImplicit false

namespace BuildingAlerts

open Agenda

/-- How a delivery ends that has an entry. -/
def deliveredAs (id : String) : Outcome Yield :=
  .ok (.names [id])

namespace ControlRoom

theorem arrivals_delivered (ids : List String) : arrivals (ids.map deliveredAs) = (ids, none) := by
  induction ids with
  | nil => rfl
  | cons id ids ih =>
      show (([id] ++ (arrivals (ids.map deliveredAs)).1), (arrivals (ids.map deliveredAs)).2) = _
      rw [ih]
      rfl

/-- Deliveries write nothing to the store. -/
theorem store_delivery (now : Instant) (c : ControlRoom) {w : Work} (hw : w.IsDelivery)
    (wake : Wake Yield) : (program now c w wake).state.store = c.store := by
  have hwrites := writes_program now c hw.isManaged wake
  generalize (program now c w wake).state.store = s at hwrites
  cases hwrites with
  | nothing => rfl
  | _ => rcases hw with ⟨q, level, h⟩ | ⟨e, h⟩ <;> exact nomatch h

/-- Work of a call writes to the store when it has heard of all deliveries. -/
theorem store_ofCall (now : Instant) (c : ControlRoom) {w : Work} (hw : w.IsOfCall)
    {wake : Wake Yield} (hcompletes : w.completes wake = false) :
    (program now c w wake).state.store = c.store := by
  rcases hw with ⟨r, q, rfl⟩ | ⟨r, left, es, rfl⟩ | hw
  · rcases program_route now c r q wake with ⟨st, h⟩ | ⟨m, -, h⟩
    · rw [h]
      rfl
    · rw [h]
      exact store_beginNotification c m r q .none
  · unfold program
    split
    · rename_i m _
      cases wake with
      | arrived os =>
          show (c.takeIn m r left es .none os).state.store = _
          unfold takeIn
          split
          · rfl
          · rename_i ids harrivals
            dsimp only
            split
            · rename_i hleft
              refine absurd (hcompletes.symm.trans ?_) Bool.false_ne_true
              show ((arrivals os).2.isNone && decide (left - os.length = 0)) = true
              rw [harrivals, decide_eq_true hleft]
              rfl
            · rfl
      | _ => rfl
    · rfl
  · exact store_delivery now c hw wake

/-- Who has heard of all deliveries ends. -/
theorem ends_of_completes {now : Instant} {c : ControlRoom} {r : AlertRef} {left : Nat}
    {es : List String} {wake : Wake Yield}
    (hcompletes : (Work.collecting r left es .none).completes wake = true) (hclock : c.clock? now ≠ none) :
    ∃ os, wake = .arrived os ∧ (program now c (.collecting r left es .none) wake).next
      = .finish (.ok (.names (es ++ (arrivals os).1))) := by
  obtain ⟨m, hm⟩ := Option.ne_none_iff_exists'.mp hclock
  cases wake with
  | arrived os =>
      refine ⟨os, rfl, ?_⟩
      obtain ⟨hfine, hleft⟩ := Bool.and_eq_true_iff.mp hcompletes
      rw [program_of_clock hm]
      show (c.takeIn m r left es .none os).next = _
      unfold takeIn
      have harrivals : arrivals os = ((arrivals os).1, none) :=
        Prod.ext rfl (Option.isNone_iff_eq_none.mp hfine)
      rw [harrivals]
      dsimp only
      rw [if_pos (of_decide_eq_true hleft)]
      rfl
  | _ => exact nomatch hcompletes

end ControlRoom

namespace Office

variable {h : Past} {o : Office}

/-- A delivery that has ended, with the entry that shows how. -/
structure Delivered (h : Past) (o : Office) (q : DeliveryRequest) (t : TaskId) (id : String) :
    Prop where
  drawn : ∃ d ∈ h, draws id d = true ∧ d.task = t
  entry : ∃ e, o.state.journal.get? id = some e ∧ e.IsFor q ∧ e.Shows (∃ n ∈ h, Succeeds id n)

/-- **A delivery that ends** does so with its identifier, and its entry shows how. -/
theorem Followed.delivered {q : DeliveryRequest} {id : String} {d s : Doing} {level : Int}
    {y : Outcome Yield} (hk : Followed id h o) (hsound : Sound ControlRoom.program none h o) (hd : d ∈ h)
    (hdraws : draws id d = true) (hbody : d.body = .deliver q level) (hs : s ∈ h)
    (htask : d.task = s.task) (hends : s.Ends ControlRoom.program y) :
    y = deliveredAs id ∧ Delivered h o q d.task id := by
  cases hk.fate d hd hdraws q level hbody with
  | underWay hjob _ _ _ _ _ =>
      obtain ⟨p, hp, -⟩ := Agenda.job?_eq_some.mp hjob
      exact absurd hends (hsound.not_ends hp hs htask.symm _)
  | @ended f e hf hft hfends he hfor hshows =>
      obtain rfl := hsound.coherent.ends_unique hs hf hends hfends (htask.symm.trans hft.symm)
      have hsame : y = deliveredAs id :=
        Next.finish.inj ((show (s.turn ControlRoom.program).next = .finish y from hends).symm.trans
          hfends)
      exact ⟨hsame, ⟨d, hd, hdraws, rfl⟩, e, he, hfor, hshows⟩

/-! ## What a stint is about -/

/-- The delivery that a stint is about. -/
def about? (n : Doing) : Option String :=
  match n.body with
  | .deliver _ _ => some n.state.nextEntry
  | .attempt e | .sending e _ | .lapsing e _ => some e
  | _ => none

theorem about?_of_draws {id : String} {n : Doing} (hn : draws id n = true) : about? n = some id := by
  obtain ⟨⟨q, level, hbody⟩, -, hid⟩ := draws_iff.mp hn
  unfold about?
  rw [hbody]
  exact congrArg some hid

theorem about?_of_reply? {id : String} {n : Doing} (hn : reply? id n ≠ none) : about? n = some id := by
  cases hdraws : draws id n with
  | true => exact about?_of_draws hdraws
  | false =>
      cases htries : n.body.tries id with
      | false => exact absurd (reply?_eq_none hdraws htries) hn
      | true =>
          unfold about?
          rcases Work.of_tries htries with h | ⟨r, h⟩ | ⟨k, h⟩
          · rw [h]
          · rw [h]
          · rw [h]

/-- Identifiers are given once if no two tasks are about one delivery. -/
theorem givenOnce_of_about? {h : Past}
    (hh : ∀ d ∈ h, ∀ e ∈ h, about? d = about? e → (about? d).isSome = true → d.task = e.task)
    (id : String) : GivenOnce id h := by
  intro d hd e he hdraws hdraws'
  have hid := about?_of_draws hdraws
  exact hh d hd e he (hid.trans (about?_of_draws hdraws').symm) (by rw [hid]; rfl)

instance (reply : Option (Except Fault DeliveryResult)) :
    Decidable (ControlRoom.IsUnsupported reply) :=
  decidable_of_iff ((match reply with
    | some (.error f) => f.isUnsupported
    | _ => false) = true) <| by
    unfold ControlRoom.IsUnsupported
    split
    · rename_i f
      exact ⟨fun h => ⟨f, rfl, h⟩, fun ⟨f', hf', h⟩ => Except.error.inj (Option.some.inj hf') ▸ h⟩
    · rename_i hno
      exact ⟨nofun, fun ⟨f, hf, _⟩ => absurd hf (hno f)⟩

theorem Call.served_of_about? {h : Past}
    (hh : ∀ n ∈ h, ∀ id ∈ about? n, ¬ ControlRoom.IsUnsupported (reply? id n)) : Call.Served h := by
  intro n hn id hunsupported
  refine hh n hn id (about?_of_reply? fun hnone => ?_) hunsupported
  obtain ⟨f, hf, -⟩ := hunsupported
  exact nomatch hnone.symm.trans hf

namespace Call

variable {x : Call} {now : Moment} {a : Alert} {rs : List DeliveryRequest}

/-- Nothing comes in the way of a call: identifiers are given once, the calendar lasts, and no
provider answers that its channel is not supported. -/
structure Smooth (h : Past) : Prop where
  once : ∀ id, GivenOnce id h
  clock : CalendarLasts h
  served : Served h

theorem Smooth.of_subset {k : Past} (hh : Smooth h) (hk : ∀ d ∈ k, d ∈ h) : Smooth k where
  once := fun id => (hh.once id).of_subset hk
  clock := fun d hd => hh.clock d (hk d hd)
  served := fun d hd => hh.served d (hk d hd)

/-! ## How deliveries end -/

/-- A delivery that ends has drawn an identifier and ends with it. -/
theorem Run.delivered (hr : x.Run h o) (hsends : x.Sends now a rs)
    (hlines : ∀ q ∈ rs, x.room.supports q.channel = true) (hsmooth : Smooth h)
    {g : TaskId × Outcome Yield} (hg : g ∈ h.endings ControlRoom.program 0) :
    ∃ i q id, rs[i]? = some q ∧ g = (i + 1, deliveredAs id) ∧ Delivered h o q (i + 1) id := by
  obtain ⟨s, hs, haudience, htask, hends⟩ := History.mem_endings.mp hg
  have hcoherent := hr.sound.coherent
  have hpart : ∀ d ∈ h, d.audience = .task 0 → IsPart d := fun d hd hd0 =>
    (hr.roles.stints d hd).resolve_left fun hmain => nomatch hd0.symm.trans hmain.audience
  obtain ⟨d, hd, hdt, hfirst, hda⟩ := hcoherent.exists_first hs
  obtain ⟨-, hstarts⟩ := hr.starts hd (hpart d hd (hda.trans haudience)) hfirst
  obtain ⟨i, q, hq, hdi, hbody⟩ := hsends.request hstarts
  have hdraws : draws d.state.nextEntry d = true :=
    draws_iff.mpr ⟨⟨q, 0, hbody⟩, Option.ne_none_iff_exists'.mp (hsmooth.clock d hd), rfl⟩
  have hfollowed := hr.followed hsends hlines (hsmooth.once d.state.nextEntry) hsmooth.clock
    hsmooth.served
  obtain ⟨hsame, hdelivered⟩ := hfollowed.delivered hr.sound hd hdraws hbody hs hdt hends
  exact ⟨i, q, _, hq, Prod.ext (htask.symm.trans (hdt.symm.trans hdi)) hsame, hdi ▸ hdelivered⟩

/-- Whoever ends was started by the call. -/
theorem Run.endings_subset (hr : x.Run h o) (hsends : x.Sends now a rs)
    (hlines : ∀ q ∈ rs, x.room.supports q.channel = true) (hsmooth : Smooth h) :
    (h.endings ControlRoom.program 0).map (·.1) ⊆ List.range' 1 rs.length := by
  intro t ht
  obtain ⟨g, hg, rfl⟩ := List.mem_map.mp ht
  obtain ⟨i, q, id, hq, rfl, -⟩ := hr.delivered hsends hlines hsmooth hg
  obtain ⟨hi, -⟩ := List.getElem?_eq_some_iff.mp hq
  rw [List.mem_range'_1]
  dsimp only
  omega

theorem Run.length_endings_le (hr : x.Run h o) (hsends : x.Sends now a rs)
    (hlines : ∀ q ∈ rs, x.room.supports q.channel = true) (hsmooth : Smooth h) :
    (h.endings ControlRoom.program 0).length ≤ rs.length := by
  have hle := (List.subperm_of_subset hr.sound.coherent.nodup_endings
    (hr.endings_subset hsends hlines hsmooth)).length_le
  rw [List.length_map, List.length_range'] at hle
  exact hle

/-- All outcomes of deliveries are identifiers. -/
theorem Run.names (hr : x.Run h o) (hsends : x.Sends now a rs)
    (hlines : ∀ q ∈ rs, x.room.supports q.channel = true) (hsmooth : Smooth h) :
    ∃ ids : List String, (h.endings ControlRoom.program 0).map (·.2) = ids.map deliveredAs := by
  have hall : ∀ y ∈ (h.endings ControlRoom.program 0).map (·.2), y ∈ Set.range deliveredAs := by
    intro y hy
    obtain ⟨g, hg, rfl⟩ := List.mem_map.mp hy
    obtain ⟨i, q, id, -, rfl, -⟩ := hr.delivered hsends hlines hsmooth hg
    exact ⟨id, rfl⟩
  obtain ⟨ids, hids⟩ := (Set.range_list_map deliveredAs).ge hall
  exact ⟨ids, hids.symm⟩

/-! ## How the call ends -/

/-- What the call knows when it goes on, and what it is told then. -/
structure Told (x : Call) (e : Past) (d : Doing) (rs : List DeliveryRequest) (left : Nat)
    (es : List String) (os : List (Outcome Yield)) : Prop where
  body : d.body = .collecting x.alert left es .none
  wake : d.wake = .arrived os
  count : left + (History.heard 0 e).length = rs.length
  entries : ControlRoom.arrivals (History.heard 0 e) = (es, none)
  order : ∃ rest, History.heard 0 e ++ os ++ rest = (e.endings ControlRoom.program 0).map (·.2)

/-- What the call knows after a stint of its own that it goes on from. -/
theorem Run.knows (hr : x.Run h o) (hsends : x.Sends now a rs) {l : Doing} {k : Past}
    (hl : l :: k <:+ h) (hzero : l.task = 0) {r : AlertRef} {left : Nat} {es : List String}
    (hb : (l.turn ControlRoom.program).next.body? = some (.collecting r left es .none)) :
    x.opening ∈ h ∧ Dispatches x.opening x.alert .none rs ∧ r = x.alert ∧
      left + (History.heard 0 (l :: k)).length = rs.length ∧ left ≠ 0 ∧
      ControlRoom.arrivals (History.heard 0 (l :: k)) = (es, none) := by
  obtain ⟨s, rs', hknows⟩ := hr.notifies.knows hl hb
  have hsm : s ∈ h := hl.subset hknows.mem
  have hs : s = x.opening := by
    rcases hr.roles.stints s hsm with hmain | hpart
    · obtain ⟨q, hq⟩ := List.exists_mem_of_ne_nil rs' hknows.dispatches.1
      refine hmain.eq_opening (v := .deliver q 0) ?_
      rw [hknows.dispatches.2]
      exact List.mem_map_of_mem hq
    · exact absurd (hknows.task.trans hzero) hpart.task
  have hdispatches := hs ▸ hknows.dispatches
  have hcount := hknows.count
  have hentries := hknows.entries
  rw [hzero] at hcount hentries
  rcases hsends.turn with ⟨-, hends⟩ | hown
  · exact nomatch hdispatches.2.symm.trans hends
  · have hnext := Next.collect.inj (hdispatches.2.symm.trans hown.2)
    have hinj : Function.Injective fun q : DeliveryRequest => Work.deliver q 0 :=
      fun q q' h => (Work.deliver.inj h).1
    obtain rfl : rs' = rs := List.map_injective_iff.mpr hinj hnext.1
    exact ⟨hs ▸ hsm, hown, (Work.collecting.inj hnext.2).1, hcount, hknows.waits, hentries⟩

/-- The call goes on when it is told of deliveries. -/
theorem Run.arrived (hr : x.Run h o) {d l : Doing} {e : Past} (hd : d :: e <:+ h) (hl : l ∈ e)
    (hlead : History.Leads ControlRoom.program e l d.body d.wake) {r : AlertRef} {left : Nat}
    {es : List String} (hbody : d.body = .collecting r left es .none) :
    ∃ os, d.wake = .arrived os := by
  have hunstopped : d.wake ≠ .stopped .cancelled := hr.unstopped (hd.subset List.mem_cons_self) _
  have hb := hlead.body
  rw [hbody] at hb
  have hnext : (∃ cs b, (l.turn ControlRoom.program).next = .collect cs b) ∨
      ∃ b, (l.turn ControlRoom.program).next = .await b := by
    rcases hr.notifies.begins l (hd.subset (List.mem_cons_of_mem d hl)) hb with
      ⟨left', es', hlbody⟩ | ⟨-, rs, hown, -⟩
    · unfold Stint.turn at hb ⊢
      rw [hlbody] at hb ⊢
      obtain ⟨os, -, -, -, -, hnext⟩ := ControlRoom.taken_in l.now l.state hb
      exact .inr ⟨_, hnext⟩
    · exact .inl ⟨_, _, hown.2⟩
  unfold History.Leads at hlead
  rcases hnext with ⟨cs, v, hnext⟩ | ⟨v, hnext⟩
  · rw [hnext] at hlead
    obtain ⟨os, hw, -⟩ := hlead.2.resolve_right hunstopped
    exact ⟨os, hw⟩
  · rw [hnext] at hlead
    obtain ⟨os, hw, -⟩ := hlead.2.resolve_right hunstopped
    exact ⟨os, hw⟩

/-- **Whenever the call goes on**, it is told of further deliveries in the order in which they have
ended. -/
theorem Run.told (hr : x.Run h o) (hsends : x.Sends now a rs) {d : Doing} {e : Past}
    (hd : d :: e <:+ h) (hmain : x.IsMain d) (hne : d ≠ x.opening) :
    ∃ left es os, Told x e d rs left es os := by
  obtain ⟨b, -, hbefore, hstint, -⟩ := hr.around hd
  have hbefore : x.Run e b := hbefore
  obtain ⟨r, left, es, hbody⟩ := hmain.begun.resolve_left hne
  have hfollows := hr.sound.coherent d e hd
  unfold History.Follows at hfollows
  split at hfollows
  · -- its first stint is the one with which it begins
    rename_i hnone
    have hopening : x.opening ∈ e := by
      refine hbefore.begun.resolve_left ?_
      rintro ⟨rfl, rfl⟩
      exact hne (Option.some.inj (hstint.symm.trans x.stintAt?_start))
    exact absurd hmain.task.symm (History.latest_eq_none.mp hnone _ hopening)
  · rename_i l hlatest
    obtain ⟨hl, hlt⟩ := History.latest_eq_some hlatest
    obtain ⟨k, hk, hheard⟩ := History.heard_latest hlatest
    have hlead := hfollows.2.2
    obtain ⟨os, hwake⟩ := hr.arrived hd hl hlead hbody
    have hb := hlead.body
    rw [hbody] at hb
    obtain ⟨hopening, hdispatches, rfl, hcount, -, hentries⟩ :=
      hbefore.knows hsends hk (hlt.trans hmain.task) hb
    rw [hmain.task] at hheard
    rw [← hheard] at hcount hentries
    refine ⟨left, es, os, hbody, hwake, hcount, hentries, ?_⟩
    -- what it is told was ready for it
    obtain ⟨-, hready, p, hp, -⟩ := Agenda.stintAt?_eq_some hstint
    obtain ⟨p', w, hp', -, hw, hdw, -⟩ := Agenda.run_of_stint? ControlRoom.program hready
    obtain rfl := Option.some.inj (hp.symm.trans hp')
    rw [(hbefore.undisturbed _ p hp).2.unmarked, if_neg Bool.false_ne_true, hwake] at hdw
    have hq : b.process? x.opening.task = some p := (congrArg b.process? hmain.task).symm.trans hp
    have horder := (hbefore.hearkens hopening hdispatches.listens hq).order
    rw [hw, ← hdw] at horder
    exact ⟨_, horder⟩

/-- The call has ended with the identifiers of all its deliveries, in the order in which they have
ended. -/
structure Ended (x : Call) (h : Past) (rs : List DeliveryRequest) (d : Doing) (ids : List String) :
    Prop where
  mem : d ∈ h
  main : x.IsMain d
  ends : d.Ends ControlRoom.program (.ok (.names ids))
  order : (h.endings ControlRoom.program 0).map (·.2) = ids.map deliveredAs
  count : ids.length = rs.length
  wrote : d = x.opening ∧ rs = [] ∨ ∃ left es os, d.body = .collecting x.alert left es .none ∧
    d.wake = .arrived os ∧ d.body.completes d.wake = true ∧ es ++ (ControlRoom.arrivals os).1 = ids

/-- **The call ends with the last of its deliveries.** -/
theorem Run.ended (hr : x.Run h o) (hsends : x.Sends now a rs)
    (hlines : ∀ q ∈ rs, x.room.supports q.channel = true) (hsmooth : Smooth h)
    (hopening : x.opening ∈ h) (hgone : o.process? 0 = none) : ∃ d ids, Ended x h rs d ids := by
  obtain ⟨d, hlatest⟩ : ∃ d, h.latest 0 = some d := History.exists_latest hopening
  obtain ⟨hd, hzero⟩ := History.latest_eq_some hlatest
  obtain ⟨y, hends⟩ := (hr.sound.living 0 nofun d hlatest).mp hgone
  have hmain : x.IsMain d := (hr.roles.stints d hd).resolve_right fun hpart => hpart.task hzero
  have hlength := hr.length_endings_le hsends hlines hsmooth
  by_cases hfirst : d = x.opening
  · -- nothing was asked for
    rcases hsends.turn with ⟨rfl, hnothing⟩ | hdispatches
    · refine ⟨d, [], hd, hmain, hfirst ▸ hnothing, ?_, rfl, .inl ⟨hfirst, rfl⟩⟩
      rw [List.length_eq_zero_iff.mp (Nat.le_zero.mp hlength)]
      rfl
    · rw [hfirst] at hends
      exact nomatch hdispatches.2.symm.trans hends
  · obtain ⟨e, he⟩ := History.exists_suffix_of_mem hd
    have hsuffix : e <:+ h := (List.suffix_cons d e).trans he
    obtain ⟨b, -, hbefore, -⟩ := hr.around he
    have hbefore : x.Run e b := hbefore
    have hsmoothe := hsmooth.of_subset fun n hn => hsuffix.subset hn
    obtain ⟨left, es, os, htold⟩ := hr.told hsends he hmain hfirst
    obtain ⟨ids, hids⟩ := hbefore.names hsends hlines hsmoothe
    obtain ⟨rest, horder⟩ := htold.order
    -- what it was told are the identifiers of the first deliveries
    obtain ⟨ids₁, ids₂, rfl, hfirsts, -⟩ := List.map_eq_append_iff.mp (hids.symm.trans horder.symm)
    have hheard := ControlRoom.arrivals_append htold.entries os
    rw [← hfirsts, ControlRoom.arrivals_delivered] at hheard
    obtain ⟨hnames, hfine⟩ := Prod.mk.inj hheard
    have hclock := hsmooth.clock d hd
    have hcompletes : d.body.completes d.wake = true := by
      obtain ⟨m, hm⟩ := Option.ne_none_iff_exists'.mp hclock
      unfold Stint.Ends Stint.turn at hends
      rw [htold.body, htold.wake] at hends ⊢
      exact ControlRoom.completes_of_finish hm hfine.symm hends
    have hnext : d.Ends ControlRoom.program (.ok (.names ids₁)) := by
      have hwrote := hcompletes
      unfold Stint.Ends Stint.turn
      rw [htold.body, htold.wake] at hwrote ⊢
      obtain ⟨os', hos, hfinish⟩ := ControlRoom.ends_of_completes hwrote hclock
      obtain rfl := Wake.arrived.inj hos
      rw [hfinish, hnames]
    -- and these are all
    have hleft : left ≤ os.length := by
      have hwrote := hcompletes
      rw [htold.body, htold.wake] at hwrote
      exact Nat.le_of_sub_eq_zero (of_decide_eq_true (Bool.and_eq_true_iff.mp hwrote).2)
    have hcount := htold.count
    have hmany := hbefore.length_endings_le hsends hlines hsmoothe
    have hsame := congrArg List.length hids
    have htwo := congrArg List.length hfirsts
    simp only [List.length_map, List.length_append] at hsame htwo
    have hall : ids₂ = [] := List.length_eq_zero_iff.mp (by omega)
    have hendings : History.endings ControlRoom.program 0 e = h.endings ControlRoom.program 0 :=
      (History.endings_prefix hsuffix).eq_of_length_le (by omega)
    refine ⟨d, ids₁, hd, hmain, hnext, ?_, by omega, .inr ⟨left, es, os, htold.body, htold.wake,
      hcompletes, hnames.symm⟩⟩
    rw [← hendings, hids, hall, List.append_nil]

/-! ## That the call ends -/

/-- A delivery that has begun and not ended sleeps, if nothing is ready. -/
theorem Run.asleep_of_part (hr : x.Run h o) (hready : o.ready = []) {n : Doing}
    (hn : n ∈ h) (hpart : IsPart n) (hopen : ∀ g ∈ h.endings ControlRoom.program 0, g.1 ≠ n.task) :
    ∃ p, o.process? n.task = some p ∧ p.waiting = .asleep := by
  have hsound := hr.sound
  obtain ⟨l, hlatest⟩ := History.exists_latest hn
  obtain ⟨hl, hlt⟩ := History.latest_eq_some hlatest
  have hlpart : IsPart l := (hr.roles.stints l hl).resolve_left fun hmain =>
    hpart.task (hlt.symm.trans hmain.task)
  have hgoes : ¬ ∃ y, l.Ends ControlRoom.program y := by
    rintro ⟨y, hends⟩
    exact hopen (l.task, y) (History.mem_endings.mpr ⟨l, hl, hlpart.audience, rfl, hends⟩) hlt
  obtain ⟨p, hp⟩ : ∃ p, o.process? n.task = some p := by
    refine Option.ne_none_iff_exists'.mp fun hnone => ?_
    exact hgoes ((hsound.living n.task nofun l hlatest).mp hnone)
  refine ⟨p, hp, hr.asked.asleep_of_part ControlRoom.parted_isCall (.inl ⟨_, _, rfl⟩) hready
    (fun k _ hw => (ControlRoom.shaped_program k.now k.state hw.isManaged k.wake).next.waits_for_nobody hw)
    hp ?_⟩
  rcases hr.roles.jobs n.task (p.audience, p.body) (Agenda.job?_eq_some.mpr ⟨p, hp, rfl, rfl⟩) with
    ⟨hzero, -⟩ | ⟨-, haudience, -⟩
  · exact absurd hzero hpart.task
  · exact haudience

/-- **The call has ended** when nothing is ready and nobody sleeps. -/
theorem Run.gone (hr : x.Run h o) (hsends : x.Sends now a rs)
    (hlines : ∀ q ∈ rs, x.room.supports q.channel = true) (hsmooth : Smooth h)
    (hready : o.ready = []) (hawake : ∀ t p, o.process? t = some p → p.waiting ≠ .asleep) :
    x.opening ∈ h ∧ o.process? 0 = none := by
  have hsound := hr.sound
  have hopening : x.opening ∈ h := hr.asked.opening_mem_of_ready hready
  refine ⟨hopening, Option.eq_none_iff_forall_not_mem.mpr fun p hp => ?_⟩
  have hp : o.process? 0 = some p := hp
  obtain ⟨l, hlatest⟩ : ∃ l, h.latest 0 = some l := History.exists_latest hopening
  obtain ⟨hl, hzero⟩ := History.latest_eq_some hlatest
  obtain ⟨k, hk, hheard⟩ := History.heard_latest hlatest
  obtain ⟨r, left, es, hbody⟩ : ∃ r left es, p.body = .collecting r left es .none := by
    rcases hr.roles.jobs 0 (p.audience, p.body) (Agenda.job?_eq_some.mpr ⟨p, hp, rfl, rfl⟩) with
      ⟨-, -, ⟨rfl, -⟩ | hbody⟩ | ⟨hne, -⟩
    · exact absurd hopening List.not_mem_nil
    · exact hbody
    · exact absurd rfl hne
  have hstands := hsound.stands 0 nofun p hp
  unfold Stands at hstands
  rw [hlatest] at hstands
  have hb := hstands.2.2.body
  rw [hbody] at hb
  obtain ⟨-, hdispatches, -, hcount, hwaits, -⟩ := hr.knows hsends hk hzero hb
  rw [← hheard] at hcount
  -- it has heard of all that have ended
  have hearkens := hr.hearkens hopening hdispatches.listens (show o.process? x.opening.task = some p from hp)
  have hany : p.waiting = .any :=
    hearkens.waits.resolve_right fun ⟨os, hw⟩ => hsound.not_queued hready hp _ hw
  have horder := hearkens.order
  have hnoreports : o.reportsTo x.opening.task = [] := by
    unfold Agenda.reportsTo
    rw [hready]
    rfl
  have hnothing : p.waiting.outcomes = [] := by
    rw [hany]
    rfl
  rw [hnothing, hnoreports, List.append_nil, List.map_nil, List.append_nil] at horder
  have hlength : ((h.endings ControlRoom.program 0).map (·.1)).length
      ≠ (List.range' 1 rs.length).length := by
    have hsame := congrArg List.length horder
    have hsame : (History.heard 0 h).length = ((h.endings ControlRoom.program 0).map (·.2)).length :=
      hsame
    rw [List.length_map] at hsame ⊢
    rw [List.length_range']
    omega
  -- so one of the deliveries is still to end
  obtain ⟨c, hc, hno⟩ := exists_not_heard List.nodup_range' hsound.coherent.nodup_endings
    (hr.endings_subset hsends hlines hsmooth) hlength
  obtain ⟨hone, hlt⟩ := List.mem_range'_1.mp hc
  obtain ⟨i, rfl⟩ := Nat.exists_eq_add_of_le hone
  have hi : i < rs.length := Nat.lt_of_add_lt_add_left hlt
  have hstarts : x.opening.Starts ControlRoom.program (1 + i) (.deliver rs[i] 0) := by
    refine ⟨i, ?_, ?_⟩
    · rw [hsends.children, List.getElem?_map, List.getElem?_eq_getElem hi]
      rfl
    · rw [x.firstChild_opening]
  obtain ⟨n, hn, hbegins⟩ := hr.run.begun_of_ready_nil (C := fun _ => True) x.sound_start
    (fun _ h => h.elim) (fun hr t p hp _ => ((hr.undisturbed ControlRoom.plain_isOfCall x.sound_start
      x.undisturbed_start) t p hp).2.unmarked) hready hopening hstarts trivial
  have hpart : IsPart n := (hr.roles.stints n hn).resolve_left fun hmain => by
    exact absurd (hbegins.task.symm.trans hmain.task) (Nat.ne_of_gt (Nat.add_pos_left Nat.one_pos i))
  obtain ⟨p', hp', hasleep⟩ := hr.asleep_of_part hready hn hpart fun g hg heq =>
    hno (List.mem_map.mpr ⟨g, hg, heq.trans hbegins.task⟩)
  exact hawake _ p' hp' hasleep

/-! ## What the call writes -/

/-- Only the call writes to the store, and it ends then. -/
theorem Run.ends_of_completes (hr : x.Run h o) (hclock : CalendarLasts h) {n : Doing} (hn : n ∈ h)
    (hcompletes : n.body.completes n.wake = true) :
    x.IsMain n ∧ ∃ y, n.Ends ControlRoom.program y := by
  rcases hr.roles.stints n hn with hmain | hpart
  · refine ⟨hmain, ?_⟩
    rcases hmain.begun with rfl | ⟨r, left, es, hbody⟩
    · exact nomatch hcompletes
    · have hwrote := hcompletes
      rw [hbody] at hwrote
      obtain ⟨os, -, hnext⟩ := ControlRoom.ends_of_completes hwrote (hclock n hn)
      refine ⟨.ok (.names (es ++ (ControlRoom.arrivals os).1)), ?_⟩
      unfold Stint.Ends Stint.turn
      rw [hbody]
      exact hnext
  · rcases hpart.body with ⟨q, level, hbody⟩ | ⟨e, he⟩
    · rw [hbody] at hcompletes
      exact nomatch hcompletes
    · rcases Work.of_tries he with hbody | ⟨y, hbody⟩ | ⟨k, hbody⟩
      · rw [hbody] at hcompletes
        exact nomatch hcompletes
      · rw [hbody] at hcompletes
        exact nomatch hcompletes
      · rw [hbody] at hcompletes
        exact nomatch hcompletes

/-- **The log of the alert grows by what the call returns**, and no other log changes. -/
theorem Run.logOf (hr : x.Run h o) (hsends : x.Sends now a rs) (hclock : CalendarLasts h) {d : Doing}
    {ids : List String} (hended : Ended x h rs d ids) (r : AlertRef) :
    o.state.store.logOf r = x.room.store.logOf r ++ if x.alert = r then ids else [] := by
  have hown : ∀ e ∈ h, e.body.completes e.wake = true → e = d := by
    intro e he hcompletes
    obtain ⟨hmain, y, hends⟩ := hr.ends_of_completes hclock he hcompletes
    exact hr.sound.coherent.ends_unique he hended.mem hends hended.ends
      (hmain.task.trans hended.main.task.symm)
  have hsame : ∀ e ∈ h, e.body.completes e.wake = false →
      (e.turn ControlRoom.program).state.store = e.state.store := fun e he hno =>
    ControlRoom.store_ofCall e.now e.state (hr.isOfCall he) hno
  obtain ⟨hold, hnew⟩ := hr.run.as_left (f := fun c : ControlRoom => c.store) x.sound_start hended.mem
    hended.ends fun e he hne => hsame e he (Bool.not_eq_true _ ▸ fun hyes => hne (hown e he hyes))
  rcases hended.wrote with ⟨rfl, rfl⟩ | ⟨left, es, os, hbody, hwake, hcompletes, rfl⟩
  · -- nothing was asked for
    rw [hnew, hsame _ hended.mem rfl, hold, List.length_eq_zero_iff.mp hended.count, ite_self,
      List.append_nil]
    rfl
  · obtain ⟨m, hm⟩ := Option.ne_none_iff_exists'.mp (hclock d hended.mem)
    have hturn : d.turn ControlRoom.program = d.state.takeIn m x.alert left es .none os := by
      unfold Stint.turn
      rw [hbody, hwake]
      exact ControlRoom.program_of_clock hm _ _
    rw [hbody, hwake] at hcompletes
    rw [hnew, hturn, ControlRoom.logOf_takeIn, hold]
    congr 1
    by_cases halert : x.alert = r
    · have hfound : (x.room.store.find? r).isSome = true := by
        rw [← halert, hsends.found]
        rfl
      rw [if_pos halert, if_pos ⟨hcompletes, halert, hfound⟩]
    · rw [if_neg halert, if_neg fun h => halert h.2.1]

end Call

end Office

end BuildingAlerts
