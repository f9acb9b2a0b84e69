/-
Which work goes on with a delivery.

Attempts and retries of a delivery come of few works. An attempt is begun by a delivery that draws
the identifier, or by a retry of the delivery; a retry is booked by the retry before it, or by the
notification or the escalation that the first attempt belongs to, once all its deliveries have
ended. Here it is told for every work which of its heirs go on with a delivery.
-/
import BuildingAlerts.Proofs.ControlRoom.Entries

set_option autoImplicit false

namespace BuildingAlerts

open Agenda

namespace Work

variable {id e : String} {w : Work}

/-- An attempt is one at a single delivery. -/
theorem tries_unique (h : w.tries id = true) (k : w.tries e = true) : e = id := by
  rcases of_tries h with rfl | ⟨r, rfl⟩ | ⟨n, rfl⟩
  · exact (of_decide_eq_true k).symm
  · exact (of_decide_eq_true k).symm
  · exact (of_decide_eq_true k).symm

/-- Attempts are no retries. -/
theorem retries_of_tries (h : w.tries e = true) : w.retries id = false := by
  rcases of_tries h with rfl | ⟨r, rfl⟩ | ⟨n, rfl⟩
  · rfl
  · rfl
  · rfl

/-- A retry of other deliveries. -/
theorem not_mem_of_retries {es : List String} {most : Int} {again : Bool}
    (h : w.retries id = false) (hw : w = .retry es most again) : id ∉ es := by
  rw [hw] at h
  exact of_decide_eq_false h

/-- Only deliveries, attempts and retries lead on to attempts. -/
theorem Leads.tries {n : Next Work Yield} (hn : w.Leads n) (htries : ∀ e, w.tries e = false)
    (hdeliver : ∀ r level, w ≠ .deliver r level) (hretry : ∀ es most again, w ≠ .retry es most again)
    (id : String) :
    (∀ v ∈ n.body?, v.tries id = false) ∧ ∀ v ∈ n.children, v.tries id = false := by
  have hself : ∀ e : String, decide (e = e) ≠ false := fun e h => of_decide_eq_false h rfl
  have hone : ∀ {b : Work}, b.tries id = false → ∀ v ∈ some b, v.tries id = false := by
    intro b hb v hv
    obtain rfl := Option.some.inj (Option.mem_def.mp hv)
    exact hb
  have hmap : ∀ {α : Type} {f : α → Work} {xs : List α}, (∀ x, (f x).tries id = false) →
      ∀ v ∈ xs.map f, v.tries id = false := by
    intro α f xs hf v hv
    obtain ⟨x, -, rfl⟩ := List.mem_map.mp hv
    exact hf x
  have hnil : ∀ v ∈ ([] : List Work), v.tries id = false := fun v hv => absurd hv List.not_mem_nil
  cases hn with
  | finish _ o => exact ⟨(fun v hv => nomatch hv), hnil⟩
  | evaluating s bs known => exact ⟨hone rfl, hmap fun _ => rfl⟩
  | notifying known refs found => exact ⟨hone rfl, hmap fun _ => rfl⟩
  | collecting r rs sequel => exact ⟨hone rfl, hmap fun _ => rfl⟩
  | awaiting r left left' es es' sequel => exact ⟨hone rfl, hnil⟩
  | retrying es tried most again => exact absurd rfl (hretry es most again)
  | escalating r p level rs s since booked => exact ⟨hone rfl, hmap fun _ => rfl⟩
  | sending _ entry d l result hw =>
      rcases hw with ⟨r, level, rfl⟩ | ⟨x, rfl⟩
      · exact absurd rfl (hdeliver r level)
      · exact absurd (htries x) (hself x)
  | lapsing _ entry turns hw =>
      rcases hw with ⟨r, level, rfl⟩ | ⟨x, rfl⟩ | ⟨x, m, rfl⟩
      · exact absurd rfl (hdeliver r level)
      · exact absurd (htries x) (hself x)
      · exact absurd (htries x) (hself x)

/-- Retries are booked, and not started by the tasks that wait for them. -/
theorem Leads.retries_children {n : Next Work Yield} (hn : w.Leads n) :
    ∀ v ∈ n.children, v.retries id = false := by
  have hmap : ∀ {α : Type} {f : α → Work} {xs : List α}, (∀ x, (f x).retries id = false) →
      ∀ v ∈ xs.map f, v.retries id = false := by
    intro α f xs hf v hv
    obtain ⟨x, -, rfl⟩ := List.mem_map.mp hv
    exact hf x
  cases hn with
  | evaluating s bs known => exact hmap fun _ => rfl
  | notifying known refs found => exact hmap fun _ => rfl
  | collecting r rs sequel => exact hmap fun _ => rfl
  | retrying es tried most again => exact hmap fun _ => rfl
  | escalating r p level rs s since booked => exact hmap fun _ => rfl
  | _ => exact fun v hv => absurd hv List.not_mem_nil

/-- The deliveries that a wave ends with, as far as they are known. -/
def carried : Work → Wake Yield → List String
  | .collecting _ _ es _, .arrived os => es ++ (ControlRoom.arrivals os).1
  | .escalating .., .gathered ys => ys.flatMap (·.ids)
  | _, _ => []

end Work

namespace ControlRoom

variable {c d : ControlRoom} {id e : String}

/-! ## Heirs that try -/

theorem Tried.tries_heirs {t : Stretch} (ht : Tried e c t) (he : e ≠ id) :
    ∀ v ∈ t.heirs, v.tries id = false := by
  intro v hv
  cases ht.tries with
  | fails _ hheirs _ => exact absurd (hheirs ▸ hv) List.not_mem_nil
  | ends _ _ hheirs _ => exact absurd (hheirs ▸ hv) List.not_mem_nil
  | goesOn _ hw _ hheirs _ =>
      obtain rfl := List.mem_singleton.mp (hheirs ▸ hv)
      cases htries : v.tries id with
      | false => rfl
      | true => exact absurd (Work.tries_unique htries hw) he

theorem Tried.length_heirs {t : Stretch} (ht : Tried e c t) : t.heirs.length ≤ 1 := by
  cases ht.tries with
  | fails _ hheirs _ =>
      rw [hheirs]
      exact Nat.zero_le 1
  | ends _ _ hheirs _ =>
      rw [hheirs]
      exact Nat.zero_le 1
  | goesOn _ _ _ hheirs _ =>
      rw [hheirs]
      exact Nat.le_refl 1

theorem Tried.retries_heirs {t : Stretch} (ht : Tried e c t) :
    ∀ v ∈ t.heirs, v.retries id = false := by
  intro v hv
  cases ht.tries with
  | fails _ hheirs _ => exact absurd (hheirs ▸ hv) List.not_mem_nil
  | ends _ _ hheirs _ => exact absurd (hheirs ▸ hv) List.not_mem_nil
  | goesOn _ hw _ hheirs _ =>
      obtain rfl := List.mem_singleton.mp (hheirs ▸ hv)
      exact Work.retries_of_tries hw

/-- What is booked tries nothing yet. -/
theorem IsBooked.tries {w : Work} (hw : IsBooked w) : w.tries id = false := by
  rcases hw with ⟨es, most, again, rfl⟩ | ⟨r, p, level, rfl⟩
  · rfl
  · rfl

theorem tries_endRetry (c : ControlRoom) (now : Moment) (tried asked : List String) (most : Int)
    (again : Bool) : ∀ v ∈ (c.endRetry now tried asked most again).heirs, v.tries id = false := by
  intro v hv
  rw [heirs_endRetry] at hv
  split at hv
  · obtain ⟨m, hm, rfl⟩ := List.mem_map.mp hv
    exact (isBooked_of_mem_retryAppointments hm).tries
  · exact absurd hv List.not_mem_nil

/-- The heirs of retries that go on. -/
theorem heirs_tryAgain (c : ControlRoom) (now : Moment) (tried : List String) (most : Int)
    (again : Bool) : ((c.beginTries now tried).goOn
      (.gather (tried.map .attempt) (.retrying tried most again))).heirs
        = .retrying tried most again :: tried.map .attempt := rfl

/-- **Work on other deliveries has no heirs that try this one.** -/
theorem tries_heirs (now : Instant) (c : ControlRoom) {w : Work} (hw : w.IsManaged)
    (htries : w.tries id = false) (hretries : w.retries id = false)
    (hdeliver : ∀ r level, w = .deliver r level → c.nextEntry ≠ id) (wake : Wake Yield) :
    ∀ v ∈ (program now c w wake).heirs, v.tries id = false := by
  have hstop : ∀ {st : Stop}, ∀ v ∈ (c.stop st).heirs, v.tries id = false :=
    fun v hv => absurd hv List.not_mem_nil
  have hshaped := shaped_program now c hw wake
  have hbooked : ∀ v ∈ (program now c w wake).appointments.map (·.body), v.tries id = false := by
    intro v hv
    obtain ⟨m, hm, rfl⟩ := List.mem_map.mp hv
    exact (hshaped.booked m hm).tries
  by_cases hother : ∃ e, w.tries e = true
  · obtain ⟨e, he⟩ := hother
    refine (tried_program now c he wake).tries_heirs fun h => ?_
    rw [h, htries] at he
    exact nomatch he
  by_cases hnew : ∃ r level, w = .deliver r level
  · obtain ⟨r, level, rfl⟩ := hnew
    rcases program_deliver now c r level wake with ⟨st, h⟩ | ⟨m, -, h⟩
    · rw [h]
      exact hstop
    · rw [h]
      obtain ⟨d, -, -, -, -, htried⟩ := tried_beginDelivery c m r level
      exact htried.tries_heirs (hdeliver r level rfl)
  by_cases hretry : ∃ es most again, w = .retry es most again
  · obtain ⟨es, most, again, rfl⟩ := hretry
    have hes : id ∉ es := of_decide_eq_false hretries
    rcases program_retry now c es most again wake with ⟨st, h⟩ | ⟨m, -, h⟩
    · rw [h]
      exact hstop
    · rw [h]
      rcases beginRetry_cases c m es most again with ⟨f, -, h⟩ | ⟨-, h⟩ | ⟨tried, -, htried, h⟩
      · rw [h]
        exact hstop
      · rw [h]
        exact tries_endRetry c m _ _ most again
      · rw [h, heirs_tryAgain]
        refine List.forall_mem_cons.mpr ⟨rfl, fun v hv => ?_⟩
        obtain ⟨x, hx, rfl⟩ := List.mem_map.mp hv
        refine decide_eq_false fun hxid => hes ?_
        exact (of_eligible htried).1.subset (hxid ▸ hx)
  · have hother : ∀ e, w.tries e = false := fun e =>
      Bool.not_eq_true _ ▸ fun h => hother ⟨e, h⟩
    have hnext := hshaped.next.tries hother (fun r level h => hnew ⟨r, level, h⟩)
      (fun es most again h => hretry ⟨es, most, again, h⟩) id
    intro v hv
    rcases List.mem_append.mp hv with hv | hv
    · exact hnext.1 v (Option.mem_toList.mp hv)
    · rcases List.mem_append.mp hv with hv | hv
      · exact hbooked v hv
      · exact hnext.2 v hv

/-! ## Heirs that retry -/

/-- What is booked for a delivery among some that were asked for. -/
theorem filter_retries_appointments (c : ControlRoom) (now : Moment) (es : List String)
    (id : String) : ∃ k, k ≤ es.count id ∧
      ((c.retryAppointments now es).1.map (·.body)).filter (·.retries id)
        = List.replicate k (.retry [id] c.setup.maxRetries true) := by
  obtain ⟨xs, hxs, -, hbodies⟩ := map_body_retryAppointments c now es
  refine ⟨xs.count id, hxs.count_le id, ?_⟩
  have hself : ∀ x : String, (Work.retry [x] c.setup.maxRetries true).retries id = (x == id) := by
    intro x
    show decide (id ∈ [x]) = (x == id)
    rw [Bool.eq_iff_iff, decide_eq_true_iff, List.mem_singleton, beq_iff_eq]
    exact eq_comm
  rw [hbodies, List.filter_map]
  show (xs.filter fun x => (Work.retry [x] c.setup.maxRetries true).retries id).map _ = _
  rw [List.filter_congr fun x _ => hself x, List.filter_beq, List.map_replicate]

/-- A stretch books a retry of a delivery so many times at most, and only when it ends. -/
def BooksWithin (id : String) (most : Int) (n : Nat) (t : Stretch) : Prop :=
  ∃ k, k ≤ n ∧ t.heirs.filter (·.retries id) = List.replicate k (.retry [id] most true) ∧
    (k ≠ 0 → ∃ o, t.next = .finish o)

/-- Work with heirs of which none retries. -/
theorem booksWithin_of_forall {t : Stretch} (ht : ∀ v ∈ t.heirs, v.retries id = false) (most : Int)
    (n : Nat) : BooksWithin id most n t :=
  ⟨0, Nat.zero_le n, List.filter_eq_nil_iff.mpr fun v hv => Bool.not_eq_true _ ▸ ht v hv,
    fun h => absurd rfl h⟩

theorem booksWithin_of_nil {t : Stretch} (ht : t.heirs = []) (most : Int) (n : Nat) :
    BooksWithin id most n t :=
  booksWithin_of_forall (fun _ hv => absurd (ht ▸ hv) List.not_mem_nil) most n

/-- Who books nothing for a delivery has no heirs that retry it. -/
theorem BooksWithin.forall {most : Int} {t : Stretch} (h : BooksWithin id most 0 t) :
    ∀ v ∈ t.heirs, v.retries id = false := by
  obtain ⟨k, hk, hfilter, -⟩ := h
  obtain rfl : k = 0 := Nat.le_zero.mp hk
  exact fun v hv => Bool.not_eq_true _ ▸ List.filter_eq_nil_iff.mp hfilter v hv

/-- A wave that ends books a retry at most for each time that it carried the delivery. -/
theorem booksWithin_of_heirs {t : Stretch} {x : List Work} {now : Moment} {es : List String}
    (hx : x = [] ∨ ∃ r p, x = [.escalate r p none])
    (ht : t.heirs = (c.retryAppointments now es).1.map (·.body) ++ x)
    (hnext : ∃ o, t.next = .finish o) : BooksWithin id c.setup.maxRetries (es.count id) t := by
  obtain ⟨k, hk, hfilter⟩ := filter_retries_appointments c now es id
  refine ⟨k, hk, ?_, fun _ => hnext⟩
  have hnone : x.filter (·.retries id) = [] := by
    rcases hx with rfl | ⟨r, p, rfl⟩
    · rfl
    · rfl
  rw [ht, List.filter_append, hfilter, hnone, List.append_nil]

theorem booksWithin_endEscalation (c : ControlRoom) (now : Moment) (r : AlertRef) (p : Policy)
    (booked : Bool) (es : List String) : BooksWithin id c.setup.maxRetries (es.count id)
      (c.endEscalation now r p booked es) := by
  have hnext : ∃ o, (c.followUp now r p es).next = .finish o := by
    unfold followUp
    dsimp only
    split
    · exact ⟨_, rfl⟩
    · split
      · exact ⟨_, rfl⟩
      · exact ⟨_, rfl⟩
  unfold endEscalation
  split
  · obtain ⟨x, hx, ht⟩ := heirs_followUp c now r p es
    exact booksWithin_of_heirs (hx.imp_right fun h => ⟨r, p, h⟩) ht hnext
  · exact booksWithin_of_nil (heirs_done c es) _ _

/-- A notification that has its deliveries ends. -/
theorem next_endNotification (c : ControlRoom) (now : Moment) (r : AlertRef) (es : List String)
    (sequel : Sequel) : ∃ o, (c.endNotification now r es sequel).next = .finish o := by
  unfold endNotification
  split
  · exact ⟨_, rfl⟩
  · dsimp only
    split
    · exact ⟨_, rfl⟩
    · exact ⟨_, rfl⟩
    · split
      · exact ⟨_, rfl⟩
      · exact ⟨_, rfl⟩

theorem booksWithin_endNotification (c : ControlRoom) (now : Moment) (r : AlertRef)
    (es : List String) (sequel : Sequel) : BooksWithin id c.setup.maxRetries (es.count id)
      (c.endNotification now r es sequel) := by
  rcases heirs_endNotification c now r es sequel with h | ⟨policy, x, -, hx, ht⟩
  · exact booksWithin_of_nil h _ _
  · exact booksWithin_of_heirs (hx.imp_right fun ⟨p, _, h⟩ => ⟨r, p, h⟩) ht
      (next_endNotification c now r es sequel)

/-- The deliveries of a notification have not begun yet. -/
theorem retries_beginNotification (c : ControlRoom) (now : Moment) (r : AlertRef) (q : Routing)
    (sequel : Sequel) : ∀ v ∈ (c.beginNotification now r q sequel).heirs, v.retries id = false := by
  unfold beginNotification
  split
  · exact fun v hv => absurd hv List.not_mem_nil
  · split
    · rw [heirs_stopNotification]
      exact fun v hv => absurd hv List.not_mem_nil
    · exact (booksWithin_endNotification _ now r [] sequel).forall
    · refine List.forall_mem_cons.mpr ⟨rfl, fun v hv => ?_⟩
      obtain ⟨x, -, rfl⟩ := List.mem_map.mp hv
      rfl

theorem retries_beginEscalation (c : ControlRoom) (now : Moment) (r : AlertRef) (p : Policy)
    (level : Option Int) :
    ∀ v ∈ (c.beginEscalation now r p level).heirs, v.retries id = false := by
  unfold beginEscalation
  split
  · exact fun v hv => absurd hv List.not_mem_nil
  · split
    · exact (booksWithin_endEscalation c now r p level.isNone []).forall
    · split
      · exact fun v hv => absurd hv List.not_mem_nil
      · split
        · exact (booksWithin_endEscalation c now r p level.isNone []).forall
        · split
          · exact (booksWithin_endEscalation _ now r p level.isNone []).forall
          · refine List.forall_mem_cons.mpr ⟨rfl, fun v hv => ?_⟩
            obtain ⟨x, -, rfl⟩ := List.mem_map.mp hv
            rfl

/-- A wave of deliveries books retries when it ends, of those that it carried. -/
theorem booksWithin_takeIn (c : ControlRoom) (now : Moment) (r : AlertRef) (left : Nat)
    (es : List String) (sequel : Sequel) (os : List (Outcome Yield)) :
    BooksWithin id c.setup.maxRetries ((es ++ (arrivals os).1).count id)
      (c.takeIn now r left es sequel os) := by
  unfold takeIn
  split
  · exact booksWithin_of_nil (heirs_stopNotification c _ sequel) _ _
  · rename_i ids hids
    rw [hids]
    dsimp only
    split
    · exact booksWithin_endNotification _ now r _ sequel
    · refine booksWithin_of_forall ?_ _ _
      exact List.forall_mem_cons.mpr ⟨rfl, fun v hv => absurd hv List.not_mem_nil⟩

/-- Retries of other deliveries. -/
theorem retries_endRetry (c : ControlRoom) (now : Moment) {tried asked : List String} (most : Int)
    (again : Bool) (hid : id ∉ asked) :
    ∀ v ∈ (c.endRetry now tried asked most again).heirs, v.retries id = false := by
  rw [heirs_endRetry]
  split
  · obtain ⟨k, hk, hfilter⟩ := filter_retries_appointments (c.buryLost most tried) now asked id
    rw [List.count_eq_zero.mpr hid] at hk
    obtain rfl : k = 0 := Nat.le_zero.mp hk
    exact fun v hv => Bool.not_eq_true _ ▸ List.filter_eq_nil_iff.mp hfilter v hv
  · exact fun v hv => absurd hv List.not_mem_nil

theorem retries_beginRetry (c : ControlRoom) (now : Moment) {es : List String} (most : Int)
    (again : Bool) (hid : id ∉ es) :
    ∀ v ∈ (c.beginRetry now es most again).heirs, v.retries id = false := by
  rcases beginRetry_cases c now es most again with ⟨f, -, h⟩ | ⟨-, h⟩ | ⟨tried, -, htried, h⟩
  · rw [h]
    exact fun v hv => absurd hv List.not_mem_nil
  · rw [h]
    exact retries_endRetry c now most again hid
  · rw [h, heirs_tryAgain]
    refine List.forall_mem_cons.mpr ⟨?_, fun v hv => ?_⟩
    · exact decide_eq_false fun h => hid ((of_eligible htried).1.subset h)
    · obtain ⟨x, -, rfl⟩ := List.mem_map.mp hv
      rfl

/-- Passes retry nothing. -/
theorem retries_pass (now : Instant) (c : ControlRoom) {w : Work} (hw : w.IsManaged)
    (hpass : w.IsOfPass) (wake : Wake Yield) :
    ∀ v ∈ (program now c w wake).heirs, v.retries id = false := by
  obtain ⟨n, hn⟩ := program_of_isOfPass now c hpass wake
  have hleads := (shaped_program now c hw wake).next
  rw [hn] at hleads ⊢
  intro v hv
  rcases List.mem_append.mp hv with hv | hv
  · rcases hleads.of_isOfPass hpass with ⟨o, rfl⟩ | ⟨cs, b, rfl, hb, -⟩
    · exact absurd hv List.not_mem_nil
    · obtain rfl := List.mem_singleton.mp hv
      rcases Work.isOfPass_iff.mp hb with ⟨s, rfl⟩ | ⟨known, rfl⟩ | ⟨found, rfl⟩
      · rfl
      · rfl
      · rfl
  · exact hleads.retries_children v hv

/-- **Who books retries of a delivery**: only a wave that carried it. -/
theorem booksWithin_program (now : Instant) (c : ControlRoom) {w : Work} (hw : w.IsManaged)
    (hretries : w.retries id = false) (wake : Wake Yield) :
    BooksWithin id c.setup.maxRetries ((w.carried wake).count id) (program now c w wake) := by
  have hnil : ∀ {t : Stretch}, t.heirs = [] →
      BooksWithin id c.setup.maxRetries ((w.carried wake).count id) t :=
    fun ht => booksWithin_of_nil ht _ _
  by_cases hother : ∃ e, w.tries e = true
  · obtain ⟨e, he⟩ := hother
    exact booksWithin_of_forall (tried_program now c he wake).retries_heirs _ _
  by_cases hpass : w.IsOfPass
  · exact booksWithin_of_forall (retries_pass now c hw hpass wake) _ _
  have hself : ∀ x : String, decide (x = x) = true := fun x => decide_eq_true rfl
  unfold program
  split
  · unfold goOnWith
    split
    · exact hnil (heirs_stopWork c _ hw)
    · exact hw.elim
    · exact hw.elim
    · exact absurd (isOfPass_of_isManaged hw (.inl ⟨_, rfl⟩)).2 hpass
    · exact absurd (isOfPass_of_isManaged hw (.inr (.inl ⟨_, rfl⟩))).2 hpass
    · exact absurd (isOfPass_of_isManaged hw (.inr (.inr ⟨_, rfl⟩))).2 hpass
    · exact hnil rfl
    · unfold beginAnnouncement
      split
      · exact hnil rfl
      · exact booksWithin_of_forall (retries_beginNotification c _ _ _ _) _ _
    · exact hw.elim
    · exact booksWithin_takeIn c _ _ _ _ _ _
    · obtain ⟨d, -, -, -, -, htried⟩ := tried_beginDelivery c _ _ _
      exact booksWithin_of_forall htried.retries_heirs _ _
    · exact absurd ⟨_, hself _⟩ hother
    · exact absurd ⟨_, hself _⟩ hother
    · exact absurd ⟨_, hself _⟩ hother
    · exact absurd ⟨_, hself _⟩ hother
    · exact absurd ⟨_, hself _⟩ hother
    · exact hw.elim
    · exact hw.elim
    · exact booksWithin_of_forall
        (retries_beginRetry c _ _ _ (of_decide_eq_false hretries)) _ _
    · exact booksWithin_of_forall
        (retries_endRetry c _ _ _ (of_decide_eq_false hretries)) _ _
    · exact booksWithin_of_forall (retries_beginEscalation c _ _ _ _) _ _
    · exact booksWithin_endEscalation _ _ _ _ _ _
    · exact hnil rfl
  · exact hnil (heirs_stopWork c _ hw)

/-! ## The heirs of a retry -/

/-- A retry that ends books the next one at most, and only if one is left. -/
theorem heirs_endRetry_self (c : ControlRoom) (now : Moment) (tried : List String) (most : Int)
    (id : String) : (c.endRetry now tried [id] most true).heirs = [] ∨
      (c.endRetry now tried [id] most true).heirs = [.retry [id] c.setup.maxRetries true] ∧
        ∃ e, c.journal.get? id = some e ∧ e.isRetriable c.setup.maxRetries = true := by
  obtain ⟨xs, hxs, hretriable, hbodies⟩ :=
    map_body_retryAppointments (c.buryLost most tried) now [id]
  rw [heirs_endRetry, if_pos rfl, hbodies]
  rcases List.sublist_singleton.mp hxs with rfl | rfl
  · exact .inl rfl
  · exact .inr ⟨rfl, hretriable id (List.mem_singleton_self id)⟩

/-- A retry of a delivery alone: it ends with the books as they were, or it tries the delivery
again. -/
theorem beginRetry_self (c : ControlRoom) (now : Moment) (most : Int) (id : String) :
    (∀ tried, c.eligible now most [id] = .ok tried → id ∉ tried) ∧
        SameBooks c (c.beginRetry now [id] most true).state ∧
        ((c.beginRetry now [id] most true).heirs = [] ∨
          (c.beginRetry now [id] most true).heirs = [.retry [id] c.setup.maxRetries true]) ∨
      c.eligible now most [id] = .ok [id] ∧ c.beginRetry now [id] most true
        = (c.beginTries now [id]).goOn (.gather [.attempt id] (.retrying [id] most true)) := by
  rcases beginRetry_cases c now [id] most true with ⟨f, hf, h⟩ | ⟨hnil, h⟩ | ⟨tried, hne, htried, h⟩
  · refine .inl ⟨(fun tried ht => nomatch hf.symm.trans ht), ?_, ?_⟩
    · rw [h]
      exact .rfl
    · rw [h]
      exact .inl rfl
  · refine .inl ⟨fun tried ht => ?_, ?_, ?_⟩
    · rw [← Except.ok.inj (hnil.symm.trans ht)]
      exact List.not_mem_nil
    · rw [h, endRetry_state]
      exact ⟨rfl, rfl, List.append_nil _⟩
    · rw [h]
      exact (heirs_endRetry_self c now [] most id).imp_right And.left
  · obtain rfl := (List.sublist_singleton.mp (of_eligible htried).1).resolve_left hne
    exact .inr ⟨htried, h⟩

end ControlRoom

end BuildingAlerts
