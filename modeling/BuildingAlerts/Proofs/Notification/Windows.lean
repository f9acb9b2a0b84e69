/-
How many admissions any stretch of time holds.

A limiter looks at the hour and the day before each call, and forgets what is a day old. A ledger
keeps all that was ever admitted beside it. Every admission found fewer than the limit in the
stretch before it, and the last admission of any window has the others of that window in the
stretch before it: no window holds more than the limit, wherever it begins.
-/
import BuildingAlerts.Proofs.Notification.Limiting
import BuildingAlerts.Proofs.Table

set_option autoImplicit false

namespace BuildingAlerts.Limiter

/-! ## Calls and ledgers -/

/-- What a limiter is asked with. -/
structure Call where
  limits : FrequencyLimits
  rule : RuleKey
  recipients : List String
  now : Moment

/-- The keys that a call is counted against: one for each recipient, or that of the
configuration. -/
def Call.keys (c : Call) : List CounterKey :=
  match c.limits.scope with
  | .recipient => c.recipients.map fun r => ⟨.recipient, r⟩
  | .configuration => [⟨.configuration, c.rule.configurationId⟩]

/-- What a limiter does when it is asked. -/
def Call.on (c : Call) (l : Limiter) : Except Fault (List String) × Limiter :=
  StateT.run (allow c.limits c.rule c.recipients c.now) l

/-- Counts keys one after the other, up to the first that fails. The answer holds those for
which an admission was recorded. -/
def recordAll (limits : FrequencyLimits) (now : Moment) :
    List CounterKey → Limiter → List CounterKey × Limiter
  | [], l => ([], l)
  | key :: keys, l =>
    match StateT.run (record limits now key) l with
    | (.error _, l) => ([], l)
    | (.ok admitted, l) =>
      let (rest, l) := recordAll limits now keys l
      (if admitted then key :: rest else rest, l)

/-- The keys for which a call records an admission. A call in a cooldown records none. -/
def Call.recorded (c : Call) (l : Limiter) : List CounterKey :=
  match isCooling c.limits c.now (l.lastSimilar c.rule) with
  | .ok false => (recordAll c.limits c.now c.keys l).1
  | _ => []

/-- A limiter and all admissions that were ever recorded for each key, the latest first. -/
structure Ledger where
  limiter : Limiter
  recorded : CounterKey → List Moment

namespace Ledger

/-- Nothing was asked yet. -/
def fresh : Ledger := ⟨.fresh, fun _ => []⟩

/-- The ledger after one more call. -/
def after (g : Ledger) (c : Call) : Ledger where
  limiter := (c.on g.limiter).2
  recorded key := List.replicate ((c.recorded g.limiter).count key) c.now ++ g.recorded key

/-- The ledger of some calls, one after the other. -/
def of (cs : List Call) : Ledger :=
  cs.foldl after fresh

end Ledger

/-! ## What a call writes down -/

variable {α β : Type} {known : Bool} {now : Moment} {l : Limiter} {limits : FrequencyLimits}
  {key : CounterKey}

theorem run_bind_of_error {x : Limiting α} {f : α → Limiting β} {l l' : Limiter} {e : Fault}
    (h : StateT.run x l = (.error e, l')) :
    StateT.run (x >>= f : Limiting β) l = (.error e, l') := by
  simp only [bind, ExceptT.bind, ExceptT.mk, StateT.bind, StateT.run] at h ⊢
  rw [h]
  rfl

/-- A step that counts nothing leaves the admissions as the step before it left them. -/
theorem sent_run_bind {x : Limiting α} {f : α → Limiting β}
    (hf : ∀ a l, (StateT.run (f a) l).2.sent = l.sent) (l : Limiter) :
    (StateT.run (x >>= f : Limiting β) l).2.sent = (StateT.run x l).2.sent := by
  rcases hx : StateT.run x l with ⟨e | a, l'⟩
  · rw [run_bind_of_error hx]
  · rw [run_bind_of_ok hx]
    exact hf a l'

/-- A filter over recipients counts their keys one after the other. -/
theorem sent_filterM (limits : FrequencyLimits) (now : Moment) (rs : List String) (l : Limiter) :
    (StateT.run (rs.filterM fun r => record limits now ⟨.recipient, r⟩ :
        Limiting (List String)) l).2.sent
      = (recordAll limits now (rs.map fun r => ⟨.recipient, r⟩) l).2.sent := by
  have haux : ∀ (rs acc : List String) (l : Limiter),
      (StateT.run (rs.filterAuxM (fun r => record limits now ⟨.recipient, r⟩) acc :
          Limiting (List String)) l).2.sent
        = (recordAll limits now (rs.map fun r => ⟨.recipient, r⟩) l).2.sent := by
    intro rs
    induction rs with
    | nil => exact fun _ _ => rfl
    | cons r rs ih =>
        intro acc l
        unfold List.filterAuxM
        rw [List.map_cons, recordAll]
        rcases hr : StateT.run (record limits now ⟨.recipient, r⟩) l with ⟨e | b, l'⟩
        · rw [run_bind_of_error hr]
        · rw [run_bind_of_ok hr]
          exact ih _ l'
  refine (sent_run_bind (f := fun r => pure r.reverse) (fun _ _ => rfl) l).trans (haux rs [] l)

/-- **What a call leaves of the admissions** is what counting its keys leaves of them. -/
theorem sent_on (c : Call) (l : Limiter) :
    (c.on l).2.sent = match isCooling c.limits c.now (l.lastSimilar c.rule) with
      | .ok false => (recordAll c.limits c.now c.keys l).2.sent
      | _ => l.sent := by
  have hnote : ∀ (admitted : List String) (l : Limiter), (StateT.run (do
      if !admitted.isEmpty then
        modify fun l => { l with lastSimilar := assign l.lastSimilar c.rule (some c.now) }
      return admitted : Limiting (List String)) l).2.sent = l.sent := by
    intro admitted l
    cases admitted with
    | nil => rfl
    | cons r rs => rfl
  unfold Call.on allow
  rw [run_bind_of_ok (x := get) (a := l) rfl]
  cases isCooling c.limits c.now (l.lastSimilar c.rule) with
  | error e => rfl
  | ok cooling =>
      cases cooling with
      | true => rfl
      | false =>
          unfold Call.keys
          cases c.limits.scope with
          | recipient =>
              exact (sent_run_bind (x := c.recipients.filterM fun r =>
                record c.limits c.now ⟨.recipient, r⟩) hnote l).trans (sent_filterM _ _ _ l)
          | configuration =>
              refine (sent_run_bind (x := record c.limits c.now ⟨.configuration,
                c.rule.configurationId⟩) (fun b l => ?_) l).trans ?_
              · cases b with
                | true => exact hnote c.recipients l
                | false => exact hnote [] l
              · dsimp only
                rw [recordAll]
                rcases StateT.run (record c.limits c.now ⟨.configuration,
                  c.rule.configurationId⟩) l with ⟨e | b, l'⟩
                · rfl
                · rfl

/-! ## Admissions that leave room -/

/-- How many of some moments lie in the window that ends at an instant. -/
def inWindow (window : Span) (t : Int) (ms : List Moment) : Nat :=
  ms.countP fun m => t - window.micros < m.instant ∧ m.instant ≤ t

/-- Each of some admissions, the latest first, found fewer than the limit of the earlier ones in
the window before it. -/
def Sparse (limit : Int) (window : Span) : List Moment → Prop
  | [] => True
  | m :: earlier =>
    (earlier.countP (fun x => m.instant - window.micros < x.instant) : Int) < limit ∧
      Sparse limit window earlier

/-- The last admission in a window found all others of the window before it, so there are not
more than the limit. -/
theorem Sparse.window_le {limit : Int} {window : Span} {ms : List Moment}
    (h : Sparse limit window ms) (t : Int) : (inWindow window t ms : Int) ≤ max 0 limit := by
  induction ms with
  | nil => exact le_max_left _ _
  | cons m earlier ih =>
      obtain ⟨hroom, hearlier⟩ := h
      unfold inWindow
      rw [List.countP_cons]
      by_cases hm : t - window.micros < m.instant ∧ m.instant ≤ t
      · have hle : inWindow window t earlier
            ≤ earlier.countP fun x => m.instant - window.micros < x.instant := by
          refine List.countP_mono_left fun x _ hx => ?_
          simp only [decide_eq_true_eq] at hx ⊢
          omega
        rw [if_pos (decide_eq_true hm)]
        unfold inWindow at hle
        omega
      · rw [if_neg (by simpa using hm)]
        exact ih hearlier

/-- Counting back from a moment on the same clock. -/
theorem countIn_eq (hnow : now.offset.isSome = known) {ms : List Moment}
    (hms : ∀ m ∈ ms, m.offset.isSome = known) (window : Span) :
    countIn ms now window
      = .ok (ms.countP fun x => now.instant - window.micros < x.instant) := by
  obtain ⟨n, hn⟩ := countIn_eq_ok hnow hms window
  obtain ⟨recent, hrecent, hlength⟩ := bind_eq_ok_iff.mp hn
  obtain ⟨-, rfl⟩ := filterM_eq_ok hrecent
  rw [hn, ← Except.ok.inj hlength, ← List.countP_eq_length_filter]
  refine congrArg Except.ok (List.countP_congr fun m hm => ?_)
  unfold isWithin
  rw [Moment.since?_of_isSome_eq (hnow.trans (hms m hm).symm)]
  show (some (decide (now.instant - m.instant < window.micros)) == some true) = true ↔ _
  simp only [beq_iff_eq, Option.some_inj, decide_eq_true_eq]
  omega

/-! ## What a limiter remembers -/

variable {hourly daily time : Int} {recorded : List Moment}

/-- What was recorded for a key up to a time is what the limiter remembers and what it forgot
for being a day old, and each admission left room for it. -/
structure Accounts (known : Bool) (key : CounterKey) (hourly daily time : Int)
    (recorded : List Moment) (l : Limiter) : Prop where
  clock : OnOneClock known l
  remembered : ∃ forgotten, recorded = (l.sent key).reverse ++ forgotten ∧
    ∀ m ∈ forgotten, m.instant + day.micros ≤ time
  perHour : Sparse hourly hour recorded
  perDay : Sparse daily day recorded

theorem accounts_fresh (known : Bool) (key : CounterKey) (hourly daily time : Int) :
    Accounts known key hourly daily time [] fresh where
  clock := onOneClock_fresh known
  remembered := ⟨[], rfl, fun _ h => absurd h List.not_mem_nil⟩
  perHour := trivial
  perDay := trivial

theorem Accounts.later (hl : Accounts known key hourly daily time recorded l) {time' : Int}
    (h : time ≤ time') : Accounts known key hourly daily time' recorded l := by
  obtain ⟨forgotten, hrecorded, hold⟩ := hl.remembered
  exact ⟨hl.clock, ⟨forgotten, hrecorded, fun m hm => (hold m hm).trans h⟩, hl.perHour, hl.perDay⟩

/-- What is dropped from the front is a day old. -/
theorem exists_prune (now : Moment) (ms : List Moment) :
    ∃ old, ms = old ++ prune now ms ∧ ∀ m ∈ old, m.instant + day.micros ≤ now.instant := by
  induction ms with
  | nil => exact ⟨[], rfl, fun _ h => absurd h List.not_mem_nil⟩
  | cons m ms ih =>
      unfold prune at ih ⊢
      rw [List.dropWhile_cons]
      split
      · rename_i hm
        obtain ⟨old, hms, hold⟩ := ih
        refine ⟨m :: old, congrArg (m :: ·) hms, fun x hx => ?_⟩
        rcases List.mem_cons.mp hx with rfl | hx
        · cases hs : now.since? x with
          | none =>
              rw [hs] at hm
              exact absurd hm Bool.false_ne_true
          | some s =>
              rw [hs] at hm
              have hday : day.micros ≤ s.micros := of_decide_eq_true hm
              have hmicros := (Moment.since?_eq_some_iff.mp hs).2
              omega
        · exact hold x hx
      · exact ⟨[], rfl, fun _ h => absurd h List.not_mem_nil⟩

theorem Accounts.prune (hl : Accounts known key hourly daily now.instant recorded l)
    (k : CounterKey) : Accounts known key hourly daily now.instant recorded
      { l with sent := assign l.sent k (prune now (l.sent k)) } := by
  refine ⟨hl.clock.assign k fun m hm => hl.clock.sent k m ((List.dropWhile_sublist _).mem hm), ?_,
    hl.perHour, hl.perDay⟩
  obtain ⟨forgotten, hrecorded, hold⟩ := hl.remembered
  dsimp only
  by_cases hk : key = k
  · subst hk
    obtain ⟨old, hsent, hday⟩ := exists_prune now (l.sent key)
    refine ⟨old.reverse ++ forgotten, ?_, fun m hm => ?_⟩
    · rw [assign_self, ← List.append_assoc, ← List.reverse_append, ← hsent]
      exact hrecorded
    · rcases List.mem_append.mp hm with hm | hm
      · exact hday m (List.mem_reverse.mp hm)
      · exact hold m hm
  · rw [assign_of_ne hk]
    exact ⟨forgotten, hrecorded, hold⟩

/-- Within a day, what the limiter remembers counts as much as all that was recorded. -/
theorem Accounts.countIn_eq (hl : Accounts known key hourly daily now.instant recorded l)
    (hnow : now.offset.isSome = known) {window : Span} (hw : window.micros ≤ day.micros) :
    countIn (l.sent key) now window
      = .ok (recorded.countP fun x => now.instant - window.micros < x.instant) := by
  obtain ⟨forgotten, rfl, hold⟩ := hl.remembered
  have hnone : forgotten.countP (fun x => now.instant - window.micros < x.instant) = 0 := by
    refine List.countP_eq_zero.mpr fun m hm hlt => ?_
    have hday := hold m hm
    have hlt := of_decide_eq_true hlt
    omega
  rw [Limiter.countIn_eq hnow (hl.clock.sent key), List.countP_append, List.countP_reverse, hnone,
    Nat.add_zero]

/-- Where no limit is used up, there is room for one more in the hour and in the day. -/
theorem room_of_isFull {ms : List Moment} (h : isFull limits now ms = .ok false) :
    ∃ inHour inDay, countIn ms now Limiter.hour = .ok inHour ∧ (inHour : Int) < limits.hourly ∧
      countIn ms now Limiter.day = .ok inDay ∧ (inDay : Int) < limits.daily := by
  obtain ⟨inHour, hhour, h⟩ := bind_eq_ok_iff.mp h
  split at h
  · exact absurd (Except.ok.inj h) Bool.true_eq_false_eq_False
  · rename_i hroom
    obtain ⟨inDay, hday, h⟩ := bind_eq_ok_iff.mp h
    have hfull := of_decide_eq_false (Except.ok.inj h)
    exact ⟨inHour, inDay, hhour, by omega, hday, by omega⟩

/-- What is written down for another key changes nothing. -/
theorem Accounts.elsewhere (hl : Accounts known key hourly daily time recorded l)
    {k : CounterKey} (hk : key ≠ k) {ms : List Moment}
    (hms : ∀ m ∈ ms, m.offset.isSome = known) :
    Accounts known key hourly daily time recorded { l with sent := assign l.sent k ms } := by
  refine ⟨hl.clock.assign k hms, ?_, hl.perHour, hl.perDay⟩
  dsimp only
  rw [assign_of_ne hk]
  exact hl.remembered

/-- An admission that is written down for the key has left room. -/
theorem Accounts.admit (hl : Accounts known key hourly daily now.instant recorded l)
    (hnow : now.offset.isSome = known) (hhourly : limits.hourly = hourly)
    (hdaily : limits.daily = daily) (hroom : isFull limits now (l.sent key) = .ok false) :
    Accounts known key hourly daily now.instant (now :: recorded)
      { l with sent := assign l.sent key (l.sent key ++ [now]) } := by
  obtain ⟨inHour, inDay, hhour, hfewer, hday, hfewer'⟩ := room_of_isFull hroom
  rw [hl.countIn_eq hnow (by decide)] at hhour hday
  obtain rfl := Except.ok.inj hhour
  obtain rfl := Except.ok.inj hday
  refine ⟨hl.clock.assign key fun m hm => ?_, ?_, ⟨by rwa [← hhourly], hl.perHour⟩,
    ⟨by rwa [← hdaily], hl.perDay⟩⟩
  · rcases List.mem_append.mp hm with hm | hm
    · exact hl.clock.sent key m hm
    · obtain rfl := List.mem_singleton.mp hm
      exact hnow
  · obtain ⟨forgotten, hrecorded, hold⟩ := hl.remembered
    refine ⟨forgotten, ?_, hold⟩
    dsimp only
    rw [assign_self, List.reverse_append, hrecorded]
    rfl

/-- Counting a key does not fail, and what it admits has left room. -/
theorem Accounts.record (hl : Accounts known key hourly daily now.instant recorded l)
    (hnow : now.offset.isSome = known) {k : CounterKey}
    (hlimits : k = key → limits.hourly = hourly ∧ limits.daily = daily) :
    ∃ b l', StateT.run (record limits now k) l = (.ok b, l') ∧
      Accounts known key hourly daily now.instant
        (if b = true ∧ k = key then now :: recorded else recorded) l' := by
  have hpruned := hl.prune k
  rw [run_record]
  dsimp only
  obtain ⟨full, hfull⟩ := isFull_eq_ok limits hnow (hpruned.clock.sent k)
  dsimp only at hfull
  rw [hfull]
  cases full with
  | true =>
      refine ⟨false, _, rfl, ?_⟩
      rw [if_neg fun h => Bool.false_ne_true h.1]
      exact hpruned
  | false =>
      refine ⟨true, _, rfl, ?_⟩
      by_cases hk : k = key
      · subst hk
        rw [if_pos ⟨rfl, rfl⟩]
        exact hpruned.admit hnow (hlimits rfl).1 (hlimits rfl).2 hfull
      · rw [if_neg fun h => hk h.2]
        refine hpruned.elsewhere (fun h => hk h.symm) fun m hm => ?_
        rcases List.mem_append.mp hm with hm | hm
        · exact hpruned.clock.sent k m hm
        · obtain rfl := List.mem_singleton.mp hm
          exact hnow

/-- Counting keys one after the other keeps the accounts of each. -/
theorem Accounts.recordAll (hnow : now.offset.isSome = known) {keys : List CounterKey}
    (hl : Accounts known key hourly daily now.instant recorded l)
    (hlimits : key ∈ keys → limits.hourly = hourly ∧ limits.daily = daily) :
    Accounts known key hourly daily now.instant
      (List.replicate ((recordAll limits now keys l).1.count key) now ++ recorded)
      (recordAll limits now keys l).2 := by
  induction keys generalizing l recorded with
  | nil => exact hl
  | cons k keys ih =>
      have hhead : k = key → limits.hourly = hourly ∧ limits.daily = daily := fun hk =>
        hlimits (hk ▸ List.mem_cons_self)
      obtain ⟨b, l', hrun, hl'⟩ := hl.record hnow hhead
      have hrest := ih hl' fun hk => hlimits (List.mem_cons_of_mem _ hk)
      unfold Limiter.recordAll
      rw [hrun]
      dsimp only
      cases b with
      | false =>
          rw [if_neg fun h => Bool.false_ne_true h.1] at hrest
          exact hrest
      | true =>
          rw [if_pos rfl, List.count_cons]
          by_cases hk : k = key
          · rw [if_pos ⟨rfl, hk⟩] at hrest
            rw [if_pos (beq_iff_eq.mpr hk), List.replicate_succ', List.append_assoc]
            exact hrest
          · rw [if_neg fun h => hk h.2] at hrest
            rw [if_neg fun h => hk (beq_iff_eq.mp h)]
            exact hrest

/-- A call keeps the accounts of each key. -/
theorem Accounts.on {c : Call} (hl : Accounts known key hourly daily c.now.instant recorded l)
    (hnow : c.now.offset.isSome = known)
    (hlimits : key ∈ c.keys → c.limits.hourly = hourly ∧ c.limits.daily = daily) :
    Accounts known key hourly daily c.now.instant
      (List.replicate ((c.recorded l).count key) c.now ++ recorded) (c.on l).2 := by
  obtain ⟨result, l', hrun, hclock, -⟩ :=
    run_allow c.limits c.rule c.recipients hnow hl.clock
  have hstate : (c.on l).2 = l' := congrArg (·.2) hrun
  have hsent := sent_on c l
  rw [hstate] at hsent ⊢
  have hcounted := hl.recordAll hnow hlimits
  unfold Call.recorded
  split at hsent
  · exact ⟨hclock, hsent ▸ hcounted.remembered, hcounted.perHour, hcounted.perDay⟩
  · exact ⟨hclock, hsent ▸ hl.remembered, hl.perHour, hl.perDay⟩

/-! ## Every window -/

/-- Calls that are asked one after the other on one clock keep the accounts of each key. -/
theorem Accounts.of_calls {cs : List Call} (hcs : cs.Pairwise fun c d => c.now.le? d.now = some true)
    (hknown : ∀ c ∈ cs, c.now.offset.isSome = known) (htime : ∀ c ∈ cs, time ≤ c.now.instant)
    (hsame : ∀ c ∈ cs, key ∈ c.keys → c.limits.hourly = hourly ∧ c.limits.daily = daily)
    {g : Ledger} (hg : Accounts known key hourly daily time (g.recorded key) g.limiter) :
    Sparse hourly Limiter.hour ((cs.foldl Ledger.after g).recorded key) ∧
      Sparse daily Limiter.day ((cs.foldl Ledger.after g).recorded key) := by
  induction cs generalizing g time with
  | nil => exact ⟨hg.perHour, hg.perDay⟩
  | cons c cs ih =>
      obtain ⟨hc, hcs⟩ := List.pairwise_cons.mp hcs
      have hnext := (hg.later (htime c List.mem_cons_self)).on (hknown c List.mem_cons_self)
        (hsame c List.mem_cons_self)
      refine ih hcs (fun d hd => hknown d (List.mem_cons_of_mem _ hd)) (fun d hd => ?_)
        (fun d hd => hsame d (List.mem_cons_of_mem _ hd)) (g := g.after c) hnext
      obtain ⟨s, hs, hle⟩ := Option.map_eq_some_iff.mp (hc d hd)
      have hmicros := (Moment.since?_eq_some_iff.mp hs).2
      have hle := of_decide_eq_true hle
      omega

/-- **No window holds more than the limit.** Whatever a limiter is asked, one call after the
other, the admissions that it ever recorded for a key are in no hour more than the hourly limit
and in no day more than the daily one, if the key always comes with the same limits. -/
theorem Ledger.inWindow_le {cs : List Call}
    (hcs : cs.Pairwise fun c d => c.now.le? d.now = some true) {key : CounterKey}
    {hourly daily : Int}
    (hsame : ∀ c ∈ cs, key ∈ c.keys → c.limits.hourly = hourly ∧ c.limits.daily = daily)
    (t : Int) : (inWindow Limiter.hour t ((Ledger.of cs).recorded key) : Int) ≤ max 0 hourly ∧
      (inWindow Limiter.day t ((Ledger.of cs).recorded key) : Int) ≤ max 0 daily := by
  cases cs with
  | nil => exact ⟨le_max_left _ _, le_max_left _ _⟩
  | cons c cs =>
      have hfirst := (List.pairwise_cons.mp hcs).1
      have hlater : ∀ d ∈ c :: cs, d.now.offset.isSome = c.now.offset.isSome ∧
          c.now.instant ≤ d.now.instant := by
        intro d hd
        rcases List.mem_cons.mp hd with rfl | hd
        · exact ⟨rfl, le_refl _⟩
        · obtain ⟨s, hs, hle⟩ := Option.map_eq_some_iff.mp (hfirst d hd)
          obtain ⟨hoffset, hmicros⟩ := Moment.since?_eq_some_iff.mp hs
          have hle := of_decide_eq_true hle
          exact ⟨hoffset, by omega⟩
      obtain ⟨hhour, hday⟩ := Accounts.of_calls hcs (fun d hd => (hlater d hd).1)
        (fun d hd => (hlater d hd).2) hsame (g := Ledger.fresh) (accounts_fresh _ _ _ _ _)
      exact ⟨hhour.window_le t, hday.window_le t⟩

/-- A call at some minutes after the start of the calendar, once an hour at most. -/
def Call.sparing (minute : Int) : Call :=
  ⟨⟨1, 2, 0, .recipient⟩, ⟨"ward", "warm"⟩, ["keeper"], .atUtc (minute * Span.microsPerMinute)⟩

/-- Of four calls two are admitted, and the hour up to the last one holds one of them. -/
theorem Ledger.inWindow_le_keeper :
    let cs := [Call.sparing 0, Call.sparing 30, Call.sparing 60, Call.sparing 120]
    let key : CounterKey := ⟨.recipient, "keeper"⟩
    (cs.Pairwise fun c d => c.now.le? d.now = some true) ∧
      (∀ c ∈ cs, key ∈ c.keys → c.limits.hourly = 1 ∧ c.limits.daily = 2) ∧
      (Ledger.of cs).recorded key
        = [.atUtc (60 * Span.microsPerMinute), .atUtc 0] ∧
      (inWindow Limiter.hour (119 * Span.microsPerMinute) ((Ledger.of cs).recorded key) : Int) ≤ 1 ∧
      (inWindow Limiter.day (119 * Span.microsPerMinute) ((Ledger.of cs).recorded key) : Int) ≤ 2 := by
  intro cs key
  have hcs : cs.Pairwise fun c d => c.now.le? d.now = some true := by decide
  have hsame : ∀ c ∈ cs, key ∈ c.keys → c.limits.hourly = 1 ∧ c.limits.daily = 2 := by decide
  refine ⟨hcs, hsame, by decide +kernel, ?_⟩
  exact Ledger.inWindow_le hcs hsame (119 * Span.microsPerMinute)

end BuildingAlerts.Limiter
