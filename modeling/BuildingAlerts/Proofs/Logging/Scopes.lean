/-
Log scopes are left as they were found.

A program enters requests and alerts around parts of it, binds members within them, writes log lines
and may break off anywhere; what breaks off leaves every scope on its way until it is caught. As
long as no request is entered while it is entered already, a program changes nothing of what log
lines are about, whether it ends or breaks off, and each of its lines has the identifiers of the
innermost request around it. What carries the proof is that a request which was entered keeps what
it hides until it is left: nobody else touches it.
-/
import BuildingAlerts.Logging.Context

set_option autoImplicit false

namespace BuildingAlerts

/-! ## Programs -/

/-- A program that makes use of log scopes. -/
inductive LogProgram where
  /-- Writes a log line. -/
  | line
  /-- Makes a request. -/
  | make (c : LogContext)
  /-- Does its work within the request at a place. -/
  | request (place : Nat) (body : LogProgram)
  /-- Does its work within an alert. -/
  | alert (alertId : Json) (fields : List (String × Json)) (body : LogProgram)
  /-- Binds members to the innermost request. -/
  | bind (fields : List (String × Json))
  /-- Breaks off. -/
  | fail
  /-- Does one thing after the other. -/
  | andThen (p q : LogProgram)
  /-- Does the second thing if the first breaks off. -/
  | rescue (p q : LogProgram)

/-- What comes of a program: the scopes that it leaves, those in which it wrote its log lines, and
whether it broke off. -/
structure LogRun where
  scopes : LogScopes
  lines : List LogScopes
  failed : Bool

/-- What comes of a program within a scope, which is left also when the program breaks off. -/
def LogRun.left (r : LogRun) : LogRun :=
  { r with scopes := r.scopes.leave }

/-- What comes of a program with another one that goes on from there. -/
def LogRun.before (r r' : LogRun) : LogRun :=
  { r' with lines := r.lines ++ r'.lines }

namespace LogProgram

/-- Runs a program. -/
def run : LogProgram → LogScopes → LogRun
  | .line, s => ⟨s, [s], false⟩
  | .make c, s => ⟨s.make c, [], false⟩
  | .request place body, s =>
    match s.enter? place with
    | some t => (body.run t).left
    | none => ⟨s, [], true⟩
  | .alert alertId fields body, s =>
    match s.enterAlert alertId fields with
    | .ok t => (body.run t).left
    | .error _ => ⟨s, [], true⟩
  | .bind fields, s => ⟨s.bind fields, [], false⟩
  | .fail, s => ⟨s, [], true⟩
  | .andThen p q, s =>
    let r := p.run s
    if r.failed then r else r.before (q.run r.scopes)
  | .rescue p q, s =>
    let r := p.run s
    if r.failed then r.before (q.run r.scopes) else r

/-- No request of those that were entered is entered again before it is left, and members are only
bound within a scope. Whether there is one around the program already is told by `inside`. -/
def WellBracketed (entered : List Nat) (inside : Bool) : LogProgram → Prop
  | .line | .make _ | .fail => True
  | .request place body => place ∉ entered ∧ body.WellBracketed (place :: entered) true
  | .alert _ _ body => body.WellBracketed entered true
  | .bind _ => inside = true
  | .andThen p q | .rescue p q => p.WellBracketed entered inside ∧ q.WellBracketed entered inside

end LogProgram

/-- The identifiers of a request and of what caused it. -/
def LogContext.ids (c : LogContext) : Json × Json :=
  (c.requestId, c.correlationId)

/-! ## What is kept -/

namespace LogScopes

variable {s t u : LogScopes} {entered : List Nat} {place : Nat}

/-- The requests that were made are still there under their identifiers. -/
def Retains (s t : LogScopes) : Prop :=
  ∀ (place : Nat) (r : RequestScope), s.requests[place]? = some r →
    ∃ r', t.requests[place]? = some r' ∧ r'.about.ids = r.about.ids

/-- What a part of a program leaves alone: the scopes around it, all that log lines are about but
further members, and what the requests that were entered keep hidden. -/
structure Keeps (entered : List Nat) (s t : LogScopes) : Prop where
  frames : t.frames = s.frames
  ids : t.current.ids = s.current.ids
  alertId : t.current.alertId = s.current.alertId
  retains : s.Retains t
  hidden : ∀ place ∈ entered, ∀ r, s.requests[place]? = some r →
    ∃ r', t.requests[place]? = some r' ∧ r'.hidden = r.hidden

theorem Retains.refl (s : LogScopes) : s.Retains s :=
  fun _ r h => ⟨r, h, rfl⟩

theorem Retains.trans (h : s.Retains t) (k : t.Retains u) : s.Retains u := by
  intro place r hr
  obtain ⟨r', hr', hids⟩ := h place r hr
  obtain ⟨r'', hr'', hids'⟩ := k place r' hr'
  exact ⟨r'', hr'', hids'.trans hids⟩

theorem Keeps.refl (entered : List Nat) (s : LogScopes) : s.Keeps entered s :=
  ⟨rfl, rfl, rfl, .refl s, fun _ _ r h => ⟨r, h, rfl⟩⟩

theorem Keeps.trans (h : s.Keeps entered t) (k : t.Keeps entered u) : s.Keeps entered u where
  frames := k.frames.trans h.frames
  ids := k.ids.trans h.ids
  alertId := k.alertId.trans h.alertId
  retains := h.retains.trans k.retains
  hidden place hplace r hr := by
    obtain ⟨r', hr', hhidden⟩ := h.hidden place hplace r hr
    obtain ⟨r'', hr'', hhidden'⟩ := k.hidden place hplace r' hr'
    exact ⟨r'', hr'', hhidden'.trans hhidden⟩

/-! ## Single steps -/

theorem keeps_make (s : LogScopes) (c : LogContext) : s.Keeps entered (s.make c) := by
  have hthere (place : Nat) (r : RequestScope) (hr : s.requests[place]? = some r) :
      (s.make c).requests[place]? = some r :=
    (List.getElem?_append_left (List.getElem?_eq_some_iff.mp hr).1).trans hr
  exact ⟨rfl, rfl, rfl, fun place r hr => ⟨r, hthere place r hr, rfl⟩,
    fun place _ r hr => ⟨r, hthere place r hr, rfl⟩⟩

theorem keeps_bind (s : LogScopes) (fields : List (String × Json)) :
    s.Keeps entered (s.bind fields) := by
  have hthere (place : Nat) (r : RequestScope) (hr : s.requests[place]? = some r) :
      ∃ r', (s.bind fields).requests[place]? = some r' ∧ r'.about.ids = r.about.ids
        ∧ r'.hidden = r.hidden := by
    unfold bind
    dsimp only
    split
    · rename_i inner _
      rw [List.getElem?_modify, hr]
      split
      · exact ⟨r.bind fields, rfl, rfl, rfl⟩
      · exact ⟨r, rfl, rfl, rfl⟩
    · exact ⟨r, hr, rfl, rfl⟩
  refine ⟨rfl, rfl, rfl, fun place r hr => ?_, fun place _ r hr => ?_⟩
  · obtain ⟨r', hr', hids, -⟩ := hthere place r hr
    exact ⟨r', hr', hids⟩
  · obtain ⟨r', hr', -, hhidden⟩ := hthere place r hr
    exact ⟨r', hr', hhidden⟩

/-- A request that is entered is the one at its place, and it keeps what it hides. -/
theorem enter?_eq_some (h : s.enter? place = some t) :
    ∃ r, s.requests[place]? = some r ∧ t.current = r.about
      ∧ t.frames = .request place :: s.frames
      ∧ t.requests = s.requests.set place ⟨r.about, some s.current⟩ := by
  obtain ⟨r, hr, rfl⟩ := Option.map_eq_some_iff.mp h
  exact ⟨r, hr, rfl, rfl, rfl⟩

theorem retains_set {r : RequestScope} {hidden : Option LogContext}
    (hr : s.requests[place]? = some r)
    (ht : t.requests = s.requests.set place ⟨r.about, hidden⟩) : s.Retains t := by
  intro other q hq
  rw [ht, List.getElem?_set]
  split
  · -- what is put in place is the same request
    rename_i heq
    obtain rfl : r = q := Option.some.inj (hr.symm.trans (heq ▸ hq))
    rw [if_pos (List.getElem?_eq_some_iff.mp hr).1]
    exact ⟨_, rfl, rfl⟩
  · exact ⟨q, hq, rfl⟩

/-- An alert that is entered keeps the identifiers of the request around it. -/
theorem enterAlert_eq_ok {alertId : Json} {fields : List (String × Json)}
    (h : s.enterAlert alertId fields = .ok t) :
    t.requests = s.requests ∧ t.current.ids = s.current.ids
      ∧ t.frames = .alert s.current.alertId s.current.extra :: s.frames := by
  unfold enterAlert at h
  split at h
  · cases h
  · cases h
    exact ⟨rfl, rfl, rfl⟩

/-! ## Scopes that are left -/

/-- A request that is left brings back what it hid when it was entered. -/
theorem leave_request (h : s.enter? place = some t) (k : t.Keeps (place :: entered) u) :
    ∃ r, u.requests[place]? = some r
      ∧ u.leave = ⟨s.current, u.requests.set place ⟨r.about, none⟩, s.frames⟩ := by
  obtain ⟨r, hr, -, hframes, hrequests⟩ := enter?_eq_some h
  have hthere : t.requests[place]? = some ⟨r.about, some s.current⟩ := by
    rw [hrequests, List.getElem?_set_self (List.getElem?_eq_some_iff.mp hr).1]
  -- it is among the requests that were entered, so what it hides was left alone
  obtain ⟨⟨about, hidden⟩, hr', hhidden⟩ := k.hidden place List.mem_cons_self _ hthere
  obtain rfl : hidden = some s.current := hhidden
  refine ⟨_, hr', ?_⟩
  simp only [leave, k.frames.trans hframes, hr']

theorem keeps_request (h : s.enter? place = some t) (hplace : place ∉ entered)
    (k : t.Keeps (place :: entered) u) : s.Keeps entered u.leave ∧ u.leave.current = s.current := by
  obtain ⟨r, hr, -, -, hrequests⟩ := enter?_eq_some h
  obtain ⟨r', hr', hleave⟩ := leave_request h k
  rw [hleave]
  refine ⟨⟨rfl, rfl, rfl, ?_, fun other hother q hq => ?_⟩, rfl⟩
  · exact ((retains_set hr hrequests).trans k.retains).trans (retains_set hr' rfl)
  · -- the request at `place` is not among those entered before
    have hne : place ≠ other := fun heq => hplace (heq ▸ hother)
    have hq' : t.requests[other]? = some q := by
      rw [hrequests, List.getElem?_set_ne hne, hq]
    obtain ⟨q', hq', hhidden⟩ := k.hidden other (List.mem_cons_of_mem _ hother) q hq'
    exact ⟨q', by rw [List.getElem?_set_ne hne, hq'], hhidden⟩

theorem keeps_alert {alertId : Json} {fields : List (String × Json)}
    (h : s.enterAlert alertId fields = .ok t) (k : t.Keeps entered u) :
    s.Keeps entered u.leave ∧ u.leave.current = s.current := by
  obtain ⟨hrequests, hids, hframes⟩ := enterAlert_eq_ok h
  have hleave : u.leave = ⟨s.current, u.requests, s.frames⟩ := by
    -- an alert brings back all but the identifiers, which nothing within it changed
    have hback : (⟨u.current.requestId, u.current.correlationId, s.current.alertId,
        s.current.extra⟩ : LogContext) = s.current := by
      obtain ⟨hrequest, hcause⟩ := Prod.mk.inj (k.ids.trans hids)
      rw [hrequest, hcause]
    simp only [leave, k.frames.trans hframes, hback]
  rw [hleave]
  refine ⟨⟨rfl, rfl, rfl, fun place r hr => k.retains place r (hrequests ▸ hr),
    fun place hplace r hr => k.hidden place hplace r (hrequests ▸ hr)⟩, rfl⟩

/-! ## Log lines -/

/-- Scopes that were entered within others. Log lines have the identifiers of the innermost request
that was entered since, or those from before if none was. -/
structure StandsIn (s t : LogScopes) : Prop where
  retains : s.Retains t
  ids : ∃ own, t.frames = own ++ s.frames ∧
    match own.findSome? ScopeFrame.place? with
    | some place => ∃ r, t.requests[place]? = some r ∧ t.current.ids = r.about.ids
    | none => t.current.ids = s.current.ids

theorem StandsIn.refl (s : LogScopes) : s.StandsIn s :=
  ⟨.refl s, [], rfl, rfl⟩

theorem StandsIn.trans (h : s.StandsIn t) (k : t.StandsIn u) : s.StandsIn u := by
  obtain ⟨own, hown, hids⟩ := h.ids
  obtain ⟨own', hown', hids'⟩ := k.ids
  refine ⟨h.retains.trans k.retains, own' ++ own, by rw [hown', hown, List.append_assoc], ?_⟩
  rw [List.findSome?_append]
  cases hinner : own'.findSome? ScopeFrame.place? with
  | some place =>
    rw [hinner] at hids'
    exact hids'
  | none =>
    -- no request was entered within `t`, so the innermost one is that of `t`
    rw [hinner] at hids'
    rw [Option.none_or]
    split at hids
    · obtain ⟨r, hr, hids⟩ := hids
      obtain ⟨r', hr', hretained⟩ := k.retains _ r hr
      exact ⟨r', hr', (hids'.trans hids).trans hretained.symm⟩
    · exact hids'.trans hids

theorem Keeps.standsIn (h : s.Keeps entered t) : s.StandsIn t :=
  ⟨h.retains, [], h.frames, h.ids⟩

theorem standsIn_enter (h : s.enter? place = some t) : s.StandsIn t := by
  obtain ⟨r, hr, hcurrent, hframes, hrequests⟩ := enter?_eq_some h
  refine ⟨retains_set hr hrequests, [.request place], hframes, ⟨r.about, some s.current⟩, ?_,
    congrArg LogContext.ids hcurrent⟩
  rw [hrequests, List.getElem?_set_self (List.getElem?_eq_some_iff.mp hr).1]

theorem standsIn_enterAlert {alertId : Json} {fields : List (String × Json)}
    (h : s.enterAlert alertId fields = .ok t) : s.StandsIn t := by
  obtain ⟨hrequests, hids, hframes⟩ := enterAlert_eq_ok h
  exact ⟨fun place r hr => ⟨r, hrequests ▸ hr, rfl⟩, [.alert s.current.alertId s.current.extra],
    hframes, hids⟩

end LogScopes

namespace LogScopes

variable {s t : LogScopes}

/-- Log lines have the identifiers of the innermost request that was entered. -/
def IsNamed (s : LogScopes) : Prop :=
  ∀ place, s.innermost? = some place →
    ∃ r, s.requests[place]? = some r ∧ s.current.ids = r.about.ids

theorem isNamed_outside : outside.IsNamed :=
  nofun

theorem StandsIn.isNamed (h : s.StandsIn t) (hs : s.IsNamed) : t.IsNamed := by
  obtain ⟨own, hframes, hids⟩ := h.ids
  intro place hplace
  rw [innermost?, hframes, List.findSome?_append] at hplace
  cases hinner : own.findSome? ScopeFrame.place? with
  | some inner =>
    rw [hinner] at hids hplace
    obtain rfl : inner = place := Option.some.inj hplace
    exact hids
  | none =>
    rw [hinner] at hids hplace
    rw [Option.none_or] at hplace
    obtain ⟨r, hr, hs⟩ := hs place hplace
    obtain ⟨r', hr', hretained⟩ := h.retains place r hr
    exact ⟨r', hr', (hids.trans hs).trans hretained.symm⟩

end LogScopes

/-! ## Runs -/

/-- A run that started in given scopes has left them as they were. What log lines are about is only
asked to be the same throughout if members were not bound outside of all scopes of the program. -/
structure LogRun.Restores (entered : List Nat) (inside : Bool) (s : LogScopes) (r : LogRun) :
    Prop where
  keeps : s.Keeps entered r.scopes
  current : inside = false → r.scopes.current = s.current
  lines : ∀ t ∈ r.lines, s.StandsIn t

namespace LogRun

variable {entered : List Nat} {inside : Bool} {s t : LogScopes} {place : Nat}

theorem Restores.refl {failed : Bool} : Restores entered inside s ⟨s, [], failed⟩ :=
  ⟨.refl entered s, fun _ => rfl, nofun⟩

theorem Restores.before {r r' : LogRun} (h : r.Restores entered inside s)
    (k : r'.Restores entered inside r.scopes) : (r.before r').Restores entered inside s where
  keeps := h.keeps.trans k.keeps
  current hinside := (k.current hinside).trans (h.current hinside)
  lines t ht := by
    rcases List.mem_append.mp ht with ht | ht
    · exact h.lines t ht
    · exact h.keeps.standsIn.trans (k.lines t ht)

theorem Restores.of_enter {r : LogRun} (ht : s.enter? place = some t) (hplace : place ∉ entered)
    (h : r.Restores (place :: entered) true t) : r.left.Restores entered inside s where
  keeps := (LogScopes.keeps_request ht hplace h.keeps).1
  current _ := (LogScopes.keeps_request ht hplace h.keeps).2
  lines u hu := (LogScopes.standsIn_enter ht).trans (h.lines u hu)

theorem Restores.of_enterAlert {alertId : Json} {fields : List (String × Json)} {r : LogRun}
    (ht : s.enterAlert alertId fields = .ok t) (h : r.Restores entered true t) :
    r.left.Restores entered inside s where
  keeps := (LogScopes.keeps_alert ht h.keeps).1
  current _ := (LogScopes.keeps_alert ht h.keeps).2
  lines u hu := (LogScopes.standsIn_enterAlert ht).trans (h.lines u hu)

end LogRun

namespace LogProgram

variable {entered : List Nat} {inside : Bool} {p : LogProgram}

theorem run_restores (h : p.WellBracketed entered inside) (s : LogScopes) :
    (p.run s).Restores entered inside s := by
  induction p generalizing entered inside s with
  | line => exact ⟨.refl entered s, fun _ => rfl, fun t ht => List.mem_singleton.mp ht ▸ .refl s⟩
  | make c => exact ⟨s.keeps_make c, fun _ => rfl, nofun⟩
  | request place body ih =>
    simp only [run]
    split
    · rename_i t ht
      exact .of_enter ht h.1 (ih h.2 t)
    · -- what is not there is not entered
      exact .refl
  | alert alertId fields body ih =>
    simp only [run]
    split
    · rename_i t ht
      exact .of_enterAlert ht (ih h t)
    · -- an alert that is refused is not entered
      exact .refl
  | bind fields =>
    refine ⟨s.keeps_bind fields, fun hinside => ?_, nofun⟩
    exact Bool.noConfusion (h.symm.trans hinside)
  | fail => exact .refl
  | andThen p q ihp ihq =>
    simp only [run]
    split
    · exact ihp h.1 s
    · exact (ihp h.1 s).before (ihq h.2 _)
  | rescue p q ihp ihq =>
    simp only [run]
    split
    · exact (ihp h.1 s).before (ihq h.2 _)
    · exact ihp h.1 s

/-- A well-bracketed program, whether it ends or breaks off, leaves the scopes and all that log
lines are about as it found them. Only members that it binds outside of all of its scopes stay. The
requests that were entered before it still keep what they hide. Each of its log lines has the
identifiers of the innermost request that the program entered around it; without one it has those
from before, which are the identifiers of the innermost request whenever they were so before. -/
theorem WellBracketed.restores (h : p.WellBracketed entered inside) (s : LogScopes) :
    let t := (p.run s).scopes
    (t.frames = s.frames ∧ t.current.requestId = s.current.requestId
        ∧ t.current.correlationId = s.current.correlationId
        ∧ t.current.alertId = s.current.alertId
        ∧ (inside = false → t.current.extra = s.current.extra))
      ∧ (∀ place ∈ entered, ∀ r, s.requests[place]? = some r →
          ∃ r', t.requests[place]? = some r' ∧ r'.hidden = r.hidden)
      ∧ ∀ u ∈ (p.run s).lines, s.StandsIn u ∧ (s.IsNamed → u.IsNamed) := by
  have hrun := run_restores h s
  obtain ⟨hrequest, hcause⟩ := Prod.mk.inj hrun.keeps.ids
  refine ⟨⟨hrun.keeps.frames, hrequest, hcause, hrun.keeps.alertId, fun hinside => ?_⟩,
    hrun.keeps.hidden, fun u hu => ⟨hrun.lines u hu, (hrun.lines u hu).isNamed⟩⟩
  rw [hrun.current hinside]

/-- A request that breaks off within an alert, after which it is entered once more. -/
def retried : LogProgram :=
  .andThen (.make ⟨.text "r", .text "c", .text "", []⟩) <|
    .andThen (.rescue (.request 0 (.alert (.text "a") [] (.andThen
      (.bind [("attempt", .text "first")]) (.andThen .line .fail)))) .line) <|
    .request 0 (.andThen (.alert (.text "b") [] .line) .fail)

theorem retried_restores :
    (retried.WellBracketed [] false ∧ (retried.run .outside).failed = true)
      ∧ (retried.run .outside).lines.map (·.current.ids)
        = [(.text "r", .text "c"), (.text "", .text ""), (.text "r", .text "c")]
      ∧ (retried.run .outside).scopes.current.extra = []
      ∧ ∀ u ∈ (retried.run .outside).lines, u.IsNamed :=
  have h : retried.WellBracketed [] false := by simp [retried, WellBracketed]
  ⟨⟨h, rfl⟩, rfl, (h.restores .outside).1.2.2.2.2 rfl,
    fun u hu => ((h.restores .outside).2.2 u hu).2 LogScopes.isNamed_outside⟩

/-- A request that is entered while it is entered already is not left as it was found. -/
example :
    ((andThen (.make ⟨.text "r", .text "c", .text "", []⟩)
      (.request 0 (.request 0 .line))).run .outside).scopes.current.requestId = .text "r" :=
  rfl

end LogProgram

end BuildingAlerts
