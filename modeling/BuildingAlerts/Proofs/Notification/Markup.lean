/-
The markup of a notification.

What somebody wrote as the title or the description of an alert is text, and it must not be read
as markup: neither may it add a tag to the notification, nor may it draw the mark of an escalation
away from the heading. A reader of markup is given here as a machine that stands in text or in a
tag. An escaped text leaves it where it was, so the tags of a notification are those of its frame,
whatever the title and the description say.
-/
import BuildingAlerts.Notification.Rendering

set_option autoImplicit false

namespace BuildingAlerts

namespace Markup

/-! ## Reading tags -/

/-- Where a reader of markup stands: in text, in a tag of which it has read a part, or in a value
in quotes within a tag. -/
inductive Place where
  | text
  | tag (part : List Char)
  | quoted (mark : Char) (part : List Char)
deriving DecidableEq

namespace Place

/-- Where the reader stands after a character. A tag ends at the first bracket that is not in
quotes. -/
def next : Place → Char → Place
  | .text, c => if c = '<' then .tag [c] else .text
  | .tag part, c =>
    if c = '>' then .text
    else if c = '"' ∨ c = '\'' then .quoted c (part ++ [c])
    else .tag (part ++ [c])
  | .quoted mark part, c =>
    if c = mark then .tag (part ++ [c]) else .quoted mark (part ++ [c])

/-- The tag that ends with a character, if one does. -/
def ended : Place → Char → List String
  | .tag part, c => if c = '>' then [String.ofList (part ++ [c])] else []
  | _, _ => []

end Place

/-- The tags that a reader finds from a place on. -/
def tagsFrom : Place → List Char → List String
  | _, [] => []
  | p, c :: cs => p.ended c ++ tagsFrom (p.next c) cs

/-- The tags of a text, in their order, each with all that stands in it. -/
def tags (s : String) : List String :=
  tagsFrom .text s.toList

/-- A bracket in quotes does not end a tag. -/
example : tags "1 > 0 <p id=\">\">text</p>" = ["<p id=\">\">", "</p>"] := by decide

/-- A text that ends outside of tags. -/
def Whole (s : String) : Prop :=
  s.toList.foldl Place.next .text = .text

instance (s : String) : Decidable (Whole s) :=
  inferInstanceAs (Decidable (_ = _))

/-- A text without the bracket that opens a tag. -/
def Plain (s : String) : Prop :=
  '<' ∉ s.toList

instance (s : String) : Decidable (Plain s) :=
  inferInstanceAs (Decidable (_ ∉ _))

theorem tagsFrom_append (p : Place) (xs ys : List Char) :
    tagsFrom p (xs ++ ys) = tagsFrom p xs ++ tagsFrom (xs.foldl Place.next p) ys := by
  induction xs generalizing p with
  | nil => rfl
  | cons x xs ih => rw [List.cons_append, tagsFrom, tagsFrom, ih, List.append_assoc, List.foldl_cons]

theorem tags_append {s : String} (h : Whole s) (t : String) : tags (s ++ t) = tags s ++ tags t := by
  rw [tags, String.toList_append, tagsFrom_append, h]
  rfl

theorem Whole.append {s t : String} (hs : Whole s) (ht : Whole t) : Whole (s ++ t) := by
  rw [Whole, String.toList_append, List.foldl_append, hs]
  exact ht

namespace Plain

variable {s t : String}

theorem append (hs : Plain s) (ht : Plain t) : Plain (s ++ t) := by
  rw [Plain, String.toList_append, List.mem_append]
  exact not_or.mpr ⟨hs, ht⟩

theorem foldl_next {cs : List Char} (h : '<' ∉ cs) : cs.foldl Place.next .text = .text := by
  induction cs with
  | nil => rfl
  | cons c cs ih =>
      rw [List.foldl_cons, Place.next, if_neg (List.ne_of_not_mem_cons h).symm]
      exact ih (List.not_mem_of_not_mem_cons h)

theorem whole (h : Plain s) : Whole s :=
  foldl_next h

theorem tagsFrom_text {cs : List Char} (h : '<' ∉ cs) : tagsFrom .text cs = [] := by
  induction cs with
  | nil => rfl
  | cons c cs ih =>
      rw [tagsFrom, Place.next, if_neg (List.ne_of_not_mem_cons h).symm,
        ih (List.not_mem_of_not_mem_cons h)]
      rfl

theorem tags_append (h : Plain s) (t : String) : tags (s ++ t) = tags t := by
  rw [Markup.tags_append h.whole, tags, tagsFrom_text h, List.nil_append]

end Plain

/-! ## What cannot open a tag -/

theorem plain_escape (s : String) : Plain (Rendering.escape s) := by
  rw [Plain, Rendering.escape, String.toList_ofList, List.mem_flatMap]
  rintro ⟨c, -, hc⟩
  revert hc
  unfold Rendering.escapeChar
  split
  · decide
  · decide
  · decide
  · decide
  · decide
  · next hlt _ _ _ => exact fun hc => hlt (List.mem_singleton.mp hc).symm

theorem plain_severityText (a : Alert) : Plain (Rendering.severityText a) := by
  unfold Rendering.severityText
  split
  · next p _ => cases p <;> decide +kernel
  · decide +kernel

theorem plain_nat (n : Nat) : Plain (toString n) := by
  intro h
  have h : '<' ∈ n.repr.toList := h
  rw [Nat.toList_repr] at h
  exact absurd (Nat.isDigit_of_mem_toDigits (by decide) (by decide) h) (by decide)

theorem plain_level (level : Int) : Plain (toString level) := by
  cases level with
  | ofNat n => exact plain_nat n
  | negSucc n => exact Plain.append (s := "-") (by decide) (plain_nat (n + 1))

/-! ## The frame of a notification -/

section Frame

open Rendering

/-- The first line of the markup. -/
def opening : String :=
  "<div style=\"font-family: Arial, sans-serif; max-width: 600px;\">" ++ "\n"

/-- The heading that a notification of an alert has of its own. -/
def ownHeading (a : Alert) : String :=
  heading ++ severityText a ++ " Alert</h2>"

/-- The markup between the title and the description. -/
def between (a : Alert) : String :=
  "</h3>" ++ "\n" ++ ("<p><strong>Severity:</strong> " ++ severityText a ++ "</p>") ++ "\n"
    ++ ("<p><strong>Triggered:</strong> " ++ escape (triggeredText a) ++ "</p>") ++ "\n"
    ++ "<p><strong>Description:</strong> "

/-- The markup after the description. -/
def below (a : Alert) (url : String) : String :=
  "</p>" ++ "\n" ++ (if url.isEmpty then "" else
      "<p><a href=\"" ++ escape url ++ "\">View in Dashboard</a></p>" ++ "\n")
    ++ ("<p style=\"font-size: 12px;\">Alert ID: " ++ a.id ++ "</p>") ++ "\n" ++ "</div>"

/-- The markup after the heading. -/
def afterHeading (a : Alert) (url : String) : String :=
  "\n" ++ "<h3>" ++ (escape a.title ++ (between a ++ (escape a.description ++ below a url)))

theorem lines_htmlLines (a : Alert) (url : String) :
    lines (htmlLines a url) = opening ++ (ownHeading a ++ afterHeading a url) := by
  unfold lines htmlLines opening ownHeading afterHeading between below
  split <;> simp only [List.cons_append, List.nil_append, String.intercalate_cons_cons,
    String.intercalate_singleton, String.append_assoc, String.empty_append]

theorem alert_html (a : Alert) (dashboard : Option String) : (alert a dashboard).html
    = some (opening ++ (ownHeading a ++ afterHeading a (link a dashboard))) :=
  congrArg some (lines_htmlLines a (link a dashboard))

theorem whole_opening : Whole opening := by
  decide +kernel

theorem whole_ownHeading (a : Alert) : Whole (ownHeading a) :=
  (Whole.append (by decide) (plain_severityText a).whole).append (by decide)

theorem whole_between (a : Alert) : Whole (between a) := by
  have hseverity : Whole ("<p><strong>Severity:</strong> " ++ severityText a ++ "</p>") :=
    (Whole.append (by decide) (plain_severityText a).whole).append (by decide)
  have htriggered : Whole ("<p><strong>Triggered:</strong> " ++ escape (triggeredText a) ++ "</p>") :=
    (Whole.append (by decide) (plain_escape _).whole).append (by decide)
  exact ((((Whole.append (by decide) hseverity).append (by decide)).append htriggered).append
    (by decide)).append (by decide)

/-- The title and the description have no part in the tags. -/
theorem tags_afterHeading (a : Alert) (url : String) : tags (afterHeading a url)
    = tags ("\n" ++ "<h3>") ++ (tags (between a) ++ tags (below a url)) := by
  rw [afterHeading, tags_append (by decide), (plain_escape _).tags_append,
    tags_append (whole_between a), (plain_escape _).tags_append]

/-- The alert under another title and with another description. -/
def retitled (a : Alert) (title description : String) : Alert :=
  { a with title := title, description := description }

theorem tags_afterHeading_retitled (a : Alert) (title description url : String) :
    tags (afterHeading (retitled a title description) url) = tags (afterHeading a url) := by
  rw [tags_afterHeading, tags_afterHeading]
  rfl

/-! ## The mark of an escalation -/

/-- No place in a text can be taken for the beginning of a part that follows the text. -/
def Clear (part : List Char) : List Char → Prop
  | [] => True
  | c :: cs => ¬ part <+: c :: cs ∧ ¬ c :: cs <+: part ∧ Clear part cs

instance Clear.decide (part : List Char) : (front : List Char) → Decidable (Clear part front)
  | [] => .isTrue trivial
  | c :: cs =>
    have := Clear.decide part cs
    inferInstanceAs (Decidable (¬ part <+: c :: cs ∧ ¬ c :: cs <+: part ∧ Clear part cs))

theorem insertBefore_append {part front : List Char} (hpart : part ≠ []) (h : Clear part front)
    (addition rest : List Char) :
    insertBefore part addition (front ++ (part ++ rest)) = front ++ (addition ++ (part ++ rest)) := by
  induction front with
  | nil =>
      obtain ⟨c, cs, rfl⟩ := List.exists_cons_of_ne_nil hpart
      have hself : (c :: cs).isPrefixOf (c :: (cs ++ rest)) = true :=
        List.isPrefixOf_iff_prefix.mpr (List.prefix_append (c :: cs) rest)
      rw [List.nil_append, List.cons_append, insertBefore, if_pos hself, List.nil_append]
  | cons x xs ih =>
      obtain ⟨hlong, hshort, hxs⟩ := h
      -- Both the part and what is left of the front would begin the same text.
      have hno : ¬ part <+: x :: (xs ++ (part ++ rest)) := fun hp =>
        (List.prefix_or_prefix_of_prefix hp (List.prefix_append (x :: xs) _)).elim hlong hshort
      rw [List.cons_append, insertBefore, if_neg (mt List.isPrefixOf_iff_prefix.mp hno), ih hxs]
      rfl

theorem escalation_html (a : Alert) (s : Stage) (level : Int) (dashboard : Option String) :
    (escalation a s level dashboard).html = some (opening ++ (levelMark level
      ++ (ownHeading a ++ afterHeading a (link a dashboard)))) := by
  have hclear : Clear heading.toList opening.toList := by decide +kernel
  have hinsert := insertBefore_append (by decide) hclear (levelMark level).toList
    (severityText a ++ " Alert</h2>" ++ afterHeading a (link a dashboard)).toList
  have hhtml : (escalation a s level dashboard).html = (alert a dashboard).html.map fun html =>
    String.ofList (insertBefore heading.toList (levelMark level).toList html.toList) := rfl
  rw [hhtml, alert_html, Option.map_some, ownHeading]
  simp only [String.append_assoc, String.toList_append] at hinsert ⊢
  rw [hinsert]
  simp only [← String.toList_append, String.ofList_toList]

theorem whole_levelMark (level : Int) : Whole (levelMark level) :=
  (Whole.append (by decide) (plain_level level).whole).append (by decide)

/-- An escalated notification has the tags of the plain one, with those of the mark after the
first. -/
theorem tags_escalation {a : Alert} {s : Stage} {level : Int} {dashboard : Option String}
    {html : String} (h : (escalation a s level dashboard).html = some html) :
    tags html = tags opening ++ (tags (levelMark level)
      ++ (tags (ownHeading a) ++ tags (afterHeading a (link a dashboard)))) := by
  obtain rfl := Option.some.inj ((escalation_html a s level dashboard).symm.trans h)
  rw [tags_append whole_opening, tags_append (whole_levelMark level),
    tags_append (whole_ownHeading a)]

/-- Two alerts that differ only in title and description have notifications of the same tags, and
an escalation puts its mark in front of the heading that the notification has of its own and
nowhere else. -/
theorem retitled_and_marked (a : Alert) (title description : String) (dashboard : Option String)
    (s : Stage) (level : Int) :
    ∃ html html' rest, (alert a dashboard).html = some html
      ∧ (alert (retitled a title description) dashboard).html = some html'
      ∧ tags html' = tags html
      ∧ html = opening ++ (ownHeading a ++ rest)
      ∧ (escalation a s level dashboard).html
        = some (opening ++ (levelMark level ++ (ownHeading a ++ rest))) := by
  refine ⟨_, _, afterHeading a (link a dashboard), alert_html a dashboard,
    alert_html (retitled a title description) dashboard, ?_, rfl,
    escalation_html a s level dashboard⟩
  have hlink : link (retitled a title description) dashboard = link a dashboard := rfl
  have hheading : ownHeading (retitled a title description) = ownHeading a := rfl
  rw [hlink, hheading, tags_append whole_opening, tags_append whole_opening,
    tags_append (whole_ownHeading a), tags_append (whole_ownHeading a),
    tags_afterHeading_retitled]

end Frame

end Markup

end BuildingAlerts
