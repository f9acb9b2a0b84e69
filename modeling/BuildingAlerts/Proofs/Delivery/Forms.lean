/-
The forms of addresses as grammars.

What a channel takes as an address is told here by grammars: a number, a mail address and an
address on the web are put together from rows of characters, and behind each of them one break of
line may end the text. The checks of addresses read exactly these grammars. So a number is taken
with digits of any script, and every address is taken with a break of line at its end; a number of
E.164 has the ten Arabic digits only and nothing behind them.
-/
import BuildingAlerts.Delivery.Exchange
import Mathlib.Computability.Language
import Mathlib.Data.List.TakeWhile

set_option autoImplicit false

open scoped Computability

namespace BuildingAlerts

namespace Address

variable {test : Char → Bool} {l : Language Char} {cs w : List Char} {s : String}

/-! ## Grammars -/

/-- Rows of characters of one class, of a length in a set. -/
def rows (test : Char → Bool) (lengths : Set Nat) : Language Char :=
  {w | w.length ∈ lengths ∧ ∀ c ∈ w, test c = true}

/-- A given text. -/
def exactly (s : String) : Language Char :=
  {s.toList}

/-- What may be left out. -/
def maybe (l : Language Char) : Language Char :=
  1 + l

/-- The end of a text, where one break of line may stand. -/
def ending : Language Char :=
  maybe (exactly "\n")

theorem mem_rows {lengths : Set Nat} :
    w ∈ rows test lengths ↔ w.length ∈ lengths ∧ ∀ c ∈ w, test c = true :=
  Iff.rfl

theorem mem_maybe : w ∈ maybe l ↔ w = [] ∨ w ∈ l :=
  Language.mem_add 1 l w

/-- A row of one is a character of the class. -/
theorem mem_rows_one : w ∈ rows test {1} ↔ ∃ c, test c = true ∧ w = [c] := by
  rw [mem_rows, Set.mem_singleton_iff, List.length_eq_one_iff]
  constructor
  · rintro ⟨⟨c, rfl⟩, h⟩
    exact ⟨c, h c (List.mem_singleton_self c), rfl⟩
  · rintro ⟨c, hc, rfl⟩
    exact ⟨⟨c, rfl⟩, fun d hd => (List.mem_singleton.mp hd) ▸ hc⟩

/-! ## Characters that a grammar avoids -/

/-- No text of a language has a character of a class. -/
def Avoids (bad : Char → Bool) (l : Language Char) : Prop :=
  ∀ w ∈ l, ∀ c ∈ w, bad c = false

namespace Avoids

theorem not_mem {mark : Char} (h : Avoids (· == mark) l) (hw : w ∈ l) : mark ∉ w :=
  fun hmem => Bool.false_ne_true ((h w hw mark hmem).symm.trans (beq_self_eq_true mark))

variable {bad : Char → Bool} {m : Language Char}

theorem rows (h : ∀ c, test c = true → bad c = false) (lengths : Set Nat) :
    Avoids bad (rows test lengths) :=
  fun _ hw c hc => h c (hw.2 c hc)

theorem exactly (h : s.toList.all (!bad ·) = true) : Avoids bad (exactly s) := by
  rintro _ rfl c hc
  exact (Bool.not_eq_true' _).mp (List.all_eq_true.mp h c hc)

theorem maybe (h : Avoids bad l) : Avoids bad (maybe l) := by
  intro w hw c hc
  rcases mem_maybe.mp hw with rfl | hw
  · exact absurd hc List.not_mem_nil
  · exact h w hw c hc

theorem mul (hl : Avoids bad l) (hm : Avoids bad m) : Avoids bad (l * m) := by
  intro w hw c hc
  obtain ⟨a, ha, b, hb, rfl⟩ := Language.mem_mul.mp hw
  rcases List.mem_append.mp hc with hc | hc
  · exact hl a ha c hc
  · exact hm b hb c hc

theorem kstar (h : Avoids bad l) : Avoids bad l∗ := by
  intro w hw c hc
  obtain ⟨ps, rfl, hps⟩ := Language.mem_kstar.mp hw
  obtain ⟨p, hp, hc⟩ := List.mem_flatten.mp hc
  exact h p (hps p hp) c hc

end Avoids

/-- No line feed is in a text without ends of lines. -/
theorem Avoids.break (h : Avoids Text.isLineEnd l) : Avoids (· == '\n') l :=
  fun w hw c hc => beq_eq_false_iff_ne.mpr fun heq => by
    rw [heq] at hc
    exact Bool.false_ne_true ((h w hw '\n' hc).symm.trans rfl)

theorem Avoids.getLast?_ne {bad : Char → Bool} {c : Char} (h : Avoids bad l) (hc : bad c = true) :
    ∀ w ∈ l, w.getLast? ≠ some c := by
  intro w hw hlast
  rw [h w hw c (List.mem_of_getLast? hlast)] at hc
  exact Bool.false_ne_true hc

/-- The characters that end a line. -/
def lineEnds : List Char :=
  ['\n', '\x0b', '\x0c', '\r', '\x1c', '\x1d', '\x1e', '\u0085', '\u2028', '\u2029']

theorem mem_lineEnds {c : Char} (h : Text.isLineEnd c = true) : c ∈ lineEnds := by
  unfold Text.isLineEnd at h
  simp only [Bool.or_eq_true, Bool.and_eq_true, decide_eq_true_iff, beq_iff_eq] at h
  have hcode : c.toNat ∈ lineEnds.map Char.toNat := by
    rw [show lineEnds.map Char.toNat = [10, 11, 12, 13, 28, 29, 30, 133, 8232, 8233] by decide]
    simp only [List.mem_cons, List.not_mem_nil, or_false]
    omega
  obtain ⟨d, hd, heq⟩ := List.mem_map.mp hcode
  exact (Char.toNat_inj.mp heq) ▸ hd

/-- A class without the characters that end a line. -/
theorem isLineEnd_eq_false (h : lineEnds.all (!test ·) = true) (c : Char) (hc : test c = true) :
    Text.isLineEnd c = false := by
  rw [Bool.eq_false_iff]
  intro hend
  have hnot : test c = false :=
    (Bool.not_eq_true' _).mp (List.all_eq_true.mp h c (mem_lineEnds hend))
  exact Bool.false_ne_true (hnot.symm.trans hc)

/-- A class without a character. -/
theorem beq_eq_false {mark : Char} (h : test mark = false) (c : Char) (hc : test c = true) :
    (c == mark) = false :=
  beq_eq_false_iff_ne.mpr fun heq => Bool.false_ne_true (h.symm.trans (heq ▸ hc))

theorem mem_exactly_mul : w ∈ exactly s * l ↔ ∃ t ∈ l, w = s.toList ++ t := by
  rw [Language.mem_mul]
  constructor
  · rintro ⟨_, rfl, t, ht, rfl⟩
    exact ⟨t, ht, rfl⟩
  · rintro ⟨t, ht, rfl⟩
    exact ⟨_, rfl, t, ht, rfl⟩

/-! ## The break of line at the end -/

theorem dropBreak_of_getLast?_ne (h : s.toList.getLast? ≠ some '\n') : dropBreak s = s.toList := by
  unfold dropBreak
  dsimp only
  rw [if_neg fun hlast => h (eq_of_beq hlast)]

theorem dropBreak_of_eq_concat (h : s.toList = w ++ ['\n']) : dropBreak s = w := by
  unfold dropBreak
  dsimp only
  rw [h, List.getLast?_concat, if_pos (beq_self_eq_true _), List.dropLast_concat]

/-- Passing over a break of line at the end is to read a text with such an ending, if no text
proper ends in one. -/
theorem mem_mul_ending (hl : ∀ w ∈ l, w.getLast? ≠ some '\n') :
    s.toList ∈ l * ending ↔ dropBreak s ∈ l := by
  constructor
  · intro h
    obtain ⟨w, hw, e, he, hs⟩ := Language.mem_mul.mp h
    rcases mem_maybe.mp he with rfl | rfl
    · -- the text proper does not end in a break, so nothing is dropped
      rw [List.append_nil] at hs
      rw [dropBreak_of_getLast?_ne (hs ▸ hl w hw), ← hs]
      exact hw
    · rw [dropBreak_of_eq_concat hs.symm]
      exact hw
  · intro h
    by_cases hlast : s.toList.getLast? = some '\n'
    · have hs := List.dropLast_append_getLast? '\n' hlast
      rw [dropBreak_of_eq_concat hs.symm] at h
      rw [← hs]
      exact Language.append_mem_mul h (mem_maybe.mpr (.inr rfl))
    · rw [dropBreak_of_getLast?_ne hlast] at h
      rw [← List.append_nil s.toList]
      exact Language.append_mem_mul h (mem_maybe.mpr (.inl rfl))

/-- What stands behind a text in front. -/
theorem dropLead?_eq_some_iff {rest : List Char} :
    dropLead? s cs = some rest ↔ cs = s.toList ++ rest := by
  unfold dropLead?
  constructor
  · intro h
    split at h
    · rename_i hprefix
      obtain ⟨t, rfl⟩ := List.isPrefixOf_iff_prefix.mp hprefix
      rw [← String.length_toList, List.drop_left, Option.some_inj] at h
      rw [h]
    · cases h
  · rintro rfl
    rw [if_pos (List.isPrefixOf_iff_prefix.mpr (List.prefix_append _ _)), ← String.length_toList,
      List.drop_left]

/-! ## Telephone numbers -/

/-- The digits that a number may begin with. -/
def isLead (c : Char) : Bool :=
  '1' ≤ c && c ≤ '9'

/-- An optional plus sign, a digit that is not zero, and six to fourteen digits of a class. -/
def number (digit : Char → Bool) : Language Char :=
  maybe (exactly "+") * (rows isLead {1} * rows digit (Set.Icc 6 14))

theorem mem_number_iff {digit : Char → Bool} : cs ∈ number digit ↔
    ∃ sign d ds, (sign = [] ∨ sign = ['+']) ∧ isLead d = true ∧ ds ∈ rows digit (Set.Icc 6 14)
      ∧ cs = sign ++ d :: ds := by
  unfold number
  constructor
  · intro h
    obtain ⟨sign, hsign, _, htail, rfl⟩ := Language.mem_mul.mp h
    obtain ⟨_, hlead, ds, hds, rfl⟩ := Language.mem_mul.mp htail
    obtain ⟨d, hd, rfl⟩ := mem_rows_one.mp hlead
    exact ⟨sign, d, ds, mem_maybe.mp hsign, hd, hds, rfl⟩
  · rintro ⟨sign, d, ds, hsign, hd, hds, rfl⟩
    exact Language.append_mem_mul (mem_maybe.mpr hsign)
      (Language.append_mem_mul (mem_rows_one.mpr ⟨d, hd, rfl⟩) hds)

theorem isDigit_avoids_lineEnds (c : Char) (hc : Text.isDigit c = true) :
    Text.isLineEnd c = false :=
  isLineEnd_eq_false (by decide +kernel) c hc

theorem avoids_number : Avoids Text.isLineEnd (number Text.isDigit) :=
  .mul (.maybe (.exactly (by decide))) (.mul (.rows (isLineEnd_eq_false (by decide)) _)
    (.rows isDigit_avoids_lineEnds _))

/-- The check of a telephone number reads the grammar with digits of any script. -/
theorem isPhone_iff : isPhone s = true ↔ s.toList ∈ number Text.isDigit * ending := by
  have hcheck : isPhone s = true ↔ ∃ d ds, isLead d = true
      ∧ ds ∈ rows Text.isDigit (Set.Icc 6 14)
      ∧ (dropLead? "+" (dropBreak s)).getD (dropBreak s) = d :: ds := by
    unfold isPhone
    dsimp only
    cases (dropLead? "+" (dropBreak s)).getD (dropBreak s) with
    | nil => simp
    | cons d ds => simp [isLead, mem_rows, and_assoc]
  rw [mem_mul_ending (avoids_number.getLast?_ne rfl), hcheck, mem_number_iff]
  generalize dropBreak s = cs
  constructor
  · rintro ⟨d, ds, hd, hds, h⟩
    cases hsign : dropLead? "+" cs with
    | none =>
        rw [hsign] at h
        exact ⟨[], d, ds, .inl rfl, hd, hds, h⟩
    | some rest =>
        rw [hsign] at h
        obtain rfl : rest = d :: ds := h
        exact ⟨['+'], d, ds, .inr rfl, hd, hds, dropLead?_eq_some_iff.mp hsign⟩
  · rintro ⟨sign, d, ds, rfl | rfl, hd, hds, rfl⟩
    · refine ⟨d, ds, hd, hds, ?_⟩
      cases hsign : dropLead? "+" ([] ++ d :: ds) with
      | none => rfl
      | some rest =>
          -- a plus sign is no digit
          obtain rfl : d = '+' := (List.cons.inj (dropLead?_eq_some_iff.mp hsign)).1
          exact absurd hd (by decide)
    · have hsign : dropLead? "+" (['+'] ++ d :: ds) = some (d :: ds) :=
        dropLead?_eq_some_iff.mpr rfl
      exact ⟨d, ds, hd, hds, by rw [hsign]; rfl⟩

/-! ## Texts in pieces -/

section Pieces

variable {mark : Char}

theorem pieces_ne_nil (mark : Char) (cs : List Char) : pieces mark cs ≠ [] := by
  cases cs with
  | nil => exact List.cons_ne_nil _ _
  | cons c cs =>
      unfold pieces
      split
      · exact List.cons_ne_nil _ _
      · split
        · exact List.cons_ne_nil _ _
        · exact List.cons_ne_nil _ _

/-- A text without the mark is one piece. -/
theorem pieces_of_not_mem (h : mark ∉ cs) : pieces mark cs = [cs] := by
  induction cs with
  | nil => rfl
  | cons c cs ih =>
      rw [pieces, if_neg (by simpa using (List.ne_of_not_mem_cons h).symm),
        ih (List.not_mem_of_not_mem_cons h)]

/-- The first piece ends at the first mark. -/
theorem pieces_append (h : mark ∉ w) (cs : List Char) :
    pieces mark (w ++ mark :: cs) = w :: pieces mark cs := by
  induction w with
  | nil => rw [List.nil_append, pieces, if_pos (beq_self_eq_true mark)]
  | cons c w ih =>
      rw [List.cons_append, pieces, if_neg (by simpa using (List.ne_of_not_mem_cons h).symm),
        ih (List.not_mem_of_not_mem_cons h)]

/-- A text is its only piece, or its first piece, a mark and the text of the other pieces. -/
theorem pieces_eq_cons {ps : List (List Char)} (h : pieces mark cs = w :: ps) :
    mark ∉ w ∧ (ps = [] ∧ cs = w ∨ ∃ rest, cs = w ++ mark :: rest ∧ pieces mark rest = ps) := by
  by_cases hmark : mark ∈ cs
  · obtain ⟨front, rest, rfl, hfront⟩ := List.eq_append_cons_of_mem hmark
    rw [pieces_append hfront] at h
    obtain ⟨rfl, rfl⟩ := List.cons.inj h
    exact ⟨hfront, .inr ⟨rest, rfl, rfl⟩⟩
  · rw [pieces_of_not_mem hmark] at h
    obtain ⟨rfl, rfl⟩ := List.cons.inj h
    exact ⟨hmark, .inl ⟨rfl, rfl⟩⟩

/-- Two pieces are two texts with the mark between them. -/
theorem pieces_eq_pair_iff {a b : List Char} :
    pieces mark cs = [a, b] ↔ cs = a ++ mark :: b ∧ mark ∉ a ∧ mark ∉ b := by
  constructor
  · intro h
    obtain ⟨ha, ⟨hnil, -⟩ | ⟨rest, rfl, hrest⟩⟩ := pieces_eq_cons h
    · cases hnil
    · obtain ⟨hb, ⟨-, rfl⟩ | ⟨last, -, hlast⟩⟩ := pieces_eq_cons hrest
      · exact ⟨rfl, ha, hb⟩
      · exact absurd hlast (pieces_ne_nil mark last)
  · rintro ⟨rfl, ha, hb⟩
    rw [pieces_append ha, pieces_of_not_mem hb]

/-- A text whose pieces are all of a language, with the mark before each but the first. -/
theorem pieces_all_iff (hl : ∀ w ∈ l, mark ∉ w) :
    (∀ p ∈ pieces mark cs, p ∈ l) ↔ cs ∈ l * ({[mark]} * l)∗ := by
  constructor
  · intro h
    -- each piece but the first is told of the text behind the mark before it
    generalize hps : pieces mark cs = ps at h
    induction ps generalizing cs with
    | nil => exact absurd hps (pieces_ne_nil mark cs)
    | cons p ps ih =>
        have hp : p ∈ l := h p List.mem_cons_self
        obtain ⟨-, ⟨-, rfl⟩ | ⟨rest, rfl, hrest⟩⟩ := pieces_eq_cons hps
        · rw [← List.append_nil cs]
          exact Language.append_mem_mul hp (Language.nil_mem_kstar _)
        · obtain ⟨a, ha, b, hb, rfl⟩ := Language.mem_mul.mp
            (ih hrest fun q hq => h q (List.mem_cons_of_mem p hq))
          refine Language.append_mem_mul hp ?_
          rw [← Language.one_add_self_mul_kstar_eq_kstar]
          refine (Language.mem_add ..).mpr (.inr ?_)
          exact Language.append_mem_mul (a := [mark] ++ a)
            (Language.append_mem_mul rfl ha) hb
  · intro h
    obtain ⟨a, ha, b, hb, rfl⟩ := Language.mem_mul.mp h
    obtain ⟨ps, rfl, hps⟩ := Language.mem_kstar.mp hb
    clear h hb
    induction ps generalizing a with
    | nil =>
        rw [List.flatten_nil, List.append_nil, pieces_of_not_mem (hl a ha)]
        exact fun p hp => (List.mem_singleton.mp hp) ▸ ha
    | cons q ps ih =>
        obtain ⟨_, rfl, d, hd, rfl⟩ := Language.mem_mul.mp (hps q List.mem_cons_self)
        rw [List.flatten_cons, List.append_assoc, List.singleton_append, pieces_append (hl a ha)]
        intro p hp
        rcases List.mem_cons.mp hp with rfl | hp
        · exact ha
        · exact ih d hd (fun r hr => hps r (List.mem_cons_of_mem _ hr)) p hp

end Pieces

/-! ## Mail addresses -/

/-- A host: a name, a point and at least two letters. -/
def mailHost : Language Char :=
  rows isHostChar (Set.Ici 1) * (exactly "." * rows Char.isAlpha (Set.Ici 2))

/-- A mailbox at a host. -/
def mail : Language Char :=
  rows isMailboxChar (Set.Ici 1) * (exactly "@" * mailHost)

theorem isSome_iff : isSome test cs = true ↔ cs ∈ rows test (Set.Ici 1) := by
  unfold isSome
  rw [mem_rows, Set.mem_Ici, Bool.and_eq_true, List.all_eq_true, Bool.not_eq_true',
    List.isEmpty_eq_false_iff, Nat.one_le_iff_ne_zero, Ne, Ne, List.length_eq_zero_iff]

theorem not_mem_of_mem_rows {lengths : Set Nat} {mark : Char} (hmark : test mark = false)
    (h : cs ∈ rows test lengths) : mark ∉ cs :=
  (Avoids.rows (beq_eq_false hmark) lengths).not_mem h

/-- The check of a host looks for the last point. -/
theorem isMailHost_append {a b : List Char} (hb : '.' ∉ b) : isMailHost (a ++ '.' :: b) = true ↔
    a ∈ rows isHostChar (Set.Ici 1) ∧ b ∈ rows Char.isAlpha (Set.Ici 2) := by
  have hending : ((a ++ '.' :: b).reverse.takeWhile (· != '.')).reverse = b := by
    rw [List.reverse_append, List.reverse_cons, List.append_assoc, List.singleton_append,
      List.takeWhile_append_of_pos fun c hc => ?_, List.takeWhile_cons_of_neg (by decide),
      List.append_nil, List.reverse_reverse]
    exact bne_iff_ne.mpr fun h => hb (h ▸ List.mem_reverse.mp hc)
  have hname : (a ++ '.' :: b).take ((a ++ '.' :: b).length - b.length - 1) = a := by
    rw [List.length_append, List.length_cons, show a.length + (b.length + 1) - b.length - 1
      = a.length by omega, List.take_left]
  have hpoint : (a ++ '.' :: b).contains '.' = true :=
    List.contains_iff_mem.mpr (List.mem_append_cons_self)
  unfold isMailHost
  dsimp only
  rw [hending, hname, hpoint, Bool.true_and, Bool.and_eq_true, Bool.and_eq_true, isSome_iff,
    decide_eq_true_iff, List.all_eq_true, and_assoc]
  exact Iff.rfl

theorem isMailHost_iff : isMailHost cs = true ↔ cs ∈ mailHost := by
  unfold mailHost
  constructor
  · intro h
    have hpoint : '.' ∈ cs := by
      unfold isMailHost at h
      simp only [Bool.and_eq_true] at h
      exact List.contains_iff_mem.mp h.1.1.1
    obtain ⟨b, a, hcs, hb⟩ := List.eq_append_cons_of_mem (List.mem_reverse.mpr hpoint)
    have hcs : cs = a.reverse ++ '.' :: b.reverse := by
      rw [← List.reverse_reverse cs, hcs, List.reverse_append, List.reverse_cons,
        List.append_assoc, List.singleton_append]
    rw [hcs, isMailHost_append fun hmem => hb (List.mem_reverse.mp hmem)] at h
    rw [hcs]
    exact Language.append_mem_mul h.1 (mem_exactly_mul.mpr ⟨_, h.2, rfl⟩)
  · intro h
    obtain ⟨a, ha, _, htail, rfl⟩ := Language.mem_mul.mp h
    obtain ⟨b, hb, rfl⟩ := mem_exactly_mul.mp htail
    exact (isMailHost_append (not_mem_of_mem_rows (by decide) hb)).mpr ⟨ha, hb⟩

theorem avoids_mailHost : Avoids Text.isLineEnd mailHost :=
  .mul (.rows (isLineEnd_eq_false (by decide)) _) (.mul (.exactly (by decide))
    (.rows (isLineEnd_eq_false (by decide)) _))

theorem avoids_mail : Avoids Text.isLineEnd mail :=
  .mul (.rows (isLineEnd_eq_false (by decide)) _) (.mul (.exactly (by decide)) avoids_mailHost)

/-- No second sign of a mail address is in its host. -/
theorem not_mem_mailHost (h : cs ∈ mailHost) : '@' ∉ cs :=
  Avoids.not_mem (.mul (.rows (beq_eq_false rfl) _)
    (.mul (.exactly (by decide)) (.rows (beq_eq_false rfl) _))) h

/-- The check of a mail address reads the grammar. -/
theorem isMail_iff : isMail s = true ↔ s.toList ∈ mail * ending := by
  rw [mem_mul_ending (avoids_mail.getLast?_ne rfl)]
  unfold isMail mail
  generalize dropBreak s = cs
  constructor
  · intro h
    split at h
    · rename_i box host hpieces
      obtain ⟨rfl, -, -⟩ := pieces_eq_pair_iff.mp hpieces
      rw [Bool.and_eq_true, isSome_iff, isMailHost_iff] at h
      exact Language.append_mem_mul h.1 (mem_exactly_mul.mpr ⟨host, h.2, rfl⟩)
    · cases h
  · intro h
    obtain ⟨box, hbox, _, htail, rfl⟩ := Language.mem_mul.mp h
    obtain ⟨host, hhost, rfl⟩ := mem_exactly_mul.mp htail
    have hpieces : pieces '@' (box ++ ("@".toList ++ host)) = [box, host] :=
      pieces_eq_pair_iff.mpr
        ⟨rfl, not_mem_of_mem_rows (by decide) hbox, not_mem_mailHost hhost⟩
    rw [hpieces]
    dsimp only
    rw [Bool.and_eq_true, isSome_iff, isMailHost_iff]
    exact ⟨hbox, hhost⟩

/-! ## Addresses on the web -/

/-- The characters inside a part of the name of a host. -/
def isInner (c : Char) : Bool :=
  isPlain c || c == '-'

/-- A part of the name of a host: a letter or digit, and if there is more, another at its end. -/
def label : Language Char :=
  rows isPlain {1} * maybe (rows isInner Set.univ * rows isPlain {1})

/-- The name of a host: parts with points between them. -/
def webHost : Language Char :=
  label * (exactly "." * label)∗

/-- A port. -/
def port : Language Char :=
  exactly ":" * rows Text.isDigit (Set.Ici 1)

/-- A path. It may hold all characters but the line feed. -/
def path : Language Char :=
  exactly "/" * rows (· != '\n') Set.univ

/-- The beginning of an address on the web. -/
def scheme : Language Char :=
  exactly "http" * (maybe (exactly "s") * exactly "://")

/-- An address on the web. -/
def web : Language Char :=
  scheme * (webHost * (maybe port * maybe path))

theorem isInner_of_isPlain {c : Char} (h : isPlain c = true) : isInner c = true := by
  rw [isInner, h, Bool.true_or]

theorem isPlain_of_isInner {c : Char} (h : isInner c = true) (hne : c ≠ '-') :
    isPlain c = true := by
  rw [isInner, Bool.or_eq_true, beq_iff_eq] at h
  exact h.resolve_right hne

theorem ne_hyphen_of_isPlain {c : Char} (h : isPlain c = true) : c ≠ '-' := by
  rintro rfl
  exact absurd h (by decide)

/-- The check of a part asks for no hyphen at its ends. -/
theorem isLabel_iff : isLabel cs = true ↔ cs ∈ label := by
  have hcheck : isLabel cs = true ↔ cs ∈ rows isInner (Set.Ici 1) ∧ cs.head? ≠ some '-'
      ∧ cs.getLast? ≠ some '-' := by
    unfold isLabel
    rw [Bool.and_eq_true, Bool.and_eq_true, bne_iff_ne, bne_iff_ne, and_assoc]
    exact and_congr_left' isSome_iff
  rw [hcheck]
  unfold label
  constructor
  · rintro ⟨⟨hlength, hall⟩, hfirst, hlast⟩
    cases cs with
    | nil => exact absurd hlength (by decide)
    | cons c cs =>
        -- what may stand inside and is no hyphen is a letter or a digit
        have hc : isPlain c = true :=
          isPlain_of_isInner (hall c List.mem_cons_self) fun h => hfirst (congrArg some h)
        refine Language.append_mem_mul (a := [c]) (mem_rows_one.mpr ⟨c, hc, rfl⟩)
          (mem_maybe.mpr ?_)
        rcases List.eq_nil_or_concat cs with rfl | ⟨inner, d, rfl⟩
        · exact .inl rfl
        · rw [List.concat_eq_append] at hall hlast ⊢
          rw [← List.cons_append, List.getLast?_concat] at hlast
          have hd : isPlain d = true :=
            isPlain_of_isInner (hall d (by simp)) fun h => hlast (congrArg some h)
          exact .inr (Language.append_mem_mul
            ⟨trivial, fun e he => hall e (List.mem_cons_of_mem c (List.mem_append_left _ he))⟩
            (mem_rows_one.mpr ⟨d, hd, rfl⟩))
  · intro h
    obtain ⟨_, hone, tail, htail, rfl⟩ := Language.mem_mul.mp h
    obtain ⟨c, hc, rfl⟩ := mem_rows_one.mp hone
    have hfirst : ([c] ++ tail).head? ≠ some '-' := fun h =>
      ne_hyphen_of_isPlain hc (Option.some.inj h)
    rcases mem_maybe.mp htail with rfl | htail
    · exact ⟨⟨Nat.le_refl 1, fun d hd => (List.mem_singleton.mp hd) ▸ isInner_of_isPlain hc⟩,
        hfirst, hfirst⟩
    · obtain ⟨inner, hinner, _, hlast, rfl⟩ := Language.mem_mul.mp htail
      obtain ⟨d, hd, rfl⟩ := mem_rows_one.mp hlast
      refine ⟨⟨?_, ?_⟩, hfirst, ?_⟩
      · rw [Set.mem_Ici, List.length_append]
        exact Nat.le_add_right 1 _
      · intro e he
        rw [List.mem_append, List.mem_append, List.mem_singleton, List.mem_singleton] at he
        rcases he with rfl | he | rfl
        · exact isInner_of_isPlain hc
        · exact hinner.2 e he
        · exact isInner_of_isPlain hd
      · rw [← List.append_assoc, List.getLast?_concat]
        exact fun h => ne_hyphen_of_isPlain hd (Option.some.inj h)

theorem avoids_label {bad : Char → Bool} (hplain : ∀ c, isPlain c = true → bad c = false)
    (hhyphen : bad '-' = false) : Avoids bad label := by
  have hinner (c : Char) (hc : isInner c = true) : bad c = false := by
    by_cases hne : c = '-'
    · rw [hne]
      exact hhyphen
    · exact hplain c (isPlain_of_isInner hc hne)
  exact .mul (.rows hplain _) (.maybe (.mul (.rows hinner _) (.rows hplain _)))

theorem avoids_webHost {bad : Char → Bool} (hplain : ∀ c, isPlain c = true → bad c = false)
    (hhyphen : bad '-' = false) (hpoint : bad '.' = false) : Avoids bad webHost := by
  have hlabel : Avoids bad label := avoids_label hplain hhyphen
  refine .mul hlabel (.kstar (.mul (.exactly ?_) hlabel))
  show (!bad '.' && true) = true
  rw [hpoint]
  rfl

/-- The parts of the name of a host are what stands between the points. -/
theorem all_isLabel_iff : (pieces '.' cs).all isLabel = true ↔ cs ∈ webHost := by
  have hpoint : ∀ w ∈ label, '.' ∉ w := fun w =>
    (avoids_label (beq_eq_false rfl) rfl).not_mem
  rw [List.all_eq_true]
  simp only [isLabel_iff]
  exact pieces_all_iff hpoint

theorem isPath_iff : isPath cs = true ↔ cs ∈ maybe path := by
  rw [mem_maybe]
  unfold path
  rw [mem_exactly_mul]
  cases cs with
  | nil => exact iff_of_true rfl (.inl rfl)
  | cons c cs =>
      have hline : cs ∈ rows (· != '\n') Set.univ ↔ '\n' ∉ cs := by
        rw [mem_rows]
        simp only [bne_iff_ne]
        exact ⟨fun h hmem => h.2 _ hmem rfl, fun h => ⟨trivial, fun d hd heq => h (heq ▸ hd)⟩⟩
      rw [isPath, Bool.and_eq_true, beq_iff_eq, Bool.not_eq_true', ← Bool.not_eq_true,
        List.contains_iff_mem]
      constructor
      · rintro ⟨rfl, h⟩
        exact .inr ⟨cs, hline.mpr h, rfl⟩
      · rintro (h | ⟨t, ht, h⟩)
        · cases h
        · obtain ⟨rfl, rfl⟩ := List.cons.inj h
          exact ⟨rfl, hline.mp ht⟩

/-- What may follow the name of a host does not begin with a digit, a letter or a point. -/
theorem head_of_mem_maybe_path (h : cs ∈ maybe path) : cs = [] ∨ ∃ rest, cs = '/' :: rest := by
  rcases mem_maybe.mp h with h | h
  · exact .inl h
  · obtain ⟨rest, -, h⟩ := mem_exactly_mul.mp h
    exact .inr ⟨rest, h⟩

/-- The check of what follows the name of a host takes as many digits for the port as there are. -/
theorem isPath_dropPort_iff : isPath (dropPort cs) = true ↔ cs ∈ maybe port * maybe path := by
  constructor
  · intro h
    have hnone (h : isPath cs = true) : cs ∈ maybe port * maybe path :=
      Language.append_mem_mul (a := []) (mem_maybe.mpr (.inl rfl)) (isPath_iff.mp h)
    unfold dropPort at h
    split at h
    · rename_i rest
      dsimp only at h
      split at h
      · rename_i hshorter
        have hsplit : ":".toList ++ rest.takeWhile Text.isDigit ++ rest.dropWhile Text.isDigit
            = ':' :: rest := by
          rw [List.append_assoc, List.takeWhile_append_dropWhile]
          rfl
        rw [← hsplit]
        refine Language.append_mem_mul (mem_maybe.mpr (.inr (mem_exactly_mul.mpr
          ⟨_, ⟨?_, fun c hc => List.mem_takeWhile_imp hc⟩, rfl⟩))) (isPath_iff.mp h)
        have hlength := congrArg List.length (List.takeWhile_append_dropWhile (p := Text.isDigit)
          (l := rest))
        rw [List.length_append] at hlength
        rw [Set.mem_Ici]
        omega
      · exact hnone h
    · exact hnone h
  · intro h
    obtain ⟨front, hfront, rest, hrest, rfl⟩ := Language.mem_mul.mp h
    rcases mem_maybe.mp hfront with rfl | hfront
    · have hdrop : dropPort ([] ++ rest) = rest := by
        rcases head_of_mem_maybe_path hrest with rfl | ⟨tail, rfl⟩
        · rfl
        · rfl
      rw [hdrop]
      exact isPath_iff.mpr hrest
    · obtain ⟨ds, ⟨hlength, hds⟩, rfl⟩ := mem_exactly_mul.mp hfront
      have hafter : (ds ++ rest).dropWhile Text.isDigit = rest := by
        rw [List.dropWhile_append_of_pos hds]
        rcases head_of_mem_maybe_path hrest with rfl | ⟨tail, rfl⟩
        · rfl
        · exact List.dropWhile_cons_of_neg (by decide +kernel)
      have hdrop : dropPort (":".toList ++ ds ++ rest) = rest := by
        rw [List.append_assoc]
        show (if ((ds ++ rest).dropWhile Text.isDigit).length < (ds ++ rest).length then
          (ds ++ rest).dropWhile Text.isDigit else ':' :: (ds ++ rest)) = rest
        rw [hafter, List.length_append, if_pos]
        rw [Set.mem_Ici] at hlength
        omega
      rw [hdrop]
      exact isPath_iff.mpr hrest

theorem head_of_mem_port_path (h : cs ∈ maybe port * maybe path) :
    cs = [] ∨ ∃ c rest, (c = ':' ∨ c = '/') ∧ cs = c :: rest := by
  obtain ⟨front, hfront, rest, hrest, rfl⟩ := Language.mem_mul.mp h
  rcases mem_maybe.mp hfront with rfl | hfront
  · rcases head_of_mem_maybe_path hrest with rfl | ⟨tail, rfl⟩
    · exact .inl rfl
    · exact .inr ⟨'/', tail, .inr rfl, rfl⟩
  · obtain ⟨ds, -, rfl⟩ := mem_exactly_mul.mp hfront
    exact .inr ⟨':', ds ++ rest, .inl rfl, rfl⟩

/-- The name of a host ends where a colon or a slash stands. -/
theorem isHosted_iff : ((pieces '.' (cs.takeWhile fun c => c != ':' && c != '/')).all isLabel
      && isPath (dropPort (cs.drop (cs.takeWhile fun c => c != ':' && c != '/').length))) = true
    ↔ cs ∈ webHost * (maybe port * maybe path) := by
  rw [Bool.and_eq_true, all_isLabel_iff, isPath_dropPort_iff]
  constructor
  · rintro ⟨hhost, htail⟩
    have hsplit := List.prefix_iff_eq_append.mp
      (List.takeWhile_prefix (l := cs) fun c => c != ':' && c != '/')
    rw [← hsplit]
    exact Language.append_mem_mul hhost htail
  · intro h
    obtain ⟨host, hhost, tail, htail, rfl⟩ := Language.mem_mul.mp h
    -- the name of a host has no mark that could end it early
    have havoids (mark : Char) (hmark : isPlain mark = false) (hhyphen : ('-' == mark) = false)
        (hpoint : ('.' == mark) = false) (c : Char) (hc : c ∈ host) : (c == mark) = false :=
      avoids_webHost (beq_eq_false hmark) hhyphen hpoint host hhost c hc
    have hin (c : Char) (hc : c ∈ host) : (c != ':' && c != '/') = true := by
      rw [bne, bne, havoids ':' rfl rfl rfl c hc, havoids '/' rfl rfl rfl c hc]
      rfl
    have hwhile : (host ++ tail).takeWhile (fun c => c != ':' && c != '/') = host := by
      rw [List.takeWhile_append_of_pos hin]
      rcases head_of_mem_port_path htail with rfl | ⟨c, rest, hc, rfl⟩
      · rw [List.takeWhile_nil, List.append_nil]
      · rw [List.takeWhile_cons_of_neg (by rcases hc with rfl | rfl <;> decide), List.append_nil]
    rw [hwhile, List.drop_left]
    exact ⟨hhost, htail⟩

/-- The two beginnings of an address on the web. -/
theorem lead_eq_some_iff {rest : List Char} :
    (dropLead? "https://" cs).or (dropLead? "http://" cs) = some rest
      ↔ ∃ front ∈ scheme, cs = front ++ rest := by
  rw [Option.or_eq_some_iff, dropLead?_eq_some_iff, dropLead?_eq_some_iff]
  constructor
  · rintro (h | ⟨-, h⟩)
    · exact ⟨"https://".toList, Language.append_mem_mul (a := "http".toList) rfl
        (Language.append_mem_mul (a := "s".toList) (mem_maybe.mpr (.inr rfl)) rfl), h⟩
    · exact ⟨"http://".toList, Language.append_mem_mul (a := "http".toList) rfl
        (Language.append_mem_mul (a := []) (mem_maybe.mpr (.inl rfl)) rfl), h⟩
  · rintro ⟨front, hfront, rfl⟩
    obtain ⟨_, rfl, _, hend, rfl⟩ := Language.mem_mul.mp hfront
    obtain ⟨sign, hsign, _, rfl, rfl⟩ := Language.mem_mul.mp hend
    rcases mem_maybe.mp hsign with rfl | rfl
    · refine .inr ⟨?_, rfl⟩
      cases hs : dropLead? "https://" (["http".toList, [], "://".toList].flatten ++ rest) with
      | none => exact hs
      | some tail => exact absurd (dropLead?_eq_some_iff.mp hs) (by simp)
    · exact .inl rfl

theorem avoids_scheme : Avoids Text.isLineEnd scheme :=
  .mul (.exactly (by decide)) (.mul (.maybe (.exactly (by decide))) (.exactly (by decide)))

theorem avoids_name : Avoids Text.isLineEnd (webHost * maybe port) :=
  .mul (avoids_webHost (isLineEnd_eq_false (by decide)) rfl rfl)
    (.maybe (.mul (.exactly (by decide)) (.rows isDigit_avoids_lineEnds _)))

theorem avoids_web : Avoids (· == '\n') web := by
  unfold web
  rw [← mul_assoc webHost]
  exact .mul avoids_scheme.break (.mul avoids_name.break
    (.maybe (.mul (.exactly (by decide)) (.rows (beq_eq_false rfl) _))))

/-- The check of an address on the web reads the grammar. -/
theorem isWeb_iff : isWeb s = true ↔ s.toList ∈ web * ending := by
  rw [mem_mul_ending (avoids_web.getLast?_ne (by decide))]
  unfold isWeb web
  generalize dropBreak s = cs
  constructor
  · intro h
    dsimp only at h
    split at h
    · rename_i rest hlead
      obtain ⟨front, hfront, rfl⟩ := lead_eq_some_iff.mp hlead
      exact Language.append_mem_mul hfront (isHosted_iff.mp h)
    · cases h
  · intro h
    obtain ⟨front, hfront, rest, hrest, rfl⟩ := Language.mem_mul.mp h
    dsimp only
    rw [lead_eq_some_iff.mpr ⟨front, hfront, rfl⟩]
    exact isHosted_iff.mpr hrest

/-! ## Addresses of the chat service -/

/-- A part of an address of the chat service behind its letter. -/
def chatPart : Language Char :=
  rows isCapital (Set.Ici 1)

/-- An address of the chat service. -/
def chat : Language Char :=
  exactly "https://hooks.slack.com/services/" * (exactly "T" * (chatPart * (exactly "/"
    * (exactly "B" * (chatPart * (exactly "/" * rows isPlain (Set.Ici 1)))))))

theorem mem_chat_iff : cs ∈ chat ↔ ∃ team bot token, team ∈ chatPart ∧ bot ∈ chatPart
    ∧ token ∈ rows isPlain (Set.Ici 1) ∧ cs = "https://hooks.slack.com/services/".toList
      ++ (('T' :: team) ++ '/' :: (('B' :: bot) ++ '/' :: token)) := by
  unfold chat
  constructor
  · intro h
    obtain ⟨_, h₁, rfl⟩ := mem_exactly_mul.mp h
    obtain ⟨_, h₂, rfl⟩ := mem_exactly_mul.mp h₁
    obtain ⟨team, hteam, _, h₃, rfl⟩ := Language.mem_mul.mp h₂
    obtain ⟨_, h₄, rfl⟩ := mem_exactly_mul.mp h₃
    obtain ⟨_, h₅, rfl⟩ := mem_exactly_mul.mp h₄
    obtain ⟨bot, hbot, _, h₆, rfl⟩ := Language.mem_mul.mp h₅
    obtain ⟨token, htoken, rfl⟩ := mem_exactly_mul.mp h₆
    exact ⟨team, bot, token, hteam, hbot, htoken, rfl⟩
  · rintro ⟨team, bot, token, hteam, hbot, htoken, rfl⟩
    exact Language.append_mem_mul rfl (Language.append_mem_mul (a := ['T']) rfl
      (Language.append_mem_mul hteam (Language.append_mem_mul (a := ['/']) rfl
        (Language.append_mem_mul (a := ['B']) rfl (Language.append_mem_mul hbot
          (Language.append_mem_mul (a := ['/']) rfl htoken))))))

theorem isChatPart_iff {mark : Char} :
    isChatPart mark cs = true ↔ ∃ part ∈ chatPart, cs = mark :: part := by
  unfold isChatPart
  cases cs with
  | nil => simp
  | cons c cs =>
      dsimp only
      rw [Bool.and_eq_true, beq_iff_eq, isSome_iff]
      constructor
      · rintro ⟨rfl, h⟩
        exact ⟨cs, h, rfl⟩
      · rintro ⟨part, hpart, h⟩
        obtain ⟨rfl, rfl⟩ := List.cons.inj h
        exact ⟨rfl, hpart⟩

theorem avoids_chat : Avoids Text.isLineEnd chat := by
  have hpart : Avoids Text.isLineEnd chatPart := .rows (isLineEnd_eq_false (by decide)) _
  exact .mul (.exactly (by decide)) (.mul (.exactly (by decide)) (.mul hpart
    (.mul (.exactly (by decide)) (.mul (.exactly (by decide)) (.mul hpart
      (.mul (.exactly (by decide)) (.rows (isLineEnd_eq_false (by decide)) _)))))))

/-- The check of an address of the chat service reads the grammar. -/
theorem isChat_iff : isChat s = true ↔ s.toList ∈ chat * ending := by
  rw [mem_mul_ending (avoids_chat.getLast?_ne rfl), mem_chat_iff]
  unfold isChat
  generalize dropBreak s = cs
  constructor
  · intro h
    split at h
    · rename_i rest hlead
      obtain rfl := dropLead?_eq_some_iff.mp hlead
      split at h
      · rename_i first second token hpieces
        rw [Bool.and_eq_true, Bool.and_eq_true, isChatPart_iff, isChatPart_iff, isSome_iff] at h
        obtain ⟨⟨⟨team, hteam, rfl⟩, bot, hbot, rfl⟩, htoken⟩ := h
        obtain ⟨-, ⟨hnil, -⟩ | ⟨tail, rfl, htail⟩⟩ := pieces_eq_cons hpieces
        · cases hnil
        · obtain ⟨rfl, -, -⟩ := pieces_eq_pair_iff.mp htail
          exact ⟨team, bot, token, hteam, hbot, htoken, rfl⟩
      · cases h
    · cases h
  · rintro ⟨team, bot, token, hteam, hbot, htoken, rfl⟩
    have hpart (mark : Char) (hmark : '/' ≠ mark) (part : List Char) (h : part ∈ chatPart) :
        '/' ∉ mark :: part :=
      List.not_mem_cons_of_ne_of_not_mem hmark (not_mem_of_mem_rows (by decide) h)
    have hpieces : pieces '/' (('T' :: team) ++ '/' :: (('B' :: bot) ++ '/' :: token))
        = ['T' :: team, 'B' :: bot, token] := by
      rw [pieces_append (hpart 'T' (by decide) team hteam),
        pieces_append (hpart 'B' (by decide) bot hbot),
        pieces_of_not_mem (not_mem_of_mem_rows (by decide) htoken)]
    rw [dropLead?_eq_some_iff.mpr rfl]
    dsimp only
    rw [hpieces]
    dsimp only
    rw [Bool.and_eq_true, Bool.and_eq_true, isChatPart_iff, isChatPart_iff, isSome_iff]
    exact ⟨⟨⟨team, hteam, rfl⟩, bot, hbot, rfl⟩, htoken⟩

/-! ## What the channels take -/

/-- The form of the addresses of a channel, where there is one. -/
def form : Channel → Language Char
  | .email => mail
  | .sms => number Text.isDigit
  | .webhook => web
  | .slack => chat
  | _ => 0

variable {c : Channel}

theorem takes_iff : c.takes s = true ↔ s.toList ∈ form c * ending := by
  have hnone : s.toList ∉ (0 : Language Char) * ending := by
    rw [zero_mul]
    exact Language.notMem_zero _
  cases c with
  | email => exact isMail_iff
  | sms => exact isPhone_iff
  | webhook => exact isWeb_iff
  | slack => exact isChat_iff
  | push => exact iff_of_false Bool.false_ne_true hnone
  | teams => exact iff_of_false Bool.false_ne_true hnone
  | phone => exact iff_of_false Bool.false_ne_true hnone

/-- Only the path of an address on the web may hold an end of a line. -/
theorem avoids_form_of_ne (hc : c ≠ .webhook) : Avoids Text.isLineEnd (form c) := by
  cases c with
  | email => exact avoids_mail
  | sms => exact avoids_number
  | webhook => exact absurd rfl hc
  | slack => exact avoids_chat
  | push => exact fun w hw => absurd hw (Language.notMem_zero w)
  | teams => exact fun w hw => absurd hw (Language.notMem_zero w)
  | phone => exact fun w hw => absurd hw (Language.notMem_zero w)

theorem avoids_form (c : Channel) : Avoids (· == '\n') (form c) := by
  by_cases hc : c = .webhook
  · rw [hc]
    exact avoids_web
  · exact (avoids_form_of_ne hc).break

theorem takes_iff_dropBreak : c.takes s = true ↔ dropBreak s ∈ form c :=
  takes_iff.trans (mem_mul_ending ((avoids_form c).getLast?_ne (beq_self_eq_true _)))

/-- A line feed at the end makes no difference. -/
theorem takes_append_break (h : '\n' ∉ s.toList) : c.takes (s ++ "\n") = c.takes s := by
  rw [Bool.eq_iff_iff, takes_iff_dropBreak, takes_iff_dropBreak,
    dropBreak_of_eq_concat String.toList_append,
    dropBreak_of_getLast?_ne fun hlast => h (List.mem_of_getLast? hlast)]

/-- A line feed in what is taken ends it. -/
theorem exists_append_break (htakes : c.takes s = true) (h : '\n' ∈ s.toList) :
    ∃ t, s = t ++ "\n" ∧ '\n' ∉ t.toList := by
  obtain ⟨w, hw, e, he, hs⟩ := Language.mem_mul.mp (takes_iff.mp htakes)
  have hnot : '\n' ∉ w := (avoids_form c).not_mem hw
  rcases mem_maybe.mp he with rfl | rfl
  · rw [← hs, List.append_nil] at h
    exact absurd h hnot
  · refine ⟨String.ofList w, ?_, ?_⟩
    · rw [← String.toList_inj, String.toList_append, String.toList_ofList, hs]
    · rw [String.toList_ofList]
      exact hnot

/-- A number of E.164: an optional plus sign and seven to fifteen of the ten Arabic digits, the
first of which is not zero. -/
def e164 : Language Char :=
  number Char.isDigit

theorem isDigit_of_arabic {x : Char} (h : x.isDigit = true) : Text.isDigit x = true := by
  unfold Char.isDigit at h
  rw [Bool.and_eq_true, decide_eq_true_iff, decide_eq_true_iff] at h
  unfold Text.isDigit Text.digitValue?
  rw [Option.isSome_map, List.find?_isSome]
  refine ⟨0x30, List.mem_cons_self, ?_⟩
  rw [Bool.and_eq_true, decide_eq_true_iff, decide_eq_true_iff]
  exact ⟨UInt32.le_iff_toNat_le.mp h.1, Nat.lt_succ_of_le (UInt32.le_iff_toNat_le.mp h.2)⟩

theorem arabic_of_isLead {x : Char} (h : isLead x = true) : x.isDigit = true := by
  unfold isLead at h
  rw [Bool.and_eq_true, decide_eq_true_iff, decide_eq_true_iff] at h
  unfold Char.isDigit
  rw [Bool.and_eq_true, decide_eq_true_iff, decide_eq_true_iff]
  exact ⟨UInt32.le_trans (by decide) h.1, h.2⟩

/-- A number of E.164 is a text that is taken, without a line feed and with Arabic digits only. -/
theorem mem_e164_iff : s.toList ∈ e164 ↔ Channel.sms.takes s = true ∧ '\n' ∉ s.toList
    ∧ ∀ x ∈ s.toList, Text.isDigit x = true → x.isDigit = true := by
  rw [takes_iff]
  constructor
  · intro h
    obtain ⟨sign, d, ds, hsign, hd, hds, hs⟩ := mem_number_iff.mp h
    have hmem : s.toList ∈ number Text.isDigit := mem_number_iff.mpr
      ⟨sign, d, ds, hsign, hd, ⟨hds.1, fun x hx => isDigit_of_arabic (hds.2 x hx)⟩, hs⟩
    refine ⟨?_, avoids_number.break.not_mem hmem, ?_⟩
    · rw [← List.append_nil s.toList]
      exact Language.append_mem_mul hmem (mem_maybe.mpr (.inl rfl))
    · intro x hx hdigit
      rw [hs, List.mem_append, List.mem_cons] at hx
      rcases hx with hx | rfl | hx
      · rcases hsign with rfl | rfl
        · exact absurd hx List.not_mem_nil
        · rw [List.mem_singleton.mp hx] at hdigit
          exact absurd hdigit (by decide +kernel)
      · exact arabic_of_isLead hd
      · exact hds.2 x hx
  · rintro ⟨h, hbreak, harabic⟩
    obtain ⟨w, hw, e, he, hs⟩ := Language.mem_mul.mp h
    rcases mem_maybe.mp he with rfl | rfl
    · rw [List.append_nil] at hs
      obtain ⟨sign, d, ds, hsign, hd, hds, hw⟩ := mem_number_iff.mp hw
      refine mem_number_iff.mpr ⟨sign, d, ds, hsign, hd, ⟨hds.1, fun x hx => ?_⟩, hs ▸ hw⟩
      refine harabic x ?_ (hds.2 x hx)
      rw [← hs, hw]
      exact List.mem_append_right _ (List.mem_cons_of_mem d hx)
    · rw [← hs] at hbreak
      exact absurd (List.mem_append_right w (List.mem_singleton_self '\n')) hbreak

/-- An end of a line in what is taken is a line feed, or stands in the path. -/
theorem exists_path (h : Channel.webhook.takes s = true) : ∃ front rest, s.toList = front ++ rest
    ∧ (∀ x ∈ front, Text.isLineEnd x = false) ∧ rest ∈ maybe path * ending := by
  obtain ⟨_, hw, e, he, hs⟩ := Language.mem_mul.mp (takes_iff.mp h)
  obtain ⟨lead, hlead, _, hrest, rfl⟩ := Language.mem_mul.mp hw
  rw [← mul_assoc] at hrest
  obtain ⟨name, hname, tail, htail, rfl⟩ := Language.mem_mul.mp hrest
  refine ⟨lead ++ name, tail ++ e, ?_, ?_, Language.append_mem_mul htail he⟩
  · rw [← hs, List.append_assoc, List.append_assoc, List.append_assoc]
  · intro x hx
    rcases List.mem_append.mp hx with hx | hx
    · exact avoids_scheme lead hlead x hx
    · exact avoids_name name hname x hx

/-- **What the channels take for an address.** Each channel takes the texts of its grammar, with a
line feed behind them or without one. The numbers of E.164 are the texts that are taken for a
number and hold neither a line feed nor a digit of another script. A line feed in what is taken is
its last character, and it makes no difference there; other ends of lines are only taken in the
path of an address on the web. -/
theorem takes_forms (s : String) :
    (∀ c : Channel, c.takes s = true ↔ s.toList ∈ form c * ending) ∧
    (s.toList ∈ e164 ↔ Channel.sms.takes s = true ∧ '\n' ∉ s.toList
      ∧ ∀ x ∈ s.toList, Text.isDigit x = true → x.isDigit = true) ∧
    (∀ c : Channel, c.takes s = true → '\n' ∈ s.toList →
      ∃ t, s = t ++ "\n" ∧ '\n' ∉ t.toList ∧ c.takes t = true) ∧
    (∀ c : Channel, '\n' ∉ s.toList → c.takes (s ++ "\n") = c.takes s) ∧
    (∀ c : Channel, c ≠ .webhook → c.takes s = true →
      ∀ x ∈ s.toList, Text.isLineEnd x = true → x = '\n') ∧
    (Channel.webhook.takes s = true → ∃ front rest, s.toList = front ++ rest
      ∧ (∀ x ∈ front, Text.isLineEnd x = false) ∧ rest ∈ maybe path * ending) := by
  refine ⟨fun c => takes_iff, mem_e164_iff, fun c htakes h => ?_, fun c => takes_append_break,
    fun c hc htakes x hx hend => ?_, exists_path⟩
  · obtain ⟨t, rfl, ht⟩ := exists_append_break htakes h
    exact ⟨t, rfl, ht, takes_append_break ht ▸ htakes⟩
  · obtain ⟨w, hw, e, he, hs⟩ := Language.mem_mul.mp (takes_iff.mp htakes)
    rw [← hs, List.mem_append] at hx
    rcases hx with hx | hx
    · exact absurd ((avoids_form_of_ne hc w hw x hx).symm.trans hend) Bool.false_ne_true
    · rcases mem_maybe.mp he with rfl | rfl
      · exact absurd hx List.not_mem_nil
      · exact List.mem_singleton.mp hx

/-- Digits of another script are taken for a number, and a break of line is taken at the end of
every address, and within the path of one on the web. -/
theorem takes_beyond_e164 :
    (Channel.sms.takes "1\u0662\u0663\u0664\u0665\u0666\u0667" = true
      ∧ "1\u0662\u0663\u0664\u0665\u0666\u0667".toList ∉ e164) ∧
    (Channel.sms.takes "1234567\n" = true ∧ "1234567\n".toList ∉ e164) ∧
    Channel.email.takes "a@b.cd\n" = true ∧ Channel.webhook.takes "http://a\n" = true ∧
    Channel.webhook.takes "http://a/\rb" = true := by
  refine ⟨⟨by decide +kernel, fun h => ?_⟩, ⟨by decide +kernel, fun h => ?_⟩, by decide +kernel,
    by decide +kernel, by decide +kernel⟩
  · exact absurd ((mem_e164_iff.mp h).2.2 '\u0662' (by decide) (by decide +kernel)) (by decide)
  · exact (mem_e164_iff.mp h).2.1 (by decide)

end Address

end BuildingAlerts
