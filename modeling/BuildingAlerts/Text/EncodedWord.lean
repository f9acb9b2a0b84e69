/-
Encoded words.

A header of a mail holds ASCII only. Other text stands in it as words that name a character set
and one of two forms, and then give the octets: either each unusual octet by its number, or all
of them in base 64. Blanks between two encoded words are no part of the text.
-/
import BuildingAlerts.Text.Blank
import BuildingAlerts.Text.Octets

set_option autoImplicit false

namespace BuildingAlerts

/-- Why a header with encoded words cannot be read. -/
inductive EncodingFlaw where
  /-- A word is no base 64. -/
  | base64
  /-- A character set that is not known. -/
  | characterSet (name : String)
  /-- Octets that are no text. -/
  | octets (flaw : OctetFlaw)
deriving DecidableEq

/-- A stretch of a header: bare text, or an encoded word. -/
structure HeaderPiece where
  /-- The character set and whether the word is in base 64. -/
  encoding : Option (List Char × Bool)
  text : List Char

namespace EncodedWord

open BuildingAlerts.Text

/-! ## Finding words -/

/-- The text up to the end mark of a word, and what stands behind the mark. -/
def upToEnd? : List Char → Option (List Char × List Char)
  | '?' :: '=' :: rest => some ([], rest)
  | c :: rest => (upToEnd? rest).map fun (t, r) => (c :: t, r)
  | [] => none

/-- The word behind the mark that begins one, and what stands behind the word. -/
def word? (cs : List Char) : Option (HeaderPiece × List Char) :=
  let name := cs.takeWhile (· != '?')
  match cs.drop name.length with
  | '?' :: form :: '?' :: rest =>
    if "qQbB".toList.contains form then
      (upToEnd? rest).map fun (t, r) =>
        (⟨some (name.map Char.toLower, form == 'b' || form == 'B'), t⟩, r)
    else none
  | _ => none

/-- Bare text in front of pieces. -/
def bare (text : List Char) (ps : List HeaderPiece) : List HeaderPiece :=
  ⟨none, text⟩ :: ps

/-- The pieces of a header: bare text, also where it is empty, before, between and behind the
words. There are at most as many steps as characters. -/
def piecesWithin : Nat → List Char → List Char → List HeaderPiece
  | fuel + 1, before, '=' :: '?' :: cs =>
    match word? cs with
    | some (w, rest) => bare before.reverse (w :: piecesWithin fuel [] rest)
    | none => piecesWithin fuel ('=' :: before) ('?' :: cs)
  | fuel + 1, before, c :: cs => piecesWithin fuel (c :: before) cs
  | _, before, _ => bare before.reverse []

/-- Whether a piece is an encoded word. -/
def isWord (p : HeaderPiece) : Bool :=
  p.encoding.isSome

/-- Whether a piece is not empty and all blank. -/
def isGap (p : HeaderPiece) : Bool :=
  !p.text.isEmpty && p.text.all isBlank

/-- Leaves out the blanks between two encoded words, given the piece before the first. -/
def dropGaps (before : Option HeaderPiece) : List HeaderPiece → List HeaderPiece
  | p :: q :: rest =>
    let kept := dropGaps (some p) (q :: rest)
    if before.any isWord && isGap p && isWord q then kept else p :: kept
  | ps => ps

/-- The pieces of a header that count. Blanks at its start are left out. -/
def pieces (cs : List Char) : List HeaderPiece :=
  match piecesWithin cs.length [] cs with
  | [] => []
  | p :: ps =>
    dropGaps none (({ p with text := p.text.dropWhile isBlank } :: ps).filter fun p =>
      isWord p || !p.text.isEmpty)

/-! ## The octets of words -/

/-- The value of a hexadecimal digit. -/
def hexValue? (c : Char) : Option Nat :=
  if c.isDigit then some (c.toNat - 0x30)
  else if 'a' ≤ c && c ≤ 'f' then some (c.toNat - 0x57)
  else if 'A' ≤ c && c ≤ 'F' then some (c.toNat - 0x37)
  else none

/-- The octets of a word that gives the unusual ones by their numbers. -/
def quotedOctets : List Char → List Nat
  | '=' :: a :: b :: cs =>
    match hexValue? a, hexValue? b with
    | some x, some y => (16 * x + y) :: quotedOctets cs
    | _, _ => 0x3d :: quotedOctets (a :: b :: cs)
  | c :: cs => (if c == '_' then 0x20 else c.toNat) :: quotedOctets cs
  | [] => []

/-- The value of a digit of base 64. -/
def base64Value? (c : Char) : Option Nat :=
  if c.isUpper then some (c.toNat - 0x41)
  else if c.isLower then some (c.toNat - 0x61 + 26)
  else if c.isDigit then some (c.toNat - 0x30 + 52)
  else if c == '+' then some 62
  else if c == '/' then some 63
  else none

/-- The octets of a text in base 64, with `held` the value of the `count` digits of the last
group and `pads` the padding behind them. Other characters are passed over; a group that is
filled up ends the text. -/
def base64From (held count pads : Nat) : List Char → Option (List Nat)
  | [] => if count = 0 then some [] else none
  | c :: cs =>
    if c == '=' then
      if 2 ≤ count then
        if 4 ≤ count + pads + 1 then some [] else base64From held count (pads + 1) cs
      else base64From held count pads cs
    else match base64Value? c with
      | none => base64From held count pads cs
      | some v =>
        match count with
        | 0 => base64From v 1 0 cs
        | 1 => (base64From (v % 16) 2 0 cs).map ((held * 4 + v / 16) :: ·)
        | 2 => (base64From (v % 4) 3 0 cs).map ((held * 16 + v / 4) :: ·)
        | _ => (base64From 0 0 0 cs).map ((held * 64 + v) :: ·)

/-- The octets of a word in base 64. Missing padding is added. -/
def base64Octets? (cs : List Char) : Option (List Nat) :=
  base64From 0 0 0 (cs ++ List.replicate ((4 - cs.length % 4) % 4) '=')

/-- The octets of a piece, with its character set if it is an encoded word. -/
def octets (p : HeaderPiece) : Except EncodingFlaw (List Nat × Option (List Char)) :=
  match p.encoding with
  | none => .ok (p.text.map Char.toNat, none)
  | some (name, false) => .ok (quotedOctets p.text, some name)
  | some (name, true) =>
    match base64Octets? p.text with
    | some bs => .ok (bs, some name)
    | none => .error .base64

/-! ## Putting the text together -/

/-- Octets that are followed by others of the same set; bare text is set off by a blank. -/
def joinOctets : List (List Nat × Option (List Char)) → List (List Nat × Option (List Char))
  | [] => []
  | (bs, name) :: rest =>
    match joinOctets rest with
    | (cs, other) :: more =>
      if name = other then (bs ++ (if name.isNone then [0x20] else []) ++ cs, name) :: more
      else (bs, name) :: (cs, other) :: more
    | [] => [(bs, name)]

/-- The name that a set goes by among those of the headers. -/
def knownName (name : Option (List Char)) : String :=
  match name.map String.ofList with
  | none | some "ascii" => "us-ascii"
  | some "latin_1" | some "latin-1" => "iso-8859-1"
  | some n => n

/-- The text of some octets, with the name of their set. -/
def decode (p : List Nat × Option (List Char)) : Except EncodingFlaw (List Char × String) :=
  let name := knownName p.2
  match CharacterSet.ofName? name.toList with
  | none => .error (.characterSet name)
  | some s => ((s.read p.1).mapError .octets).map fun cs => (cs, name)

/-- Texts of one set that follow each other are set off by a blank. -/
def joinTexts : List (List Char × String) → List (List Char × String)
  | [] => []
  | (cs, name) :: rest =>
    match joinTexts rest with
    | (ds, other) :: more =>
      if name = other then (cs ++ ' ' :: ds, name) :: more else (cs, name) :: (ds, other) :: more
    | [] => [(cs, name)]

/-- Whether a character sets off a word by itself. -/
def setsOff (c : Option Char) : Bool :=
  c.any fun c => isBlank c || c == '(' || c == ')' || c == '\\'

/-- Whether a text is bare. -/
def isBare (name : String) : Bool :=
  name == "us-ascii"

/-- The texts behind one another, with a blank where bare text meets a word that nothing else
sets off. `before` is the text before, whether it was bare, and its last character. -/
def assemble (before : Option (Bool × Option Char)) : List (List Char × String) → List Char
  | [] => []
  | (cs, name) :: rest =>
    let gap := match before with
      | none => false
      | some (false, _) => isBare name && !setsOff cs.head?
      | some (true, last) => !isBare name && !setsOff last
    (if gap then [' '] else []) ++ cs ++ assemble (some (isBare name, cs.getLast?)) rest

/-- The text of a header that may hold encoded words. -/
def read (cs : List Char) : Except EncodingFlaw (List Char) := do
  let ps := pieces cs
  if ps.any isWord then
    let texts ← (joinOctets (← ps.mapM octets)).mapM decode
    return assemble none (joinTexts texts)
  else return cs

end EncodedWord

end BuildingAlerts
