/-
Text as octets.

Octets are read as text in one of three character sets. In UTF-8 the first octet of a character
says how many follow it and which the second may be, so that every character has one form only;
where the octets leave that form, the octets from the start of the character on are named.
-/
set_option autoImplicit false

namespace BuildingAlerts

/-- Sets of characters and how they are written in octets. -/
inductive CharacterSet where
  | utf8 | ascii | latin1
deriving DecidableEq

/-- Why octets are no text. -/
inductive OctetFlaw where
  /-- No character of the set has the octet. -/
  | outside (octet place : Nat)
  /-- No character starts with the octet. -/
  | start (octet place : Nat)
  /-- After some octets, which are named by the first one and by their places, no octet that
  goes on. -/
  | continuation (octet first last : Nat)
  /-- The octets end within a character. -/
  | ending (octet first last : Nat)
deriving DecidableEq

namespace OctetFlaw

/-- The octets that are at fault. -/
def range (octet first last : Nat) : String :=
  if first = last then
    "byte 0x" ++ String.ofList (Nat.toDigits 16 octet) ++ " in position " ++ toString first
  else "bytes in position " ++ toString first ++ "-" ++ toString last

/-- The wording of a flaw. -/
def message : OctetFlaw → String
  | .outside octet place =>
    "'ascii' codec can't decode " ++ range octet place place ++ ": ordinal not in range(128)"
  | .start octet place =>
    "'utf-8' codec can't decode " ++ range octet place place ++ ": invalid start byte"
  | .continuation octet first last =>
    "'utf-8' codec can't decode " ++ range octet first last ++ ": invalid continuation byte"
  | .ending octet first last =>
    "'utf-8' codec can't decode " ++ range octet first last ++ ": unexpected end of data"

end OctetFlaw

namespace Utf8

/-- A character of which some octets have been read. -/
structure Partial where
  /-- The first octet and its place. -/
  octet : Nat
  first : Nat
  /-- The value of the octets so far. -/
  value : Nat
  /-- How many octets are missing. -/
  missing : Nat
  /-- The least and the greatest octet that may come next. -/
  low : Nat
  high : Nat

/-- What an octet begins: how much of it counts, how many octets follow, and the bounds of the
first of them. -/
def opening? (b : Nat) : Option (Nat × Nat × Nat × Nat) :=
  if b < 0x80 then some (b, 0, 0, 0)
  else if b < 0xc2 then none
  else if b < 0xe0 then some (b - 0xc0, 1, 0x80, 0xbf)
  else if b < 0xf0 then
    some (b - 0xe0, 2, if b = 0xe0 then 0xa0 else 0x80, if b = 0xed then 0x9f else 0xbf)
  else if b < 0xf5 then
    some (b - 0xf0, 3, if b = 0xf0 then 0x90 else 0x80, if b = 0xf4 then 0x8f else 0xbf)
  else none

/-- Reads octets from a place on, in the middle of a character or between two. -/
def readFrom (place : Nat) (p : Option Partial) : List Nat → Except OctetFlaw (List Char)
  | [] =>
    match p with
    | none => .ok []
    | some p => .error (.ending p.octet p.first (place - 1))
  | b :: bs =>
    match p with
    | none =>
      match opening? b with
      | none => .error (.start b place)
      | some (value, 0, _, _) => (readFrom (place + 1) none bs).map (Char.ofNat value :: ·)
      | some (value, n, low, high) => readFrom (place + 1) (some ⟨b, place, value, n, low, high⟩) bs
    | some p =>
      if p.low ≤ b ∧ b ≤ p.high then
        let value := p.value * 64 + (b - 0x80)
        if p.missing = 1 then (readFrom (place + 1) none bs).map (Char.ofNat value :: ·)
        else
          readFrom (place + 1)
            (some { p with value := value, missing := p.missing - 1, low := 0x80, high := 0xbf }) bs
      else .error (.continuation p.octet p.first (place - 1))

end Utf8

namespace CharacterSet

/-- Reads octets of the ASCII set from a place on. -/
def readAscii (place : Nat) : List Nat → Except OctetFlaw (List Char)
  | [] => .ok []
  | b :: bs =>
    if b < 0x80 then (readAscii (place + 1) bs).map (Char.ofNat b :: ·)
    else .error (.outside b place)

/-- The text that octets stand for. -/
def read : CharacterSet → List Nat → Except OctetFlaw (List Char)
  | .utf8, bs => Utf8.readFrom 0 none bs
  | .ascii, bs => readAscii 0 bs
  | .latin1, bs => .ok (bs.map Char.ofNat)

/-- The names of the sets, in small letters with an underscore for each row of other signs. -/
def names : CharacterSet → List String
  | .utf8 => ["utf_8", "utf8", "utf", "u8", "utf8_ucs2", "utf8_ucs4", "cp65001"]
  | .ascii => ["ascii", "us_ascii", "us", "646", "iso646_us", "iso_646.irv_1991", "iso_ir_6",
      "ansi_x3.4_1968", "ansi_x3_4_1968", "ansi_x3.4_1986", "cp367", "ibm367", "csascii"]
  | .latin1 => ["latin_1", "latin1", "latin", "l1", "iso_8859_1", "iso8859_1", "iso8859", "8859",
      "iso_8859_1_1987", "iso_ir_100", "cp819", "ibm819", "csisolatin1"]

/-- A name with an underscore for each row of signs other than letters, digits and points; at
the two ends there is none. -/
def plainName (name : List Char) : List Char :=
  let isPlain (c : Char) : Bool := c.isAlphanum || c == '.'
  let step (c : Char) (rest : List Char) : List Char :=
    if isPlain c then c.toLower :: rest
    else match rest with
      | [] | '_' :: _ => rest
      | _ => '_' :: rest
  match name.foldr step [] with
  | '_' :: rest => rest
  | cs => cs

/-- The set of a name. A set without a name is ASCII. -/
def ofName? (name : List Char) : Option CharacterSet :=
  if name.isEmpty then some .ascii
  else
    let plain := String.ofList (plainName name)
    [CharacterSet.utf8, .ascii, .latin1].find? fun s => s.names.contains plain

end CharacterSet

end BuildingAlerts
