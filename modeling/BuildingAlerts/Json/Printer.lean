/-
Writing documents.

Text is written in ASCII: what lies outside is escaped in units of sixteen bits. A document
stands on one line, or one value to a line with each level indented.
-/
import BuildingAlerts.Json.Basic
import BuildingAlerts.Text.Quoted

set_option autoImplicit false

namespace BuildingAlerts.Json

open BuildingAlerts.Text

/-- One unit of sixteen bits as an escape. -/
def escapeUnit (n : Nat) : List Char :=
  '\\' :: 'u' :: hexDigits 4 n

/-- One character of a text. -/
def escapeChar (c : Char) : List Char :=
  if c == '"' || c == '\\' then ['\\', c]
  else if c == '\n' then ['\\', 'n']
  else if c == '\r' then ['\\', 'r']
  else if c == '\t' then ['\\', 't']
  else if c.toNat == 8 then ['\\', 'b']
  else if c.toNat == 12 then ['\\', 'f']
  else if 0x20 ≤ c.toNat && c.toNat < 0x7f then [c]
  else if c.toNat < 0x10000 then escapeUnit c.toNat
  else
    let n := c.toNat - 0x10000
    escapeUnit (0xd800 + n / 1024) ++ escapeUnit (0xdc00 + n % 1024)

/-- A text between double quotes. -/
def writeText (s : String) : String :=
  String.ofList ('"' :: s.toList.flatMap escapeChar ++ ['"'])

/-- A number with the digits of its kind. -/
def writeNumber : Number → String
  | .whole n => toString n
  | .real x => Decimal.document.write x

/-- Where the parts of a document are broken. -/
structure Style where
  /-- The indentation of one level; none for a document on one line. -/
  step : Option Nat

/-- Everything on one line. -/
def Style.line : Style := ⟨none⟩

/-- Two spaces for each level. -/
def Style.block : Style := ⟨some 2⟩

/-- What stands before an item at a depth. -/
def Style.lead (s : Style) (depth : Nat) : String :=
  match s.step with
  | none => ""
  | some k => "\n" ++ String.ofList (List.replicate (k * depth) ' ')

/-- What stands between two items. -/
def Style.gap (s : Style) : String :=
  if s.step.isSome then "," else ", "

/-- Items between brackets at a depth. -/
def Style.enclose (s : Style) (depth : Nat) (opening closing : String) (items : List String) :
    String :=
  match items with
  | [] => opening ++ closing
  | first :: rest =>
    let lead := s.lead (depth + 1)
    let body := rest.foldl (fun acc i => acc ++ s.gap ++ lead ++ i) (opening ++ lead ++ first)
    body ++ s.lead depth ++ closing

mutual

/-- Writes a value that stands at a depth. -/
def writeAt (s : Style) (depth : Nat) : Json → String
  | .null => "null"
  | .bool b => if b then "true" else "false"
  | .number n => writeNumber n
  | .text t => writeText t
  | .list items => s.enclose depth "[" "]" (writeItems s (depth + 1) items)
  | .object ms => s.enclose depth "\x7b" "\x7d" (writeMembers s (depth + 1) ms)

/-- Writes the items of a list. -/
def writeItems (s : Style) (depth : Nat) : List Json → List String
  | [] => []
  | v :: vs => writeAt s depth v :: writeItems s depth vs

/-- Writes the members of an object. -/
def writeMembers (s : Style) (depth : Nat) : List (String × Json) → List String
  | [] => []
  | (k, v) :: ms => (writeText k ++ ": " ++ writeAt s depth v) :: writeMembers s depth ms

end

/-- A document on one line. -/
def write (v : Json) : String :=
  writeAt Style.line 0 v

/-- A document with one value to a line. -/
def writeBlock (v : Json) : String :=
  writeAt Style.block 0 v

end BuildingAlerts.Json
