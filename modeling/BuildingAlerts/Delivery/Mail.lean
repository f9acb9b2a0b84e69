/-
Mails.

A mail has headers and parts. What the receiver reads is not always what was put in: a header is
written on lines that only go on behind a blank, it holds ASCII or else encoded words, and words
that look encoded are read as such. A value that would break out of its header is refused.
-/
import BuildingAlerts.Fault
import BuildingAlerts.Json.Basic
import BuildingAlerts.Text.Blank

set_option autoImplicit false

namespace BuildingAlerts

/-- A mail as its receiver reads it. -/
structure Mail where
  headers : List (String × String)
  /-- The parts by their kinds. -/
  parts : List (String × String)

namespace Mail

open BuildingAlerts.Text

/-- The blanks behind which a header goes on. -/
def isFold (c : Char) : Bool :=
  c == ' ' || c == '\t'

/-- Whether a text is ASCII only. -/
def isAscii (cs : List Char) : Bool :=
  cs.all fun c => c.toNat < 0x80

/-! ## Headers of ASCII -/

/-- A line without the blank at its end, if that stands alone. -/
def dropLoneBlank (line : List Char) : List Char :=
  match line.reverse with
  | [' '] => []
  | ' ' :: c :: rest => if isFold c then line else (c :: rest).reverse
  | _ => line

/-- Adds a line to the written ones. Nothing is written for an empty line, and blanks alone go
to the line before. -/
def addLine (written : List (List Char)) (line : List Char) : List (List Char) :=
  if line.isEmpty then written
  else if line.all isBlank then
    match written.reverse with
    | [] => [line]
    | l :: ls => ls.reverse ++ [l ++ line]
  else written ++ [line]

/-- The lines on which a value is written. -/
def written (value : List Char) : List (List Char) :=
  match lines value with
  | [] => [[]]
  | [line] => [line]
  | line :: rest => (rest.map dropLoneBlank).foldl addLine [dropLoneBlank line]

/-- The written lines as one text. -/
def joined (ls : List (List Char)) : List Char :=
  ['\n'].intercalate ls

/-- Whether a line feed is followed by what looks like the name of a header: anything without a
blank, and a colon. -/
def hasStrayName : List Char → Bool
  | [] => false
  | c :: cs =>
    (c == '\n' && ((cs.takeWhile fun d => !isFold d).drop 1).contains ':') || hasStrayName cs

/-- Whether a line does not go on behind a blank. -/
def isLoose (line : List Char) : Bool :=
  !line.head?.any isFold

/-- The lines of a value of ASCII in a header of a name. -/
def writeAscii (name : String) (value : List Char) : Except Fault (List (List Char)) :=
  let ls := written value
  let text := joined ls
  if hasStrayName text then .error (.header (.stray (quoted (String.ofList text))))
  else if (ls.drop 1).any isLoose then
    .error (.header (.broken (quoted (name ++ ": " ++ String.ofList text ++ "\n"))))
  else .ok ls

/-- What the receiver reads on the lines of a header. Blanks at the start of the first are no
part of it. -/
def readAscii (ls : List (List Char)) : Except Fault (List Char) :=
  let text := match ls with
    | [] => []
    | line :: rest => line.dropWhile isFold ++ rest.flatten
  (EncodedWord.read text).mapError fun f => .header (.encoding f)

/-! ## All headers -/

/-- A header on its way. -/
inductive Written where
  /-- ASCII, on lines. -/
  | ascii (lines : List (List Char))
  /-- Other text, line by line in encoded words. -/
  | encoded (lines : List (List Char))

/-- Writes a header of a name. Only texts can be written. -/
def write (name : String) : Json → Except Fault Written
  | .text s =>
    let value := s.toList
    if isAscii value then .ascii <$> writeAscii name value else .ok (.encoded (lines value))
  | _ => .error .noPart

/-- What the receiver reads of a header. Of the blanks at the start of each line after the first
a single one is kept. -/
def Written.read : Written → Except Fault (List Char)
  | .ascii ls => readAscii ls
  | .encoded [] => .ok []
  | .encoded (line :: rest) =>
    .ok (line ++ rest.flatMap fun l => ' ' :: l.dropWhile isBlank)

/-- What the receiver reads of a part. Other text than ASCII is sent as octets and keeps the ends
of its lines. -/
def readPart (s : String) : String :=
  if isAscii s.toList then String.ofList (lineFeeds s.toList) else s

/-- The mail as it is read, if all its headers can be written. -/
def ofParts (headers : List (String × Json)) (parts : List (String × String)) :
    Except Fault Mail := do
  let written ← headers.mapM fun (name, v) => do return (name, ← write name v)
  let hs ← written.mapM fun (name, w) => do return (name, String.ofList (← w.read))
  return ⟨hs, parts.map fun (kind, s) => (kind, readPart s)⟩

end Mail

end BuildingAlerts
