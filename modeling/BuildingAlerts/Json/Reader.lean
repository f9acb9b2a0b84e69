/-
Reading documents.

The grammar is the usual one, with the names of the values that are not finite numbers
beside the numerals. A number with a fraction or a power of ten is a double; any other is
whole. Where an object names a member twice, the later value stands at the earlier place.
-/
import BuildingAlerts.Json.Basic
import BuildingAlerts.Decimal.Numeral

set_option autoImplicit false

namespace BuildingAlerts.Json

open BuildingAlerts.Decimal

/-- Why a text is no document that can be read. The first cause in the text counts. -/
inductive Unreadable where
  /-- It does not follow the grammar. -/
  | form
  /-- A whole number has too many digits. -/
  | digits (count : Nat)
  /-- Too many lists or objects, of which this is one, stand inside each other. -/
  | nesting (isList : Bool)

/-- The value of an option; its absence is a break of the grammar. -/
def orForm {α : Type} : Option α → Except Unreadable α
  | some a => .ok a
  | none => .error .form

/-- How many lists and objects may stand inside each other. -/
def mostNested : Nat := 975

/-- The blanks between the parts of a document. -/
def isGap (c : Char) : Bool :=
  c == ' ' || c == '\n' || c == '\r' || c == '\t'

/-- The rest behind the gap. -/
def skipGap (cs : List Char) : List Char :=
  cs.dropWhile isGap

/-- The value of a hexadecimal digit. -/
def hexValue? (c : Char) : Option Nat :=
  if c.isDigit then some (c.toNat - 48)
  else if 'a' ≤ c && c ≤ 'f' then some (c.toNat - 87)
  else if 'A' ≤ c && c ≤ 'F' then some (c.toNat - 55)
  else none

/-- Four hexadecimal digits and the rest. -/
def readUnit? : List Char → Option (Nat × List Char)
  | a :: b :: c :: d :: cs => do
    let a ← hexValue? a
    let b ← hexValue? b
    let c ← hexValue? c
    let d ← hexValue? d
    some (((a * 16 + b) * 16 + c) * 16 + d, cs)
  | _ => none

/-- The character of an escape after its backslash, and the rest. A pair of surrogates is
one character; a lone one has no character and becomes the replacement character. -/
def readEscape? : List Char → Option (Char × List Char)
  | 'u' :: cs => do
    let (n, rest) ← readUnit? cs
    if 0xd800 ≤ n && n < 0xdc00 then
      match rest with
      | '\\' :: 'u' :: more =>
        match readUnit? more with
        | some (m, after) =>
          if 0xdc00 ≤ m && m < 0xe000 then
            some (Char.ofNat (0x10000 + (n - 0xd800) * 1024 + (m - 0xdc00)), after)
          else some (Char.ofNat 0xfffd, rest)
        | none => some (Char.ofNat 0xfffd, rest)
      | _ => some (Char.ofNat 0xfffd, rest)
    else if 0xdc00 ≤ n && n < 0xe000 then some (Char.ofNat 0xfffd, rest)
    else some (Char.ofNat n, rest)
  | 'n' :: cs => some ('\n', cs)
  | 't' :: cs => some ('\t', cs)
  | 'r' :: cs => some ('\r', cs)
  | 'b' :: cs => some (Char.ofNat 8, cs)
  | 'f' :: cs => some (Char.ofNat 12, cs)
  | '"' :: cs => some ('"', cs)
  | '\\' :: cs => some ('\\', cs)
  | '/' :: cs => some ('/', cs)
  | _ => none

/-- The characters up to the closing quote, which are `done` in reverse, and the rest. Each
round takes at least one character, so the count of those left is fuel enough. -/
def readTextFrom : Nat → List Char → List Char → Option (String × List Char)
  | 0, _, _ => none
  | fuel + 1, done, cs =>
    match cs with
    | [] => none
    | '"' :: rest => some (String.ofList done.reverse, rest)
    | '\\' :: rest => do
      let (c, rest) ← readEscape? rest
      readTextFrom fuel (c :: done) rest
    | c :: rest => if c.toNat < 0x20 then none else readTextFrom fuel (c :: done) rest

/-- A fraction or a power of ten is taken only with a digit of its own. -/
def splitFraction : List Char → List Nat × List Char
  | '.' :: cs =>
    match splitDigits arabicDigit? cs with
    | ([], _) => ([], '.' :: cs)
    | r => r
  | cs => ([], cs)

/-- The power of ten at the front, if there is a whole one, and the rest. -/
def splitPower (cs : List Char) : Option Int × List Char :=
  match cs with
  | c :: rest =>
    if c == 'e' || c == 'E' then
      let s := splitSign rest
      match splitDigits arabicDigit? s.2 with
      | ([], _) => (none, cs)
      | (ds, after) =>
        let n : Int := Text.digitsToNat ds
        (some (if s.1 then -n else n), after)
    else (none, cs)
  | [] => (none, [])

/-- The digits before the point: a zero stands alone. -/
def splitWhole : List Char → List Nat × List Char
  | '0' :: cs => ([0], cs)
  | cs => splitDigits arabicDigit? cs

/-- A numeral without its sign, and the rest. -/
def readNumeral (negative : Bool) (cs : List Char) : Except Unreadable (Number × List Char) :=
  match splitWhole cs with
  | ([], _) => .error .form
  | (ds, rest) =>
    let f := splitFraction rest
    let p := splitPower f.2
    let n := Text.digitsToNat (ds ++ f.1)
    if f.1.isEmpty && p.1.isNone then
      if mostDigits < ds.length then .error (.digits ds.length)
      else .ok (.whole (if negative then -(n : Int) else n), p.2)
    else .ok (.real (ofDecimal negative n (p.1.getD 0 - f.1.length)), p.2)

/-- The rest behind a word that stands in front. -/
def dropWord? (word : String) (cs : List Char) : Option (List Char) :=
  let w := word.toList
  if w.isPrefixOf cs then some (cs.drop w.length) else none

/-- A word with a value of its own, and the rest. -/
def readWord? (cs : List Char) : Option (Json × List Char) :=
  let words : List (String × Json) :=
    [("null", .null), ("true", .bool true), ("false", .bool false), ("NaN", .real (0.0 / 0.0)),
      ("Infinity", .real (1.0 / 0.0)), ("-Infinity", .real (-(1.0 / 0.0)))]
  words.findSome? fun (w, v) => (dropWord? w cs).map fun rest => (v, rest)

/-- What is inside one more list or object, if that is not too many. -/
def inside (depth : Nat) (isList : Bool) : Except Unreadable Nat :=
  if mostNested ≤ depth then .error (.nesting isList) else .ok (depth + 1)

mutual

/-- A value at the front, and the rest. Every call takes at least one character. -/
def readValue (depth : Nat) : Nat → List Char → Except Unreadable (Json × List Char)
  | 0, _ => .error .form
  | fuel + 1, cs =>
    match cs with
    | '"' :: rest => (orForm (readTextFrom fuel [] rest)).map fun (s, r) => (.text s, r)
    | '[' :: rest => do
      let depth ← inside depth true
      match skipGap rest with
      | ']' :: after => .ok (.list [], after)
      | inner => (readItems depth fuel inner).map fun (vs, r) => (.list vs, r)
    | '\x7b' :: rest => do
      let depth ← inside depth false
      match skipGap rest with
      | '\x7d' :: after => .ok (.object [], after)
      | inner =>
        (readMembers depth fuel inner).map fun (ms, r) => (.object (Table.ofList ms).entries, r)
    | cs =>
      match readWord? cs with
      | some r => .ok r
      | none =>
        match cs with
        | '-' :: rest => (readNumeral true rest).map fun (n, r) => (.number n, r)
        | rest => (readNumeral false rest).map fun (n, r) => (.number n, r)

/-- The items of a list after its bracket, and the rest. -/
def readItems (depth : Nat) : Nat → List Char → Except Unreadable (List Json × List Char)
  | 0, _ => .error .form
  | fuel + 1, cs =>
    match readValue depth fuel (skipGap cs) with
    | .error e => .error e
    | .ok (v, rest) =>
      match skipGap rest with
      | ']' :: after => .ok ([v], after)
      | ',' :: more => (readItems depth fuel more).map fun (vs, r) => (v :: vs, r)
      | _ => .error .form

/-- The members of an object after its brace, and the rest. -/
def readMembers (depth : Nat) :
    Nat → List Char → Except Unreadable (List (String × Json) × List Char)
  | 0, _ => .error .form
  | fuel + 1, cs =>
    match skipGap cs with
    | '"' :: named =>
      match readTextFrom (fuel + 1) [] named with
      | none => .error .form
      | some (k, rest) =>
        match skipGap rest with
        | ':' :: valued =>
          match readValue depth fuel (skipGap valued) with
          | .error e => .error e
          | .ok (v, rest) =>
            match skipGap rest with
            | '\x7d' :: after => .ok ([(k, v)], after)
            | ',' :: more => (readMembers depth fuel more).map fun (ms, r) => ((k, v) :: ms, r)
            | _ => .error .form
        | _ => .error .form
    | _ => .error .form

end

/-- A text that holds one document and nothing else. -/
def read (s : String) : Except Unreadable Json :=
  let cs := skipGap s.toList
  match readValue 0 (2 * cs.length + 2) cs with
  | .error e => .error e
  | .ok (v, rest) => if (skipGap rest).isEmpty then .ok v else .error .form

end BuildingAlerts.Json
