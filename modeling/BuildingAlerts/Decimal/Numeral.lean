/-
Numbers written as text.

Two grammars read numbers. Values that are compared as text may use the digits of any
script; fields of a document may use only the ten Arabic digits. Both allow blanks around
the number and one underscore between two digits.
-/
import BuildingAlerts.Decimal.Layout
import BuildingAlerts.Text.Blank

set_option autoImplicit false

namespace BuildingAlerts.Decimal

open BuildingAlerts.Text

/-- The value of one of the ten Arabic digits. -/
def arabicDigit? (c : Char) : Option Nat :=
  if c.isDigit then some (c.toNat - 48) else none

/-- A sign in front of the rest. -/
def splitSign : List Char → Bool × List Char
  | '-' :: cs => (true, cs)
  | '+' :: cs => (false, cs)
  | cs => (false, cs)

/-- The digits at the front, and what follows them. -/
def splitDigits (digit? : Char → Option Nat) : List Char → List Nat × List Char
  | [] => ([], [])
  | c :: cs =>
    match digit? c with
    | some d => let r := splitDigits digit? cs; (d :: r.1, r.2)
    | none => ([], c :: cs)

/-- Text without the underscores between two digits; none if one stands elsewhere. -/
def dropUnderscores (digit? : Char → Option Nat) : List Char → Option (List Char)
  | [] => some []
  | '_' :: _ => none
  | c :: '_' :: d :: cs =>
    if (digit? c).isSome && (digit? d).isSome then (dropUnderscores digit? (d :: cs)).map (c :: ·)
    else none
  | c :: cs => (dropUnderscores digit? cs).map (c :: ·)

/-- A sign and digits, and nothing else. -/
def readWhole? (digit? : Char → Option Nat) (cs : List Char) : Option Int :=
  let s := splitSign cs
  match splitDigits digit? s.2 with
  | ([], _) => none
  | (ds, []) =>
    let n : Int := digitsToNat ds
    some (if s.1 then -n else n)
  | _ => none

/-- A power of ten at the end of a number. -/
def readPower? (digit? : Char → Option Nat) : List Char → Option Int
  | [] => some 0
  | c :: cs => if c == 'e' || c == 'E' then readWhole? digit? cs else none

/-- The names of the values that are not numbers on the line, in lower case. -/
def named? (negative : Bool) (name : String) : Option Float :=
  if name == "inf" || name == "infinity" then
    some (if negative then -(1.0 / 0.0) else 1.0 / 0.0)
  else if name == "nan" then some (0.0 / 0.0)
  else none

/-- Digits with an optional point and power of ten, or the name of a special value. -/
def readReal? (digit? : Char → Option Nat) (cs : List Char) : Option Float :=
  let s := splitSign cs
  match named? s.1 (String.ofList (s.2.map Char.toLower)) with
  | some x => some x
  | none =>
    let whole := splitDigits digit? s.2
    let part := match whole.2 with
      | '.' :: rest => splitDigits digit? rest
      | rest => ([], rest)
    if whole.1.isEmpty && part.1.isEmpty then none
    else
      (readPower? digit? part.2).map fun p =>
        ofDecimal s.1 (digitsToNat (whole.1 ++ part.1)) (p - part.1.length)

/-- The most digits of a whole number that is read. -/
def mostDigits : Nat := 4300

/-- A whole number in the digits of any script. -/
def wholeOfText? (s : String) : Option Int :=
  (dropUnderscores digitValue? (trimWhere isSpace s.toList)).bind fun cs =>
    if mostDigits < (splitDigits digitValue? (splitSign cs).2).1.length then none
    else readWhole? digitValue? cs

/-- A number in the digits of any script. -/
def realOfText? (s : String) : Option Float :=
  (dropUnderscores digitValue? (trimWhere isSpace s.toList)).bind (readReal? digitValue?)

end BuildingAlerts.Decimal
