/-
Messages with places to fill in.

A place begins with a percent sign. Behind it stand, each if it is wanted, the name of a member
in parentheses, flags, a width, a point with a number of places, and a mark of size that says
nothing; it ends with the letter of a conversion. A star takes a width or a number of places
from the values. The first thing that is wrong counts.
-/
import BuildingAlerts.Decimal.Layout
import BuildingAlerts.Json.Shown
import BuildingAlerts.Fault

set_option autoImplicit false

namespace BuildingAlerts.Message

/-- How a value is filled in. -/
structure Conversion where
  leftward : Bool
  zeros : Bool
  /-- Whether the point and the marks of other bases are always written. -/
  alternate : Bool
  /-- What stands before a number that is not negative. -/
  plus : String
  width : Nat
  places : Option Nat
  letter : Char

/-- The values that are still to be filled in. Where they have names, any of them may be taken
again. -/
structure Supply where
  values : List Json
  named : Option (List (String × Json))

/-- Reading and filling a message. -/
abbrev Filling := StateT Supply (Except Fault)

/-- The next value. -/
def next : Filling Json := do
  match (← get).values with
  | v :: rest => do
    modify fun s => { s with values := rest }
    return v
  | [] => throw .unfit

/-- Makes the value of a name the next and only one. -/
def choose (name : String) : Filling Unit := do
  match (← get).named with
  | none => throw .unfit
  | some ms =>
    match ms.lookup name with
    | some v => modify fun s => { s with values := [v] }
    | none => throw (.noMember name)

/-! ## Reading a place -/

/-- A name up to the parenthesis that closes it, `depth` of which are open, and the rest. -/
def readName? : Nat → List Char → Option (List Char × List Char)
  | _, [] => none
  | depth, c :: cs =>
    let after := if c == '(' then depth + 1 else if c == ')' then depth - 1 else depth
    if after == 0 then some ([], cs) else (readName? after cs).map fun (ds, r) => (c :: ds, r)

/-- The number in front, if it is one that a width or a number of places can be. The last
digits are not read once it has grown too large. -/
def readSize (bound : Nat) (flaw : FillingFlaw) (cs : List Char) :
    Except Fault (Nat × List Char) :=
  let ds := Decimal.splitDigits Decimal.arabicDigit? cs
  let n := Text.digitsToNat ds.1
  if bound < n then .error (.filling flaw) else .ok (n, ds.2)

/-- The largest width. -/
def widest : Nat := Decimal.twoTo 63 - 1

/-- The largest number of places. -/
def longest : Nat := Decimal.twoTo 31 - 1

/-- The next value as a size within a bound. -/
def nextSize (bound : Nat) : Filling Int := do
  let n ← match ← next with
    | .number (.whole n) => pure n
    | .bool b => pure (if b then 1 else 0)
    | _ => throw .unfit
  if (bound : Int) < n || n < -(bound : Int) - 1 then throw .outOfBounds
  return n

/-- A width, or the star that takes it from the values; a negative one is to the left. -/
def readWidth (cs : List Char) : Filling (Int × List Char) := do
  match cs with
  | '*' :: rest => return (← nextSize widest, rest)
  | cs =>
    let (n, rest) ← readSize widest .tooWide cs
    return (n, rest)

/-- A number of places behind a point. -/
def readPlaces (cs : List Char) : Filling (Option Nat × List Char) := do
  match cs with
  | '.' :: '*' :: rest => return (some (← nextSize longest).toNat, rest)
  | '.' :: rest =>
    let (n, rest) ← readSize longest .tooLong rest
    return (some n, rest)
  | cs => return (none, cs)

/-- The rest behind a mark of size. -/
def dropSizeMark : List Char → List Char
  | c :: cs => if c == 'h' || c == 'l' || c == 'L' then cs else c :: cs
  | [] => []

/-- Reads a place behind its percent sign, and the rest. -/
def readConversion (cs : List Char) : Filling (Conversion × List Char) := do
  let cs ← match cs with
    | '(' :: named => do
      if (← get).named.isNone then throw .unfit
      match readName? 1 named with
      | some (name, rest) => do
        choose (String.ofList name)
        pure rest
      | none => throw (.filling .openName)
    | cs => pure cs
  let flags := cs.takeWhile fun c => c == '-' || c == '0' || c == '+' || c == ' ' || c == '#'
  let (width, cs) ← readWidth (cs.drop flags.length)
  let (places, cs) ← readPlaces cs
  match dropSizeMark cs with
  | letter :: rest =>
    let plus := if flags.contains '+' then "+" else if flags.contains ' ' then " " else ""
    return (⟨flags.contains '-' || width < 0, flags.contains '0', flags.contains '#', plus,
      width.natAbs, places, letter⟩, rest)
  | [] => throw (.filling .unfinished)

/-! ## Writing a value -/

/-- As many marks as bring a text to a width. -/
def padding (mark : Char) (width : Nat) (s : String) : String :=
  String.ofList (List.replicate (width - s.length) mark)

/-- A text brought to a width. -/
def Conversion.justify (c : Conversion) (s : String) : String :=
  let blanks := padding ' ' c.width s
  if c.leftward then s ++ blanks else blanks ++ s

/-- The digits of a number behind what marks their base, brought to a width. Zeros stand behind
the sign and the mark. -/
def Conversion.justifyDigits (c : Conversion) (negative : Bool) (mark digits : String) : String :=
  let lead := (if negative then "-" else c.plus) ++ mark
  if c.zeros && !c.leftward then lead ++ padding '0' c.width (lead ++ digits) ++ digits
  else c.justify (lead ++ digits)

/-- A written number brought to a width. -/
def Conversion.justifyFigure (c : Conversion) (figure : String) : String :=
  match figure.toList with
  | '-' :: ds => c.justifyDigits true "" (String.ofList ds)
  | _ => c.justifyDigits false "" figure

/-- A number without its fraction. -/
def truncated : Json → Except Fault Int
  | .number (.whole n) => .ok n
  | .number (.real x) =>
    match Decimal.shape x with
    | .finite b =>
      let r := Decimal.scaleByTwo b.mantissa 1 b.exponent
      let n : Int := (r.1 / r.2 : Nat)
      .ok (if b.negative then -n else n)
    | .infinite _ => .error .outOfBounds
    | .nan => .error .notWhole
  | .bool b => .ok (if b then 1 else 0)
  | _ => .error .unfit

/-- A whole number. -/
def whole : Json → Except Fault Int
  | .number (.whole n) => .ok n
  | .bool b => .ok (if b then 1 else 0)
  | _ => .error .unfit

/-- A number as a double. -/
def real : Json → Except Fault Float
  | .number n => orFault .outOfBounds n.toFloat?
  | .bool b => .ok (if b then 1.0 else 0.0)
  | _ => .error .unfit

/-- One character, or the code of one. -/
def character : Json → Except Fault Char
  | .text s =>
    match s.toList with
    | [c] => .ok c
    | _ => .error .unfit
  | v => do
    let n ← whole v
    if 0 ≤ n && n ≤ 0x10ffff then .ok (Char.ofNat n.toNat) else .error .outOfBounds

/-- A whole number in a base, with at least as many digits as there are places. -/
def Conversion.writeWhole (c : Conversion) (base : Nat) (mark : String) (n : Int) :
    Except Fault String :=
  let least := c.places.getD 0
  if longest - 3 < least then .error .outOfBounds
  else
    let ds := String.ofList (Nat.toDigits base n.natAbs)
    .ok (c.justifyDigits (n < 0) (if c.alternate then mark else "") (padding '0' least ds ++ ds))

/-- A value as a text, no longer than there are places. -/
def Conversion.writeText (c : Conversion) (s : String) : String :=
  c.justify (match c.places with
    | some n => String.ofList (s.toList.take n)
    | none => s)

/-- A value as a conversion wants it. `index` tells where its letter stands. -/
def Conversion.write (c : Conversion) (index : Nat) (v : Json) : Except Fault String :=
  let figure (form : Bool → Nat → Float → String) : Except Fault String :=
    (real v).map fun x => form c.alternate (c.places.getD 6) x
  let capital (s : String) : String := s.map Char.toUpper
  match c.letter with
  | 's' => .ok (c.writeText v.spoken)
  | 'r' => .ok (c.writeText v.shown)
  | 'a' => .ok (c.writeText (Text.asciiOnly v.shown))
  | 'd' | 'i' | 'u' => do c.writeWhole 10 "" (← truncated v)
  | 'o' => do c.writeWhole 8 "0o" (← whole v)
  | 'x' => do c.writeWhole 16 "0x" (← whole v)
  | 'X' => do return capital (← c.writeWhole 16 "0x" (← whole v))
  | 'f' => do return c.justifyFigure (← figure Decimal.fixedPointed)
  | 'F' => do return c.justifyFigure (capital (← figure Decimal.fixedPointed))
  | 'e' => do return c.justifyFigure (← figure Decimal.scientific)
  | 'E' => do return c.justifyFigure (capital (← figure Decimal.scientific))
  | 'g' => do return c.justifyFigure (← figure Decimal.general)
  | 'G' => do return c.justifyFigure (capital (← figure Decimal.general))
  | 'c' => do return c.justify (String.singleton (← character v))
  | letter => .error (.filling (.unknownLetter letter index))

/-! ## Whole messages -/

/-- Fills values into the places of a text of `length` characters, of which those of `cs` are
left. `fuel` bounds the number of places. -/
def fillFrom (length : Nat) : Nat → List Char → Filling String
  | 0, cs => return String.ofList cs
  | fuel + 1, cs => do
    let lead := String.ofList (cs.takeWhile (· != '%'))
    match cs.dropWhile (· != '%') with
    | [] => return lead
    | _ :: '%' :: rest => return lead ++ "%" ++ (← fillFrom length fuel rest)
    | _ :: rest => do
      let (c, rest) ← readConversion rest
      let s ← c.write (length - rest.length - 1) (← next)
      return lead ++ s ++ (← fillFrom length fuel rest)

/-- Fills values into the places of a message. Without values it is taken as it is; a single
object gives its members by their names. All values without names have to be used. -/
def fill (message : String) (values : List Json) : Except Fault String := do
  if values.isEmpty then return message
  let named := match values with
    | [.object (m :: ms)] => some (m :: ms)
    | _ => none
  let (s, left) ← (fillFrom message.length (message.length + 1) message.toList).run ⟨values, named⟩
  if named.isNone && !left.values.isEmpty then .error .unfit
  return s

end BuildingAlerts.Message
