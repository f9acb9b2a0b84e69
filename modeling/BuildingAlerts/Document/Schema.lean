/-
Schemas of documents.

A schema reads a value of a document and collects everything that is wrong with it, each
fault with the way to its place. Values of a neighbouring kind are converted where nothing is
lost: a number may be written as a text, a truth value as a word or a digit.
-/
import BuildingAlerts.Fault
import BuildingAlerts.Json.Basic
import BuildingAlerts.Decimal.Numeral
import BuildingAlerts.Time.Reader

set_option autoImplicit false

namespace BuildingAlerts

/-- A step on the way to a place in a document. -/
inductive PlaceStep where
  | member (name : String)
  | item (index : Nat)
deriving DecidableEq

/-- The way to a place, the last step first. -/
abbrev Place := List PlaceStep

/-- What is wrong with a value. -/
inductive Complaint where
  | missing | notObject | notText | notList | notTable | notWord
  | notWhole | wholeFromReal | wholeFromText | wholeTooLarge | notFinite
  | notReal | realFromText
  | notFlag | flagFromValue
  | notMoment | momentFromText | momentFromNumber
  /-- A rule of the document is broken. -/
  | rule (text : String)
deriving DecidableEq

/-- The name of a complaint. -/
def Complaint.code : Complaint → String
  | .missing => "missing"
  | .notObject => "model_type"
  | .notText => "string_type"
  | .notList => "list_type"
  | .notTable => "dict_type"
  | .notWord => "enum"
  | .notWhole => "int_type"
  | .wholeFromReal => "int_from_float"
  | .wholeFromText => "int_parsing"
  | .wholeTooLarge => "int_parsing_size"
  | .notFinite => "finite_number"
  | .notReal => "float_type"
  | .realFromText => "float_parsing"
  | .notFlag => "bool_type"
  | .flagFromValue => "bool_parsing"
  | .notMoment => "datetime_type"
  | .momentFromText => "datetime_from_date_parsing"
  | .momentFromNumber => "datetime_parsing"
  | .rule _ => "value_error"

/-- Something wrong at a place, told by the steps from the top of the document. -/
structure Flaw where
  steps : List PlaceStep
  complaint : Complaint
deriving DecidableEq

/-- Why a document was refused: its flaws, or a fault of what it describes. -/
inductive Refusal where
  | flaws (fs : List Flaw)
  | fault (f : Fault)

/-- A value that was read, or everything that is wrong with it. -/
inductive Checked (α : Type) where
  | sound (a : α)
  | flawed (flaws : List Flaw)

namespace Checked

variable {α β : Type}

instance [Inhabited α] : Inhabited (Checked α) := ⟨.sound default⟩

/-- Applies a function that was read to a value that was read; the flaws of both count. -/
def apply (f : Checked (α → β)) (a : Checked α) : Checked β :=
  match f, a with
  | .sound f, .sound a => .sound (f a)
  | .sound _, .flawed es => .flawed es
  | .flawed es, .sound _ => .flawed es
  | .flawed es, .flawed fs => .flawed (es ++ fs)

/-- The value changed by a function. -/
def map (f : α → β) : Checked α → Checked β
  | .sound a => .sound (f a)
  | .flawed es => .flawed es

/-- One flaw. -/
def flaw (place : Place) (c : Complaint) : Checked α :=
  .flawed [⟨place.reverse, c⟩]

/-- The value of an option, or a flaw. -/
def ofOption (place : Place) (c : Complaint) : Option α → Checked α
  | some a => .sound a
  | none => flaw place c

/-- All values of a list, or all their flaws. -/
def all : List (Checked α) → Checked (List α)
  | [] => .sound []
  | c :: cs => (c.map List.cons).apply (all cs)

/-- The value, or the flaws. -/
def toExcept : Checked α → Except (List Flaw) α
  | .sound a => .ok a
  | .flawed es => .error es

end Checked

/-- Reads a value that stands at a place. -/
structure Schema (α : Type) where
  read : Place → Json → Checked α

/-- Reads the members of an object that stands at a place. -/
structure Fields (α : Type) where
  read : Place → List (String × Json) → Checked α

instance : Applicative Fields where
  pure a := ⟨fun _ _ => .sound a⟩
  seq f a := ⟨fun place ms => (f.read place ms).apply ((a ()).read place ms)⟩
  map f a := ⟨fun place ms => (a.read place ms).map f⟩

/-- The member of a name; its absence is a flaw. -/
def Fields.required {α : Type} (name : String) (s : Schema α) : Fields α where
  read place ms :=
    match ms.lookup name with
    | some v => s.read (.member name :: place) v
    | none => .flaw (.member name :: place) .missing

/-- The member of a name, or a value in its stead. -/
def Fields.withDefault {α : Type} (name : String) (standard : α) (s : Schema α) : Fields α where
  read place ms :=
    match ms.lookup name with
    | some v => s.read (.member name :: place) v
    | none => .sound standard

namespace Schema

variable {α β : Type}

/-- Reads a whole document. -/
def check (s : Schema α) (v : Json) : Except (List Flaw) α :=
  (s.read [] v).toExcept

/-- The values that keep a rule. -/
def keeping (rule : α → Bool) (text : String) (s : Schema α) : Schema α where
  read place v :=
    match s.read place v with
    | .sound a => if rule a then .sound a else .flaw place (.rule text)
    | .flawed es => .flawed es

/-- Any value. -/
def any : Schema Json where
  read _ v := .sound v

/-- A text. -/
def text : Schema String where
  read place
    | .text s => .sound s
    | _ => .flaw place .notText

/-- A value that may be null. -/
def optional (s : Schema α) : Schema (Option α) where
  read place
    | .null => .sound none
    | v => (s.read place v).map some

/-- A list of values. -/
def list (s : Schema α) : Schema (List α) where
  read place
    | .list items => .all (items.mapIdx fun i v => s.read (.item i :: place) v)
    | _ => .flaw place .notList

/-- Members of any names and values. -/
def members : Schema (List (String × Json)) where
  read place
    | .object ms => .sound ms
    | _ => .flaw place .notTable

/-- An object with given members. Others are passed over. -/
def object (fs : Fields α) : Schema α where
  read place
    | .object ms => fs.read place ms
    | _ => .flaw place .notObject

/-- A word of a vocabulary. -/
def word [Coded α] : Schema α where
  read place
    | .text s => .ofOption place .notWord (ofCode? s)
    | _ => .flaw place .notWord

/-- Values named by the words of a vocabulary. -/
def table [Coded α] (s : Schema β) : Schema (List (α × β)) where
  read place
    | .object ms => .all (ms.map fun (k, v) =>
        ((Schema.word.read (.member "[key]" :: .member k :: place) (.text k)).map Prod.mk).apply
          (s.read (.member k :: place) v))
    | _ => .flaw place .notTable

/-- The bounds of a whole number that is written as a double. -/
def wordBound : Int := Decimal.twoTo 63

/-- A double without a fraction as a whole number. -/
def wholeOfReal (place : Place) (x : Float) : Checked Int :=
  match Decimal.shape x with
  | .finite b =>
    let r := Decimal.scaleByTwo b.mantissa 1 b.exponent
    if r.1 % r.2 != 0 then .flaw place .wholeFromReal
    else
      let n : Int := if b.negative then -(r.1 / r.2 : Nat) else (r.1 / r.2 : Nat)
      if -wordBound < n && n < wordBound then .sound n else .flaw place .wholeTooLarge
  | _ => .flaw place .notFinite

/-- A text read as a whole number in its plain form: an optional minus sign and digits, the
first of which is no zero unless it is the only one. -/
def readPlainWhole (place : Place) (cs : List Char) : Checked Int :=
  let negative := cs.head? == some '-'
  let ds := Decimal.splitDigits Decimal.arabicDigit? (if negative then cs.drop 1 else cs)
  let n : Int := Text.digitsToNat ds.1
  match ds.1 with
  | [] => .flaw place .wholeFromText
  | 0 :: _ :: _ => .flaw place .wholeFromText
  | _ =>
    if Decimal.mostDigits < cs.length - ds.2.length then .flaw place .wholeTooLarge
    else if ds.2.isEmpty then .sound (if negative then -n else n)
    else .flaw place .wholeFromText

/-- What follows the zeros at the front of a number. Underscores among them are passed over,
and a zero stays before a point and when nothing else is left. -/
def dropZeros? : List Char → Option (List Char)
  | '0' :: cs =>
    let skipped := cs.takeWhile fun c => c == '0' || c == '_'
    match cs.drop skipped.length with
    | [] => (('0' :: skipped).getLast?).map ([·])
    | '.' :: rest => (('0' :: skipped).getLast?).map fun c => c :: '.' :: rest
    | c :: rest => if c.isDigit || c == '-' then some (c :: rest) else none
  | c :: cs => if c.isDigit || c == '-' then some (c :: cs) else none
  | [] => none

/-- A number without its fraction, which holds only zeros. -/
def dropFraction? (cs : List Char) : Option (List Char) :=
  match cs.dropWhile (· != '.') with
  | [] => some cs
  | _ :: zeros =>
    if !zeros.isEmpty && zeros.all (· == '0') then some (cs.takeWhile (· != '.')) else none

/-- Whether an underscore stands at an end of a text or beside another. -/
def hasStrayUnderscore (cs : List Char) : Bool :=
  let rec besideAnother : List Char → Bool
    | '_' :: '_' :: _ => true
    | _ :: cs => besideAnother cs
    | [] => false
  cs.head? == some '_' || cs.getLast? == some '_' || besideAnother cs

/-- A text without its underscores, if each of them stands alone inside it. -/
def dropUnderscores? (cs : List Char) : Option (List Char) :=
  if hasStrayUnderscore cs then none else some (cs.filter (· != '_'))

/-- A number brought to its plain form: without blanks around it, a plus sign, zeros at the
front, a fraction of zeros, and single underscores. -/
def plainForm? (cs : List Char) : Option (List Char) := do
  let cs := Text.trimWhere Text.isSpace cs
  let cs ← match cs with
    | '+' :: '-' :: _ => none
    | '+' :: rest => some rest
    | cs => some cs
  let cs ← dropFraction? (← dropZeros? cs)
  return (dropUnderscores? cs).getD cs

/-- A text as a whole number. -/
def wholeOfText (place : Place) (s : String) : Checked Int :=
  match readPlainWhole place s.toList with
  | .sound n => .sound n
  | .flawed es =>
    if es.any (·.complaint == .wholeTooLarge) then .flawed es
    else match (plainForm? s.toList).map (readPlainWhole place) with
      | some (.sound n) => .sound n
      | _ => .flaw place .wholeFromText

/-- A whole number. -/
def whole : Schema Int where
  read place
    | .bool b => .sound (if b then 1 else 0)
    | .number (.whole n) => .sound n
    | .number (.real x) => wholeOfReal place x
    | .text s => wholeOfText place s
    | _ => .flaw place .notWhole

/-- A text as a double: with blanks around it, or with single underscores inside it. -/
def realOfText? (s : String) : Option Float :=
  let read? := Decimal.readReal? Decimal.arabicDigit?
  (read? (Text.trimWhere Text.isSpace s.toList)).or ((dropUnderscores? s.toList).bind read?)

/-- A double. -/
def real : Schema Float where
  read place
    | .bool b => .sound (if b then 1.0 else 0.0)
    | .number (.whole n) => .ofOption place .notReal (Decimal.ofInt? n)
    | .number (.real x) => .sound x
    | .text s => .ofOption place .realFromText (realOfText? s)
    | _ => .flaw place .notReal

/-- The words for truth and falsehood. -/
def flagWords : List (String × Bool) := [
  ("0", false), ("1", true), ("f", false), ("t", true), ("n", false), ("y", true),
  ("no", false), ("yes", true), ("off", false), ("on", true), ("false", false), ("true", true)]

/-- A truth value. -/
def flag : Schema Bool where
  read place
    | .bool b => .sound b
    | .number (.whole n) =>
      if n == 0 then .sound false else if n == 1 then .sound true
      else if -wordBound ≤ n && n < wordBound then .flaw place .flagFromValue
      else .flaw place .notFlag
    | .number (.real x) =>
      if x == 0.0 then .sound false else if x == 1.0 then .sound true
      else match wholeOfReal place x with
        | .sound _ => .flaw place .flagFromValue
        | .flawed _ => .flaw place .notFlag
    | .text s =>
      .ofOption place .flagFromValue (flagWords.lookup (String.ofList (s.toList.map Char.toLower)))
    | _ => .flaw place .notFlag

/-- A text that holds a count of seconds since 1970. With a point in it, it may also have a
power of ten. -/
def momentOfCount? (s : String) : Option Moment :=
  let sign := Decimal.splitSign s.toList
  match Decimal.splitDigits Decimal.arabicDigit? sign.2 with
  | (_ :: _, []) => (Decimal.readWhole? Decimal.arabicDigit? s.toList).bind (Moment.ofCount? · 0)
  | (_, '.' :: _) => (Decimal.readReal? Decimal.arabicDigit? s.toList).bind Moment.ofReal?
  | _ => none

/-- A moment of the calendar. Those of the year zero are read, but they lie before it. -/
def momentInCalendar (place : Place) (m : Moment) : Checked Moment :=
  if Moment.inCalendar m.wall then .sound m.assumeUtc else .flaw place .momentFromNumber

/-- The moment of a count since 1970 that is a double. -/
def momentOfReal (place : Place) (x : Float) : Checked Moment :=
  match Moment.ofReal? x with
  | some m => momentInCalendar place m
  | none => .flaw place .momentFromNumber

/-- A moment; without an offset it is universal time. -/
def moment : Schema Moment where
  read place
    | .text s =>
      match (Moment.readDocumentText? s).or (momentOfCount? s) with
      | some m => momentInCalendar place m
      | none => .flaw place .momentFromText
    | .number (.whole n) =>
      if n.natAbs < Moment.countBound.natAbs then
        match Moment.ofCount? n 0 with
        | some m => momentInCalendar place m
        | none => .flaw place .momentFromNumber
      else match Decimal.ofInt? n with
        | some x => momentOfReal place x
        | none => .flaw place .notMoment
    | .number (.real x) => momentOfReal place x
    | _ => .flaw place .notMoment

end Schema

end BuildingAlerts
