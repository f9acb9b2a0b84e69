/-
How numbers are written.

A double is written with its shortest digits: positionally while the point stands near
them, with a power of ten otherwise, and always so that it cannot be taken for a whole
number. Figures in messages have a fixed number of places instead, or a number of significant
digits; they are rounded from the exact value, a half to the even neighbour.
-/
import BuildingAlerts.Decimal.Shortest

set_option autoImplicit false

namespace BuildingAlerts.Decimal

/-! ## Layouts -/

/-- The choices of one written form of doubles. -/
structure Layout where
  /-- The point is written in place when it stands right of this position, -/
  lowest : Int
  /-- and no further right than this one. -/
  highest : Int
  /-- The least number of digits of a power of ten. -/
  powerDigits : Nat
  nan : String
  infinity : String

/-- Positional from `0.0001` to below `10 ^ 16`, two digits of exponent. -/
def plain : Layout := ⟨-4, 16, 2, "nan", "inf"⟩

/-- The same digits with the names that documents use for values that are not finite. -/
def document : Layout := { plain with nan := "NaN", infinity := "Infinity" }

/-- The decimal digits of a number, with zeros in front up to a width. -/
def padded (width n : Nat) : List Char :=
  let ds := Nat.toDigits 10 n
  List.replicate (width - ds.length) '0' ++ ds

/-- Writes digits whose point stands after `point` of them. -/
def Layout.place (l : Layout) (ds : List Char) (point : Int) : List Char :=
  if l.lowest < point && point ≤ l.highest then
    if point ≤ 0 then '0' :: '.' :: List.replicate (-point).toNat '0' ++ ds
    else
      let n := point.toNat
      if ds.length ≤ n then ds ++ List.replicate (n - ds.length) '0' ++ ['.', '0']
      else ds.take n ++ '.' :: ds.drop n
  else
    let power := point - 1
    let mark := if power < 0 then '-' else '+'
    let tail := match ds.drop 1 with
      | [] => []
      | rest => '.' :: rest
    ds.take 1 ++ tail ++ 'e' :: mark :: padded l.powerDigits power.natAbs

/-- The written form of a double. -/
def Layout.write (l : Layout) (x : Float) : String :=
  match shape x with
  | .nan => l.nan
  | .infinite negative => if negative then "-" ++ l.infinity else l.infinity
  | .finite b =>
    let d := shortest b
    let ds := Nat.toDigits 10 d.coefficient
    let body := if d.coefficient == 0 then ['0', '.', '0'] else l.place ds (ds.length + d.exponent)
    String.ofList (if b.negative then '-' :: body else body)

/-- The exact value times `10 ^ places`, rounded to a whole number. -/
def Binary.scaled (b : Binary) (places : Nat) : Nat :=
  let s := scaleByTwo (b.mantissa * tenTo places) 1 b.exponent
  roundDiv s.1 s.2

/-- A figure with a fixed number of places. -/
def fixed (places : Nat) (x : Float) : String :=
  match shape x with
  | .nan => "nan"
  | .infinite negative => if negative then "-inf" else "inf"
  | .finite b =>
    let ds := padded (places + 1) (b.scaled places)
    let whole := ds.take (ds.length - places)
    let part := ds.drop (ds.length - places)
    let body := if places == 0 then whole else whole ++ '.' :: part
    String.ofList (if b.negative then '-' :: body else body)

/-- The double nearest to a figure with a fixed number of places. -/
def roundTo (places : Nat) (x : Float) : Float :=
  match shape x with
  | .finite b => ofDecimal b.negative (b.scaled places) (-(places : Int))
  | _ => x

/-- The whole number nearest to a finite double. -/
def roundToInt? (x : Float) : Option Int :=
  match shape x with
  | .finite b =>
    let n := b.scaled 0
    some (if b.negative then -(n : Int) else n)
  | _ => none

/-! ## Significant digits -/

/-- The digits of a value rounded to `count` of them, and the power of ten of the first. -/
def Binary.significant (b : Binary) (count : Nat) : List Char × Int :=
  if b.mantissa == 0 then (List.replicate count '0', 0)
  else
    let v := scaleByTwo b.mantissa 1 b.exponent
    let k := magnitude v.1 v.2 - 1
    let s := scaleByTen v.1 v.2 ((count : Int) - 1 - k)
    let n := roundDiv s.1 s.2
    if tenTo count ≤ n then (Nat.toDigits 10 (n / 10), k + 1) else (Nat.toDigits 10 n, k)

/-- Digits before and behind a point. With no digit behind it, the point is written only if it
is `kept`. -/
def pointed (kept : Bool) (whole part : List Char) : List Char :=
  if part.isEmpty then (if kept then whole ++ ['.'] else whole) else whole ++ '.' :: part

/-- A power of ten behind digits. -/
def powerText (mark : Char) (power : Int) : List Char :=
  mark :: (if power < 0 then '-' else '+') :: padded 2 power.natAbs

/-- The written form of a double, with its finite values written by `body`. -/
def framed (body : Binary → List Char) (x : Float) : String :=
  match shape x with
  | .nan => "nan"
  | .infinite negative => if negative then "-inf" else "inf"
  | .finite b => String.ofList (if b.negative then '-' :: body b else body b)

/-- A figure with a fixed number of places, and perhaps a point when there are none. -/
def fixedPointed (keepPoint : Bool) (places : Nat) : Float → String :=
  framed fun b =>
    let ds := padded (places + 1) (b.scaled places)
    pointed keepPoint (ds.take (ds.length - places)) (ds.drop (ds.length - places))

/-- A figure with one digit, a number of places and a power of ten. -/
def scientific (keepPoint : Bool) (places : Nat) : Float → String :=
  framed fun b =>
    let (ds, power) := b.significant (places + 1)
    pointed keepPoint (ds.take 1) (ds.drop 1) ++ powerText 'e' power

/-- Digits without zeros at their end. -/
def dropEndZeros (ds : List Char) : List Char :=
  (ds.reverse.dropWhile (· == '0')).reverse

/-- A figure with a number of significant digits, in place from a ten-thousandth up to as many
digits as it has. Zeros at the end are written only with `keepPoint`. -/
def general (keepPoint : Bool) (digits : Nat) : Float → String :=
  framed fun b =>
    let digits := max digits 1
    let (ds, power) := b.significant digits
    let tail (part : List Char) : List Char := if keepPoint then part else dropEndZeros part
    if power < -4 || (digits : Int) ≤ power then
      pointed keepPoint (ds.take 1) (tail (ds.drop 1)) ++ powerText 'e' power
    else if power < 0 then
      pointed keepPoint ['0'] (tail (List.replicate (-power - 1).toNat '0' ++ ds))
    else
      let n := (power + 1).toNat
      pointed keepPoint (ds.take n) (tail (ds.drop n))

end BuildingAlerts.Decimal
