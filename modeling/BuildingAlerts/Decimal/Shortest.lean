/-
The shortest decimal of a double.

Every double owns the interval of reals that round to it. Its shortest decimal is the
coarsest decimal grid that has a point in that interval; where two points of the grid lie
inside, the nearer one is taken, and of two equally near ones the one with the even last
digit. Only the two neighbours of the value on a grid need be looked at: if any point of
the grid lies in the interval, one of them does.
-/
import BuildingAlerts.Decimal.Binary

set_option autoImplicit false

namespace BuildingAlerts.Decimal

/-- `coefficient · 10 ^ exponent`. -/
structure Digits where
  coefficient : Nat
  exponent : Int

/-- The count of decimal digits. -/
def digitCount (n : Nat) : Nat :=
  (Nat.toDigits 10 n).length

/-- The `p` with `10 ^ (p - 1) ≤ num / den < 10 ^ p`. -/
def magnitude (num den : Nat) : Int :=
  if den ≤ num then digitCount (num / den)
  else
    let j := digitCount den - digitCount num
    if den ≤ num * tenTo j then 1 - (j : Int) else -(j : Int)

/-- The interval of reals that round to a double, its ends and the value in the middle over
one denominator. -/
structure Interval where
  low : Nat
  value : Nat
  high : Nat
  den : Nat
  closed : Bool

/-- The interval of a positive double. Below a power of two the neighbour is half as far. -/
def Interval.of (b : Binary) : Interval :=
  let m := 4 * b.mantissa
  let below := if b.mantissa == twoTo 52 && -1074 < b.exponent then 1 else 2
  let s := scaleByTwo 1 1 (b.exponent - 2)
  ⟨(m - below) * s.1, m * s.1, (m + 2) * s.1, s.2, b.mantissa % 2 == 0⟩

/-- Whether the point `c` of the grid `10 ^ k` rounds to the double. -/
def Interval.holds (i : Interval) (c : Nat) (k : Int) : Bool :=
  let p := scaleByTen c 1 k
  let x := p.1 * i.den
  if i.closed then i.low * p.2 ≤ x && x ≤ i.high * p.2
  else i.low * p.2 < x && x < i.high * p.2

/-- The neighbour of the value on the grid `10 ^ k` that rounds back to it. -/
def Interval.neighbour? (i : Interval) (k : Int) : Option Digits :=
  let g := scaleByTen i.value i.den (-k)
  let c := g.1 / g.2
  let r := g.1 % g.2
  match i.holds c k, i.holds (c + 1) k with
  | true, true =>
    if 2 * r < g.2 || (2 * r == g.2 && c % 2 == 0) then some ⟨c, k⟩ else some ⟨c + 1, k⟩
  | true, false => some ⟨c, k⟩
  | false, true => some ⟨c + 1, k⟩
  | false, false => none

/-- A coefficient without zeros at its end; `fuel` bounds how many are taken off. -/
def Digits.strip : Nat → Digits → Digits
  | 0, d => d
  | fuel + 1, d =>
    if d.coefficient % 10 == 0 && d.coefficient != 0 then
      strip fuel ⟨d.coefficient / 10, d.exponent + 1⟩
    else d

/-- The fewest decimal digits that read back as the double. Seventeen always do. -/
def shortest (b : Binary) : Digits :=
  if b.mantissa == 0 then ⟨0, 0⟩
  else
    let i := Interval.of b
    let p := magnitude i.value i.den
    match (List.range 17).findSome? fun (n : Nat) => i.neighbour? (p - (n + 1)) with
    | some d => d.strip 20
    | none => ⟨0, 0⟩

end BuildingAlerts.Decimal
