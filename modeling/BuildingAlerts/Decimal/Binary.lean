/-
Doubles as exact numbers.

A finite double is an integer times a power of two. Reading that integer and that power off
the bits lets every printed form be computed in whole numbers, and writing them back lets
every quotient of whole numbers be rounded once, to the nearest double, a tie going to the
even mantissa.
-/
set_option autoImplicit false

namespace BuildingAlerts.Decimal

/-- The power of two. -/
def twoTo (k : Nat) : Nat := Nat.pow 2 k

/-- The power of ten. -/
def tenTo (k : Nat) : Nat := Nat.pow 10 k

/-- The exact value `± mantissa · 2 ^ exponent`. -/
structure Binary where
  negative : Bool
  mantissa : Nat
  exponent : Int

/-- What the bits of a double stand for. -/
inductive Shape where
  | nan
  | infinite (negative : Bool)
  | finite (value : Binary)

/-- The sign bit of a double. -/
def isNegative (x : Float) : Bool :=
  x.toBits.toNat / twoTo 63 == 1

/-- Reads a double's sign, exponent and mantissa off its bits. -/
def shape (x : Float) : Shape :=
  let bits := x.toBits.toNat
  let negative := bits / twoTo 63 == 1
  let field : Nat := bits / twoTo 52 % twoTo 11
  let fraction : Nat := bits % twoTo 52
  if field == 2047 then
    if fraction == 0 then .infinite negative else .nan
  else if field == 0 then .finite ⟨negative, fraction, -1074⟩
  else .finite ⟨negative, twoTo 52 + fraction, (field : Int) - 1075⟩

/-- `num / den` to the nearest whole number, a half to the even neighbour. -/
def roundDiv (num den : Nat) : Nat :=
  let q := num / den
  let r := num % den
  if den < 2 * r then q + 1
  else if 2 * r == den && q % 2 == 1 then q + 1
  else q

/-- `x · 2 ^ k` as a numerator over a denominator. -/
def scaleByTwo (num den : Nat) (k : Int) : Nat × Nat :=
  if 0 ≤ k then (num * twoTo k.toNat, den) else (num, den * twoTo (-k).toNat)

/-- `x · 10 ^ k` as a numerator over a denominator. -/
def scaleByTen (num den : Nat) (k : Int) : Nat × Nat :=
  if 0 ≤ k then (num * tenTo k.toNat, den) else (num, den * tenTo (-k).toNat)

/-- The number of binary digits. -/
def bitCount (n : Nat) : Nat :=
  if n == 0 then 0 else n.log2 + 1

/-- The double nearest to `num / den`, infinite when that is past the largest double. -/
def ofRatio (negative : Bool) (num den : Nat) : Float :=
  let sign := if negative then twoTo 63 else 0
  let bits :=
    if num == 0 then 0
    else
      let guess := (bitCount num : Int) - bitCount den - 53
      let wide := scaleByTwo num den (-guess)
      let k := if twoTo 53 ≤ wide.1 / wide.2 then guess + 1 else guess
      let k := if k < -1074 then -1074 else k
      let exact := scaleByTwo num den (-k)
      let q := roundDiv exact.1 exact.2
      if q < twoTo 52 then q
      else
        let b := (k + 1075).toNat * twoTo 52 + (q - twoTo 52)
        if 2047 * twoTo 52 ≤ b then 2047 * twoTo 52 else b
  Float.ofBits (UInt64.ofNat (sign + bits))

/-- The double nearest to a whole number, if there is a finite one. -/
def ofInt? (n : Int) : Option Float :=
  let x := ofRatio (n < 0) n.natAbs 1
  if x.isInf then none else some x

/-- The double nearest to the quotient of two whole numbers, if there is a finite one. -/
def ofQuotient? (a b : Int) : Option Float :=
  let x := ofRatio ((a < 0) != (b < 0)) a.natAbs b.natAbs
  if x.isInf then none else some x

/-- The double nearest to `± digits · 10 ^ exponent`. -/
def ofDecimal (negative : Bool) (digits : Nat) (exponent : Int) : Float :=
  let size := ((Nat.toDigits 10 digits).length : Int) + exponent
  if digits == 0 then ofRatio negative 0 1
  else if 400 < size then ofRatio negative (twoTo 1100) 1
  else if size < -400 then ofRatio negative 0 1
  else
    let r := scaleByTen digits 1 exponent
    ofRatio negative r.1 r.2

end BuildingAlerts.Decimal
