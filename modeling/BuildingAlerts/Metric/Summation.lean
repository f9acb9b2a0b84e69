/-
Sums of doubles.

The order of additions decides the last digits of a sum, so it is fixed: short runs are
added from left to right, runs of up to 128 in eight interleaved columns, and longer ones in
halves cut at a multiple of eight.
-/
set_option autoImplicit false

namespace BuildingAlerts.Summation

/-- Eight running sums. -/
structure Columns where
  a : Float
  b : Float
  c : Float
  d : Float
  e : Float
  f : Float
  g : Float
  h : Float

/-- The columns joined two by two. -/
def Columns.join (r : Columns) : Float :=
  ((r.a + r.b) + (r.c + r.d)) + ((r.e + r.f) + (r.g + r.h))

/-- From left to right. -/
def inOrder (start : Float) (xs : List Float) : Float :=
  xs.foldl (· + ·) start

/-- Adds row after row of eight to the columns and the rest to their sum. -/
def byRows (r : Columns) : List Float → Float
  | x0 :: x1 :: x2 :: x3 :: x4 :: x5 :: x6 :: x7 :: rest =>
    byRows ⟨r.a + x0, r.b + x1, r.c + x2, r.d + x3, r.e + x4, r.f + x5, r.g + x6, r.h + x7⟩ rest
  | rest => inOrder r.join rest

/-- The sum of a run of at most 128 numbers. -/
def ofRun : List Float → Float
  | x0 :: x1 :: x2 :: x3 :: x4 :: x5 :: x6 :: x7 :: rest =>
    byRows ⟨x0, x1, x2, x3, x4, x5, x6, x7⟩ rest
  | xs => inOrder 0.0 xs

/-- The sum by halves; `fuel` bounds the number of cuts. -/
def byHalves : Nat → List Float → Float
  | 0, xs => ofRun xs
  | fuel + 1, xs =>
    let n := xs.length
    if n ≤ 128 then ofRun xs
    else
      let cut := n / 2 - n / 2 % 8
      byHalves fuel (xs.take cut) + byHalves fuel (xs.drop cut)

/-- The sum of a list. -/
def sum (xs : List Float) : Float :=
  0.0 + byHalves xs.length xs

/-- The arithmetic mean of a list that is not empty. -/
def mean (xs : List Float) : Float :=
  sum xs / Float.ofNat xs.length

end BuildingAlerts.Summation
