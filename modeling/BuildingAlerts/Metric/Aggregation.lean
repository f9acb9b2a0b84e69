/-
From a window of readings to one value.

Values that are not numbers are left out before a reduction. The latest value and the rate of
change look at the readings themselves.
-/
import BuildingAlerts.Metric.Reading
import BuildingAlerts.Metric.Summation

set_option autoImplicit false

namespace BuildingAlerts

/-- How the readings of a window become one value. The window is in minutes. -/
structure Aggregation where
  reduction : Reduction
  period : Int
  minimumDataPoints : Int

namespace Aggregation

/-- The latest of at least one reading in five minutes. -/
def standard : Aggregation := ⟨.latest, 5, 1⟩

/-- The share of the values that lie below the value of a percentile. -/
def percentileShare : Float := 0.95

/-- Whether there are readings enough. No readings are never enough. -/
def hasEnough (a : Aggregation) (rs : List Reading) : Bool :=
  !rs.isEmpty && a.minimumDataPoints ≤ rs.length

/-- The values that are numbers. -/
def numbers (rs : List Reading) : List Float :=
  (rs.map (·.value)).filter fun x => !x.isNaN

/-- Values in rising order. -/
def sorted (xs : List Float) : List Float :=
  xs.mergeSort fun x y => x ≤ y

/-- The middle of the values, or the mean of the two in the middle. -/
def median (xs : List Float) : Float :=
  let s := sorted xs
  let i := s.length / 2
  if s.length % 2 == 0 then Summation.mean ((s.drop (i - 1)).take 2)
  else Summation.mean ((s.drop i).take 1)

/-- The value at the percentile, on the line between its two neighbours. -/
def percentile (xs : List Float) : Float :=
  let s := sorted xs
  let v := Float.ofNat (s.length - 1) * percentileShare
  let i := v.floor.toUInt64.toNat
  let low := s.getD i 0.0
  let high := s.getD (min (i + 1) (s.length - 1)) 0.0
  let t := v - v.floor
  let d := high - low
  if t >= 0.5 then high - d * (1.0 - t) else low + d * t

/-- The root of the mean square distance from the mean. -/
def deviation (xs : List Float) : Float :=
  let m := Summation.mean xs
  (Summation.sum (xs.map fun x => (x - m) * (x - m)) / Float.ofNat xs.length).sqrt

/-- The change per minute from the first reading to the last. -/
def rateOfChange (rs : List Reading) : Float :=
  match rs, rs.getLast? with
  | first :: _ :: _, some last =>
    let minutes := Span.toSeconds ⟨last.timestamp.instant - first.timestamp.instant⟩ / 60.0
    if minutes <= 0.0 then 0.0 else (last.value - first.value) / minutes
  | _, _ => 0.0

/-- The one value of readings in order of time; zero when there are not enough. -/
def reduce (a : Aggregation) (rs : List Reading) : Float :=
  let xs := numbers rs
  if !a.hasEnough rs || xs.isEmpty then 0.0
  else match a.reduction with
    | .average => Summation.mean xs
    | .sum => Summation.sum xs
    | .minimum => (xs.drop 1).foldl (fun m x => if x < m then x else m) (xs.headD 0.0)
    | .maximum => (xs.drop 1).foldl (fun m x => if m < x then x else m) (xs.headD 0.0)
    | .count => Float.ofNat xs.length
    | .median => median xs
    | .percentile => percentile xs
    | .standardDeviation => deviation xs
    | .rateOfChange => rateOfChange rs
    | .latest => (rs.getLast?.map (·.value)).getD 0.0

end Aggregation

end BuildingAlerts
