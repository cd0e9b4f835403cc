import FleetMetrics.Distribution

/-!
# Bucketizers

A bucketizer assigns a number its bucket. The linear one cuts the line into steps of one width.
The log-linear one cuts the range between two powers of a base into magnitudes, and each
magnitude into steps of one width, laid out from its lower end so that buckets never overlap;
what lies below or above the range falls into one bucket on either side.
-/

namespace FleetMetrics

/-- A rule that assigns numbers to buckets. -/
inductive Bucketizer (N : Type) where
  | linear (step : N)
  | logLinear (base : N) (minExp maxExp : Int) (steps : Nat)
  deriving BEq

namespace Bucketizer

variable {N : Type} [Arithmetic N]

open Arithmetic

/-- The exponent of the power of the base at or below a number. The rounded logarithm can be one
off near an exact power. -/
def magnitude (base value : N) : Int :=
  let m := wholeLog base value
  if below value (power base m) then m - 1
  else if atMost (power base (m + 1)) value then m + 1
  else m

/-- The step of a given width, counted from `lower`, that holds a number. -/
def stepFrom (lower width value : N) : N :=
  lower + floor ((value - lower) / width) * width

/-- The bounds of the bucket that holds a number. -/
def bounds (b : Bucketizer N) (value : N) : N × N :=
  match b with
  | .linear step =>
    let min := floor (value / step) * step
    (min, min + step)
  | .logLinear base minExp maxExp steps =>
    let low := power base minExp
    let high := power base maxExp
    -- one bucket on either side of the range
    if below value low then (zero, low)
    else if atMost high value then (high, infinity)
    else
      let m := magnitude base value
      let lower := power base m
      let upper := power base (m + 1)
      let width := upper / ofInt (Nat.max steps 1)
      -- steps are laid out from the lower end of the magnitude and end at its upper end
      let min := stepFrom lower width value
      (min, least (min + width) upper)

/-- The bucket that holds a number, with a weight. -/
def bucket (b : Bucketizer N) (value weight : N) : Bucket N :=
  let (min, max) := b.bounds value
  ⟨min, max, weight⟩

/-- Can the bucketizer be used? A step has to be positive and finite, a base above one, and the
range not empty. -/
def isValid : Bucketizer N → Bool
  | .linear step => below zero step && isFinite step
  | .logLinear base minExp maxExp steps =>
    below one base && decide (minExp < maxExp) && decide (0 < steps)

end Bucketizer

end FleetMetrics
