import FleetMetrics.Width

/-!
# Decimals read through a 64-bit significand

A decimal is read as a significand of at most 64 bits and a power of ten: digits that no longer
fit are dropped, and the significand is then multiplied or divided by the power in binary64. The
result is the nearest number for short decimals and can be a neighbour of it for long ones; a
magnitude above the largest number is refused.
-/

namespace FleetMetrics.Decimal

/-- Digits of a decimal as they are read: `significand * 10 ^ exponent`. -/
structure Scaled where
  significand : Nat
  exponent : Int
  /-- A digit was dropped, so the digits after it are dropped too, up to the point. -/
  full : Bool

namespace Scaled

/-- The largest significand plus one. -/
def limit : Nat := Width.capacity 64

/-- No digit read yet. -/
def start : Scaled := ⟨0, 0, false⟩

/-- One digit before the point: when it does not fit it only raises the exponent. -/
def pushWhole (s : Scaled) (digit : Nat) : Scaled :=
  let next := s.significand * 10 + digit
  if s.full ∨ limit ≤ next then { s with exponent := s.exponent + 1, full := true }
  else { s with significand := next }

/-- The point: behind it a small digit can fit though a larger one before it did not. -/
def pushPoint (s : Scaled) : Scaled :=
  { s with full := false }

/-- One digit behind the point: when it does not fit it is lost. -/
def pushFraction (s : Scaled) (digit : Nat) : Scaled :=
  let next := s.significand * 10 + digit
  if s.full ∨ limit ≤ next then { s with full := true }
  else { s with significand := next, exponent := s.exponent - 1 }

/-- A power of ten, for exponents up to 308. -/
def powerOfTen (e : Nat) : Float :=
  Float.ofScientific 1 false e

/-- Apply a power of ten in steps of at most 308. -/
def applyPower (x : Float) (e : Int) : Nat → Option Float
  | 0 => none
  | steps + 1 =>
    if e.natAbs ≤ 308 then
      if 0 ≤ e then
        let y := x * powerOfTen e.natAbs
        if y.isInf then none else some y
      else some (x / powerOfTen e.natAbs)
    else if x == 0 then some x
    else if 0 ≤ e then none
    else applyPower (x / powerOfTen 308) (e + 308) steps

/-- The number that the digits stand for, or nothing when it is too large. -/
def toFloat? (s : Scaled) : Option Float :=
  applyPower (Float.ofNat s.significand) s.exponent 4

end Scaled

end FleetMetrics.Decimal
