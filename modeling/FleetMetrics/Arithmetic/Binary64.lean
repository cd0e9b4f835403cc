import FleetMetrics.Arithmetic
import FleetMetrics.Decimal.Notation
import FleetMetrics.Width

/-!
# Binary64 arithmetic

The numbers the program runs on. Bounds are ordered by `rank`, an integer read off the bits: it
agrees with `<` on ordinary numbers, gives both zeros one place, and puts the number that is none
above all others and equal to itself.
-/

namespace FleetMetrics.Binary64

/-- The place of a number in the order of bounds. -/
def rank (x : Float) : Int :=
  let bits := x.toBits.toNat
  if x.isNaN then Width.capacity 64
  else if bits < Width.capacity 63 then bits
  else -(bits - Width.capacity 63 : Nat)

/-- Numeric comparison, empty when a side is no number. -/
def compare? (a b : Float) : Option Ordering :=
  if a < b then some .lt
  else if a == b then some .eq
  else if b < a then some .gt
  else none

/-- The largest whole number not above `x`. From 2^52 on every number is whole. -/
def floor (x : Float) : Float :=
  if x.abs < 4503599627370496.0 then
    let whole := Float.ofInt x.toInt64.toInt
    if whole == x then x else if x < whole then whole - 1.0 else whole
  else x

/-- The quotient of the natural logarithms, rounded down and held within 32 bits. -/
def wholeLog (base value : Float) : Int :=
  (floor (value.log / base.log)).toInt32.toInt

/-- Group keys are written without exponent, whole numbers without point. -/
def display : Decimal.Notation where
  positional := none
  wholeMark := ""
  tie := .up
  notANumber := "NaN"
  infinite := "inf"

instance : Arithmetic Float where
  zero := 0.0
  one := 1.0
  emptySum := -0.0
  infinity := 1.0 / 0.0
  ofInt := Float.ofInt
  floor := floor
  compare? := compare?
  order a b := compare (rank a) (rank b)
  wholeLog := wholeLog
  isFinite := Float.isFinite
  text := display.write

end FleetMetrics.Binary64
