/-!
# Shortest decimals

The decimal text of a binary number starts with a choice of digits: the fewest that still read
back as the same number, and of those the nearest to it. The choice is made in exact arithmetic
on naturals, from the significand and exponent stored in the number's bits.

* `Binary.ofFloat` takes a finite number apart,
* `Binary.readsBack` tells whether a decimal rounds to it,
* `Binary.shortest` searches one digit, two digits, … up to seventeen.
-/

namespace FleetMetrics.Decimal

/-- A finite, non-negative number `significand * 2 ^ exponent`. -/
structure Binary where
  significand : Nat
  exponent : Int
  /-- The gap to the next smaller number is half the gap to the next larger one. -/
  narrowBelow : Bool

/-- `digits * 10 ^ exponent`. -/
structure Digits where
  digits : Nat
  exponent : Int
  deriving DecidableEq

/-- Which of two equally near neighbours is taken. -/
inductive Tie
  | toEven
  | up
  deriving DecidableEq

/-- The magnitude of a finite binary64 number. -/
def Binary.ofFloat (x : Float) : Binary :=
  let bits := x.toBits.toNat
  let fraction := bits % Nat.pow 2 52
  let biased := bits / Nat.pow 2 52 % 2048
  -- a subnormal number has no hidden digit
  if biased = 0 then ⟨fraction, -1074, false⟩
  else ⟨Nat.pow 2 52 + fraction, Int.ofNat biased - 1075, fraction = 0 ∧ 1 < biased⟩

/-- Order of `a * 2 ^ p` and `b * 10 ^ k`, by cross-multiplication. -/
def compareScaled (a : Nat) (p : Int) (b : Nat) (k : Int) : Ordering :=
  compare (a * Nat.pow 2 p.toNat * Nat.pow 10 (-k).toNat)
    (b * Nat.pow 10 k.toNat * Nat.pow 2 (-p).toNat)

namespace Binary

/-- Order of the number and a decimal. -/
def compareTo (b : Binary) (d : Digits) : Ordering :=
  compareScaled b.significand b.exponent d.digits d.exponent

/-- Does the decimal round to the number? The reals that do reach half way to both neighbours,
the ends included when the significand is even. -/
def readsBack (b : Binary) (d : Digits) : Bool :=
  -- in quarters of the last place: half a gap up is two quarters, half a gap down two or one
  let low := 4 * b.significand - (if b.narrowBelow then 1 else 2)
  let high := 4 * b.significand + 2
  let inside (o : Ordering) : Bool := o = .lt ∨ (o = .eq ∧ b.significand % 2 = 0)
  inside (compareScaled low (b.exponent - 2) d.digits d.exponent) &&
    inside (compareScaled high (b.exponent - 2) d.digits d.exponent).swap

/-- The number divided by `10 ^ k`, rounded down. -/
def floorAt (b : Binary) (k : Int) : Nat :=
  b.significand * Nat.pow 2 b.exponent.toNat * Nat.pow 10 (-k).toNat /
    (Nat.pow 10 k.toNat * Nat.pow 2 (-b.exponent).toNat)

/-- The least `k` with the number below `10 ^ k`: the count of binary digits gives it up to two
steps. -/
def scale (b : Binary) : Int :=
  let guess := ((b.significand.log2 : Int) + b.exponent) * 30103 / 100000
  if b.compareTo ⟨1, guess⟩ = .lt then guess
  else if b.compareTo ⟨1, guess + 1⟩ = .lt then guess + 1
  else guess + 2

/-- The decimal chosen on the grid of multiples of `10 ^ k`, if one there reads back. -/
def onGrid (tie : Tie) (b : Binary) (k : Int) : Option Digits :=
  let below := b.floorAt k
  match b.readsBack ⟨below, k⟩, b.readsBack ⟨below + 1, k⟩ with
  | false, false => none
  | true, false => some ⟨below, k⟩
  | false, true => some ⟨below + 1, k⟩
  | true, true =>
    -- both neighbours read back: the nearer one, or a tie
    match compareScaled (2 * b.significand) b.exponent (2 * below + 1) k with
    | .lt => some ⟨below, k⟩
    | .gt => some ⟨below + 1, k⟩
    | .eq =>
      match tie with
      | .up => some ⟨below + 1, k⟩
      | .toEven => some (if below % 2 = 0 then ⟨below, k⟩ else ⟨below + 1, k⟩)

/-- The fewest digits that read back as the number, the nearest such decimal first. Seventeen
digits always suffice; the exact value stands behind them so that nothing is ever guessed. -/
def shortest (tie : Tie) (b : Binary) : Digits :=
  let top := b.scale
  let grids := (List.range 17).map fun n => top - 1 - Int.ofNat n
  (grids.findSome? (b.onGrid tie)).getD
    ⟨b.significand * Nat.pow 2 b.exponent.toNat * Nat.pow 5 (-b.exponent).toNat,
      min b.exponent 0⟩

end Binary

/-- Drop the trailing zeros of the digits, for at most `count` steps. -/
def Digits.strip (d : Digits) : Nat → Digits
  | 0 => d
  | count + 1 =>
    if d.digits ≠ 0 ∧ d.digits % 10 = 0 then Digits.strip ⟨d.digits / 10, d.exponent + 1⟩ count
    else d

end FleetMetrics.Decimal
