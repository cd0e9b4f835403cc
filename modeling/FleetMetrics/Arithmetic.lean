/-!
# Arithmetic

Counters, weights and bucket bounds are numbers. The metric model asks of them only what this
class lists, so that the same definitions run on binary64 numbers and can be read with exact
numbers.
-/

namespace FleetMetrics

/-- Numbers that can be counted, summed, put into buckets and written out. -/
class Arithmetic (N : Type) extends Add N, Sub N, Mul N, Div N where
  zero : N
  one : N
  /-- What the sum of no terms is, and where every sum starts. -/
  emptySum : N
  /-- The bound of a bucket that has no upper end. -/
  infinity : N
  ofInt : Int → N
  /-- The largest whole number that is not above. -/
  floor : N → N
  /-- Numeric order; a number that is none compares with nothing. -/
  compare? : N → N → Option Ordering
  /-- The total order in which bucket bounds are kept. -/
  order : N → N → Ordering
  /-- The rounded logarithm to a base, rounded down to a whole number. -/
  wholeLog : (base value : N) → Int
  isFinite : N → Bool
  /-- The text under which a number groups. -/
  text : N → String

namespace Arithmetic

variable {N : Type} [Arithmetic N]

/-- `a` is below `b`. -/
def below (a b : N) : Bool :=
  compare? a b = some .lt

/-- `a` is not above `b`. -/
def atMost (a b : N) : Bool :=
  match compare? a b with
  | some .lt | some .eq => true
  | _ => false

/-- The smaller of two numbers; one that compares with nothing gives way to the other. -/
def least (a b : N) : N :=
  match compare? a b with
  | some .gt => b
  | some _ => a
  | none => if (compare? a a).isNone then b else a

/-- The left-to-right sum. -/
def sum (terms : List N) : N :=
  terms.foldl (· + ·) emptySum

/-- Multiply `acc` by `b ^ n` by repeated squaring, looking at one binary digit of `n` a step. -/
def squarings (acc b : N) (n : Nat) : Nat → N
  | 0 => acc
  | steps + 1 =>
    let acc := if n % 2 = 1 then acc * b else acc
    if n / 2 = 0 then acc else squarings acc (b * b) (n / 2) steps

/-- A whole power; a negative one is the reciprocal of the positive. -/
def power (b : N) (e : Int) : N :=
  let n := e.natAbs
  let p := squarings one b n (n.log2 + 1)
  if e < 0 then one / p else p

end Arithmetic

end FleetMetrics
