/-!
# Widths

Whole numbers that come from outside or go there have a width in bits.
-/

namespace FleetMetrics.Width

/-- How many values some bits can tell apart, and so the first whole number that does not fit. -/
def capacity (bits : Nat) : Nat :=
  Nat.pow 2 bits

/-- Does a number fit into some bits and a sign? -/
def fitsSigned (bits : Nat) (n : Int) : Bool :=
  decide (-(capacity bits : Int) ≤ n) && decide (n < capacity bits)

end FleetMetrics.Width
