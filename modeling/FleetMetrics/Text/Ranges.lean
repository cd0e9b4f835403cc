/-!
# Character ranges

A class of characters is a list of ranges of code points, both ends included, in ascending order.
-/

namespace FleetMetrics.Text

/-- Ranges of code points, both ends included. -/
abbrev Ranges := List (Nat × Nat)

/-- Is a character in one of the ranges? -/
def Ranges.contains (rs : Ranges) (c : Char) : Bool :=
  rs.any fun r => r.1 ≤ c.toNat && c.toNat ≤ r.2

end FleetMetrics.Text
