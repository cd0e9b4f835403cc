import FleetMetrics.Width

/-!
# Whole numbers in a width

A whole number is read from decimal digits, with an optional plus sign in front, and must fit into
a given number of bits. The first fault from the left counts.
-/

namespace FleetMetrics.Decimal

/-- Why a text is no whole number. -/
inductive WholeError
  | empty
  | invalidDigit
  | tooLarge
  deriving DecidableEq, Repr

/-- The text of such a fault. -/
def WholeError.message : WholeError → String
  | .empty => "cannot parse integer from empty string"
  | .invalidDigit => "invalid digit found in string"
  | .tooLarge => "number too large to fit in target type"

/-- One digit more. -/
def appendDigit (bits n : Nat) (c : Char) : Except WholeError Nat :=
  if c.isDigit then
    let m := n * 10 + (c.toNat - '0'.toNat)
    if m < Width.capacity bits then .ok m else .error .tooLarge
  else .error .invalidDigit

/-- The number that a text spells. -/
def readWhole (bits : Nat) (s : String) : Except WholeError Nat :=
  match s.toList with
  | [] => .error .empty
  | ['+'] => .error .invalidDigit
  | '+' :: digits => digits.foldlM (appendDigit bits) 0
  | digits => digits.foldlM (appendDigit bits) 0

end FleetMetrics.Decimal
