import Mathlib
import FleetMetrics.Arithmetic.Binary64
import FleetMetrics.Distribution

/-!
# Binary64 numbers as data

Binary64 numbers are no ring, and equality on them is no identity: the number that is none differs
from itself, and the two zeros are equal. What the program relies on when it stores and sends such
numbers is less than that, and holds: finite numbers equal themselves, a weight is not changed by
adding it to nothing, and bounds are totally ordered.
-/

namespace FleetMetrics.Binary64

open Float.Model

/-- A finite number equals itself, which NaN does not. -/
theorem beq_self {x : Float} (finite : x.isFinite = true) : (x == x) = true := by
  refine Float.beq_self_iff.mpr ?_
  rintro rfl
  revert finite
  decide +kernel

theorem add_eq (x y : Float) :
    x + y = ⟨pack (UnpackedFloat.add Format.binary64 x.toModel.unpack y.toModel.unpack)⟩ := rfl

/-- A number put together from its parts. -/
theorem pack_unpack (x : Float) : (⟨pack x.toModel.unpack⟩ : Float) = x :=
  Float.ofBits_toBits x

/-- **Nothing and a weight.** A finite weight equals what it adds to no weight; minus zero becomes
zero, which is equal to it. -/
theorem zero_add_beq {w : Float} (finite : w.isFinite = true) : (0.0 + w == w) = true := by
  have hZero : (0.0 : Float).toModel.unpack = .zero .positive := rfl
  have hParts := pack_unpack w
  rw [add_eq, hZero]
  cases hw : w.toModel.unpack with
  | notANumber | infinity =>
    change w.toModel.unpack.isFinite = true at finite
    rw [hw] at finite
    cases finite
  | zero sign =>
    rw [hw] at hParts
    rw [← hParts]
    cases sign <;> decide +kernel
  | finite sign mantissa exponent pos =>
    -- the sum is not rounded
    have hSum : UnpackedFloat.add Format.binary64 (.zero .positive)
        (.finite sign mantissa exponent pos) = .finite sign mantissa exponent pos := rfl
    rw [hSum, ← hw, hParts]
    exact beq_self finite

instance : Std.TransOrd (Bound Float) :=
  inferInstanceAs (Std.TransCmp (compareOn fun b : Bound Float => rank b.value))

end FleetMetrics.Binary64
