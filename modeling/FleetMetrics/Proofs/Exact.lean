import Mathlib
import FleetMetrics.Bucketizer

/-!
# Exact numbers

On binary64 numbers the sum of a list depends on the order of its terms, and there are two zeros.
So nothing that is added up in two ways comes out the same to the last bit. `Arithmetic.Exact`
lists what is assumed of numbers where this does not matter: addition is that of a commutative
monoid, and bounds that have one place in the order are one bound. Nothing is assumed of the
other operations, nor of how a bucketizer lays out its buckets.

Rationals with one infinite number are such numbers (`Extended`), so the assumptions can be met.

Main results:

* `Arithmetic.sum_append`, `Arithmetic.sum_perm` — sums of exact numbers do not depend on order.
-/

namespace FleetMetrics

namespace Arithmetic

/-- Numbers whose sums are exact. -/
class Exact (N : Type) [Arithmetic N] : Prop where
  add_comm : ∀ a b : N, a + b = b + a
  add_assoc : ∀ a b c : N, a + b + c = a + (b + c)
  zero_add : ∀ a : N, zero + a = a
  /-- There is one zero only. -/
  emptySum_eq : (emptySum : N) = zero
  ordered : Std.TransOrd (Bound N)
  /-- Different bounds have different places. -/
  apart : Std.LawfulEqOrd (Bound N)

variable {N : Type} [Arithmetic N] [Exact N]

instance : Std.TransOrd (Bound N) := Exact.ordered

instance : Std.LawfulEqOrd (Bound N) := Exact.apart

instance : Std.Associative (α := N) (· + ·) := ⟨Exact.add_assoc⟩

instance : Std.Commutative (α := N) (· + ·) := ⟨Exact.add_comm⟩

theorem add_zero (a : N) : a + zero = a := by
  rw [Exact.add_comm, Exact.zero_add]

theorem add_right_comm (a b c : N) : a + b + c = a + c + b := by
  rw [Exact.add_assoc, Exact.add_comm b c, ← Exact.add_assoc]

theorem sum_nil : sum ([] : List N) = zero := Exact.emptySum_eq

/-- The sum of two lists is the sum of their sums. -/
theorem sum_append (xs ys : List N) : sum (xs ++ ys) = sum xs + sum ys := by
  have hSplit : sum xs + sum ys = ys.foldl (· + ·) (sum xs + emptySum) := List.foldl_assoc.symm
  rw [hSplit, Exact.emptySum_eq, add_zero, sum, sum, List.foldl_append]

/-- The order of the summands does not matter. -/
theorem sum_perm {xs ys : List N} (perm : xs.Perm ys) : sum xs = sum ys :=
  perm.foldl_eq' (fun a _ b _ c => add_right_comm c a b) _

end Arithmetic

/-! ## Rationals with an infinite number -/

/-- A rational number, or the one above all of them. -/
inductive Extended
  | finite (value : ℚ)
  | infinite

namespace Extended

/-- An operation on rationals, which is infinite where an operand is. -/
def lift (f : ℚ → ℚ → ℚ) : Extended → Extended → Extended
  | .finite a, .finite b => .finite (f a b)
  | _, _ => .infinite

/-- The place in the order. -/
def place : Extended → WithTop ℚ
  | .finite a => a
  | .infinite => ⊤

instance : Arithmetic Extended where
  add := lift (· + ·)
  sub := lift (· - ·)
  mul := lift (· * ·)
  div := lift (· / ·)
  zero := .finite 0
  one := .finite 1
  emptySum := .finite 0
  infinity := .infinite
  ofInt n := .finite n
  floor
    | .finite a => .finite ⌊a⌋
    | .infinite => .infinite
  compare? a b := some (compare a.place b.place)
  order a b := compare a.place b.place
  wholeLog
    | .finite base, .finite value => Int.log ⌊base⌋.toNat value
    | _, _ => 0
  isFinite
    | .finite _ => true
    | .infinite => false
  text
    | .finite a => toString a
    | .infinite => "inf"

/-- Extended numbers are told apart by their places. -/
theorem place_injective : Function.Injective place := by
  intro a b same
  cases a <;> cases b <;> simp_all [place]

/-- Bounds are compared by their places. -/
theorem compare_bound (a b : Bound Extended) :
    compare a b = compare a.value.place b.value.place := rfl

instance : Arithmetic.Exact Extended where
  add_comm a b := by
    cases a <;> cases b
    · exact congrArg finite (Rat.add_comm _ _)
    all_goals rfl
  add_assoc a b c := by
    cases a <;> cases b <;> cases c
    · exact congrArg finite (Rat.add_assoc _ _ _)
    all_goals rfl
  zero_add a := by
    cases a
    · exact congrArg finite (Rat.zero_add _)
    · rfl
  emptySum_eq := rfl
  ordered := {
    eq_swap := fun {a b} => by
      rw [compare_bound, compare_bound]
      exact Std.OrientedCmp.eq_swap
    isLE_trans := fun {a b c} h h' => by
      rw [compare_bound] at h h' ⊢
      exact Std.TransCmp.isLE_trans h h' }
  apart := {
    eq_of_compare := fun {a b} h => by
      rw [compare_bound, compare_eq_iff_eq] at h
      obtain ⟨a⟩ := a
      obtain ⟨b⟩ := b
      exact congrArg Bound.mk (place_injective h)
    compare_self := fun {a} => by
      rw [compare_bound]
      exact compare_eq_iff_eq.mpr rfl }

end Extended

end FleetMetrics
