import FleetMetrics.Descriptor
import FleetMetrics.Error

/-!
# Reduced values

Data points are reduced to one number, to a distribution over buckets, or to a breakdown by a
key whose entries are reduced values again. Values of one shape merge: numbers add, distributions
add bucket by bucket, and breakdowns merge key by key.
-/

namespace FleetMetrics

/-- The value of a query. -/
inductive ReducedValue (N : Type) where
  | scalar (value : N)
  | distribution (value : Distribution N)
  /-- A table from keys to values. -/
  | discrete (groups : List (String × ReducedValue N))

namespace ReducedValue

variable {N : Type}

mutual

/-- Are two values of one shape, with the same numbers throughout? -/
def same [BEq N] : ReducedValue N → ReducedValue N → Bool
  | .scalar x, .scalar y => x == y
  | .distribution d, .distribution d' => d == d'
  | .discrete groups, .discrete groups' => sameGroups groups groups'
  | _, _ => false

/-- Do two breakdowns have the same keys, with the same value under each? -/
def sameGroups [BEq N] :
    List (String × ReducedValue N) → List (String × ReducedValue N) → Bool
  | [], [] => true
  | (key, v) :: rest, (key', v') :: rest' => key == key' && same v v' && sameGroups rest rest'
  | _, _ => false

end

instance [BEq N] : BEq (ReducedValue N) := ⟨same⟩

def shape : ReducedValue N → Shape
  | .scalar _ => .scalar
  | .distribution _ => .distribution
  | .discrete _ => .discrete

def scalar? : ReducedValue N → Option N
  | .scalar x => some x
  | _ => none

/-- The scalar entries of a breakdown, by key. -/
def scalars : ReducedValue N → Table String N
  | .discrete groups => groups.filterMap fun entry => entry.2.scalar?.map fun x => (entry.1, x)
  | _ => []

variable [Arithmetic N]

/-- The value of no data points along a decomposition. -/
def zero : List (FieldSpec N) → ReducedValue N
  | [] => .scalar Arithmetic.zero
  | f :: _ =>
    match f.arity with
    | .discrete => .discrete []
    | .numeric => .distribution .empty

mutual

/-- Merge a second value into a first. When two shapes meet that do not fit, the first value is
left with what had been merged before them, and the fault comes with it. -/
def absorb : ReducedValue N → ReducedValue N → ReducedValue N × Option MetricError
  | .scalar a, .scalar b => (.scalar (a + b), none)
  | .distribution a, .distribution b => (.distribution (a.merge b), none)
  | .discrete a, .discrete b =>
    let (groups, fault) := absorbGroups a b
    (.discrete groups, fault)
  | a, b => (a, some (.shapeMismatch a.shape b.shape))
termination_by structural _ b => b

/-- Merge the entries of a breakdown, in the order of their keys, up to the first fault. -/
def absorbGroups (groups : Table String (ReducedValue N)) :
    List (String × ReducedValue N) → Table String (ReducedValue N) × Option MetricError
  | [] => (groups, none)
  | (key, value) :: rest =>
    match groups.find? key with
    | none => absorbGroups (groups.insert key value) rest
    | some known =>
      -- a fault further down leaves the part that was merged before it
      match absorb known value with
      | (merged, none) => absorbGroups (groups.insert key merged) rest
      | (merged, some fault) => (groups.insert key merged, some fault)
termination_by structural entries => entries

end

/-- The merge of two values, if their shapes fit throughout. -/
def merge (a b : ReducedValue N) : Except MetricError (ReducedValue N) :=
  match a.absorb b with
  | (value, none) => .ok value
  | (_, some fault) => .error fault

end ReducedValue

end FleetMetrics
