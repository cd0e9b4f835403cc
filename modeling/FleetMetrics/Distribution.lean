import FleetMetrics.Arithmetic
import FleetMetrics.Table

/-!
# Buckets and distributions

A bucket holds the weight of the values from its minimum up to, but not including, its maximum.
A distribution has at most one bucket for each minimum and lists them in ascending order; weight
added to a minimum that has a bucket goes to that bucket, whose bounds stay as they were.
-/

namespace FleetMetrics

/-- A lower end of a bucket, ordered as `Arithmetic.order` says. -/
structure Bound (N : Type) where
  value : N
  deriving BEq

instance {N : Type} [Arithmetic N] : Ord (Bound N) where
  compare a b := Arithmetic.order a.value b.value

/-- Weight between two bounds. -/
structure Bucket (N : Type) where
  min : N
  max : N
  weight : N

/-- The upper end and the weight of each bucket, under its lower end. -/
structure Distribution (N : Type) where
  table : Table (Bound N) (N × N)
  deriving BEq

namespace Distribution

variable {N : Type}

def empty : Distribution N := ⟨[]⟩

/-- The buckets in ascending order. -/
def buckets (d : Distribution N) : List (Bucket N) :=
  d.table.map fun entry => ⟨entry.1.value, entry.2.1, entry.2.2⟩

def size (d : Distribution N) : Nat :=
  d.table.length

variable [Arithmetic N]

/-- Add weight to the bucket with a minimum. A bucket starts with no weight and the maximum that
comes with its first. -/
def add (d : Distribution N) (b : Bucket N) : Distribution N :=
  ⟨d.table.alter ⟨b.min⟩ fun old =>
    -- the bound that came first stays
    let (max, weight) := old.getD (b.max, Arithmetic.zero)
    (max, weight + b.weight)⟩

/-- The distribution of some buckets, added in order. -/
def ofBuckets (bs : List (Bucket N)) : Distribution N :=
  bs.foldl add empty

/-- Add every bucket of another distribution. -/
def merge (d other : Distribution N) : Distribution N :=
  other.buckets.foldl add d

/-- The weight of the bucket with a minimum. -/
def weightAt (d : Distribution N) (min : N) : Option N :=
  (d.table.find? ⟨min⟩).map (·.2)

/-- The weight of all buckets. -/
def total (d : Distribution N) : N :=
  Arithmetic.sum (d.table.values.map (·.2))

end Distribution

end FleetMetrics
