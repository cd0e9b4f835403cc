import FleetMetrics.Arithmetic
import FleetMetrics.Table
import FleetMetrics.Width

/-!
# Fields and samples

A sample is one snapshot of a set of counters. From the samples of one counter set at two times a
metric derives field values; one choice of a value for each field, together with a number that it
contributes, is a data point.
-/

namespace FleetMetrics

/-- The value of one field, or a literal in a predicate. -/
inductive FieldValue (N : Type) where
  | number (value : N)
  | text (value : String)
  deriving DecidableEq, BEq, Repr

namespace FieldValue

variable {N : Type}

def number? : FieldValue N → Option N
  | .number x => some x
  | .text _ => none

def text? : FieldValue N → Option String
  | .number _ => none
  | .text s => some s

/-- The key under which a value groups. -/
def key [Arithmetic N] : FieldValue N → String
  | .number x => Arithmetic.text x
  | .text s => s

end FieldValue

/-- Does a field group the points, or put them into buckets? -/
inductive FieldArity
  | discrete
  | numeric
  deriving DecidableEq, Repr

/-- The name of an arity. -/
def FieldArity.name : FieldArity → String
  | .discrete => "discrete"
  | .numeric => "numeric"

/-- Field names with their values, for one data point. -/
abbrev FieldMap (N : Type) := Table String (FieldValue N)

/-- One combination of field values with its numeric contribution. -/
structure DataPoint (N : Type) where
  fields : FieldMap N
  value : N

/-- One snapshot of a counter set. -/
structure Sample (N : Type) where
  /-- Which counter set, for instance `cpu:0`. -/
  key : String
  /-- When it was taken, in nanoseconds. -/
  time : Int
  /-- Counters that only grow. -/
  counters : Table String N
  /-- Names and classes. -/
  attributes : Table String String

namespace Sample

variable {N : Type} [Arithmetic N]

/-- The value of a counter, zero when there is none. -/
def counter (s : Sample N) (name : String) : N :=
  (s.counters.find? name).getD Arithmetic.zero

def attr? (s : Sample N) (name : String) : Option String :=
  s.attributes.find? name

/-- The growth of a counter since an earlier sample. -/
def delta (s previous : Sample N) (name : String) : N :=
  s.counter name - previous.counter name

/-- Nanoseconds since an earlier sample; none when that one is later. The difference is held
below the longest time of 64 bits. -/
def interval (s previous : Sample N) : Nat :=
  (min (s.time - previous.time) (Width.capacity 63 - 1 : Nat)).toNat

end Sample

/-- The field that every metric of a host carries: the host's name. -/
def hostnameField : String := "hostname"

end FleetMetrics
