import FleetMetrics.ReducedValue

/-!
# Reduction

Data points are reduced along a decomposition, field by field. A grouping field splits the points
by the key of their value, a numeric one puts them into buckets, and with no field left their
values are summed. Points that lack a field, or whose numeric field is no number, drop out at
that field.
-/

namespace FleetMetrics

variable {N : Type} [Arithmetic N]

/-- The points by the key of one of their fields, each group in the order of the points. -/
def groupByKey (field : String) (points : List (DataPoint N)) : Table String (List (DataPoint N)) :=
  points.foldl
    (fun groups p =>
      match p.fields.find? field with
      | some v => Table.alter groups v.key fun old => old.getD [] ++ [p]
      | none => groups)
    []

/-- The buckets that the points fall into by one of their fields, with the points' values. -/
def bucketsOf (bucketizer : Bucketizer N) (field : String) (points : List (DataPoint N)) :
    List (Bucket N) :=
  points.filterMap fun p =>
    ((p.fields.find? field).bind FieldValue.number?).map fun v => bucketizer.bucket v p.value

/-- The value of some data points along a decomposition whose numeric field, if any, is last. -/
def reduce (points : List (DataPoint N)) : List (FieldSpec N) → ReducedValue N
  | [] => .scalar (Arithmetic.sum (points.map (·.value)))
  | f :: rest =>
    match f.arity with
    | .discrete =>
      -- a point without the field is in no group
      .discrete ((groupByKey f.name points).map fun entry => (entry.1, reduce entry.2 rest))
    | .numeric =>
      match f.bucketizer with
      | some b => .distribution (.ofBuckets (bucketsOf b f.name points))
      | none => .distribution .empty

end FleetMetrics
