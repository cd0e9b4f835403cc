import FleetMetrics.Descriptor

/-!
# Expansion into data points

The fields of a query are expanded to every combination of their values. The first field varies
fastest and the last slowest; of fields with one name the first gives the value.

The maps of the later columns are made first and are then used up. Each goes into one map for every
value of the column before them: the last value takes the map itself, and only the values before
it take copies.
-/

namespace FleetMetrics

variable {N : Type}

/-- Enter every value of a column into each of some maps. -/
def branch (name : String) (values : List (FieldValue N)) : List (FieldMap N) → List (FieldMap N)
  | [] => []
  | point :: rest =>
    match values.getLast? with
    -- a column without values leaves no map, whatever the others are
    | none => []
    | some last =>
      (values.dropLast.map fun v => Table.insert point name v) ++
        Table.insert point name last :: branch name values rest

/-- Every choice of one value from each named column. Without columns there is one choice, which
names nothing; a column without values leaves none. -/
def cartesian : List (String × List (FieldValue N)) → List (FieldMap N)
  | [] => [[]]
  | [(name, values)] => values.map fun v => Table.insert [] name v
  | (name, values) :: rest => branch name values (cartesian rest)

/-- The combinations of the values that some fields take for a pair of samples. -/
def expand (fields : List (FieldSpec N)) (p : SamplePair N) : List (FieldMap N) :=
  cartesian (fields.map fun f => (f.name, f.values p))

end FleetMetrics
