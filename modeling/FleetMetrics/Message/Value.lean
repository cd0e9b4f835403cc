import FleetMetrics.Json
import FleetMetrics.ReducedValue

/-!
# The JSON form of reduced values

A scalar is a number, a distribution an array of buckets, a breakdown an object. Which of the
three a value is shows in its form alone, so a reader tries them in this order. A number that is
not finite is written as null, which is none of the three.
-/

namespace FleetMetrics

variable {N : Type} [Arithmetic N]

namespace Json

/-- Any number. -/
def number? : Json N → Option N
  | .int i => some (Arithmetic.ofInt i)
  | .float x => some x
  | _ => none

/-- The form of a number. -/
def ofNumber (x : N) : Json N :=
  if Arithmetic.isFinite x then .float x else .null

end Json

/-- The bucket that a record spells. -/
def Bucket.ofJson? (j : Json N) : Option (Bucket N) :=
  match j.fields? ["min", "max", "value"] with
  | some [min, max, value] => do
    let min ← Json.required Json.number? min
    let max ← Json.required Json.number? max
    let weight ← Json.required Json.number? value
    some ⟨min, max, weight⟩
  | _ => none

def Bucket.toJson (b : Bucket N) : Json N :=
  .object [("min", .ofNumber b.min), ("max", .ofNumber b.max), ("value", .ofNumber b.weight)]

namespace ReducedValue

mutual

/-- The value that a JSON value spells. -/
def ofJson? : Json N → Option (ReducedValue N)
  | .int i => some (.scalar (Arithmetic.ofInt i))
  | .float x => some (.scalar x)
  | .array items => (items.mapM Bucket.ofJson?).map fun bs => .distribution (.ofBuckets bs)
  | .object members => (ofMembers? members).map fun groups => .discrete (Table.ofList groups)
  | _ => none

/-- The entries that the members of an object spell. -/
def ofMembers? : List (String × Json N) → Option (List (String × ReducedValue N))
  | [] => some []
  | (key, j) :: rest => do
    let v ← ofJson? j
    let vs ← ofMembers? rest
    some ((key, v) :: vs)

end

mutual

/-- The JSON form of a value. -/
def toJson : ReducedValue N → Json N
  | .scalar x => .ofNumber x
  | .distribution d => .array (d.buckets.map Bucket.toJson)
  | .discrete groups => .object (toMembers groups)

/-- The members for the entries of a breakdown. -/
def toMembers : List (String × ReducedValue N) → List (String × Json N)
  | [] => []
  | (key, v) :: rest => (key, toJson v) :: toMembers rest

end

end ReducedValue

end FleetMetrics
