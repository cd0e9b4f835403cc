import FleetMetrics.Expansion
import FleetMetrics.Predicate
import FleetMetrics.Reduction

/-!
# Queries

A query binds a descriptor to a predicate and a decomposition. Compiling it checks the request
and finds the fields that have to be expanded; evaluating it turns two snapshots into one reduced
value.

    samples --expand--> data points --predicate, extract--> contributions --reduce--> value
-/

namespace FleetMetrics

/-! ## Requests -/

/-- The first field of a decomposition that cannot be used: it occurred before, or it is not
known. -/
def firstBadField? (module stat : String) (arityOf : String → Option FieldArity) :
    (seen rest : List String) → Option MetricError
  | _, [] => none
  | seen, f :: rest =>
    if f ∈ seen then some (.duplicateDecomposition f)
    else if (arityOf f).isNone then some (.unknownField f module stat)
    else firstBadField? module stat arityOf (f :: seen) rest

/-- The fields of a decomposition with a numeric arity, in order. -/
def numericFields (arityOf : String → Option FieldArity) (decomposition : List String) :
    List String :=
  decomposition.filter fun f => arityOf f = some .numeric

/-- More than one numeric field in a decomposition. -/
def numericFault? (arityOf : String → Option FieldArity) (decomposition : List String) :
    Option MetricError :=
  let numeric := numericFields arityOf decomposition
  if 1 < numeric.length then some (.multipleNumeric numeric) else none

/-- What is wrong with a predicate and a decomposition for a statistic with certain fields. -/
def requestFault? {N : Type} (module stat : String) (predicate : Predicate N)
    (decomposition : List String) (arityOf : String → Option FieldArity) : Option MetricError :=
  (firstBadField? module stat arityOf [] decomposition).or
    ((numericFault? arityOf decomposition).or (predicate.fault? module stat arityOf))

/-- A decomposition with its numeric fields last, otherwise in order. -/
def orderDecomposition (arityOf : String → Option FieldArity) (decomposition : List String) :
    List String :=
  (decomposition.filter fun f => arityOf f ≠ some .numeric) ++ numericFields arityOf decomposition

/-! ## Compiled queries -/

/-- A descriptor with a predicate and a decomposition that fit it. -/
structure Query (N : Type) where
  descriptor : Descriptor N
  predicate : Predicate N
  /-- The fields to expand, in the order of the descriptor. -/
  needed : List (FieldSpec N)
  /-- The fields to reduce along, a numeric one last. -/
  decomposition : List (FieldSpec N)

namespace Query

variable {N : Type} [Arithmetic N]

/-- The first field that needs a bucketizer and has none that can be used. -/
def bucketizerFault? (fields : List (FieldSpec N)) : Option MetricError :=
  fields.findSome? fun f =>
    match f.arity, f.bucketizer with
    | .discrete, _ => none
    | .numeric, none => some (.missingBucketizer f.name)
    | .numeric, some b => if b.isValid then none else some (.invalidBucketizer f.name)

/-- The names of the fields a query needs: those it is decomposed by, those its predicate
compares, those its contribution reads, and the host's name if the metric carries it. -/
def neededNames (d : Descriptor N) (p : Predicate N) (decomposition : List String) : List String :=
  -- the host is part of every data point, asked for or not
  let hostname := if (d.field? hostnameField).isSome then [hostnameField] else []
  Table.keys (Table.ofList ((decomposition ++ p.fields ++ d.extractUses ++ hostname).map
    fun f => (f, ())))

/-- The first name that is no field of the descriptor. -/
def missingField? (d : Descriptor N) (names : List String) : Option MetricError :=
  (names.find? fun f => (d.field? f).isNone).map fun f => .unknownField f d.module d.stat

/-- The fields of a decomposition, a numeric one last. -/
def orderedFields (d : Descriptor N) (decomposition : List String) : List (FieldSpec N) :=
  (orderDecomposition d.arityOf decomposition).filterMap d.field?

/-- Why a predicate and a decomposition do not fit a descriptor. -/
def fault? (d : Descriptor N) (p : Predicate N) (decomposition : List String) :
    Option MetricError :=
  (requestFault? d.module d.stat p decomposition d.arityOf).or
    ((bucketizerFault? (orderedFields d decomposition)).or
      (missingField? d (neededNames d p decomposition)))

/-- Bind a descriptor to a predicate and a decomposition. -/
def compile (d : Descriptor N) (p : Predicate N) (decomposition : List String) :
    Except MetricError (Query N) :=
  match fault? d p decomposition with
  | some fault => .error fault
  | none =>
    .ok {
      descriptor := d
      predicate := p
      needed := d.fields.filter fun f => f.name ∈ neededNames d p decomposition
      decomposition := orderedFields d decomposition }

/-- The names of the fields expanded for each pair of samples. -/
def neededFields (q : Query N) : List String :=
  q.needed.map (·.name)

/-- The value of no data points. -/
def zero (q : Query N) : ReducedValue N :=
  .zero q.decomposition

/-- The data points of one pair of samples that the predicate keeps and that contribute. -/
def dataPoints (q : Query N) (p : SamplePair N) : List (DataPoint N) :=
  ((expand q.needed p).filter q.predicate.eval).filterMap fun point =>
    (q.descriptor.extract point p).map fun value => ⟨point, value⟩

/-- The sample of a snapshot with a key; of several, the last. -/
def sampleOf? (snapshot : List (Sample N)) (key : String) : Option (Sample N) :=
  snapshot.reverse.find? (·.key = key)

/-- The data points of a snapshot against an earlier one. Samples that the earlier one lacks have
none. -/
def points (q : Query N) (current previous : List (Sample N)) : List (DataPoint N) :=
  current.flatMap fun s =>
    match sampleOf? previous s.key with
    -- growth needs two samples of one counter set
    | some before => q.dataPoints (.of s before)
    | none => []

/-- The value of some data points; of none it is the typed zero. -/
def summarize (q : Query N) (points : List (DataPoint N)) : ReducedValue N :=
  if points.isEmpty then q.zero else reduce points q.decomposition

/-- The value of a snapshot against the one before it; without one before, the typed zero. -/
def evaluate (q : Query N) (current : List (Sample N)) (previous : Option (List (Sample N))) :
    ReducedValue N :=
  match previous with
  | some previous => q.summarize (q.points current previous)
  | none => q.zero

end Query

end FleetMetrics
