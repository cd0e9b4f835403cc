import FleetMetrics.Query

/-!
# Sampled metrics

A feed holds the current sample of each counter set of a host. A sampled metric reads a feed again
and again and evaluates its query on each reading against the one before. A reading that fails
leaves the metric as it was, so the next one that succeeds covers the whole time since the last
that did.
-/

namespace FleetMetrics

/-- The current samples of a host. -/
structure Feed (N : Type) where
  samples : Table String (Sample N)
  /-- Why every reading fails at present. -/
  failure : Option String

namespace Feed

variable {N : Type}

def empty : Feed N := ⟨[], none⟩

/-- Enter a sample, in the place of the one with its key. -/
def set (f : Feed N) (s : Sample N) : Feed N :=
  { f with samples := f.samples.insert s.key s }

def remove (f : Feed N) (key : String) : Feed N :=
  { f with samples := f.samples.erase key }

/-- Let every reading fail. -/
def fail (f : Feed N) (reason : String) : Feed N :=
  { f with failure := some reason }

/-- Let readings succeed again. -/
def recover (f : Feed N) : Feed N :=
  { f with failure := none }

/-- All samples, by key. -/
def snapshot (f : Feed N) : Except MetricError (List (Sample N)) :=
  match f.failure with
  | some reason => .error (.source reason)
  | none => .ok f.samples.values

/-- Is a key within the scope of a reading? -/
def inScope (scope : Option String) (key : String) : Bool :=
  match scope with
  | some front => front.toList.isPrefixOf key.toList
  | none => true

/-- The samples whose key starts with the scope, if there is one. -/
def read (f : Feed N) (scope : Option String) : Except MetricError (List (Sample N)) :=
  f.snapshot.map fun samples => samples.filter fun s => inScope scope s.key

end Feed

/-- A query with the reading it is evaluated against next. -/
structure SampledMetric (N : Type) where
  query : Query N
  /-- What the keys of its samples start with. -/
  scope : Option String
  previous : Option (List (Sample N))
  instrumented : Bool

namespace SampledMetric

variable {N : Type} [Arithmetic N]

/-- A metric that is not sampled yet. -/
def new (query : Query N) (scope : Option String) : SampledMetric N :=
  ⟨query, scope, none, false⟩

/-- Start sampling afresh. -/
def instrument (m : SampledMetric N) : SampledMetric N :=
  { m with previous := none, instrumented := true }

/-- Stop sampling. -/
def deinstrument (m : SampledMetric N) : SampledMetric N :=
  { m with previous := none, instrumented := false }

/-- The value of the current reading. The first one after the start gives the typed zero. -/
def value (m : SampledMetric N) (f : Feed N) :
    Except MetricError (ReducedValue N) × SampledMetric N :=
  if m.instrumented then
    match f.read m.scope with
    | .ok current =>
      (.ok (m.query.evaluate current m.previous), { m with previous := some current })
    -- the earlier reading stays, and the next value covers the whole time since
    | .error e => (.error e, m)
  else (.error .notInstrumented, m)

end SampledMetric

end FleetMetrics
