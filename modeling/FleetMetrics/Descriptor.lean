import FleetMetrics.Bucketizer
import FleetMetrics.Catalog
import FleetMetrics.Roster

/-!
# Metric descriptors

A descriptor says how one statistic is computed from samples: the values that each field takes
for a pair of samples, and the number that a data point contributes. Field names are distinct,
since a field added under a known name takes the place of the earlier one.
-/

namespace FleetMetrics

/-- What a field or a contribution is computed from: the current sample, the one before it, and
the nanoseconds between them. -/
structure SamplePair (N : Type) where
  current : Sample N
  previous : Sample N
  interval : Nat

namespace SamplePair

variable {N : Type} [Arithmetic N]

/-- Two samples of one counter set. -/
def of (current previous : Sample N) : SamplePair N :=
  ⟨current, previous, current.interval previous⟩

/-- The growth of a counter. -/
def delta (p : SamplePair N) (counter : String) : N :=
  p.current.delta p.previous counter

end SamplePair

/-- One field of a metric. -/
structure FieldSpec (N : Type) where
  name : String
  label : String
  arity : FieldArity
  /-- The values it takes for a pair of samples. -/
  values : SamplePair N → List (FieldValue N)
  bucketizer : Option (Bucketizer N)

namespace FieldSpec

variable {N : Type}

/-- A field that groups. -/
def discrete (name label : String) (values : SamplePair N → List (FieldValue N)) : FieldSpec N :=
  ⟨name, label, .discrete, values, none⟩

/-- A field that is put into buckets. -/
def numeric (name label : String) (bucketizer : Bucketizer N)
    (values : SamplePair N → List (FieldValue N)) : FieldSpec N :=
  ⟨name, label, .numeric, values, some bucketizer⟩

/-- A grouping field read from an attribute; a sample without it has no value. -/
def fromAttribute [Arithmetic N] (name label attr : String) : FieldSpec N :=
  discrete name label fun p => ((p.current.attr? attr).map .text).toList

/-- A grouping field with the same texts for every sample. -/
def fixed (name label : String) (texts : List String) : FieldSpec N :=
  discrete name label fun _ => texts.map .text

/-- The catalog entry of a field. -/
def info (f : FieldSpec N) : FieldInfo :=
  ⟨f.label, f.arity⟩

end FieldSpec

/-- How one statistic is computed. -/
structure Descriptor (N : Type) where
  module : String
  stat : String
  label : String
  unit : String
  fields : List (FieldSpec N)
  /-- The contribution of a data point, or nothing if it is to be dropped. -/
  extract : FieldMap N → SamplePair N → Option N
  /-- The fields that `extract` reads from the data point. -/
  extractUses : List String
  distinct : (fields.map (·.name)).Nodup

namespace Descriptor

variable {N : Type}

/-- A statistic without fields, whose data points contribute one each. -/
def new [Arithmetic N] (module stat label unit : String) : Descriptor N where
  module := module
  stat := stat
  label := label
  unit := unit
  fields := []
  extract _ _ := some Arithmetic.one
  extractUses := []
  distinct := List.nodup_nil

/-- Add a field, in the place of an earlier one with its name. -/
def field (d : Descriptor N) (f : FieldSpec N) : Descriptor N :=
  { d with
    fields := Roster.put (·.name) f d.fields
    distinct := Roster.nodup_put d.distinct }

/-- Set the contribution of a data point and the fields it reads. -/
def withExtract (d : Descriptor N) (uses : List String)
    (extract : FieldMap N → SamplePair N → Option N) : Descriptor N :=
  { d with extract := extract, extractUses := uses }

def field? (d : Descriptor N) (name : String) : Option (FieldSpec N) :=
  Roster.find? (·.name) name d.fields

def arityOf (d : Descriptor N) (name : String) : Option FieldArity :=
  (d.field? name).map (·.arity)

/-- Add the field that every metric of a host carries, unless there is one of that name. -/
def withHostname (d : Descriptor N) (hostname : String) : Descriptor N :=
  match d.field? hostnameField with
  | some _ => d
  | none => d.field (FieldSpec.fixed hostnameField "hostname" [hostname])

/-- The catalog entry of the statistic. -/
def statInfo (d : Descriptor N) : StatInfo where
  label := d.label
  unit := d.unit
  fields := Table.ofList (d.fields.map fun f => (f.name, f.info))

end Descriptor

end FleetMetrics
