import FleetMetrics.Field

/-!
# The catalog

What metrics exist: modules with their statistics, and for each statistic its fields. The
catalog is put together from what the hosts announce. At every level the first description seen
stays: later ones add what is missing and change nothing.
-/

namespace FleetMetrics

/-- What is known of one field. -/
structure FieldInfo where
  label : String
  arity : FieldArity
  deriving DecidableEq

/-- What is known of one statistic. -/
structure StatInfo where
  label : String
  /-- The unit it is shown in. -/
  unit : String
  fields : Table String FieldInfo
  deriving DecidableEq

/-- What is known of one module. -/
structure ModuleInfo where
  label : String
  stats : Table String StatInfo
  deriving DecidableEq

/-- Modules by name. -/
abbrev Catalog := Table String ModuleInfo

/-- The arity of a field of a statistic. -/
def StatInfo.arityOf (s : StatInfo) (field : String) : Option FieldArity :=
  (s.fields.find? field).map (·.arity)

/-- Add the entries of one table to another by a rule for keys that both may have. -/
def Table.mergeWith {κ β : Type} [Ord κ] (rule : Option β → β → β) (known news : Table κ β) :
    Table κ β :=
  news.foldl (fun t entry => t.alter entry.1 fun old => rule old entry.2) known

namespace Catalog

/-- A field keeps its first description. -/
def mergeField (known : Option FieldInfo) (news : FieldInfo) : FieldInfo :=
  known.getD news

/-- A statistic keeps its first label and unit and gains the fields it lacks. -/
def mergeStat (known : Option StatInfo) (news : StatInfo) : StatInfo :=
  let first := known.getD ⟨news.label, news.unit, []⟩
  { first with fields := first.fields.mergeWith mergeField news.fields }

/-- A module keeps its first label and gains the statistics it lacks. -/
def mergeModule (known : Option ModuleInfo) (news : ModuleInfo) : ModuleInfo :=
  let first := known.getD ⟨news.label, []⟩
  { first with stats := first.stats.mergeWith mergeStat news.stats }

/-- The catalog after an announcement. -/
def merge (c : Catalog) (modules : Table String ModuleInfo) : Catalog :=
  Table.mergeWith mergeModule c modules

/-- A statistic of a module. -/
def stat? (c : Catalog) (module stat : String) : Option StatInfo :=
  (Table.find? c module).bind fun m => m.stats.find? stat

/-- How many statistics there are. -/
def statCount (modules : Table String ModuleInfo) : Nat :=
  modules.foldl (fun n entry => n + entry.2.stats.length) 0

end Catalog

end FleetMetrics
