import FleetMetrics.Error
import FleetMetrics.Text.Blank

/-!
# Routing keys

Messages are published under routing keys. Every key of a fleet starts with the fleet's key base:
the coordinator and all agents together have one key each, every agent has its own, and the
values of an instrumentation flow under a stream key of their own.
-/

namespace FleetMetrics

/-- The parts that take part in a fleet. -/
inductive Role
  | coordinator
  | instrumenter
  | aggregator
  deriving DecidableEq, Repr

/-- The name of a role. -/
def Role.name : Role → String
  | .coordinator => "coordinator"
  | .instrumenter => "instrumenter"
  | .aggregator => "aggregator"

/-- The role that a word names. -/
def Role.ofName? (s : String) : Option Role :=
  [Role.coordinator, .instrumenter, .aggregator].find? (·.name = s)

namespace Routing

/-- A key below the key base. -/
def key (base suffix : String) : String :=
  s!"{base}.{suffix}"

/-- The key that agents send to. -/
def coordinator (base : String) : String :=
  key base "config"

/-- The key that every agent listens on besides its own. -/
def broadcast (base : String) : String :=
  key base "all"

/-- The key of one agent. -/
def agent (base : String) (role : Role) (hostname : String) : String :=
  key (key base role.name) hostname

/-- The key under which the values of one instrumentation flow. -/
def stream (base : String) (id : Nat) : String :=
  key (key base "instrumentation") (toString id)

/-- Can messages be published under a key? It must not be empty or hold white space. -/
def isValid (key : String) : Bool :=
  !key.toList.isEmpty && !key.toList.any Text.isBlank

end Routing

end FleetMetrics
