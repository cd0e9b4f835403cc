import FleetMetrics.Message

/-!
# The registry

Which agents are known, and the catalog of what they can measure. Agents are listed in the order
in which they first came online and are never removed. One that comes online again has restarted:
it keeps its place, its description is replaced, and it starts with no load.
-/

namespace FleetMetrics

/-- What is known of one agent. -/
structure AgentRecord where
  hostname : String
  /-- The key it listens on. -/
  routingKey : String
  agent : AgentInfo
  /-- How many metrics it offers; an aggregator offers none. -/
  metrics : Nat
  /-- How many instrumentations it works on. The count has no bound here; a machine word holds it,
  as what it counts is in memory. -/
  load : Nat
  lastOnline : Timestamp
  deriving DecidableEq

/-- The record of an agent with another load. -/
def AgentRecord.changeLoad (g : Nat → Nat) (r : AgentRecord) : AgentRecord :=
  { r with load := g r.load }

/-- Agents of one kind by hostname, in first-seen order. -/
structure Directory where
  records : List AgentRecord
  distinct : (records.map (·.hostname)).Nodup

namespace Directory

def empty : Directory := ⟨[], List.nodup_nil⟩

def find? (d : Directory) (hostname : String) : Option AgentRecord :=
  Roster.find? (·.hostname) hostname d.records

/-- Enter an agent, in its old place if it has one. -/
def enter (d : Directory) (r : AgentRecord) : Directory :=
  ⟨Roster.put (·.hostname) r d.records, Roster.nodup_put d.distinct⟩

/-- Change the load of an agent. -/
def changeLoad (d : Directory) (hostname : String) (g : Nat → Nat) : Directory :=
  ⟨Roster.change (·.hostname) hostname (AgentRecord.changeLoad g) d.records,
    Roster.nodup_change (f := AgentRecord.changeLoad g) (fun _ => rfl) d.distinct⟩

/-- One instrumentation more. -/
def acquire (d : Directory) (hostname : String) : Directory :=
  d.changeLoad hostname (· + 1)

/-- One instrumentation less; a load of zero stays. -/
def release (d : Directory) (hostname : String) : Directory :=
  d.changeLoad hostname (· - 1)

/-- One instrumentation more for each of some agents. -/
def acquireAll (d : Directory) (hostnames : List String) : Directory :=
  hostnames.foldl acquire d

/-- One instrumentation less for each of some agents. -/
def releaseAll (d : Directory) (hostnames : List String) : Directory :=
  hostnames.foldl release d

/-- The agent with the least load, the first-seen of several. -/
def leastLoaded? (d : Directory) : Option AgentRecord :=
  d.records.foldl
    (fun best r =>
      match best with
      -- strictly less: of several the one seen first stays
      | some b => if r.load < b.load then some r else some b
      | none => some r)
    none

end Directory

/-- Whether an agent came online for the first time. -/
inductive OnlineOutcome
  | started
  | restarted
  deriving DecidableEq, Repr

/-- The known agents and the catalog. -/
structure Registry where
  instrumenters : Directory
  aggregators : Directory
  catalog : Catalog

namespace Registry

def empty : Registry := ⟨.empty, .empty, []⟩

/-- Has an agent been seen before? -/
def outcome (d : Directory) (hostname : String) : OnlineOutcome :=
  if (d.find? hostname).isSome then .restarted else .started

/-- An instrumenter comes online with what it can measure. -/
def instrumenterOnline (r : Registry) (hostname routingKey : String) (agent : AgentInfo)
    (modules : Catalog) (now : Timestamp) : Registry :=
  { r with
    instrumenters := r.instrumenters.enter
      ⟨hostname, routingKey, agent, Catalog.statCount modules, 0, now⟩
    catalog := r.catalog.merge modules }

/-- An aggregator comes online. -/
def aggregatorOnline (r : Registry) (hostname routingKey : String) (agent : AgentInfo)
    (now : Timestamp) : Registry :=
  { r with aggregators := r.aggregators.enter ⟨hostname, routingKey, agent, 0, 0, now⟩ }

/-- The aggregator that the next instrumentation goes to. -/
def selectAggregator (r : Registry) : Except RequestError AgentRecord :=
  match r.aggregators.leastLoaded? with
  | some a => .ok a
  | none => .error .noAggregators

/-- The state of the fleet, given the number of instrumentations. -/
def status (r : Registry) (instrumentations : Nat) : StatusReport where
  component := Role.coordinator.name
  instrumentations := instrumentations
  instrumenters := r.instrumenters.records.map fun a => ⟨a.hostname, a.metrics, a.load⟩
  aggregators := r.aggregators.records.map fun a => ⟨a.hostname, a.load⟩

end Registry

end FleetMetrics
