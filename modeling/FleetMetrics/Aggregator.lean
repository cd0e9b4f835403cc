import FleetMetrics.Message

/-!
# Aggregators

An aggregator collects, for each instrumentation it is told of, the values that the hosts report.
Values are kept by the second they were sampled in; a slot holds the latest value of each host and
their merge. Only the latest seconds are kept.
-/

namespace FleetMetrics

/-- The values reported for one second. -/
structure Slot (N : Type) where
  /-- The latest value of each host. -/
  hosts : Table String (ReducedValue N)
  merged : ReducedValue N

namespace Slot

variable {N : Type} [Arithmetic N]

/-- A slot with the value of one host. -/
def first (hostname : String) (value : ReducedValue N) : Slot N :=
  ⟨[(hostname, value)], value⟩

/-- Merge a value with those of the other hosts, in order of hostname. -/
def mergeOthers (hosts : Table String (ReducedValue N)) (hostname : String)
    (value : ReducedValue N) : Except MetricError (ReducedValue N) :=
  -- the new value comes first: its shape decides which of the others fit
  (hosts.filter fun entry => entry.1 ≠ hostname).foldlM (fun merged entry => merged.merge entry.2)
    value

/-- Replace the value of a host. A value that does not fit those of the other hosts is refused. -/
def update (s : Slot N) (hostname : String) (value : ReducedValue N) :
    Except MetricError (Slot N) :=
  (mergeOthers s.hosts hostname value).map fun merged => ⟨s.hosts.insert hostname value, merged⟩

end Slot

/-- What is collected for one instrumentation. -/
structure Aggregation (N : Type) where
  streamKey : String
  /-- The slots by second. -/
  window : Table Int (Slot N)

namespace Aggregation

variable {N : Type} [Arithmetic N]

/-- Keep the latest `retain` seconds. -/
def trim (retain : Nat) (a : Aggregation N) : Aggregation N :=
  -- the seconds are ascending, so the latest ones stand at the end
  { a with window := a.window.drop (a.window.length - retain) }

/-- Enter the value of a host for a second. A value that does not fit is dropped. -/
def record (retain : Nat) (a : Aggregation N) (hostname : String) (second : Int)
    (value : ReducedValue N) : Aggregation N :=
  let slot :=
    match a.window.find? second with
    | some s => (s.update hostname value).toOption.getD s
    | none => .first hostname value
  trim retain { a with window := a.window.insert second slot }

end Aggregation

/-- What an agent does besides changing its state. -/
inductive Effect (N : Type) where
  | bind (key : String)
  | unbind (key : String)
  | send (key : String) (message : Message N)

/-- The state of an aggregator. -/
structure Aggregator (N : Type) where
  keyBase : String
  hostname : String
  /-- How many seconds are kept of each instrumentation. -/
  retain : Nat
  store : Table InstId (Aggregation N)

namespace Aggregator

variable {N : Type}

/-- An aggregator that collects nothing; it keeps at least one second. -/
def new (keyBase hostname : String) (retain : Nat) : Aggregator N :=
  ⟨keyBase, hostname, Nat.max retain 1, []⟩

def routingKey (a : Aggregator N) : String :=
  Routing.agent a.keyBase .aggregator a.hostname

/-- The keys it listens on from the start. -/
def bindings (a : Aggregator N) : List String :=
  [a.routingKey, Routing.broadcast a.keyBase]

/-- All keys it listens on. -/
def allBindings (a : Aggregator N) : List String :=
  a.bindings ++ a.store.values.map (·.streamKey)

/-- A message with where it comes from. -/
def envelope (a : Aggregator N) (m : Message N) : Envelope N :=
  ⟨a.routingKey, a.hostname, m⟩

/-- The notice that it has come online, and the key it goes to. -/
def announcement (a : Aggregator N) : String × Message N :=
  (Routing.coordinator a.keyBase, .aggregatorOnline (AgentInfo.current Role.aggregator.name))

/-! ## What is kept -/

/-- The slots of an instrumentation. -/
def window (a : Aggregator N) (id : InstId) : Table Int (Slot N) :=
  match a.store.find? id with
  | some g => g.window
  | none => []

/-- The merged value of a second. -/
def valueAt (a : Aggregator N) (id : InstId) (second : Int) : Option (ReducedValue N) :=
  ((a.window id).find? second).map (·.merged)

/-- The latest second with its merged value. -/
def latest (a : Aggregator N) (id : InstId) : Option (Int × ReducedValue N) :=
  (a.window id).getLast?.map fun entry => (entry.1, entry.2.merged)

/-- The seconds kept of an instrumentation, ascending. -/
def seconds (a : Aggregator N) (id : InstId) : List Int :=
  (a.window id).keys

/-! ## Messages -/

variable [Arithmetic N]

/-- Start to collect for an instrumentation. One that is collected already goes on as it is. -/
def enable (a : Aggregator N) (id : InstId) (streamKey : String) : Aggregator N × List (Effect N) :=
  if a.store.contains id then (a, [])
  else ({ a with store := a.store.insert id ⟨streamKey, []⟩ }, [.bind streamKey])

/-- Stop to collect for an instrumentation and forget what was collected. -/
def disable (a : Aggregator N) (id : InstId) : Aggregator N × List (Effect N) :=
  match a.store.find? id with
  | some g => ({ a with store := a.store.erase id }, [.unbind g.streamKey])
  | none => (a, [])

/-- Enter the value of a host, if its instrumentation is collected. -/
def merge (a : Aggregator N) (hostname : String) (id : InstId) (sampledAt : Timestamp)
    (value : ReducedValue N) : Aggregator N :=
  match a.store.find? id with
  | some g =>
    { a with store := a.store.insert id (g.record a.retain hostname sampledAt.seconds value) }
  | none => a

/-- An envelope from the bus. Commands are acknowledged to the key that the envelope names as its
source. -/
def handle (a : Aggregator N) (e : Envelope N) : Aggregator N × List (Effect N) :=
  match e.message with
  | .enableAggregation id streamKey =>
    let (after, effects) := a.enable id streamKey
    -- the stream is bound before the acknowledgement goes out
    (after, effects ++ [.send e.source (.ack .enable .aggregation id .enabled none)])
  | .disable .aggregation id =>
    let (after, effects) := a.disable id
    (after, effects ++ [.send e.source (.ack .disable .aggregation id .disabled none)])
  | .data id sampledAt value => (a.merge e.hostname id sampledAt value, [])
  | .ping => (a, [.send e.source .pingAck])
  | _ => (a, [])

end Aggregator

end FleetMetrics
