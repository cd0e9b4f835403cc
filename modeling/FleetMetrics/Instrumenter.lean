import FleetMetrics.Arithmetic.Binary64
import FleetMetrics.Message
import FleetMetrics.SampledMetric
import FleetMetrics.Stock

/-!
# Instrumenters

An instrumenter runs on a host and offers metrics. Told to, it samples one for an instrumentation,
and with every report it sends the value of each instrumentation under that one's stream key. What
it cannot do it says: it acknowledges a command to sample as `enabled` only if the instrumentation
is active afterwards.
-/

namespace FleetMetrics

/-- A metric on offer. -/
structure Registration where
  descriptor : Descriptor Float
  /-- What the keys of its samples start with. -/
  scope : Option String

/-- An instrumentation that is being sampled. -/
structure ActiveMetric where
  streamKey : String
  metric : SampledMetric Float

/-- The state of an instrumenter. -/
structure Instrumenter where
  keyBase : String
  hostname : String
  /-- The labels of the modules. -/
  modules : Table String String
  /-- The metrics by module and statistic. -/
  metrics : Table String (Table String Registration)
  active : Table InstId ActiveMetric

namespace Instrumenter

/-- An instrumenter that offers nothing. -/
def new (keyBase hostname : String) : Instrumenter :=
  ⟨keyBase, hostname, [], [], []⟩

def routingKey (i : Instrumenter) : String :=
  Routing.agent i.keyBase .instrumenter i.hostname

/-- The keys it listens on. -/
def bindings (i : Instrumenter) : List String :=
  [i.routingKey, Routing.broadcast i.keyBase]

/-- A message with where it comes from. -/
def envelope (i : Instrumenter) (m : Message Float) : Envelope Float :=
  ⟨i.routingKey, i.hostname, m⟩

def isActive (i : Instrumenter) (id : InstId) : Bool :=
  i.active.contains id

/-- A metric on offer. -/
def metric? (i : Instrumenter) (module stat : String) : Option Registration :=
  (i.metrics.find? module).bind fun stats => stats.find? stat

/-! ## What it offers -/

/-- Offer a module. One that is offered already keeps its label. -/
def addModule (i : Instrumenter) (name label : String) : Instrumenter :=
  { i with modules := i.modules.insertNew name label }

/-- Why a metric cannot be offered: its module is not, or there is one of its name. -/
def metricFault? (i : Instrumenter) (d : Descriptor Float) : Option MetricError :=
  if !i.modules.contains d.module then some (.unknownModule d.module)
  else if (i.metric? d.module d.stat).isSome then some (.alreadyRegistered d.module d.stat)
  else none

/-- Offer a metric, which gains the field with the host's name. -/
def addMetric (i : Instrumenter) (d : Descriptor Float) (scope : Option String) :
    Except MetricError Instrumenter :=
  match i.metricFault? d with
  | some fault => .error fault
  | none =>
    let registration : Registration := ⟨d.withHostname i.hostname, scope⟩
    .ok { i with metrics := i.metrics.alter d.module fun stats =>
      Table.insert (stats.getD []) d.stat registration }

/-- Offer metrics in order up to the first that cannot be offered; the reason is told. -/
def addMetrics (i : Instrumenter) :
    List (String × Descriptor Float) → Instrumenter × Option MetricError
  | [] => (i, none)
  | (front, d) :: rest =>
    match i.addMetric d (some front) with
    | .ok next => addMetrics next rest
    | .error fault => (i, some fault)

/-- Offer the stock modules and metrics. -/
def addStock (i : Instrumenter) : Instrumenter × Option MetricError :=
  (Stock.modules.foldl (fun i m => i.addModule m.1 m.2) i).addMetrics Stock.metrics

/-- The catalog of what it offers. -/
def catalog (i : Instrumenter) : Catalog :=
  i.modules.mapValues fun name label =>
    ⟨label, ((i.metrics.find? name).getD []).mapValues fun _ r => r.descriptor.statInfo⟩

/-- The notice that it has come online, and the key it goes to. -/
def announcement (i : Instrumenter) : String × Message Float :=
  (Routing.coordinator i.keyBase,
    .instrumenterOnline (AgentInfo.current Role.instrumenter.name) i.catalog)

/-! ## Commands -/

/-- Start to sample a metric for an instrumentation. One that is active already goes on as it
is. -/
def enable (i : Instrumenter) (id : InstId) (streamKey module stat : String)
    (predicate : Predicate Float) (decomposition : List String) :
    Except MetricError Instrumenter :=
  match i.metric? module stat with
  | none => .error (.unknownMetric module stat)
  | some registration =>
    -- an active one keeps its query, even if this command carries another
    if i.isActive id then .ok i
    else
      match Query.compile registration.descriptor predicate decomposition with
      | .error e => .error e
      | .ok query =>
        let metric := (SampledMetric.new query registration.scope).instrument
        .ok { i with active := i.active.insert id ⟨streamKey, metric⟩ }

/-- Stop to sample for an instrumentation. -/
def disable (i : Instrumenter) (id : InstId) : Instrumenter :=
  { i with active := i.active.erase id }

/-- A message: the state afterwards and the answer, if there is one. -/
def respond (i : Instrumenter) (m : Message Float) : Instrumenter × Option (Message Float) :=
  match m with
  | .enableInstrumentation id streamKey module stat predicate decomposition =>
    match i.enable id streamKey module stat predicate decomposition with
    | .ok after => (after, some (.ack .enable .instrumentation id .enabled none))
    | .error e => (i, some (.ack .enable .instrumentation id .disabled (some e.message)))
  | .disable .instrumentation id =>
    (i.disable id, some (.ack .disable .instrumentation id .disabled none))
  | .ping => (i, some .pingAck)
  | _ => (i, none)

/-- An envelope from the bus: the state afterwards and what is published. Answers go to the key
that the envelope names as its source. -/
def handle (i : Instrumenter) (e : Envelope Float) :
    Instrumenter × List (String × Message Float) :=
  let (after, answer) := i.respond e.message
  (after, (answer.map fun m => (e.source, m)).toList)

/-! ## Reports -/

/-- The report of one instrumentation: its state afterwards, what is published, and whether that
is a value. -/
def reportOne (i : Instrumenter) (f : Feed Float) (now : Timestamp) (id : InstId)
    (a : ActiveMetric) : ActiveMetric × (String × Message Float) × Bool :=
  match a.metric.value f with
  | (.ok value, metric) => ({ a with metric := metric }, (a.streamKey, .data id now value), true)
  -- the metric goes on to be sampled, so the notice says `enabled`
  | (.error e, metric) =>
    ({ a with metric := metric },
      (Routing.coordinator i.keyBase, .instrumenterError id e.message .enabled), false)

/-- Report every active instrumentation, in order of number: the state afterwards, what is
published, and how many values that are. -/
def report (i : Instrumenter) (f : Feed Float) (now : Timestamp) :
    Instrumenter × List (String × Message Float) × Nat :=
  let reports := i.active.map fun entry => (entry.1, i.reportOne f now entry.1 entry.2)
  ({ i with active := reports.map fun r => (r.1, r.2.1) }, reports.map (·.2.2.1),
    (reports.filter (·.2.2.2)).length)

end Instrumenter

end FleetMetrics
