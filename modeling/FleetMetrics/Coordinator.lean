import FleetMetrics.Query
import FleetMetrics.Registry
import FleetMetrics.Spec

/-!
# The coordinator

The coordinator owns every instrumentation and drives its lifecycle:

    create --> creating --(every participant acknowledged)--> enabled
                  |
                  +------(a failure, or the deadline)-------> failed

    delete removes the record in any state

The participants of an instrumentation are the aggregator it is assigned to and the instrumenters
it addresses. When a creation fails, every participant that did not report failure itself is told
to stop. A participant that comes online again has lost what it was told, and is told again.

The coordinator is a value; an event makes of it a `Turn`: the value afterwards, the messages to
publish, and the requests answered. Times are nanoseconds of a clock that only runs forward.
-/

namespace FleetMetrics

/-- Which request an answer is for. -/
abbrev Ticket := Nat

/-- The stage of an instrumentation. -/
inductive Stage
  | creating
  | enabled
  | failed
  deriving DecidableEq, Repr

/-- The name of a stage. -/
def Stage.name : Stage → String
  | .creating => "creating"
  | .enabled => "enabled"
  | .failed => "failed"

/-- What one participant has told about an instrumentation. -/
inductive AckState
  | unknown
  | enabled
  | failed
  | timedOut
  deriving DecidableEq, Repr

/-- Did a participant fail, or not answer in time? -/
def AckState.isFailure (a : AckState) : Bool :=
  a = .failed || a = .timedOut

/-- An instrumentation. The time of day at which it was requested is left out: it is only shown, and
nothing is decided by it. -/
structure Instrumentation where
  id : InstId
  spec : Spec
  streamKey : String
  /-- The host of the aggregator it is assigned to. -/
  aggregator : String
  aggregatorAck : AckState
  /-- The instrumenters it addresses, with what each has told. -/
  instrumenterAcks : Table String AckState
  stage : Stage
  deadline : Nat
  /-- The request that waits for an answer. -/
  pending : Option Ticket

namespace Instrumentation

/-- Is a participant still to answer? -/
def waiting (i : Instrumentation) : Bool :=
  i.aggregatorAck = .unknown || i.instrumenterAcks.values.any (· = .unknown)

/-- Why the creation cannot succeed, once nobody is still to answer. -/
def failure? (i : Instrumentation) : Option String :=
  if i.aggregatorAck.isFailure then some "failed to enable aggregator"
  else if i.instrumenterAcks.values.any AckState.isFailure then
    some "failed to enable some instrumenters"
  else none

/-- The command that makes an instrumenter sample. -/
def enableMessage (i : Instrumentation) : Message Float :=
  .enableInstrumentation i.id i.streamKey i.spec.module i.spec.stat i.spec.predicate
    i.spec.decomposition

/-- The command that makes the aggregator collect. -/
def aggregateMessage (i : Instrumentation) : Message Float :=
  .enableAggregation i.id i.streamKey

/-- The addressed instrumenters whose answer satisfies a condition. -/
def hostsWhere (i : Instrumentation) (p : AckState → Bool) : List String :=
  (i.instrumenterAcks.filter fun entry => p entry.2).map (·.1)

/-- The aggregator, if its answer satisfies a condition. -/
def aggregatorWhere (i : Instrumentation) (p : AckState → Bool) : List String :=
  if p i.aggregatorAck then [i.aggregator] else []

/-- Everybody who has not answered is out of time. -/
def timeOut (i : Instrumentation) : Instrumentation :=
  let late (a : AckState) : AckState := if a = .unknown then .timedOut else a
  { i with
    aggregatorAck := late i.aggregatorAck
    instrumenterAcks := i.instrumenterAcks.mapValues fun _ a => late a }

end Instrumentation

/-- The shape of the values that an instrumentation yields. -/
inductive StatKind
  | scalar
  | numeric
  | discrete
  deriving DecidableEq, Repr

def StatKind.name : StatKind → String
  | .scalar => "scalar"
  | .numeric => "numeric"
  | .discrete => "discrete"

/-- How an instrumentation is listed, but for the time of day at which it was requested. -/
structure Summary where
  id : InstId
  spec : Spec
  stage : Stage
  dimension : Nat
  kind : StatKind
  streamKey : String
  aggregator : String

/-- The coordinator. -/
structure Coordinator where
  keyBase : String
  /-- How long a creation may wait for its participants. -/
  ackTimeout : Nat
  registry : Registry
  instrumentations : Table InstId Instrumentation
  /-- The number that the next instrumentation gets. -/
  nextId : InstId

/-- A message with the key it is published under. -/
abbrev Dispatch := String × Message Float

/-- The answer to a request for an instrumentation. -/
abbrev Answer := Except RequestError InstId

/-- What an event leads to. -/
structure Turn where
  coordinator : Coordinator
  /-- The messages to publish, in order. -/
  sent : List Dispatch
  /-- The requests answered, in order. -/
  answered : List (Ticket × Answer)

namespace Turn

/-- Nothing to publish and nothing to answer. -/
def quiet (c : Coordinator) : Turn := ⟨c, [], []⟩

/-- Go on with another event. -/
def andThen (t : Turn) (f : Coordinator → Turn) : Turn :=
  let u := f t.coordinator
  ⟨u.coordinator, t.sent ++ u.sent, t.answered ++ u.answered⟩

end Turn

namespace Coordinator

/-- A coordinator that knows nobody. -/
def new (keyBase : String) (ackTimeout : Nat) : Coordinator where
  keyBase := keyBase
  ackTimeout := ackTimeout
  registry := .empty
  instrumentations := []
  nextId := 1

/-- The key that agents send to. -/
def routingKey (c : Coordinator) : String :=
  Routing.coordinator c.keyBase

/-- The key under which the values of an instrumentation flow. -/
def streamKey (c : Coordinator) (id : InstId) : String :=
  Routing.stream c.keyBase id

def stageOf (c : Coordinator) (id : InstId) : Option Stage :=
  (c.instrumentations.find? id).map (·.stage)

/-- The earliest deadline of the creations under way. -/
def nextDeadline (c : Coordinator) : Option Nat :=
  ((c.instrumentations.values.filter (·.stage = .creating)).map (·.deadline)).min?

/-- Store an instrumentation under its number. -/
def store (c : Coordinator) (i : Instrumentation) : Coordinator :=
  { c with instrumentations := c.instrumentations.insert i.id i }

/-- The same coordinator with other loads. -/
def withLoads (c : Coordinator) (aggregators instrumenters : Directory) : Coordinator :=
  { c with registry :=
    { c.registry with aggregators := aggregators, instrumenters := instrumenters } }

/-- One message to each of some hosts that a directory knows. -/
def toHosts (d : Directory) (hosts : List String) (m : Message Float) : List Dispatch :=
  hosts.filterMap fun h => (d.find? h).map fun a => (a.routingKey, m)

/-! ## Requests -/

/-- Why a spec is refused: a blank name, an unknown statistic, or a request that does not fit the
statistic's fields. -/
def fault? (c : Coordinator) (s : Spec) : Option RequestError :=
  if Text.isAllBlank s.module then some (.validation "module is required")
  else if Text.isAllBlank s.stat then some (.validation "stat is required")
  else
    match c.registry.catalog.stat? s.module s.stat with
    | none => some (.ofMetric (.unknownMetric s.module s.stat))
    | some stat =>
      (requestFault? s.module s.stat s.predicate s.decomposition stat.arityOf).map .ofMetric

/-- The record of a new instrumentation. -/
def newRecord (c : Coordinator) (s : Spec) (ticket : Ticket) (now : Nat) (aggregator : String) :
    Instrumentation where
  id := c.nextId
  spec := s
  streamKey := c.streamKey c.nextId
  aggregator := aggregator
  aggregatorAck := .unknown
  instrumenterAcks :=
    Table.ofList (c.registry.instrumenters.records.map fun r => (r.hostname, .unknown))
  stage := .creating
  deadline := now + c.ackTimeout
  pending := some ticket

/-- Start an instrumentation on a given aggregator: the aggregator is told first, then every
instrumenter in first-seen order. -/
def launch (c : Coordinator) (s : Spec) (ticket : Ticket) (now : Nat) (aggregator : AgentRecord) :
    Turn :=
  let i := c.newRecord s ticket now aggregator.hostname
  let instrumenters := c.registry.instrumenters
  let hosts := instrumenters.records.map (·.hostname)
  let started := c.withLoads (c.registry.aggregators.acquire aggregator.hostname)
    (instrumenters.acquireAll hosts)
  { coordinator := { started.store i with nextId := c.nextId + 1 }
    sent := (aggregator.routingKey, i.aggregateMessage) ::
      instrumenters.records.map fun r => (r.routingKey, i.enableMessage)
    answered := [] }

/-- A request for an instrumentation. It is answered at once if it is refused, otherwise when the
creation has succeeded or failed. -/
def create (c : Coordinator) (s : Spec) (ticket : Ticket) (now : Nat) : Turn :=
  match c.fault? s with
  | some e => ⟨c, [], [(ticket, .error e)]⟩
  | none =>
    match c.registry.selectAggregator with
    | .error e => ⟨c, [], [(ticket, .error e)]⟩
    | .ok a => c.launch s ticket now a

/-- Give back the loads that an instrumentation still counts for; a failed one counts for none. -/
def releaseFor (c : Coordinator) (i : Instrumentation) : Coordinator :=
  if i.stage = .failed then c
  else
    let held (a : AckState) : Bool := !a.isFailure
    c.withLoads (c.registry.aggregators.releaseAll (i.aggregatorWhere held))
      (c.registry.instrumenters.releaseAll (i.hostsWhere held))

/-- Remove an instrumentation and tell every known instrumenter and its aggregator to stop. A
creation under way is cancelled. -/
def delete (c : Coordinator) (id : InstId) : Except RequestError Turn :=
  match c.instrumentations.find? id with
  | none => .error (.notFound id)
  | some i =>
    -- the loads are given back first, but every known instrumenter is told, addressed or not
    let rest := c.releaseFor i
    .ok {
      coordinator := { rest with instrumentations := c.instrumentations.erase id }
      sent :=
        (c.registry.instrumenters.records.map fun r => (r.routingKey, .disable .instrumentation id))
          ++ toHosts c.registry.aggregators [i.aggregator] (.disable .aggregation id)
      answered := (i.pending.map fun ticket => (ticket, .error (.cancelled id))).toList }

/-- The shape of the values of a spec, by what the catalog says of its fields. -/
def statKind (c : Coordinator) (s : Spec) : StatKind :=
  let arityOf (f : String) : Option FieldArity :=
    (c.registry.catalog.stat? s.module s.stat).bind fun stat => stat.arityOf f
  if s.decomposition.isEmpty then .scalar
  else if s.decomposition.any fun f => arityOf f = some .numeric then .numeric
  else .discrete

/-- Every instrumentation, in order of number. -/
def list (c : Coordinator) : List Summary :=
  c.instrumentations.values.map fun i =>
    ⟨i.id, i.spec, i.stage, 1 + i.spec.decomposition.length, c.statKind i.spec, i.streamKey,
      i.aggregator⟩

def status (c : Coordinator) : StatusReport :=
  c.registry.status c.instrumentations.length

/-! ## The end of a creation -/

/-- The creation succeeded. -/
def enable (c : Coordinator) (i : Instrumentation) : Turn where
  coordinator := c.store { i with stage := .enabled, pending := none }
  sent := []
  answered := (i.pending.map fun ticket => (ticket, .ok i.id)).toList

/-- The creation failed: every participant that did not report failure itself is told to stop,
the aggregator first. -/
def fail (c : Coordinator) (i : Instrumentation) (reason : String) : Turn :=
  -- one that is out of time may have started all the same, so it is told as well
  let told (a : AckState) : Bool := a ≠ .failed
  let aggregators := i.aggregatorWhere told
  let hosts := i.hostsWhere told
  let released := c.withLoads (c.registry.aggregators.releaseAll aggregators)
    (c.registry.instrumenters.releaseAll hosts)
  { coordinator := released.store { i with stage := .failed, pending := none }
    sent := toHosts c.registry.aggregators aggregators (.disable .aggregation i.id) ++
      toHosts c.registry.instrumenters hosts (.disable .instrumentation i.id)
    answered := (i.pending.map fun ticket => (ticket, .error (.enableFailed reason))).toList }

/-- End the creation of an instrumentation if nobody is still to answer. -/
def settle (c : Coordinator) (id : InstId) : Turn :=
  match c.instrumentations.find? id with
  | none => .quiet c
  | some i =>
    -- an instrumentation that works already can lose a participant without failing
    if i.stage ≠ .creating ∨ i.waiting then .quiet c
    else
      match i.failure? with
      | none => c.enable i
      | some reason => c.fail i reason

/-- Is the creation of an instrumentation out of time? -/
def isExpired (now : Nat) (i : Instrumentation) : Bool :=
  i.stage = .creating && decide (i.deadline ≤ now)

/-- End the creation of an instrumentation that is out of time. -/
def expireOne (c : Coordinator) (i : Instrumentation) : Turn :=
  (c.store i.timeOut).settle i.id

/-- The instrumentations whose creation is out of time. -/
def expired (c : Coordinator) (now : Nat) : List Instrumentation :=
  c.instrumentations.values.filter (isExpired now)

/-- End every creation that is out of time. -/
def expire (c : Coordinator) (now : Nat) : Turn :=
  (c.expired now).foldl (fun t i => t.andThen fun c => c.expireOne i) (.quiet c)

/-- End every creation that is out of time, and tell how many there were. -/
def sweep (c : Coordinator) (now : Nat) : Nat × Turn :=
  ((c.expired now).length, c.expire now)

/-! ## Messages -/

/-- What an acknowledgement says. -/
def ackState (s : AckStatus) : AckState :=
  if s.isEnabled then .enabled else .failed

/-- An instrumenter acknowledges that it samples, or that it does not. Only an addressed host that
has not answered yet is heard, and no host about an instrumentation that failed. -/
def instrumenterAck (c : Coordinator) (hostname : String) (id : InstId) (s : AckStatus) : Turn :=
  match c.instrumentations.find? id with
  | none => .quiet c
  | some i =>
    if i.stage = .failed ∨ i.instrumenterAcks.find? hostname ≠ some .unknown then .quiet c
    else
      let answered := { i with
        instrumenterAcks := i.instrumenterAcks.insert hostname (ackState s) }
      let loads :=
        if s.isEnabled then c.registry.instrumenters
        else c.registry.instrumenters.release hostname
      ((c.withLoads c.registry.aggregators loads).store answered).settle id

/-- An aggregator acknowledges that it collects, or that it does not. Only the assigned one is
heard, and only once. -/
def aggregatorAck (c : Coordinator) (hostname : String) (id : InstId) (s : AckStatus) : Turn :=
  match c.instrumentations.find? id with
  | none => .quiet c
  | some i =>
    if i.stage = .failed ∨ i.aggregator ≠ hostname ∨ i.aggregatorAck ≠ .unknown then .quiet c
    else
      let answered := { i with aggregatorAck := ackState s }
      let loads :=
        if s.isEnabled then c.registry.aggregators else c.registry.aggregators.release hostname
      ((c.withLoads loads c.registry.instrumenters).store answered).settle id

/-- Has an instrumenter that comes online to be told of an instrumentation? One that restarted,
if it is addressed and did not fail; a new one, if the instrumentation is enabled. -/
def owesInstrumenter (hostname : String) (o : OnlineOutcome) (i : Instrumentation) : Bool :=
  match i.stage, o with
  | .failed, _ => false
  | _, .restarted =>
    match i.instrumenterAcks.find? hostname with
    | some a => a ≠ .failed
    | none => false
  -- a creation under way addresses those who were known when it began
  | stage, .started => stage = .enabled && !i.instrumenterAcks.contains hostname

/-- Has an aggregator that restarted to be told of an instrumentation? -/
def owesAggregator (hostname : String) (i : Instrumentation) : Bool :=
  i.stage ≠ .failed && i.aggregator = hostname && i.aggregatorAck ≠ .failed

/-- Change the instrumentations that satisfy a condition. -/
def changeWhere (p : Instrumentation → Bool) (f : Instrumentation → Instrumentation)
    (t : Table InstId Instrumentation) : Table InstId Instrumentation :=
  t.mapValues fun _ i => if p i then f i else i

/-- An instrumenter comes online: it is told of everything it should be sampling. -/
def instrumenterOnline (c : Coordinator) (hostname source : String) (agent : AgentInfo)
    (modules : Catalog) (now : Timestamp) : Turn :=
  -- the outcome is judged before the registry takes the notice
  let outcome := Registry.outcome c.registry.instrumenters hostname
  let registry := c.registry.instrumenterOnline hostname source agent modules now
  let owed := c.instrumentations.values.filter (owesInstrumenter hostname outcome)
  { coordinator := { c with
      registry := { registry with
        instrumenters := registry.instrumenters.acquireAll (owed.map fun _ => hostname) }
      instrumentations := changeWhere (owesInstrumenter hostname outcome)
        (fun i => { i with instrumenterAcks := i.instrumenterAcks.insert hostname .unknown })
        c.instrumentations }
    sent := owed.map fun i => (source, i.enableMessage)
    answered := [] }

/-- An aggregator comes online: one that restarted is told of everything it is assigned. -/
def aggregatorOnline (c : Coordinator) (hostname source : String) (agent : AgentInfo)
    (now : Timestamp) : Turn :=
  let owes (i : Instrumentation) : Bool :=
    decide (Registry.outcome c.registry.aggregators hostname = .restarted) &&
      owesAggregator hostname i
  let registry := c.registry.aggregatorOnline hostname source agent now
  let owed := c.instrumentations.values.filter owes
  { coordinator := { c with
      registry := { registry with
        aggregators := registry.aggregators.acquireAll (owed.map fun _ => hostname) }
      instrumentations :=
        changeWhere owes (fun i => { i with aggregatorAck := .unknown }) c.instrumentations }
    sent := owed.map fun i => (source, i.aggregateMessage)
    answered := [] }

/-- A message from the bus. Notices, and acknowledgements of commands to stop, change nothing. -/
def handle (c : Coordinator) (e : Envelope Float) (now : Timestamp) : Turn :=
  match e.message with
  -- answers go to the key that the envelope names as its source
  | .ping => ⟨c, [(e.source, .pingAck)], []⟩
  | .status => ⟨c, [(e.source, .statusAck c.status)], []⟩
  | .instrumenterOnline agent modules =>
    c.instrumenterOnline e.hostname e.source agent modules now
  | .aggregatorOnline agent => c.aggregatorOnline e.hostname e.source agent now
  | .ack .enable .instrumentation id s _ => c.instrumenterAck e.hostname id s
  | .ack .enable .aggregation id s _ => c.aggregatorAck e.hostname id s
  | _ => .quiet c

/-- A text from the bus; one that is no message is dropped. -/
def handleText (c : Coordinator) (text : String) (now : Timestamp) : Turn :=
  match StampedEnvelope.decode text with
  | .ok e => c.handle e.toEnvelope now
  | .error _ => .quiet c

end Coordinator

end FleetMetrics
