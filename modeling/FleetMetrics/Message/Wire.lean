import FleetMetrics.Arithmetic.Binary64
import FleetMetrics.Json.Reader
import FleetMetrics.Message
import FleetMetrics.Message.Uuid
import FleetMetrics.Message.Value
import FleetMetrics.Predicate.Format

/-!
# Messages on the wire

A message is a JSON object whose member `kind` names what it is and whose other members are its
parts. It stands in an envelope with a number, the sender and the time. Predicates,
decompositions, modules and the release of an operating system may be left out; the error text of
an acknowledgement is left out when there is none.

`StampedEnvelope.decode` tells a text that is no JSON from a value that is no message, and names
the kind that such a value claims to be.
-/

namespace FleetMetrics

/-- An envelope as it is sent, with a number and the time. -/
structure StampedEnvelope (N : Type) extends Envelope N where
  id : Uuid
  time : Timestamp
  deriving BEq

variable {N : Type} [Arithmetic N]

/-! ## Parts -/

def Timestamp.ofJson? (j : Json N) : Option Timestamp :=
  (j.intWithin? Timestamp.lowest Timestamp.beyond).map fun n => ⟨n⟩

def InstId.ofJson? (j : Json N) : Option InstId :=
  j.nat? 64

def AckStatus.ofJson? (j : Json N) : Option AckStatus :=
  j.string?.map .ofText

def AgentInfo.ofJson? (j : Json N) : Option AgentInfo :=
  match j.fields? ["agent_name", "agent_version", "os_name", "os_release"] with
  | some [name, version, osName, osRelease] => do
    let name ← Json.required Json.string? name
    let version ← Json.required Json.string? version
    let osName ← Json.required Json.string? osName
    let osRelease ← Json.optional Json.string? "" osRelease
    some ⟨name, version, osName, osRelease⟩
  | _ => none

def AgentInfo.toJson (a : AgentInfo) : Json N :=
  .object [("agent_name", .string a.name), ("agent_version", .string a.version),
    ("os_name", .string a.osName), ("os_release", .string a.osRelease)]

/-- An arity is written as its name; an object with that one member, which holds nothing or
nothing but an empty object, is read as well. -/
def FieldArity.ofJson? : Json N → Option FieldArity
  | .object [(name, .object [])] => FieldArity.ofJson? (.string name : Json N)
  | j => j.choice? [("discrete", .discrete), ("numeric", .numeric)]

def FieldInfo.ofJson? (j : Json N) : Option FieldInfo :=
  match j.fields? ["label", "type"] with
  | some [label, arity] => do
    let label ← Json.required Json.string? label
    let arity ← Json.required FieldArity.ofJson? arity
    some ⟨label, arity⟩
  | _ => none

def FieldInfo.toJson (f : FieldInfo) : Json N :=
  .object [("label", .string f.label), ("type", .string f.arity.name)]

/-- The object form of a table. -/
def Table.toJson {α : Type} (write : α → Json N) (t : Table String α) : Json N :=
  .object (t.map fun entry => (entry.1, write entry.2))

def StatInfo.ofJson? (j : Json N) : Option StatInfo :=
  match j.fields? ["label", "type", "fields"] with
  | some [label, unit, fields] => do
    let label ← Json.required Json.string? label
    let unit ← Json.required Json.string? unit
    let fields ← Json.optional (Json.table? FieldInfo.ofJson?) [] fields
    some ⟨label, unit, fields⟩
  | _ => none

def StatInfo.toJson (s : StatInfo) : Json N :=
  .object [("label", .string s.label), ("type", .string s.unit),
    ("fields", s.fields.toJson FieldInfo.toJson)]

def ModuleInfo.ofJson? (j : Json N) : Option ModuleInfo :=
  match j.fields? ["label", "stats"] with
  | some [label, stats] => do
    let label ← Json.required Json.string? label
    let stats ← Json.optional (Json.table? StatInfo.ofJson?) [] stats
    some ⟨label, stats⟩
  | _ => none

def ModuleInfo.toJson (m : ModuleInfo) : Json N :=
  .object [("label", .string m.label), ("stats", m.stats.toJson StatInfo.toJson)]

def Catalog.ofJson? : Json N → Option Catalog :=
  Json.table? ModuleInfo.ofJson?

def Catalog.toJson (c : Catalog) : Json N :=
  Table.toJson ModuleInfo.toJson c

def InstrumenterStatus.ofJson? (j : Json N) : Option InstrumenterStatus :=
  match j.fields? ["hostname", "nmetrics_avail", "ninsts"] with
  | some [hostname, metrics, instrumentations] => do
    let hostname ← Json.required Json.string? hostname
    let metrics ← Json.required (Json.nat? 64) metrics
    let instrumentations ← Json.required (Json.nat? 64) instrumentations
    some ⟨hostname, metrics, instrumentations⟩
  | _ => none

def InstrumenterStatus.toJson (s : InstrumenterStatus) : Json N :=
  .object [("hostname", .string s.hostname), ("nmetrics_avail", .int s.metrics),
    ("ninsts", .int s.instrumentations)]

def AggregatorStatus.ofJson? (j : Json N) : Option AggregatorStatus :=
  match j.fields? ["hostname", "ninsts"] with
  | some [hostname, instrumentations] => do
    let hostname ← Json.required Json.string? hostname
    let instrumentations ← Json.required (Json.nat? 64) instrumentations
    some ⟨hostname, instrumentations⟩
  | _ => none

def AggregatorStatus.toJson (s : AggregatorStatus) : Json N :=
  .object [("hostname", .string s.hostname), ("ninsts", .int s.instrumentations)]

/-- Read every item of an array. -/
def Json.list? {α : Type} (read : Json N → Option α) (j : Json N) : Option (List α) :=
  j.array? >>= List.mapM read

def StatusReport.ofJson? (j : Json N) : Option StatusReport :=
  match j.fields? ["component", "ninstrumentations", "instrumenters", "aggregators"] with
  | some [component, instrumentations, instrumenters, aggregators] => do
    let component ← Json.required Json.string? component
    let instrumentations ← Json.required (Json.nat? 64) instrumentations
    let instrumenters ← Json.required (Json.list? InstrumenterStatus.ofJson?) instrumenters
    let aggregators ← Json.required (Json.list? AggregatorStatus.ofJson?) aggregators
    some ⟨component, instrumentations, instrumenters, aggregators⟩
  | _ => none

/-- The members of a status report. -/
def StatusReport.members (r : StatusReport) : List (String × Json N) :=
  [("component", .string r.component), ("ninstrumentations", .int r.instrumentations),
    ("instrumenters", .array (r.instrumenters.map InstrumenterStatus.toJson)),
    ("aggregators", .array (r.aggregators.map AggregatorStatus.toJson))]

/-- Read a predicate, without the reason why a value is none. -/
def Predicate.ofJson? (j : Json N) : Option (Predicate N) :=
  (Predicate.ofJson j).toOption

/-! ## Messages -/

namespace Message

/-- The members of a message besides its kind. -/
def members : Message N → List (String × Json N)
  | .ping | .pingAck | .status => []
  | .statusAck report => report.members
  | .enableInstrumentation id streamKey module stat predicate decomposition =>
    [("inst_id", .int id), ("inst_key", .string streamKey), ("module", .string module),
      ("stat", .string stat), ("predicate", predicate.toJson),
      ("decomposition", .array (decomposition.map .string))]
  | .enableAggregation id streamKey => [("inst_id", .int id), ("key", .string streamKey)]
  | .disable _ id => [("inst_id", .int id)]
  | .instrumenterOnline agent modules => [("agent", agent.toJson), ("modules", modules.toJson)]
  | .aggregatorOnline agent => [("agent", agent.toJson)]
  | .log text => [("message", .string text)]
  | .instrumenterError id error reported =>
    [("inst_id", .int id), ("error", .string error), ("status", .string reported.text)]
  | .ack _ _ id reported error =>
    [("inst_id", .int id), ("status", .string reported.text)] ++
      (error.map fun e => ("error", .string e)).toList
  | .data id sampledAt value =>
    [("inst_id", .int id), ("sampled_at", .int sampledAt.nanos), ("value", value.toJson)]

/-- The JSON form of a message. -/
def toJson (m : Message N) : Json N :=
  .object (("kind", .string m.kind) :: m.members)

/-- An acknowledgement from its members. -/
def ackOfJson? (action : Action) (work : Work) (j : Json N) : Option (Message N) :=
  match j.fields? ["inst_id", "status", "error"] with
  | some [id, reported, error] => do
    let id ← Json.required InstId.ofJson? id
    let reported ← Json.required AckStatus.ofJson? reported
    let error ← Json.nullable Json.string? error
    some (.ack action work id reported error)
  | _ => none

/-- A command to stop from its members. -/
def disableOfJson? (work : Work) (j : Json N) : Option (Message N) :=
  match j.fields? ["inst_id"] with
  | some [id] => (Json.required InstId.ofJson? id).map (.disable work)
  | _ => none

/-- A message without members. Those of an object are ignored, an array has to be empty. -/
def bareOfJson? (m : Message N) : Json N → Option (Message N)
  | .object _ | .array [] => some m
  | _ => none

/-- The command to sample, from its members. -/
def enableInstrumentationOfJson? (j : Json N) : Option (Message N) :=
  match j.fields? ["inst_id", "inst_key", "module", "stat", "predicate", "decomposition"] with
  | some [id, streamKey, module, stat, predicate, decomposition] => do
    let id ← Json.required InstId.ofJson? id
    let streamKey ← Json.required Json.string? streamKey
    let module ← Json.required Json.string? module
    let stat ← Json.required Json.string? stat
    let predicate ← Json.optional Predicate.ofJson? .trivial predicate
    let decomposition ← Json.optional Json.strings? [] decomposition
    some (.enableInstrumentation id streamKey module stat predicate decomposition)
  | _ => none

/-- A message of a given kind from its members. -/
def ofMembers? (kind : String) (j : Json N) : Option (Message N) :=
  match kind with
  | "cmd-ping" => bareOfJson? .ping j
  | "ack-ping" => bareOfJson? .pingAck j
  | "cmd-status" => bareOfJson? .status j
  | "ack-status" => (StatusReport.ofJson? j).map .statusAck
  | "cmd-enable_instrumentation" => enableInstrumentationOfJson? j
  | "cmd-disable_instrumentation" => disableOfJson? .instrumentation j
  | "cmd-enable_aggregation" =>
    match j.fields? ["inst_id", "key"] with
    | some [id, key] => do
      let id ← Json.required InstId.ofJson? id
      let key ← Json.required Json.string? key
      some (.enableAggregation id key)
    | _ => none
  | "cmd-disable_aggregation" => disableOfJson? .aggregation j
  | "notify-instrumenter_online" =>
    match j.fields? ["agent", "modules"] with
    | some [agent, modules] => do
      let agent ← Json.required AgentInfo.ofJson? agent
      let modules ← Json.optional Catalog.ofJson? [] modules
      some (.instrumenterOnline agent modules)
    | _ => none
  | "notify-aggregator_online" =>
    match j.fields? ["agent"] with
    | some [agent] => (Json.required AgentInfo.ofJson? agent).map .aggregatorOnline
    | _ => none
  | "notify-log" =>
    match j.fields? ["message"] with
    | some [text] => (Json.required Json.string? text).map .log
    | _ => none
  | "notify-instrumenter_error" =>
    match j.fields? ["inst_id", "error", "status"] with
    | some [id, error, reported] => do
      let id ← Json.required InstId.ofJson? id
      let error ← Json.required Json.string? error
      let reported ← Json.required AckStatus.ofJson? reported
      some (.instrumenterError id error reported)
    | _ => none
  | "ack-enable_instrumentation" => ackOfJson? .enable .instrumentation j
  | "ack-disable_instrumentation" => ackOfJson? .disable .instrumentation j
  | "ack-enable_aggregation" => ackOfJson? .enable .aggregation j
  | "ack-disable_aggregation" => ackOfJson? .disable .aggregation j
  | "data" =>
    match j.fields? ["inst_id", "sampled_at", "value"] with
    | some [id, sampledAt, value] => do
      let id ← Json.required InstId.ofJson? id
      let sampledAt ← Json.required Timestamp.ofJson? sampledAt
      let value ← Json.required ReducedValue.ofJson? value
      some (.data id sampledAt value)
    | _ => none
  | _ => none

/-- The message that a JSON value spells. -/
def ofJson? (j : Json N) : Option (Message N) := do
  -- the kind decides how the other members are read
  let (kind, rest) ← j.tagged? "kind"
  ofMembers? kind rest

end Message

/-! ## Envelopes -/

namespace StampedEnvelope

/-- The JSON form of an envelope. -/
def toJson (e : StampedEnvelope N) : Json N :=
  .object [("id", .string (Uuid.text e.id)), ("source", .string e.source),
    ("hostname", .string e.hostname), ("time", .int e.time.nanos), ("message", e.message.toJson)]

/-- The envelope that a JSON value spells. -/
def ofJson? (j : Json N) : Option (StampedEnvelope N) :=
  match j.fields? ["id", "source", "hostname", "time", "message"] with
  | some [id, source, hostname, time, message] => do
    let id ← Json.required (fun j => j.string?.bind Uuid.ofText?) id
    let source ← Json.required Json.string? source
    let hostname ← Json.required Json.string? hostname
    let time ← Json.required Timestamp.ofJson? time
    let message ← Json.required Message.ofJson? message
    some ⟨⟨source, hostname, message⟩, id, time⟩
  | _ => none

/-- The kind that a value claims to be. -/
def claimedKind (j : Json N) : String :=
  (((j.member? "message").bind (·.member? "kind")).bind Json.string?).getD "<none>"

/-- The envelope that a JSON value spells, or the kind of message it fails to be. -/
def fromJson (j : Json N) : Except MessageError (StampedEnvelope N) :=
  match ofJson? j with
  | some e => .ok e
  | none => .error (.malformed (claimedKind j) "unexpected form")

/-- The envelope that a text spells. -/
def decode (text : String) : Except MessageError (StampedEnvelope Float) :=
  match Json.readSorted? text with
  | some j => fromJson j
  | none => .error (.undecodable "not a JSON text")

/-- The text of an envelope. -/
def encode (e : StampedEnvelope Float) : String :=
  e.toJson.write

end StampedEnvelope

end FleetMetrics
