import FleetMetrics.Predicate
import FleetMetrics.ReducedValue
import FleetMetrics.Routing
import FleetMetrics.Timestamp

/-!
# Messages

What the parts of a fleet tell each other. The coordinator sends commands, agents acknowledge
them, agents give notice without being asked, and instrumenters send values to aggregators. A
message travels in an envelope with the key that answers go to and the host it comes from.
-/

namespace FleetMetrics

/-- Number of an instrumentation. It has no bound here, and 64 bits in a message: the numbers are
given out one after the other, so no run comes to the end of 64 bits. -/
abbrev InstId := Nat

/-! ## Parts of messages -/

/-- The status that an agent reports. -/
inductive AckStatus
  | enabled
  | disabled
  | other (text : String)
  deriving DecidableEq, Repr

namespace AckStatus

/-- The word a status is written with. -/
def text : AckStatus → String
  | .enabled => "enabled"
  | .disabled => "disabled"
  | .other s => s

/-- The status that a word stands for. -/
def ofText (s : String) : AckStatus :=
  if s = "enabled" then .enabled else if s = "disabled" then .disabled else .other s

def isEnabled (s : AckStatus) : Bool :=
  s = .enabled

end AckStatus

/-- What an agent says of itself when it comes online. -/
structure AgentInfo where
  name : String
  version : String
  osName : String
  osRelease : String
  deriving DecidableEq

/-- Name and version of this program, and the platform it is built for. -/
structure Build where
  name : String
  fullName : String
  version : String
  os : String
  architecture : String

def thisBuild : Build where
  name := "fleetstat"
  fullName := "Fleetstat Metrics Control Plane"
  version := "0.1.0"
  os := "linux"
  architecture := "x86_64"

/-- The description of an agent of this program. -/
def AgentInfo.current (component : String) : AgentInfo :=
  ⟨s!"{thisBuild.name}-{component}", thisBuild.version, thisBuild.os, thisBuild.architecture⟩

/-- The load of one instrumenter. -/
structure InstrumenterStatus where
  hostname : String
  metrics : Nat
  instrumentations : Nat
  deriving DecidableEq

/-- The load of one aggregator. -/
structure AggregatorStatus where
  hostname : String
  instrumentations : Nat
  deriving DecidableEq

/-- What the coordinator says of itself and of the agents it knows. -/
structure StatusReport where
  component : String
  instrumentations : Nat
  instrumenters : List InstrumenterStatus
  aggregators : List AggregatorStatus
  deriving DecidableEq

/-- What an agent is told to do or to stop doing. -/
inductive Work
  | instrumentation
  | aggregation
  deriving DecidableEq, Repr

def Work.name : Work → String
  | .instrumentation => "instrumentation"
  | .aggregation => "aggregation"

/-- Which command an acknowledgement answers. -/
inductive Action
  | enable
  | disable
  deriving DecidableEq, Repr

def Action.name : Action → String
  | .enable => "enable"
  | .disable => "disable"

/-! ## Messages -/

/-- A message, with values of numbers of type `N`. -/
inductive Message (N : Type) where
  | ping
  | pingAck
  | status
  | statusAck (report : StatusReport)
  | enableInstrumentation (id : InstId) (streamKey module stat : String) (predicate : Predicate N)
      (decomposition : List String)
  | enableAggregation (id : InstId) (streamKey : String)
  | disable (work : Work) (id : InstId)
  | instrumenterOnline (agent : AgentInfo) (modules : Catalog)
  | aggregatorOnline (agent : AgentInfo)
  | log (text : String)
  | instrumenterError (id : InstId) (error : String) (status : AckStatus)
  | ack (action : Action) (work : Work) (id : InstId) (status : AckStatus) (error : Option String)
  | data (id : InstId) (sampledAt : Timestamp) (value : ReducedValue N)
  deriving BEq

namespace Message

variable {N : Type}

/-- The name of a message's kind. -/
def kind : Message N → String
  | .ping => "cmd-ping"
  | .pingAck => "ack-ping"
  | .status => "cmd-status"
  | .statusAck _ => "ack-status"
  | .enableInstrumentation .. => "cmd-enable_instrumentation"
  | .enableAggregation .. => "cmd-enable_aggregation"
  | .disable work _ => s!"cmd-disable_{work.name}"
  | .instrumenterOnline .. => "notify-instrumenter_online"
  | .aggregatorOnline _ => "notify-aggregator_online"
  | .log _ => "notify-log"
  | .instrumenterError .. => "notify-instrumenter_error"
  | .ack action work .. => s!"ack-{action.name}_{work.name}"
  | .data .. => "data"

/-- The instrumentation that a message is about. -/
def instId? : Message N → Option InstId
  | .enableInstrumentation id .. => some id
  | .enableAggregation id _ => some id
  | .disable _ id => some id
  | .instrumenterError id .. => some id
  | .ack _ _ id .. => some id
  | .data id .. => some id
  | _ => none

end Message

/-- A message with where it comes from. -/
structure Envelope (N : Type) where
  /-- The routing key that answers go to. -/
  source : String
  hostname : String
  message : Message N
  deriving BEq

end FleetMetrics
