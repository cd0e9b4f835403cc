import FleetMetrics.Text.Quoted

/-!
# What can go wrong

Every failure is a cause; its wording is in the function `message` of its type and nowhere else.
`Failure` joins the causes of all parts under one heading each.
-/

namespace FleetMetrics

/-- The shapes of reduced values. -/
inductive Shape
  | scalar
  | distribution
  | discrete
  deriving DecidableEq, Repr

/-- The name of a shape. -/
def Shape.name : Shape → String
  | .scalar => "scalar"
  | .distribution => "distribution"
  | .discrete => "discrete"

/-- How the parts of a compound predicate are joined. -/
inductive Connective
  | all
  | any
  deriving DecidableEq, Repr

/-- The word a connective is written with. -/
def Connective.name : Connective → String
  | .all => "and"
  | .any => "or"

/-! ## Metrics -/

/-- Why a metric cannot be queried, registered or read. -/
inductive MetricError
  | unknownMetric (module stat : String)
  | unknownField (field module stat : String)
  | multipleNumeric (fields : List String)
  | duplicateDecomposition (field : String)
  | emptyCombinator (connective : Connective)
  | missingBucketizer (field : String)
  | invalidBucketizer (field : String)
  | alreadyRegistered (module stat : String)
  | unknownModule (module : String)
  | notInstrumented
  | source (reason : String)
  | shapeMismatch (left right : Shape)
  deriving DecidableEq

/-- The text of a metric error. -/
def MetricError.message : MetricError → String
  | .unknownMetric module stat => s!"unknown metric {module}/{stat}"
  | .unknownField field module stat => s!"unknown field '{field}' for {module}/{stat}"
  | .multipleNumeric fields =>
    s!"at most one numeric decomposition is supported (got {Text.quotedList fields})"
  | .duplicateDecomposition field =>
    s!"field '{field}' appears more than once in the decomposition"
  | .emptyCombinator connective => s!"'{connective.name}' predicate needs at least one child"
  | .missingBucketizer field => s!"numeric field '{field}' has no bucketizer"
  | .invalidBucketizer field => s!"numeric field '{field}' has an unusable bucketizer"
  | .alreadyRegistered module stat => s!"metric {module}/{stat} is already registered"
  | .unknownModule module => s!"module '{module}' is not registered"
  | .notInstrumented => "metric is not instrumented"
  | .source reason => s!"sample source failed: {reason}"
  | .shapeMismatch left right => s!"cannot merge {left.name} value with {right.name} value"

/-! ## Requests -/

/-- Why a request to the coordinator is refused. -/
inductive RequestError
  | validation (reason : String)
  | noAggregators
  | notFound (id : Nat)
  | enableFailed (reason : String)
  | cancelled (id : Nat)
  | unavailable
  deriving DecidableEq

/-- The text of a request error. -/
def RequestError.message : RequestError → String
  | .validation reason => s!"invalid instrumentation: {reason}"
  | .noAggregators => "no aggregators available"
  | .notFound id => s!"instrumentation {id} not found"
  | .enableFailed reason => s!"error: {reason}"
  | .cancelled id => s!"instrumentation {id} deleted before enable completed"
  | .unavailable => "coordinator is not running"

/-- The status code that a request answered with this error carries. -/
def RequestError.status : RequestError → Nat
  | .validation _ => 400
  | .noAggregators => 500
  | .notFound _ => 404
  | .enableFailed _ => 500
  | .cancelled _ => 409
  | .unavailable => 503

/-- A metric error, as the reason why a request is invalid. -/
def RequestError.ofMetric (e : MetricError) : RequestError :=
  .validation e.message

/-! ## Messages, transport, configuration -/

/-- Why a text is no message. -/
inductive MessageError
  /-- The text is no JSON. -/
  | undecodable (reason : String)
  /-- The value has not the form of a message; `kind` is the kind it claims to be. -/
  | malformed (kind reason : String)
  deriving DecidableEq

/-- The text of a message error. -/
def MessageError.message : MessageError → String
  | .undecodable reason => s!"Failed to decode message: {reason}"
  | .malformed kind reason => s!"Malformed {kind} message: {reason}"

/-- Why a message cannot be published. -/
inductive TransportError
  | invalidKey (key : String)
  deriving DecidableEq

/-- The text of a transport error. -/
def TransportError.message : TransportError → String
  | .invalidKey key => s!"Invalid routing key '{key}'"

/-- Why a configuration is refused. -/
inductive ConfigError
  | fileNotFound (path : String)
  | unreadable (reason : String)
  | invalidValue (field reason : String)
  | missingField (field : String)
  deriving DecidableEq

/-- The text of a configuration error. -/
def ConfigError.message : ConfigError → String
  | .fileNotFound path => s!"Configuration file not found: {path}"
  | .unreadable reason => s!"Failed to parse configuration: {reason}"
  | .invalidValue field reason => s!"Invalid configuration value for '{field}': {reason}"
  | .missingField field => s!"Missing required configuration field: {field}"

/-! ## All of them -/

/-- A failure of any part. -/
inductive Failure
  | config (cause : ConfigError)
  | transport (cause : TransportError)
  | message (cause : MessageError)
  | metric (cause : MetricError)
  | request (cause : RequestError)
  | io (reason : String)
  | internal (reason : String)
  deriving DecidableEq

namespace Failure

/-- The part that failed. -/
def category : Failure → String
  | .config _ => "config"
  | .transport _ => "transport"
  | .message _ => "message"
  | .metric _ => "metric"
  | .request _ => "request"
  | .io _ => "io"
  | .internal _ => "internal"

/-- The text of a failure: the part, then the cause. -/
def text : Failure → String
  | .config e => s!"Configuration error: {e.message}"
  | .transport e => s!"Transport error: {e.message}"
  | .message e => s!"Message error: {e.message}"
  | .metric e => s!"Metric error: {e.message}"
  | .request e => s!"Request error: {e.message}"
  | .io reason => s!"IO error: {reason}"
  | .internal reason => s!"Internal error: {reason}"

/-- Can the same thing succeed later? A bad configuration, a bad key and an internal fault stay
bad. -/
def recoverable : Failure → Bool
  | .config _ | .transport _ | .internal _ => false
  | .message _ | .metric _ | .request _ | .io _ => true

end Failure

end FleetMetrics
