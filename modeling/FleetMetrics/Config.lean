import FleetMetrics.Config.Environment
import FleetMetrics.Config.Toml.Reader
import FleetMetrics.Config.Toml.Writer
import FleetMetrics.Duration
import FleetMetrics.Logging

/-!
# Configuration

What can be set, what it is when it is not set, and what is refused. A configuration is read from
a text in TOML (`Config.ofText`), from a file with the settings of the environment laid over it
(`Config.load`), or from the environment alone (`Config.ofEnvironment`), and written with
`Config.text?`. Every way of reading ends with `Config.fault?`, so a configuration that was read
has a key base of at least one character and no white space, waits for at least a second and
reports at most ten times a second.

A section may also be a list of its fields in order. Names that mean nothing are ignored.
-/

namespace FleetMetrics

/-- The settings of the coordinator. -/
structure CoordinatorConfig where
  /-- The host that its messages come from, if it is set. -/
  hostname : Option String := none
  /-- What all routing keys start with. -/
  keyBase : String := "fleetstat"
  /-- How long a creation waits for its acknowledgements. -/
  ackTimeout : Duration := .ofSeconds 30
  /-- How often creations out of time are looked for. -/
  sweepInterval : Duration := .ofSeconds 1
  /-- How many requests can wait. -/
  requestQueue : Nat := 1024
  deriving DecidableEq

/-- The settings of the agents. -/
structure AgentConfig where
  /-- How often instrumenters report. -/
  reportInterval : Duration := .ofSeconds 1
  /-- How many seconds of data aggregators keep. -/
  retainSamples : Nat := 600
  deriving DecidableEq

/-- The settings of the log. -/
structure LoggingConfig where
  level : String := "info"
  format : String := "pretty"
  colors : Bool := true
  /-- Does a line tell where in the program it comes from? -/
  sourceLocation : Bool := false
  deriving DecidableEq

/-- All settings. -/
structure Config where
  coordinator : CoordinatorConfig := {}
  agent : AgentConfig := {}
  logging : LoggingConfig := {}
  deriving DecidableEq

/-- A duration, which is set as text. -/
def Setting.duration? (s : Setting) : Option Duration :=
  s.text?.bind Duration.ofText?

/-! ## The coordinator -/

namespace CoordinatorConfig

def names : List String :=
  ["hostname", "key_base", "ack_timeout", "sweep_interval", "request_queue"]

def ofSetting? (s : Setting) : Option CoordinatorConfig := do
  let standard : CoordinatorConfig := {}
  match ← s.fields? names with
  | [hostname, keyBase, ackTimeout, sweepInterval, requestQueue] =>
    some {
      hostname := ← Setting.orDefault (fun s => s.text?.map some) standard.hostname hostname
      keyBase := ← Setting.orDefault Setting.text? standard.keyBase keyBase
      ackTimeout := ← Setting.orDefault Setting.duration? standard.ackTimeout ackTimeout
      sweepInterval := ← Setting.orDefault Setting.duration? standard.sweepInterval sweepInterval
      requestQueue := ← Setting.orDefault Setting.count? standard.requestQueue requestQueue }
  | _ => none

def entries (c : CoordinatorConfig) : Setting.Entries :=
  (c.hostname.map fun h => ("hostname", .text h)).toList ++
    [("key_base", .text c.keyBase),
      ("ack_timeout", .text c.ackTimeout.text),
      ("sweep_interval", .text c.sweepInterval.text),
      ("request_queue", .whole c.requestQueue)]

/-- The host that the coordinator's messages come from: the one that is set, else the one that
the machine names, else `localhost`. -/
def effectiveHostname (c : CoordinatorConfig) (machine : Option String) : String :=
  match c.hostname.filter fun h => !h.isEmpty with
  | some h => h
  | none => machine.getD "localhost"

end CoordinatorConfig

/-! ## The agents -/

namespace AgentConfig

def names : List String :=
  ["report_interval", "retain_samples"]

def ofSetting? (s : Setting) : Option AgentConfig := do
  let standard : AgentConfig := {}
  match ← s.fields? names with
  | [reportInterval, retainSamples] =>
    some {
      reportInterval :=
        ← Setting.orDefault Setting.duration? standard.reportInterval reportInterval
      retainSamples := ← Setting.orDefault Setting.count? standard.retainSamples retainSamples }
  | _ => none

def entries (c : AgentConfig) : Setting.Entries :=
  [("report_interval", .text c.reportInterval.text), ("retain_samples", .whole c.retainSamples)]

end AgentConfig

/-! ## The log -/

namespace LoggingConfig

def names : List String :=
  ["level", "format", "colors", "source_location"]

def ofSetting? (s : Setting) : Option LoggingConfig := do
  let standard : LoggingConfig := {}
  match ← s.fields? names with
  | [level, format, colors, sourceLocation] =>
    some {
      level := ← Setting.orDefault Setting.text? standard.level level
      format := ← Setting.orDefault Setting.text? standard.format format
      colors := ← Setting.orDefault Setting.flag? standard.colors colors
      sourceLocation := ← Setting.orDefault Setting.flag? standard.sourceLocation sourceLocation }
  | _ => none

def entries (c : LoggingConfig) : Setting.Entries :=
  [("level", .text c.level), ("format", .text c.format), ("colors", .flag c.colors),
    ("source_location", .flag c.sourceLocation)]

end LoggingConfig

/-! ## All settings -/

/-- What stands at a path. -/
inductive PathContent
  | nothing
  | file (text : String)
  | folder
  /-- Something that cannot be read. -/
  | unreadable (reason : String)

namespace Config

def names : List String :=
  ["coordinator", "agent", "logging"]

def ofSetting? (s : Setting) : Option Config := do
  match ← s.fields? names with
  | [coordinator, agent, logging] =>
    some {
      coordinator := ← Setting.orDefault CoordinatorConfig.ofSetting? {} coordinator
      agent := ← Setting.orDefault AgentConfig.ofSetting? {} agent
      logging := ← Setting.orDefault LoggingConfig.ofSetting? {} logging }
  | _ => none

/-- The shortest time to wait for acknowledgements. -/
def leastAckTimeout : Duration := .ofSeconds 1

/-- The shortest time between reports. -/
def leastReportInterval : Duration := .ofMillis 100

/-- What makes a configuration unusable; the first such thing, if there are several. -/
def fault? (c : Config) : Option ConfigError :=
  if c.coordinator.keyBase.toList.all Text.isBlank then
    some (.missingField "coordinator.key_base")
  else if c.coordinator.keyBase.toList.any Text.isBlank then
    some (.invalidValue "coordinator.key_base" "Routing key base cannot contain whitespace")
  else if c.coordinator.ackTimeout.nanos < leastAckTimeout.nanos then
    some (.invalidValue "coordinator.ack_timeout" "Ack timeout must be at least 1s")
  else if c.coordinator.sweepInterval.nanos = 0 then
    some (.invalidValue "coordinator.sweep_interval" "Sweep interval must be positive")
  else if c.coordinator.requestQueue = 0 then
    some (.invalidValue "coordinator.request_queue" "Request queue capacity must be positive")
  else if c.agent.reportInterval.nanos < leastReportInterval.nanos then
    some (.invalidValue "agent.report_interval" "Report interval must be at least 100ms")
  else if c.agent.retainSamples = 0 then
    some (.invalidValue "agent.retain_samples" "Aggregators must retain at least one sample")
  else
    match LogFormat.ofText c.logging.format with
    | .ok _ => none
    | .error e => some e

/-- A configuration without a fault. -/
def check (c : Config) : Except ConfigError Config :=
  match c.fault? with
  | some e => .error e
  | none => .ok c

/-- The configuration that some settings describe. -/
def ofSettings (s : Setting) : Except ConfigError Config :=
  match ofSetting? s with
  | some c => c.check
  | none => .error (.unreadable "a setting has an unexpected form")

/-- The settings that a text in TOML describes. -/
def readSettings (text : String) : Except ConfigError Setting :=
  match Toml.read? text with
  | some s => .ok s
  | none => .error (.unreadable "the text is no TOML document")

/-- The configuration that a text describes. -/
def ofText (text : String) : Except ConfigError Config := do
  ofSettings (← readSettings text)

/-- The configuration that variables of the environment describe. -/
def ofEnvironment (env : Environment.Variables) : Except ConfigError Config :=
  ofSettings (Environment.settings env)

/-- The settings of a file, in which tables may stand for other settings. -/
def fileSettings (text : String) : Except ConfigError Setting := do
  match (← readSettings text).settleFile? with
  | some s => .ok s
  | none => .error (.unreadable "the source of a value is no count")

/-- The configuration of a file, with the settings of the environment over it. A folder sets
nothing. -/
def load (path : String) (content : PathContent) (env : Environment.Variables) :
    Except ConfigError Config :=
  let resolve (s : Setting) : Except ConfigError Config :=
    ofSettings (s.overlay (Environment.settings env))
  match content with
  | .nothing => .error (.fileNotFound path)
  | .unreadable reason => .error (.unreadable reason)
  | .folder => resolve (.table [])
  | .file text => do resolve (← fileSettings text)

/-- The text of a configuration. A count of more than 63 bits has none. -/
def text? (c : Config) : Option String :=
  Toml.writeTables? [("coordinator", c.coordinator.entries), ("agent", c.agent.entries),
    ("logging", c.logging.entries)]

/-- The text of the configuration in which nothing is set. -/
def standardText : String :=
  (text? {}).getD ""

end Config

end FleetMetrics
