import FleetMetrics.Error
import FleetMetrics.Text.Lowercase

/-!
# Logging settings

How much is logged and in which form. Words are read without regard to case. What the transport
logs for every message is held one step below the general level, unless everything is traced.
-/

namespace FleetMetrics

/-- The forms of log lines. -/
inductive LogFormat
  | pretty
  | compact
  | json
  deriving DecidableEq, Repr

/-- The form that a word names. -/
def LogFormat.ofText (s : String) : Except ConfigError LogFormat :=
  match Text.lower s with
  | "pretty" => .ok .pretty
  | "compact" => .ok .compact
  | "json" => .ok .json
  | other =>
    .error (.invalidValue "logging.format" s!"Unknown log format '{other}' (pretty, compact, json)")

/-- How much is logged. -/
inductive LogLevel
  | trace
  | debug
  | info
  | warn
  | error
  | off
  deriving DecidableEq, Repr

namespace LogLevel

/-- The name of a level. -/
def name : LogLevel → String
  | .trace => "trace"
  | .debug => "debug"
  | .info => "info"
  | .warn => "warn"
  | .error => "error"
  | .off => "off"

/-- The level that a word names; any other word means `info`. -/
def ofText (s : String) : LogLevel :=
  match Text.lower s with
  | "trace" => .trace
  | "debug" => .debug
  | "warn" | "warning" => .warn
  | "error" => .error
  | "off" => .off
  | _ => .info

/-- The level at which the transport logs. -/
def ofTransport : LogLevel → LogLevel
  | .debug => .info
  | level => level

/-- The filter for a level, with the transport's level where it differs. -/
def directives (level : LogLevel) : String :=
  let transport := level.ofTransport
  if transport = level then level.name
  else s!"{level.name},{thisTarget}={transport.name}"
where
  /-- Under which name the transport logs. -/
  thisTarget : String := "fleetstat::transport"

end LogLevel

end FleetMetrics
