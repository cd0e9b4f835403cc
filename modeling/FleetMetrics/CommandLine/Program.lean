import FleetMetrics.CommandLine.Scan
import FleetMetrics.Decimal.Whole
import FleetMetrics.Demo

/-!
# The words of the program

`Invocation.ofWords` reads the words behind the program's name. The options of the program stand
before the command, those of a command behind it. Both the file of the configuration and the level
of the log can also be given by a variable of the environment.
-/

namespace FleetMetrics.CommandLine

/-- The version of the program. -/
def programVersion : String := "0.1.0"

/-- What the program is to do. -/
inductive Command
  /-- Run a coordinator until the program is interrupted. -/
  | run
  | demo (plan : Demo.Plan)
  /-- Check the configuration; `verbose` shows it as well. -/
  | validate (verbose : Bool)
  /-- Write the standard configuration, to a file if one is named. -/
  | generateConfig (output : Option String)
  | version
  deriving DecidableEq

/-- What a command line asks for. -/
structure Invocation where
  /-- Where the configuration is. -/
  path : String
  logLevel : Option String
  command : Command
  deriving DecidableEq

/-! ## Values -/

/-- A path is any text but the empty one. -/
def isPath (s : String) : Bool :=
  !s.isEmpty

/-- A count of 64 bits. -/
def hosts? (s : String) : Option Nat :=
  (Decimal.readWhole 64 s).toOption

/-- A count of 32 bits. Zero may have a sign. -/
def ticks? (s : String) : Option Nat :=
  match s.toList with
  | '-' :: digits =>
    match Decimal.readWhole 32 (String.ofList digits) with
    | .ok 0 => if digits.head? = some '+' then none else some 0
    | _ => none
  | _ => (Decimal.readWhole 32 s).toOption

/-! ## Grammars -/

/-- A grammar of options alone, help among them. -/
def commandGrammar (name about : String) (options : List OptionRule) : Grammar where
  name := "fleetstat " ++ name
  about := about
  options := options ++ [.forHelp]
  commands := []

/-- The commands: what they are called, what follows them, and what they mean then. -/
def commands : List (String × Grammar × (Grammar → Scan → Command)) :=
  let plan : Demo.Plan := {}
  let command (name about : String) (options : List OptionRule)
      (meaning : Grammar → Scan → Command) : String × Grammar × (Grammar → Scan → Command) :=
    (name, commandGrammar name about options, meaning)
  [ command "run" "Start a coordinator on an in-process bus and wait for Ctrl-C" []
      fun _ _ => .run,
    command "demo" "Run a coordinator, one aggregator and synthetic instrumenters"
      [ { long := "hosts", kind := .value "HOSTS" fun s => (hosts? s).isSome,
          about := "Number of instrumenter hosts", standard := some (toString plan.hosts) },
        { long := "ticks", kind := .value "TICKS" fun s => (ticks? s).isSome,
          about := "Report intervals to print before deleting the instrumentation",
          standard := some (toString plan.ticks) } ]
      fun g s =>
        .demo ⟨((s.value? g "hosts").bind hosts?).getD plan.hosts,
          ((s.value? g "ticks").bind ticks?).getD plan.ticks⟩,
    command "validate" "Validate configuration file"
      [ { long := "verbose", letter := some 'v', kind := .flag,
          about := "Show full parsed configuration" } ]
      fun _ s => .validate (s.isGiven "verbose"),
    command "generate-config" "Generate default configuration file"
      [ { long := "output", letter := some 'o', kind := .value "OUTPUT" isPath,
          about := "Output path (default: stdout)" } ]
      fun g s => .generateConfig (s.value? g "output"),
    command "version" "Show version and build info" [] fun _ _ => .version ]

/-- The command that explains the others. -/
def helpCommand : String × String :=
  ("help", "Print this message or the help of the given subcommand(s)")

/-- The grammar of the program. -/
def programGrammar : Grammar where
  name := "fleetstat"
  about := "Fleet-wide metrics control plane"
  options :=
    [ { long := "config", letter := some 'c', kind := .value "CONFIG" isPath,
        about := "Configuration file path", fromVariable := some "FLEETSTAT_CONFIG",
        standard := some "fleetstat.toml" },
      { long := "log-level", letter := some 'l', kind := .value "LOG_LEVEL" fun _ => true,
        about := "Log level override", fromVariable := some "FLEETSTAT_LOG_LEVEL" },
      .forHelp,
      { long := "version", letter := some 'V', kind := .version, about := "Print version" } ]
  commands := (commands.map fun c => (c.1, c.2.1.about)) ++ [helpCommand]

/-! ## Reading -/

/-- The help that the words behind the help command ask for. -/
def helpFor : List String → Halt
  | [] => .help programGrammar.help
  | [name] =>
    match commands.lookup name with
    | some (g, _) => .help g.help
    | none =>
      if name = helpCommand.1 then .help (helpCommand.2 ++ "\n") else Scan.unexpected name
  | name :: next :: _ =>
    if programGrammar.commands.any fun c => c.1 = name then Scan.unexpected next
    else Scan.unexpected name

/-- A command with the words behind it. -/
def readCommand (name : String) (rest : List String) : Except Halt Command :=
  match commands.lookup name with
  | none => .error (helpFor rest)
  | some (g, meaning) => do
    let (s, _) ← Scan.words g {} rest
    let s ← s.settle
    .ok (meaning g s)

/-- What some words ask for. Without a command the program runs. -/
def Invocation.ofWords (words : List String) (env : Environment.Variables) :
    Except Halt Invocation := do
  let (s, found) ← Scan.words programGrammar {} words
  let command ←
    match found with
    | some (name, rest) => readCommand name rest
    | none => .ok .run
  -- the words behind a command are judged before the last option in front of it
  let s ← s.settle
  let s ← s.withEnvironment programGrammar env
  .ok {
    path := (s.value? programGrammar "config").getD ""
    logLevel := s.value? programGrammar "log-level"
    command := command }

end FleetMetrics.CommandLine
