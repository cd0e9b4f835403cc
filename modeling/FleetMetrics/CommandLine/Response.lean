import FleetMetrics.CommandLine.Program
import FleetMetrics.Width

/-!
# What the program answers

A command line leads to a `Response`: the program ends with an exit code and with what it has
shown, or a file has to be written first, or it runs on. A failure is shown with what it happened
in and its cause, and ends the program with code 1; words that the program does not understand end
it with code 2.
-/

namespace FleetMetrics.CommandLine

/-- How the program ends. -/
structure Outcome where
  code : Nat
  stdout : String
  stderr : String
  deriving DecidableEq

/-- What a command line leads to. -/
inductive Response
  | done (outcome : Outcome)
  /-- A text goes to a file; how the program ends depends on how that went. -/
  | save (path text : String) (ending : Except String Unit → Outcome)
  /-- The program runs until it is interrupted. -/
  | wait

/-- The surroundings of the program. -/
structure Surroundings where
  /-- What stands at a path. -/
  look : String → PathContent
  /-- The variables of the environment. -/
  env : Environment.Variables
  /-- The time of day. -/
  now : Timestamp

namespace Outcome

def success (stdout : String) : Outcome := ⟨0, stdout, ""⟩

/-- A text with every line moved to the right. -/
def indented (text : String) : String :=
  let margin := [' ', ' ', ' ', ' ']
  String.ofList (margin ++ text.toList.flatMap fun c => if c = '\n' then c :: margin else [c])

/-- A failure with its cause. -/
def failure (stdout context cause : String) : Outcome :=
  ⟨1, stdout, "Error: " ++ context ++ "\n\nCaused by:\n" ++ indented cause ++ "\n"⟩

/-- A failure that is its own cause. -/
def bareFailure (stdout cause : String) : Outcome :=
  ⟨1, stdout, "Error: " ++ cause ++ "\n"⟩

/-- The end of a program whose words were not carried out. -/
def ofHalt : Halt → Outcome
  | .help text => success text
  | .version => success ("fleetstat " ++ programVersion ++ "\n")
  | .misuse reason =>
    ⟨2, "", "error: " ++ reason ++ "\n\n" ++ programGrammar.usage ++
      "\nFor more information, try '--help'.\n"⟩

end Outcome

/-! ## Commands -/

/-- The version and what the program was built for. -/
def versionText : String :=
  "Fleetstat Metrics Control Plane v" ++ programVersion ++ "\n" ++
    "  target: x86_64\n" ++ "  os:     linux\n"

/-- The settings that are shown for every valid configuration. -/
def summary (c : Config) : String :=
  "  key base:        " ++ c.coordinator.keyBase ++ "\n" ++
    "  ack timeout:     " ++ c.coordinator.ackTimeout.short ++ "\n" ++
    "  report interval: " ++ c.agent.reportInterval.short ++ "\n" ++
    "  retain samples:  " ++ toString c.agent.retainSamples ++ "\n"

/-- Check the configuration at a path. -/
def validate (s : Surroundings) (path : String) (verbose : Bool) : Outcome :=
  let announced := "Validating configuration file: " ++ path ++ "\n"
  match Config.load path (s.look path) s.env with
  | .error e => .failure announced ("Invalid configuration in " ++ path) e.message
  | .ok c =>
    let valid := announced ++ "Configuration is valid\n"
    if verbose then
      let ruled := valid ++ "".pushn '=' 60 ++ "\n"
      match c.text? with
      | some text => .success (ruled ++ text ++ "\n" ++ summary c)
      | none => .bareFailure ruled "out-of-range value for u64 type"
    else .success (valid ++ summary c)

/-- The end after the standard configuration was written, or not. -/
def generated (path : String) : Except String Unit → Outcome
  | .ok () => .success ("Default configuration written to: " ++ path ++ "\n")
  | .error reason => .failure "" ("Failed to write " ++ path) reason

/-- The configuration to work with: that of the file if there is one, else that of the
environment. A failure comes with what it happened in. -/
def workingConfig (s : Surroundings) (path : String) : Except (String × ConfigError) Config :=
  match s.look path with
  -- without a file the program works with the environment alone
  | .nothing =>
    (Config.ofEnvironment s.env).mapError fun e => ("Invalid environment configuration", e)
  | content =>
    (Config.load path content s.env).mapError fun e =>
      ("Failed to load config from " ++ path, e)

/-- So many hosts cannot even be listed. -/
def tooManyHosts : Nat := Width.capacity 60

/-- The demonstration. -/
def demonstrate (s : Surroundings) (c : Config) (p : Demo.Plan) : Outcome :=
  if tooManyHosts ≤ p.hosts then ⟨101, "", "capacity overflow\n"⟩
  else
    match Demo.report c (s.env.lookup "HOSTNAME") s.now p with
    | (shown, .ok ()) => .success shown
    | (shown, .error e) => .bareFailure shown e.message

/-- What an invocation leads to. -/
def Invocation.respond (s : Surroundings) (i : Invocation) : Response :=
  let withConfig (work : Config → Response) : Response :=
    match workingConfig s i.path with
    | .ok c => work c
    | .error (context, e) => .done (.failure "" context e.message)
  match i.command with
  | .version => .done (.success versionText)
  | .generateConfig none => .done (.success (Config.standardText ++ "\n"))
  | .generateConfig (some path) => .save path Config.standardText (generated path)
  | .validate verbose => .done (validate s i.path verbose)
  | .demo plan => withConfig fun c => .done (demonstrate s c plan)
  | .run => withConfig fun _ => .wait

/-- What a command line leads to. -/
def respond (s : Surroundings) (words : List String) : Response :=
  match Invocation.ofWords words s.env with
  | .ok i => i.respond s
  | .error halt => .done (.ofHalt halt)

end FleetMetrics.CommandLine
