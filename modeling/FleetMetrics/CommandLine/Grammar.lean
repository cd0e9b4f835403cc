/-!
# The grammar of a command line

A command line is a row of words: options, which start with a hyphen, and the name of a command,
which has a grammar of its own. An option is a flag or takes one value, and is given at most once.
`Grammar.help` tells what a grammar has to offer.
-/

namespace FleetMetrics.CommandLine

/-- What an option does. -/
inductive OptionKind
  /-- It is there or not. -/
  | flag
  /-- It takes a value, which must be acceptable. -/
  | value (name : String) (accepts : String → Bool)
  /-- It asks for help. -/
  | help
  /-- It asks for the version. -/
  | version

/-- An option. -/
structure OptionRule where
  /-- Its name behind two hyphens. -/
  long : String
  /-- Its letter behind one hyphen. -/
  letter : Option Char := none
  kind : OptionKind
  about : String
  /-- The variable of the environment that stands in for it. -/
  fromVariable : Option String := none
  /-- What is taken when it is not given. -/
  standard : Option String := none

/-- What can follow the name of a program or command. -/
structure Grammar where
  /-- The names of the program and the command. -/
  name : String
  about : String
  options : List OptionRule
  /-- The names of further commands, and what they do. -/
  commands : List (String × String)

/-- Does an option take a value? -/
def OptionRule.takesValue (r : OptionRule) : Bool :=
  match r.kind with
  | .value .. => true
  | _ => false

/-- Every grammar has this option. -/
def OptionRule.forHelp : OptionRule :=
  { long := "help", letter := some 'h', kind := .help, about := "Print help" }

namespace Grammar

/-- The option with a long name. -/
def named? (g : Grammar) (long : String) : Option OptionRule :=
  g.options.find? fun r => r.long = long

/-- The option with a letter. -/
def lettered? (g : Grammar) (letter : Char) : Option OptionRule :=
  g.options.find? fun r => r.letter = some letter

/-! ## Help -/

/-- How an option is written. -/
def spelling (r : OptionRule) : String :=
  let letter := match r.letter with
    | some c => "-" ++ String.singleton c ++ ", "
    | none => "    "
  let value := match r.kind with
    | .value name _ => " <" ++ name ++ ">"
    | _ => ""
  letter ++ "--" ++ r.long ++ value

/-- What an option does, and where its value comes from when it is not given. -/
def explanation (r : OptionRule) : String :=
  let source := match r.fromVariable with
    | some name => " [env: " ++ name ++ "]"
    | none => ""
  let standard := match r.standard with
    | some value => " [default: " ++ value ++ "]"
    | none => ""
  r.about ++ source ++ standard

/-- Rows of two columns. -/
def columns (rows : List (String × String)) : String :=
  let width := (rows.map (·.1.length)).foldl Nat.max 0
  String.join (rows.map fun row =>
    "  " ++ row.1 ++ String.ofList (List.replicate (width - row.1.length) ' ') ++ "  " ++ row.2 ++
      "\n")

/-- How the words follow each other. -/
def usage (g : Grammar) : String :=
  "Usage: " ++ g.name ++ (if 1 < g.options.length then " [OPTIONS]" else "") ++
    (if g.commands.isEmpty then "" else " [COMMAND]") ++ "\n"

/-- What a grammar has to offer. -/
def help (g : Grammar) : String :=
  let commands :=
    if g.commands.isEmpty then "" else "\nCommands:\n" ++ columns g.commands
  g.about ++ "\n\n" ++ g.usage ++ commands ++
    "\nOptions:\n" ++ columns (g.options.map fun r => (spelling r, explanation r))

end Grammar

end FleetMetrics.CommandLine
