import FleetMetrics.CommandLine.Grammar

/-!
# Reading a command line

Words are read from the left by `Scan.words`. The value of an option waits until it is clear that
the option is complete, which is when another option is met or the words are at an end; only then
is it checked. So of two faults that of the earlier option counts, and help that is asked for
before a fault is given.
-/

namespace FleetMetrics.CommandLine

/-- Why the words of a command line are not carried out. -/
inductive Halt
  /-- Help was asked for. -/
  | help (text : String)
  /-- The version was asked for. -/
  | version
  /-- The words do not follow the grammar. -/
  | misuse (reason : String)
  deriving DecidableEq

/-- The words read so far. -/
structure Scan where
  /-- The options given, by their long names; a flag has an empty value. -/
  given : List (String × String) := []
  /-- An option that may not be complete yet, and its value. -/
  pending : Option (OptionRule × Option String) := none

namespace Scan

def unexpected (word : String) : Halt :=
  .misuse ("unexpected argument '" ++ word ++ "' found")

/-- Take an option with its value. -/
def record (s : Scan) (r : OptionRule) (value : String) : Except Halt Scan :=
  if s.given.any fun g => g.1 = r.long then
    .error (.misuse ("the argument '--" ++ r.long ++ "' cannot be used multiple times"))
  else
    let taken : Scan := { s with given := s.given ++ [(r.long, value)] }
    match r.kind with
    | .value _ accepts =>
      if accepts value then .ok taken
      else .error (.misuse ("invalid value '" ++ value ++ "' for '--" ++ r.long ++ "'"))
    | _ => .ok taken

/-- The option that waits is complete. -/
def settle (s : Scan) : Except Halt Scan :=
  match s.pending with
  | none => .ok s
  | some (r, some value) => record { s with pending := none } r value
  | some (r, none) =>
    .error (.misuse ("a value is required for '--" ++ r.long ++ "' but none was supplied"))

/-- An option without a value. -/
def plain (g : Grammar) (s : Scan) (r : OptionRule) : Except Halt Scan := do
  -- an option in front is complete now, and its faults come first
  let s ← s.settle
  match r.kind with
  | .help => .error (.help g.help)
  | .version => .error .version
  | _ => s.record r ""

/-- An option that takes a value: the value it comes with, or the next word. -/
def valued (s : Scan) (r : OptionRule) (value : Option String) : Except Halt Scan := do
  let s ← s.settle
  match value with
  | some v => s.record r v
  | none => .ok { s with pending := some (r, none) }

/-- The word behind two hyphens. -/
def long (g : Grammar) (s : Scan) (word : List Char) : Except Halt Scan :=
  let name := String.ofList (word.takeWhile (· ≠ '='))
  let value :=
    match word.dropWhile (· ≠ '=') with
    | _ :: rest => some (String.ofList rest)
    | [] => none
  match g.named? name with
  | none => .error (unexpected ("--" ++ name))
  | some r =>
    if r.takesValue then s.valued r value
    else if value.isSome then
      .error (.misuse ("unexpected value '" ++ value.getD "" ++ "' for '--" ++ name ++ "'"))
    else plain g s r

/-- The letters behind one hyphen. What follows the letter of an option with a value is the
value; an equals sign between them does not count. -/
def letters (g : Grammar) : Scan → List Char → Except Halt Scan
  | s, [] => .ok s
  | s, c :: rest =>
    match g.lettered? c with
    | none => .error (unexpected ("-" ++ String.singleton c))
    | some r =>
      if r.takesValue then
        s.valued r <|
          match rest with
          | [] => none
          | '=' :: value => some (String.ofList value)
          | value => some (String.ofList value)
      else do letters g (← plain g s r) rest

/-- Does an option wait for its value? -/
def awaitsValue (s : Scan) : Bool :=
  match s.pending with
  | some (_, none) => true
  | _ => false

/-- A word that is no option: the value that an option waits for. -/
def operand (s : Scan) (word : String) : Except Halt Scan :=
  match s.pending with
  | some (r, none) => .ok { s with pending := some (r, some word) }
  | _ => .error (unexpected word)

/-- One word. -/
def word (g : Grammar) (s : Scan) (w : String) : Except Halt Scan :=
  match w.toList with
  | '-' :: '-' :: name => long g s name
  | '-' :: c :: rest => letters g s (c :: rest)
  | _ => s.operand w

/-- All words up to the name of a command, that name and the words behind it. Nothing can stand
behind two hyphens alone. -/
def words (g : Grammar) : Scan → List String →
    Except Halt (Scan × Option (String × List String))
  | s, [] => .ok (s, none)
  | s, w :: rest =>
    -- the value of an option may be spelled like a command
    if !s.awaitsValue && g.commands.any (fun c => c.1 = w) then .ok (s, some (w, rest))
    else if w = "--" then
      match rest with
      | [] => .ok (s, none)
      | next :: _ => .error (unexpected next)
    else do words g (← s.word g w) rest

/-- Options that are not given are taken from the environment. -/
def withEnvironment (g : Grammar) (env : List (String × String)) (s : Scan) :
    Except Halt Scan :=
  g.options.foldlM
    (fun s r =>
      if s.given.any fun given => given.1 = r.long then .ok s
      else
        match r.fromVariable.bind fun name => env.lookup name with
        | some value => s.record r value
        | none => .ok s)
    s

/-- The value of an option: the one that is given, or the one that is taken otherwise. -/
def value? (g : Grammar) (s : Scan) (long : String) : Option String :=
  (s.given.lookup long).or ((g.named? long).bind (·.standard))

/-- Is a flag given? -/
def isGiven (s : Scan) (long : String) : Bool :=
  s.given.any fun given => given.1 = long

end Scan

end FleetMetrics.CommandLine
