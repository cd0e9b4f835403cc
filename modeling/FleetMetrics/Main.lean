import FleetMetrics.CommandLine.Response
import Std.Time.DateTime.Timestamp

/-!
# The program

Gathers the words of the command line, the variables of the environment, the configuration file
and the time of day, and carries out what `CommandLine.Invocation.respond` answers.
-/

namespace FleetMetrics.CommandLine

/-- A variable as it stands in the environment: its name, an equals sign and its value. -/
def splitVariable (entry : List Char) : String × String :=
  (String.ofList (entry.takeWhile (· ≠ '=')),
    String.ofList ((entry.dropWhile (· ≠ '=')).drop 1))

/-- The variables of the environment. -/
def readVariables : IO Environment.Variables := do
  try
    let text ← IO.FS.readFile "/proc/self/environ"
    let entries := (text.splitOn "\x00").filter fun entry => !entry.isEmpty
    return entries.map fun entry => splitVariable entry.toList
  catch _ => return []

/-- What stands at a path. -/
def contentAt (path : String) : IO PathContent := do
  try
    return .file (← IO.FS.readFile path)
  catch
    | .noFileOrDirectory .. => return .nothing
    -- a folder is opened but cannot be read; below a file there is nothing to open
    | .inappropriateType none .. => return .folder
    | .inappropriateType .. => return .nothing
    | e => return .unreadable (toString e)

/-- Why a file could not be written. -/
def reasonText : IO.Error → String
  | .noFileOrDirectory _ code details
  | .inappropriateType _ code details
  | .permissionDenied _ code details => details ++ " (os error " ++ toString code ++ ")"
  | e => toString e

/-- Write a file. -/
def save (path text : String) : IO (Except String Unit) := do
  try
    IO.FS.writeFile path text
    return .ok ()
  catch e => return .error (reasonText e)

/-- Show what there is to show. -/
def finish (o : Outcome) : IO UInt32 := do
  let stdout ← IO.getStdout
  stdout.putStr o.stdout
  stdout.flush
  let stderr ← IO.getStderr
  stderr.putStr o.stderr
  stderr.flush
  return o.code.toUInt32

/-- Wait until the program is interrupted. -/
partial def waitForEver : IO Unit := do
  IO.sleep 1000
  waitForEver

/-- Carry out a response. -/
def carryOut : Response → IO UInt32
  | .done o => finish o
  | .save path text ending => do finish (ending (← save path text))
  | .wait => do
    waitForEver
    return 0

end FleetMetrics.CommandLine

open FleetMetrics FleetMetrics.CommandLine in
/-- The program: from the words behind its name to its exit code. -/
def main (words : List String) : IO UInt32 := do
  let env ← readVariables
  match Invocation.ofWords words env with
  | .error halt => finish (.ofHalt halt)
  | .ok i =>
    let content ← contentAt i.path
    let now : Timestamp := ⟨(← Std.Time.Timestamp.now).toNanosecondsSinceUnixEpoch.val⟩
    carryOut (i.respond { look := fun _ => content, env := env, now := now })
