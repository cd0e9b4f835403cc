import FleetMetrics.Json
import FleetMetrics.Json.Token

/-!
# Reading JSON

Tokens are put together on a stack of open arrays and objects. `Reader.step` is one token;
`Json.read?` folds it over the tokens of a text and accepts when exactly one value has been
completed. At most `maxDepth` arrays and objects may be open at a time.

What happens to members with one name is the caller's policy: `Json.read?` keeps all of them,
`Json.readSorted?` sorts the members of every object and keeps the last of each name.
-/

namespace FleetMetrics.Json

/-- How many arrays and objects may be open at a time. -/
def maxDepth : Nat := 127

/-- An open array or object with what it holds so far, in reverse. -/
inductive Frame
  | array (items : List (Json Float))
  | object (members : List (String × Json Float))
  /-- An object whose next member has its name but no value yet. -/
  | member (members : List (String × Json Float)) (name : String)

/-- What the next token may be. -/
inductive Expect
  | value
  /-- A value or the end of the array just opened. -/
  | firstItem
  /-- A name or the end of the object just opened. -/
  | firstName
  | name
  | colon
  /-- A comma or the end of what is open. -/
  | separator
  | nothing

/-- The open arrays and objects, innermost first, and the value completed last. -/
structure Reader where
  stack : List Frame
  expect : Expect
  result : Option (Json Float)

namespace Reader

/-- Nothing read yet. -/
def start : Reader := ⟨[], .value, none⟩

/-- Hand a complete value to what it stands in. -/
def complete (v : Json Float) : List Frame → Option Reader
  | [] => some ⟨[], .nothing, some v⟩
  | .array items :: rest => some ⟨.array (v :: items) :: rest, .separator, none⟩
  | .member members name :: rest =>
    some ⟨.object ((name, v) :: members) :: rest, .separator, none⟩
  | .object _ :: _ => none

/-- Open an array or object, unless too many are open. -/
def enter (frame : Frame) (expect : Expect) (stack : List Frame) : Option Reader :=
  if stack.length < maxDepth then some ⟨frame :: stack, expect, none⟩ else none

/-- A token where a value is expected. -/
def valueStep (stack : List Frame) : Token → Option Reader
  | .null => complete .null stack
  | .bool b => complete (.bool b) stack
  | .int i => complete (.int i) stack
  | .float x => complete (.float x) stack
  | .text s => complete (.string s) stack
  | .openArray => enter (.array []) .firstItem stack
  | .openObject => enter (.object []) .firstName stack
  | _ => none

/-- A token where a member's name is expected. -/
def nameStep (stack : List Frame) : Token → Option Reader
  | .text s =>
    match stack with
    | .object members :: rest => some ⟨.member members s :: rest, .colon, none⟩
    | _ => none
  | _ => none

/-- The end of the innermost array or object. -/
def close (policy : List (String × Json Float) → List (String × Json Float)) :
    List Frame → Token → Option Reader
  | .array items :: rest, .closeArray => complete (.array items.reverse) rest
  | .object members :: rest, .closeObject => complete (.object (policy members.reverse)) rest
  | _, _ => none

/-- One token. -/
def step (policy : List (String × Json Float) → List (String × Json Float)) (r : Reader)
    (t : Token) : Option Reader :=
  match r.expect with
  | .value => valueStep r.stack t
  -- only the first place may be empty: behind a comma something has to follow
  | .firstItem => (close policy r.stack t).or (valueStep r.stack t)
  | .firstName => (close policy r.stack t).or (nameStep r.stack t)
  | .name => nameStep r.stack t
  | .colon =>
    match t with
    | .colon => some { r with expect := .value }
    | _ => none
  | .separator =>
    match t, r.stack with
    | .comma, .array _ :: _ => some { r with expect := .value }
    | .comma, .object _ :: _ => some { r with expect := .name }
    | _, stack => close policy stack t
  | .nothing => none

end Reader

/-- The value of a text, with every member as written. -/
def readWith? (policy : List (String × Json Float) → List (String × Json Float)) (text : String) :
    Option (Json Float) := do
  let tokens ← Scan.between.tokens text.toList
  let last ← tokens.foldlM (Reader.step policy) Reader.start
  last.result

/-- The value of a text; members with one name are all kept, in the order written. -/
def read? (text : String) : Option (Json Float) :=
  readWith? id text

/-- The value of a text with the members of every object in ascending order of their names, the
last of each name. -/
def readSorted? (text : String) : Option (Json Float) :=
  readWith? Table.ofList text

end FleetMetrics.Json
