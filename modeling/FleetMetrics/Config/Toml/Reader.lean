import FleetMetrics.Config.Toml.Document
import FleetMetrics.Config.Toml.Scan

/-!
# Reading TOML

`Toml.read?` cuts a text into statements, one a line but for lists, which may go over several, and
gives the table that they describe. Lists and tables in values nest at most `maxDepth` deep, and a
key has at most that many parts.
-/

namespace FleetMetrics.Toml

/-- How deep lists and tables may nest in one value, and how many parts a key may have. -/
def maxDepth : Nat := 79

/-- A key with not too many parts. -/
def key? (cs : List Char) : Option (List String × List Char) := do
  let (path, rest) ← keyPath (cs.length + 1) cs
  if path.length ≤ maxDepth then some (path, rest) else none

/-! ## Values -/

/-- A way to take a value from the front of a text. -/
abbrev ValueReader := List Char → Option (Setting × List Char)

/-- The items of a list behind its bracket, at most a given number; a comma may follow the
last. -/
def items (value : ValueReader) : Nat → List Char → Option (List Setting × List Char)
  | 0, _ => none
  | n + 1, cs =>
    match skipFiller false cs with
    | ']' :: rest => some ([], rest)
    | cs => do
      let (v, rest) ← value cs
      match skipFiller false rest with
      | ',' :: rest =>
        let (vs, rest) ← items value n rest
        some (v :: vs, rest)
      | ']' :: rest => some ([v], rest)
      | _ => none

/-- A key, an equals sign and a value. -/
def entry (value : ValueReader) (cs : List Char) : Option (List String × Setting × List Char) := do
  let (path, rest) ← key? cs
  match skipBlanks rest with
  | '=' :: rest =>
    let (v, rest) ← value (skipBlanks rest)
    some (path, v, rest)
  | _ => none

/-- The entries of a table in one value behind its brace, at most a given number. They stand on
one line, and no comma follows the last. -/
def entries (value : ValueReader) : Nat → List Char → Option (List Statement × List Char)
  | 0, _ => none
  | n + 1, cs => do
    let (path, v, rest) ← entry value cs
    match skipBlanks rest with
    | ',' :: rest =>
      let (more, rest) ← entries value n rest
      some (.entry path v :: more, rest)
    | '}' :: rest => some ([.entry path v], rest)
    | _ => none

/-- A table in one value, behind its brace. -/
def inlineTable (value : ValueReader) (cs : List Char) : Option (Setting × List Char) :=
  match skipBlanks cs with
  | '}' :: rest => some (.table [], rest)
  | _ => do
    let (statements, rest) ← entries value (cs.length + 1) cs
    some (← Document.ofStatements? statements, rest)

/-- A value that is neither a list nor a table. -/
def plainValue : ValueReader := fun cs =>
  match cs with
  | '"' :: _ | '\'' :: _ => (quoted cs).map fun found => (.text found.1, found.2)
  | _ =>
    let (word, rest) := spanWord cs
    (word? word).map fun s => (s, rest)

/-- A value in which lists and tables nest at most so deep. -/
def value : Nat → ValueReader
  | 0, cs => plainValue cs
  | depth + 1, cs =>
    match cs with
    | '[' :: rest =>
      (items (value depth) (rest.length + 1) rest).map fun found => (.list found.1, found.2)
    | '{' :: rest => inlineTable (value depth) rest
    | _ => plainValue cs

/-! ## Statements -/

/-- The rest of a header behind its path: closing brackets and the end of the line. -/
def headerEnd? (closing : List Char) (cs : List Char) : Option (List Char) :=
  if closing.isPrefixOf cs then lineEnd? (cs.drop closing.length) else none

/-- The statement on a line that has one, and the lines after it. -/
def statement? (cs : List Char) : Option (Statement × List Char) :=
  match cs with
  | '[' :: '[' :: rest => do
    let (path, rest) ← key? rest
    some (.element path, ← headerEnd? [']', ']'] rest)
  | '[' :: rest => do
    let (path, rest) ← key? rest
    some (.header path, ← headerEnd? [']'] rest)
  | _ => do
    let (path, v, rest) ← entry (value maxDepth) cs
    some (.entry path v, ← lineEnd? rest)

/-- The statements of a text, at most a given number. -/
def statements : Nat → List Char → Option (List Statement)
  | 0, _ => none
  | n + 1, cs =>
    match skipFiller false cs with
    | [] => some []
    | cs => do
      let (s, rest) ← statement? cs
      (statements n rest).map (s :: ·)

/-- The table that a text describes. A mark of the byte order in front does not count. -/
def read? (text : String) : Option Setting := do
  let cs :=
    match text.toList with
    | '\ufeff' :: rest => rest
    | cs => cs
  Document.ofStatements? (← statements (cs.length + 1) cs)

end FleetMetrics.Toml
