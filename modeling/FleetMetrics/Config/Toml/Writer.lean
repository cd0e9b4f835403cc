import FleetMetrics.Config.Setting
import FleetMetrics.Json.Writer
import FleetMetrics.Width

/-!
# Writing TOML

Every table of a document is written under its header, one entry a line, with an empty line
between tables. A text takes the plainest of the four kinds of quotes that shows it without
escapes; where none does, it is escaped. Whole numbers have at most 63 bits and a sign.
-/

namespace FleetMetrics.Toml

/-- What decides how a text is quoted. -/
structure Traits where
  /-- A control character other than a tab or a line end. -/
  hasControl : Bool
  hasBackslash : Bool
  hasLineEnd : Bool
  /-- How many single quotes stand next to each other. -/
  singles : Nat
  /-- How many double quotes stand next to each other. -/
  doubles : Nat

/-- The longest run of a character. -/
def longestRun (c : Char) (cs : List Char) : Nat :=
  (cs.foldl
    (fun (run, longest) d => if d = c then (run + 1, Nat.max longest (run + 1)) else (0, longest))
    (0, 0)).2

def Traits.of (cs : List Char) : Traits where
  hasControl := cs.any fun c => (c.toNat ≤ 0x1f && c ≠ '\t' && c ≠ '\n') || c.toNat = 0x7f
  hasBackslash := cs.contains '\\'
  hasLineEnd := cs.contains '\n'
  singles := longestRun '\'' cs
  doubles := longestRun '"' cs

/-- The kinds of quotes. -/
inductive Quotes
  | basic
  | literal
  | basicLines
  | literalLines
  deriving DecidableEq

/-- The quotes of a text. -/
def Traits.quotes (t : Traits) : Quotes :=
  if !t.hasControl && !t.hasBackslash && t.doubles = 0 && !t.hasLineEnd then .basic
  else if !t.hasControl && t.singles = 0 && !t.hasLineEnd then .literal
  else if !t.hasControl && !t.hasBackslash && t.doubles ≤ 2 then .basicLines
  else if !t.hasControl && t.singles ≤ 2 then .literalLines
  else if t.hasLineEnd then .basicLines
  else .basic

/-- An upper-case hexadecimal digit. -/
def upperHex (n : Nat) : Char :=
  (Json.hexChar n).toUpper

/-- How a character stands between double quotes. -/
def escaped (severalLines : Bool) (c : Char) : List Char :=
  if c = '\x08' then ['\\', 'b']
  else if c = '\t' then ['\\', 't']
  else if c = '\n' then (if severalLines then ['\n'] else ['\\', 'n'])
  else if c = '\x0c' then ['\\', 'f']
  else if c = '\r' then ['\\', 'r']
  else if c = '\\' then ['\\', '\\']
  else if c.toNat ≤ 0x1f || c.toNat = 0x7f then
    ['\\', 'u', '0', '0', upperHex (c.toNat / 16), upperHex (c.toNat % 16)]
  else [c]

/-- A text between double quotes. A double quote is escaped when more than `allowed` would stand
next to each other; `run` have just been written. -/
def basicBody (severalLines : Bool) (allowed run : Nat) : List Char → List Char
  | [] => []
  | '"' :: rest =>
    -- a longer run of quotes would end the text
    if allowed ≤ run then '\\' :: '"' :: basicBody severalLines allowed 0 rest
    else '"' :: basicBody severalLines allowed (run + 1) rest
  | c :: rest => escaped severalLines c ++ basicBody severalLines allowed 0 rest

/-- A text with its quotes. Texts of several lines start on a line of their own. -/
def quote (s : String) : String :=
  let cs := s.toList
  let traits := Traits.of cs
  let opening := if traits.hasLineEnd then "\n" else ""
  match traits.quotes with
  | .basic => "\"" ++ String.ofList (basicBody false 0 0 cs) ++ "\""
  | .literal => "'" ++ s ++ "'"
  | .basicLines => "\"\"\"" ++ opening ++ String.ofList (basicBody true 2 0 cs) ++ "\"\"\""
  | .literalLines => "'''" ++ opening ++ s ++ "'''"

/-- The text of a value that can stand in an entry of a document. -/
def writeValue? : Setting → Option String
  | .text s => some (quote s)
  | .whole n => if Width.fitsSigned 63 n then some (toString n) else none
  | .flag b => some (if b then "true" else "false")
  | _ => none

/-- One table under its header. -/
def writeTable? (name : String) (entries : Setting.Entries) : Option String := do
  let lines ← entries.mapM fun e => (writeValue? e.2).map fun v => e.1 ++ " = " ++ v ++ "\n"
  some ("[" ++ name ++ "]\n" ++ String.join lines)

/-- A document of tables. -/
def writeTables? (tables : List (String × Setting.Entries)) : Option String :=
  (tables.mapM fun t => writeTable? t.1 t.2).map fun texts => "\n".intercalate texts

end FleetMetrics.Toml
