import FleetMetrics.Config.Setting
import FleetMetrics.Config.Toml.Scan
import FleetMetrics.Decimal.Whole
import FleetMetrics.Text.Blank
import FleetMetrics.Width

/-!
# Settings from the environment

A variable whose name starts with `FLEETSTAT_`, in letters of either case, is a setting: two
underscores in the rest of the name lead into a table. The value may be a truth value, a number, a
quoted text or character, a list in brackets or a table in braces; anything else is text, and so
is a value that only starts like one of these.
-/

namespace FleetMetrics.Environment

/-- What the names of settings start with. -/
def namePrefix : String := "FLEETSTAT_"

/-- The variables of the environment with their values. -/
abbrev Variables := List (String × String)

/-! ## Values -/

/-- White space of ASCII. -/
def isSpace (c : Char) : Bool :=
  c = ' ' || c = '\t' || c = '\n' || c = '\x0c' || c = '\r'

def skipSpace (cs : List Char) : List Char :=
  cs.dropWhile isSpace

/-- Characters that end a word. -/
def isSeparator (c : Char) : Bool :=
  c = ',' || c = '[' || c = ']' || c = '\x7b' || c = '\x7d'

/-- May a character stand in a name? -/
def isNameChar (c : Char) : Bool :=
  c.isAlphanum || c = '_' || c = '-'

/-- A quoted text on one line behind its quote, escaped as in a configuration file. -/
def quoted (cs : List Char) : Option (String × List Char) :=
  (Toml.basic cs).map fun found => (String.ofList found.1, found.2)

/-- A number with a point: digits on at least one side, and an exponent if there is one. -/
def isFraction (cs : List Char) : Bool :=
  let (_, cs) := Toml.splitSign cs
  let whole := cs.takeWhile Char.isDigit
  match cs.dropWhile Char.isDigit with
  | '.' :: rest =>
    let part := rest.takeWhile Char.isDigit
    let exponent :=
      match rest.dropWhile Char.isDigit with
      | [] => true
      | e :: rest =>
        let digits := (Toml.splitSign rest).2
        (e = 'e' || e = 'E') && !digits.isEmpty && digits.all Char.isDigit
    !(whole.isEmpty && part.isEmpty) && exponent
  | _ => false

/-- A whole number, negative ones in 64 bits with the sign. -/
def whole? (s : String) : Option Int :=
  match s.toList with
  | '-' :: digits =>
    match Decimal.readWhole 64 (String.ofList digits) with
    | .ok n => if digits.head? ≠ some '+' ∧ n ≤ Width.capacity 63 then some (-n) else none
    | .error _ => none
  | _ => (Decimal.readWhole 64 s).toOption.map Int.ofNat

/-- The setting that a word stands for. -/
def word (cs : List Char) : Setting :=
  let s := Text.trim (String.ofList cs)
  if isFraction s.toList then .fraction
  else
    match whole? s with
    | some n => .whole n
    | none => .text s

/-- A way to take a value from the front of a text. -/
abbrev ValueReader := List Char → Option (Setting × List Char)

/-- The parts of a list or table behind its bracket, at most a given number; a comma may follow
the last. -/
def parts {α : Type} (closing : Char) (part : List Char → Option (α × List Char)) :
    Nat → List Char → Option (List α × List Char)
  | 0, _ => none
  | n + 1, cs =>
    if cs.head? = some closing then some ([], cs.drop 1)
    else do
      let (x, rest) ← part cs
      match rest with
      | ',' :: rest =>
        let (xs, rest) ← parts closing part n rest
        some (x :: xs, rest)
      | c :: rest => if c = closing then some ([x], rest) else none
      | [] => none

/-- A name, an equals sign and a value. -/
def entry (value : ValueReader) (cs : List Char) : Option ((String × Setting) × List Char) := do
  let cs := skipSpace cs
  let (name, rest) ←
    match cs with
    | '"' :: rest => quoted rest
    | _ =>
      let name := cs.takeWhile isNameChar
      if name.isEmpty then none else some (String.ofList name, cs.drop name.length)
  match skipSpace rest with
  | '=' :: rest =>
    let (v, rest) ← value rest
    some ((name, v), rest)
  | _ => none

/-- A value at the front of a text without blanks in front. -/
def bare (value : ValueReader) (cs : List Char) : Option (Setting × List Char) :=
  match cs with
  | 't' :: 'r' :: 'u' :: 'e' :: rest => some (.flag true, rest)
  | 'f' :: 'a' :: 'l' :: 's' :: 'e' :: rest => some (.flag false, rest)
  | '[' :: rest =>
    (parts ']' value (rest.length + 1) rest).map fun found => (.list found.1, found.2)
  | '\x7b' :: rest =>
    (parts '\x7d' (entry value) (rest.length + 1) rest).map fun found =>
      (.table (found.1.foldl (fun t e => Setting.put e.1 e.2 t) []), found.2)
  | '"' :: rest => (quoted rest).map fun found => (.text found.1, found.2)
  | '\'' :: rest =>
    match rest with
    | c :: '\'' :: rest => some (.text (String.singleton c), rest)
    | _ => none
  | _ => some (word (cs.takeWhile fun c => !isSeparator c), cs.dropWhile fun c => !isSeparator c)

/-- A value with blanks around it, nested less deep than a limit. -/
def value : Nat → ValueReader
  | 0, _ => none
  | depth + 1, cs =>
    (bare (value depth) (skipSpace cs)).map fun found => (found.1, skipSpace found.2)

/-- The setting that the value of a variable stands for. -/
def setting (s : String) : Setting :=
  match value (s.length + 1) s.toList with
  -- only a value that is the whole text counts
  | some (v, []) => v
  | _ => .text s

/-! ## Names -/

/-- A name in lower case. -/
def lower (cs : List Char) : List Char :=
  cs.map Char.toLower

/-- The parts of a name between dots, two underscores counting as a dot. -/
def split : List Char → List (List Char)
  | [] => [[]]
  | '_' :: '_' :: rest => [] :: split rest
  | '.' :: rest => [] :: split rest
  | c :: rest =>
    match split rest with
    | part :: others => (c :: part) :: others
    | [] => [[c]]

/-- Where the setting of a variable stands, if it is one. -/
def path? (name : String) : Option (List String) :=
  let front := namePrefix.toList
  let cs := (Text.trim name).toList
  if lower (cs.take front.length) = lower front then
    let parts := split (Text.trim (String.ofList (lower (cs.drop front.length)))).toList
    if parts.any List.isEmpty then none else some (parts.map String.ofList)
  else none

/-- The settings of some variables; a later one is laid over the earlier ones. -/
def settings (env : Variables) : Setting :=
  env.foldl
    (fun t v =>
      match path? v.1 with
      | some path => t.overlay (Setting.within path (setting v.2))
      | none => t)
    (.table [])

end FleetMetrics.Environment
