import FleetMetrics.Decimal.Scaled
import FleetMetrics.Width

/-!
# JSON tokens

A text is cut into tokens one character at a time: between tokens, inside a bare word (a literal
name or a number) or inside a quoted text. Each rule of the grammar is one transition of
`Scan.step`, so a text of any length is read by a plain fold.
-/

namespace FleetMetrics.Json

/-- One token. -/
inductive Token
  | openArray
  | closeArray
  | openObject
  | closeObject
  | comma
  | colon
  | null
  | bool (value : Bool)
  | int (value : Int)
  | float (value : Float)
  | text (value : String)

/-! ## Numbers -/

/-- Digits at the front, as numbers, and what follows them. -/
def spanDigits (cs : List Char) : List Nat × List Char :=
  ((cs.takeWhile Char.isDigit).map fun c => c.toNat - '0'.toNat, cs.dropWhile Char.isDigit)

/-- The number that some digits spell. -/
def ofDigits (ds : List Nat) : Nat :=
  ds.foldl (fun n d => n * 10 + d) 0

/-- The exponent behind an `e`: a sign if any, then at least one digit, and nothing more. -/
def exponent? (cs : List Char) : Option Int :=
  let (negative, rest) :=
    match cs with
    | '-' :: rest => (true, rest)
    | '+' :: rest => (false, rest)
    | _ => (false, cs)
  match spanDigits rest with
  | ([], _) => none
  | (ds, []) => some (if negative then -(ofDigits ds) else ofDigits ds)
  | _ => none

/-- A number from its parts. A whole number within 64 bits stays whole; minus zero does not. -/
def numberToken (negative : Bool) (whole fraction : List Nat) (exponent : Option Int) :
    Option Token :=
  let scaled := fraction.foldl Decimal.Scaled.pushFraction
    (whole.foldl Decimal.Scaled.pushWhole Decimal.Scaled.start).pushPoint
  let wholeValue := ofDigits whole
  let isWhole := fraction.isEmpty && exponent.isNone
  if isWhole ∧ negative = false ∧ wholeValue < Width.capacity 64 then
    some (.int wholeValue)
  else if isWhole ∧ negative ∧ 0 < wholeValue ∧ wholeValue ≤ Width.capacity 63 then
    some (.int (-wholeValue))
  else
    let scaled := { scaled with exponent := scaled.exponent + exponent.getD 0 }
    scaled.toFloat?.map fun x => .float (if negative then -x else x)

/-- A number: no leading zeros, digits on both sides of a point, an optional exponent. -/
def wordNumber? (cs : List Char) : Option Token :=
  let (negative, cs) :=
    match cs with
    | '-' :: rest => (true, rest)
    | _ => (false, cs)
  match spanDigits cs with
  | ([], _) => none
  | (0 :: _ :: _, _) => none
  | (whole, '.' :: rest) =>
    match spanDigits rest with
    | ([], _) => none
    | (fraction, []) => numberToken negative whole fraction none
    | (fraction, e :: rest) =>
      if e = 'e' ∨ e = 'E' then
        (exponent? rest).bind fun x => numberToken negative whole fraction (some x)
      else none
  | (whole, []) => numberToken negative whole [] none
  | (whole, e :: rest) =>
    if e = 'e' ∨ e = 'E' then
      (exponent? rest).bind fun x => numberToken negative whole [] (some x)
    else none

/-- A bare word. -/
def word? (cs : List Char) : Option Token :=
  if cs = "null".toList then some .null
  else if cs = "true".toList then some (.bool true)
  else if cs = "false".toList then some (.bool false)
  else wordNumber? cs

/-! ## Scanning -/

/-- Where the scan stands; characters of the current token are held in reverse. -/
inductive Scan
  | between
  | word (seen : List Char)
  | quoted (seen : List Char)
  | escape (seen : List Char)
  /-- Inside an escaped code unit: digits still owed, the value so far, and the first half of a
  surrogate pair if this is the second. -/
  | unit (seen : List Char) (owed value : Nat) (high : Option Nat)
  /-- Behind the first half of a pair, where a backslash has to follow. -/
  | pairSlash (seen : List Char) (high : Nat)
  /-- Behind that backslash, where a `u` has to follow. -/
  | pairMark (seen : List Char) (high : Nat)

/-- The value of a hexadecimal digit. -/
def hexDigit? (c : Char) : Option Nat :=
  if c.isDigit then some (c.toNat - '0'.toNat)
  else if 'a' ≤ c ∧ c ≤ 'f' then some (c.toNat - 'a'.toNat + 10)
  else if 'A' ≤ c ∧ c ≤ 'F' then some (c.toNat - 'A'.toNat + 10)
  else none

/-- The token that a character is by itself. -/
def punctuation? : Char → Option Token
  | '[' => some .openArray
  | ']' => some .closeArray
  | '\x7b' => some .openObject
  | '\x7d' => some .closeObject
  | ',' => some .comma
  | ':' => some .colon
  | _ => none

/-- The character that a one-letter escape stands for. -/
def escaped? : Char → Option Char
  | '"' => some '"'
  | '\\' => some '\\'
  | '/' => some '/'
  | 'b' => some '\x08'
  | 'f' => some '\x0c'
  | 'n' => some '\n'
  | 'r' => some '\r'
  | 't' => some '\t'
  | _ => none

/-- A code unit that is complete: a character, the first half of a pair, or the second half. -/
def completeUnit (seen : List Char) (value : Nat) : Option Nat → Option Scan
  | none =>
    if 0xD800 ≤ value ∧ value < 0xDC00 then some (.pairSlash seen value)
    else if 0xDC00 ≤ value ∧ value < 0xE000 then none
    else some (.quoted (Char.ofNat value :: seen))
  | some high =>
    if 0xDC00 ≤ value ∧ value < 0xE000 then
      some (.quoted (Char.ofNat (0x10000 + (high - 0xD800) * 0x400 + (value - 0xDC00)) :: seen))
    else none

namespace Scan

/-- One character between tokens. -/
def fromBetween (c : Char) : Option (Scan × List Token) :=
  if c = ' ' ∨ c = '\t' ∨ c = '\n' ∨ c = '\r' then some (.between, [])
  else if c = '"' then some (.quoted [], [])
  else
    match punctuation? c with
    | some t => some (.between, [t])
    | none => some (.word [c], [])

/-- Does a character end a bare word? -/
def endsWord (c : Char) : Bool :=
  c = ' ' || c = '\t' || c = '\n' || c = '\r' || c = '"' || (punctuation? c).isSome

/-- One character; the tokens it completes. -/
def step : Scan → Char → Option (Scan × List Token)
  | between, c => fromBetween c
  | word seen, c =>
    if endsWord c then do
      let t ← word? seen.reverse
      let (next, ts) ← fromBetween c
      some (next, t :: ts)
    else some (.word (c :: seen), [])
  | quoted seen, c =>
    if c = '"' then some (.between, [.text (String.ofList seen.reverse)])
    else if c = '\\' then some (.escape seen, [])
    else if c.toNat < 0x20 then none
    else some (.quoted (c :: seen), [])
  | escape seen, c =>
    if c = 'u' then some (.unit seen 4 0 none, [])
    else (escaped? c).map fun e => (.quoted (e :: seen), [])
  | unit seen owed value high, c => do
    let value := value * 16 + (← hexDigit? c)
    if owed ≤ 1 then
      let next ← completeUnit seen value high
      some (next, [])
    else some (.unit seen (owed - 1) value high, [])
  | pairSlash seen high, c => if c = '\\' then some (.pairMark seen high, []) else none
  | pairMark seen high, c => if c = 'u' then some (.unit seen 4 0 (some high), []) else none

/-- The tokens of a text from a given place on. -/
def tokens : Scan → List Char → Option (List Token)
  | between, [] => some []
  | word seen, [] => (word? seen.reverse).map ([·])
  | _, [] => none
  | s, c :: cs =>
    match s.step c with
    | none => none
    | some (next, ts) => (tokens next cs).map (ts ++ ·)

end Scan

end FleetMetrics.Json
