import FleetMetrics.Text.Blank
import FleetMetrics.Width

/-!
# Durations

A duration is a whole number of nanoseconds, of at most `2 ^ 64` seconds. It is read from numbers
with units, as in `1h 30m`, which add up; a number may have a fraction, and `0` needs no unit. It
is written in the same way with the largest units first (`Duration.text`), or as one decimal
number with the largest unit that gives it a whole part (`Duration.short`).
-/

namespace FleetMetrics

/-- A time span in nanoseconds. -/
structure Duration where
  nanos : Nat
  deriving DecidableEq

namespace Duration

/-- Nanoseconds in a second. -/
def second : Nat := 1000000000

def ofSeconds (n : Nat) : Duration := ⟨n * second⟩
def ofMillis (n : Nat) : Duration := ⟨n * 1000000⟩

/-- Numbers are read in 64 bits. -/
def limit : Nat := Width.capacity 64

/-! ## Units -/

/-- A unit: so many seconds, or so many nanoseconds. -/
inductive Unit
  | seconds (count : Nat)
  | nanos (count : Nat)

/-- The unit that a word names. -/
def Unit.ofName? : List Char → Option Unit := fun name =>
  match String.ofList name with
  | "nanos" | "nsec" | "ns" => some (.nanos 1)
  | "usec" | "us" | "µs" => some (.nanos 1000)
  | "millis" | "msec" | "ms" => some (.nanos 1000000)
  | "seconds" | "second" | "secs" | "sec" | "s" => some (.seconds 1)
  | "minutes" | "minute" | "mins" | "min" | "m" => some (.seconds 60)
  | "hours" | "hour" | "hrs" | "hr" | "h" => some (.seconds 3600)
  | "days" | "day" | "d" => some (.seconds 86400)
  | "weeks" | "week" | "wks" | "wk" | "w" => some (.seconds (7 * 86400))
  | "months" | "month" | "M" => some (.seconds 2630016)
  | "years" | "year" | "yrs" | "yr" | "y" => some (.seconds 31557600)
  | _ => none

/-- A product that fits. -/
def times? (n factor : Nat) : Option Nat :=
  if n * factor < limit then some (n * factor) else none

/-- A number of units, in nanoseconds. -/
def Unit.whole? (n : Nat) : Unit → Option Nat
  | .seconds count => (times? n count).map (· * second)
  | .nanos count => times? n count

/-- A quotient without a remainder. -/
def quotient? (n divisor : Nat) : Option Nat :=
  if n % divisor = 0 then some (n / divisor) else none

/--
A part of a unit, in nanoseconds. It has to come out even: in seconds for an hour and more, else in
nanoseconds. A nanosecond has no parts.
-/
def Unit.part? (numerator denominator : Nat) : Unit → Option Nat
  | .seconds count =>
    if count < 3600 then do quotient? (← times? numerator (count * second)) denominator
    else do return (← quotient? (← times? numerator count) denominator) * second
  | .nanos count =>
    if count = 1 then none else do quotient? (← times? numerator count) denominator

/-- One span more, if the seconds of the sum still fit. -/
def plus? (total span : Nat) : Option Nat :=
  if (total + span) / second < limit then some (total + span) else none

/-- A span in the unit more; what is below a second is added up as a number that has to fit, too. -/
def Unit.plus? (total span : Nat) : Unit → Option Nat
  | .seconds _ => Duration.plus? total span
  | .nanos _ => if total % second + span < limit then Duration.plus? total span else none

/-! ## Reading -/

/-- A number as far as it is read. -/
structure Amount where
  whole : Nat
  /-- The digits behind the point, as a number and the power of ten they are divided by. -/
  part : Option (Nat × Nat)

/-- Where in the text reading is. -/
inductive Place
  /-- Before the first number. -/
  | start
  /-- After a unit. -/
  | between
  | whole (n : Nat)
  | part (n numerator denominator : Nat)
  /-- Within a unit, whose letters are in reverse. -/
  | unit (amount : Amount) (letters : List Char)

/-- The span read so far and where reading is. -/
structure Scan where
  total : Nat
  place : Place

namespace Scan

def isLetter (c : Char) : Bool :=
  c.isAlpha || c = 'µ'

def digit (c : Char) : Nat :=
  c.toNat - '0'.toNat

/-- One digit more. -/
def push? (n : Nat) (c : Char) : Option Nat :=
  if n * 10 + digit c < limit then some (n * 10 + digit c) else none

/-- The end of a unit. -/
def endUnit (total : Nat) (amount : Amount) (letters : List Char) : Option Nat := do
  let unit ← Unit.ofName? letters.reverse
  let total ← unit.plus? total (← unit.whole? amount.whole)
  match amount.part with
  | some (numerator, denominator) => unit.plus? total (← unit.part? numerator denominator)
  | none => some total

/-- One character. -/
def step (s : Scan) (c : Char) : Option Scan :=
  match s.place with
  | .start | .between =>
    if c.isDigit then some ⟨s.total, .whole (digit c)⟩
    else if Text.isBlank c then some s
    else none
  | .whole n =>
    if c.isDigit then (push? n c).map fun n => ⟨s.total, .whole n⟩
    else if Text.isBlank c then some s
    else if isLetter c then some ⟨s.total, .unit ⟨n, none⟩ [c]⟩
    else if c = '.' then some ⟨s.total, .part n 0 1⟩
    else none
  | .part n numerator denominator =>
    if c.isDigit then do
      let numerator ← push? numerator c
      let denominator ← times? denominator 10
      some ⟨s.total, .part n numerator denominator⟩
    else if Text.isBlank c then some s
    else if isLetter c ∧ denominator ≠ 1 then
      some ⟨s.total, .unit ⟨n, some (numerator, denominator)⟩ [c]⟩
    else none
  | .unit amount letters =>
    if isLetter c then some ⟨s.total, .unit amount (c :: letters)⟩
    else if c.isDigit then
      (endUnit s.total amount letters).map fun total => ⟨total, .whole (digit c)⟩
    else if Text.isBlank c then
      (endUnit s.total amount letters).map fun total => ⟨total, .between⟩
    else none

/-- The end of the text. -/
def finish (s : Scan) : Option Nat :=
  match s.place with
  | .between => some s.total
  | .unit amount letters => endUnit s.total amount letters
  | _ => none

end Scan

/-- The duration that a text spells. -/
def ofText? (text : String) : Option Duration :=
  if text = "0" then some ⟨0⟩
  else ((text.toList.foldlM Scan.step ⟨0, .start⟩).bind Scan.finish).map fun n => ⟨n⟩

/-! ## Writing -/

/-- A count with its unit, left out when it is zero. -/
def counted (unit : String) (n : Nat) : List String :=
  if n = 0 then [] else [toString n ++ unit]

/-- A count with its unit in the plural. -/
def plural (unit : String) (n : Nat) : List String :=
  counted (if n = 1 then unit else unit ++ "s") n

/-- Numbers with units, the largest first. -/
def text (d : Duration) : String :=
  let seconds := d.nanos / second
  let nanos := d.nanos % second
  let inYear := seconds % 31557600
  let inMonth := inYear % 2630016
  let inDay := inMonth % 86400
  let parts :=
    plural "year" (seconds / 31557600) ++ plural "month" (inYear / 2630016) ++
      plural "day" (inMonth / 86400) ++ counted "h" (inDay / 3600) ++
      counted "m" (inDay % 3600 / 60) ++ counted "s" (inDay % 60) ++
      counted "ms" (nanos / 1000000) ++ counted "us" (nanos / 1000 % 1000) ++
      counted "ns" (nanos % 1000)
  if parts.isEmpty then "0s" else " ".intercalate parts

/-- A fraction of so many digits, without the zeros at its end. -/
def fraction (digits n : Nat) : String :=
  let shown := toString n
  let padded := List.replicate (digits - shown.length) '0' ++ shown.toList
  match (padded.reverse.dropWhile (· = '0')).reverse with
  | [] => ""
  | cs => String.ofList ('.' :: cs)

/-- One number with a unit. -/
def short (d : Duration) : String :=
  let inUnits (unit : String) (scale digits : Nat) : String :=
    toString (d.nanos / scale) ++ fraction digits (d.nanos % scale) ++ unit
  if second ≤ d.nanos then inUnits "s" second 9
  else if 1000000 ≤ d.nanos then inUnits "ms" 1000000 6
  else if 1000 ≤ d.nanos then inUnits "µs" 1000 3
  else inUnits "ns" 1 0

end Duration

end FleetMetrics
