import FleetMetrics.Width

/-!
# Timestamps

Wall-clock times are whole nanoseconds since the first instant of 1970, negative before it. The
text of a timestamp is the date and time of day in universal time with milliseconds, where the
part below a millisecond is cut off, also before 1970.
-/

namespace FleetMetrics

/-- Nanoseconds since the start of 1970. -/
structure Timestamp where
  nanos : Int
  deriving DecidableEq, BEq, Repr

namespace Timestamp

/-- Nanoseconds in a second. -/
def second : Int := 1000000000

/-- The least time that a message can carry. -/
def lowest : Int := -Width.capacity 63

/-- The first time too late for a message to carry. -/
def beyond : Int := Width.capacity 63

/-- A number of nanoseconds, wrapped around to 64 bits. -/
def wrapped (nanos : Int) : Timestamp := ⟨nanos.bmod (Width.capacity 64)⟩

def ofSeconds (s : Int) : Timestamp := wrapped (s * second)

/-- The time of a clock that shows `s` seconds and `n` nanoseconds after the start of 1970, or
before it when the seconds are negative. Clocks set before 1970 count as its start. -/
def ofClock (s : Int) (n : Nat) : Timestamp :=
  if s < 0 then ⟨0⟩ else wrapped (s * second + n)

/-- Whole seconds, cut off toward the start of 1970. -/
def seconds (t : Timestamp) : Int :=
  t.nanos.tdiv second

/-- Nanoseconds from `earlier` to `t`, none if `earlier` is later, and never more than the
longest time that a message can carry. -/
def since (t earlier : Timestamp) : Nat :=
  (min (t.nanos - earlier.nanos) (beyond - 1)).toNat

/-- Year, month and day of a count of days since the start of 1970, by eras of 400 years that
begin in March. -/
def civilDate (days : Int) : Int × Int × Int :=
  -- days since the first of March of the year 0
  let z := days + 719468
  let era := z.fdiv 146097
  let dayOfEra := z.fmod 146097
  let yearOfEra := (dayOfEra - dayOfEra / 1460 + dayOfEra / 36524 - dayOfEra / 146096) / 365
  let dayOfYear := dayOfEra - (365 * yearOfEra + yearOfEra / 4 - yearOfEra / 100)
  let shifted := (5 * dayOfYear + 2) / 153
  let day := dayOfYear - (153 * shifted + 2) / 5 + 1
  let month := if shifted < 10 then shifted + 3 else shifted - 9
  let year := yearOfEra + era * 400 + (if month ≤ 2 then 1 else 0)
  (year, month, day)

/-- A number with zeros in front up to a width. -/
def padded (width : Nat) (n : Int) : String :=
  let digits := toString n.natAbs
  String.ofList (List.replicate (width - digits.length) '0') ++ digits

/-- The date and time of day. -/
def text (t : Timestamp) : String :=
  let seconds := t.nanos.fdiv second
  let (year, month, day) := civilDate (seconds.fdiv 86400)
  let time := seconds.fmod 86400
  let millis := t.nanos.fmod second / 1000000
  padded 4 year ++ "-" ++ padded 2 month ++ "-" ++ padded 2 day ++ "T" ++ padded 2 (time / 3600) ++
    ":" ++ padded 2 (time / 60 % 60) ++ ":" ++ padded 2 (time % 60) ++ "." ++ padded 3 millis ++ "Z"

end Timestamp

end FleetMetrics
