import FleetMetrics.Json
import FleetMetrics.Decimal.Notation

/-!
# Writing JSON

One line without blanks, members in the order of the tree. A number with no finite value is
written as null.
-/

namespace FleetMetrics.Json

/-- Numbers have the fewest digits that read back and always a point or an exponent; the point
stands alone for decimal exponents from -5 to 15. -/
def numbers : Decimal.Notation where
  positional := some (-5, 15)
  wholeMark := ".0"
  tie := .toEven
  notANumber := "null"
  infinite := "null"

/-- The text of a number. -/
def writeFloat (x : Float) : String :=
  if x.isFinite then numbers.write x else "null"

/-- The lower-case hexadecimal digit of a number below sixteen. -/
def hexChar (n : Nat) : Char :=
  if n < 10 then Char.ofNat ('0'.toNat + n) else Char.ofNat ('a'.toNat + n - 10)

/-- How a character stands between quotes. -/
def escapeChar (c : Char) : List Char :=
  if c = '"' then ['\\', '"']
  else if c = '\\' then ['\\', '\\']
  else if c = '\x08' then ['\\', 'b']
  else if c = '\x0c' then ['\\', 'f']
  else if c = '\n' then ['\\', 'n']
  else if c = '\r' then ['\\', 'r']
  else if c = '\t' then ['\\', 't']
  else if c.toNat < 0x20 then
    ['\\', 'u', '0', '0', hexChar (c.toNat / 16), hexChar (c.toNat % 16)]
  else [c]

/-- A quoted text. -/
def writeString (s : String) : String :=
  String.ofList ('"' :: s.toList.flatMap escapeChar ++ ['"'])

mutual

/-- The text of a tree. -/
def write : Json Float → String
  | .null => "null"
  | .bool b => if b then "true" else "false"
  | .int i => toString i
  | .float x => writeFloat x
  | .string s => writeString s
  | .array items => "[" ++ ",".intercalate (writeItems items) ++ "]"
  | .object members => "\x7b" ++ ",".intercalate (writeMembers members) ++ "\x7d"

/-- The texts of the items of an array. -/
def writeItems : List (Json Float) → List String
  | [] => []
  | j :: rest => write j :: writeItems rest

/-- The texts of the members of an object. -/
def writeMembers : List (String × Json Float) → List String
  | [] => []
  | (name, j) :: rest => (writeString name ++ ":" ++ write j) :: writeMembers rest

end

end FleetMetrics.Json
