import FleetMetrics.Json.Writer
import FleetMetrics.Json.Token

/-!
# Message numbers

Every message on the wire carries a number of 128 bits. It is written as 32 hexadecimal digits in
groups of 8, 4, 4, 4 and 12 with hyphens between them. On reading the digits may be of either
case, may stand without hyphens, and a text with hyphens may be put between braces or behind
`urn:uuid:`, in letters of either case.
-/

namespace FleetMetrics

/-- A number of 128 bits. -/
abbrev Uuid := BitVec 128

namespace Uuid

/-- The groups of digits, by length. -/
def groups : List Nat := [8, 4, 4, 4, 12]

/-- The number that some hexadecimal digits spell. -/
def ofHex? (cs : List Char) : Option Nat :=
  cs.foldlM (fun n c => (Json.hexDigit? c).map fun d => n * 16 + d) 0

/-- Cut the hyphens out from between groups of digits of given lengths. -/
def withoutHyphens? : List Nat → List Char → Option (List Char)
  | [], [] => some []
  | [last], cs => if cs.length = last then some cs else none
  | n :: rest, cs =>
    match cs.drop n with
    | '-' :: more => (withoutHyphens? rest more).map (cs.take n ++ ·)
    | _ => none
  | [], _ => none

/-- Take off what may enclose a text with hyphens. -/
def unwrapped (cs : List Char) : List Char :=
  let urn := "urn:uuid:".toList
  if cs.length = urn.length + 36 ∧ (cs.take urn.length).map Char.toLower = urn then
    cs.drop urn.length
  else if cs.length = 38 ∧ cs.head? = some '\x7b' ∧ cs.getLast? = some '\x7d' then
    (cs.drop 1).take 36
  else cs

/-- The number that a text stands for. -/
def ofText? (s : String) : Option Uuid :=
  let cs := s.toList
  let digits := if cs.length = 32 then some cs else withoutHyphens? groups (unwrapped cs)
  (digits.bind ofHex?).map (BitVec.ofNat 128)

/-- The last `count` hexadecimal digits of a number. -/
def hexDigits (n : Nat) : Nat → List Char
  | 0 => []
  | count + 1 => hexDigits (n / 16) count ++ [Json.hexChar (n % 16)]

/-- Put hyphens between groups of digits of given lengths. -/
def withHyphens : List Nat → List Char → List Char
  | [], cs => cs
  | [_], cs => cs
  | n :: rest, cs => cs.take n ++ '-' :: withHyphens rest (cs.drop n)

/-- The text of a number. -/
def text (u : Uuid) : String :=
  String.ofList (withHyphens groups (hexDigits u.toNat 32))

end Uuid

end FleetMetrics
