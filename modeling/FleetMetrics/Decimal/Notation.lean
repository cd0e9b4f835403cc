import FleetMetrics.Decimal.Shortest
import FleetMetrics.Width

/-!
# How a decimal is laid out

Once the digits of a number are chosen, a format still decides where the point goes, when an
exponent is written, what marks a whole number and how the numbers that have no digits are
spelled. `Notation` holds these decisions; `Notation.write` carries them out.
-/

namespace FleetMetrics.Decimal

/-- The decisions of one number format. -/
structure Notation where
  /-- The decimal exponents written with a point alone; all of them when absent. -/
  positional : Option (Int × Int)
  /-- What a whole number in positional notation ends in. -/
  wholeMark : String
  tie : Tie
  notANumber : String
  infinite : String

/-- Place the point among the digits: `exponent` is the power of ten of the first digit. -/
def positionalText (digits : String) (exponent : Int) (wholeMark : String) : String :=
  let count := digits.length
  if exponent < 0 then
    "0." ++ String.ofList (List.replicate (-exponent - 1).toNat '0') ++ digits
  else if (count : Int) ≤ exponent + 1 then
    digits ++ String.ofList (List.replicate (exponent + 1 - count).toNat '0') ++ wholeMark
  else
    let whole := digits.toList.take (exponent + 1).toNat
    let rest := digits.toList.drop (exponent + 1).toNat
    String.ofList whole ++ "." ++ String.ofList rest

/-- One digit, the others behind a point, and the exponent with its sign. -/
def scientificText (digits : String) (exponent : Int) : String :=
  let mantissa :=
    match digits.toList with
    | [] => ""
    | [d] => String.ofList [d]
    | d :: rest => String.ofList (d :: '.' :: rest)
  mantissa ++ "e" ++ (if exponent < 0 then "-" else "+") ++ toString exponent.natAbs

/-- The text of a non-zero magnitude. -/
def Notation.writeDigits (n : Notation) (d : Digits) : String :=
  let d := d.strip (toString d.digits).length
  let digits := toString d.digits
  let exponent := d.exponent + digits.length - 1
  match n.positional with
  | none => positionalText digits exponent n.wholeMark
  | some (low, high) =>
    if low ≤ exponent ∧ exponent ≤ high then positionalText digits exponent n.wholeMark
    else scientificText digits exponent

/-- The text of a number. -/
def Notation.write (n : Notation) (x : Float) : String :=
  let sign := if x.toBits.toNat < Width.capacity 63 then "" else "-"
  if x.isNaN then n.notANumber
  else if x.isInf then sign ++ n.infinite
  else if x == 0 then sign ++ "0" ++ n.wholeMark
  else sign ++ n.writeDigits ((Binary.ofFloat x).shortest n.tie)

end FleetMetrics.Decimal
