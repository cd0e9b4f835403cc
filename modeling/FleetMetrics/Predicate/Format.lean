import FleetMetrics.Json.Writer
import FleetMetrics.Predicate

/-!
# The JSON form of predicates

An expression is an object with one member: a connective with an array of expressions, or a
comparison with an array of a field name and a literal. The empty object, and null, are the
trivial predicate. A literal that is not finite is written as null, which no expression may hold.
-/

namespace FleetMetrics

/-- Why a JSON value is no predicate. -/
inductive PredicateError (N : Type) where
  | notAnObject (got : Json N)
  | memberCount (count : Nat)
  | partsExpected (connective : Connective)
  | unknownOperator (name : String)
  | pairExpected (comparison : Comparison)
  | fieldNotText (comparison : Comparison)
  | badLiteral (comparison : Comparison) (got : Json N)

/-- The text of a predicate error. -/
def PredicateError.message : PredicateError Float → String
  | .notAnObject got => s!"predicate must be an object, got {got.write}"
  | .memberCount count => s!"predicate must have exactly one key, got {count}"
  | .partsExpected c => s!"'{c.name}' expects an array of predicates"
  | .unknownOperator name => s!"unknown predicate operator '{name}'"
  | .pairExpected c => s!"'{c.name}' expects [field, value]"
  | .fieldNotText c => s!"'{c.name}' field name must be a string"
  | .badLiteral c got => s!"'{c.name}' literal must be a number or string, got {got.write}"

namespace FieldValue

variable {N : Type} [Arithmetic N]

/-- A number or a text. -/
def ofJson? : Json N → Option (FieldValue N)
  | .int i => some (.number (Arithmetic.ofInt i))
  | .float x => some (.number x)
  | .string s => some (.text s)
  | _ => none

/-- A number, null if it is not finite, or a text. -/
def toJson : FieldValue N → Json N
  | .number x => if Arithmetic.isFinite x then .float x else .null
  | .text s => .string s

end FieldValue

namespace Expression

variable {N : Type} [Arithmetic N]

/-- The connective that a word names. -/
def connective? (name : String) : Option Connective :=
  [Connective.all, .any].find? (·.name = name)

/-- The comparison that a member spells. -/
def comparisonOfJson (c : Comparison) : Json N → Except (PredicateError N) (Expression N)
  | .array [field, literal] =>
    match field with
    | .string field =>
      match FieldValue.ofJson? literal with
      | some v => .ok (.compare c field v)
      | none => .error (.badLiteral c literal)
    | _ => .error (.fieldNotText c)
  | _ => .error (.pairExpected c)

mutual

/-- The expression that a JSON value spells. -/
def ofJson : Json N → Except (PredicateError N) (Expression N)
  | .object [(name, .array items)] =>
    match connective? name with
    | some c => (ofJsonAll items).map (.join c)
    | none =>
      match Comparison.ofName? name with
      | some c => comparisonOfJson c (.array items)
      | none => .error (.unknownOperator name)
  | .object [(name, _)] =>
    match connective? name with
    | some c => .error (.partsExpected c)
    | none =>
      match Comparison.ofName? name with
      | some c => .error (.pairExpected c)
      | none => .error (.unknownOperator name)
  | .object members => .error (.memberCount members.length)
  | other => .error (.notAnObject other)

/-- The expressions that some JSON values spell. -/
def ofJsonAll : List (Json N) → Except (PredicateError N) (List (Expression N))
  | [] => .ok []
  | j :: rest => do
    let e ← ofJson j
    let es ← ofJsonAll rest
    .ok (e :: es)

end

mutual

/-- The JSON form of an expression. -/
def toJson : Expression N → Json N
  | .join c parts => .object [(c.name, .array (toJsonAll parts))]
  | .compare c field literal => .object [(c.name, .array [.string field, literal.toJson])]

/-- The JSON forms of some expressions. -/
def toJsonAll : List (Expression N) → List (Json N)
  | [] => []
  | e :: rest => toJson e :: toJsonAll rest

end

end Expression

namespace Predicate

variable {N : Type} [Arithmetic N]

/-- The predicate that a JSON value spells. -/
def ofJson : Json N → Except (PredicateError N) (Predicate N)
  | .null | .object [] => .ok trivial
  | j => (Expression.ofJson j).map fun e => ⟨some e⟩

/-- The JSON form of a predicate. -/
def toJson (p : Predicate N) : Json N :=
  match p.expression with
  | some e => e.toJson
  | none => .object []

end Predicate

end FleetMetrics
