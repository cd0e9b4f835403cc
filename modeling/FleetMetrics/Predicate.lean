import FleetMetrics.Error
import FleetMetrics.Field

/-!
# Predicates

A predicate keeps some data points and drops the others. It compares fields with literals and
joins comparisons; a comparison with a field that a point lacks is false. The trivial predicate
keeps every point.
-/

namespace FleetMetrics

/-- The comparisons a predicate can make. -/
inductive Comparison
  | eq
  | ne
  | lt
  | le
  | gt
  | ge
  deriving DecidableEq, BEq, Repr

namespace Comparison

/-- The word a comparison is written with. -/
def name : Comparison → String
  | .eq => "eq"
  | .ne => "ne"
  | .lt => "lt"
  | .le => "le"
  | .gt => "gt"
  | .ge => "ge"

/-- The comparison that a word names. -/
def ofName? (s : String) : Option Comparison :=
  [eq, ne, lt, le, gt, ge].find? (·.name = s)

/-- Is a comparison satisfied by two values in this order? -/
def accepts (c : Comparison) (o : Ordering) : Bool :=
  match c with
  | .eq => o = .eq
  | .ne => o ≠ .eq
  | .lt => o = .lt
  | .le => o ≠ .gt
  | .gt => o = .gt
  | .ge => o ≠ .lt

variable {N : Type} [Arithmetic N]

/-- The order of two field values: numbers by size, texts by code points. A number and a text
have none. -/
def order? : FieldValue N → FieldValue N → Option Ordering
  | .number a, .number b => Arithmetic.compare? a b
  | .text a, .text b => some (compare a b)
  | _, _ => none

/-- Apply a comparison. Values without an order differ and satisfy nothing else. -/
def apply (c : Comparison) (left right : FieldValue N) : Bool :=
  match order? left right with
  | some o => c.accepts o
  | none => c = .ne

end Comparison

/-- Comparisons and their combinations. -/
inductive Expression (N : Type) where
  | join (connective : Connective) (parts : List (Expression N))
  | compare (comparison : Comparison) (field : String) (literal : FieldValue N)

namespace Expression

variable {N : Type}

mutual

/-- Are two expressions written alike, with literals that are the same numbers and texts? -/
def same [BEq N] : Expression N → Expression N → Bool
  | .join c parts, .join c' parts' => c == c' && sameAll parts parts'
  | .compare c field literal, .compare c' field' literal' =>
    c == c' && field == field' && literal == literal'
  | _, _ => false

/-- Are two lists of expressions the same, one by one? -/
def sameAll [BEq N] : List (Expression N) → List (Expression N) → Bool
  | [], [] => true
  | e :: rest, e' :: rest' => same e e' && sameAll rest rest'
  | _, _ => false

end

instance [BEq N] : BEq (Expression N) := ⟨same⟩

mutual

/-- Does a data point satisfy the expression? -/
def eval [Arithmetic N] (point : FieldMap N) : Expression N → Bool
  | .join .all parts => evalAll point parts
  | .join .any parts => evalAny point parts
  | .compare c field literal =>
    match point.find? field with
    | some actual => c.apply actual literal
    | none => false

/-- Does a data point satisfy every one of some expressions? -/
def evalAll [Arithmetic N] (point : FieldMap N) : List (Expression N) → Bool
  | [] => true
  | e :: rest => eval point e && evalAll point rest

/-- Does a data point satisfy one of some expressions? -/
def evalAny [Arithmetic N] (point : FieldMap N) : List (Expression N) → Bool
  | [] => false
  | e :: rest => eval point e || evalAny point rest

end

mutual

/-- The fields that the expression compares, in the order written, with repetitions. -/
def mentions : Expression N → List String
  | .join _ parts => mentionsAll parts
  | .compare _ field _ => [field]

/-- The fields that some expressions compare. -/
def mentionsAll : List (Expression N) → List String
  | [] => []
  | e :: rest => mentions e ++ mentionsAll rest

end

mutual

/-- The first combination without parts, outermost first and then from the left. -/
def emptyJoin? : Expression N → Option Connective
  | .join c [] => some c
  | .join _ (e :: rest) => (emptyJoin? e).or (firstEmptyJoin? rest)
  | .compare .. => none

/-- The first combination without parts in some expressions. -/
def firstEmptyJoin? : List (Expression N) → Option Connective
  | [] => none
  | e :: rest => (emptyJoin? e).or (firstEmptyJoin? rest)

end

end Expression

/-- A filter on data points; without an expression it is trivial. -/
structure Predicate (N : Type) where
  expression : Option (Expression N)
  deriving BEq

namespace Predicate

variable {N : Type}

/-- The predicate that keeps every point. -/
def trivial : Predicate N := ⟨none⟩

instance : Inhabited (Predicate N) := ⟨trivial⟩

def isTrivial (p : Predicate N) : Bool :=
  p.expression.isNone

/-- Does the predicate keep a data point? -/
def eval [Arithmetic N] (p : Predicate N) (point : FieldMap N) : Bool :=
  match p.expression with
  | some e => e.eval point
  | none => true

/-- The fields that the predicate compares, ascending, each once. -/
def fields (p : Predicate N) : List String :=
  match p.expression with
  | some e => Table.keys (Table.ofList (e.mentions.map fun f => (f, ())))
  | none => []

/-- What is wrong with a predicate for a metric with certain fields: a combination without parts,
or else the first field, by name, that the metric lacks. -/
def fault? (p : Predicate N) (module stat : String) (arityOf : String → Option FieldArity) :
    Option MetricError :=
  ((p.expression.bind Expression.emptyJoin?).map .emptyCombinator).or
    ((p.fields.find? fun f => (arityOf f).isNone).map fun f => .unknownField f module stat)

end Predicate

end FleetMetrics
