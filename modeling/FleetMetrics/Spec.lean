import FleetMetrics.Message.Wire

/-!
# Instrumentation specs

What a request for an instrumentation asks for: a statistic, which data points count, and along
which fields they are broken down.
-/

namespace FleetMetrics

/-- A request for an instrumentation. -/
structure Spec where
  module : String
  stat : String
  predicate : Predicate Float
  decomposition : List String
  /-- Carried along; every instrumenter is addressed whatever it says. -/
  nodes : List String

namespace Spec

/-- The spec that a record spells. -/
def ofJson? (j : Json Float) : Option Spec :=
  match j.fields? ["module", "stat", "predicate", "decomposition", "nodes"] with
  | some [module, stat, predicate, decomposition, nodes] => do
    let module ← Json.required Json.string? module
    let stat ← Json.required Json.string? stat
    let predicate ← Json.optional Predicate.ofJson? .trivial predicate
    let decomposition ← Json.optional Json.strings? [] decomposition
    let nodes ← Json.optional Json.strings? [] nodes
    some ⟨module, stat, predicate, decomposition, nodes⟩
  | _ => none

/-- The members of the JSON form. -/
def members (s : Spec) : List (String × Json Float) :=
  [("module", .string s.module), ("stat", .string s.stat), ("predicate", s.predicate.toJson),
    ("decomposition", .array (s.decomposition.map .string)),
    ("nodes", .array (s.nodes.map .string))]

def toJson (s : Spec) : Json Float :=
  .object s.members

end Spec

end FleetMetrics
