import FleetMetrics.Table
import FleetMetrics.Width

/-!
# JSON trees

What a JSON text stands for. Whole numbers of at most 64 bits are kept apart from the others, and
an object lists its members in the order in which they were written.

The second half takes trees apart. A record may be written as an object, or as an array of its
fields in their fixed order, where fields that may be absent can be left out at the end; members
that are no field are ignored, and a field given twice is refused.
-/

namespace FleetMetrics

/-- A JSON value with numbers of type `N`. -/
inductive Json (N : Type) where
  | null
  | bool (value : Bool)
  | int (value : Int)
  | float (value : N)
  | string (value : String)
  | array (items : List (Json N))
  | object (members : List (String × Json N))

namespace Json

variable {N : Type}

/-- The value of a member; of several with one name, the first. -/
def member? (j : Json N) (name : String) : Option (Json N) :=
  match j with
  | .object members => members.lookup name
  | _ => none

def string? : Json N → Option String
  | .string s => some s
  | _ => none

def bool? : Json N → Option Bool
  | .bool b => some b
  | _ => none

def array? : Json N → Option (List (Json N))
  | .array items => some items
  | _ => none

/-- A whole number from `low` up to, but not including, `high`. -/
def intWithin? (low high : Int) : Json N → Option Int
  | .int i => if low ≤ i ∧ i < high then some i else none
  | _ => none

/-- A whole number of so many bits. -/
def nat? (bits : Nat) (j : Json N) : Option Nat :=
  (j.intWithin? 0 (Width.capacity bits)).map Int.toNat

/-- An array of texts. -/
def strings? (j : Json N) : Option (List String) :=
  j.array? >>= List.mapM string?

/-! ## Records -/

/-- The values of the named fields of a record, in the order of the names; `none` for a field
that is absent. -/
def fields? (names : List String) : Json N → Option (List (Option (Json N)))
  | .object members =>
    names.mapM fun name =>
      match members.filter (·.1 == name) with
      | [] => some none
      | [m] => some (some m.2)
      | _ => none
  | .array items =>
    if items.length ≤ names.length then
      some (items.map some ++ List.replicate (names.length - items.length) none)
    else none
  | _ => none

/-- Read a field that has to be there. -/
def required {α : Type} (read : Json N → Option α) : Option (Json N) → Option α
  | some j => read j
  | none => none

/-- Read a field that may be absent. -/
def optional {α : Type} (read : Json N → Option α) (absent : α) : Option (Json N) → Option α
  | some j => read j
  | none => some absent

/-- Read a field that may be absent or null. -/
def nullable {α : Type} (read : Json N → Option α) : Option (Json N) → Option (Option α)
  | some .null => some none
  | some j => (read j).map some
  | none => some none

/-- Read the members of an object into a table; of members with one name the last one counts. -/
def table? {α : Type} (read : Json N → Option α) : Json N → Option (Table String α)
  | .object members =>
    (members.mapM fun m => (read m.2).map fun v => (m.1, v)).map Table.ofList
  | _ => none

/-- One name out of a fixed choice: the name itself, or an object with that one member, which
holds nothing. -/
def choice? {α : Type} (options : List (String × α)) : Json N → Option α
  | .string s => options.lookup s
  | .object [(name, .null)] => options.lookup name
  | _ => none

/-- A record whose member `tag` tells its kind, split into the kind and the rest. As an array,
the kind comes first. -/
def tagged? (tag : String) : Json N → Option (String × Json N)
  | .object members =>
    match members.filter (·.1 == tag) with
    | [(_, .string kind)] => some (kind, .object (members.filter (·.1 != tag)))
    | _ => none
  | .array (.string kind :: rest) => some (kind, .array rest)
  | _ => none

end Json

end FleetMetrics
