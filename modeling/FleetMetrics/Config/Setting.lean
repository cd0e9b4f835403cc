import FleetMetrics.Width

/-!
# Settings

A setting is what a configuration text stands for: a value, a list of settings or a table of named
settings. A later source is laid over an earlier one with `Setting.overlay`: tables are joined
name by name, anything else is replaced as a whole.
-/

namespace FleetMetrics

/-- A setting. What a number with a fraction and a date or time stand for is not kept, since
nothing is set to one. -/
inductive Setting where
  | text (value : String)
  | whole (value : Int)
  | fraction
  | flag (value : Bool)
  | moment
  | list (items : List Setting)
  | table (entries : List (String × Setting))

namespace Setting

/-- Names with settings, one of each name. -/
abbrev Entries := List (String × Setting)

/-- Put an entry in the place of the one with its name, or at the end. -/
def put (name : String) (s : Setting) : Entries → Entries
  | [] => [(name, s)]
  | (n, old) :: rest => if n = name then (n, s) :: rest else (n, old) :: put name s rest

mutual

/-- One setting laid over another. -/
def overlay (under : Setting) : Setting → Setting
  | .table entries =>
    match under with
    | .table below => .table (overlayAll below entries)
    | _ => .table entries
  | other => other

/-- Entries laid over others. -/
def overlayAll (below : Entries) : Entries → Entries
  | [] => below
  | (name, s) :: rest =>
    let joined :=
      match below.lookup name with
      | some old => overlay old s
      | none => s
    overlayAll (put name joined below) rest

end

/-- A setting within tables. -/
def within (path : List String) (s : Setting) : Setting :=
  path.foldr (fun name inner => .table [(name, inner)]) s

/-! ## Values with a source

In a file a table may stand for another setting, which it holds beside the number of its source.
-/

/-- The name under which a table holds the setting that it stands for. -/
def heldName : String := "___figment_value_value"

/-- The name under which a table holds the number of the source. -/
def sourceName : String := "___figment_value_id"

/-- A count, which fits into 64 bits. -/
def count? : Setting → Option Nat
  | .whole n => if 0 ≤ n ∧ n < Width.capacity 64 then some n.toNat else none
  | _ => none

mutual

/-- A setting in which what tables hold has taken their place. -/
def settle? : Setting → Option Setting
  | .list items => (settleItems? items).map .list
  | .table entries =>
    (settleEntries? entries).map fun entries => (entries.lookup heldName).getD (.table entries)
  | other => some other

/-- The items of a list, settled. -/
def settleItems? : List Setting → Option (List Setting)
  | [] => some []
  | s :: rest => do some ((← settle? s) :: (← settleItems? rest))

/-- The entries of a table, settled. The number of the source is checked and left out. -/
def settleEntries? : Entries → Option Entries
  | [] => some []
  | (name, s) :: rest =>
    if name = sourceName then (count? s).bind fun _ => settleEntries? rest
    else do some ((name, ← settle? s) :: (← settleEntries? rest))

end

/-- The settings of a file, settled; the file as a whole stands for nothing else. -/
def settleFile? : Setting → Option Setting
  | .table entries =>
    (entries.mapM fun entry => (settle? entry.2).map (entry.1, ·)).map .table
  | other => some other

/-! ## Taking settings apart -/

def text? : Setting → Option String
  | .text s => some s
  | _ => none

def flag? : Setting → Option Bool
  | .flag b => some b
  | _ => none

/-- The settings of the named fields, in the order of the names. A list gives the fields in that
order; a date or time gives none of them; other names are ignored. -/
def fields? (names : List String) : Setting → Option (List (Option Setting))
  | .table entries => some (names.map fun name => entries.lookup name)
  | .list items => some (names.zipIdx.map fun name => items[name.2]?)
  | .moment => some (names.map fun _ => none)
  | _ => none

/-- Read a field that has a default. -/
def orDefault {α : Type} (read : Setting → Option α) (absent : α) : Option Setting → Option α
  | some s => read s
  | none => some absent

end Setting

end FleetMetrics
