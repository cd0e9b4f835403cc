import FleetMetrics.Config.Setting

/-!
# TOML documents

A document is a sequence of statements: a header opens a table, a doubled header a new table of a
list, and an entry gives a value under a key whose parts may name further tables. `Document.extend?`
is one statement. A table is defined once: by its header, by the entries that reach it through
dots, or in one value; tables on the way to a header are only implied and can get a header of
their own later.
-/

namespace FleetMetrics.Toml

/-- How a table came about. -/
inductive Origin
  /-- On the way to the header of another table. -/
  | implied
  /-- By a header of its own. -/
  | header
  /-- On the way to an entry. -/
  | dotted
  deriving DecidableEq

/-- What stands under a name while a document is read. -/
inductive Node where
  /-- A value, which nothing is added to. -/
  | closed (value : Setting)
  | table (origin : Origin) (entries : List (String × Node))
  /-- The tables of a list, the last one first. -/
  | tables (elements : List (List (String × Node)))

/-- Names with what stands under them. -/
abbrev Nodes := List (String × Node)

/-- One statement. -/
inductive Statement
  | header (path : List String)
  | element (path : List String)
  | entry (path : List String) (value : Setting)

namespace Nodes

/-- Put a node in the place of the one with its name, or at the end. -/
def put (name : String) (node : Node) : Nodes → Nodes
  | [] => [(name, node)]
  | (n, old) :: rest => if n = name then (n, node) :: rest else (n, old) :: put name node rest

/-- Go down a path and change the table at its end. Missing tables on the way are made. An entry
cannot go through a table with a header of its own, and nothing goes through a value. -/
def at? (byEntry : Bool) (change : Origin → Nodes → Option Nodes) :
    List String → Origin → Nodes → Option Nodes
  | [], origin, nodes => change origin nodes
  | name :: path, _, nodes =>
    match nodes.lookup name with
    | none =>
      let origin := if byEntry then Origin.dotted else Origin.implied
      (at? byEntry change path origin []).map fun inner => put name (.table origin inner) nodes
    | some (.table origin inner) =>
      -- a table with a header of its own takes entries only below that header
      if byEntry ∧ origin = .header then none
      else
        (at? byEntry change path origin inner).map fun inner =>
          put name (.table origin inner) nodes
    -- the name of a list stands for its latest table
    | some (.tables (last :: before)) =>
      (at? byEntry change path .header last).map fun last =>
        put name (.tables (last :: before)) nodes
    | some _ => none

/-- Open the table of a header. -/
def openTable (name : String) (_ : Origin) (nodes : Nodes) : Option Nodes :=
  match nodes.lookup name with
  | none => some (put name (.table .header []) nodes)
  | some (.table .implied inner) => some (put name (.table .header inner) nodes)
  | some _ => none

/-- Open a new table of a list. -/
def openElement (name : String) (_ : Origin) (nodes : Nodes) : Option Nodes :=
  match nodes.lookup name with
  | none => some (put name (.tables [[]]) nodes)
  | some (.tables elements) => some (put name (.tables ([] :: elements)) nodes)
  | some _ => none

/-- Add an entry. Tables reached through dots, and no others, take entries from further up. -/
def addEntry (viaDots : Bool) (name : String) (value : Setting) (origin : Origin) (nodes : Nodes) :
    Option Nodes :=
  if decide (origin = .dotted) ≠ viaDots then none
  else if (nodes.lookup name).isSome then none
  else some (put name (.closed value) nodes)

/-- Add an entry to the table of a header. -/
def enter? (header path : List String) (value : Setting) (nodes : Nodes) : Option Nodes :=
  match path.getLast? with
  | none => none
  | some name =>
    let front := path.dropLast
    at? false (at? true (addEntry (!front.isEmpty) name value) front) header .header nodes

end Nodes

mutual

/-- The setting that a node stands for. -/
def Node.toSetting : Node → Setting
  | .closed value => value
  | .table _ entries => .table (Nodes.toEntries entries)
  | .tables elements => .list (Nodes.toTables elements).reverse

/-- The settings that named nodes stand for. -/
def Nodes.toEntries : Nodes → List (String × Setting)
  | [] => []
  | (name, node) :: rest => (name, node.toSetting) :: Nodes.toEntries rest

/-- The tables of a list. -/
def Nodes.toTables : List Nodes → List Setting
  | [] => []
  | nodes :: rest => .table (Nodes.toEntries nodes) :: Nodes.toTables rest

end

/-- The statements read so far. -/
structure Document where
  nodes : Nodes
  /-- The table that entries belong to. -/
  header : List String

namespace Document

def empty : Document := ⟨[], []⟩

/-- One statement. -/
def extend? (d : Document) : Statement → Option Document
  | .header path => do
    let name ← path.getLast?
    let nodes ← Nodes.at? false (Nodes.openTable name) path.dropLast .header d.nodes
    some ⟨nodes, path⟩
  | .element path => do
    let name ← path.getLast?
    let nodes ← Nodes.at? false (Nodes.openElement name) path.dropLast .header d.nodes
    some ⟨nodes, path⟩
  | .entry path value => do
    let nodes ← Nodes.enter? d.header path value d.nodes
    some { d with nodes := nodes }

/-- The table that some statements describe. -/
def ofStatements? (statements : List Statement) : Option Setting :=
  (statements.foldlM extend? empty).map fun d => .table (Nodes.toEntries d.nodes)

end Document

end FleetMetrics.Toml
