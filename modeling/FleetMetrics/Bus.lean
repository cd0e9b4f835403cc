import FleetMetrics.Routing
import FleetMetrics.Table

/-!
# The bus

Mailboxes are bound to routing keys. What is published under a key is put at the end of the queue
of every mailbox that is bound to it. A mailbox may have several handles; it is gone when the last
of them is dropped, and so is what it still holds. A mailbox that is gone stays bound until
something is published under the key.
-/

namespace FleetMetrics

/-- Which mailbox. There are as many as are asked for. -/
abbrev BoxId := Nat

/-- The queue of a mailbox, oldest first, and how many handles there are to it. -/
structure Mailbox (α : Type) where
  queue : List α
  handles : Nat

/-- Mailboxes and what they are bound to. -/
structure Bus (α : Type) where
  boxes : Table BoxId (Mailbox α)
  /-- The mailboxes bound to each key, in the order in which they were bound. -/
  routes : Table String (List BoxId)
  /-- How often something was published under a valid key. Both counts go on without bound, where a
  counter of 64 bits would start again from zero. -/
  published : Nat
  /-- How often that reached no mailbox. -/
  unrouted : Nat
  nextBox : BoxId

namespace Bus

variable {α : Type}

def empty : Bus α := ⟨[], [], 0, 0, 0⟩

/-- Does a mailbox still have a handle? -/
def isLive (b : Bus α) (box : BoxId) : Bool :=
  match b.boxes.find? box with
  | some m => decide (0 < m.handles)
  | none => false

/-- What a mailbox holds. -/
def queue (b : Bus α) (box : BoxId) : List α :=
  match b.boxes.find? box with
  | some m => m.queue
  | none => []

/-- Change a mailbox that exists. -/
def changeBox (b : Bus α) (box : BoxId) (f : Mailbox α → Mailbox α) : Bus α :=
  match b.boxes.find? box with
  | some m => { b with boxes := b.boxes.insert box (f m) }
  | none => b

/-- A new mailbox with one handle. -/
def newMailbox (b : Bus α) : BoxId × Bus α :=
  (b.nextBox, { b with boxes := b.boxes.insert b.nextBox ⟨[], 1⟩, nextBox := b.nextBox + 1 })

/-- One handle more. -/
def clone (b : Bus α) (box : BoxId) : Bus α :=
  b.changeBox box fun m => { m with handles := m.handles + 1 }

/-- One handle less; the last one takes the queue with it. -/
def drop (b : Bus α) (box : BoxId) : Bus α :=
  b.changeBox box fun m =>
    if m.handles ≤ 1 then ⟨[], 0⟩ else { m with handles := m.handles - 1 }

/-- The mailboxes bound to a key, those that are gone included. -/
def bound (b : Bus α) (key : String) : List BoxId :=
  (b.routes.find? key).getD []

/-- The number of mailboxes bound to a key. -/
def subscribers (b : Bus α) (key : String) : Nat :=
  (b.bound key).length

/-- Bind a mailbox to a key; a second time changes nothing. -/
def bind (b : Bus α) (key : String) (box : BoxId) : Bus α :=
  if box ∈ b.bound key then b
  else { b with routes := b.routes.insert key (b.bound key ++ [box]) }

/-- Undo the binding of a mailbox to a key. -/
def unbind (b : Bus α) (key : String) (box : BoxId) : Bus α :=
  match (b.bound key).filter (· ≠ box) with
  -- the last binding takes the entry of the key with it
  | [] => { b with routes := b.routes.erase key }
  | rest => { b with routes := b.routes.insert key rest }

/-- Put something at the end of a queue. -/
def push (a : α) (b : Bus α) (box : BoxId) : Bus α :=
  b.changeBox box fun m => { m with queue := m.queue ++ [a] }

/-- Publish under a valid key: the live mailboxes bound to it get it, and those that are gone are
unbound. -/
def deliver (b : Bus α) (key : String) (a : α) : Nat × Bus α :=
  let live := (b.bound key).filter b.isLive
  -- a key keeps its entry when nobody is left, as long as it had one
  let routes := if (b.bound key).isEmpty then b.routes else b.routes.insert key live
  let delivered := live.foldl (push a) { b with routes := routes }
  (live.length,
    { delivered with
      published := b.published + 1
      unrouted := b.unrouted + (if live.isEmpty then 1 else 0) })

/-- Publish under a key: how many mailboxes are reached, or why nothing happens. -/
def publish (b : Bus α) (key : String) (a : α) : Except TransportError Nat × Bus α :=
  if Routing.isValid key then
    let (reached, after) := b.deliver key a
    (.ok reached, after)
  else (.error (.invalidKey key), b)

/-- Take everything out of a mailbox. -/
def drain (b : Bus α) (box : BoxId) : List α × Bus α :=
  (b.queue box, b.changeBox box fun m => { m with queue := [] })

/-- Take the oldest thing out of a mailbox. -/
def receive? (b : Bus α) (box : BoxId) : Option (α × Bus α) :=
  match b.queue box with
  | [] => none
  | a :: rest => some (a, b.changeBox box fun m => { m with queue := rest })

end Bus

end FleetMetrics
