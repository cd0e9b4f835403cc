import FleetMetrics.Aggregator
import FleetMetrics.Bus

/-!
# Postings

What an agent sends goes out through the bus in an envelope with the agent's key and host. A
posting records one such publication and how many mailboxes it reached; a key that the bus refuses
costs that message and no other.
-/

namespace FleetMetrics

variable {N : Type}

/-- A publication. -/
structure Posting (N : Type) where
  key : String
  envelope : Envelope N
  reached : Except TransportError Nat

namespace Bus

/-- Publish one message. -/
def postOne (b : Bus (Envelope N)) (key : String) (e : Envelope N) :
    Posting N × Bus (Envelope N) :=
  let (reached, after) := b.publish key e
  (⟨key, e, reached⟩, after)

/-- Publish messages in order, each in the envelope of its sender. -/
def post (b : Bus (Envelope N)) (envelope : Message N → Envelope N) :
    List (String × Message N) → List (Posting N) × Bus (Envelope N)
  | [] => ([], b)
  | (key, m) :: rest =>
    let (posting, next) := b.postOne key (envelope m)
    let (postings, last) := post next envelope rest
    (posting :: postings, last)

/-- Carry out what an agent does besides changing its state. -/
def perform (b : Bus (Envelope N)) (box : BoxId) (envelope : Message N → Envelope N) :
    List (Effect N) → List (Posting N) × Bus (Envelope N)
  | [] => ([], b)
  | .bind key :: rest => perform (b.bind key box) box envelope rest
  | .unbind key :: rest => perform (b.unbind key box) box envelope rest
  | .send key m :: rest =>
    let (posting, next) := b.postOne key (envelope m)
    let (postings, last) := perform next box envelope rest
    (posting :: postings, last)

/-- A new mailbox bound to some keys. -/
def openMailbox (b : Bus (Envelope N)) (keys : List String) : BoxId × Bus (Envelope N) :=
  let (box, after) := b.newMailbox
  (box, keys.foldl (fun b key => b.bind key box) after)

/-- Undo the binding of a mailbox to some keys. -/
def unbindAll (b : Bus (Envelope N)) (box : BoxId) (keys : List String) : Bus (Envelope N) :=
  keys.foldl (fun b key => b.unbind key box) b

end Bus

end FleetMetrics
