import FleetMetrics.Coordinator
import FleetMetrics.Instrumenter
import FleetMetrics.Posting

/-!
# Fleets

A fleet is a coordinator and its agents on one bus. Every party has a mailbox; what it sends goes
through the bus, and nothing happens but by the steps of this module:

* a request to the coordinator, or the end of the time for its creations,
* an agent that comes online, is replaced or goes away,
* a report of an instrumenter,
* the delivery of the oldest envelope of one mailbox.

Each step makes of a fleet a `Progress`: the fleet afterwards, what was published and which
requests were answered. `settle` delivers until every mailbox is empty: each command is answered
by an acknowledgement, and the last acknowledgement of a creation by commands to stop at most, so
it ends after a few rounds.
-/

namespace FleetMetrics

/-! ## Crews -/

/-- An agent at its mailbox. -/
structure Station (A : Type) where
  hostname : String
  agent : A
  box : BoxId

/-- The same station with its agent changed. -/
def Station.change {A : Type} (g : A → A) (s : Station A) : Station A :=
  { s with agent := g s.agent }

/-- Agents of one kind, one a host, in the order in which the hosts first appeared. -/
structure Crew (A : Type) where
  stations : List (Station A)
  distinct : (stations.map (·.hostname)).Nodup

namespace Crew

variable {A : Type}

def empty : Crew A := ⟨[], List.nodup_nil⟩

def find? (c : Crew A) (hostname : String) : Option (Station A) :=
  Roster.find? (·.hostname) hostname c.stations

def hostnames (c : Crew A) : List String :=
  c.stations.map (·.hostname)

/-- Post an agent at its host, in the place of the one that was there. -/
def put (c : Crew A) (s : Station A) : Crew A :=
  ⟨Roster.put (·.hostname) s c.stations, Roster.nodup_put c.distinct⟩

/-- Change the agent of a host. -/
def change (c : Crew A) (hostname : String) (g : A → A) : Crew A :=
  ⟨Roster.change (·.hostname) hostname (Station.change g) c.stations,
    Roster.nodup_change (f := Station.change g) (fun _ => rfl) c.distinct⟩

end Crew

/-! ## Fleets -/

/-- A coordinator and its agents on one bus. -/
structure Fleet where
  bus : Bus (Envelope Float)
  /-- The host of the coordinator. -/
  hostname : String
  coordinator : Coordinator
  /-- The coordinator's mailbox while it is there. -/
  box : Option BoxId
  instrumenters : Crew Instrumenter
  aggregators : Crew (Aggregator Float)
  /-- The current samples of each host. -/
  feeds : Table String (Feed Float)

/-- What a step leads to. -/
structure Progress where
  fleet : Fleet
  /-- What was published, in order. -/
  posted : List (Posting Float)
  /-- The requests answered, in order. -/
  answered : List (Ticket × Answer)

namespace Progress

/-- Nothing published and nothing answered. -/
def quiet (f : Fleet) : Progress := ⟨f, [], []⟩

/-- Go on with another step. -/
def andThen (p : Progress) (step : Fleet → Progress) : Progress :=
  let q := step p.fleet
  ⟨q.fleet, p.posted ++ q.posted, p.answered ++ q.answered⟩

/-- The same step a number of times. -/
def times (step : Fleet → Progress) : Nat → Progress → Progress
  | 0, p => p
  | n + 1, p => times step n (p.andThen step)

end Progress

namespace Fleet

/-- A fleet without agents, whose coordinator is not on the bus yet. -/
def new (keyBase hostname : String) (ackTimeout : Nat) : Fleet where
  bus := .empty
  hostname := hostname
  coordinator := .new keyBase ackTimeout
  box := none
  instrumenters := .empty
  aggregators := .empty
  feeds := []

/-! ## The coordinator -/

/-- The coordinator opens its mailbox. -/
def attend (f : Fleet) : Fleet :=
  let (box, bus) := f.bus.openMailbox [f.coordinator.routingKey]
  { f with bus := bus, box := some box }

/-- The coordinator closes its mailbox. -/
def leave (f : Fleet) : Fleet :=
  match f.box with
  | some box =>
    { f with bus := (f.bus.unbind f.coordinator.routingKey box).drop box, box := none }
  | none => f

/-- A message of the coordinator with where it comes from. -/
def envelope (f : Fleet) (m : Message Float) : Envelope Float :=
  ⟨f.coordinator.routingKey, f.hostname, m⟩

/-- Carry out what an event led the coordinator to. -/
def conduct (f : Fleet) (t : Turn) : Progress :=
  let (posted, bus) := f.bus.post f.envelope t.sent
  ⟨{ f with coordinator := t.coordinator, bus := bus }, posted, t.answered⟩

/-- A request for an instrumentation. -/
def create (f : Fleet) (s : Spec) (ticket : Ticket) (now : Nat) : Progress :=
  f.conduct (f.coordinator.create s ticket now)

/-- A request to remove an instrumentation. -/
def delete (f : Fleet) (id : InstId) : Except RequestError Progress :=
  (f.coordinator.delete id).map f.conduct

/-- End every creation that is out of time. -/
def expire (f : Fleet) (now : Nat) : Progress :=
  f.conduct (f.coordinator.expire now)

/-- The coordinator handles an envelope. -/
def coordinatorHandle (f : Fleet) (now : Timestamp) (e : Envelope Float) : Progress :=
  f.conduct (f.coordinator.handle e now)

/-- Deliver the oldest envelope in the coordinator's mailbox. -/
def deliverCoordinator (now : Timestamp) (f : Fleet) : Progress :=
  match f.box.bind f.bus.receive? with
  | some (e, bus) => { f with bus := bus }.coordinatorHandle now e
  | none => .quiet f

/-! ## Instrumenters -/

/-- Close the mailbox of an agent that is replaced or gone. -/
def dropBox (f : Fleet) {A : Type} (s : Option (Station A)) : Fleet :=
  match s with
  | some s => { f with bus := f.bus.drop s.box }
  | none => f

/-- Post an instrumenter at its host. The host's samples stay. -/
def addInstrumenter (f : Fleet) (i : Instrumenter) : Fleet :=
  -- what waits in the mailbox of the agent that is replaced is lost
  let f := f.dropBox (f.instrumenters.find? i.hostname)
  let (box, bus) := f.bus.openMailbox i.bindings
  { f with bus := bus, instrumenters := f.instrumenters.put ⟨i.hostname, i, box⟩ }

/-- The current samples of a host. -/
def feed (f : Fleet) (hostname : String) : Feed Float :=
  (f.feeds.find? hostname).getD .empty

/-- Replace the current samples of a host. -/
def setFeed (f : Fleet) (hostname : String) (feed : Feed Float) : Fleet :=
  { f with feeds := f.feeds.insert hostname feed }

/-- An instrumenter says that it has come online. -/
def announceInstrumenter (f : Fleet) (hostname : String) : Progress :=
  match f.instrumenters.find? hostname with
  | some s =>
    let (posted, bus) := f.bus.post s.agent.envelope [s.agent.announcement]
    ⟨{ f with bus := bus }, posted, []⟩
  | none => .quiet f

/-- An instrumenter handles an envelope. -/
def instrumenterHandle (f : Fleet) (hostname : String) (e : Envelope Float) : Progress :=
  match f.instrumenters.find? hostname with
  | some s =>
    let (after, sent) := s.agent.handle e
    let (posted, bus) := f.bus.post s.agent.envelope sent
    ⟨{ f with bus := bus, instrumenters := f.instrumenters.change hostname fun _ => after },
      posted, []⟩
  | none => .quiet f

/-- Deliver the oldest envelope in the mailbox of an instrumenter. -/
def deliverInstrumenter (hostname : String) (f : Fleet) : Progress :=
  match (f.instrumenters.find? hostname).bind fun s => f.bus.receive? s.box with
  | some (e, bus) => { f with bus := bus }.instrumenterHandle hostname e
  | none => .quiet f

/-- An instrumenter reports: how many values it sends. -/
def report (f : Fleet) (hostname : String) (now : Timestamp) : Progress × Nat :=
  match f.instrumenters.find? hostname with
  | some s =>
    let (after, sent, values) := s.agent.report (f.feed hostname) now
    let (posted, bus) := f.bus.post s.agent.envelope sent
    (⟨{ f with bus := bus, instrumenters := f.instrumenters.change hostname fun _ => after },
      posted, []⟩, values)
  | none => (.quiet f, 0)

/-- The instrumenters of some hosts report, in order: how many values each sends. -/
def reportAll (f : Fleet) (now : Timestamp) (hostnames : List String) : Progress × List Nat :=
  hostnames.foldl
    (fun (p, counts) hostname =>
      let (q, values) := p.fleet.report hostname now
      (p.andThen fun _ => q, counts ++ [values]))
    (.quiet f, [])

/-- An instrumenter goes away: it listens on no key any more. -/
def retireInstrumenter (f : Fleet) (hostname : String) : Fleet :=
  match f.instrumenters.find? hostname with
  | some s => { f with bus := (f.bus.unbindAll s.box s.agent.bindings).drop s.box }
  | none => f

/-! ## Aggregators -/

/-- Post an aggregator at its host. -/
def addAggregator (f : Fleet) (a : Aggregator Float) : Fleet :=
  -- the mailbox of the agent that is replaced stays bound until the next publication
  let f := f.dropBox (f.aggregators.find? a.hostname)
  let (box, bus) := f.bus.openMailbox a.bindings
  { f with bus := bus, aggregators := f.aggregators.put ⟨a.hostname, a, box⟩ }

/-- An aggregator says that it has come online. -/
def announceAggregator (f : Fleet) (hostname : String) : Progress :=
  match f.aggregators.find? hostname with
  | some s =>
    let (posted, bus) := f.bus.post s.agent.envelope [s.agent.announcement]
    ⟨{ f with bus := bus }, posted, []⟩
  | none => .quiet f

/-- An aggregator handles an envelope. -/
def aggregatorHandle (f : Fleet) (hostname : String) (e : Envelope Float) : Progress :=
  match f.aggregators.find? hostname with
  | some s =>
    let (after, effects) := s.agent.handle e
    let (posted, bus) := f.bus.perform s.box s.agent.envelope effects
    ⟨{ f with bus := bus, aggregators := f.aggregators.change hostname fun _ => after },
      posted, []⟩
  | none => .quiet f

/-- Deliver the oldest envelope in the mailbox of an aggregator. -/
def deliverAggregator (hostname : String) (f : Fleet) : Progress :=
  match (f.aggregators.find? hostname).bind fun s => f.bus.receive? s.box with
  | some (e, bus) => { f with bus := bus }.aggregatorHandle hostname e
  | none => .quiet f

/-- An aggregator goes away: it listens on no key any more. -/
def retireAggregator (f : Fleet) (hostname : String) : Fleet :=
  match f.aggregators.find? hostname with
  | some s => { f with bus := (f.bus.unbindAll s.box s.agent.allBindings).drop s.box }
  | none => f

/-! ## Rounds -/

/-- How much a mailbox holds. -/
def queued (f : Fleet) (box : Option BoxId) : Nat :=
  match box with
  | some b => (f.bus.queue b).length
  | none => 0

/-- How much waits for the instrumenter of a host. -/
def queuedInstrumenter (f : Fleet) (hostname : String) : Nat :=
  f.queued ((f.instrumenters.find? hostname).map (·.box))

/-- How much waits for the aggregator of a host. -/
def queuedAggregator (f : Fleet) (hostname : String) : Nat :=
  f.queued ((f.aggregators.find? hostname).map (·.box))

/-- The coordinator takes everything out of its mailbox. -/
def serveCoordinator (now : Timestamp) (f : Fleet) : Progress :=
  .times (deliverCoordinator now) (f.queued f.box) (.quiet f)

/-- An instrumenter takes everything out of its mailbox. -/
def serveInstrumenter (hostname : String) (f : Fleet) : Progress :=
  .times (deliverInstrumenter hostname) (f.queuedInstrumenter hostname) (.quiet f)

/-- An aggregator takes everything out of its mailbox. -/
def serveAggregator (hostname : String) (f : Fleet) : Progress :=
  .times (deliverAggregator hostname) (f.queuedAggregator hostname) (.quiet f)

/-- Throw away what waits for the agents of a host: how much that is. -/
def lose (f : Fleet) (hostname : String) : Nat × Fleet :=
  let boxes := ((f.instrumenters.find? hostname).map (·.box)).toList ++
    ((f.aggregators.find? hostname).map (·.box)).toList
  boxes.foldl
    (fun (n, f) box =>
      let (lost, bus) := f.bus.drain box
      (n + lost.length, { f with bus := bus }))
    (0, f)

/-- Is every mailbox empty? -/
def isSettled (f : Fleet) : Bool :=
  f.queued f.box = 0 && f.instrumenters.hostnames.all (f.queuedInstrumenter · = 0) &&
    f.aggregators.hostnames.all (f.queuedAggregator · = 0)

/-- One round: the coordinator, then each instrumenter, then each aggregator empties its
mailbox. -/
def round (now : Timestamp) (f : Fleet) : Progress :=
  let p := f.serveCoordinator now
  let p := f.instrumenters.hostnames.foldl (fun p h => p.andThen (serveInstrumenter h)) p
  f.aggregators.hostnames.foldl (fun p h => p.andThen (serveAggregator h)) p

/-- Rounds until every mailbox is empty, at most a given number. -/
def rounds (now : Timestamp) : Nat → Progress → Progress
  | 0, p => p
  | n + 1, p => if p.fleet.isSettled then p else rounds now n (p.andThen (round now))

/-- More rounds than any chain of answers takes: a notice, a command, its acknowledgement, a
command to stop and its acknowledgement make the longest one. -/
def enoughRounds : Nat := 10

/-- Deliver until every mailbox is empty. -/
def settle (now : Timestamp) (f : Fleet) : Progress :=
  rounds now enoughRounds (.quiet f)

end Fleet

end FleetMetrics
