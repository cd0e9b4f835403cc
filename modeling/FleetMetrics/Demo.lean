import FleetMetrics.Config
import FleetMetrics.Service

/-!
# The demonstration

A coordinator, one aggregator and some hosts with the stock metrics, whose counters grow at a
steady pace. The demonstration shows the catalog, creates an instrumentation of the bytes that
pass the network by host, shows its value at every tick, and deletes it.
-/

namespace FleetMetrics.Demo

/-- How many hosts take part and how many ticks are shown. -/
structure Plan where
  hosts : Nat := 3
  ticks : Nat := 5
  deriving DecidableEq

/-- The name of a host. -/
def hostname (rank : Nat) : String :=
  "host" ++ toString rank

def hostnames (p : Plan) : List String :=
  (List.range p.hosts).map hostname

/-! ## The fleet -/

/-- The coordinator and its agents, at work. -/
def start (c : Config) (machine : Option String) (p : Plan) : Service :=
  let keyBase := c.coordinator.keyBase
  let service := (Service.new keyBase (c.coordinator.effectiveHostname machine)
    c.coordinator.ackTimeout.nanos c.coordinator.sweepInterval.nanos).start
  let attended :=
    service.startAggregator (Aggregator.new keyBase "agg0" c.agent.retainSamples) false
  (hostnames p).foldl
    (fun s host =>
      s.startInstrumenter (Instrumenter.new keyBase host).addStock.1 c.agent.reportInterval.nanos
        false)
    attended

/-- What a host has counted at a tick; the counters of a host of higher rank grow faster. -/
def samples (rank tick : Nat) (interval : Duration) (now : Timestamp) : List (Sample Float) :=
  let scale := Float.ofNat (rank + 1)
  let t := Float.ofNat tick
  let elapsed := Float.ofNat interval.nanos
  [ { key := "nic:net0"
      time := now.nanos
      counters := Table.ofList [("obytes64", scale * 1500.0 * t), ("rbytes64", scale * 900.0 * t)]
      attributes := Table.ofList [("name", "net0")] },
    { key := "cpu:0"
      time := now.nanos
      counters := Table.ofList
        [("cpu_nsec_kernel", elapsed * t * 0.05 * scale),
          ("cpu_nsec_user", elapsed * t * 0.10 * scale)]
      attributes := Table.ofList [("instance", "0")] } ]

/-- Give every host its samples. -/
def feed (tick : Nat) (interval : Duration) (p : Plan) (s : Service) : Service :=
  (List.range p.hosts).foldl
    (fun s rank =>
      let fed := (samples rank tick interval s.today).foldl Feed.set (s.fleet.feed (hostname rank))
      { s with fleet := s.fleet.setFeed (hostname rank) fed })
    s

/-- One tick: new samples, and the time until the next reports. -/
def tick (n : Nat) (interval : Duration) (p : Plan) (s : Service) : Service :=
  let fed := feed n interval p s
  -- reports carry the time at which they are sent, which is the end of the tick
  let later : Timestamp := ⟨s.today.nanos + interval.nanos⟩
  Service.advance { fed with today := later } interval.nanos

/-! ## The report -/

/-- The modules with their statistics. -/
def catalogText (c : Catalog) : String :=
  "Catalog:\n" ++ String.join (c.map fun m =>
    let name := m.1.pushn ' ' (8 - m.1.length)
    "  " ++ name ++ " " ++ ", ".intercalate (m.2.stats.map (·.1)) ++ "\n")

/-- The value of the latest second, host by host. -/
def valueText (id : InstId) (s : Service) : String :=
  match (s.fleet.aggregators.find? "agg0").bind fun a => a.agent.latest id with
  | some (second, value) =>
    let shares := value.scalars.map fun e => e.1 ++ "=" ++ Arithmetic.text e.2
    "  t=" ++ toString second ++ " " ++ " ".intercalate shares ++ "\n"
  | none => "  (no data yet)\n"

/-- The values at some ticks that follow each other, and the service after them. -/
def ticksText (id : InstId) (interval : Duration) (p : Plan) : List Nat → Service →
    String × Service
  | [], s => ("", s)
  | n :: rest, s =>
    let after := tick n interval p s
    let (text, last) := ticksText id interval p rest after
    (valueText id after ++ text, last)

/-- The bytes that pass the network, by host. -/
def spec : Spec where
  module := "nic"
  stat := "bytes"
  predicate := .trivial
  decomposition := [hostnameField]
  nodes := []

/-- What the demonstration shows, and how it fails if it does. It begins at a time of day; the
machine may name its host. -/
def report (c : Config) (machine : Option String) (now : Timestamp) (p : Plan) :
    String × Except RequestError Unit :=
  let s := { start c machine p with today := now }
  let catalog := catalogText s.fleet.coordinator.registry.catalog
  let ticket := s.nextTicket
  let asked := s.create spec
  match asked.answered.find? ticket with
  | some (.ok id) =>
    let (values, after) := ticksText id c.agent.reportInterval p
      ((List.range p.ticks).map (· + 1)) asked
    let created := "\nCreated instrumentation " ++ toString id ++ " (nic/bytes by hostname)\n"
    match after.delete id with
    | .ok rest =>
      let count := rest.fleet.coordinator.list.length
      (catalog ++ created ++ values ++
        "Deleted instrumentation " ++ toString id ++ "; " ++ toString count ++ " remaining\n",
        .ok ())
    | .error e => (catalog ++ created ++ values, .error e)
  | some (.error e) => (catalog, .error e)
  | none => (catalog, .error .unavailable)

end FleetMetrics.Demo
