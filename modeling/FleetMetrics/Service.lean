import FleetMetrics.Fleet

/-!
# Services

A service runs a fleet: it takes requests for the coordinator, lets the coordinator look for
creations out of time at regular intervals, and lets every instrumenter report at its own. The
clock starts at zero and moves only in `advance`; timers go off in order of time, and after every
event everything is delivered.

Requests wait until the service is started. Once it has stopped, because it was told to or because
nobody is left who could make a request, every request still open and every later one is answered
with `unavailable`.
-/

namespace FleetMetrics

/-- A timer that goes off again and again. -/
structure Timer where
  due : Nat
  period : Nat

/-- The same timer after it has gone off. -/
def Timer.next (t : Timer) : Timer :=
  { t with due := t.due + t.period }

/-- An agent that runs. -/
structure Running where
  role : Role
  hostname : String
  /-- When it reports next, if it does. -/
  report : Option Timer

namespace Running

/-- The agent goes away in good order: it listens on no key any more. -/
def retire (a : Running) (f : Fleet) : Fleet :=
  match a.role with
  | .aggregator => f.retireAggregator a.hostname
  | _ => f.retireInstrumenter a.hostname

/-- The agent is gone, and its mailbox with it. -/
def vanish (a : Running) (f : Fleet) : Fleet :=
  match a.role with
  | .aggregator => f.dropBox (f.aggregators.find? a.hostname)
  | _ => f.dropBox (f.instrumenters.find? a.hostname)

end Running

/-- How far the service is. -/
inductive Phase
  | held
  | running
  | stopped
  deriving DecidableEq, Repr

/-- Who has stopped, and whether without an error. -/
structure Ending where
  /-- The host of an agent; none for the service itself. -/
  hostname : Option String
  clean : Bool

/-- A fleet that runs. -/
structure Service where
  fleet : Fleet
  phase : Phase
  /-- The virtual clock, in nanoseconds. -/
  clock : Nat
  /-- The time of day that reports carry. -/
  today : Timestamp
  /-- When creations out of time are looked for. -/
  sweep : Timer
  shutdownAsked : Bool
  /-- Has the right to make requests been given up? -/
  handleDropped : Bool
  /-- The requests not yet taken up, oldest first. -/
  queue : List (Spec × Ticket)
  /-- The requests that somebody waits for. -/
  waiting : List Ticket
  answered : Table Ticket Answer
  nextTicket : Ticket
  agents : List Running
  ended : List Ending

namespace Service

/-- A service whose coordinator is on the bus, not started yet. -/
def new (keyBase hostname : String) (ackTimeout sweepInterval : Nat) : Service where
  fleet := (Fleet.new keyBase hostname ackTimeout).attend
  phase := .held
  clock := 0
  today := ⟨0⟩
  sweep := ⟨0, sweepInterval⟩
  shutdownAsked := false
  handleDropped := false
  queue := []
  waiting := []
  answered := []
  nextTicket := 0
  agents := []
  ended := []

/-- Answer a request, if somebody still waits for it. -/
def answer (s : Service) (a : Ticket × Answer) : Service :=
  if a.1 ∈ s.waiting then
    { s with
      waiting := s.waiting.filter (· ≠ a.1)
      answered := s.answered.insert a.1 a.2 }
  else s

/-- Take over what a step of the fleet led to. -/
def adopt (s : Service) (p : Progress) : Service :=
  p.answered.foldl answer { s with fleet := p.fleet }

/-- The service stops. -/
def stop (s : Service) : Service :=
  s.waiting.foldl (fun s ticket => s.answer (ticket, .error .unavailable))
    { s with
      fleet := s.fleet.leave
      phase := .stopped
      queue := []
      ended := s.ended ++ [⟨none, true⟩] }

/-- Take up the requests that wait. -/
def serveRequests (s : Service) : Service :=
  s.queue.foldl (fun s request => s.adopt (s.fleet.create request.1 request.2 s.clock))
    { s with queue := [] }

/-- Nobody is left who could make a request. -/
def isAbandoned (s : Service) : Bool :=
  s.handleDropped && s.waiting.isEmpty

/-- Deliver everything; before it is started, a service leaves the coordinator's mailbox alone. -/
def deliver (s : Service) : Service :=
  match s.phase with
  | .held =>
    -- the agents talk to each other, and what they send to the coordinator waits
    let hidden := { s.fleet with box := none }
    let p := hidden.settle s.today
    s.adopt { p with fleet := { p.fleet with box := s.fleet.box } }
  | _ => s.adopt (s.fleet.settle s.today)

/-- Let everything run that can. -/
def run (s : Service) : Service :=
  match s.phase with
  | .running =>
    -- requests that still wait are not taken up any more
    if s.shutdownAsked then s.stop
    else
      let served := s.serveRequests.deliver
      if served.isAbandoned then served.stop else served
  | _ => s.deliver

/-! ## Requests -/

/-- Start the service. It looks for creations out of time at once, and then at intervals. -/
def start (s : Service) : Service :=
  match s.phase with
  | .held =>
    Service.run { s with
      phase := .running
      sweep := { due := s.clock + s.sweep.period, period := s.sweep.period } }
  | _ => s

/-- A request for an instrumentation, which will be answered. -/
def create (s : Service) (spec : Spec) : Service :=
  let asked := { s with nextTicket := s.nextTicket + 1, waiting := s.waiting ++ [s.nextTicket] }
  match s.phase with
  | .stopped => asked.answer (s.nextTicket, .error .unavailable)
  | _ => { asked with queue := s.queue ++ [(spec, s.nextTicket)] }.run

/-- Nobody waits for a request any more. -/
def abandon (s : Service) (ticket : Ticket) : Service :=
  { s with waiting := s.waiting.filter (· ≠ ticket) }.run

/-- Ask the coordinator something. -/
def ask {α : Type} (s : Service) (question : Coordinator → α) : Except RequestError α :=
  match s.phase with
  | .running => .ok (question s.fleet.coordinator)
  | _ => .error .unavailable

/-- A request to remove an instrumentation. -/
def delete (s : Service) (id : InstId) : Except RequestError Service :=
  match s.phase with
  | .running => (s.fleet.delete id).map fun p => (s.adopt p).run
  | _ => .error .unavailable

/-- Tell the service to stop. -/
def shutdown (s : Service) : Service :=
  { s with shutdownAsked := true }.run

/-- Give up the right to make requests. -/
def dropHandle (s : Service) : Service :=
  { s with handleDropped := true }.run

/-! ## Agents -/

/-- An agent stops. -/
def retire (s : Service) (agent : Running) : Service :=
  { s with
    fleet := agent.retire s.fleet
    ended := s.ended ++ [⟨some agent.hostname, true⟩] }

/-- An agent has announced itself. It fails if the notice could not be published; otherwise it
runs, unless it was told to stop before. -/
def enter (s : Service) (p : Progress) (agent : Running) (stopped : Bool) : Service :=
  let s := s.adopt p
  if p.posted.any fun posting => posting.reached.toOption.isNone then
    Service.run { s with
      fleet := agent.vanish s.fleet
      ended := s.ended ++ [⟨some agent.hostname, false⟩] }
  else if stopped then (s.retire agent).run
  else { s with agents := s.agents ++ [agent] }.run

/-- Run an instrumenter that reports at intervals. -/
def startInstrumenter (s : Service) (i : Instrumenter) (period : Nat) (stopped : Bool) : Service :=
  s.enter ((s.fleet.addInstrumenter i).announceInstrumenter i.hostname)
    ⟨.instrumenter, i.hostname, some ⟨s.clock + period, period⟩⟩ stopped

/-- Run an aggregator. -/
def startAggregator (s : Service) (a : Aggregator Float) (stopped : Bool) : Service :=
  s.enter ((s.fleet.addAggregator a).announceAggregator a.hostname)
    ⟨.aggregator, a.hostname, none⟩ stopped

/-- The agents of a host stop. -/
def stopAgents (s : Service) (hostname : String) : Service :=
  let (gone, rest) := s.agents.partition fun agent => agent.hostname = hostname
  (gone.foldl retire { s with agents := rest }).run

/-- Publish something: how many mailboxes it reaches. -/
def publish (s : Service) (key : String) (e : Envelope Float) :
    Except TransportError Nat × Service :=
  let (reached, bus) := s.fleet.bus.publish key e
  (reached, { s with fleet := { s.fleet with bus := bus } }.run)

/-! ## Time -/

/-- When the next timer goes off. -/
def nextDue (s : Service) : Option Nat :=
  let sweeps := if s.phase = .running then [s.sweep.due] else []
  (sweeps ++ s.agents.filterMap fun agent => agent.report.map (·.due)).min?

/-- Is the report of an agent due? -/
def isDue (now : Nat) (agent : Running) : Bool :=
  match agent.report with
  | some t => t.due = now
  | none => false

/-- Set the timer of an agent whose report is due. -/
def rearm (now : Nat) (agent : Running) : Running :=
  if isDue now agent then { agent with report := agent.report.map Timer.next } else agent

/-- An instrumenter reports. -/
def report (s : Service) (hostname : String) : Service :=
  (s.adopt (s.fleet.report hostname s.today).1).run

/-- Creations out of time are looked for, if that is due. -/
def sweepIfDue (s : Service) : Service :=
  if s.phase = .running ∧ s.sweep.due = s.clock then
    ({ s with sweep := s.sweep.next }.adopt (s.fleet.expire s.clock)).run
  else s

/-- Everything that is due at a time happens. -/
def fire (s : Service) (now : Nat) : Service :=
  -- reports come before the search for creations out of time
  let due := (s.agents.filter (isDue now)).map (·.hostname)
  (due.foldl report { s with clock := now, agents := s.agents.map (rearm now) }).sweepIfDue

/-- Let timers go off up to a time, at most a given number of times. -/
def fireUntil (target : Nat) : Nat → Service → Service
  | 0, s => { s with clock := target }
  | n + 1, s =>
    match s.nextDue with
    | some now =>
      if now ≤ target then fireUntil target n (s.fire now) else { s with clock := target }
    | none => { s with clock := target }

/-- Move the clock. Each time that something is due lies after the one before, so there are at
most as many as nanoseconds go by. -/
def advance (s : Service) (span : Nat) : Service :=
  fireUntil (s.clock + span) (span + 1) s

end Service

end FleetMetrics
