import Mathlib
import FleetMetrics.Proofs.Participant

/-!
# Steps of a coordinator

Everything that happens to a coordinator is an `Event`: a request, the end of a waiting time, or
an envelope from the bus. `Coordinator.step` makes of an event a turn, `Coordinator.run` plays a
whole history.

The operations behind the events are written for instrumenters and for aggregators apart, and some
of them pass through states nobody sees. This module gives each of them one equation that says
what it does as a whole; later modules use the equations and do not open the operations.

Main results:

* `settle_store` — storing a record and ending its creation is one change of the record, one
  release of loads and one row of commands to stop.
* `acknowledge_eq` — acknowledgements of both kinds are one operation.
* `instrumenterOnline_eq`, `aggregatorOnline_eq` — notices of both kinds are one operation.
* `expire_eq` — the creations that are out of time end independently of each other.
* `handle_cases` — an envelope is an acknowledgement that counts, a notice, or changes nothing.
* `responds_step` — all that an event can lead to, case by case. What holds after every event is
  shown for these cases.
-/

namespace FleetMetrics

/-! ## Events -/

/-- What can happen to a coordinator. -/
inductive Event where
  | create (spec : Spec) (ticket : Ticket) (now : Nat)
  | delete (id : InstId)
  | expire (now : Nat)
  | receive (envelope : Envelope Float) (now : Timestamp)

/-- The record of the participant that an envelope announces, if it announces one of the kind. -/
def Envelope.arrival? (e : Envelope Float) (now : Timestamp) (w : Work) : Option AgentRecord :=
  match w, e.message with
  | .instrumentation, .instrumenterOnline agent modules =>
    some ⟨e.hostname, e.source, agent, Catalog.statCount modules, 0, now⟩
  | .aggregation, .aggregatorOnline agent => some ⟨e.hostname, e.source, agent, 0, 0, now⟩
  | _, _ => none

/-- A participant that an event announces, if it announces one of the kind. -/
def Event.arrival? : Event → Work → Option AgentRecord
  | .receive e now, w => e.arrival? now w
  | _, _ => none

/-- An announced participant is known by the host and the key of the envelope, and has no load. -/
theorem Envelope.arrival?_eq_some {e : Envelope Float} {now : Timestamp} {w : Work}
    {r : AgentRecord} (h : e.arrival? now w = some r) :
    r.hostname = e.hostname ∧ r.routingKey = e.source ∧ r.load = 0 := by
  unfold arrival? at h
  split at h
  · rw [← Option.some.inj h]
    exact ⟨rfl, rfl, rfl⟩
  · rw [← Option.some.inj h]
    exact ⟨rfl, rfl, rfl⟩
  · cases h

/-- A notice is neither an order nor an answer. -/
theorem Envelope.message_of_arrival {e : Envelope Float} {now : Timestamp} {w : Work}
    {r : AgentRecord} (h : e.arrival? now w = some r) :
    e.message.isInert = false ∧ (∀ w' id, e.message.answer? w' id = none) ∧
      ∀ w' id, e.message.order? w' id = none := by
  unfold arrival? at h
  split at h
  · next hMessage =>
    rw [hMessage]
    exact ⟨rfl, fun _ _ => rfl, fun w' _ => by cases w' <;> rfl⟩
  · next hMessage =>
    rw [hMessage]
    exact ⟨rfl, fun _ _ => rfl, fun w' _ => by cases w' <;> rfl⟩
  · cases h

/-- What a list of messages tells the participants of a kind about an instrumentation, with the
keys under which it is told. -/
def ordersIn (sent : List Dispatch) (w : Work) (id : InstId) : List (String × Order) :=
  sent.filterMap fun d => (d.2.order? w id).map fun o => (d.1, o)

/-- The keys of some hosts that a directory knows. -/
def Directory.keys (d : Directory) (hosts : List String) : List String :=
  hosts.filterMap fun h => (d.find? h).map (·.routingKey)

/-- Hosts are written to under the keys that they are registered with, and a host that is not
registered is not written to. -/
theorem Directory.mem_keys {d : Directory} {hosts : List String} {key : String} :
    key ∈ d.keys hosts ↔ ∃ h ∈ hosts, ∃ r, d.find? h = some r ∧ r.routingKey = key := by
  simp only [Directory.keys, List.mem_filterMap, Option.map_eq_some_iff]

namespace Coordinator

/-- What an event leads to. -/
def step (c : Coordinator) : Event → Turn
  | .create s ticket now => c.create s ticket now
  | .delete id =>
    match c.delete id with
    | .ok t => t
    | .error _ => .quiet c
  | .expire now => c.expire now
  | .receive e now => c.handle e now

/-- The coordinator after a history. -/
def run (c : Coordinator) (history : List Event) : Coordinator :=
  history.foldl (fun c x => (c.step x).coordinator) c

/-- Histories are run one after the other. -/
theorem run_append (c : Coordinator) (xs ys : List Event) :
    c.run (xs ++ ys) = (c.run xs).run ys :=
  List.foldl_append

theorem run_concat (c : Coordinator) (xs : List Event) (x : Event) :
    c.run (xs ++ [x]) = ((c.run xs).step x).coordinator :=
  run_append c xs [x]

/-- A whole history as one turn: the coordinator after it, and all that it publishes and answers. -/
def play (c : Coordinator) : List Event → Turn
  | [] => .quiet c
  | x :: rest => (c.step x).andThen fun c => c.play rest

/-- Playing a history leads where running it leads. -/
theorem coordinator_play (c : Coordinator) (xs : List Event) :
    (c.play xs).coordinator = c.run xs := by
  induction xs generalizing c with
  | nil => rfl
  | cons x rest ih => exact ih (c.step x).coordinator

/-- What is published and answered in a history is what its two parts publish and answer. -/
theorem play_append (c : Coordinator) (xs ys : List Event) :
    c.play (xs ++ ys) = (c.play xs).andThen fun c => c.play ys := by
  induction xs generalizing c with
  | nil => rfl
  | cons x rest ih =>
    rw [List.cons_append, play, play]
    simp only [ih]
    simp only [Turn.andThen, List.append_assoc]

/-- The last event adds what its step publishes and answers. -/
theorem play_concat (c : Coordinator) (xs : List Event) (x : Event) :
    c.play (xs ++ [x]) = (c.play xs).andThen fun c => c.step x := by
  rw [play_append]
  simp only [play, Turn.andThen, Turn.quiet, List.append_nil]

/-- The states that a coordinator gets into from the start. -/
def Reachable (c : Coordinator) : Prop :=
  ∃ keyBase ackTimeout history, c = (Coordinator.new keyBase ackTimeout).run history

/-- A history to try things on: an aggregator and an instrumenter come online, and a request for
the one statistic on offer is accepted. -/
def briefHistory : List Event :=
  [.receive ⟨"k.aggregator.g", "g", .aggregatorOnline (.current "aggregator")⟩ ⟨0⟩,
    .receive ⟨"k.instrumenter.h", "h",
      .instrumenterOnline (.current "instrumenter") [("m", ⟨"M", [("s", ⟨"S", "u", []⟩)]⟩)]⟩ ⟨0⟩,
    .create ⟨"m", "s", .trivial, [], []⟩ 0 0]

/-- What holds at the start and is kept by every step holds in every reachable state. -/
theorem Reachable.induct {P : Coordinator → Prop}
    (start : ∀ keyBase ackTimeout, P (.new keyBase ackTimeout))
    (keep : ∀ c x, P c → P (c.step x).coordinator) {c : Coordinator} (h : c.Reachable) : P c := by
  obtain ⟨keyBase, ackTimeout, history, rfl⟩ := h
  induction history using List.reverseRecOn with
  | nil => exact start keyBase ackTimeout
  | append_singleton xs x ih =>
    rw [run_concat]
    exact keep _ x ih

/-- Whatever happens in a reachable state leads to one. -/
theorem Reachable.run {c : Coordinator} (h : c.Reachable) (xs : List Event) :
    (c.run xs).Reachable := by
  obtain ⟨keyBase, ackTimeout, history, rfl⟩ := h
  exact ⟨keyBase, ackTimeout, history ++ xs, (run_append _ history xs).symm⟩

/-! ## Who is told, and who is released -/

/-- Give back one load for each of some hosts of each kind. -/
def relieve (c : Coordinator) (hosts : Work → List String) : Coordinator :=
  c.withLoads (c.registry.aggregators.releaseAll (hosts .aggregation))
    (c.registry.instrumenters.releaseAll (hosts .instrumentation))

/-- The commands that tell some hosts of each kind to stop. -/
def stops (c : Coordinator) (id : InstId) (hosts : Work → List String) : List Dispatch :=
  toHosts c.registry.aggregators (hosts .aggregation) (.disable .aggregation id) ++
    toHosts c.registry.instrumenters (hosts .instrumentation) (.disable .instrumentation id)

/-- Everybody who is told of an instrumentation on an aggregator when it begins and when it is
deleted. -/
def addressees (c : Coordinator) (aggregator : String) : Work → List String
  | .instrumentation => c.registry.instrumenters.records.map (·.hostname)
  | .aggregation => [aggregator]

/-- Relieving releases, in each of the two directories, the hosts named for it. -/
theorem directory_relieve (c : Coordinator) (hosts : Work → List String) (w : Work) :
    (c.relieve hosts).registry.directory w = (c.registry.directory w).releaseAll (hosts w) := by
  cases w <;> rfl

theorem relieve_nothing (c : Coordinator) : c.relieve (fun _ => []) = c := rfl

/-- To relieve twice is to relieve both lists together. -/
theorem relieve_relieve (c : Coordinator) (hosts hosts' : Work → List String) :
    (c.relieve hosts).relieve hosts' = c.relieve fun w => hosts w ++ hosts' w := by
  simp only [relieve, Directory.releaseAll_append]
  rfl

/-- A message to some hosts is sent under the key of each. -/
theorem toHosts_eq (d : Directory) (hosts : List String) (m : Message Float) :
    toHosts d hosts m = (d.keys hosts).map fun key => (key, m) := by
  unfold toHosts Directory.keys
  induction hosts with
  | nil => rfl
  | cons h rest ih =>
    rw [List.filterMap_cons, List.filterMap_cons]
    cases d.find? h with
    | none => exact ih
    | some r => simp [ih]

/-- Loads play no part in where a message goes. -/
theorem toHosts_releaseAll (d : Directory) (released hosts : List String) (m : Message Float) :
    toHosts (d.releaseAll released) hosts m = toHosts d hosts m := by
  unfold toHosts
  congr 1
  funext h
  rw [Directory.find?_releaseAll, Option.map_map]
  rfl

/-- Loads do not matter for who is told what. -/
theorem stops_relieve (c : Coordinator) (id : InstId) (released hosts : Work → List String) :
    (c.relieve released).stops id hosts = c.stops id hosts := by
  unfold stops
  rw [← toHosts_releaseAll c.registry.aggregators (released .aggregation),
    ← toHosts_releaseAll c.registry.instrumenters (released .instrumentation)]
  rfl

/-- One message to everybody a directory knows. -/
theorem toHosts_all (d : Directory) (m : Message Float) :
    toHosts d (d.records.map (·.hostname)) m = d.records.map fun r => (r.routingKey, m) := by
  unfold toHosts
  have hKnown : ∀ r ∈ d.records, (d.find? r.hostname).map (fun a => (a.routingKey, m)) =
      some (r.routingKey, m) := by
    intro r hr
    rw [Directory.find?, Roster.find?_of_mem d.distinct hr]
    rfl
  rw [List.filterMap_map, List.filterMap_congr (g := some ∘ fun r => (r.routingKey, m)) hKnown,
    List.filterMap_eq_map]

/-! ## What the messages of an operation tell -/

theorem ordersIn_append (xs ys : List Dispatch) (w : Work) (id : InstId) :
    ordersIn (xs ++ ys) w id = ordersIn xs w id ++ ordersIn ys w id :=
  List.filterMap_append

/-- What tells nobody anything holds no orders. -/
theorem ordersIn_of_inert {sent : List Dispatch} (inert : ∀ d ∈ sent, d.2.isInert = true) (w : Work)
    (id : InstId) : ordersIn sent w id = [] := by
  refine List.filterMap_eq_nil_iff.mpr fun d hd => ?_
  rw [Message.order?_of_isInert (inert d hd), Option.map_none]

/-- Everybody who is written to gets the same message. -/
theorem message_of_mem_toHosts {d : Directory} {hosts : List String} {m : Message Float}
    {x : Dispatch} (h : x ∈ toHosts d hosts m) : x.2 = m := by
  rw [toHosts_eq] at h
  obtain ⟨key, -, rfl⟩ := List.mem_map.mp h
  rfl

/-- One message to some hosts is one order to each of them, or none at all. -/
theorem ordersIn_toHosts (d : Directory) (hosts : List String) (m : Message Float) (w : Work)
    (id : InstId) :
    ordersIn (toHosts d hosts m) w id =
      match m.order? w id with
      | some o => (d.keys hosts).map fun key => (key, o)
      | none => [] := by
  rw [toHosts_eq, ordersIn, List.filterMap_map]
  cases hm : m.order? w id with
  | none => simp [hm]
  | some o => simp [hm]

/-- The stops for one id are orders for that id alone, one for each host under its key. -/
theorem ordersIn_stops (c : Coordinator) (id id' : InstId) (hosts : Work → List String)
    (w : Work) :
    ordersIn (c.stops id' hosts) w id =
      if id' = id then ((c.registry.directory w).keys (hosts w)).map fun key => (key, .stop)
      else [] := by
  rw [stops, ordersIn_append, ordersIn_toHosts, ordersIn_toHosts, Message.order?_disable,
    Message.order?_disable]
  by_cases hId : id' = id <;> cases w <;> simp [hId, Registry.directory]

/-! ## The end of a creation -/

/-- Of two records stored under one number in turn the later one counts. -/
theorem store_store (c : Coordinator) (i : Instrumentation) {j : Instrumentation}
    (same : j.id = i.id) : (c.store i).store j = c.store j := by
  simp only [store, same, Table.insert_insert]

/-- Storing a record and ending its creation, if nobody is still to answer. -/
theorem settle_store (c : Coordinator) (i : Instrumentation)
    (sorted : c.instrumentations.Ascending) :
    (c.store i).settle i.id =
      { coordinator := (c.relieve i.relieved).store i.settled
        sent := c.stops i.id i.relieved
        answered := i.verdict } := by
  have hFind : (c.store i).instrumentations.find? i.id = some i :=
    Table.find?_alter_self sorted _ _
  simp only [settle, hFind]
  -- the guard of the program is the negation of `isDecided`
  by_cases hDecided : i.isDecided = true
  · have hGuard : ¬ (i.stage ≠ .creating ∨ i.waiting = true) := by
      simpa [Instrumentation.isDecided] using hDecided
    rw [if_neg hGuard]
    cases hFail : i.failure? with
    | none =>
      have hRelieved : i.relieved = fun _ => [] := by
        funext w
        simp [Instrumentation.relieved, Instrumentation.fails, hFail]
      have hSettled : i.settled = { i with stage := .enabled, pending := none } := by
        simp [Instrumentation.settled, hDecided, hFail]
      have hVerdict : i.verdict = (i.pending.map fun ticket => (ticket, .ok i.id)).toList := by
        simp [Instrumentation.verdict, hDecided, hFail]
      -- the record is stored with its acknowledgement and once more when the creation ends
      have hStore := store_store c i (j := { i with stage := .enabled, pending := none }) rfl
      rw [hRelieved, relieve_nothing, hSettled, hVerdict, ← hStore]
      rfl
    | some reason =>
      have hRelieved : i.relieved = i.hosts (· ≠ .failed) := by
        funext w
        simp [Instrumentation.relieved, Instrumentation.fails, hFail, hDecided]
      have hSettled : i.settled = { i with stage := .failed, pending := none } := by
        simp [Instrumentation.settled, hDecided, hFail]
      have hVerdict : i.verdict =
          (i.pending.map fun ticket => (ticket, .error (.enableFailed reason))).toList := by
        simp [Instrumentation.verdict, hDecided, hFail]
      have hStore := store_store (c.relieve (i.hosts (· ≠ .failed))) i
        (j := { i with stage := .failed, pending := none }) rfl
      rw [hRelieved, hSettled, hVerdict, ← hStore]
      rfl
  · have hGuard : i.stage ≠ .creating ∨ i.waiting = true := by
      by_contra hNot
      simp only [not_or, not_not, Bool.not_eq_true] at hNot
      exact hDecided (by simp [Instrumentation.isDecided, hNot.1, hNot.2])
    have hRelieved : i.relieved = fun _ => [] := by
      funext w
      simp [Instrumentation.relieved, Instrumentation.fails, hDecided]
    have hVerdict : i.verdict = [] := by simp [Instrumentation.verdict, hDecided]
    rw [if_pos hGuard, hRelieved, relieve_nothing, hVerdict,
      Instrumentation.settled_of_not_decided (Bool.not_eq_true _ ▸ hDecided)]
    rfl

/-! ## The end of the waiting time -/

/-- A record expires if it is still being created when its deadline comes. -/
theorem isExpired_iff {i : Instrumentation} {now : Nat} :
    isExpired now i = true ↔ i.stage = .creating ∧ i.deadline ≤ now := by
  simp only [isExpired, Bool.and_eq_true, decide_eq_true_eq]

/-- Ending several creations one after the other, whatever was done before. -/
theorem foldl_expireOne (is : List Instrumentation) (t : Turn)
    (sorted : t.coordinator.instrumentations.Ascending) :
    is.foldl (fun t i => t.andThen fun c => c.expireOne i) t =
      { coordinator :=
          { t.coordinator.relieve (fun w => is.flatMap (·.timeOut.relieved w)) with
            instrumentations := is.foldl (fun u i => u.insert i.id i.timeOut.settled)
              t.coordinator.instrumentations }
        sent := t.sent ++ is.flatMap fun i => t.coordinator.stops i.id i.timeOut.relieved
        answered := t.answered ++ is.flatMap (·.timeOut.verdict) } := by
  induction is generalizing t with
  | nil => simp [relieve_nothing]
  | cons i rest ih =>
    have hOne : t.coordinator.expireOne i = _ := settle_store t.coordinator i.timeOut sorted
    have hId : i.timeOut.settled.id = i.id := congrArg (·.1) (Instrumentation.fixed_settled _)
    rw [List.foldl_cons, ih _ (by
      rw [Turn.andThen, hOne]
      exact Table.ascending_insert sorted _ _)]
    -- who is told to stop is a matter of the keys, and these are not touched
    have hStops : ∀ j : Instrumentation,
        ((t.coordinator.relieve i.timeOut.relieved).store i.timeOut.settled).stops j.id
          j.timeOut.relieved = t.coordinator.stops j.id j.timeOut.relieved :=
      fun j => stops_relieve t.coordinator j.id i.timeOut.relieved j.timeOut.relieved
    simp only [Turn.andThen, hOne, List.flatMap_cons, List.foldl_cons, List.append_assoc, hStops]
    simp only [store, hId, ← relieve_relieve]
    rfl

/-- **The end of the waiting time.** All creations that are out of time end, each as its own
record says; every other record stays. -/
theorem expire_eq (c : Coordinator) (now : Nat) (sorted : c.instrumentations.Ascending)
    (numbered : ∀ id i, c.instrumentations.find? id = some i → i.id = id) :
    c.expire now =
      { coordinator :=
          { c.relieve (fun w => (c.expired now).flatMap (·.timeOut.relieved w)) with
            instrumentations :=
              changeWhere (isExpired now) (·.timeOut.settled) c.instrumentations }
        sent := (c.expired now).flatMap fun i => c.stops i.id i.timeOut.relieved
        answered := (c.expired now).flatMap (·.timeOut.verdict) } := by
  rw [expire, foldl_expireOne _ _ sorted]
  have hTable := Table.foldl_insert_filter sorted numbered (isExpired now) (·.timeOut.settled)
  simp only [Turn.quiet, List.nil_append, changeWhere, ← hTable]
  rfl

/-! ## Acknowledgements -/

/-- A participant acknowledges that it has started, or that it has not. -/
def acknowledge (c : Coordinator) (w : Work) (h : String) (id : InstId) (s : AckStatus) : Turn :=
  match w with
  | .instrumentation => c.instrumenterAck h id s
  | .aggregation => c.aggregatorAck h id s

/-- The record that an acknowledgement changes: one that has not failed and waits for its
sender. -/
def heard? (c : Coordinator) (w : Work) (h : String) (id : InstId) : Option Instrumentation :=
  (c.instrumentations.find? id).filter fun i =>
    i.stage ≠ .failed && i.ackOf w h = some .unknown

/-- The hosts released when a participant acknowledges: itself, if it has not started. -/
def refused (w : Work) (h : String) (s : AckStatus) (w' : Work) : List String :=
  if w' = w ∧ s.isEnabled = false then [h] else []

/-- A word is heard if the record has not failed and the host's word is still open. -/
theorem heard?_eq_some {c : Coordinator} {w : Work} {h : String} {id : InstId}
    {i : Instrumentation} :
    c.heard? w h id = some i ↔ c.instrumentations.find? id = some i ∧ i.stage ≠ .failed ∧
      i.ackOf w h = some .unknown := by
  simp [heard?, Option.filter_eq_some_iff]

/-- An acknowledgement that counts enters the record, gives back the load of a sender that has
not started, and ends the creation if it was the last one. Any other changes nothing. -/
theorem acknowledge_eq (c : Coordinator) (w : Work) (h : String) (id : InstId) (s : AckStatus) :
    c.acknowledge w h id s =
      match c.heard? w h id with
      | some i => ((c.relieve (refused w h s)).store (i.setAck (ackState s) w h)).settle id
      | none => .quiet c := by
  -- a sender that has started keeps its load, any other gives it back
  have hKeep : ∀ w, (if s.isEnabled = true then c.registry.directory w
      else (c.registry.directory w).release h) =
        (c.registry.directory w).releaseAll (refused w h s w) := by
    intro w
    cases hs : s.isEnabled <;> simp [refused, hs, Directory.releaseAll]
  cases w with
  | instrumentation =>
    rw [acknowledge, instrumenterAck, heard?]
    cases hFind : c.instrumentations.find? id with
    | none => rfl
    | some i =>
      by_cases hGuard : i.stage = .failed ∨ i.instrumenterAcks.find? h ≠ some .unknown
      · have hFilter :
            (i.stage ≠ .failed && i.ackOf .instrumentation h = some .unknown) = false := by
          rcases hGuard with hs | ha
          · simp [hs]
          · simp [Instrumentation.ackOf, ha]
        simp only [Option.filter, hGuard, hFilter]
        rfl
      · have hFilter :
            (i.stage ≠ .failed && i.ackOf .instrumentation h = some .unknown) = true := by
          simp only [not_or, not_not] at hGuard
          simp [hGuard.1, Instrumentation.ackOf, hGuard.2]
        simp only [Option.filter, if_neg hGuard, hFilter]
        have := hKeep .instrumentation
        simp only [Registry.directory] at this
        rw [this]
        rfl
  | aggregation =>
    rw [acknowledge, aggregatorAck, heard?]
    cases hFind : c.instrumentations.find? id with
    | none => rfl
    | some i =>
      by_cases hGuard : i.stage = .failed ∨ i.aggregator ≠ h ∨ i.aggregatorAck ≠ .unknown
      · have hFilter : (i.stage ≠ .failed && i.ackOf .aggregation h = some .unknown) = false := by
          rcases hGuard with hs | ha | ha
          · simp [hs]
          · simp [Instrumentation.ackOf, ha]
          · simp [Instrumentation.ackOf, ha]
        simp only [Option.filter, hGuard, hFilter]
        rfl
      · have hFilter : (i.stage ≠ .failed && i.ackOf .aggregation h = some .unknown) = true := by
          simp only [not_or, not_not] at hGuard
          simp [hGuard.1, Instrumentation.ackOf, hGuard.2.1, hGuard.2.2]
        simp only [Option.filter, if_neg hGuard, hFilter]
        have := hKeep .aggregation
        simp only [Registry.directory] at this
        rw [this]
        rfl

/-- An acknowledgement that counts, with the end of the creation if it was the last one. -/
theorem acknowledge_heard {c : Coordinator} (sorted : c.instrumentations.Ascending)
    (numbered : ∀ id i, c.instrumentations.find? id = some i → i.id = id) {w : Work} {h : String}
    {id : InstId} {i : Instrumentation} (heard : c.heard? w h id = some i) (s : AckStatus) :
    let j := i.setAck (ackState s) w h
    c.acknowledge w h id s =
      { coordinator := (c.relieve fun w' => refused w h s w' ++ j.relieved w').store j.settled
        sent := c.stops id j.relieved
        answered := j.verdict } := by
  intro j
  have hId : j.id = id :=
    (congrArg (·.1) (Instrumentation.fixed_setAck i _ w h)).trans
      (numbered id i (heard?_eq_some.mp heard).1)
  have hSettle := settle_store (c.relieve (refused w h s)) j sorted
  rw [hId, stops_relieve, relieve_relieve] at hSettle
  rw [acknowledge_eq, heard]
  exact hSettle

/-- A word that is not heard changes nothing and is not replied to. -/
theorem acknowledge_unheard {c : Coordinator} {w : Work} {h : String} {id : InstId}
    (unheard : c.heard? w h id = none) (s : AckStatus) : c.acknowledge w h id s = .quiet c := by
  rw [acknowledge_eq, unheard]

/-! ## Notices -/

/-- Has a participant that comes online to be told of an instrumentation? -/
def owes (w : Work) (h : String) (o : OnlineOutcome) (i : Instrumentation) : Bool :=
  match w with
  | .instrumentation => owesInstrumenter h o i
  | .aggregation => decide (o = .restarted) && owesAggregator h i

/-- The coordinator with another directory of one kind and another catalog. -/
def withDirectory (c : Coordinator) (w : Work) (d : Directory) (catalog : Catalog) : Coordinator :=
  match w with
  | .instrumentation =>
    { c with registry := { c.registry with instrumenters := d, catalog := catalog } }
  | .aggregation =>
    { c with registry := { c.registry with aggregators := d, catalog := catalog } }

/-- A participant comes online: it is entered without a load, told of everything it is owed, and
its word on that is forgotten. -/
def welcome (c : Coordinator) (w : Work) (r : AgentRecord) (catalog : Catalog) : Turn :=
  let d := c.registry.directory w
  let owes := owes w r.hostname (Registry.outcome d r.hostname)
  let owed := c.instrumentations.values.filter owes
  let entered := (d.enter r).acquireAll (owed.map fun _ => r.hostname)
  { coordinator := { c.withDirectory w entered catalog with
      instrumentations := changeWhere owes (·.setAck .unknown w r.hostname) c.instrumentations }
    sent := owed.map fun i => (r.routingKey, i.command w)
    answered := [] }

/-- An instrumenter is welcomed with what it offers merged into the catalog. -/
theorem instrumenterOnline_eq (c : Coordinator) (h source : String) (agent : AgentInfo)
    (modules : Catalog) (now : Timestamp) :
    c.instrumenterOnline h source agent modules now =
      c.welcome .instrumentation ⟨h, source, agent, Catalog.statCount modules, 0, now⟩
        (c.registry.catalog.merge modules) := rfl

/-- An aggregator, which offers nothing, is welcomed with the catalog as it is. -/
theorem aggregatorOnline_eq (c : Coordinator) (h source : String) (agent : AgentInfo)
    (now : Timestamp) :
    c.aggregatorOnline h source agent now =
      c.welcome .aggregation ⟨h, source, agent, 0, 0, now⟩ c.registry.catalog := rfl

/-- The catalog after an envelope: an instrumenter that comes online lists what it offers. -/
def listed (c : Coordinator) (e : Envelope Float) : Catalog :=
  match e.message with
  | .instrumenterOnline _ modules => c.registry.catalog.merge modules
  | _ => c.registry.catalog

/-- An envelope is a notice, an acknowledgement of a command to start, or it leaves the coordinator
as it is and is answered with nothing that tells anybody anything. -/
theorem handle_cases (c : Coordinator) (e : Envelope Float) (now : Timestamp) :
    (∃ w r, e.arrival? now w = some r ∧ (∀ w', w' ≠ w → e.arrival? now w' = none) ∧
      c.handle e now = c.welcome w r (c.listed e)) ∨
    (∃ w id s error, e.message = .ack .enable w id s error ∧
      c.handle e now = c.acknowledge w e.hostname id s) ∨
    ((∀ w, e.arrival? now w = none) ∧ (∀ w id s error, e.message ≠ .ack .enable w id s error) ∧
      ∃ replies, c.handle e now = ⟨c, replies, []⟩ ∧ ∀ d ∈ replies, d.2.isInert = true) := by
  obtain ⟨source, hostname, m⟩ := e
  cases m with
  | instrumenterOnline agent modules =>
    refine .inl ⟨.instrumentation, _, rfl, ?_, c.instrumenterOnline_eq ..⟩
    intro w' hw
    cases w' with
    | instrumentation => exact absurd rfl hw
    | aggregation => rfl
  | aggregatorOnline agent =>
    refine .inl ⟨.aggregation, _, rfl, ?_, c.aggregatorOnline_eq ..⟩
    intro w' hw
    cases w' with
    | instrumentation => rfl
    | aggregation => exact absurd rfl hw
  | ack action w id s error =>
    cases action with
    | enable =>
      refine .inr (.inl ⟨w, id, s, error, rfl, ?_⟩)
      cases w <;> rfl
    | disable => exact .inr (.inr ⟨by rintro ⟨⟩ <;> rfl, by simp, [], rfl, by simp⟩)
  | ping =>
    exact .inr (.inr ⟨by rintro ⟨⟩ <;> rfl, by simp, _, rfl, by simp [Message.isInert]⟩)
  | status =>
    exact .inr (.inr ⟨by rintro ⟨⟩ <;> rfl, by simp, _, rfl, by simp [Message.isInert]⟩)
  | _ => exact .inr (.inr ⟨by rintro ⟨⟩ <;> rfl, by simp, [], rfl, by simp⟩)

/-! ## Requests -/

/-- The aggregator that a request is launched on, unless it is refused. -/
def chosen? (c : Coordinator) (s : Spec) : Option AgentRecord :=
  if (c.fault? s).isSome then none else c.registry.aggregators.leastLoaded?

/-- The aggregator that is chosen is a registered one. -/
theorem find?_of_chosen? {c : Coordinator} {s : Spec} {a : AgentRecord}
    (h : c.chosen? s = some a) : c.registry.aggregators.find? a.hostname = some a := by
  unfold chosen? at h
  split at h
  · cases h
  · exact Directory.find?_leastLoaded? h

/-- What is wrong with a request is that it is not valid. -/
theorem validation_of_fault? {c : Coordinator} {s : Spec} {e : RequestError}
    (fault : c.fault? s = some e) : ∃ reason, e = .validation reason := by
  unfold fault? at fault
  split at fault
  · exact ⟨_, (Option.some.inj fault).symm⟩
  · split at fault
    · exact ⟨_, (Option.some.inj fault).symm⟩
    · split at fault
      · exact ⟨_, (Option.some.inj fault).symm⟩
      · obtain ⟨m, -, hm⟩ := Option.map_eq_some_iff.mp fault
        exact ⟨_, hm.symm⟩

/-- An aggregator is chosen only for a request without a fault. -/
theorem fault?_of_chosen? {c : Coordinator} {s : Spec} {a : AgentRecord}
    (chosen : c.chosen? s = some a) : c.fault? s = none := by
  unfold chosen? at chosen
  split at chosen
  · cases chosen
  · next accepted => simpa using accepted

/-- A request is refused without a trace, or launched on the chosen aggregator. -/
theorem create_eq (c : Coordinator) (s : Spec) (ticket : Ticket) (now : Nat) :
    (c.chosen? s = none ∧ ∃ e, c.create s ticket now = ⟨c, [], [(ticket, .error e)]⟩) ∨
    ∃ a, c.chosen? s = some a ∧ c.create s ticket now = c.launch s ticket now a := by
  unfold create chosen?
  cases hFault : c.fault? s with
  | some e => exact .inl ⟨rfl, e, rfl⟩
  | none =>
    unfold Registry.selectAggregator
    cases hLeast : c.registry.aggregators.leastLoaded? with
    | none => exact .inl ⟨rfl, _, rfl⟩
    | some a => exact .inr ⟨a, rfl, rfl⟩

/-- A request for which an aggregator is chosen is launched there. -/
theorem create_of_chosen {c : Coordinator} {s : Spec} {a : AgentRecord}
    (chosen : c.chosen? s = some a) (ticket : Ticket) (now : Nat) :
    c.create s ticket now = c.launch s ticket now a := by
  rcases c.create_eq s ticket now with ⟨hNone, -⟩ | ⟨a', hSome, hCreate⟩
  · rw [hNone] at chosen
    cases chosen
  · obtain rfl : a = a' := Option.some.inj (chosen.symm.trans hSome)
    exact hCreate

/-- A launch enters a new record, loads everybody it tells, and tells the aggregator and every
known instrumenter to start. -/
theorem launch_eq (c : Coordinator) (s : Spec) (ticket : Ticket) (now : Nat) {a : AgentRecord}
    (known : c.registry.aggregators.find? a.hostname = some a) :
    let i := c.newRecord s ticket now a.hostname
    let told := c.addressees a.hostname
    c.launch s ticket now a =
      { coordinator := { (c.withLoads (c.registry.aggregators.acquireAll (told .aggregation))
          (c.registry.instrumenters.acquireAll (told .instrumentation))).store i with
            nextId := c.nextId + 1 }
        sent := toHosts c.registry.aggregators (told .aggregation) (i.command .aggregation) ++
          toHosts c.registry.instrumenters (told .instrumentation) (i.command .instrumentation)
        answered := [] } := by
  intro i told
  have hAgg : toHosts c.registry.aggregators (told .aggregation) (i.command .aggregation) =
      [(a.routingKey, i.command .aggregation)] := by
    simp [told, addressees, toHosts, known]
  have hIns : toHosts c.registry.instrumenters (told .instrumentation)
      (i.command .instrumentation) =
        c.registry.instrumenters.records.map fun r => (r.routingKey, i.command .instrumentation) :=
    toHosts_all _ _
  rw [hAgg, hIns]
  rfl

/-- The hosts released when an instrumentation is deleted: all that work on it, if it has not
failed. -/
def held (i : Instrumentation) (w : Work) : List String :=
  if i.stage = .failed then [] else i.hosts (fun a => !a.isFailure) w

/-- The release for a deleted record relieves the hosts it has put load on. -/
theorem releaseFor_eq (c : Coordinator) (i : Instrumentation) :
    c.releaseFor i = c.relieve (held i) := by
  unfold releaseFor held
  split
  · rfl
  · rfl

/-- A deletion drops the record, releases whoever works on it, and tells its aggregator and every
known instrumenter to stop. -/
theorem delete_eq (c : Coordinator) {id : InstId} {i : Instrumentation}
    (found : c.instrumentations.find? id = some i) :
    ∃ t, c.delete id = .ok t ∧
      t.coordinator = { c.relieve (held i) with instrumentations := c.instrumentations.erase id } ∧
      t.answered = (i.pending.map fun ticket => (ticket, .error (.cancelled id))).toList ∧
      (∀ d ∈ t.sent, ∃ w, d.2 = .disable w id) ∧
      ∀ w id', ordersIn t.sent w id' =
        if id = id' then
          ((c.registry.directory w).keys (c.addressees i.aggregator w)).map fun key => (key, .stop)
        else [] := by
  unfold delete
  rw [found]
  refine ⟨_, rfl, by rw [releaseFor_eq], rfl, fun d hd => ?_, fun w id' => ?_⟩
  · rcases List.mem_append.mp hd with h | h
    · obtain ⟨r, -, rfl⟩ := List.mem_map.mp h
      exact ⟨.instrumentation, rfl⟩
    · exact ⟨.aggregation, message_of_mem_toHosts h⟩
  dsimp only
  rw [← toHosts_all, ordersIn_append, ordersIn_toHosts, ordersIn_toHosts, Message.order?_disable,
    Message.order?_disable]
  by_cases hId : id = id' <;> cases w <;> simp [hId, Registry.directory, addressees]

/-- An id that is not known cannot be deleted. -/
theorem delete_unknown (c : Coordinator) {id : InstId}
    (missing : c.instrumentations.find? id = none) : c.delete id = .error (.notFound id) := by
  unfold delete
  rw [missing]

/-! ## Every event -/

/-- What a coordinator makes of an event as a whole, one case for each thing that can happen. -/
inductive Responds (c : Coordinator) : Event → Turn → Prop
  | refused {s : Spec} {ticket : Ticket} {now : Nat} {e : RequestError}
      (unplaced : c.chosen? s = none) :
      Responds c (.create s ticket now) ⟨c, [], [(ticket, .error e)]⟩
  | launched {s : Spec} {ticket : Ticket} {now : Nat} {a : AgentRecord}
      (chosen : c.chosen? s = some a) :
      Responds c (.create s ticket now) (c.launch s ticket now a)
  | missing {id : InstId} (missing : c.instrumentations.find? id = none) :
      Responds c (.delete id) (.quiet c)
  | deleted {id : InstId} {i : Instrumentation} {t : Turn}
      (found : c.instrumentations.find? id = some i)
      (after : t.coordinator =
        { c.relieve (held i) with instrumentations := c.instrumentations.erase id })
      (stops : ∀ d ∈ t.sent, ∃ w, d.2 = .disable w id) :
      Responds c (.delete id) t
  | swept {now : Nat} :
      Responds c (.expire now)
        { coordinator :=
            { c.relieve (fun w => (c.expired now).flatMap (·.timeOut.relieved w)) with
              instrumentations :=
                changeWhere (isExpired now) (·.timeOut.settled) c.instrumentations }
          sent := (c.expired now).flatMap fun i => c.stops i.id i.timeOut.relieved
          answered := (c.expired now).flatMap (·.timeOut.verdict) }
  | welcomed {e : Envelope Float} {now : Timestamp} {w : Work} {r : AgentRecord}
      (arrives : e.arrival? now w = some r) (others : ∀ w', w' ≠ w → e.arrival? now w' = none) :
      Responds c (.receive e now) (c.welcome w r (c.listed e))
  | unheard {e : Envelope Float} {now : Timestamp} {w : Work} {id : InstId} {s : AckStatus}
      {error : Option String} (message : e.message = .ack .enable w id s error)
      (unheard : c.heard? w e.hostname id = none) :
      Responds c (.receive e now) (.quiet c)
  | heard {e : Envelope Float} {now : Timestamp} {w : Work} {id : InstId} {s : AckStatus}
      {error : Option String} {i j : Instrumentation}
      (message : e.message = .ack .enable w id s error)
      (heard : c.heard? w e.hostname id = some i) (word : i.setAck (ackState s) w e.hostname = j) :
      Responds c (.receive e now)
        { coordinator :=
            (c.relieve fun w' => refused w e.hostname s w' ++ j.relieved w').store j.settled
          sent := c.stops id j.relieved
          answered := j.verdict }
  | silent {e : Envelope Float} {now : Timestamp} {replies : List Dispatch}
      (nobody : ∀ w, e.arrival? now w = none)
      (wordless : ∀ w id s error, e.message ≠ .ack .enable w id s error)
      (inert : ∀ d ∈ replies, d.2.isInert = true) :
      Responds c (.receive e now) ⟨c, replies, []⟩

/-- **Steps.** The turn that an event leads to is one of these. -/
theorem responds_step (c : Coordinator) (sorted : c.instrumentations.Ascending)
    (numbered : ∀ id i, c.instrumentations.find? id = some i → i.id = id) (x : Event) :
    c.Responds x (c.step x) := by
  cases x with
  | create s ticket now =>
    show c.Responds _ (c.create s ticket now)
    rcases c.create_eq s ticket now with ⟨hNone, e, hCreate⟩ | ⟨a, hSome, hCreate⟩
    · exact hCreate ▸ .refused hNone
    · exact hCreate ▸ .launched hSome
  | delete id =>
    cases hFind : c.instrumentations.find? id with
    | none =>
      rw [step, c.delete_unknown hFind]
      exact .missing hFind
    | some i =>
      obtain ⟨t, hDelete, hAfter, -, hStops, -⟩ := c.delete_eq hFind
      rw [step, hDelete]
      exact .deleted hFind hAfter hStops
  | expire now =>
    show c.Responds _ (c.expire now)
    rw [c.expire_eq now sorted numbered]
    exact .swept
  | receive e now =>
    show c.Responds _ (c.handle e now)
    rcases c.handle_cases e now with
      ⟨w, r, hSome, hOthers, hHandle⟩ | ⟨w, id, s, error, hMessage, hHandle⟩ |
      ⟨hNobody, hWordless, replies, hHandle, hInert⟩
    · exact hHandle ▸ .welcomed hSome hOthers
    · rw [hHandle]
      cases hHeard : c.heard? w e.hostname id with
      | none =>
        rw [acknowledge_unheard hHeard]
        exact .unheard hMessage hHeard
      | some i =>
        rw [acknowledge_heard sorted numbered hHeard]
        exact .heard hMessage hHeard rfl
    · exact hHandle ▸ .silent hNobody hWordless hInert

end Coordinator

end FleetMetrics
