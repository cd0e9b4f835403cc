import Mathlib
import FleetMetrics.Proofs.Coordinator.Change
import FleetMetrics.Proofs.Fleet.Duty
import FleetMetrics.Proofs.Fleet.Mail

/-!
# Runs of a fleet

A fleet runs from a coordinator alone: agents join under host names that are new for their kind,
and from then on anything may happen in any order. Agents announce themselves, once or again,
requests come in, time passes, samples change, instrumenters report, and whoever has mail reads
the oldest envelope of it. Nobody who has joined is replaced or loses its state.

`Fleet.Sound` is what holds all the time. Its core is that every link is sound; the rest says that
mail is what it seems to be, so that what happens in the fleet is what happens on the links.

Main results:

* `Fleet.Step`, `Fleet.Reachable` — what can happen.
* `Fleet.link` — the link of a host and an instrumentation, read off the fleet.
* `sound_quiet`, `sound_read` — a step that concerns no link, and an agent that reads, keep a fleet
  sound.
-/

namespace FleetMetrics

/-! ## What can happen -/

/-- One step of a fleet. -/
inductive Fleet.Step (f : Fleet) : Fleet → Prop
  | joinInstrumenter {hostname : String} {i : Instrumenter}
      (prepared : i.Prepared f.coordinator.keyBase hostname)
      (new : f.instrumenters.find? hostname = none) : Step f (f.addInstrumenter i)
  | joinAggregator (hostname : String) (retain : Nat)
      (new : f.aggregators.find? hostname = none) :
      Step f (f.addAggregator (.new f.coordinator.keyBase hostname retain))
  | announceInstrumenter (hostname : String) : Step f (f.announceInstrumenter hostname).fleet
  | announceAggregator (hostname : String) : Step f (f.announceAggregator hostname).fleet
  | create (s : Spec) (ticket : Ticket) (now : Nat) : Step f (f.create s ticket now).fleet
  | delete {id : InstId} {p : Progress} (done : f.delete id = .ok p) : Step f p.fleet
  | expire (now : Nat) : Step f (f.expire now).fleet
  | deliverCoordinator (now : Timestamp) : Step f (f.deliverCoordinator now).fleet
  | deliverInstrumenter (hostname : String) : Step f (f.deliverInstrumenter hostname).fleet
  | deliverAggregator (hostname : String) : Step f (f.deliverAggregator hostname).fleet
  | feed (hostname : String) (feed : Feed Float) : Step f (f.setFeed hostname feed)
  | report (hostname : String) (now : Timestamp) : Step f (f.report hostname now).1.fleet

/-- The fleets that a coordinator and agents get into. -/
inductive Fleet.Reachable (keyBase hostname : String) (ackTimeout : Nat) : Fleet → Prop
  | start : Reachable keyBase hostname ackTimeout (Fleet.new keyBase hostname ackTimeout).attend
  | step {f f' : Fleet} (reachable : Reachable keyBase hostname ackTimeout f) (step : f.Step f') :
      Reachable keyBase hostname ackTimeout f'

/-! ## Links of a fleet -/

/-- How a record stands with a host. -/
def Instrumentation.standing (i : Instrumentation) (w : Work) (h : String) : Standing :=
  if i.stage = .failed then .ended else .live (i.command w) (i.ackOf w h)

/-- How a number stands with a host. -/
def Coordinator.standing (c : Coordinator) (w : Work) (h : String) (id : InstId) : Standing :=
  match c.instrumentations.find? id with
  | some i => i.standing w h
  | none => if id < c.nextId then .ended else .unborn

/-- What an envelope says of the start of an instrumentation by a host, if anything. -/
def Envelope.answer? (e : Envelope Float) (w : Work) (h : String) (id : InstId) : Option Bool :=
  if e.hostname = h then e.message.answer? w id else none

namespace Fleet

/-- What the agent of a host does for an instrumentation. -/
def duty (f : Fleet) (w : Work) (h : String) (id : InstId) : Option Duty :=
  match w with
  | .instrumentation => (f.instrumenters.find? h).bind fun s => s.agent.duty id
  | .aggregation => (f.aggregators.find? h).bind fun s => s.agent.duty id

/-- What a command makes the agent of a host do. -/
def offer (f : Fleet) (w : Work) (h : String) (m : Message Float) : Option Duty :=
  match w with
  | .instrumentation => (f.instrumenters.find? h).bind fun s => s.agent.offer m
  | .aggregation => Aggregator.offer m

/-- The link of the coordinator and a host about an instrumentation. -/
def link (f : Fleet) (w : Work) (h : String) (id : InstId) : Link where
  standing := f.coordinator.standing w h id
  reachable := f.isReachable (.agent w h)
  offer := f.offer w h
  duty := f.duty w h id
  orders := (f.inbox (.agent w h)).filterMap (·.message.order? w id)
  answers := (f.inbox .coordinator).filterMap (·.answer? w h id)

/-- An envelope that is what it seems to be: notices come from hosts that are there, commands come
from the coordinator, and whoever is told to collect is told the key of the stream. -/
structure Proper (f : Fleet) (e : Envelope Float) : Prop where
  notice : ∀ now w r, e.arrival? now w = some r →
    e.source = f.keyOf (.agent w e.hostname) ∧ (f.boxOf (.agent w e.hostname)).isSome
  command : ∀ w id o, e.message.order? w id = some o → e.source = f.keyOf .coordinator
  stream : ∀ id key, e.message = .enableAggregation id key →
    key = Routing.stream f.coordinator.keyBase id

/-- Agents know who they are, and aggregators listen to the streams of their duties. -/
structure Staffed (f : Fleet) : Prop where
  instrumenters : ∀ h s, f.instrumenters.find? h = some s →
    s.agent.keyBase = f.coordinator.keyBase ∧ s.agent.hostname = h ∧
      s.agent.active.Ascending ∧ s.agent.Offers
  aggregators : ∀ h s, f.aggregators.find? h = some s →
    s.agent.keyBase = f.coordinator.keyBase ∧ s.agent.hostname = h ∧ s.agent.store.Ascending
  streams : ∀ h s, f.aggregators.find? h = some s → ∀ id key,
    s.agent.duty id = some (.collecting key) →
      key = Routing.stream f.coordinator.keyBase id ∧ s.box ∈ f.bus.bound key

/-- Instrumenters sign what they send. -/
theorem Staffed.envelope_instrumenter {f : Fleet} (staffed : f.Staffed) {h : String}
    {s : Station Instrumenter} (station : f.instrumenters.find? h = some s) (m : Message Float) :
    s.agent.envelope m = ⟨f.keyOf (.agent .instrumentation h), h, m⟩ := by
  obtain ⟨hBase, hHost, -, -⟩ := staffed.instrumenters h s station
  rw [Instrumenter.envelope, Instrumenter.routingKey, hBase, hHost]
  rfl

/-- Aggregators sign what they send. -/
theorem Staffed.envelope_aggregator {f : Fleet} (staffed : f.Staffed) {h : String}
    {s : Station (Aggregator Float)} (station : f.aggregators.find? h = some s)
    (m : Message Float) : s.agent.envelope m = ⟨f.keyOf (.agent .aggregation h), h, m⟩ := by
  obtain ⟨hBase, hHost, -⟩ := staffed.aggregators h s station
  rw [Aggregator.envelope, Aggregator.routingKey, hBase, hHost]
  rfl

/-- What holds of a fleet all the time. -/
structure Sound (f : Fleet) : Prop where
  wired : f.Wired
  coordinator : f.coordinator.Sound
  staffed : f.Staffed
  registered : ∀ w h r, (f.coordinator.registry.directory w).find? h = some r →
    r.routingKey = f.keyOf (.agent w h) ∧ (f.boxOf (.agent w h)).isSome
  mail : ∀ p, ∀ e ∈ f.inbox p, f.Proper e
  links : ∀ w h id, (f.link w h id).Sound

/-! ## Steps that keep the mailboxes -/

section Passes

variable {f f' : Fleet} {reader : Option Party} {envelope : Message Float → Envelope Float}
  {sent : List Dispatch}

/-- What is not read yet was in the mailbox. -/
theorem mem_of_mem_unread {p : Party} {e : Envelope Float} (h : e ∈ f.unread reader p) :
    e ∈ f.inbox p := by
  unfold unread at h
  split at h
  · exact List.mem_of_mem_tail h
  · exact h

theorem Passes.keyOf (hp : f.Passes reader envelope sent f') (p : Party) :
    f'.keyOf p = f.keyOf p := by
  rw [Fleet.keyOf, hp.keyBase, Fleet.keyOf]

theorem Passes.isReachable (hp : f.Passes reader envelope sent f') (p : Party) :
    f'.isReachable p = f.isReachable p := by
  rw [Fleet.isReachable, hp.boxes, hp.keyOf, Fleet.isReachable]

/-- What is proper stays so while nobody leaves. -/
theorem Proper.of_passes (hp : f.Passes reader envelope sent f') {e : Envelope Float}
    (proper : f.Proper e) : f'.Proper e where
  notice now w r h := by
    rw [hp.keyOf, hp.boxes]
    exact proper.notice now w r h
  command w id o h := by
    rw [hp.keyOf]
    exact proper.command w id o h
  stream id key h := by
    rw [hp.keyBase]
    exact proper.stream id key h

/-- All mail stays proper if what is sent is. -/
theorem Passes.mail (hp : f.Passes reader envelope sent f')
    (mail : ∀ p, ∀ e ∈ f.inbox p, f.Proper e) (proper : ∀ d ∈ sent, f.Proper (envelope d.2)) :
    ∀ p, ∀ e ∈ f'.inbox p, f'.Proper e := by
  intro p e he
  obtain ⟨arrives, -, hInbox⟩ := hp.inbox
  rw [hInbox] at he
  rcases List.mem_append.mp he with h | h
  · exact (mail p e (mem_of_mem_unread h)).of_passes hp
  · obtain ⟨d, hd, rfl⟩ := List.mem_map.mp h
    exact (proper d (List.mem_of_mem_filter hd)).of_passes hp

/-- What has been sent is under way, as far as it is of interest. -/
theorem Passes.filterMap_inbox (hp : f.Passes reader envelope sent f') {β : Type}
    (g : Envelope Float → Option β) (p : Party) :
    ∃ arrives : String → Bool,
      (∀ q, arrives (f.keyOf q) = (f.isReachable q && decide (q = p))) ∧
      (f'.inbox p).filterMap g = (f.unread reader p).filterMap g ++
        (sent.filter fun d => arrives d.1).filterMap fun d => g (envelope d.2) := by
  obtain ⟨arrives, hArrives, hInbox⟩ := hp.inbox
  refine ⟨arrives p, hArrives p, ?_⟩
  rw [hInbox, List.filterMap_append, List.filterMap_map]
  rfl

/-- If nothing of interest is sent, nothing more of it is under way. -/
theorem Passes.filterMap_inbox_of_silent (hp : f.Passes reader envelope sent f') {β : Type}
    {g : Envelope Float → Option β} (silent : ∀ d ∈ sent, g (envelope d.2) = none) (p : Party) :
    (f'.inbox p).filterMap g = (f.unread reader p).filterMap g := by
  obtain ⟨arrives, -, hInbox⟩ := hp.filterMap_inbox g p
  have hNil : (sent.filter fun d => arrives d.1).filterMap (fun d => g (envelope d.2)) = [] :=
    List.filterMap_eq_nil_iff.mpr fun d hd => silent d (List.mem_of_mem_filter hd)
  rw [hInbox, hNil, List.append_nil]

omit reader in
/-- What means nothing is proper, whoever sends it. -/
theorem proper_of_inert {m : Message Float} (inert : m.isInert = true)
    (envelopes : ∀ m, (envelope m).message = m) : f.Proper (envelope m) where
  notice now w r h := by
    have hNotInert := (Envelope.message_of_arrival h).1
    rw [envelopes, inert] at hNotInert
    cases hNotInert
  command w id o h := by
    rw [envelopes, Message.order?_of_isInert inert] at h
    cases h
  stream id key h := by
    rw [envelopes] at h
    rw [h] at inert
    cases inert

/-- A step that neither brings nor takes anything that a link is about keeps the fleet sound. -/
theorem sound_quiet (hf : f.Sound) (hp : f.Passes none envelope sent f')
    (coordinator : f'.coordinator = f.coordinator) (duty : ∀ w h, f'.duty w h = f.duty w h)
    (offer : ∀ w h, f'.offer w h = f.offer w h) (staffed : f'.Staffed)
    (silent : ∀ d ∈ sent, ∀ w id, d.2.order? w id = none ∧ d.2.answer? w id = none)
    (envelopes : ∀ m, (envelope m).message = m)
    (proper : ∀ d ∈ sent, f.Proper (envelope d.2)) : f'.Sound where
  wired := hp.wired
  coordinator := coordinator ▸ hf.coordinator
  staffed := staffed
  registered w h r hr := by
    rw [coordinator] at hr
    rw [hp.keyOf, hp.boxes]
    exact hf.registered w h r hr
  mail := hp.mail hf.mail proper
  links w h id := by
    have hOrders := hp.filterMap_inbox_of_silent (g := (·.message.order? w id))
      (fun d hd => by rw [envelopes]; exact (silent d hd w id).1) (.agent w h)
    have hAnswers := hp.filterMap_inbox_of_silent (g := (·.answer? w h id))
      (fun d hd => by
        rw [Envelope.answer?, envelopes, (silent d hd w id).2, ite_self]) .coordinator
    -- nothing that a link is made of has changed
    have hLink : f'.link w h id = f.link w h id := by
      simp only [link, coordinator, hp.isReachable, duty, offer, hOrders, hAnswers]
      rfl
    rw [hLink]
    exact hf.links w h id

/-! ## An agent reads -/

omit reader envelope in
/-- The answers of an agent reach the coordinator, if the agent is reached itself. -/
theorem isReachable_coordinator (hf : f.Wired) {w : Work} {h : String}
    (reachable : f.isReachable (.agent w h) = true) : f.isReachable .coordinator = true := by
  simp only [isReachable, Bool.and_eq_true] at reachable ⊢
  exact ⟨hf.present, Party.isValid_coordinator reachable.2⟩

/-- An agent that heeds its mail orders nothing of anybody. -/
theorem order?_eq_none_of_heeds {w : Work} {duty duty' : InstId → Option Duty}
    {offer : Message Float → Option Duty} {e : Envelope Float}
    (heeds : Heeds w offer duty duty' e sent) {d : Dispatch} (mem : d ∈ sent) (w' : Work)
    (id : InstId) : d.2.order? w' id = none := by
  rcases (heeds.sent d mem).2 with hInert | ⟨id', s, error, hAck⟩
  · exact Message.order?_of_isInert hInert w' id
  · rw [hAck]
    cases w' <;> rfl

/-- An agent that heeds its mail answers for its own kind alone. -/
theorem answer?_eq_none_of_heeds {w : Work} {duty duty' : InstId → Option Duty}
    {offer : Message Float → Option Duty} {e : Envelope Float}
    (heeds : Heeds w offer duty duty' e sent) {d : Dispatch} (mem : d ∈ sent) {w' : Work}
    (other : w' ≠ w) (id : InstId) : d.2.answer? w' id = none := by
  rcases (heeds.sent d mem).2 with hInert | ⟨id', s, error, hAck⟩
  · exact Message.answer?_of_isInert hInert w' id
  · rw [hAck, Message.answer?, if_neg fun h => other h.1.symm]

/-- What an agent answers is proper. -/
theorem proper_of_heeds {w : Work} {duty duty' : InstId → Option Duty}
    {offer : Message Float → Option Duty} {e : Envelope Float}
    (heeds : Heeds w offer duty duty' e sent) {d : Dispatch} (mem : d ∈ sent)
    (envelopes : ∀ m, (envelope m).message = m) : f.Proper (envelope d.2) where
  notice now w' r h := by
    obtain ⟨hNotInert, hNoAnswer, -⟩ := Envelope.message_of_arrival h
    rw [envelopes] at hNotInert hNoAnswer
    rcases (heeds.sent d mem).2 with hInert | ⟨id', s, error, hAck⟩
    · rw [hInert] at hNotInert
      cases hNotInert
    · have := hNoAnswer w id'
      rw [hAck, Message.answer?, if_pos ⟨rfl, rfl⟩] at this
      cases this
  command w' id o h := by
    rw [envelopes, order?_eq_none_of_heeds heeds mem] at h
    cases h
  stream id key h := by
    rw [envelopes] at h
    have hOrder := order?_eq_none_of_heeds heeds mem .aggregation id
    rw [h] at hOrder
    simp [Message.order?] at hOrder

section Reads

variable (hf : f.Sound) {w : Work} {h : String} {e : Envelope Float}
  (first : f.inbox (.agent w h) = e :: f.unread (some (.agent w h)) (.agent w h))
  (hp : f.Passes (some (.agent w h)) envelope sent f')
  (coordinator : f'.coordinator = f.coordinator)
  (heeds : Heeds w (f.offer w h) (f.duty w h) (f'.duty w h) e sent)
  (offer : ∀ w h, f'.offer w h = f.offer w h)
  (envelopes : ∀ m, (envelope m).message = m) (host : ∀ m, (envelope m).hostname = h)

include first in
/-- What an agent reads is the oldest of its orders, if it is one. -/
theorem orders_of_first (id : InstId) :
    (f.link w h id).orders = (e.message.order? w id).toList ++
      (f.unread (some (.agent w h)) (.agent w h)).filterMap (·.message.order? w id) := by
  show (f.inbox (.agent w h)).filterMap (·.message.order? w id) = _
  rw [first, List.filterMap_cons]
  cases e.message.order? w id <;> rfl

include hp heeds envelopes in
/-- Nobody gets orders from an agent. -/
theorem orders_of_read (w' : Work) (h' : String) (id : InstId) :
    (f'.link w' h' id).orders =
      (f.unread (some (.agent w h)) (.agent w' h')).filterMap (·.message.order? w' id) :=
  hp.filterMap_inbox_of_silent (fun d hd => by
    rw [envelopes]
    exact order?_eq_none_of_heeds heeds hd w' id) (.agent w' h')

include hf first hp heeds envelopes host in
/-- An agent that reads a command to start gets its answer through, and otherwise it gives none. -/
theorem answers_of_read (id : InstId) :
    ∃ said, (f'.link w h id).answers = (f.link w h id).answers ++ said ∧
      ((∀ m, e.message.order? w id ≠ some (.start m)) → said = []) ∧
      ∀ m, e.message.order? w id = some (.start m) →
        said = sent.filterMap (·.2.answer? w id) := by
  obtain ⟨arrives, hArrives, hAnswers⟩ := hp.filterMap_inbox (·.answer? w h id) .coordinator
  have hUnread : f.unread (some (.agent w h)) .coordinator = f.inbox .coordinator :=
    if_neg (by simp)
  have hSays : ∀ d : Dispatch, (envelope d.2).answer? w h id = d.2.answer? w id :=
    fun d => by rw [Envelope.answer?, host, if_pos rfl, envelopes]
  simp only [hSays, hUnread] at hAnswers
  refine ⟨_, hAnswers, fun hUnasked => ?_, fun m hOrder => ?_⟩
  · have hNone := List.filterMap_eq_nil_iff.mp (heeds.unasked id hUnasked)
    exact List.filterMap_eq_nil_iff.mpr fun d hd => hNone d (List.mem_of_mem_filter hd)
  · -- an order has come through, so the host is reached, and then so is the coordinator
    have hNear : f.isReachable (.agent w h) = true := by
      by_contra hFar
      rw [Bool.not_eq_true] at hFar
      have hNothing := ((hf.links w h id).unreachable hFar).2
      rw [orders_of_first first, hOrder] at hNothing
      cases hNothing
    have hProper := hf.mail (.agent w h) e (first ▸ List.mem_cons_self)
    have hAll : (sent.filter fun d => arrives d.1) = sent := by
      refine List.filter_eq_self.mpr fun d hd => ?_
      rw [(heeds.sent d hd).1, hProper.command w id _ hOrder, hArrives,
        isReachable_coordinator hf.wired hNear]
      rfl
    rw [hAll]

include hf first hp coordinator heeds offer envelopes host in
/-- On its own links the oldest order of the agent is gone, and the agent has acted on it. -/
theorem link_of_reader (id : InstId) : (f'.link w h id).Sound := by
  have hOld := hf.links w h id
  have hRead := orders_of_first first id
  have hOrders := orders_of_read hp heeds envelopes w h id
  obtain ⟨said, hAnswers, hQuiet, hAsked⟩ := answers_of_read hf first hp heeds envelopes host id
  have hDuty := heeds.duty id
  have hLink : f'.link w h id = { f.link w h id with
      duty := f'.duty w h id
      orders := (f'.link w h id).orders
      answers := (f'.link w h id).answers } := by
    simp only [link, coordinator, hp.isReachable, offer]
  rw [hLink, hOrders, hAnswers]
  -- the envelope leaves the head of the mail, so the order in it, if any, is carried out now
  cases hOrder : e.message.order? w id with
  | none =>
    rw [hOrder] at hRead hDuty
    rw [hQuiet (by simp [hOrder]), List.append_nil, hDuty]
    have hSame : (f.link w h id).orders = _ := hRead
    rw [Option.toList_none, List.nil_append] at hSame
    rw [← hSame]
    exact hOld
  | some o =>
    rw [hOrder] at hRead hDuty
    cases o with
    | start m =>
      obtain ⟨b, hAnswer, hStarted, hRefused⟩ := heeds.started id m hOrder
      rw [hAsked m hOrder, hAnswer, hDuty]
      rw [hDuty] at hStarted
      exact Link.sound_start hOld hRead hStarted hRefused
    | stop =>
      rw [hQuiet (by simp [hOrder]), List.append_nil, hDuty]
      exact Link.sound_stop hOld hRead

include hp coordinator heeds offer envelopes host in
/-- An agent that reads says and does nothing that concerns others. -/
theorem link_of_others {w' : Work} {h' : String} (other : ¬ (w' = w ∧ h' = h))
    (duty : f'.duty w' h' = f.duty w' h') (id : InstId) : f'.link w' h' id = f.link w' h' id := by
  obtain ⟨arrives, -, hAnswers⟩ := hp.filterMap_inbox (·.answer? w' h' id) .coordinator
  have hCoordinator : f.unread (some (.agent w h)) .coordinator = f.inbox .coordinator :=
    if_neg (by simp)
  have hUnread : f.unread (some (.agent w h)) (.agent w' h') = f.inbox (.agent w' h') := by
    refine if_neg fun hEq => other ?_
    simp only [Option.some.injEq, Party.agent.injEq] at hEq
    exact ⟨hEq.1.symm, hEq.2.symm⟩
  have hOrders := orders_of_read hp heeds envelopes w' h' id
  -- an agent signs with its own host and answers for its own kind of work
  have hNil : (sent.filter fun d => arrives d.1).filterMap
      (fun d => (envelope d.2).answer? w' h' id) = [] := by
    refine List.filterMap_eq_nil_iff.mpr fun d hd => ?_
    rw [Envelope.answer?, host, envelopes]
    split
    · next hh =>
      exact answer?_eq_none_of_heeds heeds (List.mem_of_mem_filter hd)
        (fun hw => other ⟨hw, hh.symm⟩) id
    · rfl
  rw [hCoordinator, hNil, List.append_nil] at hAnswers
  rw [hUnread] at hOrders
  have hSame : f'.link w' h' id = { f.link w' h' id with
      orders := (f'.link w' h' id).orders
      answers := (f'.link w' h' id).answers } := by
    simp only [link, coordinator, hp.isReachable, offer, duty]
  rw [hSame, hOrders, show (f'.link w' h' id).answers = _ from hAnswers]
  rfl

include hf first hp coordinator heeds offer envelopes host in
/-- **An agent reads its mail.** On the links of the agent the oldest order is gone, and on the one
that it was about the agent has acted on it; the other links are as they were. -/
theorem sound_read (others : ∀ w' h', ¬ (w' = w ∧ h' = h) → f'.duty w' h' = f.duty w' h')
    (staffed : f'.Staffed) : f'.Sound where
  wired := hp.wired
  coordinator := coordinator ▸ hf.coordinator
  staffed := staffed
  registered w h r hr := by
    rw [coordinator] at hr
    rw [hp.keyOf, hp.boxes]
    exact hf.registered w h r hr
  mail := hp.mail hf.mail fun d hd => proper_of_heeds heeds hd envelopes
  links w' h' id := by
    by_cases hHere : w' = w ∧ h' = h
    · obtain ⟨rfl, rfl⟩ := hHere
      exact link_of_reader hf first hp coordinator heeds offer envelopes host id
    · rw [link_of_others hp coordinator heeds offer envelopes host hHere (others w' h' hHere)]
      exact hf.links w' h' id

end Reads

end Passes

end Fleet

end FleetMetrics
