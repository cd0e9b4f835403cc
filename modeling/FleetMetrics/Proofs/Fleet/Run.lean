import Mathlib
import FleetMetrics.Proofs.Fleet.Command

/-!
# Every fleet is sound

A fleet starts sound and every step keeps it so. Most steps are one of three things that are known
by now: they concern no link, an agent reads, or something happens to the coordinator. What is
left is who joins, and what an aggregator that reads does to the bindings of its mailbox: it may
bind and unbind the keys of streams, which are no party's keys.

Main results:

* `sound_attend`, `sound_join` — a fleet starts sound, and stays so when somebody joins.
* `sound_step` — every step keeps a fleet sound.
* `sound_of_reachable` — every fleet that is reached is sound.
-/

namespace FleetMetrics

/-! ## The bindings of an aggregator -/

/-- An agent that only sends uses the bus as the coordinator does. -/
theorem Bus.perform_sends (b : Bus (Envelope Float)) (box : BoxId)
    (envelope : Message Float → Envelope Float) (sent : List (String × Message Float)) :
    b.perform box envelope (Aggregator.sends sent) = b.post envelope sent := by
  induction sent generalizing b with
  | nil => rfl
  | cons d rest ih =>
    simp only [Aggregator.sends, List.map_cons, perform, post]
    rw [← Aggregator.sends, ih]

/-- An aggregator that changes its duties and its bindings listens to the streams of its duties, if
it did before. Nothing changes for the keys of parties, nor for other mailboxes. -/
theorem Aggregator.Tunes.spec {before after : InstId → Option Duty} {m : Message Float}
    {tuning : List (Effect Float)} (tunes : Tunes before after m tuning) (base : String)
    {box : BoxId} {bus : Bus (Envelope Float)} (hb : bus.Sound) (live : bus.isLive box = true)
    (streams : ∀ id key, before id = some (.collecting key) →
      key = Routing.stream base id ∧ box ∈ bus.bound key)
    (told : ∀ id key, m = .enableAggregation id key → key = Routing.stream base id) :
    ∃ tuned : Bus (Envelope Float),
      (∀ envelope sent, bus.perform box envelope (tuning ++ sends sent) =
        tuned.post envelope sent) ∧
      tuned.Sound ∧ (∀ b, tuned.isLive b = bus.isLive b) ∧ (∀ b, tuned.queue b = bus.queue b) ∧
      (∀ (p : Party) b, b ∈ tuned.bound (p.key base) ↔ b ∈ bus.bound (p.key base)) ∧
      (∀ b, b ≠ box → ∀ key, b ∈ tuned.bound key ↔ b ∈ bus.bound key) ∧
      ∀ id key, after id = some (.collecting key) →
        key = Routing.stream base id ∧ box ∈ tuned.bound key := by
  cases tunes with
  | stay kept =>
    exact ⟨bus, fun envelope sent => bus.perform_sends box envelope sent, hb, fun _ => rfl,
      fun _ => rfl, fun _ _ => Iff.rfl, fun _ _ _ => Iff.rfl,
      fun id key h => streams id key (kept id _ h)⟩
  | take id key hTold kept =>
    have hKey := told id key hTold
    have hBound := Bus.mem_bound_bind hb.routes key box
    refine ⟨bus.bind key box,
      fun envelope sent => (bus.bind key box).perform_sends box envelope sent,
      Bus.sound_bind hb key live, bus.isLive_bind key box, bus.queue_bind key box,
      fun p b => ?_, fun b other key' => ?_, fun id' key' h => ?_⟩
    · rw [hBound]
      have hParty : p.key base ≠ key := hKey ▸ Party.key_ne_stream base p id
      simp [hParty]
    · rw [hBound]
      simp [other]
    · -- a duty it had before, or the new one, whose key has just been bound
      rcases kept id' _ h with hOld | ⟨rfl, hNew⟩
      · obtain ⟨hStream, hMem⟩ := streams id' key' hOld
        exact ⟨hStream, (hBound key' box).mpr (.inl hMem)⟩
      · cases hNew
        exact ⟨hKey, (hBound _ box).mpr (.inr ⟨rfl, rfl⟩)⟩
  | leave id key held kept =>
    have hKey := (streams id key held).1
    have hBound := Bus.mem_bound_unbind hb.routes key box
    refine ⟨bus.unbind key box,
      fun envelope sent => (bus.unbind key box).perform_sends box envelope sent,
      Bus.sound_unbind hb key box, bus.isLive_unbind key box, bus.queue_unbind key box,
      fun p b => ?_, fun b other key' => ?_, fun id' key' h => ?_⟩
    · rw [hBound]
      have hParty : p.key base ≠ key := hKey ▸ Party.key_ne_stream base p id
      simp [hParty]
    · rw [hBound]
      simp [other]
    · obtain ⟨hOld, hOther⟩ := kept id' _ h
      obtain ⟨hStream, hMem⟩ := streams id' key' hOld
      -- what is kept is another instrumentation's, so its key is another one
      refine ⟨hStream, (hBound key' box).mpr ⟨hMem, fun hSame => hOther ?_⟩⟩
      exact Routing.stream_injective (hStream.symm.trans (hSame.1.trans hKey))

namespace Fleet

/-! ## Who joins -/

/-- Nobody expects anything of a host that is not there. -/
theorem word_of_absent {f : Fleet} (hf : f.Sound) {w : Work} {h : String}
    (absent : f.boxOf (.agent w h) = none) (id : InstId) {m : Message Float} {a : Option AckState}
    (live : (f.link w h id).standing = .live m a) : a = none := by
  have hStanding : f.coordinator.standing w h id = .live m a := live
  cases hFind : f.coordinator.instrumentations.find? id with
  | none =>
    rw [Coordinator.standing_of_none hFind] at hStanding
    split at hStanding <;> cases hStanding
  | some i =>
    rw [Coordinator.standing_of_some hFind] at hStanding
    obtain ⟨-, -, rfl⟩ := Instrumentation.of_standing_live hStanding
    cases hAck : i.ackOf w h with
    | none => rfl
    | some a =>
      -- who takes part is registered, and who is registered is there
      obtain ⟨r, hr⟩ := Option.isSome_iff_exists.mp
        ((hf.coordinator.fits id i hFind).known w h a hAck)
      have hThere := (hf.registered w h r hr).2
      rw [absent] at hThere
      cases hThere

/-- **Somebody joins** with a mailbox of its own and without duties. -/
theorem sound_join {f f' : Fleet} (hf : f.Sound) {w : Work} {h : String}
    (absent : f.boxOf (.agent w h) = none) (keys : List String)
    (own : ∀ q, f.keyOf q ∈ keys ↔ q = .agent w h)
    (boxes : ∀ q, f'.boxOf q =
      if q = .agent w h then some (f.bus.openMailbox keys).1 else f.boxOf q)
    (bus : f'.bus = (f.bus.openMailbox keys).2) (coordinator : f'.coordinator = f.coordinator)
    (duty : ∀ w' h', f'.duty w' h' = f.duty w' h') (idle : ∀ id, f.duty w h id = none)
    (offer : ∀ w' h', ¬ (w' = w ∧ h' = h) → f'.offer w' h' = f.offer w' h')
    (staffed : (∀ key b, b ∈ f.bus.bound key → b ∈ f'.bus.bound key) → f'.Staffed) : f'.Sound := by
  have hBase : f'.coordinator.keyBase = f.coordinator.keyBase := by rw [coordinator]
  have hKey : ∀ q, f'.keyOf q = f.keyOf q := fun q => by rw [keyOf, hBase, keyOf]
  obtain ⟨hWired, hInbox, hBound⟩ := wired_join hf.wired absent own boxes hBase bus
  have hStays : ∀ q, (f.boxOf q).isSome → (f'.boxOf q).isSome := by
    intro q hq
    rw [boxes]
    split
    · rfl
    · exact hq
  refine ⟨hWired, coordinator ▸ hf.coordinator, staffed hBound, fun w' h' r hr => ?_,
    fun p e he => ?_, fun w' h' id => ?_⟩
  · rw [coordinator] at hr
    rw [hKey]
    exact ⟨(hf.registered w' h' r hr).1, hStays _ (hf.registered w' h' r hr).2⟩
  · rw [hInbox] at he
    have hProper := hf.mail p e he
    refine ⟨fun now w' r hr => ?_, fun w' id o ho => ?_, fun id key hMessage => ?_⟩
    · rw [hKey]
      exact ⟨(hProper.notice now w' r hr).1, hStays _ (hProper.notice now w' r hr).2⟩
    · rw [hKey]
      exact hProper.command w' id o ho
    · rw [hBase]
      exact hProper.stream id key hMessage
  · by_cases hNew : w' = w ∧ h' = h
    · -- the host that joins
      obtain ⟨rfl, rfl⟩ := hNew
      have hLink : f'.link w' h' id = { f.link w' h' id with
          reachable := f'.isReachable (.agent w' h')
          offer := f'.offer w' h' } := by
        simp only [link, coordinator, duty, hInbox]
      rw [hLink]
      refine Link.sound_join (hf.links w' h' id) (idle id) ?_
        (fun m a hLive => word_of_absent hf absent id hLive) _ _
      show (f.inbox (.agent w' h')).filterMap (·.message.order? w' id) = []
      rw [inbox_of_absent absent]
      rfl
    · -- everybody else
      have hOther : f'.boxOf (.agent w' h') = f.boxOf (.agent w' h') := by
        rw [boxes, if_neg]
        rintro ⟨⟩
        exact hNew ⟨rfl, rfl⟩
      have hLink : f'.link w' h' id = f.link w' h' id := by
        simp only [link, coordinator, isReachable, hOther, hKey, duty, offer w' h' hNew, hInbox]
      rw [hLink]
      exact hf.links w' h' id

/-- The coordinator attends, and nobody else is there. -/
theorem sound_attend (keyBase hostname : String) (ackTimeout : Nat) :
    (Fleet.new keyBase hostname ackTimeout).attend.Sound := by
  obtain ⟨hWired, hInbox⟩ := wired_attend keyBase hostname ackTimeout
  refine ⟨hWired, Coordinator.sound_new keyBase ackTimeout, ⟨nofun, nofun, nofun⟩,
    fun w h r hr => ?_, fun p e he => ?_, fun w h id => ?_⟩
  · cases w <;> cases hr
  · rw [hInbox] at he
    cases he
  · refine Link.sound_idle ⟨?_, ?_, ?_⟩ fun m a hLive => ?_
    · cases w <;> rfl
    · show (inbox _ _).filterMap _ = []
      rw [hInbox]
      rfl
    · show (inbox _ _).filterMap _ = []
      rw [hInbox]
      rfl
    · have hStanding : (Coordinator.new keyBase ackTimeout).standing w h id = .live m a := hLive
      rw [Coordinator.standing_of_none rfl] at hStanding
      split at hStanding <;> cases hStanding

/-! ## Steps that leave the agents as they are -/

/-- The same agents at the same mailboxes. -/
structure SameAgents (f f' : Fleet) : Prop where
  box : f'.box = f.box
  instrumenters : f'.instrumenters = f.instrumenters
  aggregators : f'.aggregators = f.aggregators

section SameAgents

variable {f f' : Fleet} (same : f.SameAgents f')

include same

/-- Every party has the mailbox that it had. -/
theorem SameAgents.boxOf (p : Party) : f'.boxOf p = f.boxOf p := by
  rcases p with _ | ⟨_ | _, h⟩
  · exact same.box
  · rw [Fleet.boxOf, same.instrumenters, Fleet.boxOf]
  · rw [Fleet.boxOf, same.aggregators, Fleet.boxOf]

/-- Every agent has the duties that it had. -/
theorem SameAgents.duty (w : Work) (h : String) : f'.duty w h = f.duty w h := by
  funext id
  cases w with
  | instrumentation => rw [Fleet.duty, same.instrumenters, Fleet.duty]
  | aggregation => rw [Fleet.duty, same.aggregators, Fleet.duty]

/-- Every agent offers what it offered. -/
theorem SameAgents.offer (w : Work) (h : String) : f'.offer w h = f.offer w h := by
  funext m
  cases w with
  | instrumentation => rw [Fleet.offer, same.instrumenters, Fleet.offer]
  | aggregation => rfl

/-- Agents that stay as they are need nothing but the bindings they have. -/
theorem SameAgents.staffed (staffed : f.Staffed)
    (keyBase : f'.coordinator.keyBase = f.coordinator.keyBase)
    (bound : ∀ key, f'.bus.bound key = f.bus.bound key) : f'.Staffed where
  instrumenters := by
    rw [same.instrumenters, keyBase]
    exact staffed.instrumenters
  aggregators := by
    rw [same.aggregators, keyBase]
    exact staffed.aggregators
  streams h s hs id key hDuty := by
    rw [same.aggregators] at hs
    rw [keyBase, bound]
    exact staffed.streams h s hs id key hDuty

end SameAgents

section Steps

variable {f : Fleet} (hf : f.Sound)

include hf

/-- What the coordinator does without reading keeps the fleet sound. -/
theorem sound_conduct {x : Event} (unread : x.mail = []) :
    (f.conduct (f.coordinator.step x)).fleet.Sound := by
  have hSame : f.SameAgents (f.conduct (f.coordinator.step x)).fleet := ⟨rfl, rfl, rfl⟩
  have hBase := (Coordinator.frame_step hf.coordinator x).1
  have hPasses := passes_of_post hf.wired hSame.boxOf hBase rfl
  have hStaffed := hSame.staffed hf.staffed hBase (Bus.extends_post hf.wired.bus _ _).bound
  refine sound_event hf hPasses ?_ rfl hSame.duty hSame.offer hStaffed (by simp) (fun _ => rfl)
    fun _ => rfl
  rw [unread]
  rfl

/-- What the coordinator reads keeps the fleet sound. -/
theorem sound_deliverCoordinator (now : Timestamp) : (f.deliverCoordinator now).fleet.Sound := by
  unfold deliverCoordinator
  split
  · next e bus hReceived =>
    obtain ⟨b, hBox, hReceive⟩ := Option.bind_eq_some_iff.mp hReceived
    have hCoordinator : f.boxOf .coordinator = some b := hBox
    obtain ⟨hSound, hBound, -⟩ := Bus.receive?_eq_some hf.wired.bus hReceive
    have hSame : f.SameAgents ({ f with bus := bus }.coordinatorHandle now e).fleet :=
      ⟨rfl, rfl, rfl⟩
    have hBase := (Coordinator.frame_step hf.coordinator (.receive e now)).1
    have hPasses : f.Passes (some .coordinator) f.envelope
        (f.coordinator.step (.receive e now)).sent
        ({ f with bus := bus }.coordinatorHandle now e).fleet :=
      passes_of_receive hf.wired hCoordinator hReceive hSound (fun _ => rfl) (fun _ => rfl)
        (fun _ _ => Iff.rfl) hSame.boxOf hBase rfl
    have hStaffed := hSame.staffed hf.staffed hBase fun key =>
      ((Bus.extends_post hSound _ _).bound key).trans (hBound key)
    exact sound_event hf hPasses (inbox_of_receive hf.wired hCoordinator hReceive) rfl hSame.duty
      hSame.offer hStaffed (by simp) (fun _ => rfl) fun _ => rfl
  · exact hf

/-- A notice says who has written it. -/
theorem sound_notice {f' : Fleet} {w : Work} {h : String}
    {envelope : Message Float → Envelope Float}
    (own : ∀ m, envelope m = ⟨f.keyOf (.agent w h), h, m⟩) (d : Dispatch) (same : f.SameAgents f')
    (coordinator : f'.coordinator = f.coordinator)
    (posted : f'.bus = (f.bus.post envelope [d]).2)
    (silent : ∀ w id, d.2.order? w id = none ∧ d.2.answer? w id = none)
    (notice : ∀ now w' r, (envelope d.2).arrival? now w' = some r → w' = w)
    (there : (f.boxOf (.agent w h)).isSome) : f'.Sound := by
  have hBase : f'.coordinator.keyBase = f.coordinator.keyBase := by rw [coordinator]
  have hPasses := passes_of_post hf.wired same.boxOf hBase posted
  have hStaffed := same.staffed hf.staffed hBase fun key => by
    rw [posted, (Bus.extends_post hf.wired.bus _ _).bound]
  refine sound_quiet hf hPasses coordinator same.duty same.offer hStaffed ?_
    (fun m => by rw [own]) ?_
  · intro d' hd' w' id
    rw [List.mem_singleton.mp hd']
    exact silent w' id
  · intro d' hd'
    rw [List.mem_singleton.mp hd']
    refine ⟨fun now w' r hr => ?_, fun w' id o ho => ?_, fun id key hMessage => ?_⟩
    -- a notice is under the name and the key of its sender
    · obtain rfl := notice now w' r hr
      rw [own]
      exact ⟨rfl, there⟩
    · rw [own, (silent w' id).1] at ho
      cases ho
    · rw [own] at hMessage
      have hNone := (silent .aggregation id).1
      rw [show d.2 = _ from hMessage] at hNone
      simp [Message.order?] at hNone

/-- An instrumenter that announces itself keeps the fleet sound. -/
theorem sound_announceInstrumenter (h : String) : (f.announceInstrumenter h).fleet.Sound := by
  unfold announceInstrumenter
  split
  · next s hStation =>
    refine sound_notice hf (hf.staffed.envelope_instrumenter hStation) s.agent.announcement
      ⟨rfl, rfl, rfl⟩ rfl rfl (fun w _ => by cases w <;> exact ⟨rfl, rfl⟩)
      (fun now w' r hr => ?_) ?_
    · cases w' with
      | instrumentation => rfl
      | aggregation => cases hr
    · simp [boxOf, hStation]
  · exact hf

/-- An aggregator that announces itself keeps the fleet sound. -/
theorem sound_announceAggregator (h : String) : (f.announceAggregator h).fleet.Sound := by
  unfold announceAggregator
  split
  · next s hStation =>
    refine sound_notice hf (hf.staffed.envelope_aggregator hStation) s.agent.announcement
      ⟨rfl, rfl, rfl⟩ rfl rfl (fun w _ => by cases w <;> exact ⟨rfl, rfl⟩)
      (fun now w' r hr => ?_) ?_
    · cases w' with
      | instrumentation => cases hr
      | aggregation => rfl
    · simp [boxOf, hStation]
  · exact hf

/-- Other samples are nobody's business but the instrumenter's. -/
theorem sound_setFeed (h : String) (feed : Feed Float) : (f.setFeed h feed).Sound := by
  have hSame : f.SameAgents (f.setFeed h feed) := ⟨rfl, rfl, rfl⟩
  have hPasses : f.Passes none f.envelope [] (f.setFeed h feed) :=
    passes_of_post hf.wired hSame.boxOf rfl rfl
  exact sound_quiet hf hPasses rfl hSame.duty hSame.offer
    (hSame.staffed hf.staffed rfl fun _ => rfl) (by simp) (fun _ => rfl) (by simp)

end Steps

/-! ## An instrumenter's steps -/

section Instrumenters

variable {f f' : Fleet} {h : String} {s : Station Instrumenter} {after : Instrumenter}
  (station : f.instrumenters.find? h = some s)
  (instrumenters : f'.instrumenters = f.instrumenters.change h fun _ => after)
  (aggregators : f'.aggregators = f.aggregators)

include station in
theorem duty_instrumenter : f.duty .instrumentation h = s.agent.duty := by
  funext id
  simp [duty, station]

include station in
theorem offer_instrumenter : f.offer .instrumentation h = s.agent.offer := by
  funext m
  simp [offer, station]

include station instrumenters

/-- One instrumenter has changed, and no other. -/
theorem find?_instrumenters (h' : String) :
    f'.instrumenters.find? h' =
      if h' = h then some { s with agent := after } else f.instrumenters.find? h' := by
  rw [instrumenters, Crew.find?_change_of_find? station]

/-- As long as its metrics are the same, everybody offers what they offered. -/
theorem offer_of_instrumenter (metrics : after.metrics = s.agent.metrics) (w : Work) (h' : String) :
    f'.offer w h' = f.offer w h' := by
  funext m
  cases w with
  | instrumentation =>
    simp only [offer, find?_instrumenters station instrumenters]
    by_cases hh : h' = h
    · subst hh
      simp only [if_true, station, Option.bind_some]
      exact Instrumenter.offer_congr metrics m
    · simp [hh]
  | aggregation => rfl

include aggregators

/-- Only the duties of the instrumenter have changed. -/
theorem duty_of_instrumenter (w : Work) (h' : String) :
    f'.duty w h' = if w = .instrumentation ∧ h' = h then after.duty else f.duty w h' := by
  funext id
  cases w with
  | instrumentation =>
    simp only [duty, find?_instrumenters station instrumenters, true_and]
    split <;> rfl
  | aggregation => simp [duty, aggregators]

/-- The mailboxes belong to whom they belonged. -/
theorem boxOf_of_instrumenter (box : f'.box = f.box) (p : Party) : f'.boxOf p = f.boxOf p := by
  rcases p with _ | ⟨_ | _, h'⟩
  · exact box
  · simp only [boxOf, find?_instrumenters station instrumenters]
    by_cases hh : h' = h
    · simp [hh, station]
    · simp [hh]
  · simp only [boxOf, aggregators]

/-- An instrumenter that stays who it is, with the same metrics, leaves the fleet staffed as it was.
-/
theorem staffed_of_instrumenter (staffed : f.Staffed)
    (base : f'.coordinator.keyBase = f.coordinator.keyBase)
    (bound : ∀ key, f'.bus.bound key = f.bus.bound key)
    (keyBase : after.keyBase = s.agent.keyBase) (hostname : after.hostname = s.agent.hostname)
    (metrics : after.metrics = s.agent.metrics) (sorted : after.active.Ascending) : f'.Staffed where
  instrumenters h' s' hs' := by
    rw [base]
    rw [find?_instrumenters station instrumenters] at hs'
    split at hs'
    · next hh =>
      subst hh
      obtain ⟨hBase, hHost, -, hOffers⟩ := staffed.instrumenters h' s station
      rw [← Option.some.inj hs']
      exact ⟨keyBase.trans hBase, hostname.trans hHost, sorted, hOffers.congr metrics⟩
    · exact staffed.instrumenters h' s' hs'
  aggregators := by
    rw [aggregators, base]
    exact staffed.aggregators
  streams h' s' hs' id key hDuty := by
    rw [aggregators] at hs'
    rw [base, bound]
    exact staffed.streams h' s' hs' id key hDuty

variable (hf : f.Sound) (box : f'.box = f.box) (coordinator : f'.coordinator = f.coordinator)

include hf box coordinator

/-- An instrumenter that goes on with its duties has posted what tells nobody anything. -/
theorem sound_of_inert_post {sent : List Dispatch}
    (posted : f'.bus = (f.bus.post s.agent.envelope sent).2)
    (inert : ∀ d ∈ sent, d.2.isInert = true) (duty : after.duty = s.agent.duty)
    (keyBase : after.keyBase = s.agent.keyBase) (hostname : after.hostname = s.agent.hostname)
    (metrics : after.metrics = s.agent.metrics) (sorted : after.active.Ascending) : f'.Sound := by
  have hBase : f'.coordinator.keyBase = f.coordinator.keyBase := by rw [coordinator]
  have hPasses : f.Passes none s.agent.envelope sent f' :=
    passes_of_post hf.wired (boxOf_of_instrumenter station instrumenters aggregators box) hBase
      posted
  refine sound_quiet hf hPasses coordinator (fun w h' => ?_)
    (offer_of_instrumenter station instrumenters metrics)
    (staffed_of_instrumenter station instrumenters aggregators hf.staffed hBase
      (fun key => ?_) keyBase hostname metrics sorted)
    (fun d hd w id => ⟨Message.order?_of_isInert (inert d hd) w id,
      Message.answer?_of_isInert (inert d hd) w id⟩)
    (fun _ => rfl) fun d hd => proper_of_inert (inert d hd) fun _ => rfl
  · rw [duty_of_instrumenter station instrumenters aggregators]
    split
    · next hHere => rw [hHere.1, hHere.2, duty_instrumenter station, duty]
    · rfl
  · rw [posted, (Bus.extends_post hf.wired.bus _ _).bound]

/-- **An instrumenter reads its mail**, and posts what it answers. -/
theorem sound_of_instrumenter_read {e : Envelope Float} {bus : Bus (Envelope Float)}
    (received : f.bus.receive? s.box = some (e, bus)) (handled : after = (s.agent.handle e).1)
    (posted : f'.bus = (bus.post s.agent.envelope (s.agent.handle e).2).2) : f'.Sound := by
  have hBase : f'.coordinator.keyBase = f.coordinator.keyBase := by rw [coordinator]
  have hBox : f.boxOf (.agent .instrumentation h) = some s.box := by simp [boxOf, station]
  have hSorted := (hf.staffed.instrumenters h s station).2.2.1
  obtain ⟨hHeeds, hSorted', hBase', hHost', hMetrics⟩ := Instrumenter.heeds_handle hSorted e
  rw [← handled] at hHeeds hSorted' hBase' hHost' hMetrics
  obtain ⟨hSound, hBound, -⟩ := Bus.receive?_eq_some hf.wired.bus received
  have hPasses : f.Passes (some (.agent .instrumentation h)) s.agent.envelope
      (s.agent.handle e).2 f' :=
    passes_of_receive hf.wired hBox received hSound (fun _ => rfl) (fun _ => rfl)
      (fun _ _ => Iff.rfl) (boxOf_of_instrumenter station instrumenters aggregators box) hBase
      posted
  have hDuty := duty_of_instrumenter station instrumenters aggregators
  refine sound_read hf (inbox_of_receive hf.wired hBox received) hPasses coordinator ?_
    (offer_of_instrumenter station instrumenters hMetrics) (fun _ => rfl) (fun m => ?_)
    (fun w h' hOther => (hDuty w h').trans (if_neg hOther))
    (staffed_of_instrumenter station instrumenters aggregators hf.staffed hBase
      (fun key => ?_) hBase' hHost' hMetrics hSorted')
  · rw [hDuty, if_pos ⟨rfl, rfl⟩, offer_instrumenter station, duty_instrumenter station]
    exact hHeeds
  · rw [hf.staffed.envelope_instrumenter station]
  · rw [posted, (Bus.extends_post hSound _ _).bound, hBound]

end Instrumenters

section Instrumenters

variable {f : Fleet} (hf : f.Sound)

include hf

/-- A report keeps the fleet sound: its samples tell nobody to do anything. -/
theorem sound_report (h : String) (now : Timestamp) : (f.report h now).1.fleet.Sound := by
  unfold report
  split
  · next s hStation =>
    obtain ⟨hDuty, hSorted, hInert⟩ := s.agent.duty_report (f.feed h) now
    exact sound_of_inert_post hStation rfl rfl hf rfl rfl rfl hInert hDuty rfl rfl rfl
      (hSorted (hf.staffed.instrumenters h s hStation).2.2.1)
  · exact hf

/-- An instrumenter that takes an envelope out of its mailbox, if there is one, keeps the fleet
sound. -/
theorem sound_deliverInstrumenter (h : String) : (f.deliverInstrumenter h).fleet.Sound := by
  unfold deliverInstrumenter
  split
  · next e bus hReceived =>
    obtain ⟨s, hStation, hReceive⟩ := Option.bind_eq_some_iff.mp hReceived
    simp only [instrumenterHandle, hStation]
    exact sound_of_instrumenter_read hStation rfl rfl hf rfl rfl hReceive rfl rfl
  · exact hf

end Instrumenters

/-! ## An aggregator's steps -/

section Aggregators

variable {f f' : Fleet} {h : String} {s : Station (Aggregator Float)} {after : Aggregator Float}
  (station : f.aggregators.find? h = some s)
  (aggregators : f'.aggregators = f.aggregators.change h fun _ => after)
  (instrumenters : f'.instrumenters = f.instrumenters)

include station aggregators

/-- One aggregator has changed, and no other. -/
theorem find?_aggregators (h' : String) :
    f'.aggregators.find? h' =
      if h' = h then some { s with agent := after } else f.aggregators.find? h' := by
  rw [aggregators, Crew.find?_change_of_find? station]

include instrumenters

/-- Only the duties of the aggregator have changed. -/
theorem duty_of_aggregator (w : Work) (h' : String) :
    f'.duty w h' = if w = .aggregation ∧ h' = h then after.duty else f.duty w h' := by
  funext id
  cases w with
  | instrumentation => simp [duty, instrumenters]
  | aggregation =>
    simp only [duty, find?_aggregators station aggregators, true_and]
    split <;> rfl

theorem boxOf_of_aggregator (box : f'.box = f.box) (p : Party) : f'.boxOf p = f.boxOf p := by
  rcases p with _ | ⟨_ | _, h'⟩
  · exact box
  · simp only [boxOf, instrumenters]
  · simp only [boxOf, find?_aggregators station aggregators]
    by_cases hh : h' = h
    · simp [hh, station]
    · simp [hh]

/-- Every aggregator listens to the streams of its duties, the one that has changed as much as the
others, whose bindings are as they were. -/
theorem staffed_of_aggregator (hf : f.Sound)
    (base : f'.coordinator.keyBase = f.coordinator.keyBase)
    (keyBase : after.keyBase = s.agent.keyBase) (hostname : after.hostname = s.agent.hostname)
    (sorted : after.store.Ascending)
    (others : ∀ b, b ≠ s.box → ∀ key, b ∈ f'.bus.bound key ↔ b ∈ f.bus.bound key)
    (own : ∀ id key, after.duty id = some (.collecting key) →
      key = Routing.stream f.coordinator.keyBase id ∧ s.box ∈ f'.bus.bound key) : f'.Staffed where
  instrumenters := by
    rw [instrumenters, base]
    exact hf.staffed.instrumenters
  aggregators h' s' hs' := by
    rw [base]
    rw [find?_aggregators station aggregators] at hs'
    split at hs'
    · next hh =>
      subst hh
      obtain ⟨hBase, hHost, -⟩ := hf.staffed.aggregators h' s station
      rw [← Option.some.inj hs']
      exact ⟨keyBase.trans hBase, hostname.trans hHost, sorted⟩
    · exact hf.staffed.aggregators h' s' hs'
  streams h' s' hs' id key hDuty := by
    rw [base]
    rw [find?_aggregators station aggregators] at hs'
    split at hs'
    · obtain rfl := Option.some.inj hs'
      exact own id key hDuty
    · next hh =>
      obtain ⟨hStream, hMem⟩ := hf.staffed.streams h' s' hs' id key hDuty
      -- two aggregators have two mailboxes
      have hOther : s'.box ≠ s.box := by
        intro hSame
        have hParty := hf.wired.apart (.agent .aggregation h') (.agent .aggregation h) s.box
          (by simp [boxOf, hs', hSame]) (by simp [boxOf, station])
        injection hParty with _ hHost
        exact hh hHost
      exact ⟨hStream, (others _ hOther key).mpr hMem⟩

/-- **An aggregator reads its mail**, binds its mailbox or sets it free, and posts what it
answers. -/
theorem sound_of_aggregator_read (hf : f.Sound) (box : f'.box = f.box)
    (coordinator : f'.coordinator = f.coordinator) {e : Envelope Float}
    {bus : Bus (Envelope Float)} (received : f.bus.receive? s.box = some (e, bus))
    (handled : after = (s.agent.handle e).1)
    (posted : f'.bus = (bus.perform s.box s.agent.envelope (s.agent.handle e).2).2) :
    f'.Sound := by
  have hBase : f'.coordinator.keyBase = f.coordinator.keyBase := by rw [coordinator]
  have hBox : f.boxOf (.agent .aggregation h) = some s.box := by simp [boxOf, station]
  have hSorted := (hf.staffed.aggregators h s station).2.2
  obtain ⟨tuning, sent, hEffects, hHeeds, hTunes, hSorted', hBase', hHost'⟩ :=
    Aggregator.heeds_handle hSorted e
  rw [← handled] at hHeeds hTunes hSorted' hBase' hHost'
  obtain ⟨hSound, hBound, hLive, -⟩ := Bus.receive?_eq_some hf.wired.bus received
  have hFirst := inbox_of_receive hf.wired hBox received
  have hProper := hf.mail (.agent .aggregation h) e (hFirst ▸ List.mem_cons_self)
  -- first the bindings change, then the answer is posted
  obtain ⟨tuned, hPerform, hTuned, hLive', hQueue', hParties, hOthers, hOwn⟩ :=
    hTunes.spec f.coordinator.keyBase hSound
      ((hLive s.box).trans (hf.wired.live _ _ hBox))
      (fun id key hDuty => by
        rw [hBound]
        exact hf.staffed.streams h s station id key hDuty)
      hProper.stream
  have hPosted : f'.bus = (tuned.post s.agent.envelope sent).2 := by
    rw [posted, hEffects, hPerform]
  have hAfter := (Bus.extends_post hTuned s.agent.envelope sent).bound
  have hPasses : f.Passes (some (.agent .aggregation h)) s.agent.envelope sent f' :=
    passes_of_receive hf.wired hBox received hTuned hLive' hQueue' hParties
      (boxOf_of_aggregator station aggregators instrumenters box) hBase hPosted
  have hDuty := duty_of_aggregator station aggregators instrumenters
  refine sound_read hf hFirst hPasses coordinator ?_ (fun w h' => ?_) (fun _ => rfl)
    (fun m => ?_) (fun w h' hOther => (hDuty w h').trans (if_neg hOther))
    (staffed_of_aggregator station aggregators instrumenters hf hBase hBase' hHost' hSorted'
      (fun b hb key => ?_) fun id key hKept => ?_)
  · rw [hDuty, if_pos ⟨rfl, rfl⟩]
    -- only this aggregator's duties have moved
    have hOld : f.duty .aggregation h = s.agent.duty := by
      funext id
      simp [duty, station]
    rw [hOld]
    exact hHeeds
  · funext m
    cases w with
    | instrumentation => simp [offer, instrumenters]
    | aggregation => rfl
  · rw [hf.staffed.envelope_aggregator station]
  · rw [hPosted, hAfter, hOthers b hb, hBound]
  · rw [hPosted, hAfter]
    exact hOwn id key hKept

end Aggregators

/-- An aggregator that takes an envelope out of its mailbox, if there is one, keeps the fleet sound.
-/
theorem sound_deliverAggregator {f : Fleet} (hf : f.Sound) (h : String) :
    (f.deliverAggregator h).fleet.Sound := by
  unfold deliverAggregator
  split
  · next e bus hReceived =>
    obtain ⟨s, hStation, hReceive⟩ := Option.bind_eq_some_iff.mp hReceived
    simp only [aggregatorHandle, hStation]
    exact sound_of_aggregator_read hStation rfl rfl hf rfl rfl hReceive rfl rfl
  · exact hf

/-! ## New agents -/

/-- An agent listens on its own key and on that for everybody. -/
theorem own_key (f : Fleet) (w : Work) (h : String) (q : Party) :
    f.keyOf q ∈ [f.keyOf (.agent w h), Routing.broadcast f.coordinator.keyBase] ↔
      q = .agent w h := by
  have hNotAll : f.keyOf q ≠ Routing.broadcast f.coordinator.keyBase := Party.key_ne_broadcast _ q
  simp only [List.mem_cons, hNotAll, List.not_mem_nil, or_false]
  exact ⟨fun hKey => Party.key_injective hKey, fun hSame => by rw [hSame]⟩

/-- Nobody is replaced by an instrumenter of a new host. -/
theorem addInstrumenter_of_new {f : Fleet} {i : Instrumenter}
    (new : f.instrumenters.find? i.hostname = none) :
    f.addInstrumenter i = { f with
      bus := (f.bus.openMailbox i.bindings).2
      instrumenters :=
        f.instrumenters.put ⟨i.hostname, i, (f.bus.openMailbox i.bindings).1⟩ } := by
  simp only [addInstrumenter, new, dropBox]

/-- Nobody is replaced by an aggregator of a new host. -/
theorem addAggregator_of_new {f : Fleet} {a : Aggregator Float}
    (new : f.aggregators.find? a.hostname = none) :
    f.addAggregator a = { f with
      bus := (f.bus.openMailbox a.bindings).2
      aggregators := f.aggregators.put ⟨a.hostname, a, (f.bus.openMailbox a.bindings).1⟩ } := by
  simp only [addAggregator, new, dropBox]

section Joins

variable {f : Fleet} (hf : f.Sound)

include hf

/-- An instrumenter joins that offers what it offers and does nothing yet. -/
theorem sound_joinInstrumenter {h : String} {i : Instrumenter}
    (prepared : i.Prepared f.coordinator.keyBase h) (new : f.instrumenters.find? h = none) :
    (f.addInstrumenter i).Sound := by
  obtain ⟨hBase, rfl, hIdle, hOffers⟩ := prepared.spec
  have hKeys : i.bindings = [f.keyOf (.agent .instrumentation i.hostname),
      Routing.broadcast f.coordinator.keyBase] := by
    rw [Instrumenter.bindings, Instrumenter.routingKey, hBase]
    rfl
  -- nobody has told it anything yet
  have hNothing : ∀ id, i.duty id = none := fun id => by
    rw [Instrumenter.duty, hIdle]
    rfl
  have hFind := f.instrumenters.find?_put ⟨i.hostname, i, (f.bus.openMailbox i.bindings).1⟩
  rw [addInstrumenter_of_new new]
  refine sound_join hf (w := .instrumentation) (h := i.hostname) ?_ i.bindings ?_ ?_ rfl rfl ?_ ?_
    ?_ fun hBound => ?_
  · simp [boxOf, new]
  · rw [hKeys]
    exact f.own_key _ _
  · rintro (_ | ⟨_ | _, h'⟩)
    · rfl
    · simp only [boxOf, hFind, Party.agent.injEq, true_and, eq_comm (a := h')]
      split <;> rfl
    · rfl
  · intro w h'
    funext id
    cases w with
    | instrumentation =>
      simp only [duty, hFind]
      split
      · next hh => simp [hNothing, ← hh, new]
      · rfl
    | aggregation => rfl
  · intro id
    simp [duty, new]
  · intro w h' hOther
    funext m
    cases w with
    | instrumentation =>
      have hh : i.hostname ≠ h' := fun hh => hOther ⟨rfl, hh.symm⟩
      simp only [offer, hFind, if_neg hh]
    | aggregation => rfl
  -- the others keep their duties and their streams their bindings
  · refine ⟨fun h' s hs => ?_, hf.staffed.aggregators, fun h' s hs id key hDuty => ?_⟩
    · simp only [hFind] at hs
      split at hs
      · next hh =>
        rw [← Option.some.inj hs]
        exact ⟨hBase, hh, hIdle ▸ Table.ascending_nil, hOffers⟩
      · exact hf.staffed.instrumenters h' s hs
    · obtain ⟨hStream, hMem⟩ := hf.staffed.streams h' s hs id key hDuty
      exact ⟨hStream, hBound key _ hMem⟩

/-- An aggregator joins that collects nothing yet. -/
theorem sound_joinAggregator {h : String} (retain : Nat) (new : f.aggregators.find? h = none) :
    (f.addAggregator (.new f.coordinator.keyBase h retain)).Sound := by
  generalize hAgent : (Aggregator.new f.coordinator.keyBase h retain : Aggregator Float) = a
  have hBase : a.keyBase = f.coordinator.keyBase := by rw [← hAgent]; rfl
  obtain rfl : a.hostname = h := by rw [← hAgent]; rfl
  have hIdle : a.store = [] := by rw [← hAgent]; rfl
  have hKeys : a.bindings = [f.keyOf (.agent .aggregation a.hostname),
      Routing.broadcast f.coordinator.keyBase] := by
    rw [Aggregator.bindings, Aggregator.routingKey, hBase]
    rfl
  have hNothing : ∀ id, a.duty id = none := fun id => by
    rw [Aggregator.duty, hIdle]
    rfl
  have hFind := f.aggregators.find?_put ⟨a.hostname, a, (f.bus.openMailbox a.bindings).1⟩
  rw [addAggregator_of_new new]
  refine sound_join hf (w := .aggregation) (h := a.hostname) ?_ a.bindings ?_ ?_ rfl rfl ?_ ?_ ?_
    fun hBound => ?_
  · simp [boxOf, new]
  · rw [hKeys]
    exact f.own_key _ _
  · rintro (_ | ⟨_ | _, h'⟩)
    · rfl
    · rfl
    · simp only [boxOf, hFind, Party.agent.injEq, true_and, eq_comm (a := h')]
      split <;> rfl
  · intro w h'
    funext id
    cases w with
    | instrumentation => rfl
    | aggregation =>
      simp only [duty, hFind]
      split
      · next hh => simp [hNothing, ← hh, new]
      · rfl
  · intro id
    simp [duty, new]
  · intro w h' _
    funext m
    cases w <;> rfl
  · refine ⟨hf.staffed.instrumenters, fun h' s hs => ?_, fun h' s hs id key hDuty => ?_⟩
    · simp only [hFind] at hs
      split at hs
      · next hh =>
        rw [← Option.some.inj hs]
        exact ⟨hBase, hh, hIdle ▸ Table.ascending_nil⟩
      · exact hf.staffed.aggregators h' s hs
    · simp only [hFind] at hs
      split at hs
      · -- it has no duties, so it listens to no stream
        rw [← Option.some.inj hs, hNothing] at hDuty
        cases hDuty
      · obtain ⟨hStream, hMem⟩ := hf.staffed.streams h' s hs id key hDuty
        exact ⟨hStream, hBound key _ hMem⟩

end Joins

/-! ## Every fleet -/

/-- **Every step keeps a fleet sound.** -/
theorem sound_step {f f' : Fleet} (hf : f.Sound) (step : f.Step f') : f'.Sound := by
  cases step with
  | joinInstrumenter prepared new => exact sound_joinInstrumenter hf prepared new
  | joinAggregator _ retain new => exact sound_joinAggregator hf retain new
  | announceInstrumenter h => exact sound_announceInstrumenter hf h
  | announceAggregator h => exact sound_announceAggregator hf h
  | create s ticket now => exact sound_conduct hf (x := .create s ticket now) rfl
  | delete done =>
    rename_i id p
    unfold delete at done
    cases hDelete : f.coordinator.delete id with
    | error e =>
      rw [hDelete] at done
      cases done
    | ok t =>
      rw [hDelete] at done
      obtain rfl : f.conduct t = p := Except.ok.inj done
      -- a deletion that is carried out is a step of the coordinator
      have hTurn : f.coordinator.step (.delete id) = t := by
        simp only [Coordinator.step, hDelete]
      exact hTurn ▸ sound_conduct hf (x := .delete id) rfl
  | expire now => exact sound_conduct hf (x := .expire now) rfl
  | deliverCoordinator now => exact sound_deliverCoordinator hf now
  | deliverInstrumenter h => exact sound_deliverInstrumenter hf h
  | deliverAggregator h => exact sound_deliverAggregator hf h
  | feed h feed => exact sound_setFeed hf h feed
  | report h now => exact sound_report hf h now

/-- **Every fleet that is reached is sound.** -/
theorem sound_of_reachable {keyBase hostname : String} {ackTimeout : Nat} {f : Fleet}
    (reachable : Fleet.Reachable keyBase hostname ackTimeout f) : f.Sound := by
  induction reachable with
  | start => exact sound_attend keyBase hostname ackTimeout
  | step _ step ih => exact sound_step ih step

end Fleet

end FleetMetrics
