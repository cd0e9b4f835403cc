import Mathlib
import FleetMetrics.Proofs.Fleet.Run
import FleetMetrics.Proofs.Query

/-!
# Coordinator and agents agree

What the coordinator believes of its agents is true at any time: a host whose word is that it has
started is at work, whatever is still under way. The converse holds as soon as nothing is under
way: a host at work has said so, and the instrumentation it works for is creating or enabled. Until
then it does not hold, since whoever is told to stop works on until it has read that it should.

Nothing here says that mailboxes ever are empty, or that a creation ends.

Main results:

* `agreement` — who has confirmed is at work, as the record says.
* `no_orphans` — when all mailboxes are empty, nobody is at work but for live records.
-/

namespace FleetMetrics

/-- A metric is sampled for a record: under the key of its stream, and by a query that is compiled
from what the record asks for. -/
structure ActiveMetric.IsFor (a : ActiveMetric) (i : Instrumentation) : Prop where
  streamKey : a.streamKey = i.streamKey
  module : a.metric.query.descriptor.module = i.spec.module
  stat : a.metric.query.descriptor.stat = i.spec.stat
  predicate : a.metric.query.predicate = i.spec.predicate
  /-- A numeric field goes last, otherwise the order is that of the record. -/
  decomposition : (a.metric.query.decomposition.map (·.name)).Perm i.spec.decomposition
  compiled : Query.compile a.metric.query.descriptor i.spec.predicate i.spec.decomposition =
    .ok a.metric.query
  instrumented : a.metric.instrumented = true

namespace Fleet

section Sound

variable {f : Fleet} (hf : f.Sound)

include hf

/-! ## Who has confirmed is at work -/

/-- Who has confirmed to a live record does what the command of the record says. -/
theorem duty_of_confirmed {id : InstId} {i : Instrumentation}
    (found : f.coordinator.instrumentations.find? id = some i) (live : i.stage ≠ .failed) {w : Work}
    {h : String} (confirmed : i.ackOf w h = some .enabled) :
    ∃ d, f.duty w h id = some d ∧ f.offer w h (i.command w) = some d := by
  have hStanding : (f.link w h id).standing = .live (i.command w) (some .enabled) := by
    show f.coordinator.standing w h id = _
    rw [Coordinator.standing_of_some found, Instrumentation.standing_of_live live, confirmed]
  exact (hf.links w h id).serves_of_enabled hStanding

/-- An instrumenter that has confirmed samples what the record asks for. -/
theorem samples_of_confirmed {id : InstId} {i : Instrumentation}
    (found : f.coordinator.instrumentations.find? id = some i) (live : i.stage ≠ .failed)
    {h : String} (confirmed : i.instrumenterAcks.find? h = some .enabled) :
    ∃ s a, f.instrumenters.find? h = some s ∧ s.agent.active.find? id = some a ∧ a.IsFor i := by
  obtain ⟨d, hDuty, hOffer⟩ := duty_of_confirmed hf found live (w := .instrumentation) confirmed
  obtain ⟨s, hStation, hSampling⟩ := Option.bind_eq_some_iff.mp hDuty
  obtain ⟨a, hActive, hIs⟩ := Option.map_eq_some_iff.mp hSampling
  obtain ⟨s', hStation', hOffers⟩ := Option.bind_eq_some_iff.mp hOffer
  obtain rfl : s = s' := Option.some.inj (hStation.symm.trans hStation')
  -- what it offers for the command is a query compiled from it
  obtain ⟨registration, hMetric, hCompiled⟩ := Option.bind_eq_some_iff.mp hOffers
  obtain ⟨query, hOk, hSame⟩ := Option.map_eq_some_iff.mp hCompiled
  rw [← hIs, Duty.sampling.injEq] at hSame
  obtain ⟨hKey, hQuery, -, hOn⟩ := hSame
  have hCompile : Query.compile registration.descriptor i.spec.predicate i.spec.decomposition =
      .ok query := by
    cases hc : Query.compile registration.descriptor i.spec.predicate i.spec.decomposition with
    | error e =>
      rw [hc] at hOk
      cases hOk
    | ok q =>
      rw [hc] at hOk
      exact congrArg Except.ok (Option.some.inj hOk)
  obtain ⟨hDescriptor, hPredicate, hPerm⟩ := Query.of_compile hCompile
  obtain ⟨hModule, hStat⟩ :=
    (hf.staffed.instrumenters h s hStation).2.2.2.named _ _ registration hMetric
  subst hQuery
  refine ⟨s, a, hStation, hActive, hKey.symm, ?_, ?_, hPredicate, hPerm, ?_, hOn.symm⟩
  · rw [hDescriptor, hModule]
  · rw [hDescriptor, hStat]
  · rw [hDescriptor]
    exact hCompile

/-- An aggregator that has confirmed collects what comes under the key of the record's stream, and
gets it. -/
theorem collects_of_confirmed {id : InstId} {i : Instrumentation}
    (found : f.coordinator.instrumentations.find? id = some i) (live : i.stage ≠ .failed)
    (confirmed : i.aggregatorAck = .enabled) :
    ∃ s g, f.aggregators.find? i.aggregator = some s ∧ s.agent.store.find? id = some g ∧
      g.streamKey = i.streamKey ∧ s.box ∈ f.bus.bound i.streamKey := by
  have hAck : i.ackOf .aggregation i.aggregator = some .enabled := by
    rw [← confirmed]
    exact if_pos rfl
  obtain ⟨d, hDuty, hOffer⟩ := duty_of_confirmed hf found live hAck
  obtain ⟨s, hStation, hCollecting⟩ := Option.bind_eq_some_iff.mp hDuty
  obtain rfl : Duty.collecting i.streamKey = d := Option.some.inj hOffer
  obtain ⟨g, hStore, hIs⟩ := Option.map_eq_some_iff.mp hCollecting
  rw [Duty.collecting.injEq] at hIs
  obtain ⟨-, hBound⟩ := hf.staffed.streams i.aggregator s hStation id i.streamKey hCollecting
  exact ⟨s, g, hStation, hStore, hIs, hBound⟩

/-! ## Who is at work has confirmed -/

omit hf in
/-- In a settled fleet nothing is under way. -/
theorem inbox_of_settled (settled : f.isSettled = true) (p : Party) : f.inbox p = [] := by
  simp only [isSettled, Bool.and_eq_true, decide_eq_true_eq, List.all_eq_true] at settled
  obtain ⟨⟨hCoordinator, hInstrumenters⟩, hAggregators⟩ := settled
  cases hBox : f.boxOf p with
  | none => exact inbox_of_absent hBox
  | some b =>
    rw [inbox_eq hBox]
    refine List.eq_nil_of_length_eq_zero ?_
    rcases p with _ | ⟨_ | _, h⟩
    · rw [show f.box = some b from hBox] at hCoordinator
      exact hCoordinator
    · obtain ⟨s, hStation, rfl⟩ := Option.map_eq_some_iff.mp hBox
      have hEmpty := hInstrumenters h (Crew.mem_hostnames_of_find? hStation)
      rwa [queuedInstrumenter, hStation] at hEmpty
    · obtain ⟨s, hStation, rfl⟩ := Option.map_eq_some_iff.mp hBox
      have hEmpty := hAggregators h (Crew.mem_hostnames_of_find? hStation)
      rwa [queuedAggregator, hStation] at hEmpty

/-- In a settled fleet who is at work for an instrumentation has confirmed to its record, and the
record is live. -/
theorem confirmed_of_duty (settled : f.isSettled = true) {w : Work} {h : String} {id : InstId}
    {d : Duty} (duty : f.duty w h id = some d) :
    ∃ i, f.coordinator.instrumentations.find? id = some i ∧ i.stage ≠ .failed ∧
      i.ackOf w h = some .enabled := by
  have hEmpty := inbox_of_settled settled
  have hOrders : (f.link w h id).orders = [] := by simp [link, hEmpty]
  have hAnswers : (f.link w h id).answers = [] := by simp [link, hEmpty]
  obtain ⟨m, a, hStanding, hWord⟩ := (hf.links w h id).standing_of_quiet hOrders hAnswers duty
  have hLive : f.coordinator.standing w h id = .live m (some a) := hStanding
  cases hFind : f.coordinator.instrumentations.find? id with
  | none =>
    rw [Coordinator.standing_of_none hFind] at hLive
    split at hLive <;> cases hLive
  | some i =>
    rw [Coordinator.standing_of_some hFind] at hLive
    obtain ⟨hStage, -, hAck⟩ := Instrumentation.of_standing_live hLive
    refine ⟨i, rfl, hStage, ?_⟩
    -- it has said so, or it was too late to
    rcases hWord with rfl | rfl
    · exact hAck
    · -- nobody is out of time in a record that is live
      exact absurd hAck ((hf.coordinator.fits id i hFind).timely hStage w h)

end Sound

end Fleet

/-- A stage that is not the failed one. -/
theorem Stage.live_iff {s : Stage} : s ≠ .failed ↔ s = .creating ∨ s = .enabled := by
  cases s <;> simp

/-! ## Agreement -/

namespace Fleet

/-- An instrumenter with one statistic on offer. -/
def briefInstrumenter : Except MetricError Instrumenter :=
  ((Instrumenter.new "k" "h").addModule "m" "M").addMetric (.new "m" "s" "S" "u") none

/-- A fleet to try things on: one instrumenter and one aggregator have joined and come online, and
a request for the statistic has been accepted, carried out and confirmed. -/
def briefFleet : Fleet :=
  let joined := ((Fleet.new "k" "c" 3).attend.addInstrumenter
    (briefInstrumenter.toOption.getD (.new "k" "h"))).addAggregator (.new "k" "g" 3)
  let announced := ((joined.announceInstrumenter "h").fleet.announceAggregator "g").fleet
  let known := ((announced.deliverCoordinator ⟨0⟩).fleet.deliverCoordinator ⟨0⟩).fleet
  let created := (known.create ⟨"m", "s", .trivial, [], []⟩ 0 0).fleet
  let told := ((created.deliverInstrumenter "h").fleet.deliverAggregator "g").fleet
  ((told.deliverCoordinator ⟨1⟩).fleet.deliverCoordinator ⟨1⟩).fleet

theorem reachable_brief : Fleet.Reachable "k" "c" 3 briefFleet := by
  have hPrepared : Instrumenter.Prepared "k" "h"
      (briefInstrumenter.toOption.getD (.new "k" "h")) :=
    .addMetric (.addModule .new "m" "M") (.new "m" "s" "S" "u") none rfl
  have hStart : Fleet.Reachable "k" "c" 3 (Fleet.new "k" "c" 3).attend := .start
  have hJoined := (hStart.step (.joinInstrumenter hPrepared rfl)).step (.joinAggregator "g" 3 rfl)
  have hKnown := (((hJoined.step (.announceInstrumenter "h")).step
    (.announceAggregator "g")).step (.deliverCoordinator ⟨0⟩)).step (.deliverCoordinator ⟨0⟩)
  have hTold := ((hKnown.step (.create ⟨"m", "s", .trivial, [], []⟩ 0 0)).step
    (.deliverInstrumenter "h")).step (.deliverAggregator "g")
  exact (hTold.step (.deliverCoordinator ⟨1⟩)).step (.deliverCoordinator ⟨1⟩)

/-- **Coordinator and agents agree.** In every fleet that is reached, whatever is under way, for
every record that is creating or enabled

* each instrumenter whose word is that it has started samples the metric of the record under the
  key of its stream, by the record's predicate and decomposition;
* the aggregator, if that is its word, collects for the record, and its mailbox is bound to the key
  of the stream. -/
theorem agreement {keyBase hostname : String} {ackTimeout : Nat} {f : Fleet}
    (reachable : Fleet.Reachable keyBase hostname ackTimeout f) {id : InstId} {i : Instrumentation}
    (found : f.coordinator.instrumentations.find? id = some i)
    (live : i.stage = .creating ∨ i.stage = .enabled) :
    (∀ h, i.instrumenterAcks.find? h = some .enabled →
      ∃ s a, f.instrumenters.find? h = some s ∧ s.agent.active.find? id = some a ∧ a.IsFor i) ∧
    (i.aggregatorAck = .enabled →
      ∃ s g, f.aggregators.find? i.aggregator = some s ∧ s.agent.store.find? id = some g ∧
        g.streamKey = i.streamKey ∧ s.box ∈ f.bus.bound i.streamKey) := by
  have hf := sound_of_reachable reachable
  have hLive := Stage.live_iff.mpr live
  exact ⟨fun _ confirmed => samples_of_confirmed hf found hLive confirmed,
    collects_of_confirmed hf found hLive⟩

/-- In the brief fleet both participants have confirmed to the one record, so they are at work. -/
theorem agreement_brief :
    ∃ i, briefFleet.coordinator.instrumentations.find? 1 = some i ∧ i.stage = .enabled ∧
      (∃ s a, briefFleet.instrumenters.find? "h" = some s ∧ s.agent.active.find? 1 = some a ∧
        a.IsFor i) ∧
      ∃ s g, briefFleet.aggregators.find? i.aggregator = some s ∧
        s.agent.store.find? 1 = some g ∧ s.box ∈ briefFleet.bus.bound i.streamKey := by
  have hRecord : (briefFleet.coordinator.instrumentations.find? 1).map
      (fun i => (i.stage, i.instrumenterAcks.find? "h", i.aggregatorAck)) =
        some (.enabled, some .enabled, .enabled) := rfl
  obtain ⟨i, hFind, hWords⟩ := Option.map_eq_some_iff.mp hRecord
  simp only [Prod.mk.injEq] at hWords
  obtain ⟨hStage, hInstrumenter, hAggregator⟩ := hWords
  obtain ⟨hSamples, hCollects⟩ := agreement reachable_brief hFind (.inr hStage)
  obtain ⟨s, g, hStation, hStore, -, hBound⟩ := hCollects hAggregator
  exact ⟨i, hFind, hStage, hSamples "h" hInstrumenter, s, g, hStation, hStore, hBound⟩

/-- **No orphans.** In every fleet that is reached and in which all mailboxes are empty

* an instrumenter samples only for records that are creating or enabled, and to which it has
  confirmed;
* an aggregator collects only for records that are creating or enabled, assigned to it, and to
  which it has confirmed. -/
theorem no_orphans {keyBase hostname : String} {ackTimeout : Nat} {f : Fleet}
    (reachable : Fleet.Reachable keyBase hostname ackTimeout f) (settled : f.isSettled = true) :
    (∀ h s id, f.instrumenters.find? h = some s → s.agent.isActive id = true →
      ∃ i, f.coordinator.instrumentations.find? id = some i ∧
        (i.stage = .creating ∨ i.stage = .enabled) ∧
        i.instrumenterAcks.find? h = some .enabled) ∧
    (∀ h s id, f.aggregators.find? h = some s → s.agent.store.contains id = true →
      ∃ i, f.coordinator.instrumentations.find? id = some i ∧
        (i.stage = .creating ∨ i.stage = .enabled) ∧
        i.aggregator = h ∧ i.aggregatorAck = .enabled) := by
  have hf := sound_of_reachable reachable
  refine ⟨fun h s id hStation hActive => ?_, fun h s id hStation hStore => ?_⟩
  · obtain ⟨d, hAgent⟩ :=
      Option.isSome_iff_exists.mp (Instrumenter.isActive_eq s.agent id ▸ hActive)
    have hDuty : f.duty .instrumentation h id = some d := by
      rw [duty, hStation]
      exact hAgent
    obtain ⟨i, hFind, hStage, hAck⟩ := confirmed_of_duty hf settled hDuty
    exact ⟨i, hFind, Stage.live_iff.mp hStage, hAck⟩
  · obtain ⟨g, hAgent⟩ := Option.isSome_iff_exists.mp hStore
    have hDuty : f.duty .aggregation h id = some (.collecting g.streamKey) := by
      rw [duty, hStation, Option.bind_some, Aggregator.duty, hAgent]
      rfl
    obtain ⟨i, hFind, hStage, hAck⟩ := confirmed_of_duty hf settled hDuty
    have hAssigned := Coordinator.assigned_of_ackOf hAck rfl
    rw [Instrumentation.ackOf, if_pos hAssigned] at hAck
    exact ⟨i, hFind, Stage.live_iff.mp hStage, hAssigned, Option.some.inj hAck⟩

/-- In the brief fleet all mailboxes are empty, and both participants work for the record. -/
theorem no_orphans_brief :
    briefFleet.isSettled = true ∧
      (∃ i, briefFleet.coordinator.instrumentations.find? 1 = some i ∧
        i.instrumenterAcks.find? "h" = some .enabled) ∧
      ∃ i, briefFleet.coordinator.instrumentations.find? 1 = some i ∧
        i.aggregator = "g" ∧ i.aggregatorAck = .enabled := by
  have hSettled : briefFleet.isSettled = true := by decide +kernel
  obtain ⟨hInstrumenters, hAggregators⟩ := no_orphans reachable_brief hSettled
  obtain ⟨i, hFind, -, hAck⟩ := hInstrumenters "h" _ 1 rfl rfl
  obtain ⟨j, hFind', -, hAssigned, hAck'⟩ := hAggregators "g" _ 1 rfl rfl
  exact ⟨hSettled, ⟨i, hFind, hAck⟩, j, hFind', hAssigned, hAck'⟩

end Fleet

end FleetMetrics
