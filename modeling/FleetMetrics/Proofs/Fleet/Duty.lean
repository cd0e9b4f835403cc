import Mathlib
import FleetMetrics.Aggregator
import FleetMetrics.Instrumenter
import FleetMetrics.Proofs.Fleet.Link

/-!
# What agents do

An instrumenter samples and an aggregator collects, but seen from the coordinator they are alike:
each has a duty for some instrumentations, takes one on or lays it down when it reads an order,
and answers. `Heeds` is what they have in common; it is all that later modules know of them.

What an instrumenter takes on depends on the command and on the metrics that it offers, and these
do not change while it runs. Reports change what has been sampled, but not what is sampled.

Main results:

* `Instrumenter.heeds_handle`, `Aggregator.heeds_handle` — agents of both kinds heed what they
  read.
* `Instrumenter.duty_report` — a report leaves every duty as it is.
-/

namespace FleetMetrics

/-- What an agent of a kind does with an envelope: what it is told changes its duties, and it
answers to the key that the envelope names. -/
structure Heeds (w : Work) (offer : Message Float → Option Duty)
    (before after : InstId → Option Duty) (e : Envelope Float)
    (sent : List (String × Message Float)) : Prop where
  duty : ∀ id, after id =
    match e.message.order? w id with
    | some o => Link.follow offer (before id) o
    | none => before id
  /-- Whoever is told to start says whether it has. -/
  started : ∀ id m, e.message.order? w id = some (.start m) →
    ∃ b, sent.filterMap (·.2.answer? w id) = [b] ∧ (b = true → (after id).isSome) ∧
      (b = false → offer m = none)
  /-- Nobody says so without being told. -/
  unasked : ∀ id, (∀ m, e.message.order? w id ≠ some (.start m)) →
    sent.filterMap (·.2.answer? w id) = []
  /-- An answer is an acknowledgement for the kind of work, or means nothing. -/
  sent : ∀ d ∈ sent, d.1 = e.source ∧
    (d.2.isInert = true ∨ ∃ id s error, d.2 = .ack .enable w id s error)

/-! ## Instrumenters -/

namespace Instrumenter

/-- What an instrumenter does for an instrumentation. -/
def duty (i : Instrumenter) (id : InstId) : Option Duty :=
  (i.active.find? id).map fun a =>
    .sampling a.streamKey a.metric.query a.metric.scope a.metric.instrumented

/-- What a command makes an instrumenter do, if it offers the metric and the query fits. -/
def offer (i : Instrumenter) : Message Float → Option Duty
  | .enableInstrumentation _ streamKey module stat predicate decomposition =>
    (i.metric? module stat).bind fun registration =>
      (Query.compile registration.descriptor predicate decomposition).toOption.map fun query =>
        .sampling streamKey query registration.scope true
  | _ => none

theorem isActive_eq (i : Instrumenter) (id : InstId) : i.isActive id = (i.duty id).isSome := by
  rw [isActive, Table.contains, duty, Option.isSome_map]

/-- The metrics on offer are in order, and each is found under the names that it carries. -/
structure Offers (i : Instrumenter) : Prop where
  sorted : i.metrics.Ascending
  stats : ∀ module stats, i.metrics.find? module = some stats → stats.Ascending
  named : ∀ module stat registration, i.metric? module stat = some registration →
    registration.descriptor.module = module ∧ registration.descriptor.stat = stat

/-- An instrumenter before it is told anything: modules and metrics have been offered, and nothing
else has happened to it. -/
inductive Prepared (keyBase hostname : String) : Instrumenter → Prop
  | new : Prepared keyBase hostname (.new keyBase hostname)
  | addModule {i : Instrumenter} (prepared : Prepared keyBase hostname i) (name label : String) :
      Prepared keyBase hostname (i.addModule name label)
  | addMetric {i j : Instrumenter} (prepared : Prepared keyBase hostname i)
      (descriptor : Descriptor Float) (scope : Option String)
      (added : i.addMetric descriptor scope = .ok j) : Prepared keyBase hostname j

/-- What is on offer is a matter of the metrics. -/
theorem offer_congr {i j : Instrumenter} (metrics : j.metrics = i.metrics) (m : Message Float) :
    j.offer m = i.offer m := by
  cases m with
  | enableInstrumentation => simp only [offer, metric?, metrics]
  | _ => rfl

/-- What holds of the metrics on offer holds as long as they are the same. -/
theorem Offers.congr {i j : Instrumenter} (offers : i.Offers) (metrics : j.metrics = i.metrics) :
    j.Offers where
  sorted := metrics ▸ offers.sorted
  stats := metrics ▸ offers.stats
  named module stat registration h := offers.named module stat registration (by
    rw [← h, metric?, metric?, metrics])

/-- The field for the hostname does not change what a metric is called. -/
theorem withHostname_frame (d : Descriptor Float) (hostname : String) :
    (d.withHostname hostname).module = d.module ∧ (d.withHostname hostname).stat = d.stat := by
  unfold Descriptor.withHostname
  split <;> exact ⟨rfl, rfl⟩

/-- A metric that is added is found under its names, and all others where they were. -/
theorem offers_addMetric {i j : Instrumenter} (offers : i.Offers) {d : Descriptor Float}
    {scope : Option String} (added : i.addMetric d scope = .ok j) : j.Offers := by
  unfold addMetric at added
  split at added
  · cases added
  · cases added
    have hStats : (((i.metrics.find? d.module).getD [])).Ascending := by
      cases h : i.metrics.find? d.module with
      | none => exact Table.ascending_nil
      | some stats => exact offers.stats _ _ h
    have hFind := fun module => Table.find?_alter_eq offers.sorted d.module module fun stats =>
      Table.insert (stats.getD []) d.stat (⟨d.withHostname i.hostname, scope⟩ : Registration)
    -- the module of the metric has one entry more, all other modules are as they were
    refine ⟨Table.ascending_alter offers.sorted _ _, fun module stats h => ?_,
      fun module stat registration h => ?_⟩
    · rw [hFind] at h
      split at h
      · rw [← Option.some.inj h]
        exact Table.ascending_insert hStats _ _
      · exact offers.stats _ _ h
    · simp only [metric?, hFind] at h
      by_cases hModule : module = d.module
      · subst hModule
        rw [if_pos rfl, Option.bind_some, Table.find?_insert hStats] at h
        split at h
        · next hStat =>
          obtain rfl := Option.some.inj h
          obtain ⟨h₁, h₂⟩ := withHostname_frame d i.hostname
          exact ⟨h₁, h₂.trans hStat.symm⟩
        · refine offers.named _ _ registration ?_
          unfold metric?
          cases hOld : i.metrics.find? d.module with
          | none => simp [hOld] at h
          | some stats => simpa [hOld] using h
      · rw [if_neg hModule] at h
        exact offers.named _ _ _ h

/-- An instrumenter that has only been prepared is who it was made to be, has no duties, and has its
metrics in order. -/
theorem Prepared.spec {keyBase hostname : String} {i : Instrumenter}
    (prepared : Prepared keyBase hostname i) :
    i.keyBase = keyBase ∧ i.hostname = hostname ∧ i.active = [] ∧ i.Offers := by
  induction prepared with
  | new =>
    exact ⟨rfl, rfl, rfl, Table.ascending_nil, nofun, nofun⟩
  | addModule prepared name label ih =>
    obtain ⟨hBase, hHost, hActive, hOffers⟩ := ih
    exact ⟨hBase, hHost, hActive, hOffers.sorted, hOffers.stats, hOffers.named⟩
  | addMetric prepared d scope added ih =>
    obtain ⟨hBase, hHost, hActive, hOffers⟩ := ih
    refine ⟨?_, ?_, ?_, offers_addMetric hOffers added⟩
    all_goals
      unfold Instrumenter.addMetric at added
      split at added
      · cases added
      · cases added
        assumption

/-- What an instrumenter does when it is told to start: it takes the duty on unless it is at work
already or cannot, changes nothing else, and answers whether it is at work. -/
theorem respond_enable {i : Instrumenter} (sorted : i.active.Ascending) (id : InstId)
    (streamKey module stat : String) (predicate : Predicate Float) (decomposition : List String) :
    let m : Message Float :=
      .enableInstrumentation id streamKey module stat predicate decomposition
    ∃ active started error,
      i.respond m = ({ i with active := active }, some (.ack .enable .instrumentation id
        (if started then .enabled else .disabled) error)) ∧
      active.Ascending ∧
      (∀ id', ({ i with active := active } : Instrumenter).duty id' =
        if id' = id then (i.duty id).or (i.offer m) else i.duty id') ∧
      (started = true → ((i.duty id).or (i.offer m)).isSome) ∧
      (started = false → i.offer m = none) := by
  intro m
  -- whoever goes on as it is has the duty it had
  have hStay : (i.duty id).or (i.offer m) = i.duty id → ∀ id', i.duty id' =
      if id' = id then (i.duty id).or (i.offer m) else i.duty id' := by
    intro hSame id'
    split
    · next h => rw [h, hSame]
    · rfl
  cases hMetric : i.metric? module stat with
  | none =>
    have hOffer : i.offer m = none := by simp [m, offer, hMetric]
    refine ⟨i.active, false, some (MetricError.unknownMetric module stat).message, ?_, sorted,
      hStay (by simp [hOffer]), nofun, fun _ => hOffer⟩
    simp [m, respond, enable, hMetric]
  | some registration =>
    cases hActive : i.isActive id with
    | true =>
      have hDuty : (i.duty id).isSome := isActive_eq i id ▸ hActive
      refine ⟨i.active, true, none, ?_, sorted, hStay (Option.or_of_isSome hDuty),
        fun _ => ?_, nofun⟩
      · simp [m, respond, enable, hMetric, hActive]
      · rw [Option.or_of_isSome hDuty, hDuty]
    | false =>
      have hDuty : i.duty id = none := by
        rw [isActive_eq] at hActive
        simpa using hActive
      cases hCompile : Query.compile registration.descriptor predicate decomposition with
      | error e =>
        have hOffer : i.offer m = none := by simp [m, offer, hMetric, hCompile, Except.toOption]
        refine ⟨i.active, false, some e.message, ?_, sorted, hStay (by simp [hOffer]), nofun,
          fun _ => hOffer⟩
        simp [m, respond, enable, hMetric, hActive, hCompile]
      | ok query =>
        have hOffer : i.offer m = some (.sampling streamKey query registration.scope true) := by
          simp [m, offer, hMetric, hCompile, Except.toOption]
        refine ⟨_, true, none, ?_, Table.ascending_insert sorted id ⟨streamKey,
          (SampledMetric.new query registration.scope).instrument⟩, fun id' => ?_,
          fun _ => by simp [hOffer], nofun⟩
        · simp [m, respond, enable, hMetric, hActive, hCompile]
        · rw [duty, Table.find?_insert sorted, hDuty, hOffer]
          split
          · rfl
          · rfl

/-- Disabling ends one duty and no other. -/
theorem duty_disable (i : Instrumenter) (id id' : InstId) :
    (i.disable id).duty id' = if id' = id then none else i.duty id' := by
  rw [duty, disable, Table.find?_erase]
  split
  · rfl
  · rfl

/-- An instrumenter sends its answer back to where the envelope came from. -/
theorem handle_eq {i after : Instrumenter} {e : Envelope Float} {answer : Option (Message Float)}
    (h : i.respond e.message = (after, answer)) :
    i.handle e = (after, (answer.map fun m => (e.source, m)).toList) := by
  rw [handle, h]

/-- What an instrumenter does with an envelope that tells it nothing. -/
theorem handle_inert (i : Instrumenter) {e : Envelope Float}
    (inert : ∀ id, e.message.order? .instrumentation id = none) :
    (i.handle e).1 = i ∧ ∀ d ∈ (i.handle e).2, d.1 = e.source ∧ d.2.isInert = true := by
  obtain ⟨source, hostname, m⟩ := e
  cases m with
  | enableInstrumentation id => simp [Message.order?] at inert
  | disable w id =>
    cases w with
    | instrumentation => simp [Message.order?] at inert
    | aggregation => exact ⟨rfl, by simp [handle, respond]⟩
  | ping => exact ⟨rfl, by simp [handle, respond, Message.isInert]⟩
  | _ => exact ⟨rfl, by simp [handle, respond]⟩

/-- **Instrumenters heed what they read.** Besides, an instrumenter remains who it is and offers
what it offered. -/
theorem heeds_handle {i : Instrumenter} (sorted : i.active.Ascending) (e : Envelope Float) :
    let after := (i.handle e).1
    Heeds .instrumentation i.offer i.duty after.duty e (i.handle e).2 ∧
      after.active.Ascending ∧ after.keyBase = i.keyBase ∧ after.hostname = i.hostname ∧
      after.metrics = i.metrics := by
  by_cases hInert : ∀ id, e.message.order? .instrumentation id = none
  · -- nothing is told, so nothing is done and nothing said of starts
    obtain ⟨hAfter, hSent⟩ := i.handle_inert hInert
    rw [hAfter]
    refine ⟨⟨fun id => ?_, fun id m hOrder => ?_, fun id _ => ?_, fun d hd => ?_⟩, sorted, rfl, rfl,
      rfl⟩
    · rw [hInert]
    · rw [hInert] at hOrder
      cases hOrder
    · exact List.filterMap_eq_nil_iff.mpr fun d hd => Message.answer?_of_isInert (hSent d hd).2 _ _
    · exact ⟨(hSent d hd).1, .inl (hSent d hd).2⟩
  obtain ⟨source, hostname, m⟩ := e
  cases m with
  | enableInstrumentation id streamKey module stat predicate decomposition =>
    obtain ⟨active, started, error, hRespond, hSorted, hDuty, hStarted, hRefused⟩ :=
      i.respond_enable sorted id streamKey module stat predicate decomposition
    rw [handle_eq (e := ⟨source, hostname, _⟩) hRespond]
    refine ⟨⟨fun id' => ?_, fun id' m hOrder => ?_, fun id' hNot => ?_, fun d hd => ?_⟩, hSorted,
      rfl, rfl, rfl⟩
    · rw [hDuty]
      by_cases h : id' = id
      · simp [Message.order?, h, Link.follow]
      · simp [Message.order?, h, Ne.symm h]
    · -- told to start, it says whether it has
      by_cases h : id = id'
      · subst h
        obtain rfl : _ = m := by simpa [Message.order?] using hOrder
        refine ⟨started, ?_, fun hs => ?_, hRefused⟩
        · cases started <;> simp [Message.answer?, AckStatus.isEnabled]
        · rw [hDuty, if_pos rfl]
          exact hStarted hs
      · simp [Message.order?, h] at hOrder
    · by_cases h : id = id'
      · exact absurd (if_pos h) (hNot _)
      · simp [Message.answer?, h]
    · rw [List.mem_singleton.mp hd]
      exact ⟨rfl, .inr ⟨id, _, _, rfl⟩⟩
  | disable w id =>
    cases w with
    | aggregation => exact absurd (fun _ => by simp [Message.order?]) hInert
    | instrumentation =>
      refine ⟨⟨fun id' => ?_, fun id' m hOrder => ?_, fun id' _ => ?_, fun d hd => ?_⟩,
        Table.ascending_erase sorted _, rfl, rfl, rfl⟩
      · -- told to stop, it lays down this duty and no other
        show (i.disable id).duty id' = _
        rw [duty_disable]
        by_cases h : id' = id
        · simp [Message.order?, h, Link.follow]
        · simp [Message.order?, h, Ne.symm h]
      · simp only [Message.order?] at hOrder
        split at hOrder <;> cases hOrder
      · rfl
      · rw [List.mem_singleton.mp hd]
        exact ⟨rfl, .inl rfl⟩
  | _ => exact absurd (fun _ => by simp [Message.order?]) hInert

/-- Sampling does not change what is sampled. -/
theorem value_frame (m : SampledMetric Float) (f : Feed Float) :
    (m.value f).2.query = m.query ∧ (m.value f).2.scope = m.scope ∧
      (m.value f).2.instrumented = m.instrumented := by
  unfold SampledMetric.value
  split
  · split <;> exact ⟨rfl, rfl, rfl⟩
  · exact ⟨rfl, rfl, rfl⟩

/-- Reporting on one instrumentation keeps its stream and its query, and what is sent tells nobody
to do anything. -/
theorem reportOne_frame (i : Instrumenter) (f : Feed Float) (now : Timestamp) (id : InstId)
    (a : ActiveMetric) :
    (i.reportOne f now id a).1.streamKey = a.streamKey ∧
      (i.reportOne f now id a).1.metric = (a.metric.value f).2 ∧
      (i.reportOne f now id a).2.1.2.isInert = true := by
  unfold reportOne
  split
  · next h => exact ⟨rfl, by rw [h], rfl⟩
  · next h => exact ⟨rfl, by rw [h], rfl⟩

/-- A report goes over the active instrumentations one by one and ends none. -/
theorem active_report (i : Instrumenter) (f : Feed Float) (now : Timestamp) :
    (i.report f now).1.active = i.active.mapValues fun id a => (i.reportOne f now id a).1 := by
  simp only [report, Table.mapValues, List.map_map]
  rfl

/-- A report goes on sampling what was sampled, and what it sends tells nobody anything. -/
theorem duty_report {i : Instrumenter} (f : Feed Float) (now : Timestamp) :
    (i.report f now).1.duty = i.duty ∧
      (i.active.Ascending → (i.report f now).1.active.Ascending) ∧
      ∀ d ∈ (i.report f now).2.1, d.2.isInert = true := by
  refine ⟨funext fun id => ?_, fun sorted => ?_, fun d hd => ?_⟩
  · rw [duty, active_report, Table.find?_mapValues, duty, Option.map_map]
    congr 1
    funext a
    obtain ⟨hKey, hMetric, -⟩ := i.reportOne_frame f now id a
    obtain ⟨hQuery, hScope, hOn⟩ := value_frame a.metric f
    simp [hKey, hMetric, hQuery, hScope, hOn]
  · rw [active_report]
    exact Table.ascending_mapValues sorted _
  · simp only [report, List.map_map, List.mem_map] at hd
    obtain ⟨entry, -, rfl⟩ := hd
    exact (i.reportOne_frame f now entry.1 entry.2).2.2

end Instrumenter

/-! ## Aggregators -/

namespace Aggregator

/-- What an aggregator does for an instrumentation. -/
def duty (a : Aggregator Float) (id : InstId) : Option Duty :=
  (a.store.find? id).map fun g => .collecting g.streamKey

/-- What a command makes an aggregator do. -/
def offer : Message Float → Option Duty
  | .enableAggregation _ streamKey => some (.collecting streamKey)
  | _ => none

/-- Enabling takes on one duty, unless there is one already, and changes no other. -/
theorem duty_enable {a : Aggregator Float} (sorted : a.store.Ascending) (id : InstId)
    (streamKey : String) (id' : InstId) :
    (a.enable id streamKey).1.duty id' =
      if id' = id then (a.duty id).or (some (.collecting streamKey)) else a.duty id' := by
  unfold enable
  split
  · next h =>
    have hDuty : (a.duty id).isSome := by
      rwa [duty, Option.isSome_map]
    split
    · next h' => rw [h', Option.or_of_isSome hDuty]
    · rfl
  · next h =>
    have hDuty : a.duty id = none := by
      rw [duty, Option.map_eq_none_iff]
      simpa [Table.contains] using h
    rw [hDuty, Option.none_or, duty, Table.find?_insert sorted]
    split
    · rfl
    · rfl

/-- Disabling ends one collection and no other. -/
theorem duty_disable (a : Aggregator Float) (id id' : InstId) :
    (a.disable id).1.duty id' = if id' = id then none else a.duty id' := by
  unfold disable
  split
  · rw [duty, Table.find?_erase]
    split
    · rfl
    · rfl
  · next h =>
    split
    · next h' =>
      rw [h', duty, h]
      rfl
    · rfl

/-- A value that comes in changes nothing about what is collected. -/
theorem duty_merge {a : Aggregator Float} (sorted : a.store.Ascending) (hostname : String)
    (id : InstId) (sampledAt : Timestamp) (value : ReducedValue Float) :
    (a.merge hostname id sampledAt value).duty = a.duty := by
  funext id'
  unfold merge
  split
  · next g h =>
    rw [duty, Table.find?_insert sorted, duty]
    split
    · next h' =>
      rw [h', h]
      rfl
    · rfl
  · rfl

/-- What changes on the bus with an envelope: nothing, or the key of a duty that is taken on is
bound, or the key of one that is laid down is unbound. -/
inductive Tunes (before after : InstId → Option Duty) (m : Message Float) :
    List (Effect Float) → Prop where
  | stay (kept : ∀ id d, after id = some d → before id = some d) : Tunes before after m []
  | take (id : InstId) (key : String) (told : m = .enableAggregation id key)
      (kept : ∀ id' d, after id' = some d → before id' = some d ∨ id' = id ∧ d = .collecting key) :
      Tunes before after m [.bind key]
  | leave (id : InstId) (key : String) (held : before id = some (.collecting key))
      (kept : ∀ id' d, after id' = some d → before id' = some d ∧ id' ≠ id) :
      Tunes before after m [.unbind key]

/-- The effects that send messages. -/
def sends (sent : List (String × Message Float)) : List (Effect Float) :=
  sent.map fun d => .send d.1 d.2

/-- Who takes a duty on binds the key of its stream, unless it has the duty already. -/
theorem tunes_enable {a : Aggregator Float} (sorted : a.store.Ascending) (id : InstId)
    (streamKey : String) :
    Tunes a.duty (a.enable id streamKey).1.duty (.enableAggregation id streamKey)
      (a.enable id streamKey).2 := by
  unfold enable
  split
  · exact .stay fun _ _ h => h
  · refine .take id streamKey rfl fun id' d hd => ?_
    rw [duty, Table.find?_insert sorted] at hd
    split at hd
    · next hSame => exact .inr ⟨hSame, (Option.some.inj hd).symm⟩
    · exact .inl hd

/-- Who lays a duty down unbinds the key that it was taken on with. -/
theorem tunes_disable (a : Aggregator Float) (id : InstId) (m : Message Float) :
    Tunes a.duty (a.disable id).1.duty m (a.disable id).2 := by
  have hKept : ∀ id' d, (a.disable id).1.duty id' = some d → a.duty id' = some d ∧ id' ≠ id := by
    intro id' d hd
    rw [duty_disable] at hd
    split at hd
    · cases hd
    · next hOther => exact ⟨hd, hOther⟩
  unfold disable at hKept ⊢
  split
  · next g hStore =>
    rw [hStore] at hKept
    refine .leave id g.streamKey ?_ hKept
    rw [duty, hStore]
    rfl
  · exact .stay fun _ _ h => h

/-- Enabling keeps the store in order and the aggregator who it is. -/
theorem frame_enable {a : Aggregator Float} (sorted : a.store.Ascending) (id : InstId)
    (streamKey : String) :
    (a.enable id streamKey).1.store.Ascending ∧ (a.enable id streamKey).1.keyBase = a.keyBase ∧
      (a.enable id streamKey).1.hostname = a.hostname := by
  unfold enable
  split
  · exact ⟨sorted, rfl, rfl⟩
  · exact ⟨Table.ascending_insert sorted _ _, rfl, rfl⟩

theorem frame_disable {a : Aggregator Float} (sorted : a.store.Ascending) (id : InstId) :
    (a.disable id).1.store.Ascending ∧ (a.disable id).1.keyBase = a.keyBase ∧
      (a.disable id).1.hostname = a.hostname := by
  unfold disable
  split
  · exact ⟨Table.ascending_erase sorted _, rfl, rfl⟩
  · exact ⟨sorted, rfl, rfl⟩

theorem frame_merge {a : Aggregator Float} (sorted : a.store.Ascending) (hostname : String)
    (id : InstId) (sampledAt : Timestamp) (value : ReducedValue Float) :
    (a.merge hostname id sampledAt value).store.Ascending ∧
      (a.merge hostname id sampledAt value).keyBase = a.keyBase ∧
      (a.merge hostname id sampledAt value).hostname = a.hostname := by
  unfold merge
  split
  · exact ⟨Table.ascending_insert sorted _ _, rfl, rfl⟩
  · exact ⟨sorted, rfl, rfl⟩

/-- What an aggregator does with an envelope that tells it nothing. -/
theorem handle_inert {a : Aggregator Float} (sorted : a.store.Ascending) {e : Envelope Float}
    (inert : ∀ id, e.message.order? .aggregation id = none) :
    ∃ sent, (a.handle e).2 = sends sent ∧ (a.handle e).1.duty = a.duty ∧
      (a.handle e).1.store.Ascending ∧ (a.handle e).1.keyBase = a.keyBase ∧
      (a.handle e).1.hostname = a.hostname ∧ ∀ d ∈ sent, d.1 = e.source ∧ d.2.isInert = true := by
  obtain ⟨source, hostname, m⟩ := e
  cases m with
  | enableAggregation id => simp [Message.order?] at inert
  | disable w id =>
    cases w with
    | instrumentation => exact ⟨[], rfl, rfl, sorted, rfl, rfl, by simp⟩
    | aggregation => simp [Message.order?] at inert
  | ping =>
    exact ⟨[(source, .pingAck)], rfl, rfl, sorted, rfl, rfl, by simp [Message.isInert]⟩
  | data id sampledAt value =>
    obtain ⟨hSorted, hBase, hHost⟩ := frame_merge sorted hostname id sampledAt value
    exact ⟨[], rfl, duty_merge sorted hostname id sampledAt value, hSorted, hBase, hHost, by simp⟩
  | _ => exact ⟨[], rfl, rfl, sorted, rfl, rfl, by simp⟩

/-- **Aggregators heed what they read.** Besides, an aggregator remains who it is, and it listens to
the streams of its duties. -/
theorem heeds_handle {a : Aggregator Float} (sorted : a.store.Ascending) (e : Envelope Float) :
    let after := (a.handle e).1
    ∃ tuning sent, (a.handle e).2 = tuning ++ sends sent ∧
      Heeds .aggregation offer a.duty after.duty e sent ∧
      Tunes a.duty after.duty e.message tuning ∧
      after.store.Ascending ∧ after.keyBase = a.keyBase ∧ after.hostname = a.hostname := by
  by_cases hInert : ∀ id, e.message.order? .aggregation id = none
  · obtain ⟨sent, hEffects, hDuty, hSorted, hBase, hHost, hSent⟩ := a.handle_inert sorted hInert
    refine ⟨[], sent, hEffects, ⟨fun id => ?_, fun id m hOrder => ?_, fun id _ => ?_,
      fun d hd => ?_⟩, ?_, hSorted, hBase, hHost⟩
    · rw [hInert, hDuty]
    · rw [hInert] at hOrder
      cases hOrder
    · exact List.filterMap_eq_nil_iff.mpr fun d hd => Message.answer?_of_isInert (hSent d hd).2 _ _
    · exact ⟨(hSent d hd).1, .inl (hSent d hd).2⟩
    · rw [hDuty]
      exact .stay fun _ _ h => h
  obtain ⟨source, hostname, m⟩ := e
  cases m with
  | enableAggregation id streamKey =>
    have hDuty := duty_enable sorted id streamKey
    obtain ⟨hSorted, hBase, hHost⟩ := frame_enable sorted id streamKey
    refine ⟨(a.enable id streamKey).2, [(source, .ack .enable .aggregation id .enabled none)], rfl,
      ⟨fun id' => ?_, fun id' m hOrder => ?_, fun id' hNot => ?_, fun d hd => ?_⟩,
      tunes_enable sorted id streamKey, hSorted, hBase, hHost⟩
    · show (a.enable id streamKey).1.duty id' = _
      rw [hDuty]
      by_cases h : id' = id
      · simp [Message.order?, h, Link.follow, offer]
      · simp [Message.order?, h, Ne.symm h]
    · -- it always starts, and says so
      by_cases h : id = id'
      · subst h
        refine ⟨true, by simp [Message.answer?, AckStatus.isEnabled], fun _ => ?_, by simp⟩
        show ((a.enable id streamKey).1.duty id).isSome
        rw [hDuty, if_pos rfl]
        simp
      · simp [Message.order?, h] at hOrder
    · by_cases h : id = id'
      · exact absurd (if_pos h) (hNot _)
      · simp [Message.answer?, h]
    · rw [List.mem_singleton.mp hd]
      exact ⟨rfl, .inr ⟨id, _, _, rfl⟩⟩
  | disable w id =>
    cases w with
    | instrumentation => exact absurd (fun _ => by simp [Message.order?]) hInert
    | aggregation =>
      obtain ⟨hSorted, hBase, hHost⟩ := frame_disable sorted id
      refine ⟨(a.disable id).2, [(source, .ack .disable .aggregation id .disabled none)], rfl,
        ⟨fun id' => ?_, fun id' m hOrder => ?_, fun id' _ => rfl, fun d hd => ?_⟩,
        a.tunes_disable id _, hSorted, hBase, hHost⟩
      · show (a.disable id).1.duty id' = _
        rw [duty_disable]
        by_cases h : id' = id
        · simp [Message.order?, h, Link.follow]
        · simp [Message.order?, h, Ne.symm h]
      · simp only [Message.order?] at hOrder
        split at hOrder <;> cases hOrder
      · rw [List.mem_singleton.mp hd]
        exact ⟨rfl, .inl rfl⟩
  | _ => exact absurd (fun _ => by simp [Message.order?]) hInert

end Aggregator

end FleetMetrics
