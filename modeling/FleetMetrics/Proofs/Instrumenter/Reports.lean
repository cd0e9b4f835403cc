import Mathlib
import FleetMetrics.Proofs.Instrumenter.Acknowledgement
import FleetMetrics.Proofs.Sampling

/-!
# What a host reports

A host samples for many instrumentations at once, from feeds that they may share, and one call
reports them all. What could go wrong is that they get in each other's way: that a reading which
fails for one moves another one on, or that two that read the same feed share what was read last.

A `Stint` is a number's time of being sampled for: the command that began it, what happened before,
and what has happened since. What is reported for the number is said in terms of its stint alone,
and of what happens in the stint only the reports and the changes of its own feed matter
(`Stint.actions`). In this view the number has a sampled metric of its own, which is instrumented
once and then only read.

Main results:

* `find?_of_stint` — what a host samples is a sampled metric that nobody else has touched.
* `exists_stint` — whatever is sampled for is in a stint.
* `no_interval_lost` — what a sampled metric returns after any run, and what a host reports.
-/

namespace FleetMetrics

/-! ## Hosts -/

/-- An instrumenter with the feeds of its host. -/
structure Host (σ : Type) where
  agent : Instrumenter
  feeds : σ → Feed Float

/-- What can happen on a host. -/
inductive HostEvent (σ : Type) where
  | feed (name : σ) (change : Feed.Change Float)
  | addModule (name label : String)
  | addMetric (descriptor : Descriptor Float) (scope : Option String)
  | receive (envelope : Envelope Float)
  | report (now : Timestamp)

namespace HostEvent

variable {σ : Type}

/-- Does an event tell the host to stop for a number? -/
def Stops (x : HostEvent σ) (id : InstId) : Prop :=
  ∃ e, x = .receive e ∧ e.message = .disable .instrumentation id

/-- What an event is to a sampled metric that reads a certain feed, if anything. -/
def seenFrom [DecidableEq σ] (own : σ) : HostEvent σ → Option (SampledMetric.Action Float)
  | .feed name c => if name = own then some (.feed c) else none
  | .report _ => some .value
  | _ => none

/-- Nothing that a metric sees of a host's life switches it on or off. -/
theorem not_switch_of_seen [DecidableEq σ] {own : σ} {x : HostEvent σ}
    {a : SampledMetric.Action Float} (seen : x.seenFrom own = some a) : a.isSwitch = false := by
  cases x with
  | feed name c =>
    simp only [seenFrom] at seen
    split at seen
    · rw [← Option.some.inj seen]
      rfl
    · cases seen
  | report now =>
    rw [← Option.some.inj seen]
    rfl
  | _ => cases seen

end HostEvent

namespace Instrumenter

/-! ## Mail and what is active -/

/-- Whatever is sampled goes on exactly as it is until the host is told to stop for it. -/
theorem find?_handle_of_active {i : Instrumenter} (sorted : i.active.Ascending) (offers : i.Offers)
    {id : InstId} {a : ActiveMetric} (active : i.active.find? id = some a) {e : Envelope Float}
    (goes : e.message ≠ .disable .instrumentation id) :
    (i.handle e).1.active.find? id = some a := by
  obtain ⟨source, host, m⟩ := e
  cases m with
  | enableInstrumentation id' streamKey module stat predicate decomposition =>
    rw [handle_enable]
    cases hEnable : i.enable id' streamKey module stat predicate decomposition with
    | error e => exact active
    | ok after =>
      obtain ⟨-, -, hRunning, hOthers⟩ := enable_ok sorted offers hEnable
      by_cases hId : id = id'
      · have hActive : i.isActive id' = true := by
          rw [isActive, Table.contains, ← hId, active]
          rfl
        rw [hRunning hActive]
        exact active
      · exact (hOthers id hId).trans active
  | disable w id' =>
    cases w with
    | aggregation => exact active
    | instrumentation =>
      have hOther : id ≠ id' := fun h => goes (by rw [h])
      exact (Table.find?_erase_of_ne i.active hOther).trans active
  | _ => exact active

/-- Whatever begins to be sampled does so by a command to start. -/
theorem find?_handle_of_idle {i : Instrumenter} (sorted : i.active.Ascending) {id : InstId}
    (idle : i.active.find? id = none) {e : Envelope Float} {a : ActiveMetric}
    (active : (i.handle e).1.active.find? id = some a) :
    ∃ streamKey module stat predicate decomposition r q,
      e.message = .enableInstrumentation id streamKey module stat predicate decomposition ∧
      i.metric? module stat = some r ∧
      Query.compile r.descriptor predicate decomposition = .ok q := by
  obtain ⟨source, host, m⟩ := e
  have hSame : (i.handle ⟨source, host, m⟩).1.active.find? id ≠ i.active.find? id := by
    rw [active, idle]
    simp
  cases m with
  | enableInstrumentation id' streamKey module stat predicate decomposition =>
    rw [handle_enable] at active hSame
    have hOutcome := i.enable_outcome id' streamKey module stat predicate decomposition
    generalize i.enable id' streamKey module stat predicate decomposition = result at *
    cases hOutcome with
    | unknown => exact absurd rfl hSame
    | running => exact absurd rfl hSame
    | unfit => exact absurd rfl hSame
    | @started r q found _ compiled =>
      -- only the number of the command begins
      have hId : id = id' := by
        by_contra hOther
        exact hSame ((Table.find?_insert sorted id' id _).trans (if_neg hOther))
      subst hId
      exact ⟨streamKey, module, stat, predicate, decomposition, r, q, rfl, found, compiled⟩
  | disable w id' =>
    cases w with
    | aggregation => exact absurd rfl hSame
    | instrumentation =>
      rw [show (i.handle ⟨source, host, .disable .instrumentation id'⟩).1.active =
        i.active.erase id' from rfl, Table.find?_erase, idle] at active
      split at active <;> cases active
  | _ => exact absurd rfl hSame

end Instrumenter

/-- Is a message a value that is reported? -/
def Message.isValue : Message Float → Bool
  | .data .. => true
  | _ => false

/-- The name of the feed that an active metric is read from. -/
def ActiveMetric.own {σ : Type} (source : String → String → σ) (a : ActiveMetric) : σ :=
  source a.metric.query.descriptor.module a.metric.query.descriptor.stat

namespace Host

variable {σ : Type} [DecidableEq σ] (source : String → String → σ)

/-- The reports of a host, where a statistic is read from the feed that is its source. -/
def report (h : Host σ) (now : Timestamp) : Instrumenter × List (String × Message Float) × Nat :=
  h.agent.reportFrom (fun module stat => h.feeds (source module stat)) now

/-- A host after an event. A metric that cannot be offered is not. -/
def step (h : Host σ) : HostEvent σ → Host σ
  | .feed name c => { h with feeds := Function.update h.feeds name ((h.feeds name).change c) }
  | .addModule name label => { h with agent := h.agent.addModule name label }
  | .addMetric d scope => { h with agent := (h.agent.addMetric d scope).toOption.getD h.agent }
  | .receive e => { h with agent := (h.agent.handle e).1 }
  | .report now => { h with agent := (h.report source now).1 }

def run (h : Host σ) (history : List (HostEvent σ)) : Host σ :=
  history.foldl (step source) h

theorem run_append (h : Host σ) (xs ys : List (HostEvent σ)) :
    h.run source (xs ++ ys) = (h.run source xs).run source ys :=
  List.foldl_append

/-- Whatever happens on a host is something that can happen to its instrumenter. -/
theorem equipped_step {h : Host σ} {keyBase hostname : String} {ds : List (Descriptor Float)}
    (equipped : Instrumenter.Equipped keyBase hostname ds h.agent) (x : HostEvent σ) :
    ∃ ds, Instrumenter.Equipped keyBase hostname ds (h.step source x).agent := by
  cases x with
  | feed => exact ⟨ds, equipped⟩
  | addModule name label => exact ⟨ds, .addModule equipped name label⟩
  | receive e => exact ⟨ds, .handle equipped e⟩
  | report now =>
    exact ⟨ds, .report equipped (fun module stat => h.feeds (source module stat)) now⟩
  | addMetric d scope =>
    show ∃ ds, Instrumenter.Equipped keyBase hostname ds
      ((h.agent.addMetric d scope).toOption.getD h.agent)
    cases hAdd : h.agent.addMetric d scope with
    | error => exact ⟨ds, equipped⟩
    | ok next => exact ⟨d :: ds, .addMetric equipped hAdd⟩

/-- Whatever happens on a host, its instrumenter remains one that was equipped. -/
theorem equipped_run {h : Host σ} {keyBase hostname : String} {ds : List (Descriptor Float)}
    (equipped : Instrumenter.Equipped keyBase hostname ds h.agent) (xs : List (HostEvent σ)) :
    ∃ ds, Instrumenter.Equipped keyBase hostname ds (h.run source xs).agent := by
  induction xs generalizing h ds with
  | nil => exact ⟨ds, equipped⟩
  | cons x rest ih =>
    obtain ⟨ds', hNext⟩ := equipped_step source equipped x
    exact ih hNext

/-- A feed after some events is what its own changes make of it. -/
theorem feeds_run (h : Host σ) (own : σ) (xs : List (HostEvent σ)) :
    (h.run source xs).feeds own =
      SampledMetric.feedAfter (h.feeds own) (xs.filterMap (·.seenFrom own)) := by
  induction xs generalizing h with
  | nil => rfl
  | cons x rest ih =>
    show ((h.step source x).run source rest).feeds own = _
    rw [ih]
    cases x with
    | feed name c =>
      by_cases hOwn : name = own
      · subst hOwn
        simp [step, HostEvent.seenFrom, SampledMetric.feedAfter]
      · simp [step, HostEvent.seenFrom, hOwn, Ne.symm hOwn]
    | _ => rfl

omit [DecidableEq σ] in
/-- A metric that is added, or refused, starts nothing. -/
theorem active_addMetric (h : Host σ) (d : Descriptor Float) (scope : Option String) :
    ((h.agent.addMetric d scope).toOption.getD h.agent).active = h.agent.active := by
  unfold Instrumenter.addMetric
  split <;> rfl

omit [DecidableEq σ] in
/-- What an active metric is after a report. -/
theorem find?_report (h : Host σ) (now : Timestamp) {id : InstId} {a : ActiveMetric}
    (active : h.agent.active.find? id = some a) :
    (h.report source now).1.active.find? id =
      some { a with metric := (a.metric.value (h.feeds (a.own source))).2 } := by
  rw [report, Instrumenter.active_reportFrom, Table.find?_mapValues, active, Option.map_some,
    Instrumenter.reportOne]
  split
  · next hValue => rw [ActiveMetric.own, hValue]
  · next hValue => rw [ActiveMetric.own, hValue]

/-- What happens on a host is to each active metric what it sees of it, and no more. -/
theorem find?_step {h : Host σ} {ds : List (Descriptor Float)} (stocked : h.agent.Stocked ds)
    {id : InstId} {a : ActiveMetric} (active : h.agent.active.find? id = some a) {x : HostEvent σ}
    (goes : ¬ x.Stops id) :
    (h.step source x).agent.active.find? id = some
      { a with metric := (SampledMetric.play (a.metric, h.feeds (a.own source))
        (x.seenFrom (a.own source)).toList).1 } := by
  cases x with
  | feed name c =>
    -- a change of the feed shows only when it is read
    have hSame : (SampledMetric.play (a.metric, h.feeds (a.own source))
        ((HostEvent.feed name c).seenFrom (a.own source)).toList).1 = a.metric := by
      by_cases hOwn : name = a.own source
      · simp only [HostEvent.seenFrom, if_pos hOwn]
        rfl
      · simp only [HostEvent.seenFrom, if_neg hOwn]
        rfl
    rw [hSame]
    exact active
  | addModule name label => exact active
  | addMetric d scope =>
    show ((h.agent.addMetric d scope).toOption.getD h.agent).active.find? id = _
    rw [active_addMetric]
    exact active
  | receive e =>
    exact Instrumenter.find?_handle_of_active stocked.active stocked.offers active
      fun h => goes ⟨e, rfl, h⟩
  | report now => exact find?_report source h now active

/-- **What a host samples is a sampled metric that nobody else touches.** As long as the host is not
told to stop for it, only the reports and its own feed change it. -/
theorem find?_run {h : Host σ} {keyBase hostname : String} {ds : List (Descriptor Float)}
    (equipped : Instrumenter.Equipped keyBase hostname ds h.agent) {id : InstId} {a : ActiveMetric}
    (active : h.agent.active.find? id = some a) {xs : List (HostEvent σ)}
    (goes : ∀ x ∈ xs, ¬ x.Stops id) :
    (h.run source xs).agent.active.find? id = some
      { a with metric := (SampledMetric.play (a.metric, h.feeds (a.own source))
        (xs.filterMap (·.seenFrom (a.own source)))).1 } := by
  induction xs generalizing h ds a with
  | nil => exact active
  | cons x rest ih =>
    obtain ⟨-, -, hStocked⟩ := Instrumenter.stocked_of_equipped equipped
    obtain ⟨ds', hEquipped⟩ := equipped_step source equipped x
    have hStep := find?_step source hStocked active (goes x List.mem_cons_self)
    have hRest := ih hEquipped hStep fun y hy => goes y (List.mem_cons_of_mem _ hy)
    have hSeen : ∀ xs : List (HostEvent σ), (x :: xs).filterMap (·.seenFrom (a.own source)) =
        (x.seenFrom (a.own source)).toList ++ xs.filterMap (·.seenFrom (a.own source)) := by
      intro xs
      rw [List.filterMap_cons]
      cases x.seenFrom (a.own source) <;> rfl
    -- the metric goes on reading the same feed, which is where the event has left it
    have hFeed := feeds_run source h (a.own source) [x]
    rw [hSeen, List.filterMap_nil, List.append_nil,
      ← SampledMetric.play_feed (a.metric, h.feeds (a.own source))] at hFeed
    generalize hNext : SampledMetric.play (a.metric, h.feeds (a.own source))
      (x.seenFrom (a.own source)).toList = next at hRest hFeed
    have hOwn : ({ a with metric := next.1 } : ActiveMetric).own source = a.own source := by
      obtain ⟨hQuery, -⟩ := SampledMetric.play_frame (a.metric, h.feeds (a.own source))
        (x.seenFrom (a.own source)).toList
      rw [hNext] at hQuery
      rw [ActiveMetric.own, ActiveMetric.own, hQuery]
    rw [hOwn, show (h.step source x).feeds (a.own source) = next.2 from hFeed] at hRest
    rw [hSeen, SampledMetric.play_append, hNext]
    exact hRest

end Host

/-! ## Stints -/

/-- The time in which a host samples for a number: what had happened before, the command that
began it, what has happened since, and what the command was compiled to. -/
structure Stint (σ : Type) where
  before : List (HostEvent σ)
  envelope : Envelope Float
  since : List (HostEvent σ)
  streamKey : String
  module : String
  stat : String
  scope : Option String
  query : Query Float

namespace Stint

variable {σ : Type} [DecidableEq σ] (source : String → String → σ) (start : Host σ)

/-- After a history a number is in a stint: it was not sampled for when the command was read, the
command could be carried out, and nothing has told the host to stop since. -/
structure Of (s : Stint σ) (history : List (HostEvent σ)) (id : InstId) : Prop where
  split : history = s.before ++ .receive s.envelope :: s.since
  idle : (start.run source s.before).agent.isActive id = false
  began : ∃ predicate decomposition r,
    s.envelope.message =
      .enableInstrumentation id s.streamKey s.module s.stat predicate decomposition ∧
    (start.run source s.before).agent.metric? s.module s.stat = some r ∧ r.scope = s.scope ∧
    Query.compile r.descriptor predicate decomposition = .ok s.query
  lasts : ∀ x ∈ s.since, ¬ x.Stops id

/-- The feed that is read in a stint, as it is after some events. -/
def feedAt (s : Stint σ) (xs : List (HostEvent σ)) : Feed Float :=
  (start.run source xs).feeds (source s.module s.stat)

/-- What the events of a stint are to its sampled metric. -/
def actions (s : Stint σ) : List (SampledMetric.Action Float) :=
  s.since.filterMap (·.seenFrom (source s.module s.stat))

/-- The value of a stint after a history: the current reading of its feed, against the last report
of the stint in which the feed could be read. -/
def value (s : Stint σ) (history : List (HostEvent σ)) : Except MetricError (ReducedValue Float) :=
  ((s.feedAt source start history).read s.scope).map fun samples =>
    s.query.evaluate samples (SampledMetric.readings s.scope (s.feedAt source start s.before)
      (s.actions source)).getLast?

/-- What a host publishes for a value: the value under the key of the stream, or a notice to the
coordinator. -/
def message (s : Stint σ) (history : List (HostEvent σ)) (now : Timestamp) (id : InstId) :
    String × Message Float :=
  match s.value source start history with
  | .ok v => (s.streamKey, .data id now v)
  | .error e => (Routing.coordinator start.agent.keyBase, .instrumenterError id e.message .enabled)

variable {source start} {s : Stint σ} {history : List (HostEvent σ)} {id : InstId}

/-- A stint goes on until the host is told to stop. -/
theorem Of.concat (stint : s.Of source start history id) {x : HostEvent σ} (goes : ¬ x.Stops id) :
    ({ s with since := s.since ++ [x] } : Stint σ).Of source start (history ++ [x]) id where
  split := by
    rw [stint.split]
    simp
  idle := stint.idle
  began := stint.began
  lasts y hy := by
    rcases List.mem_append.mp hy with hy | hy
    · exact stint.lasts y hy
    · rw [List.mem_singleton.mp hy]
      exact goes

/-- The feed of a stint after a history. -/
theorem feedAt_of (stint : s.Of source start history id) :
    s.feedAt source start history =
      SampledMetric.feedAfter (s.feedAt source start s.before) (s.actions source) := by
  rw [feedAt, stint.split, Host.run_append, Host.feeds_run]
  rfl

end Stint

namespace Host

variable {σ : Type} [DecidableEq σ] {source : String → String → σ} {start : Host σ}
  {keyBase hostname : String} (fresh : start.agent = .new keyBase hostname)
  {s : Stint σ} {history : List (HostEvent σ)} {id : InstId}

/-! ## What is sampled in a stint -/

include fresh

omit [DecidableEq σ] in
theorem equipped_start : Instrumenter.Equipped keyBase hostname [] start.agent :=
  fresh ▸ .new

/-- Whatever has happened on a host, its tables are in order. -/
theorem stocked_run (source : String → String → σ) (xs : List (HostEvent σ)) :
    ∃ ds, (start.run source xs).agent.Stocked ds := by
  obtain ⟨ds, hEquipped⟩ := equipped_run source (equipped_start fresh) xs
  obtain ⟨-, -, hStocked⟩ := Instrumenter.stocked_of_equipped hEquipped
  exact ⟨ds, hStocked⟩

/-- The metric of a stint is found under the names that it is commanded by. -/
theorem named_of_stint (stint : s.Of source start history id) :
    s.query.descriptor.module = s.module ∧ s.query.descriptor.stat = s.stat := by
  obtain ⟨predicate, decomposition, r, -, hMetric, -, hCompiled⟩ := stint.began
  obtain ⟨ds, hStocked⟩ := stocked_run fresh source s.before
  rw [(Query.of_compile hCompiled).1]
  exact hStocked.offers.named _ _ _ hMetric

/-- A command that begins a stint instruments a new metric. -/
theorem find?_of_began (stint : s.Of source start history id) :
    (start.run source (s.before ++ [.receive s.envelope])).agent.active.find? id =
      some ⟨s.streamKey, (SampledMetric.new s.query s.scope).instrument⟩ := by
  obtain ⟨predicate, decomposition, r, hMessage, hMetric, hScope, hCompiled⟩ := stint.began
  have hIdle := stint.idle
  obtain ⟨ds, hStocked⟩ := stocked_run fresh source s.before
  rw [run_append]
  generalize start.run source s.before = h at *
  show (h.agent.handle s.envelope).1.active.find? id = _
  rw [show s.envelope = ⟨s.envelope.source, s.envelope.hostname, s.envelope.message⟩ from rfl,
    hMessage, Instrumenter.handle_enable]
  have hOutcome :=
    h.agent.enable_outcome id s.streamKey s.module s.stat predicate decomposition
  generalize h.agent.enable id s.streamKey s.module s.stat predicate decomposition = result
    at hOutcome
  -- of the four outcomes of a command only the last one leaves it at work
  cases hOutcome with
  | unknown absent =>
    rw [hMetric] at absent
    cases absent
  | running _ active =>
    rw [hIdle] at active
    cases active
  | unfit found _ fault =>
    rw [hMetric] at found
    rw [← Option.some.inj found, hCompiled] at fault
    cases fault
  | started found _ compiled =>
    rw [hMetric] at found
    obtain rfl := Option.some.inj found
    obtain rfl := Except.ok.inj (hCompiled.symm.trans compiled)
    rw [← hScope]
    exact (Table.find?_insert hStocked.active id id _).trans (if_pos rfl)

/-- What a number in a stint is sampled by. -/
theorem find?_of_stint (stint : s.Of source start history id) :
    (start.run source history).agent.active.find? id = some ⟨s.streamKey,
      (SampledMetric.play (.new s.query s.scope, s.feedAt source start s.before)
        (.instrument :: s.actions source)).1⟩ := by
  obtain ⟨ds, hEquipped⟩ := equipped_run source (equipped_start fresh)
    (s.before ++ [.receive s.envelope])
  have hBegan := find?_of_began fresh stint
  have hRun := find?_run source hEquipped hBegan stint.lasts
  obtain ⟨hModule, hStat⟩ := named_of_stint fresh stint
  have hOwn : (ActiveMetric.mk s.streamKey (SampledMetric.new s.query s.scope).instrument).own
      source = source s.module s.stat := by
    rw [← hModule, ← hStat]
    rfl
  -- the command itself does nothing to the feed
  have hFeed : (start.run source (s.before ++ [.receive s.envelope])).feeds
      (source s.module s.stat) = s.feedAt source start s.before := by
    rw [run_append]
    rfl
  rw [hOwn, hFeed] at hRun
  have hSplit : history = (s.before ++ [.receive s.envelope]) ++ s.since := by
    rw [stint.split]
    simp
  rw [hSplit, run_append]
  exact hRun

/-- Whatever is sampled for is in a stint. -/
theorem exists_stint {a : ActiveMetric}
    (active : (start.run source history).agent.active.find? id = some a) :
    ∃ s : Stint σ, s.Of source start history id := by
  induction history using List.reverseRecOn generalizing a with
  | nil =>
    rw [run, List.foldl_nil, fresh] at active
    cases active
  | append_singleton xs x ih =>
    obtain ⟨ds, hStocked⟩ := stocked_run fresh source xs
    rw [run_append] at active
    change ((start.run source xs).step source x).agent.active.find? id = some a at active
    cases hBefore : (start.run source xs).agent.active.find? id with
    | some a' =>
      obtain ⟨s, hStint⟩ := ih hBefore
      refine ⟨{ s with since := s.since ++ [x] }, hStint.concat ?_⟩
      -- a command to stop would have ended it
      rintro ⟨e, rfl, hStop⟩
      obtain ⟨source', host, m⟩ := e
      subst hStop
      change ((start.run source xs).agent.active.erase id).find? id = some a at active
      rw [Table.find?_erase_self] at active
      cases active
    | none =>
      cases x with
      | receive e =>
        obtain ⟨streamKey, module, stat, predicate, decomposition, r, q, hMessage, hMetric,
          hCompiled⟩ := Instrumenter.find?_handle_of_idle hStocked.active hBefore active
        refine ⟨⟨xs, e, [], streamKey, module, stat, r.scope, q⟩, rfl, ?_,
          ⟨predicate, decomposition, r, hMessage, hMetric, rfl, hCompiled⟩, by simp⟩
        rw [Instrumenter.isActive, Table.contains, hBefore]
        rfl
      | feed | addModule =>
        cases hBefore.symm.trans active
      | addMetric d scope =>
        have hActive : ((start.run source xs).step source (.addMetric d scope)).agent.active =
            (start.run source xs).agent.active := active_addMetric _ _ _
        rw [hActive, hBefore] at active
        cases active
      | report now =>
        rw [step, report, Instrumenter.active_reportFrom, Table.find?_mapValues, hBefore] at active
        cases active

/-! ## Reports -/

/-- A call for a number in a stint returns the value of the stint. -/
theorem value_of_stint (stint : s.Of source start history id) {a : ActiveMetric}
    (active : (start.run source history).agent.active.find? id = some a) :
    a.streamKey = s.streamKey ∧
      (a.metric.value ((start.run source history).feeds (a.own source))).1 =
        s.value source start history := by
  obtain rfl := Option.some.inj ((find?_of_stint fresh stint).symm.trans active)
  refine ⟨rfl, ?_⟩
  obtain ⟨hModule, hStat⟩ := named_of_stint fresh stint
  let f := s.feedAt source start s.before
  let actions := s.actions source
  -- the metric is instrumented once, when the stint begins, and never switched again
  have hOn : SampledMetric.OnSince (.instrument :: actions) [] actions := by
    refine ⟨rfl, fun action hAction => ?_⟩
    obtain ⟨x, -, hSeen⟩ := List.mem_filterMap.mp hAction
    exact HostEvent.not_switch_of_seen hSeen
  have hValue := SampledMetric.value_onSince s.query s.scope f hOn
  have hRead : SampledMetric.feedAfter f (.instrument :: actions) =
      s.feedAt source start history := (Stint.feedAt_of stint).symm
  have hFeed : (SampledMetric.play (.new s.query s.scope, f) (.instrument :: actions)).2 =
      s.feedAt source start history := (SampledMetric.play_feed _ _).trans hRead
  have hQuery := (SampledMetric.play_frame (.new s.query s.scope, f) (.instrument :: actions)).1
  have hOwn : ActiveMetric.own source ⟨s.streamKey,
      (SampledMetric.play (.new s.query s.scope, f) (.instrument :: actions)).1⟩ =
        source s.module s.stat := by
    rw [ActiveMetric.own, hQuery, ← hModule, ← hStat]
    rfl
  dsimp only at hValue
  rw [hFeed, hRead] at hValue
  rw [hOwn]
  exact hValue

/-- What is reported for a number in a stint. -/
theorem reportOne_of_stint (stint : s.Of source start history id) (now : Timestamp)
    {a : ActiveMetric} (active : (start.run source history).agent.active.find? id = some a) :
    let h := start.run source history
    let one := h.agent.reportOne (h.feeds (a.own source)) now id a
    one.2.1 = s.message source start history now id ∧ one.2.2 = one.2.1.2.isValue := by
  intro h one
  obtain ⟨hKey, hValue⟩ := value_of_stint fresh stint active
  obtain ⟨ds, hEquipped⟩ := equipped_run source (equipped_start fresh) history
  have hBase : h.agent.keyBase = start.agent.keyBase := by
    rw [(Instrumenter.stocked_of_equipped hEquipped).1, fresh]
    rfl
  have hOne : one = h.agent.reportOne (h.feeds (a.own source)) now id a := rfl
  rw [Stint.message, ← hValue, ← hKey, ← hBase]
  rw [Instrumenter.reportOne] at hOne
  split at hOne
  · next v m hCall =>
    rw [hOne, hCall]
    exact ⟨rfl, rfl⟩
  · next e m hCall =>
    rw [hOne, hCall]
    exact ⟨rfl, rfl⟩

end Host

/-- **No interval is lost or counted twice.** For a sampled metric, after any run of changes of its
feed, starts, stops and readings, the value is what `SampledMetric.IsValueAfter` says. A host keeps
this for every number apart: whatever has happened on it, a report

* is about the numbers that are in a stint, in ascending order, with one message for each;
* gives for each number the value of its stint, under the key of its stream, or else a notice to the
  coordinator; this depends on what the stint has seen and on nothing else;
* counts the values;
* leaves a number whose feed cannot be read as it was;
* is `Instrumenter.report` if all feeds are the same one. -/
theorem no_interval_lost (N : Type) [Arithmetic N] :
    (∀ (query : Query N) (scope : Option String) (f : Feed N)
      (past : List (SampledMetric.Action N)),
      let s := SampledMetric.play (.new query scope, f) past
      SampledMetric.IsValueAfter query scope f past (s.1.value s.2).1) ∧
    ∀ (σ : Type) [DecidableEq σ] (source : String → String → σ) (keyBase hostname : String)
      (feeds : σ → Feed Float) (history : List (HostEvent σ)) (now : Timestamp),
      let start : Host σ := ⟨.new keyBase hostname, feeds⟩
      let h := start.run source history
      let report := h.report source now
      h.agent.active.Ascending ∧
      (∀ id, id ∈ h.agent.active.keys ↔ ∃ s : Stint σ, s.Of source start history id) ∧
      List.Forall₂ (fun id sent => ∀ s : Stint σ, s.Of source start history id →
        sent = s.message source start history now id) h.agent.active.keys report.2.1 ∧
      report.2.2 = (report.2.1.filter (·.2.isValue)).length ∧
      (∀ id a, h.agent.active.find? id = some a → (h.feeds (a.own source)).failure.isSome →
        report.1.active.find? id = some a) ∧
      ∀ f, (∀ name, h.feeds name = f) → report = h.agent.report f now := by
  refine ⟨fun query scope f past => SampledMetric.value_run query scope f past, ?_⟩
  intro σ _ source keyBase hostname feeds history now start h report
  have hFresh : start.agent = .new keyBase hostname := rfl
  obtain ⟨ds, hStocked⟩ := Host.stocked_run hFresh source history
  have hFind : ∀ e ∈ h.agent.active, h.agent.active.find? e.1 = some e.2 := fun e he =>
    (Table.mem_iff_find? hStocked.active).mp he
  -- the report of each number by itself
  let one (e : InstId × ActiveMetric) :=
    h.agent.reportOne (h.feeds (e.2.own source)) now e.1 e.2
  have hOne : ∀ e ∈ h.agent.active, ∀ s : Stint σ, s.Of source start history e.1 →
      (one e).2.1 = s.message source start history now e.1 ∧ (one e).2.2 = (one e).2.1.2.isValue :=
    fun e he s stint => Host.reportOne_of_stint hFresh stint now (hFind e he)
  have hSent : report.2.1 = h.agent.active.map fun e => (one e).2.1 := by
    show List.map _ (List.map _ _) = _
    rw [List.map_map]
    rfl
  have hCount : report.2.2 = (h.agent.active.filter fun e => (one e).2.2).length := by
    show (List.filter _ (List.map _ _)).length = _
    rw [List.filter_map, List.length_map]
    rfl
  refine ⟨hStocked.active, fun id => ?_, ?_, ?_, fun id a active failing => ?_, fun f same => ?_⟩
  · rw [Table.mem_keys_iff hStocked.active, Option.isSome_iff_exists]
    exact ⟨fun ⟨a, active⟩ => Host.exists_stint hFresh active,
      fun ⟨s, stint⟩ => ⟨_, Host.find?_of_stint hFresh stint⟩⟩
  · rw [hSent, Table.keys, List.forall₂_map_left_iff, List.forall₂_map_right_iff, List.forall₂_same]
    exact fun e he s stint => (hOne e he s stint).1
  · rw [hSent, hCount, List.filter_map, List.length_map]
    refine congrArg List.length (List.filter_congr fun e he => ?_)
    obtain ⟨s, stint⟩ := Host.exists_stint hFresh (hFind e he)
    exact (hOne e he s stint).2
  · rw [Host.find?_report source h now active, SampledMetric.value_failing _ failing]
  · rw [← Instrumenter.reportFrom_single]
    simp only [report, Host.report, same]

/-- A host with one metric is told to sample it, and its feed fails for one of two reports. The next
report is one message, about the number of the command. -/
theorem no_interval_lost_brief :
    let start : Host Unit := ⟨.new "k" "h", fun _ => .empty⟩
    let history : List (HostEvent Unit) :=
      [.addModule "m" "M", .addMetric (.new "m" "s" "S" "u") none,
        .receive ⟨"c", "c", .enableInstrumentation 1 "k.1" "m" "s" .trivial []⟩,
        .report ⟨1⟩, .feed () (.fail "gone"), .report ⟨2⟩, .feed () .recover]
    let h := start.run (fun _ _ => ()) history
    h.agent.active.keys = [1] ∧ ∃ s : Stint Unit, s.Of (fun _ _ => ()) start history 1 ∧
      (h.report (fun _ _ => ()) ⟨3⟩).2.1 = [s.message (fun _ _ => ()) start history ⟨3⟩ 1] := by
  intro start history h
  obtain ⟨-, hHosts⟩ := no_interval_lost Float
  obtain ⟨-, hKeys, hSent, -⟩ := hHosts Unit (fun _ _ => ()) "k" "h" (fun _ => .empty) history ⟨3⟩
  have hOne : h.agent.active.keys = [1] := rfl
  obtain ⟨s, stint⟩ := (hKeys 1).mp (hOne ▸ List.mem_singleton_self 1)
  refine ⟨hOne, s, stint, ?_⟩
  rw [show Table.keys _ = [1] from hOne, List.forall₂_cons_left_iff] at hSent
  obtain ⟨sent, rest, hMessage, hRest, hReport⟩ := hSent
  obtain rfl := List.forall₂_nil_left_iff.mp hRest
  rw [← hMessage s stint]
  exact hReport

end FleetMetrics
