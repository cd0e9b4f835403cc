import Mathlib
import FleetMetrics.Proofs.Instrumenter.Life
import FleetMetrics.Proofs.Query

/-!
# What an acknowledgement means

The coordinator takes an instrumentation for enabled when all hosts have acknowledged it so, and it
tells a host that has refused nothing more. Both are right only if an acknowledgement is true.

It is true of every number that a host does not sample for yet: an `enabled` means that it does from
then on what the command says, and everything else that it still does nothing. It is less than that
of a number that a host samples for already, which happens when a coordinator starts anew and counts
from one again. An `enabled` then means that the host goes on, with the query and the key that it
was told first (`reused_number`); nothing is claimed here of a refusal, since a host that is told of
a metric it lacks refuses before it looks at the number.

Main results:

* `enable_outcome` — the ways in which a command to start can end.
* `acknowledged` — what the answer to such a command says about the state afterwards.
-/

namespace FleetMetrics

/-- A metric has just started to be sampled as a command says: under the key of the command, and by
a query that is compiled from it. -/
structure ActiveMetric.Begins (a : ActiveMetric) (streamKey module stat : String)
    (predicate : Predicate Float) (decomposition : List String) : Prop where
  compiled : Query.compile a.metric.query.descriptor predicate decomposition = .ok a.metric.query
  streamKey : a.streamKey = streamKey
  module : a.metric.query.descriptor.module = module
  stat : a.metric.query.descriptor.stat = stat
  predicate : a.metric.query.predicate = predicate
  /-- A numeric field goes last, otherwise the order is that of the command. -/
  decomposition : (a.metric.query.decomposition.map (·.name)).Perm decomposition
  instrumented : a.metric.instrumented = true
  previous : a.metric.previous = none

namespace Instrumenter

/-- How a command to start ends, with what `enable` gives in each case. -/
inductive EnableOutcome (i : Instrumenter) (id : InstId) (streamKey module stat : String)
    (predicate : Predicate Float) (decomposition : List String) :
    Except MetricError Instrumenter → Prop
  /-- The metric is not on offer. -/
  | unknown (absent : i.metric? module stat = none) :
      EnableOutcome i id streamKey module stat predicate decomposition
        (.error (.unknownMetric module stat))
  /-- There is nothing to do. -/
  | running {r : Registration} (found : i.metric? module stat = some r)
      (active : i.isActive id = true) :
      EnableOutcome i id streamKey module stat predicate decomposition (.ok i)
  /-- The request does not fit the metric. -/
  | unfit {r : Registration} {e : MetricError} (found : i.metric? module stat = some r)
      (idle : i.isActive id = false)
      (fault : Query.compile r.descriptor predicate decomposition = .error e) :
      EnableOutcome i id streamKey module stat predicate decomposition (.error e)
  | started {r : Registration} {q : Query Float} (found : i.metric? module stat = some r)
      (idle : i.isActive id = false)
      (compiled : Query.compile r.descriptor predicate decomposition = .ok q) :
      EnableOutcome i id streamKey module stat predicate decomposition
        (.ok { i with active :=
          i.active.insert id ⟨streamKey, (SampledMetric.new q r.scope).instrument⟩ })

/-- A command to enable has one of these outcomes, whatever it asks for. -/
theorem enable_outcome (i : Instrumenter) (id : InstId) (streamKey module stat : String)
    (predicate : Predicate Float) (decomposition : List String) :
    EnableOutcome i id streamKey module stat predicate decomposition
      (i.enable id streamKey module stat predicate decomposition) := by
  unfold enable
  split
  · next absent => exact .unknown absent
  · next r found =>
    split
    · next active => exact .running found active
    · next idle =>
      have hIdle : i.isActive id = false := by simpa using idle
      split
      · next fault => exact .unfit found hIdle fault
      · next compiled => exact .started found hIdle compiled

/-- A command to start is answered, to the key that its envelope names, by an acknowledgement. It
says `enabled` if there is no error. -/
theorem handle_enable (i : Instrumenter) (source host : String) (id : InstId)
    (streamKey module stat : String) (predicate : Predicate Float) (decomposition : List String) :
    i.handle ⟨source, host,
        .enableInstrumentation id streamKey module stat predicate decomposition⟩ =
      match i.enable id streamKey module stat predicate decomposition with
      | .ok after => (after, [(source, .ack .enable .instrumentation id .enabled none)])
      | .error e =>
        (i, [(source, .ack .enable .instrumentation id .disabled (some e.message))]) := by
  rw [handle, respond]
  cases i.enable id streamKey module stat predicate decomposition <;> rfl

/-- What starts is sampled as the command says. -/
theorem begins_of_compile {module stat : String} {d : Descriptor Float}
    (named : d.module = module ∧ d.stat = stat) {q : Query Float} {predicate : Predicate Float}
    {decomposition : List String} (compiled : Query.compile d predicate decomposition = .ok q)
    (streamKey : String) (scope : Option String) :
    (ActiveMetric.mk streamKey (SampledMetric.new q scope).instrument).Begins streamKey module stat
      predicate decomposition := by
  obtain ⟨rfl, rfl, hPerm⟩ := Query.of_compile compiled
  exact ⟨compiled, rfl, named.1, named.2, rfl, hPerm, rfl, rfl⟩

/-- Whatever has happened to a host, a command that it does not refuse leaves the number active, and
all others as they were. -/
theorem enable_ok {i after : Instrumenter} (sorted : i.active.Ascending) (offers : i.Offers)
    {id : InstId} {streamKey module stat : String} {predicate : Predicate Float}
    {decomposition : List String}
    (accepted : i.enable id streamKey module stat predicate decomposition = .ok after) :
    after.isActive id = true ∧
      (i.isActive id = false → ∃ a, after.active.find? id = some a ∧
        a.Begins streamKey module stat predicate decomposition) ∧
      (i.isActive id = true → after = i) ∧
      ∀ id', id' ≠ id → after.active.find? id' = i.active.find? id' := by
  have hOutcome := i.enable_outcome id streamKey module stat predicate decomposition
  rw [accepted] at hOutcome
  cases hOutcome with
  | running found active =>
    exact ⟨active, fun idle => absurd active (by simp [idle]), fun _ => rfl, fun _ _ => rfl⟩
  | @started r q found idle compiled =>
    have hFind := fun id' => Table.find?_insert sorted id id'
      (⟨streamKey, (SampledMetric.new q r.scope).instrument⟩ : ActiveMetric)
    refine ⟨?_, fun _ => ⟨_, (hFind id).trans (if_pos rfl), ?_⟩,
      fun active => absurd active (by simp [idle]), fun id' other => (hFind id').trans (if_neg other)⟩
    · rw [isActive, Table.contains, hFind, if_pos rfl]
      rfl
    · exact begins_of_compile (offers.named _ _ _ found) compiled _ _

/-- **What an instrumenter acknowledges is true.** Whatever has happened to it, it answers a command
to start with one acknowledgement.

* If that says `enabled`, the number is active afterwards. A number that was not active before is
  sampled as the command says, and one that was goes on exactly as it was.
* If it says anything else, a number that was not active before is not active afterwards.
* In both cases every other number keeps its query, its key and its previous reading. -/
theorem acknowledged {keyBase hostname : String} {ds : List (Descriptor Float)} {i : Instrumenter}
    (equipped : Equipped keyBase hostname ds i) (source host : String) (id : InstId)
    (streamKey module stat : String) (predicate : Predicate Float) (decomposition : List String) :
    ∃ after status error,
      i.handle ⟨source, host,
          .enableInstrumentation id streamKey module stat predicate decomposition⟩ =
        (after, [(source, .ack .enable .instrumentation id status error)]) ∧
      (status = .enabled → after.isActive id = true ∧
        (i.isActive id = false → ∃ a, after.active.find? id = some a ∧
          a.Begins streamKey module stat predicate decomposition) ∧
        (i.isActive id = true → after.active.find? id = i.active.find? id)) ∧
      (status ≠ .enabled → i.isActive id = false → after.isActive id = false) ∧
      ∀ id', id' ≠ id → after.active.find? id' = i.active.find? id' := by
  obtain ⟨-, -, hStocked⟩ := stocked_of_equipped equipped
  rw [handle_enable]
  cases hEnable : i.enable id streamKey module stat predicate decomposition with
  | error e =>
    -- who refuses does nothing
    exact ⟨i, .disabled, some e.message, rfl, nofun, fun _ idle => idle, fun _ _ => rfl⟩
  | ok after =>
    obtain ⟨hActive, hBegins, hGoesOn, hOthers⟩ :=
      enable_ok hStocked.active hStocked.offers hEnable
    exact ⟨after, .enabled, none, rfl,
      fun _ => ⟨hActive, hBegins, fun running => by rw [hGoesOn running]⟩,
      fun refused => absurd rfl refused, hOthers⟩

/-! ## Numbers that are used again -/

/-- An instrumenter with one metric, told to sample it for number 1. -/
def told : Instrumenter :=
  let offering := ((new "k" "h").addModule "m" "M").addMetric (.new "m" "s" "S" "u") none
  ((offering.toOption.getD (new "k" "h")).handle
    ⟨"c", "c", .enableInstrumentation 1 "k.1" "m" "s" .trivial []⟩).1

theorem equipped_told : Equipped "k" "h" [.new "m" "s" "S" "u"] told :=
  .handle (.addMetric (.addModule .new "m" "M") rfl) _

/-- Number 2 is new to the instrumenter, and the acknowledgement is what it does. -/
theorem acknowledged_brief :
    Equipped "k" "h" [.new "m" "s" "S" "u"] told ∧ told.isActive 2 = false ∧
      ∃ after a, told.handle ⟨"c", "c",
          .enableInstrumentation 2 "k.2" "m" "s" .trivial ["hostname"]⟩ =
          (after, [("c", .ack .enable .instrumentation 2 .enabled none)]) ∧
        after.active.find? 2 = some a ∧ a.Begins "k.2" "m" "s" .trivial ["hostname"] ∧
        after.active.find? 1 = told.active.find? 1 := by
  have hIdle : told.isActive 2 = false := rfl
  obtain ⟨after, status, error, hHandle, hEnabled, -, hOthers⟩ :=
    acknowledged equipped_told "c" "c" 2 "k.2" "m" "s" .trivial ["hostname"]
  have hAnswer : (told.handle ⟨"c", "c",
      .enableInstrumentation 2 "k.2" "m" "s" .trivial ["hostname"]⟩).2 =
        [("c", .ack .enable .instrumentation 2 .enabled none)] := rfl
  obtain ⟨rfl, rfl⟩ : status = .enabled ∧ error = none := by
    rw [hHandle] at hAnswer
    simpa using hAnswer
  obtain ⟨a, hFind, hBegins⟩ := (hEnabled rfl).2.1 hIdle
  exact ⟨equipped_told, hIdle, after, a, hHandle, hFind, hBegins, hOthers 1 (by decide)⟩

/-- A number that is sampled for already is not sampled for as a second command says, though that is
acknowledged as `enabled`: the host keeps the key and the decomposition of the first. And it goes on
when a second command is refused, because it is for a metric that the host lacks. -/
theorem reused_number :
    let again := told.handle ⟨"c", "c",
      .enableInstrumentation 1 "k.2" "m" "s" .trivial ["hostname"]⟩
    let unknown := told.handle ⟨"c", "c",
      .enableInstrumentation 1 "k.1" "m" "unknown" .trivial []⟩
    Equipped "k" "h" [.new "m" "s" "S" "u"] told ∧
      again.2 = [("c", .ack .enable .instrumentation 1 .enabled none)] ∧
      (again.1.active.find? 1).map
          (fun a => (a.streamKey, a.metric.query.decomposition.map (·.name))) =
        some ("k.1", []) ∧
      unknown.2 = [("c", .ack .enable .instrumentation 1 .disabled
        (some (MetricError.unknownMetric "m" "unknown").message))] ∧
      unknown.1.isActive 1 = true :=
  ⟨equipped_told, rfl, rfl, rfl, rfl⟩

end Instrumenter

end FleetMetrics
