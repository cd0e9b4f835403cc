import Mathlib
import FleetMetrics.Config
import FleetMetrics.Proofs.Aggregator.Listening
import FleetMetrics.Proofs.Bus.Delivery
import FleetMetrics.Proofs.Coordinator.Creation
import FleetMetrics.Proofs.Instrumenter.Life
import FleetMetrics.Proofs.Routing

/-!
# What an accepted configuration is good for

A configuration is checked once, before a fleet is built from it, and nothing looks at it again. A
key base with white space that slipped through would not stop the fleet: the bus would refuse every
message, and all that is to be seen is that nobody answers.

The check is a row of tests of which the first that fails is reported. `Config.Usable` says what
they come to, and every way of reading a configuration ends with it. What it means for a fleet is
said of the parts in whatever state they are: the coordinator, the instrumenters and the aggregators
each put their keys together for themselves, and have to arrive at the same ones.

Nothing is promised of two fleets on one bus. The key base of one may continue the other's.

Main results:

* `fault?_eq_none_iff` — a configuration without a fault is usable, and no other is.
* `usable_of_ofText`, `usable_of_load`, `usable_of_ofEnvironment` — what was read is usable.
* `keys_apart` — the bus takes all keys of a fleet, and no two of them are the same.
-/

namespace FleetMetrics.Config

/-! ## What is accepted -/

/-- What a configuration must be like for a fleet to work with it. -/
structure Usable (c : Config) : Prop where
  keyBase : c.coordinator.keyBase ≠ ""
  unbroken : Text.Unbroken c.coordinator.keyBase
  ackTimeout : leastAckTimeout.nanos ≤ c.coordinator.ackTimeout.nanos
  sweepInterval : 0 < c.coordinator.sweepInterval.nanos
  requestQueue : 0 < c.coordinator.requestQueue
  reportInterval : leastReportInterval.nanos ≤ c.agent.reportInterval.nanos
  retainSamples : 0 < c.agent.retainSamples
  format : ∃ f, LogFormat.ofText c.logging.format = .ok f

/-- One test of the row finds nothing, and neither do those behind it. -/
theorem test_eq_none_iff {p : Prop} [Decidable p] {e : ConfigError} {rest : Option ConfigError} :
    (if p then some e else rest) = none ↔ ¬ p ∧ rest = none := by
  split <;> simp [*]

/-- There is nothing wrong with a format that has a name. -/
theorem format_eq_none_iff {text : String} :
    (match LogFormat.ofText text with
      | .ok _ => none
      | .error e => some e) = none ↔ ∃ f, LogFormat.ofText text = .ok f := by
  cases LogFormat.ofText text <;> simp

/-- A key base has to have a character that is no white space, and none that is. -/
theorem keyBase_tests_iff {s : String} :
    ¬ s.toList.all Text.isBlank = true ∧ ¬ s.toList.any Text.isBlank = true ↔
      s ≠ "" ∧ Text.Unbroken s := by
  rw [Bool.not_eq_true (s.toList.any _), Text.any_isBlank_eq_false]
  refine and_congr_left fun unbroken => not_congr ⟨fun all => ?_, fun empty => ?_⟩
  · -- whatever stood in the text would be white space and would not
    refine String.toList_eq_nil_iff.mp (List.eq_nil_iff_forall_not_mem.mpr fun ch hch => ?_)
    have hBlank := List.all_eq_true.mp all ch hch
    rw [unbroken ch hch] at hBlank
    cases hBlank
  · rw [empty]
    rfl

/-- **The check.** -/
theorem fault?_eq_none_iff {c : Config} : c.fault? = none ↔ c.Usable := by
  simp only [fault?, test_eq_none_iff]
  rw [← and_assoc, keyBase_tests_iff]
  constructor
  · rintro ⟨⟨keyBase, unbroken⟩, ack, sweep, queue, report, retain, format⟩
    exact ⟨keyBase, unbroken, Nat.not_lt.mp ack, Nat.pos_of_ne_zero sweep,
      Nat.pos_of_ne_zero queue, Nat.not_lt.mp report, Nat.pos_of_ne_zero retain,
      format_eq_none_iff.mp format⟩
  · intro usable
    exact ⟨⟨usable.keyBase, usable.unbroken⟩, Nat.not_lt.mpr usable.ackTimeout,
      usable.sweepInterval.ne', usable.requestQueue.ne', Nat.not_lt.mpr usable.reportInterval,
      usable.retainSamples.ne', format_eq_none_iff.mpr usable.format⟩

/-- What is not set is set to something usable. -/
example : ({} : Config).fault? = none := by decide +kernel

/-! ## Ways of reading -/

/-- What passes the check is usable. -/
theorem usable_of_check {c c' : Config} (checked : c.check = .ok c') : c'.Usable := by
  unfold check at checked
  split at checked
  · cases checked
  · next faultless =>
    cases checked
    exact fault?_eq_none_iff.mp faultless

/-- A configuration that is read from settings has passed the check. -/
theorem usable_of_ofSettings {s : Setting} {c : Config} (read : ofSettings s = .ok c) :
    c.Usable := by
  unfold ofSettings at read
  split at read
  · exact usable_of_check read
  · cases read

/-- Settings that have to be found first are checked as well. -/
theorem usable_of_found {found : Except ConfigError Setting} {f : Setting → Setting} {c : Config}
    (read : (do ofSettings (f (← found))) = .ok c) : c.Usable := by
  cases found with
  | error e => cases read
  | ok s => exact usable_of_ofSettings read

theorem usable_of_ofText {text : String} {c : Config} (read : ofText text = .ok c) : c.Usable :=
  usable_of_found (f := id) read

theorem usable_of_ofEnvironment {env : Environment.Variables} {c : Config}
    (read : ofEnvironment env = .ok c) : c.Usable :=
  usable_of_ofSettings read

/-- A configuration is usable wherever it is loaded from. -/
theorem usable_of_load {path : String} {content : PathContent} {env : Environment.Variables}
    {c : Config} (read : load path content env = .ok c) : c.Usable := by
  cases content with
  | nothing => cases read
  | unreadable reason => cases read
  | folder => exact usable_of_ofSettings read
  | file text =>
    -- what the environment sets is laid over what the file does
    exact usable_of_found (f := fun s => s.overlay (Environment.settings env)) read

/-! ## Keys -/

/-- **The bus takes all keys of a fleet, and no two of them are the same.** Let a configuration be
without a fault. Then, with its key base,

* the bus takes what is published under the key of any address, unless the address names a host
  whose name has white space in it, and only then refuses it;
* two addresses with one key are of one kind and name the same host or number;
* these are the keys of the parts, whatever has happened to them: a coordinator has its own, and its
  records have those of their streams; an agent listens on its own and the one for everybody, and
  comes online at the one that the coordinator has. -/
theorem keys_apart {c : Config} (faultless : c.fault? = none) :
    let base := c.coordinator.keyBase
    (∀ {α : Type} (b : Bus α) (a : α) (x : Address),
      (∃ reached, (b.publish (x.key base) a).1 = .ok reached) ↔
        ∀ h ∈ x.hostname?, Text.Unbroken h) ∧
    (∀ x y : Address, x.key base = y.key base → x = y) ∧
    (∀ ackTimeout history, let k := (Coordinator.new base ackTimeout).run history
      k.routingKey = Address.key base (.party .coordinator) ∧
        (∀ id, k.streamKey id = Address.key base (.stream id)) ∧
        ∀ id i, k.instrumentations.find? id = some i →
          i.streamKey = Address.key base (.stream id)) ∧
    (∀ hostname ds i, Instrumenter.Equipped base hostname ds i →
      i.bindings = [Address.key base (.party (.agent .instrumentation hostname)),
        Address.key base .broadcast] ∧
      i.announcement.1 = Address.key base (.party .coordinator)) ∧
    ∀ (N : Type) [Arithmetic N] hostname retain (es : List (Envelope N)),
      let g := (Aggregator.new base hostname retain).handleAll es
      g.bindings = [Address.key base (.party (.agent .aggregation hostname)),
        Address.key base .broadcast] ∧
      g.announcement.1 = Address.key base (.party .coordinator) := by
  intro base
  have hUsable := fault?_eq_none_iff.mp faultless
  refine ⟨fun b a x => ?_, fun x y same => Address.key_injective same, fun ackTimeout history => ?_,
    fun hostname ds i equipped => ?_, fun N _ hostname retain es => ?_⟩
  · rw [← Address.isValid_key_iff hUsable.unbroken]
    cases hValid : Routing.isValid (x.key base) with
    | true => simp [Bus.publish_of_valid b hValid]
    | false => simp [Bus.publish_of_invalid b hValid]
  · have hStart := Coordinator.sound_new base ackTimeout
    have hBase := Coordinator.keyBase_run hStart history
    have hStream : ∀ id, ((Coordinator.new base ackTimeout).run history).streamKey id =
        Address.key base (.stream id) := fun id => congrArg (Routing.stream · id) hBase
    refine ⟨congrArg Routing.coordinator hBase, hStream, fun id i found => ?_⟩
    -- a record got its key from the coordinator and keeps it
    have hFits := (Coordinator.sound_run hStart history).fits id i found
    exact hFits.streamed.trans (hStream id)
  · obtain ⟨hBase, hHost, -⟩ := Instrumenter.stocked_of_equipped equipped
    rw [Instrumenter.bindings, Instrumenter.routingKey, Instrumenter.announcement, hBase, hHost]
    exact ⟨rfl, rfl⟩
  · obtain ⟨hBase, -⟩ := Aggregator.keyBase_run base hostname retain es
    exact ⟨Aggregator.bindings_run base hostname retain es, congrArg Routing.coordinator hBase⟩

/-- A host may be called like the key for everybody, or like the stream of an instrumentation. One
with white space in its name cannot be reached. -/
theorem keys_apart_brief :
    let c : Config := { coordinator := { keyBase := "ca.1" } }
    let bus : Bus Nat := .empty
    let all : Address := .party (.agent .instrumentation "all")
    let seventh : Address := .party (.agent .aggregation "instrumentation.7")
    let broken : Address := .party (.agent .aggregation "web 1")
    c.fault? = none ∧
      (∃ reached, (bus.publish (all.key "ca.1") 0).1 = .ok reached) ∧
      (¬ ∃ reached, (bus.publish (broken.key "ca.1") 0).1 = .ok reached) ∧
      all.key "ca.1" ≠ Address.broadcast.key "ca.1" ∧
      seventh.key "ca.1" ≠ (Address.stream 7).key "ca.1" ∧
      Instrumenter.Equipped "ca.1" "all" [] (.new "ca.1" "all") ∧
      (Instrumenter.new "ca.1" "all").bindings = ["ca.1.instrumenter.all", "ca.1.all"] := by
  intro c bus all seventh broken
  have hFaultless : c.fault? = none := by decide +kernel
  obtain ⟨hTakes, hApart, -, hAgent, -⟩ := keys_apart hFaultless
  refine ⟨hFaultless, (hTakes bus 0 all).mpr ?_, fun taken => ?_, fun same => ?_, fun same => ?_,
    .new, (hAgent _ _ _ .new).1⟩
  · rintro h ⟨⟩
    decide
  · have hUnbroken : Text.Unbroken "web 1" := (hTakes bus 0 broken).mp taken _ rfl
    exact absurd hUnbroken (by decide)
  · exact absurd (hApart all .broadcast same) (by decide)
  · exact absurd (hApart seventh (.stream 7) same) (by decide)

end FleetMetrics.Config
