import Mathlib
import FleetMetrics.Proofs.Coordinator.Announcements
import FleetMetrics.Proofs.Coordinator.Compensation
import FleetMetrics.Proofs.Query

/-!
# What was valid stays valid

A request is checked once, when it comes in, and against the catalog of that moment. The record
that comes of it lives on under catalogs that later announcements were merged into, and these may
describe the fields of the record in another way. If one of them were believed, a record could come
to be decomposed along two numeric fields, which no request may ask for, and the values that a
listing promises would change their shape while clients read them.

What the check asks for is written down in `Spec.Suits` as a list of conditions, each of which is
about fields that the catalog knows at that moment. A catalog never takes back what it said
(`extends_run`), so every condition is kept by all catalogs to come. The shape of the values depends
on the same fields and is kept with them.

Main results:

* `fault?_eq_none_iff` — a request passes the check exactly if it suits the catalog.
* `Suits.of_extends`, `statKind_of_extends` — what suits a catalog suits every later one, and is
  listed with the same shape.
* `stays_valid` — both, for every record from its creation to its deletion.
-/

namespace FleetMetrics

/-- The arity of a field of a statistic, as far as the catalog knows both. -/
def Catalog.arity? (c : Catalog) (module stat field : String) : Option FieldArity :=
  (c.stat? module stat).bind (·.arityOf field)

namespace Catalog

variable {c d : Catalog} {module stat field : String}

/-- The kinds of fields are those that the statistic lists. -/
theorem arity?_of_stat? {info : StatInfo} (found : c.stat? module stat = some info) :
    c.arity? module stat = info.arityOf := by
  funext field
  rw [arity?, found, Option.bind_some]

/-- A field has a kind if the catalog knows it at its path. -/
theorem arity?_eq_some_iff {a : FieldArity} :
    c.arity? module stat field = some a ↔
      ∃ label, c.known? (.field module stat field) = some (.field ⟨label, a⟩) := by
  simp only [arity?, known?, StatInfo.arityOf, Option.bind_eq_some_iff, Option.map_eq_some_iff,
    Entry.field.injEq]
  constructor
  · rintro ⟨info, hStat, ⟨label, arity⟩, hField, rfl⟩
    exact ⟨label, info, hStat, _, hField, rfl⟩
  · rintro ⟨label, info, hStat, _, hField, rfl⟩
    exact ⟨info, hStat, _, hField, rfl⟩

/-- The fields with a kind are those that the catalog knows. -/
theorem isSome_arity? :
    (c.arity? module stat field).isSome = (c.known? (.field module stat field)).isSome := by
  rw [arity?, known?]
  cases c.stat? module stat with
  | none => rfl
  | some info => rw [Option.bind_some, Option.bind_some, StatInfo.arityOf, Option.isSome_map,
      Option.isSome_map]

/-- What a catalog knows is known by every catalog that extends it. -/
theorem Extends.isSome (h : c.Extends d) {p : Path} (known : (c.known? p).isSome) :
    (d.known? p).isSome := by
  obtain ⟨e, hSome⟩ := Option.isSome_iff_exists.mp known
  rw [h p e hSome]
  rfl

/-- The arity of a known field is known for ever. -/
theorem Extends.arity? (h : c.Extends d) (known : (c.known? (.field module stat field)).isSome) :
    d.arity? module stat field = c.arity? module stat field := by
  rw [← isSome_arity?] at known
  obtain ⟨a, hArity⟩ := Option.isSome_iff_exists.mp known
  obtain ⟨label, hKnown⟩ := arity?_eq_some_iff.mp hArity
  rw [hArity, arity?_eq_some_iff]
  exact ⟨label, h _ _ hKnown⟩

end Catalog

/-- A spec that can be asked for, given a catalog. -/
structure Spec.Suits (s : Spec) (c : Catalog) : Prop where
  module : Text.isAllBlank s.module = false
  stat : Text.isAllBlank s.stat = false
  metric : (c.known? (.stat s.module s.stat)).isSome
  decomposed : ∀ f ∈ s.decomposition, (c.known? (.field s.module s.stat f)).isSome
  compared : ∀ f ∈ s.predicate.fields, (c.known? (.field s.module s.stat f)).isSome
  distinct : s.decomposition.Nodup
  oneNumeric : (numericFields (c.arity? s.module s.stat) s.decomposition).length ≤ 1
  /-- No combination in the predicate is empty, however deep it stands. -/
  joined : ∀ e, s.predicate.expression = some e → ∀ k, ¬ (Expression.join k []).Within e

namespace Spec.Suits

variable {s : Spec} {c d : Catalog}

/-- **What suits a catalog suits every later one.** -/
theorem of_extends (suits : s.Suits c) (h : c.Extends d) : s.Suits d where
  module := suits.module
  stat := suits.stat
  metric := h.isSome suits.metric
  decomposed f hf := h.isSome (suits.decomposed f hf)
  compared f hf := h.isSome (suits.compared f hf)
  distinct := suits.distinct
  oneNumeric := by
    -- what is counted are fields of the decomposition, and these were known
    rw [numericFields_congr fun f hf => h.arity? (suits.decomposed f hf)]
    exact suits.oneNumeric
  joined := suits.joined

end Spec.Suits

namespace Coordinator

/-! ## The check -/

/-- **A request passes the check exactly if it suits the catalog.** -/
theorem fault?_eq_none_iff {c : Coordinator} {s : Spec} :
    c.fault? s = none ↔ s.Suits c.registry.catalog := by
  have hJoined : s.predicate.expression.bind Expression.emptyJoin? = none ↔
      ∀ e, s.predicate.expression = some e → ∀ k, ¬ (Expression.join k []).Within e := by
    simp only [Option.bind_eq_none_iff, Expression.emptyJoin?_eq_none_iff]
  -- the fields are checked only once the statistic has been found
  have hRequest : ∀ info, c.registry.catalog.stat? s.module s.stat = some info →
      (requestFault? s.module s.stat s.predicate s.decomposition info.arityOf = none ↔
        (∀ f ∈ s.decomposition,
          (c.registry.catalog.known? (.field s.module s.stat f)).isSome) ∧
        s.decomposition.Nodup ∧
        (numericFields (c.registry.catalog.arity? s.module s.stat) s.decomposition).length ≤ 1 ∧
        (∀ e, s.predicate.expression = some e → ∀ k, ¬ (Expression.join k []).Within e) ∧
        ∀ f ∈ s.predicate.fields,
          (c.registry.catalog.known? (.field s.module s.stat f)).isSome) := by
    intro info hStat
    rw [requestFault?_eq_none_iff, hJoined, ← Catalog.arity?_of_stat? hStat]
    simp only [Catalog.isSome_arity?]
  constructor
  · intro accepted
    unfold fault? at accepted
    split at accepted
    · cases accepted
    · next hModule =>
      split at accepted
      · cases accepted
      · next hName =>
        split at accepted
        · cases accepted
        · next info hStat =>
          rw [Option.map_eq_none_iff, hRequest info hStat] at accepted
          obtain ⟨hDecomposed, hDistinct, hOne, hJoins, hCompared⟩ := accepted
          refine ⟨by simpa using hModule, by simpa using hName, ?_, hDecomposed, hCompared,
            hDistinct, hOne, hJoins⟩
          rw [Catalog.known?, hStat]
          rfl
  · rintro ⟨hModule, hName, hMetric, hDecomposed, hCompared, hDistinct, hOne, hJoins⟩
    rw [Catalog.known?, Option.isSome_map] at hMetric
    obtain ⟨info, hStat⟩ := Option.isSome_iff_exists.mp hMetric
    have hNone := (hRequest info hStat).mpr ⟨hDecomposed, hDistinct, hOne, hJoins, hCompared⟩
    rw [fault?, hModule, hName]
    simp only [hStat, hNone]
    rfl

/-- **A record is listed with one shape.** Where the catalog knows the fields that a spec is
decomposed along, the shape of its values does not depend on what it learns later. -/
theorem statKind_of_extends {c d : Coordinator} {s : Spec}
    (known : ∀ f ∈ s.decomposition,
      (c.registry.catalog.known? (.field s.module s.stat f)).isSome)
    (h : c.registry.catalog.Extends d.registry.catalog) : d.statKind s = c.statKind s := by
  have hArity : ∀ f ∈ s.decomposition,
      (d.registry.catalog.stat? s.module s.stat).bind (fun stat => stat.arityOf f) =
        (c.registry.catalog.stat? s.module s.stat).bind fun stat => stat.arityOf f :=
    fun f hf => h.arity? (known f hf)
  have hAny : (s.decomposition.any fun f => decide
      ((d.registry.catalog.stat? s.module s.stat).bind (fun stat => stat.arityOf f) =
        some .numeric)) =
      s.decomposition.any fun f => decide
        ((c.registry.catalog.stat? s.module s.stat).bind (fun stat => stat.arityOf f) =
          some .numeric) := any_numeric_congr hArity
  simp only [statKind, hAny]

/-! ## Every state -/

/-- Every record asks for what could be asked for now. -/
def Valid (c : Coordinator) : Prop :=
  ∀ id i, c.instrumentations.find? id = some i → i.spec.Suits c.registry.catalog

section Run

variable {c : Coordinator} (hc : c.Sound) (sorted : c.registry.catalog.Ordered)

include hc sorted

/-- **One event.** A record was there before, and the catalog has learnt at most; or its request has
just passed the check. -/
theorem valid_step (valid : c.Valid) {x : Event} (tables : ∀ news ∈ announced [x], news.Ordered) :
    (c.step x).coordinator.Valid := by
  intro id j found
  have hExtends : c.registry.catalog.Extends (c.step x).coordinator.registry.catalog :=
    extends_run hc sorted tables
  rcases origin_step hc found with ⟨i, hBefore, hFixed⟩ | ⟨-, hAccepted⟩
  · have hSpec : j.spec = i.spec := congrArg (·.2.1) hFixed
    rw [hSpec]
    exact (valid id i hBefore).of_extends hExtends
  · exact (fault?_eq_none_iff.mp hAccepted).of_extends hExtends

omit sorted in
/-- A record that is there after some events, and whose number was given out before them, is the
record that was there. -/
theorem fixed_run {id : InstId} {i j : Instrumentation} {later : List Event}
    (before : c.instrumentations.find? id = some i)
    (after : (c.run later).instrumentations.find? id = some j) : j.fixed = i.fixed := by
  induction later using List.reverseRecOn generalizing j with
  | nil => rw [Option.some.inj (after.symm.trans before)]
  | append_singleton xs x ih =>
    rw [run_concat] at after
    have hSound := sound_run hc xs
    rcases origin_step hSound after with ⟨i', hBetween, hFixed⟩ | ⟨hNew, -⟩
    · exact hFixed.trans (ih hBetween)
    · -- no number is given out twice
      obtain ⟨i', hOld⟩ := find?_of_given hSound (given_of_record hc before xs) after
      rw [hNew] at hOld
      cases hOld

end Run

/-- Every record suits the catalog at the end of any history. -/
theorem valid_run (keyBase : String) (ackTimeout : Nat) {history : List Event}
    (tables : ∀ news ∈ announced history, news.Ordered) :
    ((Coordinator.new keyBase ackTimeout).run history).Valid := by
  induction history using List.reverseRecOn with
  | nil => exact nofun
  | append_singleton xs x ih =>
    rw [forall_announced_append] at tables
    have hc := sound_run (sound_new keyBase ackTimeout) xs
    obtain ⟨hOrdered, -⟩ := known?_run keyBase ackTimeout tables.1
    rw [run_concat]
    exact valid_step hc hOrdered (ih tables.1) tables.2

/-- **What was valid stays valid.** After any history every record passes the check that its request
passed when it came in, against the catalog as it is now, and is listed. And whatever happens later,
as long as an instrumentation is listed, it is listed for the same spec and with the same shape of
values. -/
theorem stays_valid (keyBase : String) (ackTimeout : Nat) {history later : List Event}
    (tables : ∀ news ∈ announced (history ++ later), news.Ordered) :
    let c := (Coordinator.new keyBase ackTimeout).run history
    let c' := c.run later
    (∀ id i, c.instrumentations.find? id = some i →
      i.spec.Suits c.registry.catalog ∧ c.fault? i.spec = none) ∧
    c.list.map (·.id) = c.instrumentations.keys ∧
    ∀ s ∈ c.list, ∀ s' ∈ c'.list, s'.id = s.id →
      s'.spec = s.spec ∧ s'.dimension = s.dimension ∧ s'.kind = s.kind := by
  intro c c'
  have hc : c.Sound := sound_run (sound_new keyBase ackTimeout) history
  rw [forall_announced_append] at tables
  have hValid : c.Valid := valid_run keyBase ackTimeout tables.1
  obtain ⟨hOrdered, -⟩ := known?_run keyBase ackTimeout tables.1
  refine ⟨fun id i found => ⟨hValid id i found, fault?_eq_none_iff.mpr (hValid id i found)⟩, ?_, ?_⟩
  · rw [list, List.map_map]
    exact Table.map_key_values hc.ascending hc.numbered
  · intro s hs s' hs' hId
    obtain ⟨i, hBefore, hSummary⟩ := hc.mem_list_iff.mp hs
    obtain ⟨j, hAfter, hSummary'⟩ := (sound_run hc later).mem_list_iff.mp hs'
    rw [hId] at hAfter
    have hSpec : j.spec = i.spec := congrArg (·.2.1) (fixed_run hc hBefore hAfter)
    have hKind : c'.statKind i.spec = c.statKind i.spec :=
      statKind_of_extends (hValid _ i hBefore).decomposed (extends_run hc hOrdered tables.2)
    rw [hSummary, hSummary']
    refine ⟨hSpec, ?_, ?_⟩
    · dsimp only
      rw [hSpec]
    · dsimp only
      rw [hSpec, hKind]

/-- A statistic is broken down along both of its fields, of which the second is numeric. -/
def describedHistory : List Event :=
  [.receive ⟨"k.aggregator.g", "g", .aggregatorOnline (.current "aggregator")⟩ ⟨0⟩,
    .receive ⟨"k.instrumenter.a", "a", .instrumenterOnline (.current "instrumenter")
      [("m", ⟨"M", [("s", ⟨"S", "ops", [("f", ⟨"F", .discrete⟩), ("g", ⟨"G", .numeric⟩)]⟩)]⟩)]⟩ ⟨0⟩,
    .create ⟨"m", "s", ⟨some (.join .all [.compare .eq "f" (.text "x")])⟩, ["f", "g"], []⟩ 0 0]

/-- Another host describes both fields as numeric. -/
def describedAgain : List Event :=
  [.receive ⟨"k.instrumenter.b", "b", .instrumenterOnline (.current "instrumenter")
    [("m", ⟨"M", [("s", ⟨"S", "ops", [("f", ⟨"F", .numeric⟩), ("g", ⟨"G", .numeric⟩)]⟩)]⟩)]⟩ ⟨1⟩]

/-- Had the other host been believed, there would be two numeric fields in the record. -/
theorem stays_valid_brief :
    let c := (Coordinator.new "k" 3).run describedHistory
    c.list.map (·.id) = [1] ∧
      ∀ s ∈ c.list, s.kind = .numeric ∧
        ∀ s' ∈ (c.run describedAgain).list, s'.id = s.id → s'.kind = .numeric := by
  intro c
  have hTables : ∀ news ∈ announced (describedHistory ++ describedAgain), news.Ordered := by decide
  obtain ⟨-, hListed, hSame⟩ := stays_valid "k" 3 hTables
  have hKinds : ∀ s ∈ c.list, s.kind = .numeric := by decide
  refine ⟨hListed.trans (by decide), fun s hs => ⟨hKinds s hs, fun s' hs' hId => ?_⟩⟩
  exact (hSame s hs s' hs' hId).2.2.trans (hKinds s hs)

end Coordinator

end FleetMetrics
