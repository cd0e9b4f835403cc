import Mathlib
import FleetMetrics.Proofs.Coordinator.Placement
import FleetMetrics.Proofs.Coordinator.Relevance
import FleetMetrics.Proofs.Coordinator.Validity
import FleetMetrics.Proofs.Routing

/-!
# Requests are all or nothing

A request passes a check, is placed, and is launched: a number is drawn, loads go up, a record is
stored, and commands are published one by one. What must not happen is that a request which is
refused on the way leaves something behind, a number drawn or somebody told. And a number must never
be drawn twice, or the values of two instrumentations flow under one key. Deletions are what makes
that hard to see in the table: it forgets which numbers it has held.

So the numbers are counted along the history. `made` reads the records that an event makes off the
tables before and after it, and `madeIn` collects them over a history, in order; nothing in either
speaks of the counter or of why a request is accepted.

Main results:

* `create_invalid`, `create_unplaced`, `create_launched` — the three ways in which a request ends.
* `made_step` — an event makes a record with the next number, if it is a request that is accepted.
* `madeIn_run` — over a history the records are numbered from the next number on.
* `creation_atomic` — all of it, from the start.
-/

namespace FleetMetrics.Coordinator

/-! ## The three ends of a request -/

section Request

variable {c : Coordinator} {s : Spec} (ticket : Ticket) (now : Nat)

/-- A request that does not suit the catalog is refused, and leaves nothing behind. -/
theorem create_invalid (unsuited : ¬ s.Suits c.registry.catalog) :
    ∃ reason, c.create s ticket now = ⟨c, [], [(ticket, .error (.validation reason))]⟩ := by
  cases hFault : c.fault? s with
  | none => exact absurd (fault?_eq_none_iff.mp hFault) unsuited
  | some e =>
    obtain ⟨reason, rfl⟩ := validation_of_fault? hFault
    refine ⟨reason, ?_⟩
    unfold create
    rw [hFault]

/-- So is one that there is no aggregator for. -/
theorem create_unplaced (suits : s.Suits c.registry.catalog)
    (nobody : c.registry.aggregators.records = []) :
    c.create s ticket now = ⟨c, [], [(ticket, .error .noAggregators)]⟩ := by
  have hNone : c.registry.aggregators.leastLoaded? = none := by
    rw [Directory.leastLoaded?_eq_argmin, nobody, List.argmin_nil]
  unfold create
  rw [fault?_eq_none_iff.mpr suits]
  simp only [Registry.selectAggregator, hNone]

/-- Somebody is chosen for any other one. -/
theorem exists_chosen (suits : s.Suits c.registry.catalog)
    (somebody : c.registry.aggregators.records ≠ []) :
    ∃ a, c.registry.aggregators.leastLoaded? = some a ∧ c.chosen? s = some a := by
  have hSome : c.registry.aggregators.leastLoaded? ≠ none := by
    rwa [Directory.leastLoaded?_eq_argmin, Ne, List.argmin_eq_none]
  obtain ⟨a, ha⟩ := Option.ne_none_iff_exists'.mp hSome
  refine ⟨a, ha, ?_⟩
  rw [chosen?, fault?_eq_none_iff.mpr suits]
  exact ha

/-- **An accepted request** is not answered yet. The aggregator is told first, then each
instrumenter in order; the record is stored under the next number, and nothing else changes but
loads. -/
theorem create_launched (hc : c.Sound) {a : AgentRecord} (chosen : c.chosen? s = some a) :
    let t := c.create s ticket now
    let i := c.newRecord s ticket now a.hostname
    t.answered = [] ∧
      t.sent = (a.routingKey, .enableAggregation c.nextId (c.streamKey c.nextId)) ::
        c.registry.instrumenters.records.map (fun r => (r.routingKey,
          .enableInstrumentation c.nextId (c.streamKey c.nextId) s.module s.stat s.predicate
            s.decomposition)) ∧
      (∀ id, t.coordinator.instrumentations.find? id =
        if id = c.nextId then some i else c.instrumentations.find? id) ∧
      t.coordinator.bare = { c.bare with nextId := c.nextId + 1 } := by
  intro t i
  have hLaunch : t = c.launch s ticket now a := create_of_chosen chosen ticket now
  rw [hLaunch]
  refine ⟨rfl, rfl, fun id => Table.find?_insert hc.ascending c.nextId id i, ?_⟩
  simp only [bare, launch, store, withLoads, Directory.acquire, Directory.unloaded_changeLoad,
    Directory.unloaded_acquireAll]

end Request

/-! ## The records that are made -/

/-- The records that an event makes: those under numbers that had no record before. -/
def made (c : Coordinator) (x : Event) : List Instrumentation :=
  (c.step x).coordinator.instrumentations.values.filter fun i =>
    !c.instrumentations.contains i.id

/-- The records that are made in a history, in order, whatever becomes of them. -/
def madeIn (c : Coordinator) : List Event → List Instrumentation
  | [] => []
  | x :: rest => c.made x ++ (c.step x).coordinator.madeIn rest

section Made

variable {c : Coordinator} (hc : c.Sound)

include hc

/-- Only a request that is accepted makes a record. -/
theorem made_of_not_accepts {x : Event} (refused : c.accepts x = false) : c.made x = [] := by
  refine List.filter_eq_nil_iff.mpr fun i hi hNew => ?_
  have hAfter := (sound_step hc x).eq_of_mem hi
  have hBefore : c.instrumentations.find? i.id = none := by
    simpa [Table.contains] using hNew
  have hChange := change_step hc x i.id
  rw [hBefore, hAfter] at hChange
  generalize (fun w => ordersIn (c.step x).sent w i.id) = orders at hChange
  cases hChange with
  | created chosen next =>
    rw [accepts, chosen] at refused
    cases refused

/-- A request that is accepted makes one. -/
theorem made_of_chosen {s : Spec} {a : AgentRecord} (chosen : c.chosen? s = some a)
    (ticket : Ticket) (now : Nat) :
    c.made (.create s ticket now) = [c.newRecord s ticket now a.hostname] := by
  have hTable : (c.step (.create s ticket now)).coordinator.instrumentations =
      c.instrumentations.insert c.nextId (c.newRecord s ticket now a.hostname) := by
    rw [step, create_of_chosen chosen]
    rfl
  have hFree : c.instrumentations.contains c.nextId = false := by
    rw [Table.contains, hc.free_next, Option.isSome_none]
  -- the other records of the table were there before, and so it is one record in all
  have hOld :
      c.instrumentations.values.countP (fun i => !c.instrumentations.contains i.id) = 0 := by
    refine List.countP_eq_zero.mpr fun i hi => ?_
    simp [Table.contains, hc.eq_of_mem hi]
  have hOne : (c.made (.create s ticket now)).length = 1 := by
    rw [made, ← List.countP_eq_length_filter, hTable,
      Table.countP_insert_new _ hc.ascending _ hc.free_next, hOld]
    simp [newRecord, hFree]
  obtain ⟨i, hi⟩ := List.length_eq_one_iff.mp hOne
  have hMem : c.newRecord s ticket now a.hostname ∈ c.made (.create s ticket now) := by
    refine List.mem_filter.mpr ⟨?_, by simp [newRecord, hFree]⟩
    rw [hTable, Table.mem_values_iff (Table.ascending_insert hc.ascending _ _)]
    exact ⟨c.nextId, Table.find?_alter_self hc.ascending _ _⟩
  rw [hi] at hMem ⊢
  rw [List.mem_singleton.mp hMem]

/-- **One event.** The records that it makes, at most one, are numbered from the next number on, and
have the stream keys of their numbers. -/
theorem made_step (x : Event) :
    (c.made x).map (·.id) = List.range' c.nextId (c.made x).length ∧
      (∀ i ∈ c.made x, i.streamKey = Routing.stream c.keyBase i.id) ∧
      (c.step x).coordinator.nextId = c.nextId + (c.made x).length := by
  have hNext := (frame_step hc x).2
  cases hAccepts : c.accepts x with
  | false =>
    rw [made_of_not_accepts hc hAccepts]
    rw [hAccepts] at hNext
    exact ⟨rfl, by simp, hNext⟩
  | true =>
    rw [hAccepts] at hNext
    cases x with
    | create s ticket now =>
      obtain ⟨a, chosen⟩ := Option.isSome_iff_exists.mp hAccepts
      rw [made_of_chosen hc chosen]
      exact ⟨rfl, by simp [newRecord, streamKey], hNext⟩
    | _ => cases hAccepts

/-- **A history.** The records that are made in it are numbered from the next number on, each with
the stream key of its number. -/
theorem madeIn_run (history : List Event) :
    (c.madeIn history).map (·.id) = List.range' c.nextId (c.madeIn history).length ∧
      (∀ i ∈ c.madeIn history, i.streamKey = Routing.stream c.keyBase i.id) ∧
      (c.run history).nextId = c.nextId + (c.madeIn history).length := by
  induction history generalizing c with
  | nil => exact ⟨rfl, by simp [madeIn], rfl⟩
  | cons x rest ih =>
    obtain ⟨hIds, hKeys, hNext⟩ := made_step hc x
    obtain ⟨hIds', hKeys', hNext'⟩ := ih (sound_step hc x)
    rw [hNext] at hIds' hNext'
    rw [(frame_step hc x).1] at hKeys'
    refine ⟨?_, ?_, ?_⟩
    · rw [madeIn, List.map_append, hIds, hIds', List.length_append, List.range'_append_1]
    · intro i hi
      rcases List.mem_append.mp hi with hi | hi
      · exact hKeys i hi
      · exact hKeys' i hi
    · show ((c.step x).coordinator.run rest).nextId = _
      rw [hNext', madeIn, List.length_append, Nat.add_assoc]

theorem keyBase_run (history : List Event) : (c.run history).keyBase = c.keyBase := by
  induction history using List.reverseRecOn with
  | nil => rfl
  | append_singleton xs x ih => rw [run_concat, (frame_step (sound_run hc xs) x).1, ih]

/-- No two records that are made in a history have one stream key. -/
theorem streamKeys_nodup (history : List Event) :
    ((c.madeIn history).map (·.streamKey)).Nodup := by
  obtain ⟨hIds, hKeys, -⟩ := madeIn_run hc history
  have hMap : (c.madeIn history).map (·.streamKey) =
      ((c.madeIn history).map (·.id)).map (Routing.stream c.keyBase) := by
    rw [List.map_map]
    exact List.map_congr_left hKeys
  rw [hMap, hIds]
  exact .map (fun _ _ => Routing.stream_injective) List.nodup_range'

end Made

/-- **Requests are all or nothing, and numbers are never used again.** After any history

* a request that does not suit the catalog is answered at once that it is not valid, nothing is
  published, and the coordinator is as it was;
* so is a request that suits the catalog while there is no aggregator, with the answer that there is
  none;
* for any other request one command goes to the least loaded aggregator and then one to each
  instrumenter, in the order of their first notices, with the request, the next number and its
  stream key. The table gains one record, and nothing else changes but the counter and loads;
* nothing else makes a record.

The records made in the history are numbered from one on in the order of their requests, whatever
was refused, failed or was deleted in between; the counter is one ahead of them, the numbers in the
table are below it, and no two of them have one stream key. -/
theorem creation_atomic (keyBase : String) (ackTimeout : Nat) (history : List Event) :
    let start := Coordinator.new keyBase ackTimeout
    let c := start.run history
    let number := (start.madeIn history).length + 1
    let key := Routing.stream keyBase number
    (∀ s ticket now,
      (¬ s.Suits c.registry.catalog → ∃ reason,
        c.create s ticket now = ⟨c, [], [(ticket, .error (.validation reason))]⟩) ∧
      (s.Suits c.registry.catalog → c.registry.aggregators.records = [] →
        c.create s ticket now = ⟨c, [], [(ticket, .error .noAggregators)]⟩) ∧
      (s.Suits c.registry.catalog → c.registry.aggregators.records ≠ [] → ∃ a i,
        let t := c.create s ticket now
        c.registry.aggregators.leastLoaded? = some a ∧ t.answered = [] ∧
        t.sent = (a.routingKey, .enableAggregation number key) ::
          c.registry.instrumenters.records.map (fun r => (r.routingKey,
            .enableInstrumentation number key s.module s.stat s.predicate s.decomposition)) ∧
        c.registry.instrumenters.records.map (·.hostname) = firstSeen history .instrumentation ∧
        c.made (.create s ticket now) = [i] ∧
        i.id = number ∧ i.spec = s ∧ i.streamKey = key ∧ i.aggregator = a.hostname ∧
        i.stage = .creating ∧ i.pending = some ticket ∧
        (∀ id, t.coordinator.instrumentations.find? id =
          if id = number then some i else c.instrumentations.find? id) ∧
        t.coordinator.bare = { c.bare with nextId := number + 1 })) ∧
    (∀ x, c.made x ≠ [] → ∃ s ticket now, x = .create s ticket now) ∧
    (start.madeIn history).map (·.id) = List.range' 1 (start.madeIn history).length ∧
    c.nextId = number ∧ (∀ id i, c.instrumentations.find? id = some i → id < c.nextId) ∧
    ((start.madeIn history).map (·.streamKey)).Nodup := by
  intro start c number key
  have hStart : start.Sound := sound_new keyBase ackTimeout
  have hc : c.Sound := sound_run hStart history
  obtain ⟨hIds, -, hCounter⟩ := madeIn_run hStart history
  have hNext : c.nextId = number := hCounter.trans (Nat.add_comm _ _)
  refine ⟨fun s ticket now => ⟨create_invalid ticket now, create_unplaced ticket now, ?_⟩, ?_, hIds,
    hNext, fun id i found => (hc.fits id i found).given, streamKeys_nodup hStart history⟩
  · intro hSuits hSomebody
    obtain ⟨a, hLeast, hChosen⟩ := exists_chosen hSuits hSomebody
    have hKey : c.streamKey c.nextId = key := by
      rw [hNext, streamKey, keyBase_run hStart]
      rfl
    obtain ⟨hAnswered, hSent, hTable, hBare⟩ := create_launched ticket now hc hChosen
    rw [hKey, hNext] at hSent
    rw [hNext] at hTable hBare
    exact ⟨a, c.newRecord s ticket now a.hostname, hLeast, hAnswered, hSent,
      hostnames_run keyBase ackTimeout history .instrumentation,
      made_of_chosen hc hChosen ticket now, hNext, rfl, hKey, rfl, rfl, rfl, hTable, hBare⟩
  · intro x hMade
    cases x with
    | create s ticket now => exact ⟨s, ticket, now, rfl⟩
    | _ => exact absurd (made_of_not_accepts hc rfl) hMade

/-- The instrumentation of an accepted request is deleted, and another request is refused. -/
def resumedHistory : List Event :=
  briefHistory ++ [.delete 1, .create ⟨"", "s", .trivial, [], []⟩ 1 0]

/-- The table is empty again, and the next request gets the second number. -/
theorem creation_atomic_brief :
    let c := (Coordinator.new "k" 3).run resumedHistory
    let s : Spec := ⟨"m", "s", .trivial, [], []⟩
    c.instrumentations.values.length = 0 ∧ s.Suits c.registry.catalog ∧
      c.registry.aggregators.records ≠ [] ∧
      ∃ i, c.made (.create s 2 0) = [i] ∧ i.id = 2 ∧ i.streamKey = Routing.stream "k" 2 := by
  intro c s
  have hAccepted : c.fault? s = none := by decide
  have hSuits : s.Suits c.registry.catalog := fault?_eq_none_iff.mp hAccepted
  have hSomebody : c.registry.aggregators.records ≠ [] := by decide
  obtain ⟨hRequest, -⟩ := creation_atomic "k" 3 resumedHistory
  obtain ⟨-, -, hLaunched⟩ := hRequest s 2 0
  obtain ⟨a, i, -, -, -, -, hMade, hId, -, hKey, -⟩ := hLaunched hSuits hSomebody
  exact ⟨rfl, hSuits, hSomebody, i, hMade, hId, hKey⟩

end FleetMetrics.Coordinator
