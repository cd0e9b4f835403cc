import Mathlib
import FleetMetrics.Proofs.Coordinator.Creation
import FleetMetrics.Proofs.Coordinator.Expiry

/-!
# Deletion undoes a creation

A deletion has to take back what the record has left behind by then, and that depends on how far the
record has come: a participant that has refused has given back its load already, and a creation that
has failed has given back all of them. Releasing too few keeps an aggregator from being chosen for
ever; releasing too many does not show at all, because a counter stops at zero.

What a deletion releases is said for one host at a time (`records_delete`): one load, exactly if the
record counts for the host, and then there is a load to release. That a deletion takes back a
creation, whatever acknowledgements come in between, needs no bookkeeping of these. Loads are
determined by the records (`Exact`), so two reachable coordinators with the same records that agree
in everything else are the same (`eq_of_bare`); and everything else is what acknowledgements do not
touch.

Main results:

* `delete_found` — what a deletion does as a whole.
* `records_delete` — the loads that it releases.
* `eq_of_bare` — the loads of a coordinator are determined by its records.
* `progress_of_acks` — what acknowledgements for one record leave alone.
* `delete_created` — a deletion undoes a creation.
* `deletion_exact` — all of it, after any history.
-/

namespace FleetMetrics.Coordinator

/-! ## One deletion -/

section Delete

variable {c : Coordinator} (hc : c.Sound) {id : InstId} {i : Instrumentation}
  (found : c.instrumentations.find? id = some i)

include hc found

/-- **A deletion** drops the record, releases whoever it counts for, cancels the request that waits,
and tells every known instrumenter and then the assigned aggregator to stop. -/
theorem delete_found :
    ∃ a, c.registry.aggregators.find? i.aggregator = some a ∧
      c.delete id = .ok
        { coordinator :=
            { c.relieve (held i) with instrumentations := c.instrumentations.erase id }
          sent := c.registry.instrumenters.records.map
            (fun r => (r.routingKey, .disable .instrumentation id)) ++
              [(a.routingKey, .disable .aggregation id)]
          answered := (i.pending.map fun ticket => (ticket, .error (.cancelled id))).toList } := by
  have hKnown := (hc.fits id i found).known .aggregation i.aggregator i.aggregatorAck (if_pos rfl)
  obtain ⟨a, ha⟩ := Option.isSome_iff_exists.mp hKnown
  refine ⟨a, ha, ?_⟩
  have hAggregator : toHosts c.registry.aggregators [i.aggregator]
      (.disable .aggregation id) = [(a.routingKey, .disable .aggregation id)] := by
    rw [toHosts_eq, Directory.keys, List.filterMap_cons,
      show c.registry.aggregators.find? i.aggregator = some a from ha]
    rfl
  unfold delete
  rw [found]
  simp only [releaseFor_eq, hAggregator]

/-- **The loads that a deletion releases** are one of each participant that the record counts for,
and each of these has one. -/
theorem records_delete (counted : c.Exact) (w : Work) :
    ((c.relieve (held i)).registry.directory w).records =
        (c.registry.directory w).records.map (fun r =>
          if i.loads w r.hostname then { r with load := r.load - 1 } else r) ∧
      ∀ r ∈ (c.registry.directory w).records, i.loads w r.hostname = true → 0 < r.load := by
  have hFits := hc.fits id i found
  constructor
  · rw [directory_relieve, Directory.records_releaseAll]
    refine List.map_congr_left fun r _ => ?_
    rw [count_held hFits]
    split <;> rfl
  · intro r hr hLoads
    have hFound := Roster.find?_of_mem (c.registry.directory w).distinct hr
    rw [counted w r.hostname r hFound, loadOf]
    exact List.countP_pos_iff.mpr ⟨i, hc.mem_values found, hLoads⟩

end Delete

/-! ## Loads are determined by the records -/

/-- Where loads are exact, they can be told from the records. -/
theorem records_of_exact {c : Coordinator} (counted : c.Exact) (w : Work) :
    (c.registry.directory w).records =
      (c.registry.directory w).unloaded.records.map fun r =>
        r.changeLoad fun _ => c.loadOf w r.hostname := by
  rw [Directory.unloaded, List.map_map]
  conv_lhs => rw [← List.map_id (c.registry.directory w).records]
  refine List.map_congr_left fun r hr => ?_
  show r = r.changeLoad fun _ => c.loadOf w r.hostname
  rw [← counted w r.hostname r (Roster.find?_of_mem (c.registry.directory w).distinct hr)]
  rfl

/-- **Two coordinators with the same records, which agree in all but loads, are the same** where
loads are exact. -/
theorem eq_of_bare {c d : Coordinator} (counted : c.Exact) (counted' : d.Exact)
    (records : d.instrumentations = c.instrumentations) (bare : d.bare = c.bare) : d = c := by
  have hUnloaded : ∀ w, (d.registry.directory w).unloaded = (c.registry.directory w).unloaded := by
    intro w
    cases w with
    | instrumentation => exact congrArg (·.registry.instrumenters) bare
    | aggregation => exact congrArg (·.registry.aggregators) bare
  have hDirectory : ∀ w, d.registry.directory w = c.registry.directory w := by
    intro w
    -- exact counters are a function of the records
    have hRecords : (d.registry.directory w).records = (c.registry.directory w).records := by
      rw [records_of_exact counted w, records_of_exact counted' w, hUnloaded w]
      simp only [loadOf, records]
    cases hd : d.registry.directory w
    cases hc : c.registry.directory w
    rw [hd, hc] at hRecords
    cases hRecords
    rfl
  have hInstrumenters : d.registry.instrumenters = c.registry.instrumenters :=
    hDirectory .instrumentation
  have hAggregators : d.registry.aggregators = c.registry.aggregators := hDirectory .aggregation
  calc d = { d.bare with
        registry := ⟨d.registry.instrumenters, d.registry.aggregators, d.bare.registry.catalog⟩
        instrumentations := d.instrumentations } := rfl
    _ = { c.bare with
        registry := ⟨c.registry.instrumenters, c.registry.aggregators, c.bare.registry.catalog⟩
        instrumentations := c.instrumentations } := by
      rw [hInstrumenters, hAggregators, records, bare]
    _ = c := rfl

/-! ## Acknowledgements in between -/

/-- A coordinator that differs from another one in one record at most, which is there in both, and
in loads. -/
structure Progress (id : InstId) (c c' : Coordinator) : Prop where
  bare : c'.bare = c.bare
  others : ∀ id', id' ≠ id → c'.instrumentations.find? id' = c.instrumentations.find? id'
  kept : (c.instrumentations.find? id).isSome → (c'.instrumentations.find? id).isSome

theorem Progress.refl (id : InstId) (c : Coordinator) : Progress id c c :=
  ⟨rfl, fun _ _ => rfl, fun h => h⟩

theorem Progress.trans {id : InstId} {c c' c'' : Coordinator} (h : Progress id c c')
    (h' : Progress id c' c'') : Progress id c c'' :=
  ⟨h'.bare.trans h.bare, fun id' hId => (h'.others id' hId).trans (h.others id' hId),
    fun found => h'.kept (h.kept found)⟩

/-- An acknowledgement for a record, whoever sends it and whatever it says, changes that record at
most. -/
theorem progress_of_ack {c : Coordinator} (hc : c.Sound) {e : Envelope Float}
    {action : Action} {w : Work} {id : InstId} {s : AckStatus} {error : Option String}
    (message : e.message = .ack action w id s error) (now : Timestamp) :
    Progress id c (c.handle e now).coordinator := by
  by_cases hConcerns : c.Concerns e
  · cases hConcerns with
    | instrumenter notice => cases message.symm.trans notice
    | aggregator notice => cases message.symm.trans notice
    | word message' found live unanswered =>
      cases message.symm.trans message'
      obtain ⟨hBare, hTable, -⟩ := frame_of_word hc (a := ⟨w, e.hostname, id, s⟩)
        (record?_eq_some.mpr ⟨found, live, unanswered⟩)
      rw [handle_of_word message]
      refine ⟨hBare, fun id' hId => ?_, fun _ => ?_⟩
      · rw [hTable, if_neg hId]
      · rw [hTable, if_pos rfl]
        rfl
  · rw [handle_unconcerned hConcerns]
    exact .refl id c

/-- Acknowledgements about one instrumentation let only this one progress. -/
theorem progress_of_acks {c : Coordinator} (hc : c.Sound) {id : InstId}
    {acks : List (Envelope Float × Timestamp)}
    (about : ∀ x ∈ acks, ∃ action w s error, x.1.message = .ack action w id s error) :
    Progress id c (c.run (acks.map fun x => .receive x.1 x.2)) := by
  induction acks generalizing c with
  | nil => exact .refl id c
  | cons x rest ih =>
    obtain ⟨action, w, s, error, hMessage⟩ := about x List.mem_cons_self
    have hFirst : Progress id c (c.step (.receive x.1 x.2)).coordinator :=
      progress_of_ack hc hMessage x.2
    exact hFirst.trans (ih (sound_step hc _) fun y hy => about y (List.mem_cons_of_mem _ hy))

/-- **A deletion undoes a creation**, whatever acknowledgements for it come in between: all that is
left is the number that was drawn. -/
theorem delete_created {c : Coordinator} (reachable : c.Reachable) {s : Spec} {a : AgentRecord}
    (chosen : c.chosen? s = some a) (ticket : Ticket) (now : Nat)
    {acks : List (Envelope Float × Timestamp)}
    (about : ∀ x ∈ acks, ∃ action w s error, x.1.message = .ack action w c.nextId s error) :
    ∃ t, (c.run (.create s ticket now :: acks.map fun x => .receive x.1 x.2)).delete c.nextId =
        .ok t ∧
      t.coordinator = { c with nextId := c.nextId + 1 } := by
  obtain ⟨hc, hCounted⟩ := exact_of_reachable reachable
  obtain ⟨-, -, hMade, hBare⟩ := create_launched ticket now hc chosen
  generalize hAfter : c.run (.create s ticket now :: acks.map fun x => .receive x.1 x.2) = c'
  have hReach : c'.Reachable := hAfter ▸ reachable.run _
  obtain ⟨hc', -⟩ := exact_of_reachable hReach
  have hProgress : Progress c.nextId (c.create s ticket now).coordinator c' :=
    hAfter ▸ progress_of_acks (sound_step hc (.create s ticket now)) about
  obtain ⟨i, found⟩ : ∃ i, c'.instrumentations.find? c.nextId = some i := by
    refine Option.isSome_iff_exists.mp (hProgress.kept ?_)
    rw [hMade, if_pos rfl]
    rfl
  obtain ⟨a', -, hDelete⟩ := delete_found hc' found
  refine ⟨_, hDelete, ?_⟩
  -- what is left has the records from before, and agrees in everything else but the counter
  have hRecords : c'.instrumentations.erase c.nextId = c.instrumentations := by
    refine Table.ext_find? (Table.ascending_erase hc'.ascending _) hc.ascending fun id => ?_
    rw [Table.find?_erase]
    split
    · next hId => rw [hId, hc.free_next]
    · next hId => rw [hProgress.others id hId, hMade, if_neg hId]
  have hExact : ({ c'.relieve (held i) with
      instrumentations := c'.instrumentations.erase c.nextId } : Coordinator).Exact := by
    have hStep := (exact_of_reachable (hReach.run [.delete c.nextId])).2
    have hDeleted : (c'.step (.delete c.nextId)).coordinator = { c'.relieve (held i) with
        instrumentations := c'.instrumentations.erase c.nextId } := by
      rw [step, hDelete]
    exact hDeleted ▸ hStep
  have hNumbered : ({ c with nextId := c.nextId + 1 } : Coordinator).Exact := hCounted
  refine eq_of_bare hNumbered hExact hRecords ?_
  show (c'.relieve (held i)).bare = { c.bare with nextId := c.nextId + 1 }
  rw [bare_relieve, hProgress.bare, hBare]

/-! ## All of it -/

/-- **A deletion ends its instrumentation everywhere, and nothing else.** After any history

* the deletion of a number without a record is refused, and has no effect;
* the deletion of a record removes it and no other record, and changes nothing else but loads. The
  request that waits, if the record is creating, is answered that it was cancelled. One command to
  stop goes to each known instrumenter, addressed or not, in the order of their first notices, and
  then one to the assigned aggregator. Of the participants of each kind exactly those that the
  record counts for have their load, which is not zero, lowered by one;
* a record that is deleted right after its creation, with whatever acknowledgements for it in
  between, leaves all loads as they were, and everything else but the counter. -/
theorem deletion_exact (keyBase : String) (ackTimeout : Nat) (history : List Event) :
    let c := (Coordinator.new keyBase ackTimeout).run history
    (∀ id, c.instrumentations.find? id = none →
      c.delete id = .error (.notFound id) ∧ c.step (.delete id) = ⟨c, [], []⟩) ∧
    (∀ id i, c.instrumentations.find? id = some i → ∃ t a,
      c.delete id = .ok t ∧
      (∀ id', t.coordinator.instrumentations.find? id' =
        if id' = id then none else c.instrumentations.find? id') ∧
      t.coordinator.bare = c.bare ∧
      ((∃ ticket, i.pending = some ticket ∧ i.stage = .creating ∧
          t.answered = [(ticket, .error (.cancelled id))]) ∨
        i.pending = none ∧ i.stage ≠ .creating ∧ t.answered = []) ∧
      t.sent = c.registry.instrumenters.records.map
        (fun r => (r.routingKey, .disable .instrumentation id)) ++
          [(a.routingKey, .disable .aggregation id)] ∧
      c.registry.instrumenters.records.map (·.hostname) = firstSeen history .instrumentation ∧
      c.registry.aggregators.find? i.aggregator = some a ∧
      ∀ w, (t.coordinator.registry.directory w).records =
          (c.registry.directory w).records.map (fun r =>
            if i.loads w r.hostname then { r with load := r.load - 1 } else r) ∧
        ∀ r ∈ (c.registry.directory w).records, i.loads w r.hostname = true → 0 < r.load) ∧
    ∀ s ticket now (acks : List (Envelope Float × Timestamp)),
      s.Suits c.registry.catalog → c.registry.aggregators.records ≠ [] →
      (∀ x ∈ acks, ∃ action w status error,
        x.1.message = .ack action w c.nextId status error) →
      ∃ t, (c.run (.create s ticket now :: acks.map fun x => .receive x.1 x.2)).delete c.nextId =
          .ok t ∧
        t.coordinator = { c with nextId := c.nextId + 1 } := by
  intro c
  have hReach : c.Reachable := ⟨keyBase, ackTimeout, history, rfl⟩
  obtain ⟨hc, hCounted⟩ := exact_of_reachable hReach
  obtain ⟨-, hTicketed⟩ := ticketed_of_reachable hReach
  refine ⟨fun id missing => ?_, fun id i found => ?_, ?_⟩
  · have hDelete := c.delete_unknown missing
    refine ⟨hDelete, ?_⟩
    rw [step, hDelete]
    rfl
  · obtain ⟨a, hAggregator, hDelete⟩ := delete_found hc found
    refine ⟨_, a, hDelete, fun id' => Table.find?_erase _ _ _, bare_relieve c (held i), ?_, rfl,
      hostnames_run keyBase ackTimeout history .instrumentation, hAggregator,
      records_delete hc found hCounted⟩
    -- a record has a ticket exactly while it is being created
    have hWaits := hTicketed id i found
    cases hPending : i.pending with
    | some ticket =>
      rw [hPending] at hWaits
      exact .inl ⟨ticket, rfl, hWaits.mp rfl, rfl⟩
    | none =>
      rw [hPending] at hWaits
      exact .inr ⟨rfl, fun hCreating => absurd (hWaits.mpr hCreating) (by simp), rfl⟩
  · intro s ticket now acks hSuits hSomebody about
    obtain ⟨a, -, chosen⟩ := exists_chosen hSuits hSomebody
    exact delete_created hReach chosen ticket now about

/-- The instrumenter refuses, and the aggregator, which starts, is stopped by the failure. The
deletion has no load left to release, and leaves the coordinator as it was but for the number. -/
theorem deletion_exact_brief :
    let c := (Coordinator.new "k" 3).run (briefHistory.take 2)
    let s : Spec := ⟨"m", "s", .trivial, [], []⟩
    let acks : List (Envelope Float × Timestamp) :=
      [(⟨"k.instrumenter.h", "h", .ack .enable .instrumentation 1 .disabled none⟩, ⟨1⟩),
        (⟨"k.aggregator.g", "g", .ack .enable .aggregation 1 .enabled none⟩, ⟨2⟩)]
    let c' := c.run (.create s 0 0 :: acks.map fun x => .receive x.1 x.2)
    s.Suits c.registry.catalog ∧ c.registry.aggregators.records ≠ [] ∧
      c'.stageOf 1 = some .failed ∧
      ∃ t, c'.delete 1 = .ok t ∧ t.coordinator = { c with nextId := 2 } := by
  intro c s acks c'
  have hAccepted : c.fault? s = none := by decide
  have hSuits : s.Suits c.registry.catalog := fault?_eq_none_iff.mp hAccepted
  have hSomebody : c.registry.aggregators.records ≠ [] := by decide
  have hAbout : ∀ x ∈ acks, ∃ action w status error,
      x.1.message = .ack action w c.nextId status error := by
    intro x hx
    rcases List.mem_cons.mp hx with rfl | hx
    · exact ⟨_, _, _, _, rfl⟩
    · rw [List.mem_singleton.mp hx]
      exact ⟨_, _, _, _, rfl⟩
  obtain ⟨-, -, hUndone⟩ := deletion_exact "k" 3 (briefHistory.take 2)
  exact ⟨hSuits, hSomebody, by decide, hUndone s 0 0 acks hSuits hSomebody hAbout⟩

end FleetMetrics.Coordinator
