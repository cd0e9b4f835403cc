import Mathlib
import FleetMetrics.Proofs.Coordinator.Addressing
import FleetMetrics.Proofs.Coordinator.Loads

/-!
# Who is listed, and who is chosen

Agents are listed in the order in which they first came online, and an instrumentation goes to the
least loaded aggregator, the one that came first among several. A directory here is a list in that
order. It might as well be a hash map whose entries carry a number each, from one counter for agents
of both kinds: then the listing is sorted by the numbers, and the choice is made by load and number.
A hash map has no order of its own, so all that may be relied on is what comes out the same in
whatever order it hands out its entries.

The numbers are read off the history (`place`). They are different for different agents, and along
each directory they ascend, so sorting the agents by them gives the directory from any order, and so
does the choice. That the load is what it says, and not what a counter has come to be, is `Exact`.

Main results:

* `argmin_of_perm`, `mergeSort_of_perm` — listings and choices from any order of the entries.
* `hostnames_run`, `find?_run` — who is in a directory, in which order, and with what entry.
* `placement` — both, with the aggregator that a request is assigned to.
-/

namespace FleetMetrics

/-! ## Entries in any order -/

section Perm

variable {α : Type} {g : α → Nat} {xs ys : List α} (ascending : xs.Pairwise (g · < g ·))
  (perm : ys.Perm xs)

include ascending

/-- In a list sorted by a number, the number says which entry it is. -/
theorem eq_of_pairwise_lt {a b : α} (ha : a ∈ xs) (hb : b ∈ xs) (same : g a = g b) : a = b := by
  have hDistinct : (xs.map g).Nodup :=
    (List.pairwise_map.mpr ascending).imp fun h => Nat.ne_of_lt h
  exact List.inj_on_of_nodup_map hDistinct ha hb same

/-- An element that comes before another one has the smaller number. -/
theorem le_of_idxOf_le [DecidableEq α] {a b : α} (ha : a ∈ xs) (hb : b ∈ xs)
    (before : xs.idxOf a ≤ xs.idxOf b) : g a ≤ g b := by
  rcases Nat.lt_or_eq_of_le before with hLt | hEq
  · have hOrder := List.pairwise_iff_getElem.mp ascending _ _ (List.idxOf_lt_length_of_mem ha)
      (List.idxOf_lt_length_of_mem hb) hLt
    rw [List.getElem_idxOf, List.getElem_idxOf] at hOrder
    exact Nat.le_of_lt hOrder
  · rw [(List.idxOf_inj ha).mp hEq]

include perm

/-- **Sorted from any order.** Elements that are numbered in ascending order are restored by their
numbers. -/
theorem mergeSort_of_perm : ys.mergeSort (fun a b => g a ≤ g b) = xs := by
  have hSorted : (ys.mergeSort fun a b => g a ≤ g b).Pairwise (g · ≤ g ·) := by
    refine (List.pairwise_mergeSort (fun a b c => ?_) (fun a b => ?_) ys).imp (by simp)
    · simpa using Nat.le_trans
    · simpa using Nat.le_total _ _
  have hPerm := (List.mergeSort_perm ys fun a b => decide (g a ≤ g b)).trans perm
  refine List.Perm.eq_of_pairwise (fun a b ha hb hab hba => ?_) hSorted
    (ascending.imp Nat.le_of_lt) hPerm
  exact eq_of_pairwise_lt ascending (hPerm.mem_iff.mp ha) hb (Nat.le_antisymm hab hba)

/-- **Chosen from any order.** The smallest of some elements, and the first of several, is the
smallest by the value and then the number. -/
theorem argmin_of_perm [DecidableEq α] (f : α → Nat) :
    ys.argmin (fun a => toLex (f a, g a)) = xs.argmin f := by
  cases hMin : xs.argmin f with
  | none =>
    rw [List.argmin_eq_none] at hMin ⊢
    exact (hMin ▸ perm).eq_nil
  | some m =>
    obtain ⟨hMem, hLeast, hFirst⟩ := List.argmin_eq_some_iff.mp hMin
    have hBoth : ∀ a ∈ ys, toLex (f m, g m) ≤ toLex (f a, g a) := by
      intro a ha
      have ha' := perm.mem_iff.mp ha
      rw [Prod.Lex.toLex_le_toLex]
      rcases Nat.lt_or_eq_of_le (hLeast a ha') with hLess | hSame
      · exact .inl hLess
      · -- of elements with one value the first is meant, and it has the smallest number
        refine .inr ⟨hSame, ?_⟩
        exact le_of_idxOf_le ascending hMem ha' (hFirst a ha' (Nat.le_of_eq hSame.symm))
    refine List.argmin_eq_some_iff.mpr ⟨perm.mem_iff.mpr hMem, hBoth, fun a ha hLe => ?_⟩
    have hSame := le_antisymm (hBoth a ha) hLe
    rw [toLex_inj, Prod.mk.injEq] at hSame
    rw [eq_of_pairwise_lt ascending hMem (perm.mem_iff.mp ha) hSame.2]

end Perm

/-! ## First and latest notices -/

/-- The hosts of a kind, in the order of their first notices. -/
def firstSeen (history : List Event) (w : Work) : List String :=
  (history.filterMap fun x => (x.arrival? w).map (·.hostname)).eraseDups

/-- The record that the latest notice of a host announces. -/
def latest? (history : List Event) (w : Work) (h : String) : Option AgentRecord :=
  ((history.filterMap (·.arrival? w)).filter (·.hostname = h)).getLast?

/-- The participants, of either kind, that an event brings online. -/
def Event.arrivals (x : Event) : List (Work × String) :=
  [.instrumentation, .aggregation].filterMap fun w => (x.arrival? w).map fun r => (w, r.hostname)

/-- The participants of both kinds, in the order of their first notices. -/
def newcomers (history : List Event) : List (Work × String) :=
  (history.flatMap Event.arrivals).eraseDups

/-- The number of a participant: how many of either kind came online before it did. -/
def place (history : List Event) (w : Work) (h : String) : Nat :=
  (newcomers history).idxOf (w, h)

theorem Event.mem_arrivals {x : Event} {w : Work} {h : String} :
    (w, h) ∈ x.arrivals ↔ x.BringsOnline w h := by
  cases w <;> simp [arrivals, BringsOnline]

section History

variable {history : List Event} {x : Event} {w : Work} {h : String}

theorem mem_newcomers : (w, h) ∈ newcomers history ↔ CameOnline history w h := by
  simp only [newcomers, List.mem_eraseDups, List.mem_flatMap, Event.mem_arrivals, CameOnline]

/-- Every host that has come online is in the list of those first seen. -/
theorem mem_firstSeen : h ∈ firstSeen history w ↔ CameOnline history w h := by
  simp only [firstSeen, List.mem_eraseDups, List.mem_filterMap, Option.map_eq_some_iff, CameOnline,
    Event.BringsOnline]

/-- One more event adds its host at the end of the list, unless it is there already. -/
theorem firstSeen_concat :
    firstSeen (history ++ [x]) w =
      match x.arrival? w with
      | some r =>
        if r.hostname ∈ firstSeen history w then firstSeen history w
        else firstSeen history w ++ [r.hostname]
      | none => firstSeen history w := by
  simp only [firstSeen, List.filterMap_append, List.eraseDups_append, List.mem_eraseDups]
  cases hArrives : x.arrival? w with
  | none => simp [hArrives]
  | some r =>
    by_cases hMem : r.hostname ∈ history.filterMap fun x => (x.arrival? w).map (·.hostname)
    · simp [hArrives, List.cons_removeAll, hMem]
    · simp [hArrives, List.cons_removeAll, hMem, List.eraseDups_cons]

/-- One more event gives its host a later notice, and no other host. -/
theorem latest?_concat :
    latest? (history ++ [x]) w h =
      ((x.arrival? w).filter (·.hostname = h)).or (latest? history w h) := by
  simp only [latest?, List.filterMap_append, List.filter_append, List.getLast?_append]
  congr 1
  cases hArrives : x.arrival? w with
  | none => simp [hArrives]
  | some r => by_cases hr : r.hostname = h <;> simp [hArrives, hr, Option.filter_some]

/-- A number once given stays, and is smaller than those that are given later. -/
theorem place_concat_of_came (came : CameOnline history w h) :
    place (history ++ [x]) w h = place history w h ∧
      place history w h < (newcomers history).length := by
  rw [← mem_newcomers] at came
  refine ⟨?_, List.idxOf_lt_length_of_mem came⟩
  simp only [place, newcomers, List.flatMap_append, List.eraseDups_append]
  exact List.idxOf_append_of_mem came

/-- A host that had not come online before an event is placed behind all that had. -/
theorem le_place_concat (first : ¬ CameOnline history w h) :
    (newcomers history).length ≤ place (history ++ [x]) w h := by
  rw [← mem_newcomers] at first
  simp only [place, newcomers, List.flatMap_append, List.eraseDups_append] at first ⊢
  rw [List.idxOf_append_of_notMem first]
  exact Nat.le_add_right _ _

/-- **Along the hosts of a kind the numbers ascend**, whoever of the other kind came in between. -/
theorem ascending_firstSeen (history : List Event) (w : Work) :
    (firstSeen history w).Pairwise fun h h' => place history w h < place history w h' := by
  induction history using List.reverseRecOn with
  | nil => exact List.Pairwise.nil
  | append_singleton xs x ih =>
    have hOld : (firstSeen xs w).Pairwise fun h h' =>
        place (xs ++ [x]) w h < place (xs ++ [x]) w h' := by
      refine ih.imp_of_mem fun {h h'} hh hh' hLt => ?_
      rw [(place_concat_of_came (mem_firstSeen.mp hh)).1,
        (place_concat_of_came (mem_firstSeen.mp hh')).1]
      exact hLt
    rw [firstSeen_concat]
    cases x.arrival? w with
    | none => exact hOld
    | some r =>
      by_cases hMem : r.hostname ∈ firstSeen xs w
      · simp only [if_pos hMem]
        exact hOld
      · simp only [if_neg hMem]
        refine List.pairwise_append.mpr ⟨hOld, List.pairwise_singleton _ _, fun h hh h' hh' => ?_⟩
        -- the newcomer comes after everybody who was there
        rw [List.mem_singleton.mp hh']
        obtain ⟨hKept, hLt⟩ := place_concat_of_came (x := x) (mem_firstSeen.mp hh)
        rw [hKept]
        exact Nat.lt_of_lt_of_le hLt (le_place_concat fun hCame => hMem (mem_firstSeen.mpr hCame))

end History

namespace Coordinator

/-! ## The directories -/

section Directories

variable (keyBase : String) (ackTimeout : Nat) (history : List Event) (w : Work)

/-- **The hosts of a kind are listed in the order of their first notices**, each once. -/
theorem hostnames_run :
    (((Coordinator.new keyBase ackTimeout).run history).registry.directory w).records.map
      (·.hostname) = firstSeen history w := by
  induction history using List.reverseRecOn with
  | nil => cases w <;> rfl
  | append_singleton xs x ih =>
    have hc := sound_run (sound_new keyBase ackTimeout) xs
    rw [run_concat, directory_step _ hc.ascending hc.numbered, Directory.hostnames_acquireAll,
      Directory.hostnames_releaseAll, entered, firstSeen_concat, ← ih]
    cases x.arrival? w with
    | none => rfl
    | some r => exact Directory.hostnames_enter _ r

/-- But for its load, the record of a host is its latest notice. -/
theorem unloaded_run (h : String) :
    ((((Coordinator.new keyBase ackTimeout).run history).registry.directory w).find? h).map
      (·.changeLoad fun _ => 0) = latest? history w h := by
  induction history using List.reverseRecOn with
  | nil => cases w <;> rfl
  | append_singleton xs x ih =>
    have hc := sound_run (sound_new keyBase ackTimeout) xs
    rw [run_concat, latest?_concat]
    by_cases hArrives : x.BringsOnline w h
    · obtain ⟨r, hr, rfl⟩ := hArrives
      rw [find?_directory_arrival hc.ascending hc.numbered hr, hr,
        Option.filter_some_pos (by simp), Option.some_or]
      -- an announced participant has no load yet
      cases x with
      | receive e now => simp [AgentRecord.changeLoad, ← (Envelope.arrival?_eq_some hr).2.2]
      | _ => cases hr
    · rw [find?_directory_step hc.ascending hc.numbered x w h fun r hr hh => hArrives ⟨r, hr, hh⟩,
        Option.map_map]
      have hOther : (x.arrival? w).filter (·.hostname = h) = none :=
        Option.filter_eq_none_iff.mpr fun r hr hh => hArrives ⟨r, hr, by simpa using hh⟩
      rw [hOther, Option.none_or, ← ih]
      rfl

/-- **What is known of a host** is what its latest notice said, and how many instrumentations count
for it. -/
theorem find?_run (h : String) :
    let c := (Coordinator.new keyBase ackTimeout).run history
    (c.registry.directory w).find? h =
      (latest? history w h).map (·.changeLoad fun _ => c.loadOf w h) := by
  intro c
  have hExact := (exact_of_reachable (c := c) ⟨keyBase, ackTimeout, history, rfl⟩).2
  rw [← unloaded_run keyBase ackTimeout, Option.map_map]
  cases hFind : (c.registry.directory w).find? h with
  | none => rfl
  | some r =>
    rw [Option.map_some, Function.comp_apply, ← hExact w h r hFind]
    rfl

/-- The records of a directory stand in the order in which their hosts were first seen. -/
theorem ascending_records :
    (((Coordinator.new keyBase ackTimeout).run history).registry.directory w).records.Pairwise
      fun r r' => place history w r.hostname < place history w r'.hostname := by
  have hHosts := ascending_firstSeen history w
  rw [← hostnames_run keyBase ackTimeout history w, List.pairwise_map] at hHosts
  exact hHosts

/-- Each entry of a directory shows the latest notice of its host. -/
theorem latest?_of_mem {r : AgentRecord}
    (mem : r ∈ (((Coordinator.new keyBase ackTimeout).run history).registry.directory w).records) :
    ∃ notice, latest? history w r.hostname = some notice ∧ notice.metrics = r.metrics ∧
      r.load = ((Coordinator.new keyBase ackTimeout).run history).loadOf w r.hostname := by
  have hFound : (((Coordinator.new keyBase ackTimeout).run history).registry.directory w).find?
      r.hostname = some r := Roster.find?_of_mem (Directory.distinct _) mem
  rw [find?_run, Option.map_eq_some_iff] at hFound
  obtain ⟨notice, hNotice, hEntry⟩ := hFound
  exact ⟨notice, hNotice, congrArg (·.metrics) hEntry, (congrArg (·.load) hEntry).symm⟩

end Directories

/-! ## The chosen aggregator -/

/-- How many live instrumentations are assigned to an aggregator: those that have not failed, and
of which it has not said that it failed to start nor failed to say anything in time. -/
def assigned (c : Coordinator) (h : String) : Nat :=
  c.instrumentations.values.countP fun i => i.stage ≠ .failed ∧ i.aggregator = h ∧
    (i.aggregatorAck = .unknown ∨ i.aggregatorAck = .enabled)

/-- The load of an aggregator counts what is assigned to it. -/
theorem loadOf_aggregation (c : Coordinator) (h : String) :
    c.loadOf .aggregation h = c.assigned h := by
  refine List.countP_congr fun i _ => ?_
  simp only [Instrumentation.loads, Instrumentation.ackOf]
  by_cases hHost : i.aggregator = h <;> simp [hHost]

/-- A request is refused for want of an aggregator only if there is nothing else wrong with it. -/
theorem noAggregators_iff {c : Coordinator} {s : Spec} {ticket : Ticket} {now : Nat} :
    (ticket, .error .noAggregators) ∈ (c.create s ticket now).answered ↔
      c.fault? s = none ∧ c.registry.aggregators.leastLoaded? = none := by
  unfold create
  cases hFault : c.fault? s with
  | some e =>
    obtain ⟨reason, rfl⟩ := validation_of_fault? hFault
    simp
  | none =>
    unfold Registry.selectAggregator
    cases hLeast : c.registry.aggregators.leastLoaded? <;> simp [launch]

/-- The record that an accepted request leaves behind. -/
theorem find?_create {c : Coordinator} (hc : c.Sound) {s : Spec} {a : AgentRecord}
    (chosen : c.chosen? s = some a) (ticket : Ticket) (now : Nat) :
    (c.create s ticket now).coordinator.instrumentations.find? c.nextId =
      some (c.newRecord s ticket now a.hostname) := by
  rw [create_of_chosen chosen]
  exact Table.find?_alter_self hc.ascending _ _

section Choice

variable {keyBase : String} {ackTimeout : Nat} {history : List Event}

/-- There is nobody to choose as long as no aggregator has come online. -/
theorem leastLoaded?_eq_none_iff :
    ((Coordinator.new keyBase ackTimeout).run history).registry.aggregators.leastLoaded? = none ↔
      ∀ h, ¬ CameOnline history .aggregation h := by
  have hHosts : ((Coordinator.new keyBase ackTimeout).run history).registry.aggregators.records.map
      (·.hostname) = firstSeen history .aggregation :=
    hostnames_run keyBase ackTimeout history .aggregation
  rw [Directory.leastLoaded?_eq_argmin, List.argmin_eq_none, ← List.map_eq_nil_iff, hHosts,
    List.eq_nil_iff_forall_not_mem]
  simp only [mem_firstSeen]

/-- **Who is chosen** has fewer live instrumentations than each other aggregator, or as many and
came online before it. -/
theorem fewest_of_leastLoaded? {a : AgentRecord}
    (least : ((Coordinator.new keyBase ackTimeout).run history).registry.aggregators.leastLoaded? =
      some a) :
    let c := (Coordinator.new keyBase ackTimeout).run history
    a ∈ c.registry.aggregators.records ∧ ∀ b ∈ c.registry.aggregators.records, b ≠ a →
      c.assigned a.hostname < c.assigned b.hostname ∨
        c.assigned a.hostname = c.assigned b.hostname ∧
          place history .aggregation a.hostname < place history .aggregation b.hostname := by
  intro c
  have hAscending : c.registry.aggregators.records.Pairwise fun r r' =>
      place history .aggregation r.hostname < place history .aggregation r'.hostname :=
    ascending_records keyBase ackTimeout history .aggregation
  have hLoad : ∀ r ∈ c.registry.aggregators.records, r.load = c.assigned r.hostname := by
    intro r hr
    obtain ⟨-, -, -, hCounted⟩ := latest?_of_mem keyBase ackTimeout history .aggregation hr
    rw [hCounted, loadOf_aggregation]
  rw [Directory.leastLoaded?_eq_argmin, ← argmin_of_perm hAscending .rfl,
    List.argmin_eq_some_iff] at least
  obtain ⟨hMem, hLeast, -⟩ := least
  refine ⟨hMem, fun b hb hOther => ?_⟩
  have hLe := hLeast b hb
  rw [Prod.Lex.toLex_le_toLex, hLoad a hMem, hLoad b hb] at hLe
  refine hLe.imp_right fun hTie => ⟨hTie.1, Nat.lt_of_le_of_ne hTie.2 fun hSame => hOther ?_⟩
  exact (eq_of_pairwise_lt hAscending hMem hb hSame).symm

end Choice

/-- **Directories and placement.** After any history

* the hosts of each kind are listed in the order of their first notices, each once; each entry is
  that of the latest notice of the host, with the number of instrumentations that count for it; and
  the listing is the same from whatever order the entries are kept in;
* the status report lists the same hosts in the same order, with the metrics and the loads of these
  entries;
* a request is refused for want of an aggregator exactly if nothing else is wrong with it and no
  aggregator ever came online;
* otherwise, if nothing is wrong with it, it is assigned to the one known aggregator that has fewer
  live instrumentations than each other one, or as many and came online for the first time before
  it; whatever order the entries are kept in. -/
theorem placement (keyBase : String) (ackTimeout : Nat) (history : List Event) :
    let c := (Coordinator.new keyBase ackTimeout).run history
    (∀ w, (c.registry.directory w).records.map (·.hostname) = firstSeen history w ∧
      (firstSeen history w).Nodup ∧
      (∀ h, (c.registry.directory w).find? h =
        (latest? history w h).map fun notice => { notice with load := c.loadOf w h }) ∧
      ∀ entries : List AgentRecord, entries.Perm (c.registry.directory w).records →
        entries.mergeSort (fun r r' => place history w r.hostname ≤ place history w r'.hostname) =
          (c.registry.directory w).records) ∧
    (c.status.instrumenters = (firstSeen history .instrumentation).filterMap fun h =>
        (latest? history .instrumentation h).map fun notice =>
          ⟨h, notice.metrics, c.loadOf .instrumentation h⟩) ∧
    (c.status.aggregators = (firstSeen history .aggregation).map fun h => ⟨h, c.assigned h⟩) ∧
    ∀ s ticket now,
      ((ticket, .error .noAggregators) ∈ (c.create s ticket now).answered ↔
        c.fault? s = none ∧ ∀ h, ¬ CameOnline history .aggregation h) ∧
      (c.fault? s = none → (∃ h, CameOnline history .aggregation h) →
        ∃ a ∈ c.registry.aggregators.records, ∃ i,
          (c.create s ticket now).coordinator.instrumentations.find? c.nextId = some i ∧
          i.spec = s ∧ i.aggregator = a.hostname ∧
          (∀ b ∈ c.registry.aggregators.records, b ≠ a →
            c.assigned a.hostname < c.assigned b.hostname ∨
              c.assigned a.hostname = c.assigned b.hostname ∧
                place history .aggregation a.hostname < place history .aggregation b.hostname) ∧
          ∀ entries : List AgentRecord, entries.Perm c.registry.aggregators.records →
            entries.argmin (fun r => toLex (r.load, place history .aggregation r.hostname)) =
              some a) := by
  intro c
  have hc : c.Sound := sound_run (sound_new keyBase ackTimeout) history
  have hHosts := hostnames_run keyBase ackTimeout history
  refine ⟨fun w => ⟨hHosts w, hHosts w ▸ (c.registry.directory w).distinct,
    find?_run keyBase ackTimeout history w, fun entries perm => ?_⟩, ?_, ?_, fun s ticket now => ?_⟩
  -- the places of the records ascend, so sorting by place finds this order again
  · exact mergeSort_of_perm (ascending_records keyBase ackTimeout history w) perm
  · rw [← hHosts, List.filterMap_map, status, Registry.status, ← List.filterMap_eq_map]
    refine List.filterMap_congr fun r hr => ?_
    obtain ⟨notice, hNotice, hMetrics, hLoad⟩ :=
      latest?_of_mem keyBase ackTimeout history .instrumentation hr
    simp only [Function.comp_apply, hNotice, Option.map_some, hMetrics, hLoad]
    rfl
  · rw [← hHosts, List.map_map]
    refine List.map_congr_left fun r hr => ?_
    obtain ⟨-, -, -, hLoad⟩ := latest?_of_mem keyBase ackTimeout history .aggregation hr
    rw [hLoad, loadOf_aggregation]
    rfl
  · rw [noAggregators_iff, leastLoaded?_eq_none_iff]
    refine ⟨Iff.rfl, fun hValid hCame => ?_⟩
    obtain ⟨a, hLeast⟩ : ∃ a, c.registry.aggregators.leastLoaded? = some a := by
      rw [← Option.ne_none_iff_exists', Ne, leastLoaded?_eq_none_iff]
      exact fun hNobody => hCame.elim hNobody
    -- nothing else is wrong with the request, so it goes to the least loaded
    have hChosen : c.chosen? s = some a := by
      rw [chosen?, hValid]
      exact hLeast
    obtain ⟨hMem, hFewest⟩ := fewest_of_leastLoaded? hLeast
    refine ⟨a, hMem, _, find?_create hc hChosen ticket now, rfl, rfl, hFewest, ?_⟩
    intro entries perm
    rw [argmin_of_perm (ascending_records keyBase ackTimeout history .aggregation) perm,
      ← Directory.leastLoaded?_eq_argmin]
    exact hLeast

/-- Two aggregators come online, and an instrumentation is assigned to the first one, which then
restarts. -/
def placedHistory : List Event :=
  [.receive ⟨"k.aggregator.g", "g", .aggregatorOnline (.current "aggregator")⟩ ⟨0⟩,
    .receive ⟨"k.instrumenter.h", "h",
      .instrumenterOnline (.current "instrumenter") [("m", ⟨"M", [("s", ⟨"S", "u", []⟩)]⟩)]⟩ ⟨0⟩,
    .receive ⟨"k.aggregator.f", "f", .aggregatorOnline (.current "aggregator")⟩ ⟨0⟩,
    .create ⟨"m", "s", .trivial, [], []⟩ 0 0,
    .receive ⟨"k.aggregator.g2", "g", .aggregatorOnline (.current "aggregator")⟩ ⟨1⟩]

/-- The restarted aggregator keeps its place and is told again, so the next instrumentation is
assigned to the other one. -/
theorem placement_brief :
    let c := (Coordinator.new "k" 3).run placedHistory
    c.registry.aggregators.records.map (·.hostname) = ["g", "f"] ∧
      c.status.aggregators = [⟨"g", 1⟩, ⟨"f", 0⟩] ∧
      ∃ i, (c.create ⟨"m", "s", .trivial, [], []⟩ 1 1).coordinator.instrumentations.find? 2 =
        some i ∧ i.aggregator = "f" := by
  intro c
  obtain ⟨hDirectories, -, hReport, hCreate⟩ := placement "k" 3 placedHistory
  have hNames : c.registry.aggregators.records.map (·.hostname) = ["g", "f"] :=
    (hDirectories .aggregation).1.trans (by decide)
  refine ⟨hNames, hReport.trans (by decide), ?_⟩
  have hCame : CameOnline placedHistory .aggregation "g" := by
    rw [← mem_firstSeen]
    decide
  obtain ⟨a, hMem, i, hi, -, hHost, hFewest, -⟩ :=
    (hCreate ⟨"m", "s", .trivial, [], []⟩ 1 1).2 (by decide) ⟨"g", hCame⟩
  refine ⟨i, hi, hHost.trans ?_⟩
  have hEither : a.hostname ∈ ["g", "f"] := hNames ▸ List.mem_map_of_mem hMem
  obtain ⟨b, hb, hOther⟩ := List.mem_map.mp (hNames ▸ List.mem_cons_of_mem _ List.mem_cons_self :
    "f" ∈ c.registry.aggregators.records.map (·.hostname))
  rcases List.mem_pair.mp hEither with hFirst | hSecond
  · -- the first one has an instrumentation already
    have hLoads : c.assigned "g" = 1 ∧ c.assigned "f" = 0 := by decide
    have hLess := hFewest b hb fun hSame => by
      rw [hSame, hFirst] at hOther
      exact absurd hOther (by decide)
    rw [hFirst, hOther, hLoads.1, hLoads.2] at hLess
    omega
  · exact hSecond

end Coordinator

end FleetMetrics
