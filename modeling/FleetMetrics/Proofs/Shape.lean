import Mathlib
import FleetMetrics.Coordinator
import FleetMetrics.Proofs.Query
import FleetMetrics.Proofs.Retention

/-!
# One instrumentation, one shape

Hosts report values independently, and an aggregator drops a value that does not fit the others
without a word. So all values of an instrumentation have to have one shape, however few points a
host has. Five places decide on shapes: the typed zero, the reduction, the merge, the reordering of
a decomposition when it is compiled, and the coordinator, which announces the shape without ever
seeing a value. They agree on `Query.depth` and `Query.leaf`, which are read off the decomposition
as it was asked for.

A breakdown without entries has every depth but the one of a leaf. This is what lets the typed zero
merge with everything.

Main results:

* `hasShape_evaluate` — the value of a query has its shape, whatever the snapshots.
* `merge_hasShape` — two values of a shape merge into one of that shape.
* `Slot.update_shaped`, `Aggregation.shaped_record` — a slot takes every value of its shape.
* `one_shape` — all of this for a compiled query, and the coordinator announces the shape.
-/

namespace FleetMetrics

variable {N : Type}

/-- A value of a shape: breakdowns nested to a depth, and below them leaves of one kind. -/
def ReducedValue.HasShape (leaf : Shape) : Nat → ReducedValue N → Prop
  | 0, v => v.shape = leaf
  | n + 1, .discrete groups => ∀ entry ∈ groups, HasShape leaf n entry.2
  | _ + 1, _ => False

namespace Query

/-- How many fields of a decomposition group. -/
def depth (d : Descriptor N) (decomposition : List String) : Nat :=
  decomposition.countP fun n => d.arityOf n = some .discrete

/-- What stands below all groups: a distribution if a field is numeric, and a number otherwise. -/
def leaf (d : Descriptor N) (decomposition : List String) : Shape :=
  if decomposition.any fun n => d.arityOf n = some .numeric then .distribution else .scalar

variable {d : Descriptor N} {D : List String}

theorem leaf_ne_discrete (d : Descriptor N) (D : List String) : leaf d D ≠ .discrete := by
  unfold leaf
  split <;> simp

/-- The fields to reduce along are those that group and then those that are numeric. -/
theorem orderedFields_split (known : ∀ n ∈ D, (d.field? n).isSome) :
    ∃ groups numeric : List (FieldSpec N), orderedFields d D = groups ++ numeric ∧
      (∀ f ∈ groups, f.arity = .discrete) ∧ (∀ f ∈ numeric, f.arity = .numeric) ∧
      groups.length = depth d D ∧ numeric.length ≤ (numericFields d.arityOf D).length ∧
      leaf d D = if numeric = [] then .scalar else .distribution := by
  refine ⟨(D.filter fun n => d.arityOf n ≠ some .numeric).filterMap d.field?,
    (numericFields d.arityOf D).filterMap d.field?, List.filterMap_append,
    fun f hf => arity_of_mem_grouping hf, fun f hf => arity_of_mem_numeric hf, ?_,
    List.length_filterMap_le _ _, ?_⟩
  · have hNames : ((D.filter fun n => d.arityOf n ≠ some .numeric).filterMap d.field?).map
        (·.name) = D.filter fun n => d.arityOf n ≠ some .numeric :=
      Descriptor.names_of_known fun n hn => known n (List.mem_filter.mp hn).1
    rw [← List.length_map (·.name), hNames, ← List.countP_eq_length_filter, depth]
    -- a field that is known and not numeric groups
    refine List.countP_congr fun n hn => ?_
    obtain ⟨f, hField⟩ := Option.isSome_iff_exists.mp (known n hn)
    rw [Descriptor.arityOf, hField, Option.map_some]
    cases f.arity <;> simp
  · have hNames : ((numericFields d.arityOf D).filterMap d.field?).map (·.name) =
        numericFields d.arityOf D :=
      Descriptor.names_of_known fun n hn => known n (List.mem_filter.mp hn).1
    have hAny : (D.any fun n => d.arityOf n = some .numeric) = true ↔
        numericFields d.arityOf D ≠ [] := by
      rw [numericFields, ne_eq, List.filter_eq_nil_iff, List.any_eq_true]
      simp
    have hNone : (numericFields d.arityOf D).filterMap d.field? = [] ↔
        numericFields d.arityOf D = [] := by
      rw [← List.map_eq_nil_iff (f := (·.name)), hNames]
    rw [leaf]
    simp only [hAny, hNone, ite_not]

end Query

variable [Arithmetic N]

/-! ## Values of queries -/

section Values

variable {groups numeric : List (FieldSpec N)} {leaf : Shape}

/-- A reduction along grouping fields, and a numeric one below them if any. -/
theorem hasShape_reduce (hGroups : ∀ f ∈ groups, f.arity = .discrete)
    (hNumeric : ∀ f ∈ numeric, f.arity = .numeric)
    (hLeaf : leaf = if numeric = [] then .scalar else .distribution) (points : List (DataPoint N)) :
    (reduce points (groups ++ numeric)).HasShape leaf groups.length := by
  induction groups generalizing points with
  | nil =>
    rw [hLeaf]
    cases numeric with
    | nil => rfl
    | cons f rest =>
      rw [List.nil_append, reduce_numeric (hNumeric f List.mem_cons_self)]
      rfl
  | cons f rest ih =>
    rw [List.cons_append, reduce, hGroups f List.mem_cons_self]
    -- every entry is the reduction of a group
    intro entry hEntry
    obtain ⟨group, -, rfl⟩ := List.mem_map.mp hEntry
    exact ih (fun g hg => hGroups g (List.mem_cons_of_mem _ hg)) group.2

/-- The typed zero along the same fields. -/
theorem hasShape_zero (hGroups : ∀ f ∈ groups, f.arity = .discrete)
    (hNumeric : ∀ f ∈ numeric, f.arity = .numeric)
    (hLeaf : leaf = if numeric = [] then .scalar else .distribution) :
    (ReducedValue.zero (groups ++ numeric)).HasShape leaf groups.length := by
  cases groups with
  | nil =>
    rw [hLeaf]
    cases numeric with
    | nil => rfl
    | cons f rest =>
      rw [List.nil_append, ReducedValue.zero, hNumeric f List.mem_cons_self]
      rfl
  | cons f rest =>
    rw [List.cons_append, ReducedValue.zero, hGroups f List.mem_cons_self]
    intro entry hEntry
    cases hEntry

/-- **The value of a query has its shape**, whatever the snapshots. -/
theorem hasShape_evaluate {d : Descriptor N} {p : Predicate N} {D : List String} {q : Query N}
    (compiled : Query.compile d p D = .ok q) (current : List (Sample N))
    (previous : Option (List (Sample N))) :
    (q.evaluate current previous).HasShape (Query.leaf d D) (Query.depth d D) := by
  obtain ⟨hFits, rfl⟩ := Query.compile_eq_ok.mp compiled
  obtain ⟨groups, numeric, hFields, hGroups, hNumeric, hLength, -, hLeaf⟩ :=
    Query.orderedFields_split hFits.known
  rw [Query.evaluate_eq, Query.summarize, ← hLength]
  split
  · show (ReducedValue.zero (Query.orderedFields d D)).HasShape _ _
    rw [hFields]
    exact hasShape_zero hGroups hNumeric hLeaf
  · show (reduce _ (Query.orderedFields d D)).HasShape _ _
    rw [hFields]
    exact hasShape_reduce hGroups hNumeric hLeaf _

end Values

/-! ## Merges -/

namespace ReducedValue

variable {leaf : Shape} {n : Nat}

/-- The entries of two breakdowns merge, if two values of their shape do. -/
theorem absorbGroups_hasShape
    (fits : ∀ a b : ReducedValue N, a.HasShape leaf n → b.HasShape leaf n →
      ∃ m, a.absorb b = (m, none) ∧ m.HasShape leaf n)
    {groups entries : Table String (ReducedValue N)}
    (hGroups : ∀ entry ∈ groups, HasShape leaf n entry.2)
    (hEntries : ∀ entry ∈ entries, HasShape leaf n entry.2) :
    ∃ merged, absorbGroups groups entries = (merged, none) ∧
      ∀ entry ∈ merged, HasShape leaf n entry.2 := by
  induction entries generalizing groups with
  | nil => exact ⟨groups, by rw [absorbGroups], hGroups⟩
  | cons entry rest ih =>
    obtain ⟨key, value⟩ := entry
    have hValue : value.HasShape leaf n := hEntries _ List.mem_cons_self
    have hRest := fun e he => hEntries e (List.mem_cons_of_mem _ he)
    -- what is stored under a key has the shape, whether it is new there or merged
    have hInsert : ∀ stored : ReducedValue N, stored.HasShape leaf n →
        ∀ e ∈ groups.insert key stored, HasShape leaf n e.2 := by
      intro stored hStored e he
      rcases Table.mem_insert he with hSame | hOld
      · rwa [hSame]
      · exact hGroups e hOld
    rw [absorbGroups]
    split
    · exact ih (hInsert value hValue) hRest
    · next known hKnown =>
      obtain ⟨key', hMem⟩ := Table.mem_of_find? hKnown
      obtain ⟨m, hMerged, hShape⟩ := fits known value (hGroups _ hMem) hValue
      simp only [hMerged]
      exact ih (hInsert m hShape) hRest

/-- Values of one shape merge without an error, and keep the shape. -/
theorem absorb_hasShape (leaf_ne : leaf ≠ .discrete) {a b : ReducedValue N}
    (ha : a.HasShape leaf n) (hb : b.HasShape leaf n) :
    ∃ m, a.absorb b = (m, none) ∧ m.HasShape leaf n := by
  induction n generalizing a b with
  | zero =>
    have hLeaf : a.shape ≠ .discrete := fun h => leaf_ne (ha.symm.trans h)
    obtain ⟨m, hm⟩ := (fits_leaf hLeaf).mpr (ha.trans hb.symm)
    exact ⟨m, merge_eq_ok.mp hm, (shape_merge hm).trans ha⟩
  | succ n ih =>
    cases a with
    | discrete groups =>
      cases b with
      | discrete entries =>
        obtain ⟨merged, hMerged, hShape⟩ :=
          absorbGroups_hasShape (fun _ _ => ih) ha hb
        exact ⟨.discrete merged, by rw [absorb, hMerged], hShape⟩
      | _ => cases hb
    | _ => cases ha

/-- **Two values of a shape merge into one of that shape.** -/
theorem merge_hasShape (leaf_ne : leaf ≠ .discrete) {a b : ReducedValue N}
    (ha : a.HasShape leaf n) (hb : b.HasShape leaf n) :
    ∃ m, a.merge b = .ok m ∧ m.HasShape leaf n := by
  obtain ⟨m, hm, hShape⟩ := absorb_hasShape leaf_ne ha hb
  exact ⟨m, merge_eq_ok.mpr hm, hShape⟩

/-- Any number of values of one shape merge without an error, and keep the shape. -/
theorem foldlM_hasShape (leaf_ne : leaf ≠ .discrete) {v : ReducedValue N}
    {vs : List (ReducedValue N)} (hv : v.HasShape leaf n) (hvs : ∀ x ∈ vs, x.HasShape leaf n) :
    ∃ m, vs.foldlM merge v = .ok m ∧ m.HasShape leaf n := by
  induction vs generalizing v with
  | nil => exact ⟨v, rfl, hv⟩
  | cons x rest ih =>
    obtain ⟨w, hw, hShape⟩ := merge_hasShape leaf_ne hv (hvs x List.mem_cons_self)
    rw [List.foldlM_cons, hw]
    exact ih hShape fun y hy => hvs y (List.mem_cons_of_mem _ hy)

end ReducedValue

/-! ## Slots and aggregations -/

/-- A slot whose values have a shape. -/
structure Slot.Shaped (leaf : Shape) (n : Nat) (s : Slot N) : Prop where
  sorted : s.hosts.Ascending
  values : ∀ entry ∈ s.hosts, entry.2.HasShape leaf n
  merged : s.merged.HasShape leaf n

/-- An aggregation whose values have a shape. -/
structure Aggregation.Shaped (leaf : Shape) (n retain : Nat) (g : Aggregation N) : Prop where
  tidy : g.Tidy retain
  slots : ∀ entry ∈ g.window, entry.2.Shaped leaf n

section Slots

variable {leaf : Shape} {n : Nat}

omit [Arithmetic N] in
/-- A first report gives its slot the shape. -/
theorem Slot.shaped_first {h : String} {v : ReducedValue N} (hv : v.HasShape leaf n) :
    (Slot.first h v).Shaped leaf n where
  sorted := List.pairwise_singleton _ _
  values entry hEntry := by
    rw [List.mem_singleton.mp hEntry]
    exact hv
  merged := hv

/-- **A slot takes every value of its shape**, and then has it. -/
theorem Slot.update_shaped (leaf_ne : leaf ≠ .discrete) {s : Slot N} (shaped : s.Shaped leaf n)
    (h : String) {v : ReducedValue N} (hv : v.HasShape leaf n) :
    ∃ s', s.update h v = .ok s' ∧ s'.Shaped leaf n ∧ s'.hosts.find? h = some v := by
  have hOthers : ∀ x ∈ (s.hosts.erase h).values, x.HasShape leaf n := by
    intro x hx
    obtain ⟨entry, hEntry, rfl⟩ := List.mem_map.mp hx
    exact shaped.values entry (List.mem_filter.mp hEntry).1
  obtain ⟨m, hMerge, hShape⟩ := ReducedValue.foldlM_hasShape leaf_ne hv hOthers
  refine ⟨_, update_eq_ok.mpr ⟨m, hMerge, rfl⟩, ⟨?_, fun entry hEntry => ?_, hShape⟩, ?_⟩
  · exact Table.ascending_insert shaped.sorted _ _
  · rcases Table.mem_insert hEntry with hSame | hOld
    · rwa [hSame]
    · exact shaped.values entry hOld
  · rw [Table.find?_insert shaped.sorted, if_pos rfl]

namespace Aggregation

variable {g : Aggregation N} {retain : Nat}

/-- After a value of its shape, the slot of a second has it. -/
theorem slotAfter_shaped (leaf_ne : leaf ≠ .discrete) (shaped : g.Shaped leaf n retain) (h : String)
    (second : Int) {v : ReducedValue N} (hv : v.HasShape leaf n) :
    (g.slotAfter h second v).Shaped leaf n ∧
      (g.slotAfter h second v).hosts.find? h = some v := by
  rw [slotAfter]
  cases hFind : g.window.find? second with
  | none => exact ⟨Slot.shaped_first hv, if_pos Std.ReflOrd.compare_self⟩
  | some slot =>
    have hSlot := shaped.slots _ ((Table.mem_iff_find? shaped.tidy.sorted).mpr hFind)
    obtain ⟨s', hUpdate, hSpec⟩ := Slot.update_shaped leaf_ne hSlot h hv
    simp only [hUpdate]
    exact hSpec

/-- **An aggregation keeps its shape.** -/
theorem shaped_record (leaf_ne : leaf ≠ .discrete) (shaped : g.Shaped leaf n retain) (h : String)
    (second : Int) {v : ReducedValue N} (hv : v.HasShape leaf n) :
    (g.record retain h second v).Shaped leaf n retain where
  tidy := tidy_record shaped.tidy _ _ _
  slots entry hEntry := by
    rw [window_record] at hEntry
    rcases Table.mem_insert (List.mem_of_mem_drop hEntry) with hNew | hOld
    · rw [hNew]
      exact (slotAfter_shaped leaf_ne shaped h second hv).1
    · exact shaped.slots entry hOld

/-- A value of the shape is there as long as its second is kept. -/
theorem find?_record_shaped (leaf_ne : leaf ≠ .discrete) (shaped : g.Shaped leaf n retain)
    {h : String} {second : Int} {v : ReducedValue N} (hv : v.HasShape leaf n) {slot : Slot N}
    (kept : (g.record retain h second v).window.find? second = some slot) :
    slot.hosts.find? h = some v := by
  have hSorted := Table.ascending_insert shaped.tidy.sorted second (g.slotAfter h second v)
  rw [window_record] at kept
  rcases find?_latest retain hSorted second with hFind | hCrowded
  · rw [hFind, Table.find?_insert shaped.tidy.sorted, if_pos rfl] at kept
    rw [← Option.some.inj kept]
    exact (slotAfter_shaped leaf_ne shaped h second hv).2
  · rw [find?_of_crowded (length_latest _ _) hCrowded] at kept
    cases kept

end Aggregation

/-- What an aggregator collects has the shape of what it is sent. -/
theorem Aggregator.shaped_handleAll (leaf_ne : leaf ≠ .discrete) (keyBase hostname : String)
    {retain : Nat} {es : List (Envelope N)} {id : InstId}
    (sent : ∀ e ∈ es, ∀ sampledAt value, e.message = .data id sampledAt value →
      value.HasShape leaf n) {g : Aggregation N}
    (found : ((new keyBase hostname retain).handleAll es).store.find? id = some g) :
    g.Shaped leaf n (Nat.max retain 1) := by
  have hRel : Option.Rel (fun (g : Aggregation N) (_ : List (Report N)) =>
      g.Shaped leaf n (Nat.max retain 1))
      (((new keyBase hostname retain).handleAll es).store.find? id) (history id es) := by
    refine tracks_run keyBase hostname (fun streamKey => ⟨?_, ?_⟩) fun e he t v hMessage g _ h => ?_
    · exact ⟨Table.ascending_nil, Nat.zero_le _⟩
    · exact fun entry hEntry => absurd hEntry List.not_mem_nil
    · exact Aggregation.shaped_record leaf_ne h _ _ (sent e he t v hMessage)
  rw [found] at hRel
  generalize history id es = log at hRel
  cases hRel with
  | some h => exact h

end Slots

/-! ## The coordinator -/

omit [Arithmetic N] in
/-- What a coordinator announces of an instrumentation, if its catalog and the hosts agree on the
fields. -/
theorem Coordinator.summary_spec {c : Coordinator} {x : Summary} (listed : x ∈ c.list)
    {d : Descriptor N} {D : List String} (asked : x.spec.decomposition = D)
    (agree : ∀ f ∈ D, ((c.registry.catalog.stat? x.spec.module x.spec.stat).bind
      fun stat => stat.arityOf f) = d.arityOf f) :
    x.dimension = 1 + D.length ∧ (x.kind = .scalar ↔ D = []) ∧
      (x.kind = .numeric ↔ Query.leaf d D = .distribution) ∧
      (x.kind = .discrete ↔ D ≠ [] ∧ Query.leaf d D = .scalar) := by
  obtain ⟨i, -, rfl⟩ := List.mem_map.mp listed
  subst asked
  have hAny : (i.spec.decomposition.any fun f =>
      decide (((c.registry.catalog.stat? i.spec.module i.spec.stat).bind
        fun stat => stat.arityOf f) = some .numeric)) =
      i.spec.decomposition.any fun f => decide (d.arityOf f = some .numeric) :=
    any_numeric_congr agree
  refine ⟨rfl, ?_⟩
  simp only [statKind, Query.leaf, hAny, List.isEmpty_iff]
  by_cases hNone : i.spec.decomposition = []
  · simp [hNone]
  · generalize (i.spec.decomposition.any fun f => decide (d.arityOf f = some .numeric)) = numeric
    cases numeric <;> simp [hNone]

/-! ## The shape of an instrumentation -/

namespace Query

/-- **Values of one instrumentation have one shape.** Let a query be compiled. Its shape has
breakdowns nested as deep as there are fields that group, with distributions below them if a field
is numeric and numbers otherwise. Then

* every value of the query has this shape, whatever the snapshots;
* two values of this shape merge, into one of this shape;
* an aggregator that is sent such values only drops none of them: an update with one is accepted,
  and the value is there as long as its second is kept, in a slot whose merge has the shape;
* a coordinator whose catalog has the arities that the fields have announces the shape: one
  dimension more than there are fields, a scalar without fields, a numeric kind where the leaves are
  distributions, and a discrete one otherwise. -/
theorem one_shape {d : Descriptor N} {p : Predicate N} {D : List String} {q : Query N}
    (compiled : compile d p D = .ok q) :
    (∀ (current : List (Sample N)) (previous : Option (List (Sample N))),
      (q.evaluate current previous).HasShape (leaf d D) (depth d D)) ∧
    (∀ a b : ReducedValue N, a.HasShape (leaf d D) (depth d D) →
      b.HasShape (leaf d D) (depth d D) →
      ∃ m, a.merge b = .ok m ∧ m.HasShape (leaf d D) (depth d D)) ∧
    (∀ (keyBase hostname : String) (retain : Nat) (es : List (Envelope N)) (e : Envelope N)
        (id : InstId) (sampledAt : Timestamp) (value : ReducedValue N),
      (∀ x ∈ es ++ [e], ∀ t v, x.message = .data id t v → v.HasShape (leaf d D) (depth d D)) →
      e.message = .data id sampledAt value →
      let a := (Aggregator.new keyBase hostname retain).handleAll es
      (∀ slot, (a.window id).find? sampledAt.seconds = some slot →
        ∃ slot', slot.update e.hostname value = .ok slot') ∧
      ∀ slot, ((a.handle e).1.window id).find? sampledAt.seconds = some slot →
        slot.hosts.find? e.hostname = some value ∧
          slot.merged.HasShape (leaf d D) (depth d D)) ∧
    ∀ (c : Coordinator) (x : Summary), x ∈ c.list → x.spec.decomposition = D →
      (∀ f ∈ D, ((c.registry.catalog.stat? x.spec.module x.spec.stat).bind
        fun stat => stat.arityOf f) = d.arityOf f) →
      x.dimension = 1 + D.length ∧ (x.kind = .scalar ↔ D = []) ∧
        (x.kind = .numeric ↔ leaf d D = .distribution) ∧
        (x.kind = .discrete ↔ D ≠ [] ∧ leaf d D = .scalar) := by
  have hLeaf := leaf_ne_discrete d D
  refine ⟨hasShape_evaluate compiled, fun a b => ReducedValue.merge_hasShape hLeaf, ?_,
    fun c x listed asked agree => Coordinator.summary_spec listed asked agree⟩
  intro keyBase hostname retain es e id sampledAt value sent hMessage a
  have hValue : value.HasShape (leaf d D) (depth d D) := sent e (by simp) _ _ hMessage
  have hTidy : a.Tidy := Aggregator.tidy_of_reachable ⟨keyBase, hostname, retain, es, rfl⟩
  have hRetain : a.retain = Nat.max retain 1 := Aggregator.retain_handleAll _ es
  cases hFound : a.store.find? id with
  | none =>
    -- nothing is collected, before or after
    have hSame : (a.handle e).1 = a := by
      simp only [Aggregator.handle, hMessage, Aggregator.merge, hFound]
    have hWindow : a.window id = [] := by rw [Aggregator.window, hFound]
    rw [hSame, hWindow]
    constructor
    · intro slot hSlot
      cases hSlot
    · intro slot hSlot
      cases hSlot
  | some g =>
    have hShaped : g.Shaped (leaf d D) (depth d D) a.retain := hRetain ▸
      Aggregator.shaped_handleAll hLeaf keyBase hostname
        (fun e' he' => sent e' (List.mem_append_left _ he')) hFound
    have hRecord := Aggregation.shaped_record hLeaf hShaped e.hostname sampledAt.seconds hValue
    have hAfter : (a.handle e).1.window id =
        (g.record a.retain e.hostname sampledAt.seconds value).window := by
      simp only [Aggregator.handle, hMessage, Aggregator.merge, hFound, Aggregator.window,
        Table.find?_insert hTidy.sorted, if_true]
    have hWindow : a.window id = g.window := by rw [Aggregator.window, hFound]
    rw [hAfter, hWindow]
    constructor
    · intro slot hSlot
      have hSlotShaped := hShaped.slots _ ((Table.mem_iff_find? hShaped.tidy.sorted).mpr hSlot)
      obtain ⟨slot', hUpdate, -⟩ := Slot.update_shaped hLeaf hSlotShaped e.hostname hValue
      exact ⟨slot', hUpdate⟩
    · intro slot hSlot
      exact ⟨Aggregation.find?_record_shaped hLeaf hShaped hValue hSlot,
        (hRecord.slots _ ((Table.mem_iff_find? hRecord.tidy.sorted).mpr hSlot)).merged⟩

/-- The sizes of operations, asked for before the disks: without a snapshot to compare with a host
has no disks, with one it may have a distribution for each, and the two merge. -/
theorem one_shape_brief :
    let d : Descriptor Extended := ((Descriptor.new "m" "s" "S" "u").field
      (.numeric "size" "size" (.linear (.finite 1)) fun _ => [.number (.finite 3)])).field
      (.fixed "disk" "disk" ["sda"])
    let q := made d .trivial ["size", "disk"]
    compile d .trivial ["size", "disk"] = .ok q ∧ leaf d ["size", "disk"] = .distribution ∧
      depth d ["size", "disk"] = 1 ∧ q.evaluate [] none = .discrete [] ∧
      ∀ current previous, ∃ m, (q.evaluate [] none).merge (q.evaluate current previous) = .ok m ∧
        m.HasShape .distribution 1 := by
  intro d q
  have hCompiled : compile d .trivial ["size", "disk"] = .ok q :=
    compile_of_fits (fault?_eq_none_iff.mp (by decide))
  have hLeaf : leaf d ["size", "disk"] = .distribution := by decide
  have hDepth : depth d ["size", "disk"] = 1 := by decide
  obtain ⟨hEvaluate, hMerge, -⟩ := one_shape hCompiled
  refine ⟨hCompiled, hLeaf, hDepth, rfl, fun current previous => ?_⟩
  rw [← hLeaf, ← hDepth]
  exact hMerge _ _ (hEvaluate [] none) (hEvaluate current previous)

end Query

end FleetMetrics
