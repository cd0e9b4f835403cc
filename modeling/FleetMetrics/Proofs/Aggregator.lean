import Mathlib
import FleetMetrics.Aggregator
import FleetMetrics.Proofs.Reduction

/-!
# The value of the whole fleet

Every host reduces its own points and reports one value a second; an aggregator merges what
arrives. Its value of a second should be what a reduction of all points of the fleet would give.
Three things stand between. The hosts arrive in some order, and each arrival merges all others
anew, in the order of their names. A value that does not fit the others is dropped, silently. And
only the latest seconds are kept, so a second can go and come back with a part of its hosts.

The first two are settled by `absorb_reduce` and `reduce_perm`: values of one query always fit,
and `Slot.Holds` does not depend on the order. For the third, a second that goes is `Crowded` out
by later ones, and then it stays away: what comes for it is gone at once. So a second that is kept
at the end has been kept since its first value.

The seconds of a host's clock are taken as the messages bear them. Nothing is said of hosts that
report one second twice.

Main results:

* `Slot.holds_update` — a host of the same query is never dropped.
* `find?_follow` — what an envelope does to what is collected for one instrumentation.
* `collects_run` — an aggregator has exactly the values that arrived, unless it has no room.
* `fleet_value` — the value of a second is the reduction of the points of all hosts.
-/

namespace FleetMetrics

variable {N : Type} [Arithmetic N]

/-! ## Slots -/

namespace Slot

/-- A slot with the values of some hosts, each with its own points, and their merge. -/
structure Holds (s : Slot N) (fields : List (FieldSpec N)) (points : String → List (DataPoint N))
    (arrived : List String) : Prop where
  sorted : s.hosts.Ascending
  hosts : s.hosts.keys.Perm arrived
  values : ∀ entry ∈ s.hosts, entry.2 = reduce (points entry.1) fields
  merged : s.merged = reduce (arrived.flatMap points) fields

variable {fields : List (FieldSpec N)} {points : String → List (DataPoint N)}

/-- The first report of a second is all that its slot holds. -/
theorem holds_first (h : String) :
    (Slot.first h (reduce (points h) fields)).Holds fields points [h] where
  sorted := List.pairwise_singleton _ _
  hosts := .rfl
  values := by
    intro entry mem
    rw [List.mem_singleton.mp mem]
  merged := by
    rw [List.flatMap_singleton]
    rfl

variable [Arithmetic.Exact N]

/-- Values of reductions merge into the reduction of all their points. -/
theorem foldlM_merge (own : List (DataPoint N)) {entries : List (String × ReducedValue N)}
    (values : ∀ entry ∈ entries, entry.2 = reduce (points entry.1) fields) :
    entries.foldlM (fun merged entry => merged.merge entry.2) (reduce own fields) =
      .ok (reduce (own ++ (entries.map (·.1)).flatMap points) fields) := by
  induction entries generalizing own with
  | nil =>
    rw [List.map_nil, List.flatMap_nil, List.append_nil]
    rfl
  | cons entry rest ih =>
    have hFirst : (reduce own fields).merge entry.2 =
        .ok (reduce (own ++ points entry.1) fields) := by
      rw [values entry List.mem_cons_self, ReducedValue.merge, absorb_reduce]
    have hRest := ih (own ++ points entry.1) fun e he => values e (List.mem_cons_of_mem _ he)
    rw [List.foldlM_cons, hFirst, List.map_cons, List.flatMap_cons, ← List.append_assoc]
    exact hRest

/-- **The value of another host is never dropped**, if it is one of the same query. -/
theorem holds_update (determined : ∀ f ∈ fields, ∀ b, f.bucketizer = some b → b.Determined)
    {s : Slot N} {arrived : List String} (holds : s.Holds fields points arrived) {h : String}
    (new : h ∉ arrived) :
    ∃ s', s.update h (reduce (points h) fields) = .ok s' ∧
      s'.Holds fields points (arrived ++ [h]) := by
  -- nothing of the host is there, so the merge goes through all that is
  have hMissing : h ∉ s.hosts.keys := fun hMem => new (holds.hosts.mem_iff.mp hMem)
  have hNone : s.hosts.find? h = none := by
    rw [Option.eq_none_iff_forall_ne_some]
    intro value hFound
    have hEntry := (Table.mem_iff_find? holds.sorted).mpr hFound
    exact hMissing (List.mem_map.mpr ⟨_, hEntry, rfl⟩)
  have hOthers : s.hosts.filter (fun entry => entry.1 ≠ h) = s.hosts := by
    refine List.filter_eq_self.mpr fun entry hEntry => ?_
    have hne : entry.1 ≠ h := by
      rintro rfl
      exact hMissing (List.mem_map_of_mem hEntry)
    simpa using hne
  have hMerged : mergeOthers s.hosts h (reduce (points h) fields) =
      .ok (reduce (points h ++ s.hosts.keys.flatMap points) fields) := by
    rw [mergeOthers, hOthers]
    exact foldlM_merge _ holds.values
  refine ⟨⟨s.hosts.insert h (reduce (points h) fields),
    reduce (points h ++ s.hosts.keys.flatMap points) fields⟩, ?_, ?_, ?_, ?_, ?_⟩
  · rw [update, hMerged]
    rfl
  · exact Table.ascending_insert holds.sorted _ _
  · have hLast : (h :: s.hosts.keys).Perm (arrived ++ [h]) :=
      (holds.hosts.cons h).trans (List.perm_append_singleton h arrived).symm
    exact (Table.keys_insert_new _ hNone).trans hLast
  · intro entry hEntry
    have hFind := (Table.mem_iff_find? (Table.ascending_insert holds.sorted _ _)).mp hEntry
    rw [Table.find?_insert holds.sorted] at hFind
    split at hFind
    · next hSame => rw [← Option.some.inj hFind, hSame]
    · exact holds.values entry ((Table.mem_iff_find? holds.sorted).mpr hFind)
  · -- the new host came first in the merge and comes last in the list
    refine reduce_perm ?_ determined
    rw [List.flatMap_append, List.flatMap_singleton]
    exact ((holds.hosts.flatMap_right points).append_left _).trans List.perm_append_comm

end Slot

/-! ## Windows -/

/-- The latest seconds of a window. -/
def latest (retain : Nat) (w : Table Int (Slot N)) : Table Int (Slot N) :=
  w.drop (w.length - retain)

/-- There is no room for a second: as many later ones are kept as are kept at all. -/
def Crowded (retain : Nat) (w : Table Int (Slot N)) (second : Int) : Prop :=
  retain ≤ w.countP fun entry => second < entry.1

section Window

variable {retain : Nat} {w : Table Int (Slot N)} {second : Int}

omit [Arithmetic N]

/-- No more seconds are kept than may be. -/
theorem length_latest (retain : Nat) (w : Table Int (Slot N)) :
    (latest retain w).length ≤ retain := by
  rw [latest, List.length_drop]
  omega

theorem ascending_latest (sorted : w.Ascending) : (latest retain w).Ascending :=
  List.Pairwise.sublist (List.drop_sublist _ _) sorted

/-- Where there is no room for a second, all that are kept are later. -/
theorem lt_of_crowded (bounded : w.length ≤ retain) (crowded : Crowded retain w second) :
    ∀ entry ∈ w, second < entry.1 := by
  -- as many are later as there are at all
  have hAll : w.countP (fun entry => second < entry.1) = w.length :=
    Nat.le_antisymm List.countP_le_length (bounded.trans crowded)
  intro entry hEntry
  simpa using List.countP_eq_length.mp hAll entry hEntry

/-- A second that enough later ones crowd out is not in a window of the size allowed. -/
theorem find?_of_crowded (bounded : w.length ≤ retain) (crowded : Crowded retain w second) :
    w.find? second = none := by
  refine Table.find?_eq_none_of_lt fun entry hEntry => ?_
  exact Int.compare_eq_lt.mpr (lt_of_crowded bounded crowded entry hEntry)

/-- What is given up lies before everything that is kept. -/
theorem lt_of_dropped (sorted : w.Ascending) {n : Nat} {x y : Int × Slot N} (hx : x ∈ w.take n)
    (hy : y ∈ w.drop n) : x.1 < y.1 := by
  have hSplit : List.Pairwise (fun a b : Int × Slot N => compare a.1 b.1 = .lt)
      (w.take n ++ w.drop n) := by
    rw [List.take_append_drop]
    exact sorted
  exact Int.compare_eq_lt.mp ((List.pairwise_append.mp hSplit).2.2 x hx y hy)

/-- If later seconds only are kept, and any is dropped, there is no room. -/
theorem crowded_of_dropped (sorted : w.Ascending) {x : Int × Slot N}
    (dropped : x ∈ w.take (w.length - retain)) (early : second ≤ x.1) :
    Crowded retain (latest retain w) second := by
  have hLength : (latest retain w).length = retain := by
    have hPositive : 0 < (w.take (w.length - retain)).length := List.length_pos_of_mem dropped
    rw [List.length_take] at hPositive
    rw [latest, List.length_drop]
    omega
  have hAll : (latest retain w).countP (fun entry => second < entry.1) =
      (latest retain w).length := by
    refine List.countP_eq_length.mpr fun y hy => ?_
    have hLater : x.1 < y.1 := lt_of_dropped sorted dropped hy
    simp only [decide_eq_true_eq]
    omega
  rw [Crowded, hAll, hLength]

/-- A second is kept as it is, or there is no room for it. -/
theorem find?_latest (retain : Nat) (sorted : w.Ascending) (second : Int) :
    (latest retain w).find? second = w.find? second ∨ Crowded retain (latest retain w) second := by
  by_cases hDropped : ∃ x ∈ w.take (w.length - retain), x.1 = second
  · obtain ⟨x, hx, rfl⟩ := hDropped
    exact .inr (crowded_of_dropped sorted hx (Int.le_refl _))
  · have hTake : Table.find? (w.take (w.length - retain)) second = none := by
      rw [Option.eq_none_iff_forall_ne_some]
      intro s hs
      have hSorted : Table.Ascending (w.take (w.length - retain)) :=
        List.Pairwise.sublist (List.take_sublist _ _) sorted
      exact hDropped ⟨_, (Table.mem_iff_find? hSorted).mpr hs, rfl⟩
    have hWhole : w.find? second = ((Table.find? (w.take (w.length - retain)) second).or
        ((latest retain w).find? second)) := by
      rw [latest, ← Table.find?_append, List.take_append_drop]
    rw [hWhole, hTake]
    exact .inl rfl

/-- Where there is no room there is none after a trim. -/
theorem crowded_latest (sorted : w.Ascending) (crowded : Crowded retain w second) :
    Crowded retain (latest retain w) second := by
  by_cases hDropped : ∃ x ∈ w.take (w.length - retain), second ≤ x.1
  · obtain ⟨x, hx, hEarly⟩ := hDropped
    exact crowded_of_dropped sorted hx hEarly
  · -- all later seconds are kept
    have hNone : (w.take (w.length - retain)).countP (fun entry => second < entry.1) = 0 := by
      refine List.countP_eq_zero.mpr fun x hx => ?_
      have hEarly : ¬ second ≤ x.1 := fun h => hDropped ⟨x, hx, h⟩
      simp only [decide_eq_true_eq]
      omega
    have hCount : w.countP (fun entry => second < entry.1) =
        (w.take (w.length - retain)).countP (fun entry => second < entry.1) +
          (latest retain w).countP (fun entry => second < entry.1) := by
      rw [latest, ← List.countP_append, List.take_append_drop]
    rw [Crowded] at crowded ⊢
    omega

/-- A second that is crowded out remains so when others come. -/
theorem crowded_insert (crowded : Crowded retain w second) (s : Int) (slot : Slot N) :
    Crowded retain (w.insert s slot) second := by
  refine Nat.le_trans crowded ?_
  clear crowded
  induction w with
  | nil => exact Nat.zero_le _
  | cons entry rest ih =>
    simp only [Table.insert, Table.alter] at ih ⊢
    split
    · exact List.Sublist.countP_le (List.sublist_cons_self _ _)
    · simp only [List.countP_cons]
      omega
    · simp only [List.countP_cons]
      omega

end Window

/-! ## Aggregations -/

namespace Aggregation

/-- The slot of a second once the value of a host is entered. -/
def slotAfter (g : Aggregation N) (h : String) (second : Int) (value : ReducedValue N) : Slot N :=
  match g.window.find? second with
  | some slot => (slot.update h value).toOption.getD slot
  | none => .first h value

/-- A value that is recorded goes into the slot of its second, and then the latest seconds are kept.
-/
theorem window_record (retain : Nat) (g : Aggregation N) (h : String) (second : Int)
    (value : ReducedValue N) :
    (g.record retain h second value).window =
      latest retain (g.window.insert second (g.slotAfter h second value)) := rfl

/-- An aggregation with its seconds in order, and no more than are kept. -/
structure Tidy (retain : Nat) (g : Aggregation N) : Prop where
  sorted : g.window.Ascending
  bounded : g.window.length ≤ retain

/-- Recording keeps a window within its size and in order. -/
theorem tidy_record {retain : Nat} {g : Aggregation N} (tidy : g.Tidy retain) (h : String)
    (second : Int) (value : ReducedValue N) : (g.record retain h second value).Tidy retain where
  sorted := ascending_latest (Table.ascending_insert tidy.sorted _ _)
  bounded := length_latest _ _

/-- Where there is no room for a second there is none once a value is entered. -/
theorem crowded_record {retain : Nat} {g : Aggregation N} (tidy : g.Tidy retain) {second : Int}
    (crowded : Crowded retain g.window second) (h : String) (s : Int) (value : ReducedValue N) :
    Crowded retain (g.record retain h s value).window second :=
  crowded_latest (Table.ascending_insert tidy.sorted _ _) (crowded_insert crowded _ _)

/-- Once a value is entered, its second has its slot and the others have what they had, or there is
no room. -/
theorem find?_record {retain : Nat} {g : Aggregation N} (tidy : g.Tidy retain) (h : String)
    (s : Int) (value : ReducedValue N) (second : Int) :
    (g.record retain h s value).window.find? second =
        (if second = s then some (g.slotAfter h s value) else g.window.find? second) ∨
      Crowded retain (g.record retain h s value).window second := by
  rw [← Table.find?_insert tidy.sorted]
  exact find?_latest retain (Table.ascending_insert tidy.sorted _ _) second

/-- An aggregation has of a second the values that arrived, or no room. -/
def Collects (g : Aggregation N) (retain : Nat) (second : Int) (fields : List (FieldSpec N))
    (points : String → List (DataPoint N)) (arrived : List String) : Prop :=
  Crowded retain g.window second ∨ (arrived = [] ∧ g.window.find? second = none) ∨
    ∃ slot, g.window.find? second = some slot ∧ slot.Holds fields points arrived

variable {retain : Nat} {g : Aggregation N} {second : Int} {fields : List (FieldSpec N)}
  {points : String → List (DataPoint N)} {arrived : List String}

/-- A value for another second may only take the room. -/
theorem collects_record_of_ne (tidy : g.Tidy retain)
    (collects : g.Collects retain second fields points arrived) {h : String} {other : Int}
    (apart : other ≠ second) (value : ReducedValue N) :
    (g.record retain h other value).Collects retain second fields points arrived := by
  rcases collects with hCrowded | hRest
  · exact .inl (crowded_record tidy hCrowded _ _ _)
  · rcases find?_record tidy h other value second with hFind | hCrowded
    · rw [if_neg (Ne.symm apart)] at hFind
      unfold Collects
      rw [hFind]
      exact .inr hRest
    · exact .inl hCrowded

variable [Arithmetic.Exact N]

/-- The value of a host that has not reported yet is entered, if there is room. -/
theorem collects_record (determined : ∀ f ∈ fields, ∀ b, f.bucketizer = some b → b.Determined)
    (tidy : g.Tidy retain) (collects : g.Collects retain second fields points arrived) {h : String}
    (new : h ∉ arrived) :
    (g.record retain h second (reduce (points h) fields)).Collects retain second fields points
      (arrived ++ [h]) := by
  rcases find?_record tidy h second (reduce (points h) fields) second with hFind | hCrowded
  · rw [if_pos rfl] at hFind
    rcases collects with hCrowded | ⟨rfl, hNone⟩ | ⟨slot, hSlot, hHolds⟩
    · exact .inl (crowded_record tidy hCrowded _ _ _)
    · -- the first value of the second
      refine .inr (.inr ⟨_, hFind, ?_⟩)
      rw [slotAfter, hNone]
      exact Slot.holds_first h
    · obtain ⟨slot', hUpdate, hHolds'⟩ := Slot.holds_update determined hHolds new
      have hAfter : g.slotAfter h second (reduce (points h) fields) = slot' := by
        rw [slotAfter, hSlot]
        simp only [hUpdate]
        rfl
      exact .inr (.inr ⟨slot', hFind.trans (congrArg some hAfter), hHolds'⟩)
  · exact .inl hCrowded

end Aggregation

/-! ## Aggregators -/

/-- A value of a host for a second. -/
structure Report (N : Type) where
  hostname : String
  second : Int
  value : ReducedValue N

/-- What an envelope does to what is kept for an instrumentation: it begins when it is enabled and
ends when it is disabled, and reports are entered in between. -/
def Envelope.follow {α : Type} (id : InstId) (fresh : String → α) (enter : α → Report N → α)
    (e : Envelope N) (kept : Option α) : Option α :=
  match e.message with
  | .enableAggregation id' streamKey =>
    if id' = id then some (kept.getD (fresh streamKey)) else kept
  | .disable .aggregation id' => if id' = id then none else kept
  | .data id' sampledAt value =>
    if id' = id then kept.map (enter · ⟨e.hostname, sampledAt.seconds, value⟩) else kept
  | _ => kept

/-- The value that an envelope reports for a second of an instrumentation, with its host. -/
def Envelope.report? (e : Envelope N) (id : InstId) (second : Int) :
    Option (String × ReducedValue N) :=
  match e.message with
  | .data id' sampledAt value =>
    if id' = id ∧ sampledAt.seconds = second then some (e.hostname, value) else none
  | _ => none

namespace Aggregator

/-- The aggregator after some envelopes. -/
def handleAll (a : Aggregator N) (es : List (Envelope N)) : Aggregator N :=
  es.foldl (fun a e => (a.handle e).1) a

/-- The states that an aggregator gets into from the start. -/
def Reachable (a : Aggregator N) : Prop :=
  ∃ keyBase hostname retain earlier, a = (Aggregator.new keyBase hostname retain).handleAll earlier

/-- An aggregator whose instrumentations are in order, and their seconds. -/
structure Tidy (a : Aggregator N) : Prop where
  sorted : a.store.Ascending
  tidy : ∀ id g, a.store.find? id = some g → g.Tidy a.retain

variable {a : Aggregator N}

/-- How many seconds are kept does not change. -/
theorem retain_handle (a : Aggregator N) (e : Envelope N) : (a.handle e).1.retain = a.retain := by
  obtain ⟨source, hostname, m⟩ := e
  cases m with
  | enableAggregation id streamKey =>
    simp only [handle, enable]
    split <;> rfl
  | disable w id =>
    cases w with
    | instrumentation => rfl
    | aggregation =>
      simp only [handle, disable]
      split <;> rfl
  | data id sampledAt value =>
    simp only [handle, merge]
    split <;> rfl
  | _ => rfl

/-- What an envelope does to what is collected for an instrumentation. -/
theorem find?_follow (tidy : a.Tidy) (e : Envelope N) (id : InstId) :
    (a.handle e).1.store.find? id = e.follow id (fun streamKey => ⟨streamKey, []⟩)
      (fun g r => g.record a.retain r.hostname r.second r.value) (a.store.find? id) := by
  obtain ⟨source, hostname, m⟩ := e
  cases m with
  | enableAggregation id' streamKey =>
    simp only [handle, enable, Envelope.follow]
    by_cases hId : id' = id
    · subst hId
      rw [if_pos rfl]
      split
      -- an instrumentation that is there already keeps what was collected for it
      · next hOld =>
        obtain ⟨g, hg⟩ := Option.isSome_iff_exists.mp hOld
        rw [hg]
        rfl
      · next hNew =>
        have hNone : a.store.find? id' = none := by simpa [Table.contains] using hNew
        rw [Table.find?_insert tidy.sorted, if_pos rfl, hNone]
        rfl
    · rw [if_neg hId]
      split
      · rfl
      · rw [Table.find?_insert tidy.sorted, if_neg (Ne.symm hId)]
  | disable w id' =>
    cases w with
    | instrumentation => rfl
    | aggregation =>
      simp only [handle, disable, Envelope.follow]
      by_cases hId : id' = id
      · subst hId
        rw [if_pos rfl]
        split
        · rw [Table.find?_erase, if_pos rfl]
        · next h => exact h
      · rw [if_neg hId]
        split
        · rw [Table.find?_erase, if_neg (Ne.symm hId)]
        · rfl
  | data id' sampledAt value =>
    simp only [handle, merge, Envelope.follow]
    by_cases hId : id' = id
    · subst hId
      rw [if_pos rfl]
      cases hFind : a.store.find? id' with
      | none => simpa using hFind
      | some g => simp [Table.find?_insert tidy.sorted]
    · rw [if_neg hId]
      split
      · rw [Table.find?_insert tidy.sorted, if_neg (Ne.symm hId)]
      · rfl
  | _ => rfl

/-- An envelope is a value for an instrumentation that is collected, or it leaves what is collected
for it alone, unless it ends it. -/
theorem find?_handle (tidy : a.Tidy) {e : Envelope N} {id : InstId} {g : Aggregation N}
    (found : a.store.find? id = some g) (lasts : e.message ≠ .disable .aggregation id) :
    (∃ s value, (a.handle e).1.store.find? id = some (g.record a.retain e.hostname s value) ∧
      ∀ second, e.report? id second = if s = second then some (e.hostname, value) else none) ∨
    ((a.handle e).1.store.find? id = some g ∧ ∀ second, e.report? id second = none) := by
  have hFollow := find?_follow tidy e id
  rw [found] at hFollow
  obtain ⟨source, hostname, m⟩ := e
  cases m with
  | enableAggregation id' streamKey =>
    -- what is collected already is not begun anew
    exact .inr ⟨hFollow.trans (ite_self _), fun second => rfl⟩
  | disable w id' =>
    cases w with
    | instrumentation => exact .inr ⟨hFollow, fun second => rfl⟩
    | aggregation =>
      have hne : id' ≠ id := by
        rintro rfl
        exact lasts rfl
      exact .inr ⟨hFollow.trans (if_neg hne), fun second => rfl⟩
  | data id' sampledAt value =>
    by_cases hId : id' = id
    · refine .inl ⟨sampledAt.seconds, value, hFollow.trans (if_pos hId), fun second => ?_⟩
      simp [Envelope.report?, hId]
    · exact .inr ⟨hFollow.trans (if_neg hId), fun second => by simp [Envelope.report?, hId]⟩
  | _ => exact .inr ⟨hFollow, fun second => rfl⟩

/-- Whatever an aggregator handles, its store and its windows stay in order and within their sizes.
-/
theorem tidy_handle (tidy : a.Tidy) (e : Envelope N) : (a.handle e).1.Tidy := by
  obtain ⟨source, hostname, m⟩ := e
  -- a store stays tidy if what is put in is tidy
  have hInsert : ∀ {id g}, g.Tidy a.retain → ∀ id' g',
      (a.store.insert id g).find? id' = some g' → g'.Tidy a.retain := by
    intro id g hg id' g' hFind
    rw [Table.find?_insert tidy.sorted] at hFind
    split at hFind
    · rwa [← Option.some.inj hFind]
    · exact tidy.tidy id' g' hFind
  cases m with
  | enableAggregation id streamKey =>
    simp only [handle, enable]
    split
    · exact tidy
    · exact ⟨Table.ascending_insert tidy.sorted _ _,
        hInsert ⟨Table.ascending_nil, Nat.zero_le _⟩⟩
  | disable w id =>
    cases w with
    | instrumentation => exact tidy
    | aggregation =>
      simp only [handle, disable]
      split
      · refine ⟨Table.ascending_erase tidy.sorted _, fun id' g' hFind => ?_⟩
        rw [Table.find?_erase] at hFind
        split at hFind
        · cases hFind
        · exact tidy.tidy id' g' hFind
      · exact tidy
  | data id sampledAt value =>
    simp only [handle, merge]
    split
    · next g found =>
      exact ⟨Table.ascending_insert tidy.sorted _ _,
        hInsert (Aggregation.tidy_record (tidy.tidy id g found) _ _ _)⟩
    · exact tidy
  | _ => exact tidy

/-! ## Whole runs -/

/-- The last envelope is handled where those before it have led. -/
theorem handleAll_concat (a : Aggregator N) (es : List (Envelope N)) (e : Envelope N) :
    a.handleAll (es ++ [e]) = ((a.handleAll es).handle e).1 := by
  rw [handleAll, List.foldl_append]
  rfl

theorem retain_handleAll (a : Aggregator N) (es : List (Envelope N)) :
    (a.handleAll es).retain = a.retain := by
  induction es using List.reverseRecOn with
  | nil => rfl
  | append_singleton es e ih => rw [handleAll_concat, retain_handle, ih]

/-- The store and its windows are in order after any envelopes. -/
theorem tidy_handleAll (tidy : a.Tidy) (es : List (Envelope N)) : (a.handleAll es).Tidy := by
  induction es using List.reverseRecOn with
  | nil => exact tidy
  | append_singleton es e ih =>
    rw [handleAll_concat]
    exact tidy_handle ih e

/-- In every state that an aggregator gets into its store and its windows are in order. -/
theorem tidy_of_reachable (reachable : a.Reachable) : a.Tidy := by
  obtain ⟨keyBase, hostname, retain, earlier, rfl⟩ := reachable
  have hNew : (Aggregator.new (N := N) keyBase hostname retain).Tidy :=
    ⟨Table.ascending_nil, fun id g hFind => by cases hFind⟩
  exact tidy_handleAll hNew earlier

section Run

variable [Arithmetic.Exact N] {fields : List (FieldSpec N)}
  {points : String → List (DataPoint N)} {id : InstId} {second : Int}

/-- One envelope more: a value for the second is entered, and anything else leaves it alone. -/
theorem collects_handle (determined : ∀ f ∈ fields, ∀ b, f.bucketizer = some b → b.Determined)
    (tidy : a.Tidy) {e : Envelope N} {g : Aggregation N} (found : a.store.find? id = some g)
    (lasts : e.message ≠ .disable .aggregation id) {arrived : List String}
    (collects : g.Collects a.retain second fields points arrived)
    (fits : ∀ r, e.report? id second = some r → r.2 = reduce (points r.1) fields ∧ r.1 ∉ arrived) :
    ∃ g', (a.handle e).1.store.find? id = some g' ∧
      g'.Collects a.retain second fields points
        (arrived ++ ((e.report? id second).map (·.1)).toList) := by
  have hTidy := tidy.tidy id g found
  rcases find?_handle tidy found lasts with ⟨s, value, hFind, hReport⟩ | ⟨hFind, hReport⟩
  · refine ⟨_, hFind, ?_⟩
    rw [hReport] at fits ⊢
    by_cases hSecond : s = second
    · subst hSecond
      obtain ⟨hValue, hNew⟩ := fits (e.hostname, value) (if_pos rfl)
      obtain rfl : value = reduce (points e.hostname) fields := hValue
      rw [if_pos rfl]
      exact Aggregation.collects_record determined hTidy collects hNew
    · rw [if_neg hSecond, Option.map_none, Option.toList_none, List.append_nil]
      exact Aggregation.collects_record_of_ne hTidy collects hSecond value
  · refine ⟨g, hFind, ?_⟩
    rw [hReport, Option.map_none, Option.toList_none, List.append_nil]
    exact collects

/-- **An aggregator has exactly the values that arrived**, or no room for their second, whatever
else arrives. -/
theorem collects_run (determined : ∀ f ∈ fields, ∀ b, f.bucketizer = some b → b.Determined)
    (tidy : a.Tidy) {g : Aggregation N} (found : a.store.find? id = some g)
    (fresh : g.window.find? second = none) {es : List (Envelope N)}
    (lasts : ∀ e ∈ es, e.message ≠ .disable .aggregation id)
    (values : ∀ r ∈ es.filterMap (·.report? id second), r.2 = reduce (points r.1) fields)
    (once : ((es.filterMap (·.report? id second)).map (·.1)).Nodup) :
    ∃ g', (a.handleAll es).store.find? id = some g' ∧
      g'.Collects a.retain second fields points
        ((es.filterMap (·.report? id second)).map (·.1)) := by
  induction es using List.reverseRecOn with
  | nil => exact ⟨g, found, .inr (.inl ⟨rfl, fresh⟩)⟩
  | append_singleton es e ih =>
    have hLast : [e].filterMap (·.report? id second) = (e.report? id second).toList := by
      cases hReport : e.report? id second <;> simp [hReport]
    simp only [List.filterMap_append, List.map_append, hLast] at values once ⊢
    obtain ⟨hOnce, -, hApart⟩ := List.nodup_append.mp once
    obtain ⟨g', hFound, hCollects⟩ := ih
      (fun e' he' => lasts e' (List.mem_append_left _ he'))
      (fun r hr => values r (List.mem_append_left _ hr)) hOnce
    rw [← a.retain_handleAll es] at hCollects ⊢
    rw [handleAll_concat]
    have hStep := collects_handle determined (tidy_handleAll tidy es) hFound
      (lasts e (by simp)) hCollects fun r hr => by
        have hMem : r ∈ (e.report? id second).toList := by simp [hr]
        refine ⟨values r (List.mem_append_right _ hMem), fun hEarlier => ?_⟩
        -- its host has reported once, so not before
        exact hApart _ hEarlier _ (List.mem_map_of_mem hMem) rfl
    rwa [Option.toList_map] at hStep

/-- **The value of the whole fleet.** The hosts of an instrumentation run queries that reduce along
the same fields, each over points of its own, and a bucket's lower end determines its upper end.
An aggregator that collects the instrumentation and has nothing for a second yet receives the
value of each host for it, in any order and with anything in between but the end of the
instrumentation. If it keeps the second, then it has the value of every host, so none is dropped,
and the value of the second is what one query yields for the points of all hosts: their reduction,
or the typed zero if there are none. A host has the value of its snapshots in this way, by the
points of one against the other. -/
theorem fleet_value (reachable : a.Reachable) (enabled : a.store.contains id = true)
    (fresh : a.valueAt id second = none) {es : List (Envelope N)}
    (lasts : ∀ e ∈ es, e.message ≠ .disable .aggregation id) {hosts : List String}
    (distinct : hosts.Nodup) (query : String → Query N) (points : String → List (DataPoint N))
    (alike : ∀ h ∈ hosts,
      (query h).decomposition.map FieldSpec.rule = fields.map FieldSpec.rule)
    (determined : ∀ f ∈ fields, ∀ b, f.bucketizer = some b → b.Determined)
    (reports : (es.filterMap (·.report? id second)).Perm
      (hosts.map fun h => (h, (query h).summarize (points h))))
    (kept : second ∈ (a.handleAll es).seconds id) :
    (∀ h current previous, (query h).evaluate current previous =
      (query h).summarize ((previous.map ((query h).points current)).getD [])) ∧
    (∃ slot, ((a.handleAll es).window id).find? second = some slot ∧
      slot.hosts.keys.Perm hosts ∧
      ∀ h ∈ hosts, slot.hosts.find? h = some ((query h).summarize (points h))) ∧
    ∀ h ∈ hosts, (a.handleAll es).valueAt id second =
      some ((query h).summarize (hosts.flatMap points)) := by
  have hTidy := tidy_of_reachable reachable
  obtain ⟨g, hFound⟩ := Option.isSome_iff_exists.mp enabled
  have hFresh : g.window.find? second = none := by
    simpa [valueAt, window, hFound] using fresh
  -- read exactly, a host reports the reduction of its points along the common fields
  have hSummary : ∀ h ∈ hosts, ∀ ps, (query h).summarize ps = reduce ps fields :=
    fun h hh ps => ((query h).summarize_eq ps).trans (reduce_congr (alike h hh) ps)
  have hNames : ((es.filterMap (·.report? id second)).map (·.1)).Perm hosts := by
    have hMapped := reports.map (·.1)
    simpa only [List.map_map, Function.comp_def, List.map_id'] using hMapped
  have hValues : ∀ r ∈ es.filterMap (·.report? id second), r.2 = reduce (points r.1) fields := by
    intro r hr
    obtain ⟨h, hh, rfl⟩ := List.mem_map.mp (reports.mem_iff.mp hr)
    exact hSummary h hh _
  -- the second is kept, so there was room for it all along
  obtain ⟨g', hFound', hCollects⟩ := collects_run determined hTidy hFound hFresh lasts hValues
    (hNames.nodup_iff.mpr distinct)
  have hTidy' := (tidy_handleAll hTidy es).tidy id g' hFound'
  have hWindow : (a.handleAll es).window id = g'.window := by rw [window, hFound']
  have hKept : (g'.window.find? second).isSome := by
    rw [seconds, hWindow] at kept
    obtain ⟨entry, hEntry, rfl⟩ := List.mem_map.mp kept
    rw [(Table.mem_iff_find? hTidy'.sorted).mp hEntry]
    rfl
  rw [a.retain_handleAll] at hTidy'
  rcases hCollects with hCrowded | ⟨-, hNone⟩ | ⟨slot, hSlot, hHolds⟩
  · rw [find?_of_crowded hTidy'.bounded hCrowded] at hKept
    cases hKept
  · rw [hNone] at hKept
    cases hKept
  have hKeys := hHolds.hosts.trans hNames
  have hWhole : slot.merged = reduce (hosts.flatMap points) fields := by
    rw [hHolds.merged]
    exact reduce_perm (hNames.flatMap_right points) determined
  refine ⟨fun h => (query h).evaluate_eq, ⟨slot, hWindow ▸ hSlot, hKeys, fun h hh => ?_⟩,
    fun h hh => ?_⟩
  · obtain ⟨entry, hEntry, rfl⟩ := List.mem_map.mp (hKeys.mem_iff.mpr hh)
    rw [hSummary _ hh, ← hHolds.values entry hEntry]
    exact (Table.mem_iff_find? hHolds.sorted).mp hEntry
  · rw [valueAt, hWindow, hSlot, Option.map_some, hSummary h hh, hWhole]

end Run

/-- Two hosts report one second, the idle one first. The value of the second is that of the points
of both, by disk and by size. -/
theorem fleet_value_brief :
    let fields : List (FieldSpec Extended) :=
      [.fixed "disk" "disk" ["sda"], .numeric "size" "size" (.linear (.finite 1)) fun _ => []]
    let query : Query Extended := ⟨.new "m" "s" "S" "u", .trivial, [], fields⟩
    let busy : DataPoint Extended :=
      ⟨[("disk", .text "sda"), ("size", .number (.finite 3))], .finite 2⟩
    let points : String → List (DataPoint Extended) := fun h => if h = "h" then [busy, busy] else []
    let report : String → Envelope Extended := fun h =>
      ⟨"k.instrumenter", h, .data 1 ⟨0⟩ (query.summarize (points h))⟩
    let a : Aggregator Extended := (Aggregator.new "k" "g" 2).handleAll
      [⟨"k.coordinator", "c", .enableAggregation 1 "k.stream.1"⟩]
    (a.handleAll [report "i", ⟨"k.coordinator", "c", .ping⟩, report "h"]).valueAt 1 0 =
      some (query.summarize [busy, busy]) := by
  intro fields query busy points report a
  have hDetermined : ∀ f ∈ fields, ∀ b, f.bucketizer = some b → b.Determined := by
    intro f hf b hb
    rcases List.mem_cons.mp hf with rfl | hf
    · cases hb
    · rw [List.mem_singleton.mp hf] at hb
      rw [← Option.some.inj hb]
      exact Bucketizer.determined_linear _
  have hLasts : ∀ e ∈ [report "i", ⟨"k.coordinator", "c", .ping⟩, report "h"],
      e.message ≠ .disable .aggregation 1 := by
    simp [report]
  have hReports : ([report "i", ⟨"k.coordinator", "c", .ping⟩, report "h"].filterMap
      (·.report? 1 0)).Perm (["i", "h"].map fun h => (h, query.summarize (points h))) :=
    .rfl
  have hKept : (0 : Int) ∈ (a.handleAll
      [report "i", ⟨"k.coordinator", "c", .ping⟩, report "h"]).seconds 1 :=
    List.mem_singleton_self _
  have hReachable : a.Reachable := ⟨"k", "g", 2, _, rfl⟩
  obtain ⟨-, -, hValue⟩ := fleet_value hReachable rfl rfl hLasts (by decide) (fun _ => query)
    points (fun _ _ => rfl) hDetermined hReports hKept
  exact hValue "h" (by simp)

end Aggregator

end FleetMetrics
