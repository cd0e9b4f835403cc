import Mathlib
import FleetMetrics.Proofs.Binary64
import FleetMetrics.Proofs.Distribution
import FleetMetrics.Proofs.Drill
import FleetMetrics.Proofs.Shape

/-!
# Reduction partitions the points

The shape of a reduced value does not show which points went into it. A point that is dropped at an
inner level, or counted in two groups, leaves every breakdown as deep as it was. So the leaves are
compared with the points themselves: each leaf is named by the keys that lead to it, and has to be
what the points with these keys amount to, in the order in which they came.

Points that lack a field are no mistake. They drop out at the level of that field, and all of the
statements below count with them; only that every point is used needs that every point carries all
fields. Those of a compiled query do, since a query expands all fields of its decomposition.

Numbers are binary64 here, so the order of the points matters and so does where a sum starts: the
sum of a leaf starts from minus zero, the weight of a bucket from zero.

Main results:

* `mem_leaves_reduce`, `nodup_leaves_reduce` — the leaves of a reduction, and that no two have the
  same keys.
* `partitions_reduce` — where there is a leaf, what it is, and that no point is lost.
* `Query.carries_of_point` — the points of a compiled query carry its decomposition.
* `reduction_partitions` — both together.
-/

namespace FleetMetrics

section Leaves

variable {N : Type} [Arithmetic N]

/-! ## The leaves of breakdowns -/

/-- The values below some levels of breakdowns, each with the keys that lead to it. -/
def ReducedValue.leaves : Nat → ReducedValue N → List (List String × ReducedValue N)
  | 0, v => [([], v)]
  | n + 1, .discrete groups =>
    groups.flatMap fun entry => (leaves n entry.2).map fun leaf => (entry.1 :: leaf.1, leaf.2)
  | _ + 1, _ => []

/-- Does a point carry some fields, with values that are displayed as some keys? -/
def DataPoint.liesAt (p : DataPoint N) : List (FieldSpec N) → List String → Bool
  | [], [] => true
  | f :: fields, key :: keys => p.inGroup f.name key && p.liesAt fields keys
  | _, _ => false

/-- A point lies at a path if each of its fields has the key that the path has there. -/
theorem DataPoint.liesAt_iff {p : DataPoint N} {fields : List (FieldSpec N)} {keys : List String} :
    p.liesAt fields keys = true ↔ List.Forall₂
      (fun f key => ∃ v, p.fields.find? f.name = some v ∧ v.key = key) fields keys := by
  induction fields generalizing keys with
  | nil => cases keys <;> simp [liesAt]
  | cons f rest ih =>
    cases keys with
    | nil => simp [liesAt]
    | cons key keys =>
      rw [liesAt, Bool.and_eq_true, ih, List.forall₂_cons, inGroup, decide_eq_true_eq,
        Option.map_eq_some_iff]

/-- A point lies at one place at most. -/
theorem DataPoint.eq_of_liesAt {p : DataPoint N} {fields : List (FieldSpec N)}
    {keys keys' : List String} (lies : p.liesAt fields keys = true)
    (lies' : p.liesAt fields keys' = true) : keys = keys' := by
  rw [liesAt_iff] at lies lies'
  induction lies generalizing keys' with
  | nil => exact (List.forall₂_nil_left_iff.mp lies').symm
  | cons hHead _ ih =>
    obtain ⟨key', rest', hHead', hRest', rfl⟩ := List.forall₂_cons_left_iff.mp lies'
    obtain ⟨v, hv, rfl⟩ := hHead
    obtain ⟨v', hv', rfl⟩ := hHead'
    rw [Option.some.inj (hv.symm.trans hv'), ih hRest']

/-- A point that carries some fields lies somewhere. -/
theorem DataPoint.exists_liesAt {p : DataPoint N} {fields : List (FieldSpec N)}
    (carries : ∀ f ∈ fields, ∃ v, p.fields.find? f.name = some v) :
    ∃ keys, p.liesAt fields keys = true := by
  induction fields with
  | nil => exact ⟨[], rfl⟩
  | cons f rest ih =>
    obtain ⟨v, hv⟩ := carries f List.mem_cons_self
    obtain ⟨keys, hKeys⟩ := ih fun g hg => carries g (List.mem_cons_of_mem _ hg)
    refine ⟨v.key :: keys, ?_⟩
    rw [liesAt, hKeys, Bool.and_true]
    simp [inGroup, hv]

/-- A point that lies at a path lies in the group of the first key, and from there along the rest of
the path. -/
theorem DataPoint.liesAt_cons {p : DataPoint N} {f : FieldSpec N} {fields : List (FieldSpec N)}
    {keys : List String} : p.liesAt (f :: fields) keys = true ↔ ∃ key rest, keys = key :: rest ∧
      p.inGroup f.name key = true ∧ p.liesAt fields rest = true := by
  cases keys with
  | nil => simp [liesAt]
  | cons key rest => simp [liesAt]

theorem filter_liesAt_nil (points : List (DataPoint N)) :
    points.filter (·.liesAt [] []) = points :=
  List.filter_eq_self.mpr fun _ _ => rfl

/-- The points at a path are found group by group. -/
theorem filter_liesAt_cons (points : List (DataPoint N)) (f : FieldSpec N)
    (fields : List (FieldSpec N)) (key : String) (keys : List String) :
    points.filter (·.liesAt (f :: fields) (key :: keys)) =
      (points.filter (·.inGroup f.name key)).filter (·.liesAt fields keys) := by
  rw [List.filter_filter]
  refine List.filter_congr fun p _ => ?_
  rw [DataPoint.liesAt, Bool.and_comm]

/-- The entries of a breakdown are the groups that have points, each reduced along the rest. -/
theorem mem_reduce_discrete {f : FieldSpec N} (discrete : f.arity = .discrete)
    (points : List (DataPoint N)) (rest : List (FieldSpec N)) :
    ∃ t : Table String (ReducedValue N), reduce points (f :: rest) = .discrete t ∧ t.Ascending ∧
      ∀ key v, (key, v) ∈ t ↔ points.filter (·.inGroup f.name key) ≠ [] ∧
        v = reduce (points.filter (·.inGroup f.name key)) rest := by
  obtain ⟨t, hReduce, hSorted, hFind⟩ := reduce_discrete discrete points rest
  refine ⟨t, hReduce, hSorted, fun key v => ?_⟩
  rw [Table.mem_iff_find? hSorted, hFind, Option.map_eq_some_iff]
  constructor
  · rintro ⟨group, hSome, rfl⟩
    obtain ⟨rfl, hNe⟩ := nonempty?_eq_some.mp hSome
    exact ⟨hNe, rfl⟩
  · rintro ⟨hNe, hValue⟩
    exact ⟨_, nonempty?_eq_some.mpr ⟨rfl, hNe⟩, hValue.symm⟩

/-- **The leaves of a reduction.** There is a leaf wherever a point lies, and it is the reduction of
the points that lie there along the rest of the decomposition. Where nothing groups, there is one
leaf in any case. -/
theorem mem_leaves_reduce {groups : List (FieldSpec N)}
    (discrete : ∀ f ∈ groups, f.arity = .discrete) {points : List (DataPoint N)}
    {rest : List (FieldSpec N)} {leaf : List String × ReducedValue N} :
    leaf ∈ (reduce points (groups ++ rest)).leaves groups.length ↔
      ((groups = [] ∧ leaf.1 = []) ∨ ∃ p ∈ points, p.liesAt groups leaf.1 = true) ∧
        leaf.2 = reduce (points.filter (·.liesAt groups leaf.1)) rest := by
  -- each field splits the points, so the rest is about the points of one group
  induction groups generalizing points leaf with
  | nil =>
    obtain ⟨keys, value⟩ := leaf
    show (keys, value) ∈ [([], reduce points rest)] ↔ _
    rw [List.mem_singleton, Prod.mk.injEq]
    constructor
    · rintro ⟨rfl, rfl⟩
      exact ⟨.inl ⟨rfl, rfl⟩, by rw [filter_liesAt_nil]⟩
    · rintro ⟨hPlace, hValue⟩
      dsimp only at hPlace hValue
      -- nothing but the empty list of keys fits no fields
      have hKeys : keys = [] := by
        rcases hPlace with ⟨-, hKeys⟩ | ⟨p, -, hLies⟩
        · exact hKeys
        · exact List.forall₂_nil_left_iff.mp (DataPoint.liesAt_iff.mp hLies)
      rw [hKeys, filter_liesAt_nil] at hValue
      exact ⟨hKeys, hValue⟩
  | cons f groups ih =>
    have hRest : ∀ g ∈ groups, g.arity = .discrete :=
      fun g hg => discrete g (List.mem_cons_of_mem _ hg)
    obtain ⟨t, hReduce, -, hEntries⟩ :=
      mem_reduce_discrete (discrete f List.mem_cons_self) points (groups ++ rest)
    rw [List.cons_append, hReduce, List.length_cons, ReducedValue.leaves, List.mem_flatMap]
    constructor
    · rintro ⟨⟨key, v⟩, hEntry, hLeaf⟩
      obtain ⟨⟨keys, value⟩, hMem, rfl⟩ := List.mem_map.mp hLeaf
      obtain ⟨hNe, rfl⟩ := (hEntries _ _).mp hEntry
      obtain ⟨hPlace, hValue⟩ := (ih hRest).mp hMem
      refine ⟨.inr ?_, hValue.trans (by rw [filter_liesAt_cons])⟩
      -- at the last level any point of the group will do
      obtain ⟨p, hp, hLies⟩ : ∃ p ∈ points.filter (·.inGroup f.name key),
          p.liesAt groups keys = true := by
        rcases hPlace with ⟨rfl, rfl⟩ | hPlace
        · obtain ⟨p, hp⟩ := List.exists_mem_of_ne_nil _ hNe
          exact ⟨p, hp, rfl⟩
        · exact hPlace
      obtain ⟨hPoint, hIn⟩ := List.mem_filter.mp hp
      exact ⟨p, hPoint, DataPoint.liesAt_cons.mpr ⟨key, keys, rfl, hIn, hLies⟩⟩
    · rintro ⟨⟨hNil, -⟩ | ⟨p, hPoint, hLies⟩, hValue⟩
      · cases hNil
      · obtain ⟨keys, value⟩ := leaf
        obtain ⟨key, keys, rfl, hIn, hLies⟩ := DataPoint.liesAt_cons.mp hLies
        have hp : p ∈ points.filter (·.inGroup f.name key) := List.mem_filter.mpr ⟨hPoint, hIn⟩
        -- the point is in the group of its key, and lies below the entry for that group
        refine ⟨(key, reduce (points.filter (·.inGroup f.name key)) (groups ++ rest)),
          (hEntries _ _).mpr ⟨List.ne_nil_of_mem hp, rfl⟩, ?_⟩
        rw [filter_liesAt_cons] at hValue
        exact List.mem_map.mpr
          ⟨(keys, value), (ih hRest).mpr ⟨.inr ⟨p, hp, hLies⟩, hValue⟩, rfl⟩

/-- No two leaves have the same keys. -/
theorem nodup_leaves_reduce {groups : List (FieldSpec N)}
    (discrete : ∀ f ∈ groups, f.arity = .discrete) (points : List (DataPoint N))
    (rest : List (FieldSpec N)) :
    (((reduce points (groups ++ rest)).leaves groups.length).map (·.1)).Nodup := by
  induction groups generalizing points with
  | nil => exact List.nodup_singleton _
  | cons f groups ih =>
    obtain ⟨t, hReduce, hSorted, hEntries⟩ :=
      mem_reduce_discrete (discrete f List.mem_cons_self) points (groups ++ rest)
    have hPaths : ∀ (key : String) (leaves : List (List String × ReducedValue N)),
        (leaves.map fun leaf => (key :: leaf.1, leaf.2)).map (·.1) =
          (leaves.map (·.1)).map (key :: ·) := by
      intro key leaves
      rw [List.map_map, List.map_map]
      rfl
    rw [List.cons_append, hReduce, List.length_cons, ReducedValue.leaves, List.map_flatMap,
      List.nodup_flatMap]
    constructor
    · rintro ⟨key, v⟩ hEntry
      obtain ⟨-, rfl⟩ := (hEntries _ _).mp hEntry
      have hBelow := ih (fun g hg => discrete g (List.mem_cons_of_mem _ hg))
        (points.filter (·.inGroup f.name key))
      rw [hPaths]
      exact hBelow.map List.cons_injective
    · -- the paths through two entries start with their keys, which differ
      refine hSorted.imp fun {e e'} hLess keys hKeys hKeys' => ?_
      obtain ⟨leaf, hLeaf, rfl⟩ := List.mem_map.mp hKeys
      obtain ⟨leaf', hLeaf', hSame⟩ := List.mem_map.mp hKeys'
      obtain ⟨below, -, rfl⟩ := List.mem_map.mp hLeaf
      obtain ⟨below', -, rfl⟩ := List.mem_map.mp hLeaf'
      obtain ⟨hKey, -⟩ := List.cons.inj hSame
      rw [hKey, Std.ReflOrd.compare_self] at hLess
      cases hLess

section Places

variable {groups : List (FieldSpec N)} (discrete : ∀ f ∈ groups, f.arity = .discrete)
  (points : List (DataPoint N)) (rest : List (FieldSpec N))

include discrete

/-- There is a leaf at a path exactly if some point lies there; without groups there is one in any
case. -/
theorem mem_keys_leaves_reduce {keys : List String} :
    keys ∈ ((reduce points (groups ++ rest)).leaves groups.length).map (·.1) ↔
      (groups = [] ∧ keys = []) ∨ ∃ p ∈ points, p.liesAt groups keys = true := by
  rw [List.mem_map]
  constructor
  · rintro ⟨leaf, hLeaf, rfl⟩
    exact ((mem_leaves_reduce discrete).mp hLeaf).1
  · intro hPlace
    exact ⟨(keys, reduce (points.filter (·.liesAt groups keys)) rest),
      (mem_leaves_reduce discrete).mpr ⟨hPlace, rfl⟩, rfl⟩

/-- Points that carry all of the grouping fields lie at one leaf each. -/
theorem leaves_reduce_perm
    (carried : ∀ p ∈ points, ∀ f ∈ groups, ∃ v, p.fields.find? f.name = some v) :
    (((reduce points (groups ++ rest)).leaves groups.length).flatMap fun leaf =>
      points.filter (·.liesAt groups leaf.1)).Perm points := by
  have hPlaces : (((reduce points (groups ++ rest)).leaves groups.length).flatMap fun leaf =>
      points.filter (·.liesAt groups leaf.1)) = (((reduce points (groups ++ rest)).leaves
        groups.length).map (·.1)).flatMap fun keys => points.filter (·.liesAt groups keys) := by
    rw [List.flatMap_map]
  rw [hPlaces]
  refine flatMap_filter_perm ?_ fun p hp => ?_
  · -- a point that lies at two leaves would give them the same keys
    refine (nodup_leaves_reduce discrete points rest).imp fun {keys keys'} hApart p hLies => ?_
    rw [Bool.eq_false_iff]
    exact fun hLies' => hApart (DataPoint.eq_of_liesAt hLies hLies')
  · obtain ⟨keys, hLies⟩ := DataPoint.exists_liesAt (carried p hp)
    exact ⟨keys, (mem_keys_leaves_reduce discrete points rest).mpr (.inr ⟨p, hp, hLies⟩), hLies⟩

end Places

/-- A point has a value for each of some fields, and a number for a numeric one. -/
def DataPoint.Carries (p : DataPoint N) (fields : List (FieldSpec N)) : Prop :=
  ∀ f ∈ fields, ∃ v, p.fields.find? f.name = some v ∧ (f.arity = .numeric → ∃ x, v = .number x)

omit [Arithmetic N] in
/-- A point that carries its fields has a number in each numeric one. -/
theorem DataPoint.Carries.number? {p : DataPoint N} {fields : List (FieldSpec N)}
    (carries : p.Carries fields) {f : FieldSpec N} (mem : f ∈ fields)
    (numeric : f.arity = .numeric) : ∃ x, p.number? f.name = some x := by
  obtain ⟨v, hv, hNumber⟩ := carries f mem
  obtain ⟨x, rfl⟩ := hNumber numeric
  exact ⟨x, by rw [DataPoint.number?, hv]; rfl⟩

end Leaves

/-! ## The partition -/

/-- A value is what some points amount to, along fields that group and a numeric one below them, if
there is one. -/
structure ReducedValue.Partitions (v : ReducedValue Float) (points : List (DataPoint Float))
    (groups : List (FieldSpec Float)) (numeric : Option (FieldSpec Float)) : Prop where
  /-- Where nothing groups, the value is the leaf. -/
  whole : groups = [] → v.leaves groups.length = [([], v)]
  distinct : ((v.leaves groups.length).map (·.1)).Nodup
  /-- There is a leaf wherever a point lies. -/
  places : ∀ keys, keys ∈ (v.leaves groups.length).map (·.1) ↔
    (groups = [] ∧ keys = []) ∨ ∃ p ∈ points, p.liesAt groups keys = true
  /-- A leaf is the sum of the points that lie there, -/
  sums : numeric = none → ∀ leaf ∈ v.leaves groups.length, leaf.2 =
    .scalar (((points.filter (·.liesAt groups leaf.1)).map (·.value)).foldl (· + ·) (-0.0))
  /-- or, if there is a numeric field, their distribution. -/
  spread : ∀ f b, numeric = some f → f.bucketizer = some b → ∀ leaf ∈ v.leaves groups.length,
    ∃ d, leaf.2 = .distribution d ∧ d.Spreads b f.name (points.filter (·.liesAt groups leaf.1)) ∧
      ∀ y ∈ d.buckets, y.weight = (((points.filter (·.liesAt groups leaf.1)).filter
        (·.fallsAt b f.name y.min)).map (·.value)).foldl (· + ·) 0.0
  /-- Points that carry all fields lie at one leaf each, and there fall into one bucket each. -/
  once : (∀ p ∈ points, p.Carries (groups ++ numeric.toList)) →
    ((v.leaves groups.length).flatMap fun leaf => points.filter (·.liesAt groups leaf.1)).Perm
      points ∧
    ∀ f b, numeric = some f → f.bucketizer = some b → ∀ leaf ∈ v.leaves groups.length, ∀ d,
      leaf.2 = .distribution d → (d.buckets.flatMap fun y =>
        (points.filter (·.liesAt groups leaf.1)).filter (·.fallsAt b f.name y.min)).Perm
          (points.filter (·.liesAt groups leaf.1))

section Partition

variable {groups : List (FieldSpec Float)} {numeric : Option (FieldSpec Float)}
  (discrete : ∀ f ∈ groups, f.arity = .discrete) (numerical : ∀ f ∈ numeric, f.arity = .numeric)
  (points : List (DataPoint Float))

include discrete numerical

/-- Below a numeric field a leaf is the distribution of the points that lie there. -/
theorem leaf_distribution {f : FieldSpec Float} {b : Bucketizer Float} (below : numeric = some f)
    (bucketizer : f.bucketizer = some b) {leaf : List String × ReducedValue Float}
    (mem : leaf ∈ (reduce points (groups ++ numeric.toList)).leaves groups.length) :
    leaf.2 = .distribution (.ofBuckets
      (bucketsOf b f.name (points.filter (·.liesAt groups leaf.1)))) := by
  subst below
  rw [((mem_leaves_reduce discrete).mp mem).2, Option.toList_some,
    reduce_numeric (numerical f rfl), bucketizer]

/-- **A reduction partitions the points.** -/
theorem partitions_reduce :
    (reduce points (groups ++ numeric.toList)).Partitions points groups numeric where
  whole hNil := by
    subst hNil
    rfl
  distinct := nodup_leaves_reduce discrete points _
  places _ := mem_keys_leaves_reduce discrete points _
  sums hNone leaf hLeaf := by
    subst hNone
    exact ((mem_leaves_reduce discrete).mp hLeaf).2
  spread f b hSome hBucketizer leaf hLeaf :=
    ⟨_, leaf_distribution discrete numerical points hSome hBucketizer hLeaf,
      Distribution.spreads_ofBuckets b f.name _,
      fun _ hBucket => Distribution.weight_ofBuckets b f.name _ hBucket⟩
  once hCarries := by
    refine ⟨leaves_reduce_perm discrete points _ fun p hp f hf => ?_, ?_⟩
    · obtain ⟨v, hv, -⟩ := hCarries p hp f (List.mem_append_left _ hf)
      exact ⟨v, hv⟩
    · intro f b hSome hBucketizer leaf hLeaf d hDistribution
      rw [leaf_distribution discrete numerical points hSome hBucketizer hLeaf] at hDistribution
      obtain rfl := ReducedValue.distribution.inj hDistribution
      have hField : f ∈ groups ++ numeric.toList := by simp [hSome]
      refine (Distribution.spreads_ofBuckets b f.name _).perm fun p hp => ?_
      exact (hCarries p (List.mem_filter.mp hp).1).number? hField (numerical f hSome)

end Partition

/-! ## The points of a compiled query -/

namespace Query

variable {N : Type} [Arithmetic N] {d : Descriptor N} {p : Predicate N} {D : List String}

/-- The points of a query have a value for each of its fields. -/
theorem exists_of_point {q : Query N} {current previous : List (Sample N)} {point : DataPoint N}
    (mem : point ∈ q.points current previous) {f : FieldSpec N} (needed : f ∈ q.needed) :
    ∃ v, point.fields.find? f.name = some v := by
  obtain ⟨s, -, hPoint⟩ := List.mem_flatMap.mp mem
  split at hPoint
  · obtain ⟨fields, hFields, hExtract⟩ := List.mem_filterMap.mp hPoint
    obtain ⟨x, -, rfl⟩ := Option.map_eq_some_iff.mp hExtract
    exact exists_of_mem_cartesian (List.mem_filter.mp hFields).1
      (List.mem_map_of_mem (f := fun f : FieldSpec N => (f.name, f.values _)) needed)
  · cases hPoint

omit [Arithmetic N] in
/-- A field of the query is in the decomposition and declared. -/
theorem field?_of_mem_orderedFields {f : FieldSpec N} (mem : f ∈ orderedFields d D) :
    f.name ∈ D ∧ d.field? f.name = some f := by
  obtain ⟨n, hn, hField⟩ := mem_orderedFields.mp mem
  obtain rfl := Descriptor.name_of_field? hField
  exact ⟨hn, hField⟩

/-- **The points of a compiled query carry its decomposition**, if a numeric field takes numbers. -/
theorem carries_of_point {q : Query N} (compiled : compile d p D = .ok q)
    {current previous : List (Sample N)}
    (numbers : ∀ f ∈ q.decomposition, f.arity = .numeric → ∀ v, Takes f current previous v →
      ∃ x, v = .number x) {point : DataPoint N} (mem : point ∈ q.points current previous) :
    point.Carries q.decomposition := by
  obtain ⟨-, rfl⟩ := compile_eq_ok.mp compiled
  intro f hf
  obtain ⟨hName, hField⟩ := field?_of_mem_orderedFields hf
  have hNeeded : f ∈ (made d p D).needed := by
    refine List.mem_filter.mpr ⟨Descriptor.mem_of_field? hField, ?_⟩
    simpa using mem_neededNames.mpr (.inl hName)
  obtain ⟨v, hv⟩ := exists_of_point mem hNeeded
  exact ⟨v, hv, fun hNumeric => numbers f hf hNumeric v (takes_of_point hField mem hv)⟩

/-- A compiled query groups first and has at most one numeric field, which has a bucketizer. -/
theorem decomposition_split {q : Query N} (compiled : compile d p D = .ok q) :
    ∃ (groups : List (FieldSpec N)) (numeric : Option (FieldSpec N)),
      q.decomposition = groups ++ numeric.toList ∧ (∀ f ∈ groups, f.arity = .discrete) ∧
        ∀ f ∈ numeric, f.arity = .numeric ∧ f.bucketizer.isSome = true := by
  obtain ⟨hFits, rfl⟩ := compile_eq_ok.mp compiled
  obtain ⟨groups, numeric, hFields, hGroups, hNumeric, -, hOne, -⟩ :=
    orderedFields_split hFits.known
  have hToList : numeric.head?.toList = numeric := by
    cases numeric with
    | nil => rfl
    | cons f rest =>
      have hLength : (f :: rest).length ≤ 1 := hOne.trans hFits.oneNumeric
      obtain rfl : rest = [] := List.length_eq_zero_iff.mp (by simpa using hLength)
      rfl
  refine ⟨groups, numeric.head?, by rw [hToList]; exact hFields, hGroups, fun f hf => ?_⟩
  have hMem : f ∈ numeric := List.mem_of_head? hf
  obtain ⟨hName, hField⟩ :=
    field?_of_mem_orderedFields (hFields ▸ List.mem_append_right groups hMem)
  obtain ⟨b, hb, -⟩ := hFits.bucketed f.name hName f hField (hNumeric f hMem)
  exact ⟨hNumeric f hMem, by rw [hb]; rfl⟩

end Query

/-- **Reduction partitions the points.** Along fields that group and at most one numeric field below
them, the breakdowns have a leaf exactly where a point lies. The leaf is the sum of the points that
lie there, or their distribution, in their order. Where all points carry all fields, each is used
once; and the points of a compiled query do, if its numeric field takes numbers. -/
theorem reduction_partitions :
    (∀ (groups : List (FieldSpec Float)) (numeric : Option (FieldSpec Float)),
      (∀ f ∈ groups, f.arity = .discrete) → (∀ f ∈ numeric, f.arity = .numeric) →
      ∀ points : List (DataPoint Float),
        (reduce points (groups ++ numeric.toList)).Partitions points groups numeric) ∧
    ∀ (d : Descriptor Float) (p : Predicate Float) (D : List String) (q : Query Float),
      Query.compile d p D = .ok q →
      ∃ (groups : List (FieldSpec Float)) (numeric : Option (FieldSpec Float)),
        q.decomposition = groups ++ numeric.toList ∧ (∀ f ∈ groups, f.arity = .discrete) ∧
          (∀ f ∈ numeric, f.arity = .numeric ∧ f.bucketizer.isSome = true) ∧
          ∀ current previous : List (Sample Float),
            (∀ f ∈ numeric, ∀ v, Query.Takes f current previous v → ∃ x, v = .number x) →
            ∀ point ∈ q.points current previous, point.Carries (groups ++ numeric.toList) := by
  refine ⟨fun groups numeric hGroups hNumeric points =>
    partitions_reduce hGroups hNumeric points, fun d p D q compiled => ?_⟩
  obtain ⟨groups, numeric, hFields, hGroups, hNumeric⟩ := Query.decomposition_split compiled
  refine ⟨groups, numeric, hFields, hGroups, hNumeric, ?_⟩
  intro current previous hNumbers point hPoint
  rw [← hFields]
  refine Query.carries_of_point compiled (fun f hf hArity => ?_) hPoint
  -- a numeric field of the decomposition is none of those that group
  rw [hFields, List.mem_append, Option.mem_toList] at hf
  rcases hf with hf | hf
  · rw [hGroups f hf] at hArity
    cases hArity
  · exact hNumbers f hf

/-- A query for operations by latency and kind groups by the kind first. Its four points, two of
each kind, lie at two leaves. -/
theorem reduction_partitions_brief :
    let kind : FieldSpec Float := .fixed "optype" "type" ["read", "write"]
    let latency : FieldSpec Float := .numeric "latency" "latency" (.linear 10.0) fun _ =>
      [.number 5.0, .number 15.0]
    let d := ((Descriptor.new "m" "s" "S" "u").field latency).field kind
    let q := Query.made d .trivial ["latency", "optype"]
    let sample : Sample Float := ⟨"disk:0", 0, [], []⟩
    let points := q.points [sample] [sample]
    let value := reduce points [kind, latency]
    Query.compile d .trivial ["latency", "optype"] = .ok q ∧ points.length = 4 ∧
      value.Partitions points [kind] (some latency) ∧
      (value.leaves 1).map (·.1) = [["read"], ["write"]] ∧
      (∀ p ∈ points, p.Carries [kind, latency]) ∧
      ((value.leaves 1).flatMap fun leaf =>
        points.filter (·.liesAt [kind] leaf.1)).Perm points := by
  intro kind latency d q sample points value
  have hCompiled : Query.compile d .trivial ["latency", "optype"] = .ok q :=
    Query.compile_of_fits (Query.fault?_eq_none_iff.mp (by decide +kernel))
  have hKind : ∀ f ∈ [kind], f.arity = .discrete := by
    intro f hf
    rw [List.mem_singleton.mp hf]
    rfl
  have hLatency : ∀ f ∈ some latency, f.arity = .numeric := by
    intro f hf
    rw [← Option.some.inj hf]
    rfl
  have hParts := reduction_partitions.1 [kind] (some latency) hKind hLatency points
  obtain ⟨groups, numeric, hFields, -, hBucketed, hPoints⟩ :=
    reduction_partitions.2 d .trivial ["latency", "optype"] q hCompiled
  have hBoth : [kind, latency] = groups ++ numeric.toList := hFields
  have hNumbers : ∀ f ∈ numeric, ∀ v, Query.Takes f [sample] [sample] v → ∃ x, v = .number x := by
    rintro f hf v ⟨s, -, before, -, hv⟩
    have hMem : f ∈ [kind, latency] := by
      rw [hBoth]
      exact List.mem_append_right _ (Option.mem_toList.mpr hf)
    rcases List.mem_cons.mp hMem with rfl | hMem
    · cases (hBucketed kind hf).1
    · obtain rfl := List.mem_singleton.mp hMem
      rcases List.mem_cons.mp hv with rfl | hv
      · exact ⟨5.0, rfl⟩
      · exact ⟨15.0, List.mem_singleton.mp hv⟩
  have hCarries : ∀ p ∈ points, p.Carries [kind, latency] := by
    rw [hBoth]
    exact hPoints [sample] [sample] hNumbers
  exact ⟨hCompiled, by decide +kernel, hParts, by decide +kernel, hCarries,
    (hParts.once hCarries).1⟩

end FleetMetrics
