import Mathlib
import FleetMetrics.Query
import FleetMetrics.Proofs.Exact
import FleetMetrics.Proofs.Table

/-!
# Reducing and merging

The points of a fleet can be reduced in one go, or host by host with the values merged. The two
ways do not even have the same recursion: a reduction groups points and goes down the
decomposition with each group, a merge goes through the entries of finished values. They agree
because both are the same thing under each key. `find?_groupByKey` and `find?_ofBuckets` say what
a reduction has under a key, `absorbGroups_spec` and `find?_merge` what a merge has, and tables
with the same look-ups are equal.

The order of the points does not matter either. For the weights that is exactness. For the upper
ends of buckets it is not: a bucket keeps the one that comes first, so here it is assumed that the
lower end determines it.

Main results:

* `Distribution.merge_ofBuckets`, `Distribution.ofBuckets_perm` — adding buckets in two parts, and
  in another order.
* `absorb_reduce` — merging two reductions is reducing the points of both, without a fault.
* `reduce_perm` — points may be reduced in any order.
-/

namespace FleetMetrics

variable {N : Type} [Arithmetic N]

/-! ## Distributions -/

namespace Bucket

/-- Two upper ends with weights under one lower end: the first upper end stays. -/
def pool (a b : N × N) : N × N :=
  (a.1, a.2 + b.2)

/-- What a bucket contributes to a lower end. -/
def at? (b : Bucket N) (k : Bound N) : Option (N × N) :=
  if compare k ⟨b.min⟩ = .eq then some (b.max, b.weight) else none

variable [Arithmetic.Exact N]

instance : Std.Associative (pool (N := N)) :=
  ⟨fun a b c => Prod.ext rfl (Arithmetic.Exact.add_assoc a.2 b.2 c.2)⟩

/-- A bucket lies at its lower bound. -/
theorem at?_eq_some {b : Bucket N} {k : Bound N} {x : N × N} :
    b.at? k = some x ↔ k.value = b.min ∧ x = (b.max, b.weight) := by
  unfold at?
  split
  · next h =>
    have hk : k = ⟨b.min⟩ := Std.LawfulEqOrd.eq_of_compare h
    simp [hk, eq_comm]
  · next h =>
    have hk : k.value ≠ b.min := by
      rintro hk
      exact h (by rw [← hk]; exact Std.ReflOrd.compare_self)
    simp [hk]

end Bucket

namespace Distribution

theorem ascending_add [Std.TransOrd (Bound N)] {d : Distribution N} (sorted : d.table.Ascending)
    (b : Bucket N) : (d.add b).table.Ascending :=
  Table.ascending_alter sorted _ _

theorem ascending_foldl_add [Std.TransOrd (Bound N)] {d : Distribution N}
    (sorted : d.table.Ascending) (bs : List (Bucket N)) : (bs.foldl add d).table.Ascending := by
  induction bs generalizing d with
  | nil => exact sorted
  | cons b rest ih => exact ih (ascending_add sorted b)

/-- A distribution is in order, whatever order its buckets come in. -/
theorem ascending_ofBuckets [Std.TransOrd (Bound N)] (bs : List (Bucket N)) :
    (ofBuckets bs).table.Ascending :=
  ascending_foldl_add Table.ascending_nil bs

/-- Under each lower end, the second distribution is added to what the first has there. -/
theorem find?_merge_eq [Std.TransOrd (Bound N)] {d e : Distribution N} (hd : d.table.Ascending)
    (he : e.table.Ascending) (k : Bound N) :
    (d.merge e).table.find? k =
      match e.table.find? k with
      | some new => some (Bucket.pool ((d.table.find? k).getD (new.1, Arithmetic.zero)) new)
      | none => d.table.find? k := by
  obtain ⟨t⟩ := e
  induction t generalizing d with
  | nil => rfl
  | cons entry rest ih =>
    obtain ⟨hHead, hRest⟩ := List.pairwise_cons.mp he
    have hStep : d.merge ⟨entry :: rest⟩ =
        (d.add ⟨entry.1.value, entry.2.1, entry.2.2⟩).merge ⟨rest⟩ := rfl
    rw [hStep, ih (ascending_add hd _) hRest, Table.find?_cons]
    by_cases hk : compare k entry.1 = .eq
    · -- the bucket of the first entry has its weight, and the others are above it
      have hNone : Table.find? rest k = none := by
        rw [Table.find?_congr hk]
        exact Table.find?_eq_none_of_lt hHead
      rw [hNone, if_pos hk, add, Table.find?_congr hk, Table.find?_congr hk,
        Table.find?_alter_self hd]
      rfl
    · rw [if_neg hk, add, Table.find?_alter_of_apart _ hk]

variable [Arithmetic.Exact N]

/-- Adding a bucket pools it with the one at its lower bound, if there is one, and leaves every
other. -/
theorem find?_add {d : Distribution N} (sorted : d.table.Ascending) (b : Bucket N) (k : Bound N) :
    (d.add b).table.find? k = (d.table.find? k).merge Bucket.pool (b.at? k) := by
  by_cases hk : k = ⟨b.min⟩
  · subst hk
    have hAt : b.at? ⟨b.min⟩ = some (b.max, b.weight) := Bucket.at?_eq_some.mpr ⟨rfl, rfl⟩
    rw [hAt, add, Table.find?_alter_self sorted]
    cases d.table.find? ⟨b.min⟩ with
    | none => simp [Arithmetic.Exact.zero_add]
    | some old => rfl
  · have hAt : b.at? k = none := by
      rw [Option.eq_none_iff_forall_ne_some]
      intro x hx
      exact hk (congrArg Bound.mk (Bucket.at?_eq_some.mp hx).1)
    rw [hAt, add, Table.find?_alter_of_ne _ _ hk, Option.merge_none_right]

/-- What lies at a bound in the end is what was there with every bucket at that bound pooled into
it, in their order. -/
theorem find?_foldl_add {d : Distribution N} (sorted : d.table.Ascending) (bs : List (Bucket N))
    (k : Bound N) :
    (bs.foldl add d).table.find? k =
      (bs.map (·.at? k)).foldl (Option.merge Bucket.pool) (d.table.find? k) := by
  induction bs generalizing d with
  | nil => rfl
  | cons b rest ih =>
    rw [List.foldl_cons, ih (ascending_add sorted b), find?_add sorted, List.map_cons,
      List.foldl_cons]

/-- Under each lower end there is what the buckets contribute to it, pooled in their order. -/
theorem find?_ofBuckets (bs : List (Bucket N)) (k : Bound N) :
    (ofBuckets bs).table.find? k = (bs.map (·.at? k)).foldl (Option.merge Bucket.pool) none :=
  find?_foldl_add Table.ascending_nil bs k

/-- With exact numbers, a merge has under each lower end the two weights added up. -/
theorem find?_merge {d e : Distribution N} (hd : d.table.Ascending) (he : e.table.Ascending)
    (k : Bound N) :
    (d.merge e).table.find? k = (d.table.find? k).merge Bucket.pool (e.table.find? k) := by
  rw [find?_merge_eq hd he]
  cases e.table.find? k with
  | none => rw [Option.merge_none_right]
  | some new =>
    cases d.table.find? k with
    | none => simp [Bucket.pool, Arithmetic.Exact.zero_add]
    | some old => rfl

/-- Two distributions in order are equal if the same lies at every bound. -/
theorem ext_table {d e : Distribution N} (hd : d.table.Ascending) (he : e.table.Ascending)
    (same : ∀ k, d.table.find? k = e.table.find? k) : d = e := by
  obtain ⟨s⟩ := d
  obtain ⟨t⟩ := e
  exact congrArg mk (Table.ext_find? hd he same)

/-- Buckets may be added in two parts that are merged. -/
theorem merge_ofBuckets (bs bs' : List (Bucket N)) :
    (ofBuckets bs).merge (ofBuckets bs') = ofBuckets (bs ++ bs') := by
  have h := ascending_ofBuckets bs
  have h' := ascending_ofBuckets bs'
  refine ext_table (ascending_foldl_add h _) (ascending_ofBuckets _) fun k => ?_
  have hWhole : (ofBuckets (bs ++ bs')).table.find? k =
      (bs'.map (·.at? k)).foldl (Option.merge Bucket.pool)
        (((ofBuckets bs).table.find? k).merge Bucket.pool none) := by
    rw [Option.merge_none_right, find?_ofBuckets, find?_ofBuckets, List.map_append,
      List.foldl_append]
  rw [hWhole, List.foldl_assoc, ← find?_ofBuckets, find?_merge h h']

/-- Buckets whose lower end determines the upper end may be added in any order. -/
theorem ofBuckets_perm {bs bs' : List (Bucket N)} (perm : bs.Perm bs')
    (determined : ∀ b ∈ bs, ∀ b' ∈ bs, b.min = b'.min → b.max = b'.max) :
    ofBuckets bs = ofBuckets bs' := by
  refine ext_table (ascending_ofBuckets _) (ascending_ofBuckets _) fun k => ?_
  rw [find?_ofBuckets, find?_ofBuckets, List.foldl_map, List.foldl_map]
  refine perm.foldl_eq' (fun b hb b' hb' before => ?_) none
  -- only two buckets of one lower end meet, and the first upper end of them stays
  cases hAt : b.at? k with
  | none => rw [Option.merge_none_right, Option.merge_none_right]
  | some x =>
    cases hAt' : b'.at? k with
    | none => rw [Option.merge_none_right, Option.merge_none_right]
    | some x' =>
      obtain ⟨hMin, rfl⟩ := Bucket.at?_eq_some.mp hAt
      obtain ⟨hMin', rfl⟩ := Bucket.at?_eq_some.mp hAt'
      have hMax := determined b hb b' hb' (hMin.symm.trans hMin')
      cases before with
      | none => simp [Bucket.pool, hMax, Arithmetic.Exact.add_comm b.weight]
      | some old => simp [Bucket.pool, Arithmetic.add_right_comm old.2 b.weight]

end Distribution

/-! ## Groups -/

/-- A list, unless it is empty. -/
def nonempty? {α : Type} : List α → Option (List α)
  | [] => none
  | x :: xs => some (x :: xs)

/-- Two lists put together are empty if both are. -/
theorem nonempty?_append {α : Type} (xs ys : List α) :
    nonempty? (xs ++ ys) = (nonempty? xs).merge (· ++ ·) (nonempty? ys) := by
  cases xs with
  | nil => rw [List.nil_append, nonempty?, Option.merge_none_left]
  | cons x xs => cases ys <;> simp [nonempty?]

theorem nonempty?_eq_some {α : Type} {xs ys : List α} :
    nonempty? xs = some ys ↔ xs = ys ∧ ys ≠ [] := by
  cases xs with
  | nil =>
    refine iff_of_false nofun ?_
    rintro ⟨rfl, hNe⟩
    exact hNe rfl
  | cons x xs =>
    rw [nonempty?, Option.some.injEq]
    refine ⟨?_, And.left⟩
    rintro rfl
    exact ⟨rfl, List.cons_ne_nil _ _⟩

theorem mem_of_nonempty? {α : Type} {xs ys : List α} (some_eq : nonempty? xs = some ys) {x : α}
    (mem : x ∈ ys) : x ∈ xs :=
  (nonempty?_eq_some.mp some_eq).1 ▸ mem

/-- Is a point in the group of a key by one of its fields? -/
def DataPoint.inGroup (field key : String) (p : DataPoint N) : Bool :=
  (p.fields.find? field).map FieldValue.key = some key

/-- One more point joins the group of its key, or no group if it lacks the field. -/
theorem groupByKey_concat (field : String) (points : List (DataPoint N)) (p : DataPoint N) :
    (∃ v, p.fields.find? field = some v ∧ groupByKey field (points ++ [p]) =
      (groupByKey field points).alter v.key fun old => old.getD [] ++ [p]) ∨
    (p.fields.find? field = none ∧ groupByKey field (points ++ [p]) = groupByKey field points) := by
  cases hField : p.fields.find? field with
  | none => exact .inr ⟨rfl, by simp [groupByKey, hField]⟩
  | some v => exact .inl ⟨v, rfl, by simp [groupByKey, hField]⟩

/-- Under each key there are the points of its group, in their order. -/
theorem groupByKey_spec (field : String) (points : List (DataPoint N)) :
    (groupByKey field points).Ascending ∧ ∀ key, (groupByKey field points).find? key =
      nonempty? (points.filter (·.inGroup field key)) := by
  induction points using List.reverseRecOn with
  | nil => exact ⟨Table.ascending_nil, fun key => rfl⟩
  | append_singleton points p ih =>
    obtain ⟨hSorted, hFind⟩ := ih
    rcases groupByKey_concat field points p with ⟨v, hField, hGroups⟩ | ⟨hField, hGroups⟩
    · rw [hGroups]
      refine ⟨Table.ascending_alter hSorted _ _, fun key => ?_⟩
      rw [Table.find?_alter_eq hSorted, hFind, hFind, List.filter_append, nonempty?_append]
      by_cases hKey : key = v.key
      · subst hKey
        have hIn : [p].filter (·.inGroup field v.key) = [p] := by
          simp [DataPoint.inGroup, hField]
        rw [if_pos rfl, hIn]
        cases nonempty? (points.filter (·.inGroup field v.key)) <;> rfl
      · have hOut : [p].filter (·.inGroup field key) = [] := by
          simp [DataPoint.inGroup, hField, Ne.symm hKey]
        rw [if_neg hKey, hOut, nonempty?, Option.merge_none_right]
    · -- a point without the field joins no group
      have hOut : ∀ key, [p].filter (·.inGroup field key) = [] := by
        simp [DataPoint.inGroup, hField]
      rw [hGroups]
      refine ⟨hSorted, fun key => ?_⟩
      rw [hFind, List.filter_append, hOut, List.append_nil]

/-! ## Merging breakdowns -/

namespace ReducedValue

/-- Breakdowns whose common entries fit merge without a fault, entry by entry. -/
theorem absorbGroups_spec {groups entries : Table String (ReducedValue N)}
    (sorted : groups.Ascending) (sorted' : entries.Ascending)
    (fit : ∀ key x y, groups.find? key = some x → entries.find? key = some y →
      (x.absorb y).2 = none) :
    ∃ merged, absorbGroups groups entries = (merged, none) ∧ merged.Ascending ∧
      ∀ key, merged.find? key =
        (groups.find? key).merge (fun x y => (x.absorb y).1) (entries.find? key) := by
  induction entries generalizing groups with
  | nil => exact ⟨groups, by rw [absorbGroups], sorted, fun key => by simp⟩
  | cons entry rest ih =>
    obtain ⟨key, value⟩ := entry
    obtain ⟨hHead, hRest⟩ := List.pairwise_cons.mp sorted'
    have hOnce : Table.find? rest key = none := Table.find?_eq_none_of_lt hHead
    have hOther : ∀ key', key' ≠ key →
        Table.find? ((key, value) :: rest) key' = Table.find? rest key' := by
      intro key' hne
      rw [Table.find?_cons, if_neg fun h => hne (Std.LawfulEqOrd.eq_of_compare h)]
    have hSelf : Table.find? ((key, value) :: rest) key = some value := by
      rw [Table.find?_cons, if_pos Std.ReflOrd.compare_self]
    -- whatever is stored under the key now, the rest of the entries does not meet it again
    have hGoOn : ∀ stored, (groups.find? key).merge (fun x y => (x.absorb y).1) (some value) =
        some stored → absorbGroups groups ((key, value) :: rest) =
          absorbGroups (groups.insert key stored) rest →
        ∃ merged, absorbGroups groups ((key, value) :: rest) = (merged, none) ∧
          merged.Ascending ∧ ∀ key', merged.find? key' = (groups.find? key').merge
            (fun x y => (x.absorb y).1) (Table.find? ((key, value) :: rest) key') := by
      intro stored hStored hStep
      have hInsert := Table.ascending_insert sorted key stored
      obtain ⟨merged, hMerged, hAscending, hFind⟩ := ih hInsert hRest fun key' x y hx hy => by
        have hne : key' ≠ key := by
          rintro rfl
          rw [hOnce] at hy
          cases hy
        rw [Table.find?_insert sorted, if_neg hne] at hx
        exact fit key' x y hx ((hOther key' hne).trans hy)
      refine ⟨merged, hStep.trans hMerged, hAscending, fun key' => ?_⟩
      rw [hFind, Table.find?_insert sorted]
      by_cases hKey : key' = key
      · subst hKey
        rw [if_pos rfl, hOnce, hSelf, hStored, Option.merge_none_right]
      · rw [if_neg hKey, hOther key' hKey]
    cases hKnown : groups.find? key with
    | none =>
      refine hGoOn value (by rw [hKnown, Option.merge_none_left]) ?_
      rw [absorbGroups, hKnown]
    | some known =>
      have hFits := fit key known value hKnown hSelf
      refine hGoOn (known.absorb value).1 (by rw [hKnown]; rfl) ?_
      rw [absorbGroups, hKnown]
      simp only
      split
      · next h => rw [h]
      · next h => rw [h] at hFits; cases hFits

end ReducedValue

/-! ## Reductions -/

/-- What a reduction reads of a field. -/
def FieldSpec.rule (f : FieldSpec N) : String × FieldArity × Option (Bucketizer N) :=
  (f.name, f.arity, f.bucketizer)

/-- A bucketizer whose buckets have one upper end for each lower end. -/
def Bucketizer.Determined (b : Bucketizer N) : Prop :=
  ∀ v w, (b.bounds v).1 = (b.bounds w).1 → (b.bounds v).2 = (b.bounds w).2

/-- With equal steps the lower bound of a bucket says which one it is. -/
theorem Bucketizer.determined_linear (step : N) : (Bucketizer.linear step).Determined :=
  fun _ _ same => congrArg (· + step) same

/-- Where a reduction groups, it has under each key the reduction of the group, if there is one. -/
theorem reduce_discrete {f : FieldSpec N} (groups : f.arity = .discrete)
    (points : List (DataPoint N)) (rest : List (FieldSpec N)) :
    ∃ t : Table String (ReducedValue N), reduce points (f :: rest) = .discrete t ∧ t.Ascending ∧
      ∀ key, t.find? key =
        (nonempty? (points.filter (·.inGroup f.name key))).map (reduce · rest) := by
  obtain ⟨hSorted, hFind⟩ := groupByKey_spec f.name points
  refine ⟨(groupByKey f.name points).mapValues fun _ group => reduce group rest, ?_, ?_, ?_⟩
  · rw [reduce, groups]
    rfl
  · exact Table.ascending_mapValues hSorted _
  · intro key
    rw [Table.find?_mapValues, hFind]

/-- Where it puts points into buckets, it has the distribution of these. -/
theorem reduce_numeric {f : FieldSpec N} (numeric : f.arity = .numeric)
    (points : List (DataPoint N)) (rest : List (FieldSpec N)) :
    reduce points (f :: rest) = .distribution (.ofBuckets
      (match f.bucketizer with
      | some b => bucketsOf b f.name points
      | none => [])) := by
  rw [reduce, numeric]
  cases f.bucketizer <;> rfl

/-- The buckets of points are collected point by point. -/
theorem bucketsOf_append (b : Bucketizer N) (field : String) (points points' : List (DataPoint N)) :
    bucketsOf b field (points ++ points') = bucketsOf b field points ++ bucketsOf b field points' :=
  List.filterMap_append

/-- If lower bounds determine buckets, two with the same lower bound end at the same place, so it
does not matter whose upper bound is kept. -/
theorem max_of_mem_bucketsOf {b : Bucketizer N} (determined : b.Determined) {field : String}
    {points : List (DataPoint N)} {x y : Bucket N} (hx : x ∈ bucketsOf b field points)
    (hy : y ∈ bucketsOf b field points) (same : x.min = y.min) : x.max = y.max := by
  obtain ⟨p, -, hp⟩ := List.mem_filterMap.mp hx
  obtain ⟨q, -, hq⟩ := List.mem_filterMap.mp hy
  obtain ⟨v, -, rfl⟩ := Option.map_eq_some_iff.mp hp
  obtain ⟨w, -, rfl⟩ := Option.map_eq_some_iff.mp hq
  exact determined v w same

/-- A reduction reads nothing else of its fields. -/
theorem reduce_congr {fields fields' : List (FieldSpec N)}
    (alike : fields.map FieldSpec.rule = fields'.map FieldSpec.rule) (points : List (DataPoint N)) :
    reduce points fields = reduce points fields' := by
  induction fields generalizing fields' points with
  | nil =>
    obtain rfl : fields' = [] := List.map_eq_nil_iff.mp alike.symm
    rfl
  | cons f rest ih =>
    cases fields' with
    | nil => cases alike
    | cons f' rest' =>
      obtain ⟨hRule, hRest⟩ := List.cons.inj alike
      obtain ⟨hName, hArity, hBucketizer⟩ : f.name = f'.name ∧ f.arity = f'.arity ∧
          f.bucketizer = f'.bucketizer := by simpa [FieldSpec.rule] using hRule
      rw [reduce, reduce, hName, hArity, hBucketizer]
      simp only [ih hRest]

section Exact

variable [Arithmetic.Exact N]

/-- Without any points there is the zero of the shape that the fields give. -/
theorem reduce_nil (fields : List (FieldSpec N)) : reduce [] fields = ReducedValue.zero fields := by
  cases fields with
  | nil =>
    rw [reduce, ReducedValue.zero, List.map_nil, Arithmetic.sum_nil]
  | cons f rest =>
    cases hArity : f.arity with
    | discrete =>
      rw [reduce, ReducedValue.zero, hArity]
      rfl
    | numeric =>
      rw [reduce_numeric hArity, ReducedValue.zero, hArity]
      cases f.bucketizer <;> rfl

/-- **Merging reductions is reducing the points of both**, and there is no fault. -/
theorem absorb_reduce (points points' : List (DataPoint N)) (fields : List (FieldSpec N)) :
    (reduce points fields).absorb (reduce points' fields) =
      (reduce (points ++ points') fields, none) := by
  induction fields generalizing points points' with
  | nil =>
    rw [reduce, reduce, reduce, ReducedValue.absorb, List.map_append, Arithmetic.sum_append]
  | cons f rest ih =>
    cases hArity : f.arity with
    | discrete =>
      obtain ⟨t, hReduce, hSorted, hFind⟩ := reduce_discrete hArity points rest
      obtain ⟨t', hReduce', hSorted', hFind'⟩ := reduce_discrete hArity points' rest
      obtain ⟨u, hWhole, hWholeSorted, hWholeFind⟩ :=
        reduce_discrete hArity (points ++ points') rest
      obtain ⟨merged, hMerged, hMergedSorted, hMergedFind⟩ :=
        ReducedValue.absorbGroups_spec hSorted hSorted' fun key x y hx hy => by
          rw [hFind] at hx
          rw [hFind'] at hy
          obtain ⟨group, -, rfl⟩ := Option.map_eq_some_iff.mp hx
          obtain ⟨group', -, rfl⟩ := Option.map_eq_some_iff.mp hy
          rw [ih]
      -- under each key there is the merge of two groups, one of them, or nothing
      have hSame : merged = u := by
        refine Table.ext_find? hMergedSorted hWholeSorted fun key => ?_
        rw [hMergedFind, hWholeFind, hFind, hFind', List.filter_append, nonempty?_append]
        cases nonempty? (points.filter (·.inGroup f.name key)) with
        | none => simp
        | some group =>
          cases nonempty? (points'.filter (·.inGroup f.name key)) with
          | none => simp
          | some group' => simp [ih]
      rw [hReduce, hReduce', hWhole, ReducedValue.absorb, hMerged, hSame]
    | numeric =>
      rw [reduce_numeric hArity, reduce_numeric hArity, reduce_numeric hArity,
        ReducedValue.absorb, Distribution.merge_ofBuckets]
      cases f.bucketizer with
      | none => rfl
      | some b => simp only [bucketsOf_append]

/-- **Points may be reduced in any order.** -/
theorem reduce_perm {points points' : List (DataPoint N)} (perm : points.Perm points')
    {fields : List (FieldSpec N)}
    (determined : ∀ f ∈ fields, ∀ b, f.bucketizer = some b → b.Determined) :
    reduce points fields = reduce points' fields := by
  induction fields generalizing points points' with
  | nil => rw [reduce, reduce, Arithmetic.sum_perm (perm.map _)]
  | cons f rest ih =>
    have hRest := fun f hf => determined f (List.mem_cons_of_mem _ hf)
    cases hArity : f.arity with
    | discrete =>
      obtain ⟨t, hReduce, hSorted, hFind⟩ := reduce_discrete hArity points rest
      obtain ⟨t', hReduce', hSorted', hFind'⟩ := reduce_discrete hArity points' rest
      have hSame : t = t' := by
        refine Table.ext_find? hSorted hSorted' fun key => ?_
        -- the two groups of a key have the same points, so both are empty or neither is
        have hGroup := perm.filter (·.inGroup f.name key)
        rw [hFind, hFind']
        generalize points.filter (·.inGroup f.name key) = group at hGroup
        generalize points'.filter (·.inGroup f.name key) = group' at hGroup
        cases group with
        | nil => rw [List.nil_perm.mp hGroup]
        | cons p ps =>
          cases group' with
          | nil => exact absurd (List.perm_nil.mp hGroup) (by simp)
          | cons p' ps' => exact congrArg some (ih hGroup hRest)
      rw [hReduce, hReduce', hSame]
    | numeric =>
      rw [reduce_numeric hArity, reduce_numeric hArity]
      cases hBucketizer : f.bucketizer with
      | none => rfl
      | some b =>
        have hDetermined := determined f List.mem_cons_self b hBucketizer
        have hBuckets : (bucketsOf b f.name points).Perm (bucketsOf b f.name points') :=
          perm.filterMap _
        have hSame := Distribution.ofBuckets_perm hBuckets fun x hx y hy =>
          max_of_mem_bucketsOf hDetermined hx hy
        exact congrArg ReducedValue.distribution hSame

/-! ## Queries -/

/-- What a query yields for a host, read exactly: the reduction of its points, none or not. -/
theorem Query.summarize_eq (q : Query N) (points : List (DataPoint N)) :
    q.summarize points = reduce points q.decomposition := by
  unfold summarize
  split
  · next hEmpty =>
    rw [List.isEmpty_iff.mp hEmpty, reduce_nil]
    rfl
  · rfl

end Exact

/-- A snapshot is summarized by its points against the one before it, and without one it has no
points. -/
theorem Query.evaluate_eq (q : Query N) (current : List (Sample N))
    (previous : Option (List (Sample N))) :
    q.evaluate current previous =
      q.summarize ((previous.map (q.points current)).getD []) := by
  cases previous <;> rfl

end FleetMetrics
