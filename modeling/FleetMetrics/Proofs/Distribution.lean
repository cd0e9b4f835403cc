import Mathlib
import FleetMetrics.Proofs.Reduction
import FleetMetrics.Proofs.Table

/-!
# Distributions of points

A distribution is built bucket by bucket, and a bucket that is there already takes the weight of the
next one without its bounds. Where it starts and ends is therefore decided by whichever point came
first, and its weight is rounded point after point. Both can be read off the points: those that
fall into one bucket, in their order, give it its bounds and its weight.

Binary64 numbers are no help here. Two lower ends can be kept at one place and still be different
numbers, as the two zeros are, so the entry that is looked up under a lower end need not have that
lower end. The entries are counted out by place instead. Nothing is asked of addition.

Main results:

* `Distribution.mem_ofBuckets` — the entries of a distribution, from the buckets that were added.
* `Distribution.spreads_ofBuckets`, `Distribution.weight_ofBuckets` — its buckets and their weights,
  from the points.
* `Distribution.Spreads.perm` — points with numbers fall into one bucket each.
-/

namespace FleetMetrics

/-! ## Parts of a list -/

/-- A list is put together from the parts that some indices select of it, if one index alone selects
each element. -/
theorem flatMap_filter_perm {α ι : Type} {q : ι → α → Bool} {is : List ι}
    (apart : is.Pairwise fun i j => ∀ x, q i x = true → q j x = false) {xs : List α}
    (total : ∀ x ∈ xs, ∃ i ∈ is, q i x = true) : (is.flatMap fun i => xs.filter (q i)).Perm xs := by
  induction is generalizing xs with
  | nil =>
    obtain rfl : xs = [] := by
      refine List.eq_nil_iff_forall_not_mem.mpr fun x hx => ?_
      obtain ⟨i, hi, -⟩ := total x hx
      cases hi
    exact .rfl
  | cons i rest ih =>
    obtain ⟨hHead, hRest⟩ := List.pairwise_cons.mp apart
    -- the other indices select of what the first one leaves
    have hOthers : (rest.flatMap fun j => xs.filter (q j)) =
        rest.flatMap fun j => (xs.filter fun x => !q i x).filter (q j) := by
      refine List.flatMap_congr fun j hj => ?_
      rw [List.filter_filter]
      refine List.filter_congr fun x _ => ?_
      cases hx : q i x with
      | true => rw [hHead j hj x hx, Bool.false_and]
      | false => rw [Bool.not_false, Bool.and_true]
    have hLeft : ∀ x ∈ xs.filter (fun x => !q i x), ∃ j ∈ rest, q j x = true := by
      intro x hx
      obtain ⟨hMem, hNot⟩ := List.mem_filter.mp hx
      obtain ⟨j, hj, hSelects⟩ := total x hMem
      rcases List.mem_cons.mp hj with rfl | hj
      · simp [hSelects] at hNot
      · exact ⟨j, hj, hSelects⟩
    rw [List.flatMap_cons, hOthers]
    exact ((ih hRest hLeft).append_left _).trans (List.filter_append_perm (q i) xs)

variable {N : Type} [Arithmetic N]

/-! ## Buckets -/

/-- Does a bucket have a lower end, or one that is kept at the same place? -/
def Bucket.isAt (b : Bucket N) (k : Bound N) : Bool :=
  compare (Bound.mk b.min) k = .eq

namespace Distribution

variable [Std.TransOrd (Bound N)]

/-- Bounds that compare equal have the same buckets. -/
theorem filter_isAt_congr {k k' : Bound N} (same : compare k k' = .eq) (bs : List (Bucket N)) :
    bs.filter (·.isAt k) = bs.filter (·.isAt k') := by
  refine List.filter_congr fun b _ => ?_
  rw [Bucket.isAt, Bucket.isAt, Std.TransCmp.congr_right same]

omit [Std.TransOrd (Bound N)] in
/-- The first of the buckets at a place is there. -/
theorem compare_of_filter_isAt {bs : List (Bucket N)} {k : Bound N} {first : Bucket N}
    {rest : List (Bucket N)} (place : bs.filter (·.isAt k) = first :: rest) :
    compare (Bound.mk first.min) k = .eq := by
  have hMem : first ∈ bs.filter (·.isAt k) := place ▸ List.mem_cons_self
  simpa [Bucket.isAt] using (List.mem_filter.mp hMem).2

omit [Std.TransOrd (Bound N)] in
/-- One more bucket adds its weight at its lower bound, and keeps the upper bound that was there
first. -/
theorem table_ofBuckets_concat (bs : List (Bucket N)) (b : Bucket N) :
    (ofBuckets (bs ++ [b])).table = (ofBuckets bs).table.alter ⟨b.min⟩ fun old =>
      ((old.getD (b.max, Arithmetic.zero)).1,
        (old.getD (b.max, Arithmetic.zero)).2 + b.weight) := by
  rw [ofBuckets, List.foldl_append]
  rfl

/-- **The entries of a distribution.** Under each lower end that was added there is one entry. It
has the bounds of the first of the buckets added there, and their weights, added from nothing in
their order. -/
theorem mem_ofBuckets {bs : List (Bucket N)} {e : Bound N × N × N} :
    e ∈ (ofBuckets bs).table ↔ ∃ first rest, bs.filter (·.isAt e.1) = first :: rest ∧
      e = (⟨first.min⟩, first.max,
        ((first :: rest).map (·.weight)).foldl (· + ·) Arithmetic.zero) := by
  -- the bucket added last changes the entry at its own place, and no other
  induction bs using List.reverseRecOn generalizing e with
  | nil => simp [ofBuckets, empty]
  | append_singleton bs b ih =>
    rw [table_ofBuckets_concat, Table.mem_alter_iff (ascending_ofBuckets bs), List.filter_append]
    by_cases hAt : compare (Bound.mk b.min) e.1 = .eq
    · have hLast : [b].filter (·.isAt e.1) = [b] := by simp [Bucket.isAt, hAt]
      rw [hLast]
      cases hBefore : bs.filter (·.isAt e.1) with
      | nil =>
        -- the bucket is the first at its place
        have hNone : ∀ e' ∈ (ofBuckets bs).table, compare (Bound.mk b.min) e'.1 ≠ .eq := by
          intro e' he' hSame
          obtain ⟨first, rest, hFilter, -⟩ := ih.mp he'
          have hPlace : compare e'.1 e.1 = .eq := (Std.TransCmp.congr_left hSame).symm.trans hAt
          rw [filter_isAt_congr hPlace, hBefore] at hFilter
          cases hFilter
        constructor
        · rintro (⟨-, hNe⟩ | ⟨-, v, hv, -⟩ | ⟨-, rfl⟩)
          · exact absurd hAt hNe
          · exact absurd hAt (hNone (e.1, v) hv)
          · exact ⟨b, [], rfl, rfl⟩
        · rintro ⟨first, rest, hFilter, rfl⟩
          obtain ⟨rfl, rfl⟩ := List.cons.inj hFilter
          exact .inr (.inr ⟨hNone, rfl⟩)
      | cons first rest =>
        have hFirst := compare_of_filter_isAt hBefore
        have hEntry : (Bound.mk first.min, first.max, ((first :: rest).map (·.weight)).foldl (· + ·)
            Arithmetic.zero) ∈ (ofBuckets bs).table :=
          ih.mpr ⟨first, rest, (filter_isAt_congr hFirst bs).trans hBefore, rfl⟩
        have hWeight : ((first :: (rest ++ [b])).map (·.weight)).foldl (· + ·) Arithmetic.zero =
            ((first :: rest).map (·.weight)).foldl (· + ·) Arithmetic.zero + b.weight := by
          rw [← List.cons_append, List.map_append, List.foldl_append]
          rfl
        -- the entry that is there takes the weight
        constructor
        · rintro (⟨-, hNe⟩ | ⟨-, v, hv, hValue⟩ | ⟨hNone, -⟩)
          · exact absurd hAt hNe
          · obtain ⟨first', rest', hFilter, hSame⟩ := ih.mp hv
            rw [hBefore] at hFilter
            obtain ⟨rfl, rfl⟩ := List.cons.inj hFilter
            obtain ⟨hKey, rfl⟩ := Prod.mk.inj hSame
            refine ⟨first, rest ++ [b], rfl, Prod.ext hKey (hValue.trans ?_)⟩
            exact congrArg (Prod.mk first.max) hWeight.symm
          · exact absurd ((Std.TransCmp.congr_right hFirst).trans hAt) (hNone _ hEntry)
        · rintro ⟨first', rest', hFilter, rfl⟩
          obtain ⟨rfl, rfl⟩ := List.cons.inj hFilter
          exact .inr (.inl ⟨hAt, _, hEntry, congrArg (Prod.mk first.max) hWeight⟩)
    · have hLast : [b].filter (·.isAt e.1) = [] := by simp [Bucket.isAt, hAt]
      rw [hLast, List.append_nil, ← ih]
      constructor
      · rintro (⟨he, -⟩ | ⟨hSame, -⟩ | ⟨-, rfl⟩)
        · exact he
        · exact absurd hSame hAt
        · exact absurd Std.ReflOrd.compare_self hAt
      · exact fun he => .inl ⟨he, hAt⟩

/-- Every bucket that is added has an entry at its place. -/
theorem exists_of_mem {bs : List (Bucket N)} {b : Bucket N} (mem : b ∈ bs) :
    ∃ e ∈ (ofBuckets bs).table, b.isAt e.1 = true := by
  cases hPlace : bs.filter (·.isAt ⟨b.min⟩) with
  | nil =>
    have hSelf : b.isAt ⟨b.min⟩ = true := by simp [Bucket.isAt, Std.ReflOrd.compare_self]
    exact absurd hSelf (List.filter_eq_nil_iff.mp hPlace b mem)
  | cons first rest =>
    -- the entry has the lower end of the first bucket that was added there
    have hFirst := compare_of_filter_isAt hPlace
    have hFirstPlace := (filter_isAt_congr hFirst bs).trans hPlace
    refine ⟨_, mem_ofBuckets.mpr ⟨first, rest, hFirstPlace, rfl⟩, ?_⟩
    simpa [Bucket.isAt] using Std.OrientedCmp.eq_symm hFirst

end Distribution

/-! ## The buckets of points -/

namespace DataPoint

/-- The number that a point has in a field, if there is one. -/
def number? (field : String) (p : DataPoint N) : Option N :=
  (p.fields.find? field).bind FieldValue.number?

/-- Does a point fall into the bucket with a lower end, by one of its fields? -/
def fallsAt (b : Bucketizer N) (field : String) (min : N) (p : DataPoint N) : Bool :=
  (p.number? field).any fun v => Arithmetic.order (b.bounds v).1 min = .eq

/-- Only a point with a number falls into a bucket. -/
theorem number?_of_fallsAt {b : Bucketizer N} {field : String} {min : N} {p : DataPoint N}
    (falls : p.fallsAt b field min = true) : ∃ v, p.number? field = some v := by
  cases hNumber : p.number? field with
  | none => simp [fallsAt, hNumber] at falls
  | some v => exact ⟨v, rfl⟩

end DataPoint

section Buckets

variable {b : Bucketizer N} {field : String}

theorem bucketsOf_eq (points : List (DataPoint N)) :
    bucketsOf b field points =
      points.filterMap fun p => (p.number? field).map fun v => b.bucket v p.value := rfl

/-- The first point comes first among the buckets. -/
theorem bucketsOf_cons {p : DataPoint N} {v : N} (number : p.number? field = some v)
    (points : List (DataPoint N)) :
    bucketsOf b field (p :: points) = b.bucket v p.value :: bucketsOf b field points := by
  rw [bucketsOf_eq, List.filterMap_cons, number]
  rfl

/-- The buckets at a place come of the points that fall there. -/
theorem filter_bucketsOf (points : List (DataPoint N)) (min : N) :
    (bucketsOf b field points).filter (·.isAt ⟨min⟩) =
      bucketsOf b field (points.filter (·.fallsAt b field min)) := by
  rw [bucketsOf_eq, bucketsOf_eq, List.filter_filterMap, List.filterMap_filter]
  refine List.filterMap_congr fun p _ => ?_
  cases hNumber : p.number? field with
  | none => simp [DataPoint.fallsAt, hNumber]
  | some v =>
    -- a bucket is at the place exactly if its point falls there
    have hPlace : (b.bucket v p.value).isAt ⟨min⟩ = p.fallsAt b field min := by
      rw [DataPoint.fallsAt, hNumber]
      rfl
    rw [Option.map_some, Option.filter_some, hPlace]

/-- If all points have numbers, the weights of the buckets are the values of the points. -/
theorem weights_bucketsOf {points : List (DataPoint N)}
    (numbers : ∀ p ∈ points, ∃ v, p.number? field = some v) :
    (bucketsOf b field points).map (·.weight) = points.map (·.value) := by
  induction points with
  | nil => rfl
  | cons p rest ih =>
    obtain ⟨v, hv⟩ := numbers p List.mem_cons_self
    rw [bucketsOf_cons hv, List.map_cons, List.map_cons,
      ih fun q hq => numbers q (List.mem_cons_of_mem _ hq)]
    rfl

end Buckets

/-- The buckets of a distribution are those that some points fall into by one of their fields. They
are apart, each has the bounds of the first of the points that fall into it, and there is one for
every point that has a number in the field. -/
structure Distribution.Spreads (d : Distribution N) (b : Bucketizer N) (field : String)
    (points : List (DataPoint N)) : Prop where
  apart : d.buckets.Pairwise fun x y => Arithmetic.order x.min y.min = .lt
  bounds : ∀ y ∈ d.buckets, ∃ first rest v,
    points.filter (·.fallsAt b field y.min) = first :: rest ∧ first.number? field = some v ∧
      (y.min, y.max) = b.bounds v
  covers : ∀ p ∈ points, ∀ v, p.number? field = some v →
    ∃ y ∈ d.buckets, p.fallsAt b field y.min = true

section Spreads

variable [Std.TransOrd (Bound N)] (b : Bucketizer N) (field : String) (points : List (DataPoint N))

/-- **The distribution of points.** Its buckets are those that the points fall into. -/
theorem Distribution.spreads_ofBuckets :
    (ofBuckets (bucketsOf b field points)).Spreads b field points where
  apart := by
    have hSorted := ascending_ofBuckets (bucketsOf b field points)
    exact List.pairwise_map.mpr hSorted
  bounds y hy := by
    obtain ⟨e, hMem, rfl⟩ := List.mem_map.mp hy
    obtain ⟨first, rest, hFilter, rfl⟩ := mem_ofBuckets.mp hMem
    -- the first of the buckets at a bound is that of the first point that falls there
    rw [filter_bucketsOf] at hFilter
    cases hPoints : points.filter (·.fallsAt b field first.min) with
    | nil =>
      rw [hPoints] at hFilter
      cases hFilter
    | cons p ps =>
      have hFalls : p ∈ points.filter (·.fallsAt b field first.min) :=
        hPoints ▸ List.mem_cons_self
      obtain ⟨v, hv⟩ := DataPoint.number?_of_fallsAt (List.mem_filter.mp hFalls).2
      rw [hPoints, bucketsOf_cons hv] at hFilter
      obtain ⟨rfl, -⟩ := List.cons.inj hFilter
      exact ⟨p, ps, v, rfl, hv, rfl⟩
  covers p hp v hv := by
    have hMem : b.bucket v p.value ∈ bucketsOf b field points :=
      List.mem_filterMap.mpr ⟨p, hp, by rw [← DataPoint.number?, hv]; rfl⟩
    obtain ⟨e, he, hAt⟩ := exists_of_mem hMem
    refine ⟨_, List.mem_map_of_mem he, ?_⟩
    rw [DataPoint.fallsAt, hv]
    exact hAt

/-- The weight of a bucket is that of the points that fall into it, added up in their order. -/
theorem Distribution.weight_ofBuckets {y : Bucket N}
    (mem : y ∈ (ofBuckets (bucketsOf b field points)).buckets) :
    y.weight = ((points.filter (·.fallsAt b field y.min)).map (·.value)).foldl (· + ·)
      Arithmetic.zero := by
  obtain ⟨e, hMem, rfl⟩ := List.mem_map.mp mem
  obtain ⟨first, rest, hFilter, rfl⟩ := mem_ofBuckets.mp hMem
  rw [filter_bucketsOf] at hFilter
  -- each of these points has a number, so none of them is left out
  have hWeights : (bucketsOf b field (points.filter (·.fallsAt b field first.min))).map (·.weight) =
      (points.filter (·.fallsAt b field first.min)).map (·.value) :=
    weights_bucketsOf fun p hp => DataPoint.number?_of_fallsAt (List.mem_filter.mp hp).2
  rw [hFilter] at hWeights
  show ((first :: rest).map (·.weight)).foldl (· + ·) Arithmetic.zero = _
  rw [hWeights]

/-- Points that all have numbers in the field fall into one bucket each. -/
theorem Distribution.Spreads.perm {b : Bucketizer N} {field : String} {points : List (DataPoint N)}
    {d : Distribution N} (spreads : d.Spreads b field points)
    (numbers : ∀ p ∈ points, ∃ v, p.number? field = some v) :
    (d.buckets.flatMap fun y => points.filter (·.fallsAt b field y.min)).Perm points := by
  have hApart : d.buckets.Pairwise fun x y => ∀ p : DataPoint N,
      p.fallsAt b field x.min = true → p.fallsAt b field y.min = false := by
    refine spreads.apart.imp fun {x y} hLess p hFalls => ?_
    obtain ⟨v, hv⟩ := DataPoint.number?_of_fallsAt hFalls
    rw [DataPoint.fallsAt, hv, Option.any_some, decide_eq_true_eq] at hFalls
    have hMin : compare (Bound.mk (b.bounds v).1) ⟨y.min⟩ = compare (Bound.mk x.min) ⟨y.min⟩ :=
      Std.TransCmp.congr_left hFalls
    have hOther : Arithmetic.order (b.bounds v).1 y.min = .lt := hMin.trans hLess
    simp [DataPoint.fallsAt, hv, hOther]
  refine flatMap_filter_perm hApart fun p hp => ?_
  obtain ⟨v, hv⟩ := numbers p hp
  exact spreads.covers p hp v hv

end Spreads

end FleetMetrics
