import Mathlib
import FleetMetrics.Proofs.Message.RoundTrip
import FleetMetrics.Proofs.Shape

/-!
# Reports on the wire

What an instrumenter reports is the value of a compiled query. Such a value is in order and of a
known depth, so nothing but its numbers decides whether it comes through. The numbers are of two
kinds. Sums and weights add up what the data points contribute. The bounds of the buckets come from
the bucketizer alone: every bound in a value is a bound of the bucket that one of the points falls
into.

The bounds are where a report is lost. A log-linear bucketizer puts whatever lies above its range
into a bucket without an upper end, that end is written as null, and no reader takes a null for a
number. So one such point makes the report of its host unreadable as a whole, the other buckets
included (`overflow_is_lost`).

Main results:

* `inOrder_evaluate`, `depth_evaluate` — the value of a query is in order, and how deep it is.
* `limits_evaluate` — every bound in it is one that the bucketizer gives for some point.
* `StampedEnvelope.report_round_trip` — a report with finite sums and weights comes through exactly
  if all bounds in it are finite.
-/

namespace FleetMetrics

variable {N : Type}

/-! ## Two kinds of numbers -/

namespace ReducedValue

mutual

/-- What is read off the scalars and the buckets of a value, in order. -/
def gather (ofScalar : N → List N) (ofBucket : Bucket N → List N) : ReducedValue N → List N
  | .scalar x => ofScalar x
  | .distribution d => d.buckets.flatMap ofBucket
  | .discrete groups => gatherIn ofScalar ofBucket groups

/-- What is read off the entries of a breakdown. -/
def gatherIn (ofScalar : N → List N) (ofBucket : Bucket N → List N) :
    List (String × ReducedValue N) → List N
  | [] => []
  | (_, v) :: rest => gather ofScalar ofBucket v ++ gatherIn ofScalar ofBucket rest

end

/-- The sums and the weights in a value. -/
def amounts (v : ReducedValue N) : List N :=
  v.gather (fun x => [x]) fun b => [b.weight]

/-- The bounds of the buckets in a value. -/
def limits (v : ReducedValue N) : List N :=
  v.gather (fun _ => []) fun b => [b.min, b.max]

/-- Numbers are gathered from each entry of a breakdown. -/
theorem mem_gatherIn {ofScalar : N → List N} {ofBucket : Bucket N → List N}
    {groups : List (String × ReducedValue N)} {x : N} :
    x ∈ gatherIn ofScalar ofBucket groups ↔ ∃ g ∈ groups, x ∈ g.2.gather ofScalar ofBucket := by
  induction groups with
  | nil => simp [gatherIn]
  | cons g rest ih => rw [gatherIn, List.mem_append, ih, List.exists_mem_cons_iff]

mutual

/-- The numbers in a value are its sums and weights and the bounds of its buckets. -/
theorem mem_numbers_iff : ∀ {v : ReducedValue N} {x : N},
    x ∈ v.numbers ↔ x ∈ v.amounts ∨ x ∈ v.limits
  | .scalar _, _ => by simp [numbers, amounts, limits, gather]
  | .distribution d, x => by
    simp only [numbers, Distribution.numbers, Bucket.numbers, amounts, limits, gather,
      List.mem_flatMap, List.mem_cons, List.not_mem_nil, or_false, ← exists_or, ← and_or_left]
    -- bucket by bucket: two of its three numbers are bounds
    refine exists_congr fun b => and_congr_right fun _ => ?_
    tauto
  | .discrete groups, x => mem_numbersIn_iff groups x

/-- The numbers of a breakdown are the values in it and the bounds of its buckets. -/
theorem mem_numbersIn_iff : ∀ (groups : List (String × ReducedValue N)) (x : N),
    x ∈ numbersIn groups ↔
      x ∈ gatherIn (fun x => [x]) (fun b => [b.weight]) groups ∨
        x ∈ gatherIn (fun _ => []) (fun b => [b.min, b.max]) groups
  | [], _ => by simp [numbersIn, gatherIn]
  | (_, v) :: rest, x => by
    have hFirst := mem_numbers_iff (v := v) (x := x)
    have hRest := mem_numbersIn_iff rest x
    simp only [numbersIn, gatherIn, List.mem_append, amounts, limits] at hFirst ⊢
    rw [hFirst, hRest]
    tauto

end

end ReducedValue

/-! ## The bounds -/

variable [Arithmetic N]

/-- The buckets of a distribution have the bounds of buckets that were added. -/
theorem Distribution.bounds_ofBuckets {bs : List (Bucket N)} {b : Bucket N}
    (mem : b ∈ (ofBuckets bs).buckets) : ∃ b' ∈ bs, b.min = b'.min ∧ b.max = b'.max := by
  induction bs using List.reverseRecOn generalizing b with
  | nil => cases mem
  | append_singleton bs last ih =>
    obtain ⟨e, hMem, rfl⟩ := List.mem_map.mp mem
    -- the entry was there before the last bucket came, or was made for it, or takes its weight
    rw [ofBuckets, List.foldl_append] at hMem
    have hOld : ∀ v, (e.1, v) ∈ (ofBuckets bs).table →
        ∃ b' ∈ bs ++ [last], e.1.value = b'.min ∧ v.1 = b'.max := by
      intro v hv
      obtain ⟨b', hb', hBounds⟩ := ih (List.mem_map_of_mem hv)
      exact ⟨b', List.mem_append_left _ hb', hBounds⟩
    rcases Table.mem_alter hMem with h | rfl | ⟨v, h, hValue⟩
    · exact hOld e.2 h
    · exact ⟨last, by simp, rfl, rfl⟩
    · -- weight that is added to a bucket leaves its bounds as they were
      rw [hValue]
      exact hOld v h

/-- A bound of the bucket that a data point falls into by a field. -/
def IsLimitOf (x : N) (f : FieldSpec N) (p : DataPoint N) : Prop :=
  ∃ b v, f.bucketizer = some b ∧ (p.fields.find? f.name).bind FieldValue.number? = some v ∧
    (x = (b.bounds v).1 ∨ x = (b.bounds v).2)

/-- The buckets that points fall into have bounds of points. -/
theorem isLimitOf_of_mem_bucketsOf {f : FieldSpec N} {b : Bucketizer N}
    (bucketed : f.bucketizer = some b) {points : List (DataPoint N)} {y : Bucket N}
    (mem : y ∈ bucketsOf b f.name points) {x : N} (bound : x = y.min ∨ x = y.max) :
    ∃ p ∈ points, IsLimitOf x f p := by
  obtain ⟨p, hp, hBucket⟩ := List.mem_filterMap.mp mem
  obtain ⟨v, hv, rfl⟩ := Option.map_eq_some_iff.mp hBucket
  exact ⟨p, hp, b, v, bucketed, hv, bound⟩

/-- Every bound in a reduction is one of a point. -/
theorem limits_reduce {points : List (DataPoint N)} {fields : List (FieldSpec N)} {x : N}
    (mem : x ∈ (reduce points fields).limits) :
    ∃ f ∈ fields, ∃ p ∈ points, IsLimitOf x f p := by
  induction fields generalizing points with
  | nil => cases mem
  | cons f rest ih =>
    cases hArity : f.arity with
    | discrete =>
      obtain ⟨t, hReduce, hSorted, hFind⟩ := reduce_discrete hArity points rest
      rw [hReduce] at mem
      obtain ⟨entry, hEntry, hx⟩ := ReducedValue.mem_gatherIn.mp mem
      -- an entry is the reduction of a group, whose points are some of these
      have hGroup := (hFind entry.1).symm.trans ((Table.mem_iff_find? hSorted).mp hEntry)
      obtain ⟨group, hPoints, hValue⟩ := Option.map_eq_some_iff.mp hGroup
      rw [← hValue] at hx
      obtain ⟨g, hg, p, hp, hLimit⟩ := ih hx
      exact ⟨g, List.mem_cons_of_mem _ hg, p,
        (List.mem_filter.mp (mem_of_nonempty? hPoints hp)).1, hLimit⟩
    | numeric =>
      rw [reduce_numeric hArity] at mem
      obtain ⟨y, hy, hx⟩ := List.mem_flatMap.mp mem
      obtain ⟨y', hMem, hMin, hMax⟩ := Distribution.bounds_ofBuckets hy
      have hBound : x = y'.min ∨ x = y'.max := by
        rw [← hMin, ← hMax]
        simpa using hx
      cases hBucketizer : f.bucketizer with
      | none =>
        -- no bucketizer, no buckets; a compiled query has one
        rw [hBucketizer] at hMem
        cases hMem
      | some b =>
        rw [hBucketizer] at hMem
        obtain ⟨p, hp, hLimit⟩ := isLimitOf_of_mem_bucketsOf hBucketizer hMem hBound
        exact ⟨f, List.mem_cons_self, p, hp, hLimit⟩

/-- The typed zero has no buckets. -/
theorem limits_zero (fields : List (FieldSpec N)) : (ReducedValue.zero fields).limits = [] := by
  cases fields with
  | nil => rfl
  | cons f rest =>
    rw [ReducedValue.zero]
    cases f.arity <;> rfl

/-- **Bounds come from the bucketizer.** Every bound in the value of a query is one of a point. -/
theorem limits_evaluate (q : Query N) (current : List (Sample N))
    (previous : Option (List (Sample N))) {x : N} (mem : x ∈ (q.evaluate current previous).limits) :
    ∃ before, previous = some before ∧
      ∃ f ∈ q.decomposition, ∃ p ∈ q.points current before, IsLimitOf x f p := by
  cases previous with
  | none =>
    rw [Query.evaluate, Query.zero, limits_zero] at mem
    cases mem
  | some before =>
    refine ⟨before, rfl, ?_⟩
    rw [Query.evaluate, Query.summarize] at mem
    split at mem
    · rw [Query.zero, limits_zero] at mem
      cases mem
    · exact limits_reduce mem

/-! ## Order and depth -/

/-- A reduction is in order. -/
theorem inOrder_reduce [Std.TransOrd (Bound N)] (points : List (DataPoint N))
    (fields : List (FieldSpec N)) : (reduce points fields).InOrder := by
  induction fields generalizing points with
  | nil => trivial
  | cons f rest ih =>
    cases hArity : f.arity with
    | discrete =>
      obtain ⟨hSorted, -⟩ := groupByKey_spec f.name points
      rw [reduce, hArity]
      refine ⟨Table.ascending_mapValues hSorted fun _ group => reduce group rest,
        ReducedValue.allInOrder_iff.mpr fun entry hEntry => ?_⟩
      obtain ⟨group, -, rfl⟩ := List.mem_map.mp hEntry
      exact ih group.2
    | numeric =>
      rw [reduce_numeric hArity]
      exact Distribution.ascending_ofBuckets _

/-- A value that counts nothing has no buckets that could be out of order. -/
theorem inOrder_zero (fields : List (FieldSpec N)) : (ReducedValue.zero fields).InOrder := by
  cases fields with
  | nil => trivial
  | cons f rest =>
    rw [ReducedValue.zero]
    cases f.arity with
    | discrete => exact ⟨Table.ascending_nil, trivial⟩
    | numeric => exact Table.ascending_nil

/-- **The value of a query is in order.** -/
theorem inOrder_evaluate [Std.TransOrd (Bound N)] (q : Query N) (current : List (Sample N))
    (previous : Option (List (Sample N))) : (q.evaluate current previous).InOrder := by
  rw [Query.evaluate_eq, Query.summarize]
  -- without points the value is the typed zero, not a reduction
  split
  · exact inOrder_zero _
  · exact inOrder_reduce _ _

/-- Each breakdown of a shape is one level of a text, and a distribution two. -/
theorem depth_of_hasShape {leaf : Shape} (leaf_ne : leaf ≠ .discrete) {n : Nat}
    {v : ReducedValue N} (hv : v.HasShape leaf n) : v.toJson.depth ≤ n + 2 := by
  induction n generalizing v with
  | zero =>
    -- a leaf: a number has no depth, an array of buckets has two
    cases v with
    | scalar x =>
      rw [ReducedValue.toJson, Json.depth_ofNumber]
      exact Nat.zero_le _
    | distribution d =>
      rw [ReducedValue.toJson]
      refine Json.depth_array_le.mpr fun j hj => ?_
      obtain ⟨b, -, rfl⟩ := List.mem_map.mp hj
      exact (Bucket.depth_toJson b).le
    | discrete groups => exact absurd hv.symm leaf_ne
  | succ n ih =>
    cases v with
    | discrete groups =>
      rw [ReducedValue.toJson, ReducedValue.toMembers_eq]
      refine Json.depth_object_le.mpr fun m hm => ?_
      obtain ⟨g, hg, rfl⟩ := List.mem_map.mp hm
      exact ih (hv g hg)
    | scalar | distribution => cases hv

/-- **How deep a value is.** -/
theorem depth_evaluate {d : Descriptor N} {p : Predicate N} {D : List String} {q : Query N}
    (compiled : Query.compile d p D = .ok q) (current : List (Sample N))
    (previous : Option (List (Sample N))) :
    (q.evaluate current previous).toJson.depth ≤ Query.depth d D + 2 :=
  depth_of_hasShape (Query.leaf_ne_discrete d D) (hasShape_evaluate compiled current previous)

/-! ## Reports -/

namespace StampedEnvelope

variable {d : Descriptor Float} {p : Predicate Float} {D : List String} {q : Query Float}

/-- The envelope reports what a query yields for two snapshots. -/
def Reports (e : StampedEnvelope Float) (q : Query Float) (current : List (Sample Float))
    (previous : Option (List (Sample Float))) : Prop :=
  ∃ id sampledAt, e.message = .data id sampledAt (q.evaluate current previous) ∧
    id < Width.capacity 64 ∧ sampledAt.Valid ∧ e.time.Valid

/-- A report of a query is as its type wants it. -/
theorem valid_of_reports {e : StampedEnvelope Float} {current : List (Sample Float)}
    {previous : Option (List (Sample Float))} (reports : e.Reports q current previous) :
    e.Valid := by
  obtain ⟨id, sampledAt, hMessage, hId, hSampled, hTime⟩ := reports
  refine ⟨hTime, ?_⟩
  rw [hMessage]
  exact ⟨hId, hSampled, inOrder_evaluate q current previous⟩

/-- The envelope and the message are two levels more. -/
theorem depth_of_reports (compiled : Query.compile d p D = .ok q) {e : StampedEnvelope Float}
    {current : List (Sample Float)} {previous : Option (List (Sample Float))}
    (reports : e.Reports q current previous) : e.toJson.depth ≤ Query.depth d D + 4 := by
  obtain ⟨id, sampledAt, hMessage, -⟩ := reports
  have hValue := depth_evaluate compiled current previous
  -- the value is the deepest part of the message, and the message that of the envelope
  have hPart : e.message.toJson.depth ≤ Query.depth d D + 3 := by
    rw [hMessage, Message.toJson, Json.depth_object_le, Message.members]
    simp only [List.forall_mem_cons]
    exact ⟨Nat.zero_le _, Nat.zero_le _, Nat.zero_le _, hValue, List.forall_mem_nil _⟩
  rw [toJson, Json.depth_object_le]
  simp only [List.forall_mem_cons]
  exact ⟨Nat.zero_le _, Nat.zero_le _, Nat.zero_le _, Nat.zero_le _, hPart, List.forall_mem_nil _⟩

/-- A report comes through exactly if all numbers in it are finite. -/
theorem reported_iff (compiled : Query.compile d p D = .ok q)
    (shallow : Query.depth d D + 4 ≤ Json.maxDepth) {e : StampedEnvelope Float}
    {current : List (Sample Float)} {previous : Option (List (Sample Float))}
    (reports : e.Reports q current previous)
    (legible : LegibleNumbers (q.evaluate current previous).numbers) :
    e.ComesThrough ↔ ∀ x ∈ (q.evaluate current previous).numbers, x.isFinite = true := by
  have hValid := valid_of_reports reports
  have hDepth := (depth_of_reports compiled reports).trans shallow
  obtain ⟨id, sampledAt, hMessage, -⟩ := reports
  have hNumbers : e.message.numbers = (q.evaluate current previous).numbers := by
    rw [hMessage]
    rfl
  have hPlain : e.message.Plain := Message.plain_of_status?_eq_none (by rw [hMessage]; rfl)
  rw [comesThrough_iff hValid hDepth (hNumbers ▸ legible), Message.Finite, hNumbers]
  exact and_iff_left hPlain

/-- **Reports.** Let a query be compiled, with few enough grouping fields that its values do not
nest deeper than a text may. Then a report of its value in which sums and weights are finite comes
through exactly if the bounds of all buckets in it are finite. So it does if the bucketizer gives
every point finite bounds. -/
theorem report_round_trip (compiled : Query.compile d p D = .ok q)
    (shallow : Query.depth d D + 4 ≤ Json.maxDepth) {e : StampedEnvelope Float}
    {current : List (Sample Float)} {previous : Option (List (Sample Float))}
    (reports : e.Reports q current previous)
    (legible : LegibleNumbers (q.evaluate current previous).numbers)
    (summed : ∀ x ∈ (q.evaluate current previous).amounts, x.isFinite = true) :
    (e.ComesThrough ↔ ∀ x ∈ (q.evaluate current previous).limits, x.isFinite = true) ∧
    ((∀ before, previous = some before → ∀ f ∈ q.decomposition,
        ∀ point ∈ q.points current before, ∀ x, IsLimitOf x f point → x.isFinite = true) →
      e.ComesThrough) := by
  -- the sums and weights are finite, so it is up to the bounds
  have hIff : e.ComesThrough ↔
      ∀ x ∈ (q.evaluate current previous).limits, x.isFinite = true := by
    rw [reported_iff compiled shallow reports legible]
    constructor
    · intro hAll x hx
      exact hAll x (ReducedValue.mem_numbers_iff.mpr (.inr hx))
    · intro hLimits x hx
      rcases ReducedValue.mem_numbers_iff.mp hx with hAmount | hLimit
      · exact summed x hAmount
      · exact hLimits x hLimit
  refine ⟨hIff, fun bounded => hIff.mpr fun x hx => ?_⟩
  obtain ⟨before, hPrevious, f, hf, point, hPoint, hLimit⟩ := limits_evaluate q current previous hx
  exact bounded before hPrevious f hf point hPoint x hLimit

/-- Latencies of a disk, one point for each, with a bucket for all from one second on. -/
def latencies (values : List Float) : Descriptor Float :=
  (Descriptor.new "disk" "ops" "I/O operations" "ops").field
    (.numeric "latency" "latency" (.logLinear 10.0 0 3 10) fun _ => values.map .number)

/-- The distribution of some latencies. -/
def spread (values : List Float) : Query Float :=
  .made (latencies values) .trivial ["latency"]

/-- A snapshot of one disk. -/
def disk : List (Sample Float) := [⟨"sda", 0, [], []⟩]

/-- A report of the distribution of some latencies. -/
def latencyReport (values : List Float) : StampedEnvelope Float :=
  ⟨⟨"agent", "db", .data 7 ⟨5⟩ ((spread values).evaluate disk (some disk))⟩, 1, ⟨6⟩⟩

theorem compile_spread (values : List Float) :
    Query.compile (latencies values) .trivial ["latency"] = .ok (spread values) :=
  Query.compile_of_fits (Query.fault?_eq_none_iff.mp rfl)

/-- The report of a disk's latency is one that its query makes. -/
theorem reports_latencyReport (values : List Float) :
    (latencyReport values).Reports (spread values) disk (some disk) :=
  have hTime : (⟨6⟩ : Timestamp).Valid := ⟨by decide, by decide⟩
  ⟨7, ⟨5⟩, rfl, by decide, ⟨by decide, by decide⟩, hTime⟩

set_option maxRecDepth 4000 in
/-- Latencies that come through, as all are below the range. -/
theorem report_round_trip_brief : (latencyReport [0.5, 0.25]).ComesThrough := by
  have hNumbers : ((spread [0.5, 0.25]).evaluate disk (some disk)).numbers = [0.0, 1.0, 2.0] := by
    rfl
  have hLegible : LegibleNumbers ((spread [0.5, 0.25]).evaluate disk (some disk)).numbers := by
    rw [hNumbers, LegibleNumbers]
    simp only [List.forall_mem_cons]
    exact ⟨fun _ => rfl, fun _ => rfl, fun _ => rfl, List.forall_mem_nil _⟩
  have hFinite : ∀ x ∈ ((spread [0.5, 0.25]).evaluate disk (some disk)).numbers,
      x.isFinite = true := by
    rw [hNumbers]
    simp only [List.forall_mem_cons]
    exact ⟨rfl, rfl, rfl, List.forall_mem_nil _⟩
  have hRoundTrip := report_round_trip (compile_spread [0.5, 0.25]) (by decide)
    (reports_latencyReport _) hLegible fun x hx =>
      hFinite x (ReducedValue.mem_numbers_iff.mpr (.inl hx))
  exact hRoundTrip.1.mpr fun x hx => hFinite x (ReducedValue.mem_numbers_iff.mpr (.inr hx))

set_option maxRecDepth 4000 in
/-- One latency above the range, and the report is lost, although all latencies are finite, each
counts once, and the bucketizer is valid. -/
theorem overflow_is_lost :
    Query.compile (latencies [0.5, 2000.0]) .trivial ["latency"] = .ok (spread [0.5, 2000.0]) ∧
      (latencyReport [0.5, 2000.0]).Reports (spread [0.5, 2000.0]) disk (some disk) ∧
      ((spread [0.5, 2000.0]).evaluate disk (some disk)).amounts = [1.0, 1.0] ∧
      ((spread [0.5, 2000.0]).evaluate disk (some disk)).limits =
        [0.0, 1.0, 1000.0, Arithmetic.infinity] ∧
      decode (latencyReport [0.5, 2000.0]).encode =
        .error (.malformed "data" "unexpected form") := by
  have hReports := reports_latencyReport [0.5, 2000.0]
  have hCompiled := compile_spread [0.5, 2000.0]
  have hNumbers : (latencyReport [0.5, 2000.0]).message.numbers =
      [0.0, 1.0, 1.0, 1000.0, Arithmetic.infinity, 1.0] := by rfl
  have hLegible : LegibleNumbers (latencyReport [0.5, 2000.0]).message.numbers := by
    rw [hNumbers, LegibleNumbers]
    simp only [List.forall_mem_cons]
    -- of the infinite bound nothing is asked
    exact ⟨fun _ => rfl, fun _ => rfl, fun _ => rfl, fun _ => rfl,
      fun hFinite => absurd hFinite (by decide), fun _ => rfl, List.forall_mem_nil _⟩
  have hDepth : (latencyReport [0.5, 2000.0]).toJson.depth ≤ Json.maxDepth :=
    (depth_of_reports hCompiled hReports).trans (by decide)
  refine ⟨hCompiled, hReports, rfl, rfl, ?_⟩
  rw [decode_encode (valid_of_reports hReports) hDepth hLegible, hNumbers]
  rfl

end StampedEnvelope

end FleetMetrics
