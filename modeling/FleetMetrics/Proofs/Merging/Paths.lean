import Mathlib
import FleetMetrics.Proofs.Message.Values

/-!
# Merges, path by path

A merge goes down two breakdowns at once and can fail at any depth, and the values of many hosts are
merged in whatever order they come. Two values can both fit a third and not each other, since a
breakdown without entries fits every breakdown. So neither whether a merge of many values succeeds
nor what comes out is plain from its steps.

Both can be said without the recursion, by the paths of keys that lead into a value. Nothing at one
path depends on anything at another. What is read off a value at a path (`Reading`) is combined when
values are merged, and what is combined by a commutative operation does not depend on the order.
This covers which paths there are, of what kind the values there are, and which buckets a
distribution has; and sums and weights, if addition is exact. It does not cover the upper ends of
buckets: the one that comes first stays.

Breakdowns and distributions are tables here (`InOrder`). Values that are read from JSON are in
order (`inOrder_ofJson?`), and so are those of queries (`inOrder_evaluate`) and merges of them
(`InOrder.merge`).

Main results:

* `Distribution.pools_merge` — the buckets of a merge, their weights and their upper ends.
* `fits_iff_at?` — values fit if no path leads to values of different kinds.
* `merged_of_merge` — what is found at each path of a merge.
* `Reading.perm` — what can be read off a merge in any order.
* `merge_pathwise` — all of this, for two values and for many.
-/

namespace FleetMetrics

variable {N : Type}

/-! ## Distributions -/

namespace Distribution

variable [Arithmetic N]

/-- What a distribution has after another one has been merged into it. Two lower ends are one if
they compare as equal. -/
structure Pools (pooled first second : Distribution N) : Prop where
  sorted : pooled.table.Ascending
  /-- Of two lower ends that are one, the first distribution has the one that stays. -/
  minima : ∀ k, k ∈ pooled.table.keys ↔
    k ∈ first.table.keys ∨ k ∈ second.table.keys ∧ first.table.find? k = none
  /-- A weight of the second is added to that of the first, or to no weight. -/
  weights : ∀ min, pooled.weightAt min =
    match second.weightAt min with
    | some w => some ((first.weightAt min).getD Arithmetic.zero + w)
    | none => first.weightAt min
  /-- A bucket of the first keeps its upper end. -/
  maxima : ∀ k, (pooled.table.find? k).map (·.1) =
    ((first.table.find? k).or (second.table.find? k)).map (·.1)

variable [Std.TransOrd (Bound N)]

/-- The lower ends of a merge are those of the first, and those of the second for which the first
has no bucket. -/
theorem mem_keys_merge {d e : Distribution N} (hd : d.table.Ascending)
    (he : e.table.Ascending) (k : Bound N) :
    k ∈ (d.merge e).table.keys ↔
      k ∈ d.table.keys ∨ k ∈ e.table.keys ∧ d.table.find? k = none := by
  -- the buckets of the second are added from the lowest on, each to what there is by then
  obtain ⟨t⟩ := e
  induction t generalizing d with
  | nil => simp [merge, buckets, Table.keys]
  | cons entry rest ih =>
    obtain ⟨hHead, hRest⟩ := List.pairwise_cons.mp he
    have hStep : d.merge ⟨entry :: rest⟩ =
        (d.add ⟨entry.1.value, entry.2.1, entry.2.2⟩).merge ⟨rest⟩ := rfl
    have hKeys : k ∈ Table.keys (entry :: rest) ↔ k = entry.1 ∨ k ∈ Table.keys rest := by
      simp [Table.keys]
    have hAdd : k ∈ (d.add ⟨entry.1.value, entry.2.1, entry.2.2⟩).table.keys ↔
        k ∈ d.table.keys ∨ k = entry.1 ∧ d.table.find? entry.1 = none :=
      Table.mem_keys_alter hd
    rw [hStep, ih (ascending_add hd _) hRest, hAdd, hKeys]
    -- a key of the rest is above the first one, so adding the first does not change its look-up
    have hLater : k ∈ Table.keys rest →
        (d.add ⟨entry.1.value, entry.2.1, entry.2.2⟩).table.find? k = d.table.find? k := by
      intro hk
      obtain ⟨e, he, rfl⟩ := List.mem_map.mp hk
      refine Table.find?_alter_of_apart _ ?_
      rw [Std.OrientedCmp.gt_of_lt (hHead e he)]
      decide
    constructor
    · rintro ((hk | ⟨rfl, hNone⟩) | ⟨hk, hNone⟩)
      · exact .inl hk
      · exact .inr ⟨.inl rfl, hNone⟩
      · exact .inr ⟨.inr hk, hLater hk ▸ hNone⟩
    · rintro (hk | ⟨rfl | hk, hNone⟩)
      · exact .inl (.inl hk)
      · exact .inl (.inr ⟨rfl, hNone⟩)
      · exact .inr ⟨hk, (hLater hk).trans hNone⟩

/-- **A merge of distributions pools them.** -/
theorem pools_merge {d e : Distribution N} (hd : d.table.Ascending) (he : e.table.Ascending) :
    (d.merge e).Pools d e where
  sorted := ascending_foldl_add hd _
  minima := mem_keys_merge hd he
  weights min := by
    rw [weightAt, weightAt, weightAt, find?_merge_eq hd he]
    cases e.table.find? ⟨min⟩ with
    | none => rfl
    | some new => cases d.table.find? ⟨min⟩ <;> rfl
  maxima k := by
    rw [find?_merge_eq hd he]
    cases e.table.find? k with
    | none => rw [Option.or_none]
    | some new => cases d.table.find? k <;> rfl

end Distribution

/-! ## Paths -/

namespace ReducedValue

/-- The value that a path of keys leads to. -/
def at? : ReducedValue N → List String → Option (ReducedValue N)
  | v, [] => some v
  | .discrete groups, key :: path => (Table.find? groups key).bind fun v => v.at? path
  | .scalar _, _ :: _ => none
  | .distribution _, _ :: _ => none
termination_by structural _ path => path

/-- The kind of value that a path leads to. -/
def shapeAt? (v : ReducedValue N) (path : List String) : Option Shape :=
  (v.at? path).map shape

/-- The number that a path leads to. -/
def scalarAt? (v : ReducedValue N) (path : List String) : Option N :=
  (v.at? path).bind scalar?

/-- The weight of a bucket, if the value is a distribution. -/
def weight? [Arithmetic N] (v : ReducedValue N) (min : N) : Option N :=
  match v with
  | .distribution d => d.weightAt min
  | _ => none

/-- The weight of a bucket of the distribution that a path leads to. -/
def weightAt? [Arithmetic N] (v : ReducedValue N) (path : List String) (min : N) : Option N :=
  (v.at? path).bind fun x => x.weight? min

@[simp] theorem at?_nil (v : ReducedValue N) : v.at? [] = some v := by
  cases v <;> rfl

@[simp] theorem at?_discrete (groups : Table String (ReducedValue N)) (key : String)
    (path : List String) :
    at? (.discrete groups) (key :: path) = (groups.find? key).bind fun v => v.at? path := rfl

theorem at?_cons_of_leaf {v : ReducedValue N} (leaf : v.shape ≠ .discrete) (key : String)
    (path : List String) : v.at? (key :: path) = none := by
  cases v with
  | discrete groups => exact absurd rfl leaf
  | _ => rfl

variable [Arithmetic N]

mutual

/-- A value in order has tables for breakdowns. -/
theorem InOrder.ordered : ∀ {v : ReducedValue N}, v.InOrder → v.Ordered
  | .scalar x, _ => .scalar x
  | .distribution d, _ => .distribution d
  | .discrete groups, hv => .discrete groups hv.1 (AllInOrder.ordered hv.2)

theorem AllInOrder.ordered : ∀ {groups : List (String × ReducedValue N)},
    AllInOrder groups → ∀ entry ∈ groups, entry.2.Ordered
  | [], _ => nofun
  | _ :: _, hGroups =>
    List.forall_mem_cons.mpr ⟨InOrder.ordered hGroups.1, AllInOrder.ordered hGroups.2⟩

end

/-- Whatever a path leads to is in order. -/
theorem InOrder.at? {v x : ReducedValue N} (hv : v.InOrder) {path : List String}
    (hAt : v.at? path = some x) : x.InOrder := by
  induction path generalizing v with
  | nil =>
    rw [at?_nil, Option.some.injEq] at hAt
    exact hAt ▸ hv
  | cons key path ih =>
    cases v with
    | discrete groups =>
      obtain ⟨y, hy, hBelow⟩ := Option.bind_eq_some_iff.mp hAt
      obtain ⟨_, hMem⟩ := Table.mem_of_find? hy
      exact ih (allInOrder_iff.mp hv.2 _ hMem) hBelow
    | _ => cases hAt

/-- **In order, by paths.** The breakdowns are tables, and so is every distribution that a path
leads to. -/
theorem inOrder_iff {v : ReducedValue N} :
    v.InOrder ↔ v.Ordered ∧ ∀ path d, v.at? path = some (.distribution d) → d.table.Ascending := by
  constructor
  · exact fun hv => ⟨hv.ordered, fun path d hAt => hv.at? hAt⟩
  · rintro ⟨hOrdered, hDistributions⟩
    induction hOrdered with
    | scalar => trivial
    | distribution d => exact hDistributions [] d rfl
    | discrete groups sorted _ ih =>
      refine ⟨sorted, allInOrder_iff.mpr fun entry hEntry => ih entry hEntry fun path d hAt => ?_⟩
      -- what a path leads to in an entry, the path with the key before it leads to in the whole
      refine hDistributions (entry.1 :: path) d ?_
      rw [at?_discrete, (Table.mem_iff_find? sorted).mp hEntry, Option.bind_some, hAt]

variable {a b m : ReducedValue N}

/-! ## Two values -/

/-- **A merge, by paths.** A path leads to what it leads to in either value, or to the merge of the
two where it is in both. -/
theorem at?_merge (ha : a.Ordered) (hb : b.Ordered) (merged : a.merge b = .ok m)
    (path : List String) :
    m.at? path = (a.at? path).merge (fun x y => (x.absorb y).1) (b.at? path) := by
  induction path generalizing a b m with
  | nil =>
    rw [at?_nil, at?_nil, at?_nil, Option.merge_some_some, merge_eq_ok.mp merged]
  | cons key path ih =>
    have hShape := Fits.shape_eq ⟨m, merged⟩
    by_cases hLeaf : a.shape = .discrete
    · cases ha with
      | scalar | distribution => cases hLeaf
      | discrete s hs entries =>
        cases hb with
        | scalar | distribution => cases hShape
        | discrete t ht entries' =>
          have hFits := (fits_discrete hs ht).mp ⟨m, merged⟩
          obtain ⟨u, rfl, -, hFind⟩ := merge_discrete hs ht merged
          -- one key further there is what either has there, or the merge of the two
          rw [at?_discrete, at?_discrete, at?_discrete, hFind]
          cases hx : s.find? key with
          | none => simp only [Option.merge_none_left, Option.bind_none]
          | some x =>
            cases hy : t.find? key with
            | none => simp only [Option.merge_none_right, Option.bind_none]
            | some y =>
              exact ih (entries _ ((Table.mem_iff_find? hs).mpr hx))
                (entries' _ ((Table.mem_iff_find? ht).mpr hy))
                (merge_eq_ok.mpr (Prod.ext rfl (fits_iff.mp (hFits key x y hx hy))))
    · -- below a leaf there is nothing
      rw [at?_cons_of_leaf hLeaf, at?_cons_of_leaf (shape_merge merged ▸ hLeaf),
        at?_cons_of_leaf (hShape ▸ hLeaf), Option.merge_none_left]

/-- Values that are no breakdowns fit, by paths. -/
theorem fits_iff_at?_of_leaf {a b : ReducedValue N} (leaf : a.shape ≠ .discrete) :
    a.Fits b ↔ ∀ path x y, a.at? path = some x → b.at? path = some y → x.shape = y.shape := by
  rw [fits_leaf leaf]
  constructor
  · intro hShape path x y hx hy
    -- the empty path is the only one
    cases path with
    | nil =>
      rw [at?_nil, Option.some.injEq] at hx hy
      rw [← hx, ← hy, hShape]
    | cons key path =>
      rw [at?_cons_of_leaf leaf] at hx
      cases hx
  · exact fun hSame => hSame [] a b (at?_nil a) (at?_nil b)

/-- **Values fit, by paths.** No path leads to values of different kinds. -/
theorem fits_iff_at? (ha : a.Ordered) (hb : b.Ordered) :
    a.Fits b ↔ ∀ path x y, a.at? path = some x → b.at? path = some y → x.shape = y.shape := by
  induction ha generalizing b with
  | scalar x => exact fits_iff_at?_of_leaf (by simp [shape])
  | distribution d => exact fits_iff_at?_of_leaf (by simp [shape])
  | discrete s hs entries ih =>
    cases hb with
    | scalar | distribution =>
      refine ⟨fun fits => ?_, fun hSame => ?_⟩
      · cases fits.shape_eq
      · cases hSame [] _ _ (at?_nil _) (at?_nil _)
    | discrete t ht entries' =>
      rw [fits_discrete hs ht]
      -- below each common key the entries fit by paths, and a path starts with a key
      have hEntry : ∀ key x y, s.find? key = some x → t.find? key = some y → (x.Fits y ↔
          ∀ path z w, x.at? path = some z → y.at? path = some w → z.shape = w.shape) := by
        intro key x y hx hy
        exact ih _ ((Table.mem_iff_find? hs).mpr hx) (entries' _ ((Table.mem_iff_find? ht).mpr hy))
      constructor
      · intro hFits path z w hz hw
        cases path with
        | nil =>
          rw [at?_nil, Option.some.injEq] at hz hw
          rw [← hz, ← hw]
          rfl
        | cons key path =>
          obtain ⟨x, hx, hz⟩ := Option.bind_eq_some_iff.mp hz
          obtain ⟨y, hy, hw⟩ := Option.bind_eq_some_iff.mp hw
          exact (hEntry key x y hx hy).mp (hFits key x y hx hy) path z w hz hw
      · intro hSame key x y hx hy
        refine (hEntry key x y hx hy).mpr fun path z w hz hw => hSame (key :: path) z w ?_ ?_
        · rw [at?_discrete, hx, Option.bind_some, hz]
        · rw [at?_discrete, hy, Option.bind_some, hw]

theorem shape_absorb (x y : ReducedValue N) : (x.absorb y).1.shape = x.shape := by
  cases x <;> cases y <;> rfl

/-- What a value has after another one has been merged into it, path by path. -/
structure Merged (a b m : ReducedValue N) : Prop where
  inOrder : m.InOrder
  paths : ∀ path, (m.at? path).isSome ↔ (a.at? path).isSome ∨ (b.at? path).isSome
  first : ∀ path x, a.at? path = some x → b.at? path = none → m.at? path = some x
  second : ∀ path y, a.at? path = none → b.at? path = some y → m.at? path = some y
  scalars : ∀ path x y, a.at? path = some (.scalar x) → b.at? path = some (.scalar y) →
    m.at? path = some (.scalar (x + y))
  distributions : ∀ path d e, a.at? path = some (.distribution d) →
    b.at? path = some (.distribution e) →
    ∃ pooled, m.at? path = some (.distribution pooled) ∧ pooled.Pools d e
  breakdowns : ∀ path s t, a.at? path = some (.discrete s) → b.at? path = some (.discrete t) →
    ∃ u, m.at? path = some (.discrete u)

variable [Std.TransOrd (Bound N)]

/-- A merge keeps the order of breakdowns and of distributions. -/
theorem InOrder.merge (ha : a.InOrder) (hb : b.InOrder) (merged : a.merge b = .ok m) :
    m.InOrder := by
  have hSame := (fits_iff_at? ha.ordered hb.ordered).mp ⟨m, merged⟩
  rw [inOrder_iff]
  refine ⟨ha.ordered.merge hb.ordered merged, fun path d hAt => ?_⟩
  rw [at?_merge ha.ordered hb.ordered merged] at hAt
  cases hx : a.at? path with
  | none =>
    rw [hx, Option.merge_none_left] at hAt
    exact (inOrder_iff.mp hb).2 path d hAt
  | some x =>
    cases hy : b.at? path with
    | none =>
      rw [hx, hy, Option.merge_none_right] at hAt
      exact (inOrder_iff.mp ha).2 path d (hx.trans hAt)
    | some y =>
      rw [hx, hy, Option.merge_some_some, Option.some.injEq] at hAt
      -- only two distributions merge into one
      cases x with
      | distribution d₁ =>
        cases y with
        | distribution d₂ =>
          obtain rfl := distribution.inj hAt
          exact Distribution.ascending_foldl_add ((inOrder_iff.mp ha).2 path d₁ hx) _
        | _ => cases hSame path _ _ hx hy
      | scalar => cases y <;> cases hAt
      | discrete => cases y <;> cases hAt

/-- **What a merge is.** -/
theorem merged_of_merge (ha : a.InOrder) (hb : b.InOrder) (merged : a.merge b = .ok m) :
    Merged a b m := by
  have hAt := at?_merge ha.ordered hb.ordered merged
  exact {
    inOrder := ha.merge hb merged
    paths := fun path => by
      rw [hAt]
      cases a.at? path <;> cases b.at? path <;> simp
    first := fun path x hx hy => by rw [hAt, hx, hy, Option.merge_none_right]
    second := fun path y hx hy => by rw [hAt, hx, hy, Option.merge_none_left]
    scalars := fun path x y hx hy => by rw [hAt, hx, hy]; rfl
    distributions := fun path d e hd he => by
      refine ⟨d.merge e, by rw [hAt, hd, he]; rfl, ?_⟩
      exact Distribution.pools_merge ((inOrder_iff.mp ha).2 path d hd)
        ((inOrder_iff.mp hb).2 path e he)
    breakdowns := fun path s t hs ht => ⟨(absorbGroups s t).1, by rw [hAt, hs, ht]; rfl⟩ }

/-! ## Many values -/

/-- What is read off a value, if it can be read off it, and combined when values of one kind are
merged. -/
structure Reading {β : Type} (read : ReducedValue N → Option β) (f : β → β → β) : Prop where
  absorb : ∀ x y : ReducedValue N, x.InOrder → y.InOrder → x.shape = y.shape →
    read (x.absorb y).1 = (read x).merge f (read y)

section Readings

variable {β : Type} {read : ReducedValue N → Option β} {f : β → β → β}

omit [Std.TransOrd (Bound N)] in
/-- A reading at the end of a path is combined, too. -/
theorem Reading.merge (reading : Reading read f) (ha : a.InOrder) (hb : b.InOrder)
    (merged : a.merge b = .ok m) (path : List String) :
    (m.at? path).bind read = ((a.at? path).bind read).merge f ((b.at? path).bind read) := by
  have hSame := (fits_iff_at? ha.ordered hb.ordered).mp ⟨m, merged⟩ path
  rw [at?_merge ha.ordered hb.ordered merged]
  cases hx : a.at? path with
  | none => rw [Option.merge_none_left, Option.bind_none, Option.merge_none_left]
  | some x =>
    cases hy : b.at? path with
    | none => rw [Option.merge_none_right, Option.bind_none, Option.merge_none_right]
    | some y => exact reading.absorb x y (ha.at? hx) (hb.at? hy) (hSame x y hx hy)

variable {v w : ReducedValue N} {vs ws : List (ReducedValue N)}

/-- What is read off a merge of many values is combined from what is read off each of them. -/
theorem Reading.foldlM (reading : Reading read f) (path : List String) (hv : v.InOrder)
    (hvs : ∀ x ∈ vs, x.InOrder) (merged : vs.foldlM ReducedValue.merge v = .ok m) :
    (m.at? path).bind read =
      (vs.map fun x => (x.at? path).bind read).foldl (Option.merge f) ((v.at? path).bind read) := by
  -- induction on the values still to come; what has been merged by then is in order itself
  induction vs generalizing v with
  | nil =>
    obtain rfl : v = m := Except.ok.inj merged
    rfl
  | cons x rest ih =>
    obtain ⟨hx, hRest⟩ := List.forall_mem_cons.mp hvs
    rw [List.foldlM_cons] at merged
    cases hFirst : v.merge x with
    | error fault =>
      rw [hFirst] at merged
      cases merged
    | ok u =>
      rw [hFirst] at merged
      rw [ih (hv.merge hx hFirst) hRest merged, reading.merge hv hx hFirst, List.map_cons,
        List.foldl_cons]

/-- **What is combined in any order is read off a merge in any order.** -/
theorem Reading.perm [Std.Associative f] [Std.Commutative f] (reading : Reading read f)
    (inOrder : ∀ x ∈ v :: vs, x.InOrder) (perm : (w :: ws).Perm (v :: vs)) {m m' : ReducedValue N}
    (merged : vs.foldlM ReducedValue.merge v = .ok m)
    (merged' : ws.foldlM ReducedValue.merge w = .ok m') (path : List String) :
    (m.at? path).bind read = (m'.at? path).bind read := by
  have inOrder' : ∀ x ∈ w :: ws, x.InOrder := fun x hx => inOrder x (perm.mem_iff.mp hx)
  -- the first value is one of the others, if nothing has been read before it
  have hStart : ∀ (x : ReducedValue N) (xs : List (ReducedValue N)),
      (xs.map fun y => (y.at? path).bind read).foldl (Option.merge f) ((x.at? path).bind read) =
        ((x :: xs).map fun y => (y.at? path).bind read).foldl (Option.merge f) none := by
    intro x xs
    rw [List.map_cons, List.foldl_cons, Option.merge_none_left]
  rw [List.forall_mem_cons] at inOrder inOrder'
  rw [reading.foldlM path inOrder.1 inOrder.2 merged,
    reading.foldlM path inOrder'.1 inOrder'.2 merged', hStart, hStart]
  exact (perm.map _).foldl_op_eq.symm

end Readings

/-- Two things that are there are there together. -/
instance : Std.Associative fun _ _ : Unit => () := ⟨fun _ _ _ => rfl⟩

instance : Std.Commutative fun _ _ : Unit => () := ⟨fun _ _ => rfl⟩

omit [Std.TransOrd (Bound N)] in
/-- Whether a value is of a kind. -/
theorem reading_shape (s : Shape) :
    Reading (fun v : ReducedValue N => if v.shape = s then some () else none) fun _ _ => () where
  absorb x y _ _ same := by
    rw [shape_absorb, same]
    split <;> rfl

omit [Std.TransOrd (Bound N)] in
/-- The number, if the value is one. -/
theorem reading_scalar : Reading (scalar? (N := N)) (· + ·) where
  absorb x y _ _ same := by
    cases x <;> cases y <;> first | rfl | cases same

/-- The weight in a bucket of two distributions of which one is merged into the other. -/
theorem weight?_absorb {x y : ReducedValue N} (hx : x.InOrder) (hy : y.InOrder)
    (same : x.shape = y.shape) (min : N) :
    (x.absorb y).1.weight? min =
      match y.weight? min with
      | some w => some ((x.weight? min).getD Arithmetic.zero + w)
      | none => x.weight? min := by
  cases x with
  | distribution d =>
    cases y with
    | distribution e => exact (Distribution.pools_merge hx hy).weights min
    | _ => cases same
  -- values of another kind have no weights, before and after
  | scalar x =>
    cases y with
    | scalar y => rfl
    | _ => cases same
  | discrete s =>
    cases y with
    | discrete t => rfl
    | _ => cases same

/-- Whether there is a bucket, if the value is a distribution. -/
theorem reading_bucket (min : N) :
    Reading (fun v : ReducedValue N => (v.weight? min).map fun _ => ()) fun _ _ => () where
  absorb x y hx hy same := by
    rw [weight?_absorb hx hy same]
    cases y.weight? min <;> cases x.weight? min <;> rfl

/-- The weight of a bucket, if the value is a distribution and numbers are exact. -/
theorem reading_weight {N : Type} [Arithmetic N] [Arithmetic.Exact N] (min : N) :
    Reading (fun v : ReducedValue N => v.weight? min) (· + ·) where
  absorb x y hx hy same := by
    rw [weight?_absorb hx hy same]
    cases y.weight? min with
    | none => rw [Option.merge_none_right]
    | some w =>
      cases x.weight? min with
      | none =>
        -- the only place where a copied weight shows: it has been added to no weight
        show some (Arithmetic.zero + w) = _
        rw [Arithmetic.Exact.zero_add, Option.merge_none_left]
      | some w' => rfl

/-- Values with one key tree, and with the same buckets where a distribution stands. -/
structure SameTree (m m' : ReducedValue N) : Prop where
  shapes : ∀ path, m.shapeAt? path = m'.shapeAt? path
  minima : ∀ path min, (m.weightAt? path min).isSome = (m'.weightAt? path min).isSome

/-- Values with the same numbers and the same weights. -/
structure SameSums (m m' : ReducedValue N) : Prop where
  scalars : ∀ path, m.scalarAt? path = m'.scalarAt? path
  weights : ∀ path min, m.weightAt? path min = m'.weightAt? path min

section Orders

variable {v w : ReducedValue N} {vs ws : List (ReducedValue N)}
  (inOrder : ∀ x ∈ v :: vs, x.InOrder) (perm : (w :: ws).Perm (v :: vs))

include inOrder perm

omit [Std.TransOrd (Bound N)] in
/-- **Values that fit two by two do so in any order.** -/
theorem pairwise_fits_perm : (w :: ws).Pairwise Fits ↔ (v :: vs).Pairwise Fits := by
  -- fitting is symmetric for values in order only, so both directions are carried along
  have hBoth : ∀ xs : List (ReducedValue N), (∀ x ∈ xs, x.InOrder) →
      (xs.Pairwise Fits ↔ xs.Pairwise fun x y => x.Fits y ∧ y.Fits x) := by
    intro xs hxs
    refine List.Pairwise.iff_of_mem fun {x y} hx hy => ⟨fun fits => ?_, fun fits => fits.1⟩
    exact ⟨fits, fits.symm (hxs x hx).ordered (hxs y hy).ordered⟩
  rw [hBoth _ inOrder, hBoth _ fun x hx => inOrder x (perm.mem_iff.mp hx)]
  exact perm.pairwise_iff And.symm

variable (merged : vs.foldlM ReducedValue.merge v = .ok m) {m' : ReducedValue N}
  (merged' : ws.foldlM ReducedValue.merge w = .ok m')

include merged merged'

/-- **Values merged in two orders have one key tree** and the same buckets. -/
theorem sameTree_of_perm : SameTree m m' where
  shapes path := by
    -- kinds are read off one at a time, each as a mark that is there or not
    have hKind : ∀ (x : ReducedValue N) (s : Shape), x.shapeAt? path = some s ↔
        (x.at? path).bind (fun y => if y.shape = s then some () else none) = some () := by
      intro x s
      simp [shapeAt?, Option.bind_eq_some_iff]
    refine Option.ext fun s => ?_
    rw [hKind, hKind, (reading_shape s).perm inOrder perm merged merged' path]
  minima path min := by
    have hBucket : ∀ x : ReducedValue N, (x.weightAt? path min).isSome =
        ((x.at? path).bind fun y => (y.weight? min).map fun _ => ()).isSome := by
      intro x
      cases hx : x.at? path <;> simp [weightAt?, hx]
    rw [hBucket, hBucket, (reading_bucket min).perm inOrder perm merged merged' path]

end Orders

/-- **Exact values merged in two orders have the same sums** and weights. -/
theorem sameSums_of_perm {N : Type} [Arithmetic N] [Arithmetic.Exact N] {v w : ReducedValue N}
    {vs ws : List (ReducedValue N)} (inOrder : ∀ x ∈ v :: vs, x.InOrder)
    (perm : (w :: ws).Perm (v :: vs)) {m m' : ReducedValue N}
    (merged : vs.foldlM merge v = .ok m) (merged' : ws.foldlM merge w = .ok m') :
    SameSums m m' where
  scalars := reading_scalar.perm inOrder perm merged merged'
  weights path min := (reading_weight min).perm inOrder perm merged merged' path

/-- **When and what a merge merges.** Of values whose breakdowns and distributions are tables, as
all are that are read from JSON, come of a query or are merges of such values,

* two merge if and only if no path leads to values of different kinds in them, so either way round,
  and the result is the two put together path by path;
* many merge one after another if they fit two by two, so in one order if in any other, and what
  comes out has one key tree and the same buckets for every order;
* and it has the same sums and weights, if numbers are exact. -/
theorem merge_pathwise :
    (∀ a b : ReducedValue Float, a.InOrder → b.InOrder →
      (a.Fits b ↔
        ∀ path x y, a.at? path = some x → b.at? path = some y → x.shape = y.shape) ∧
      (a.Fits b ↔ b.Fits a) ∧ ∀ m, a.merge b = .ok m → Merged a b m) ∧
    (∀ (v : ReducedValue Float) (vs : List (ReducedValue Float)), (∀ x ∈ v :: vs, x.InOrder) →
      ((∃ m, vs.foldlM merge v = .ok m) ↔ (v :: vs).Pairwise Fits) ∧
      ∀ w ws, (w :: ws).Perm (v :: vs) →
        ((∃ m, vs.foldlM merge v = .ok m) ↔ ∃ m', ws.foldlM merge w = .ok m') ∧
        ∀ m m', vs.foldlM merge v = .ok m → ws.foldlM merge w = .ok m' → SameTree m m') ∧
    ∀ (N : Type) [Arithmetic N] [Arithmetic.Exact N] (v : ReducedValue N)
      (vs : List (ReducedValue N)), (∀ x ∈ v :: vs, x.InOrder) →
      ∀ w ws, (w :: ws).Perm (v :: vs) → ∀ m m', vs.foldlM merge v = .ok m →
        ws.foldlM merge w = .ok m' → SameTree m m' ∧ SameSums m m' := by
  refine ⟨fun a b ha hb => ⟨fits_iff_at? ha.ordered hb.ordered, ?_, fun m merged => ?_⟩,
    fun v vs inOrder => ?_, ?_⟩
  · exact ⟨fun fits => fits.symm ha.ordered hb.ordered, fun fits => fits.symm hb.ordered ha.ordered⟩
  · exact merged_of_merge ha hb merged
  · have hFold : ∀ (w : ReducedValue Float) (ws : List (ReducedValue Float)),
        (∀ x ∈ w :: ws, x.InOrder) → ((∃ m, ws.foldlM merge w = .ok m) ↔ (w :: ws).Pairwise Fits) := by
      intro w ws hws
      rw [List.forall_mem_cons] at hws
      exact foldlM_merge_iff hws.1.ordered fun x hx => (hws.2 x hx).ordered
    refine ⟨hFold v vs inOrder, fun w ws perm => ⟨?_, fun m m' merged merged' => ?_⟩⟩
    · rw [hFold v vs inOrder, hFold w ws fun x hx => inOrder x (perm.mem_iff.mp hx)]
      exact (pairwise_fits_perm inOrder perm).symm
    · exact sameTree_of_perm inOrder perm merged merged'
  · intro N _ _ v vs inOrder w ws perm m m' merged merged'
    exact ⟨sameTree_of_perm inOrder perm merged merged',
      sameSums_of_perm inOrder perm merged merged'⟩

/-- Two hosts and one without anything to report. The empty breakdown fits whatever else is a
breakdown, also two that do not fit each other. -/
theorem merge_pathwise_brief :
    let near : Distribution Float := ⟨[(⟨0.0⟩, 10.0, 1.0)]⟩
    let far : Distribution Float := ⟨[(⟨0.0⟩, 8.0, 3.0), (⟨10.0⟩, 20.0, 1.0)]⟩
    let a : ReducedValue Float := .discrete [("latency", .distribution near), ("ops", .scalar 2.0)]
    let b : ReducedValue Float :=
      .discrete [("bytes", .scalar 5.0), ("latency", .distribution far), ("ops", .scalar 1.0)]
    let nothing : ReducedValue Float := .discrete []
    let other : ReducedValue Float := .discrete [("latency", .scalar 1.0)]
    let one : ReducedValue Extended := .scalar (.finite 1)
    let two : ReducedValue Extended := .scalar (.finite 2)
    (nothing.Fits a ∧ nothing.Fits other ∧ ¬ a.Fits other) ∧
      (∃ m, a.merge b = .ok m ∧ Merged a b m ∧ m.at? ["ops"] = some (.scalar (2.0 + 1.0)) ∧
        m.at? ["bytes"] = some (.scalar 5.0)) ∧
      (∃ m m', [b, nothing].foldlM merge a = .ok m ∧ [a, b].foldlM merge nothing = .ok m' ∧
        SameTree m m') ∧
      ∃ m m', [two].foldlM merge one = .ok m ∧ [one].foldlM merge two = .ok m' ∧ SameSums m m' := by
  intro near far a b nothing other one two
  have hNear : near.table.Ascending := by decide +kernel
  have hFar : far.table.Ascending := by decide +kernel
  have ha : a.InOrder := ⟨by decide +kernel, hNear, trivial, trivial⟩
  have hb : b.InOrder := ⟨by decide +kernel, trivial, hFar, trivial, trivial⟩
  have hNothing : nothing.InOrder := ⟨.nil, trivial⟩
  have hOther : other.InOrder := ⟨by decide +kernel, trivial, trivial⟩
  obtain ⟨hTwo, hMany, hExact⟩ := merge_pathwise
  have hFits : a.Fits b := by decide +kernel
  refine ⟨⟨?_, ?_, ?_⟩, ?_, ?_, ?_⟩
  · exact (hTwo a nothing ha hNothing).2.1.mp (by decide +kernel)
  · exact (hTwo other nothing hOther hNothing).2.1.mp (by decide +kernel)
  · intro fits
    have hKinds := (hTwo a other ha hOther).1.mp fits ["latency"] (.distribution near) (.scalar 1.0)
    cases hKinds rfl rfl
  · obtain ⟨m, hm⟩ := hFits
    have hMerged := (hTwo a b ha hb).2.2 m hm
    exact ⟨m, hm, hMerged, hMerged.scalars ["ops"] 2.0 1.0 rfl rfl,
      hMerged.second ["bytes"] _ rfl rfl⟩
  · have hAll : ∀ x ∈ [a, b, nothing], x.InOrder := by simp [ha, hb, hNothing]
    have hPerm : ([nothing] ++ [a, b]).Perm ([a, b] ++ [nothing]) := List.perm_append_comm
    obtain ⟨hSucceeds, hOrders⟩ := hMany a [b, nothing] hAll
    have hPairwise : [a, b, nothing].Pairwise Fits := by decide +kernel
    obtain ⟨m, hm⟩ := hSucceeds.mpr hPairwise
    obtain ⟨hSame, hTree⟩ := hOrders nothing [a, b] hPerm
    obtain ⟨m', hm'⟩ := hSame.mp ⟨m, hm⟩
    exact ⟨m, m', hm, hm', hTree m m' hm hm'⟩
  · have hPerm : [two, one].Perm [one, two] := .swap _ _ _
    exact ⟨_, _, rfl, rfl, (hExact Extended one [two] (by simp [one, two, InOrder]) two [one] hPerm
      _ _ rfl rfl).2⟩

end ReducedValue

end FleetMetrics
