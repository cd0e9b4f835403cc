import Mathlib
import FleetMetrics.Message.Value
import FleetMetrics.Proofs.Reduction

/-!
# Which values merge

A merge of two values can fail, at any depth of a breakdown. When it does, what had been merged
before the fault stays in the first value, and a merge of many values stops at the first fault. So
it is not plain that whether many values merge is a matter of the values alone, two by two, and not
of their order. It is: values fit two by two, and a merge fits what both of its parts fit, as in a
partial commutative monoid.

A breakdown is a table, so its keys are ascending and it has each of them once. The type does not
say so, `ReducedValue.Ordered` does. Without it nothing here holds: a breakdown that had a key
twice could fail to merge with an empty one. The values of queries are ordered, and so is what
is read from JSON.

Main results:

* `fits_discrete` — breakdowns fit if their common entries do.
* `Fits.symm`, `fits_absorb` — fitting is symmetric, and a merge fits what its parts fit.
* `foldlM_merge_iff` — values merge one after another if any two of them fit.
* `ordered_ofJson`, `Query.ordered_evaluate` — what is reported is ordered.
-/

namespace FleetMetrics

variable {N : Type} [Arithmetic N]

namespace ReducedValue

/-- A value whose breakdowns are tables. -/
inductive Ordered : ReducedValue N → Prop
  | scalar (x : N) : Ordered (.scalar x)
  | distribution (d : Distribution N) : Ordered (.distribution d)
  | discrete (groups : Table String (ReducedValue N)) (sorted : groups.Ascending)
      (entries : ∀ entry ∈ groups, Ordered entry.2) : Ordered (.discrete groups)

/-- Two values fit if they merge. -/
def Fits (a b : ReducedValue N) : Prop :=
  ∃ merged, a.merge b = .ok merged

/-! ## Two values -/

theorem merge_eq_ok {a b m : ReducedValue N} : a.merge b = .ok m ↔ a.absorb b = (m, none) := by
  rw [merge]
  split
  · next value h => rw [h, Except.ok.injEq, Prod.mk.injEq, eq_self, and_true]
  · next fault h => simp [h]

theorem fits_iff {a b : ReducedValue N} : a.Fits b ↔ (a.absorb b).2 = none := by
  constructor
  · rintro ⟨m, hm⟩
    rw [merge_eq_ok.mp hm]
  · intro hNone
    exact ⟨_, merge_eq_ok.mpr (Prod.ext rfl hNone)⟩

instance (a b : ReducedValue N) : Decidable (a.Fits b) :=
  decidable_of_iff ((a.absorb b).2.isNone = true) (by rw [Option.isNone_iff_eq_none, fits_iff])

/-- Values that fit have one shape. -/
theorem Fits.shape_eq {a b : ReducedValue N} (fits : a.Fits b) : a.shape = b.shape := by
  rw [fits_iff] at fits
  cases a <;> cases b <;> first | rfl | simp [absorb] at fits

/-- Values that are no breakdowns fit if they have one shape. -/
theorem fits_leaf {a b : ReducedValue N} (leaf : a.shape ≠ .discrete) :
    a.Fits b ↔ a.shape = b.shape := by
  refine ⟨Fits.shape_eq, fun hShape => ?_⟩
  cases a with
  | scalar x => cases b <;> first | exact ⟨_, rfl⟩ | cases hShape
  | distribution d => cases b <;> first | exact ⟨_, rfl⟩ | cases hShape
  | discrete groups => exact absurd rfl leaf

/-- A merge has the shape of its parts. -/
theorem shape_merge {a b m : ReducedValue N} (merged : a.merge b = .ok m) : m.shape = a.shape := by
  rw [merge_eq_ok] at merged
  cases a <;> cases b <;> simp only [absorb, Prod.mk.injEq] at merged <;> rw [← merged.1] <;> rfl

/-- The common entries of two breakdowns fit, if one is merged into the other without a fault. -/
theorem fits_of_absorbGroups {groups entries : Table String (ReducedValue N)}
    (sorted : groups.Ascending) (sorted' : entries.Ascending)
    (whole : (absorbGroups groups entries).2 = none) {key : String} {x y : ReducedValue N}
    (hx : groups.find? key = some x) (hy : entries.find? key = some y) : x.Fits y := by
  induction entries generalizing groups with
  | nil => cases hy
  | cons entry rest ih =>
    obtain ⟨first, value⟩ := entry
    obtain ⟨-, hRest⟩ := List.pairwise_cons.mp sorted'
    -- the entries further down meet what was there before, under a key of their own
    have hGoOn : ∀ stored, key ≠ first → Table.find? rest key = some y →
        (absorbGroups (groups.insert first stored) rest).2 = none → x.Fits y := by
      intro stored hne hFind hWhole
      refine ih (Table.ascending_insert sorted first stored) hRest hWhole ?_ hFind
      rw [Table.find?_insert sorted, if_neg hne, hx]
    rw [Table.find?_cons] at hy
    rw [absorbGroups] at whole
    by_cases hKey : compare key first = .eq
    · obtain rfl : key = first := Std.LawfulEqOrd.eq_of_compare hKey
      rw [if_pos hKey, Option.some.injEq] at hy
      subst hy
      rw [hx] at whole
      simp only at whole
      split at whole
      · next h => exact fits_iff.mpr (congrArg Prod.snd h)
      · next h => cases whole
    · have hne : key ≠ first := by
        rintro rfl
        exact hKey Std.ReflOrd.compare_self
      rw [if_neg hKey] at hy
      split at whole
      · exact hGoOn _ hne hy whole
      · split at whole
        · exact hGoOn _ hne hy whole
        · cases whole

/-- **Breakdowns fit if their common entries do.** -/
theorem fits_discrete {s t : Table String (ReducedValue N)} (hs : s.Ascending) (ht : t.Ascending) :
    Fits (.discrete s) (.discrete t) ↔
      ∀ key x y, s.find? key = some x → t.find? key = some y → x.Fits y := by
  rw [fits_iff, absorb]
  constructor
  · intro hWhole key x y hx hy
    exact fits_of_absorbGroups hs ht hWhole hx hy
  · intro hFits
    obtain ⟨merged, hMerged, -⟩ := absorbGroups_spec hs ht fun key x y hx hy =>
      fits_iff.mp (hFits key x y hx hy)
    rw [hMerged]

/-- What the merge of two breakdowns has under each key. -/
theorem merge_discrete {s t : Table String (ReducedValue N)} (hs : s.Ascending) (ht : t.Ascending)
    {m : ReducedValue N} (merged : merge (.discrete s) (.discrete t) = .ok m) :
    ∃ u : Table String (ReducedValue N), m = .discrete u ∧ u.Ascending ∧
      ∀ key, u.find? key = (s.find? key).merge (fun x y => (x.absorb y).1) (t.find? key) := by
  have hFits := (fits_discrete hs ht).mp ⟨m, merged⟩
  obtain ⟨u, hMerged, hSorted, hFind⟩ := absorbGroups_spec hs ht fun key x y hx hy =>
    fits_iff.mp (hFits key x y hx hy)
  rw [merge_eq_ok, absorb, hMerged] at merged
  exact ⟨u, (congrArg Prod.fst merged).symm, hSorted, hFind⟩

/-- **Fitting is symmetric.** -/
theorem Fits.symm {a b : ReducedValue N} (ha : a.Ordered) (hb : b.Ordered) (fits : a.Fits b) :
    b.Fits a := by
  induction ha generalizing b with
  | scalar x =>
    cases hb with
    | scalar y => exact ⟨_, rfl⟩
    | _ => cases fits.shape_eq
  | distribution d =>
    cases hb with
    | distribution e => exact ⟨_, rfl⟩
    | _ => cases fits.shape_eq
  | discrete s hs _ ih =>
    cases hb with
    | discrete t ht entries =>
      rw [fits_discrete hs ht] at fits
      refine (fits_discrete ht hs).mpr fun key y x hy hx => ?_
      exact ih _ ((Table.mem_iff_find? hs).mpr hx) (entries _ ((Table.mem_iff_find? ht).mpr hy))
        (fits key x y hx hy)
    | _ => cases fits.shape_eq

/-- A merge of ordered values is ordered. -/
theorem Ordered.merge {a b m : ReducedValue N} (ha : a.Ordered) (hb : b.Ordered)
    (merged : a.merge b = .ok m) : m.Ordered := by
  induction ha generalizing b m with
  | scalar x =>
    cases hb with
    | scalar y =>
      obtain rfl : _ = m := Except.ok.inj merged
      exact .scalar _
    | _ => cases Fits.shape_eq ⟨m, merged⟩
  | distribution d =>
    cases hb with
    | distribution e =>
      obtain rfl : _ = m := Except.ok.inj merged
      exact .distribution _
    | _ => cases Fits.shape_eq ⟨m, merged⟩
  | discrete s hs entries ih =>
    cases hb with
    | discrete t ht entries' =>
      have hFits := (fits_discrete hs ht).mp ⟨m, merged⟩
      obtain ⟨u, rfl, hSorted, hFind⟩ := merge_discrete hs ht merged
      refine .discrete u hSorted fun entry hEntry => ?_
      have hMerged := (hFind entry.1).symm.trans ((Table.mem_iff_find? hSorted).mp hEntry)
      -- an entry is one of the first, one of the second, or the merge of two
      cases hx : s.find? entry.1 with
      | none =>
        rw [hx, Option.merge_none_left] at hMerged
        exact entries' _ ((Table.mem_iff_find? ht).mpr hMerged)
      | some x =>
        have hEntryX := (Table.mem_iff_find? hs).mpr hx
        cases hy : t.find? entry.1 with
        | none =>
          rw [hx, hy, Option.merge_none_right, Option.some.injEq] at hMerged
          rw [← hMerged]
          exact entries _ hEntryX
        | some y =>
          rw [hx, hy, Option.merge_some_some, Option.some.injEq] at hMerged
          have hOk : x.merge y = .ok entry.2 :=
            merge_eq_ok.mpr (Prod.ext hMerged (fits_iff.mp (hFits _ x y hx hy)))
          exact ih _ hEntryX (entries' _ ((Table.mem_iff_find? ht).mpr hy)) hOk
    | _ => cases Fits.shape_eq ⟨m, merged⟩

/-- A merge of leaves fits what either of them fits. -/
theorem fits_merge_leaf {a b c m : ReducedValue N} (leaf : a.shape ≠ .discrete)
    (merged : a.merge b = .ok m) : m.Fits c ↔ a.Fits c ∧ b.Fits c := by
  have hShape : a.shape = b.shape := Fits.shape_eq ⟨m, merged⟩
  rw [fits_leaf (shape_merge merged ▸ leaf), fits_leaf leaf, fits_leaf (hShape ▸ leaf),
    shape_merge merged, ← hShape, and_self]

/-- **A merge fits what both of its parts fit.** -/
theorem fits_merge {a b c m : ReducedValue N} (ha : a.Ordered) (hb : b.Ordered) (hc : c.Ordered)
    (merged : a.merge b = .ok m) : m.Fits c ↔ a.Fits c ∧ b.Fits c := by
  induction ha generalizing b c m with
  | scalar x => exact fits_merge_leaf (by simp [shape]) merged
  | distribution d => exact fits_merge_leaf (by simp [shape]) merged
  | discrete s hs _ ih =>
    cases hb with
    | discrete t ht entries =>
      have hFits := (fits_discrete hs ht).mp ⟨m, merged⟩
      obtain ⟨u, rfl, hu, hFind⟩ := merge_discrete hs ht merged
      cases hc with
      | discrete r hr entries' =>
        -- where both have an entry, the entry of the merge fits what both entries fit
        have hBoth : ∀ key x y z, s.find? key = some x → t.find? key = some y →
            r.find? key = some z → ((x.absorb y).1.Fits z ↔ x.Fits z ∧ y.Fits z) := by
          intro key x y z hx hy hz
          exact ih _ ((Table.mem_iff_find? hs).mpr hx) (entries _ ((Table.mem_iff_find? ht).mpr hy))
            (entries' _ ((Table.mem_iff_find? hr).mpr hz))
            (merge_eq_ok.mpr (Prod.ext rfl (fits_iff.mp (hFits key x y hx hy))))
        rw [fits_discrete hu hr, fits_discrete hs hr, fits_discrete ht hr]
        constructor
        · intro hMerge
          constructor
          · intro key x z hx hz
            cases hy : t.find? key with
            | none => exact hMerge key x z (by rw [hFind, hx, hy]; rfl) hz
            | some y =>
              have hEntry := hMerge key _ z (by rw [hFind, hx, hy]; rfl) hz
              exact ((hBoth key x y z hx hy hz).mp hEntry).1
          · intro key y z hy hz
            cases hx : s.find? key with
            | none => exact hMerge key y z (by rw [hFind, hx, hy]; rfl) hz
            | some x =>
              have hEntry := hMerge key _ z (by rw [hFind, hx, hy]; rfl) hz
              exact ((hBoth key x y z hx hy hz).mp hEntry).2
        · rintro ⟨hFirst, hSecond⟩ key w z hw hz
          rw [hFind] at hw
          cases hx : s.find? key with
          | none =>
            rw [hx, Option.merge_none_left] at hw
            exact hSecond key w z hw hz
          | some x =>
            cases hy : t.find? key with
            | none =>
              rw [hx, hy, Option.merge_none_right] at hw
              exact hFirst key w z (hx.trans hw) hz
            | some y =>
              rw [hx, hy, Option.merge_some_some, Option.some.injEq] at hw
              rw [← hw]
              exact (hBoth key x y z hx hy hz).mpr ⟨hFirst key x z hx hz, hSecond key y z hy hz⟩
      | _ =>
        refine ⟨fun h => ?_, fun h => ?_⟩
        · cases h.shape_eq
        · cases h.1.shape_eq
    | _ => cases Fits.shape_eq ⟨m, merged⟩

/-! ## Many values -/

/-- **Values merge one after another if any two of them fit.** -/
theorem foldlM_merge_iff {v : ReducedValue N} {vs : List (ReducedValue N)} (hv : v.Ordered)
    (hvs : ∀ x ∈ vs, x.Ordered) :
    (∃ m, vs.foldlM merge v = .ok m) ↔ (v :: vs).Pairwise Fits := by
  induction vs generalizing v with
  | nil => exact ⟨fun _ => List.pairwise_singleton _ _, fun _ => ⟨v, rfl⟩⟩
  | cons x rest ih =>
    have hx := hvs x List.mem_cons_self
    have hRest := fun y hy => hvs y (List.mem_cons_of_mem _ hy)
    rw [List.foldlM_cons]
    cases hFirst : v.merge x with
    | error fault =>
      constructor
      · rintro ⟨m, hm⟩
        cases hm
      · intro hPairwise
        obtain ⟨m, hm⟩ := List.rel_of_pairwise_cons hPairwise List.mem_cons_self
        rw [hFirst] at hm
        cases hm
    | ok w =>
      -- the rest merges into what there is now, and that fits what both parts fit
      have hStep : (∃ m, rest.foldlM merge w = .ok m) ↔ (w :: rest).Pairwise Fits :=
        ih (hv.merge hx hFirst) hRest
      have hFits : ∀ y ∈ rest, (w.Fits y ↔ v.Fits y ∧ x.Fits y) := fun y hy =>
        fits_merge hv hx (hRest y hy) hFirst
      refine hStep.trans ?_
      simp only [List.pairwise_cons, List.forall_mem_cons]
      constructor
      · rintro ⟨hAll, hPairwise⟩
        exact ⟨⟨⟨w, hFirst⟩, fun y hy => ((hFits y hy).mp (hAll y hy)).1⟩,
          fun y hy => ((hFits y hy).mp (hAll y hy)).2, hPairwise⟩
      · rintro ⟨⟨-, hAll⟩, hAll', hPairwise⟩
        exact ⟨fun y hy => (hFits y hy).mpr ⟨hAll y hy, hAll' y hy⟩, hPairwise⟩

end ReducedValue

/-! ## What is reported -/

/-- The value of a query is ordered. -/
theorem ordered_reduce (points : List (DataPoint N)) (fields : List (FieldSpec N)) :
    (reduce points fields).Ordered := by
  induction fields generalizing points with
  | nil => exact .scalar _
  | cons f rest ih =>
    cases hArity : f.arity with
    | discrete =>
      obtain ⟨t, hReduce, hSorted, hFind⟩ := reduce_discrete hArity points rest
      rw [hReduce]
      refine .discrete t hSorted fun entry hEntry => ?_
      have hGroup := (hFind entry.1).symm.trans ((Table.mem_iff_find? hSorted).mp hEntry)
      obtain ⟨group, -, hEq⟩ := Option.map_eq_some_iff.mp hGroup
      rw [← hEq]
      exact ih group
    | numeric =>
      rw [reduce_numeric hArity]
      exact .distribution _

/-- What a query evaluates to is in order, so it can be merged. -/
theorem Query.ordered_evaluate (q : Query N) (current : List (Sample N))
    (previous : Option (List (Sample N))) : (q.evaluate current previous).Ordered := by
  rw [evaluate_eq, summarize]
  split
  · rw [zero]
    cases q.decomposition with
    | nil => exact .scalar _
    | cons f rest =>
      rw [ReducedValue.zero]
      cases f.arity with
      | discrete => exact .discrete [] Table.ascending_nil (by simp)
      | numeric => exact .distribution _
  · exact ordered_reduce _ _

namespace ReducedValue

omit [Arithmetic N] in
/-- Pairs of ordered values make an ordered breakdown, in whatever order they come. -/
theorem ordered_ofList {pairs : List (String × ReducedValue N)}
    (ordered : ∀ pair ∈ pairs, pair.2.Ordered) : Ordered (.discrete (Table.ofList pairs)) := by
  refine .discrete _ (Table.ascending_ofList pairs) fun entry hEntry => ?_
  obtain ⟨pair, hPair, hValue⟩ := Table.mem_ofList hEntry
  rw [← hValue]
  exact ordered pair hPair

mutual

/-- What is read from JSON is ordered. -/
theorem ordered_ofJson : ∀ {j : Json N} {v : ReducedValue N}, ofJson? j = some v → v.Ordered
  | .int _, _, read => by
    rw [ofJson?] at read
    rw [← Option.some.inj read]
    exact .scalar _
  | .float _, _, read => by
    rw [ofJson?] at read
    rw [← Option.some.inj read]
    exact .scalar _
  | .array _, _, read => by
    rw [ofJson?] at read
    obtain ⟨_, -, rfl⟩ := Option.map_eq_some_iff.mp read
    exact .distribution _
  | .object _, _, read => by
    rw [ofJson?] at read
    obtain ⟨_, hMembers, rfl⟩ := Option.map_eq_some_iff.mp read
    exact ordered_ofList (ordered_ofMembers hMembers)
  | .null, _, read => by cases read
  | .bool _, _, read => by cases read
  | .string _, _, read => by cases read

/-- Every entry of a breakdown that was read is in order. -/
theorem ordered_ofMembers : ∀ {members : List (String × Json N)}
    {pairs : List (String × ReducedValue N)}, ofMembers? members = some pairs →
      ∀ pair ∈ pairs, pair.2.Ordered
  | [], _, read, pair, mem => by
    rw [ofMembers?] at read
    rw [← Option.some.inj read] at mem
    cases mem
  | (_, _) :: _, _, read, pair, mem => by
    rw [ofMembers?] at read
    obtain ⟨v, hValue, hRest⟩ := Option.bind_eq_some_iff.mp read
    obtain ⟨vs, hValues, hPairs⟩ := Option.bind_eq_some_iff.mp hRest
    rw [← Option.some.inj hPairs] at mem
    rcases List.mem_cons.mp mem with rfl | mem
    · exact ordered_ofJson hValue
    · exact ordered_ofMembers hValues pair mem

end

end ReducedValue

end FleetMetrics
