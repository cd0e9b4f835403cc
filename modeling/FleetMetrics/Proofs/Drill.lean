import Mathlib
import FleetMetrics.Proofs.Exact
import FleetMetrics.Proofs.Expansion
import FleetMetrics.Proofs.Query
import FleetMetrics.Proofs.Reduction
import FleetMetrics.Stock

/-!
# Drilling down

A breakdown by a field shows what each value of the field accounts for. To look at one value more
closely a user asks again, with the value in the predicate and the field out of the decomposition,
and expects the entry that the breakdown had for it. The two requests take different ways: the one
groups the data points after all of them have been made, the other never makes the points of other
values.

They meet because the field is needed by both queries, now for the decomposition and now for the
predicate, so both expand the same fields in the same order. The points that the predicate keeps are
then the group of the value, in the order of the group, and the values of a group are added in that
order. Nothing has to be assumed of addition.

Comparing and grouping are different matters, though: a text is equal to itself only, but its key is
also the key of the number that is written like it. So it is assumed that the values of the field
are texts.

Main results:

* `dataPoints_narrow` — the narrowed query has those data points that the comparison keeps.
* `drill_down` — its value is the entry of the breakdown, or the typed zero if there is none.
-/

namespace FleetMetrics

variable {N : Type}

/-! ## Narrowed predicates -/

/-- The field has a text. -/
def Expression.equals (field text : String) : Expression N :=
  .compare .eq field (.text text)

/-- An equality with a text holds at a point that has this text, and not at one that lacks the
field. -/
theorem Expression.eval_equals [Arithmetic N] {field text : String} {point : FieldMap N} :
    (equals field text).eval point = true ↔ point.find? field = some (.text text) := by
  rw [equals, eval]
  cases point.find? field with
  | none => simp
  | some actual =>
    cases actual with
    | number x =>
      -- a number and a text have no order, so they are not equal
      have hApart : Comparison.apply .eq (.number x) (.text text : FieldValue N) = false := rfl
      simp [hApart]
    | text a => simp [Comparison.apply, Comparison.order?, Comparison.accepts]

namespace Predicate

/-- A predicate and an expression; the expression alone where the predicate keeps everything. -/
def narrow (p : Predicate N) (e : Expression N) : Predicate N :=
  ⟨some (match p.expression with
    | some whole => .join .all [whole, e]
    | none => e)⟩

variable (p : Predicate N) (e : Expression N)

/-- A narrowed predicate holds where both the old one and the new condition do. -/
theorem eval_narrow [Arithmetic N] (point : FieldMap N) :
    (p.narrow e).eval point = (p.eval point && e.eval point) := by
  unfold narrow eval
  cases p.expression with
  | none => rw [Bool.true_and]
  | some whole => simp only [Expression.eval, Expression.evalAll, Bool.and_true]

/-- A narrowed predicate looks at the fields of the old one and of the new condition. -/
theorem mem_fields_narrow {n : String} :
    n ∈ (p.narrow e).fields ↔ n ∈ p.fields ∨ n ∈ e.mentions := by
  rw [mem_fields, mem_fields]
  unfold narrow
  cases p.expression with
  | none => simp
  | some whole => simp [Expression.mentions, Expression.mentionsAll]

/-- Narrowing makes no join without parts. -/
theorem emptyJoin?_narrow (joined : p.expression.bind Expression.emptyJoin? = none)
    (whole : e.emptyJoin? = none) :
    (p.narrow e).expression.bind Expression.emptyJoin? = none := by
  unfold narrow
  cases hExpression : p.expression with
  | none => simpa using whole
  | some first =>
    have hFirst : first.emptyJoin? = none := by simpa [hExpression] using joined
    simp [Expression.emptyJoin?, Expression.firstEmptyJoin?, hFirst, whole]

end Predicate

namespace Query

variable [Arithmetic N] {d : Descriptor N} {p : Predicate N} {f : String} {D : List String}

/-! ## The narrowed request -/

omit [Arithmetic N] in
/-- The field is needed either way. -/
theorem mem_neededNames_narrow {text n : String} :
    n ∈ neededNames d (p.narrow (.equals f text)) D ↔ n ∈ neededNames d p (f :: D) := by
  rw [mem_neededNames, mem_neededNames, Predicate.mem_fields_narrow, Expression.equals,
    Expression.mentions, List.mem_singleton, List.mem_cons]
  tauto

/-- A request that fits is still one when a field moves from the decomposition to the predicate. -/
theorem fits_narrow (fits : Fits d p (f :: D)) (text : String) :
    Fits d (p.narrow (.equals f text)) D where
  known n hn := fits.known n (List.mem_cons_of_mem _ hn)
  distinct := (List.nodup_cons.mp fits.distinct).2
  oneNumeric := by
    refine Nat.le_trans ?_ fits.oneNumeric
    exact List.Sublist.length_le ((List.sublist_cons_self f D).filter _)
  joined := p.emptyJoin?_narrow _ fits.joined (by rw [Expression.equals, Expression.emptyJoin?])
  compared n hn := by
    rcases (p.mem_fields_narrow _).mp hn with hn | hn
    · exact fits.compared n hn
    · rw [Expression.equals, Expression.mentions, List.mem_singleton] at hn
      rw [hn]
      exact fits.known f List.mem_cons_self
  used := fits.used
  bucketed n hn := fits.bucketed n (List.mem_cons_of_mem _ hn)

omit [Arithmetic N] in
/-- A grouping field keeps its place at the front. -/
theorem orderedFields_cons {g : FieldSpec N} (found : d.field? f = some g)
    (groups : g.arity = .discrete) : orderedFields d (f :: D) = g :: orderedFields d D := by
  have hArity : d.arityOf f = some .discrete := by
    rw [Descriptor.arityOf, found, Option.map_some, groups]
  simp [orderedFields, orderDecomposition, numericFields, hArity, found]

/-! ## Its data points -/

/-- **The narrowed query has those data points that the comparison keeps**, in their order. -/
theorem dataPoints_narrow (text : String) (pair : SamplePair N) :
    (made d (p.narrow (.equals f text)) D).dataPoints pair =
      ((made d p (f :: D)).dataPoints pair).filter fun point =>
        (Expression.equals f text).eval point.fields := by
  have hNeeded : (made d (p.narrow (.equals f text)) D).needed = (made d p (f :: D)).needed := by
    unfold made
    simp only [mem_neededNames_narrow]
  have hEval : (p.narrow (.equals f text)).eval = fun point =>
      (Expression.equals f text).eval point && p.eval point := by
    funext point
    rw [Predicate.eval_narrow, Bool.and_comm]
  have hKept : (expand (made d p (f :: D)).needed pair).filter (p.narrow (.equals f text)).eval =
      ((expand (made d p (f :: D)).needed pair).filter p.eval).filter
        (Expression.equals f text).eval := by
    rw [hEval, List.filter_filter]
  unfold dataPoints
  rw [hNeeded]
  show List.filterMap _ (List.filter (p.narrow (.equals f text)).eval _) = _
  rw [hKept, List.filterMap_filter, List.filter_filterMap]
  refine List.filterMap_congr fun point _ => ?_
  -- a data point has the fields of the map that it is made of
  show (if _ then (d.extract point pair).map _ else none) =
    Option.filter _ ((d.extract point pair).map _)
  cases d.extract point pair with
  | none => exact ite_self none
  | some value =>
    show (if _ then some _ else none) = Option.filter _ (some _)
    rw [Option.filter_some]

/-- The points of the narrowed query are those of the query with one more field that have the text
there. -/
theorem points_narrow (text : String) (current previous : List (Sample N)) :
    (made d (p.narrow (.equals f text)) D).points current previous =
      ((made d p (f :: D)).points current previous).filter fun point =>
        (Expression.equals f text).eval point.fields := by
  rw [points, points, List.filter_flatMap]
  refine List.flatMap_congr fun s _ => ?_
  cases sampleOf? previous s.key with
  | none => rfl
  | some before => exact dataPoints_narrow text _

/-- The values that a field takes for the samples of a snapshot that have one before them. -/
def Takes (g : FieldSpec N) (current previous : List (Sample N)) (v : FieldValue N) : Prop :=
  ∃ s ∈ current, ∃ before, sampleOf? previous s.key = some before ∧ v ∈ g.values (.of s before)

/-- What a data point has under the name of a field is a value of that field. -/
theorem takes_of_point {g : FieldSpec N} (found : d.field? f = some g)
    {current previous : List (Sample N)} {point : DataPoint N}
    (mem : point ∈ (made d p D).points current previous) {v : FieldValue N}
    (value : point.fields.find? f = some v) : Takes g current previous v := by
  obtain ⟨s, hs, hPoint⟩ := List.mem_flatMap.mp mem
  split at hPoint
  · next before hBefore =>
    refine ⟨s, hs, before, hBefore, ?_⟩
    obtain ⟨fields, hFields, hExtract⟩ := List.mem_filterMap.mp hPoint
    obtain ⟨x, -, rfl⟩ := Option.map_eq_some_iff.mp hExtract
    obtain ⟨column, hColumn, hName, hv⟩ :=
      column_of_mem_cartesian (List.mem_filter.mp hFields).1 value
    obtain ⟨h, hh, rfl⟩ := List.mem_map.mp hColumn
    -- the metric has one field of that name
    have hSame : d.field? f = some h := by
      rw [← hName]
      exact Descriptor.field?_of_mem (List.mem_filter.mp hh).1
    rw [Option.some.inj (found.symm.trans hSame)]
    exact hv
  · cases hPoint

/-- Among points whose values are texts, the group of a text has those that are equal to it. -/
theorem filter_equals {points : List (DataPoint N)}
    (texts : ∀ point ∈ points, ∀ v, point.fields.find? f = some v → ∃ t, v = .text t)
    (text : String) :
    (points.filter fun point => (Expression.equals f text).eval point.fields) =
      points.filter (·.inGroup f text) := by
  refine List.filter_congr fun point hPoint => ?_
  rw [Bool.eq_iff_iff, Expression.eval_equals, DataPoint.inGroup, decide_eq_true_eq,
    Option.map_eq_some_iff]
  constructor
  · intro hFound
    exact ⟨.text text, hFound, rfl⟩
  · rintro ⟨v, hFound, hKey⟩
    obtain ⟨t, rfl⟩ := texts point hPoint v hFound
    rw [hFound, ← hKey]
    rfl

/-! ## Its value -/

/-- The value of some points is their reduction, if there are any. -/
theorem summarize_eq_getD (q : Query N) (points : List (DataPoint N)) :
    q.summarize points = ((nonempty? points).map (reduce · q.decomposition)).getD q.zero := by
  cases points <;> rfl

/-- A query that groups yields a breakdown, which has under each key the reduction of a group. -/
theorem summarize_discrete (q : Query N) {g : FieldSpec N} {rest : List (FieldSpec N)}
    (first : q.decomposition = g :: rest) (groups : g.arity = .discrete)
    (points : List (DataPoint N)) :
    ∃ t : Table String (ReducedValue N), q.summarize points = .discrete t ∧ t.Ascending ∧
      ∀ key, t.find? key =
        (nonempty? (points.filter (·.inGroup g.name key))).map (reduce · rest) := by
  cases points with
  | nil =>
    refine ⟨[], ?_, Table.ascending_nil, fun key => rfl⟩
    show ReducedValue.zero q.decomposition = _
    rw [first, ReducedValue.zero, groups]
  | cons point points =>
    show ∃ t, reduce (point :: points) q.decomposition = _ ∧ _
    rw [first]
    exact reduce_discrete groups (point :: points) rest

/-- **Filtering and grouping agree.** Let a predicate compile with a decomposition that begins with
a grouping field. Then the predicate narrowed to one text of the field compiles with the rest of the
decomposition. On snapshots for which the values of the field are texts, the first query yields a
breakdown, and the second what the breakdown has for the text, to the last bit; where it has
nothing, the second yields the typed zero of the rest. -/
theorem drill_down (groups : d.arityOf f = some .discrete) {q : Query N}
    (compiled : compile d p (f :: D) = .ok q) (text : String) :
    ∃ q', compile d (p.narrow (.equals f text)) D = .ok q' ∧
      ∀ (current : List (Sample N)) (previous : Option (List (Sample N))),
        (∀ g before v, d.field? f = some g → previous = some before → Takes g current before v →
          ∃ t, v = .text t) →
        ∃ t : Table String (ReducedValue N), q.evaluate current previous = .discrete t ∧
          t.Ascending ∧
          q'.evaluate current previous = (t.find? text).getD (.zero (orderedFields d D)) := by
  obtain ⟨hFits, rfl⟩ := compile_eq_ok.mp compiled
  refine ⟨_, compile_of_fits (fits_narrow hFits text), fun current previous texts => ?_⟩
  obtain ⟨g, hField, hArity⟩ := Option.map_eq_some_iff.mp groups
  have hFirst : (made d p (f :: D)).decomposition = g :: orderedFields d D :=
    orderedFields_cons hField hArity
  -- without a snapshot before there are no points on either side
  have hPoints : ((previous.map ((made d (p.narrow (.equals f text)) D).points current)).getD []) =
      ((previous.map ((made d p (f :: D)).points current)).getD []).filter
        (·.inGroup f text) := by
    cases previous with
    | none => rfl
    | some before =>
      rw [Option.map_some, Option.map_some, Option.getD_some, Option.getD_some, points_narrow]
      exact filter_equals (fun point hPoint v hv =>
        texts g before v hField rfl (takes_of_point hField hPoint hv)) text
  obtain ⟨t, hValue, hSorted, hFind⟩ := summarize_discrete _ hFirst hArity
    ((previous.map ((made d p (f :: D)).points current)).getD [])
  refine ⟨t, (evaluate_eq _ _ _).trans hValue, hSorted, ?_⟩
  rw [evaluate_eq, hPoints, summarize_eq_getD, hFind, Descriptor.name_of_field? hField]
  rfl

/-- The bytes of two links, by link and by direction. What the query for one link yields is the
entry of the link, and a link that is not there has sent and received nothing. -/
theorem drill_down_links :
    let d : Descriptor Extended := Stock.linkBytes
    let link (name : String) (sent received : Extended) : Sample Extended :=
      ⟨"nic:" ++ name, 0, [("obytes64", sent), ("rbytes64", received)], [("name", name)]⟩
    let current := [link "e0" (.finite 7) (.finite 4), link "e1" (.finite 9) (.finite 5)]
    let before := [link "e0" (.finite 1) (.finite 2), link "e1" (.finite 3) (.finite 3)]
    let narrowed (name : String) := Predicate.narrow .trivial (.equals "nic" name)
    let q := made d .trivial ["nic", "direction"]
    ∃ q₀ q₉ : Query Extended, ∃ t : Table String (ReducedValue Extended),
      compile d (narrowed "e0") ["direction"] = .ok q₀ ∧
      compile d (narrowed "e9") ["direction"] = .ok q₉ ∧
      q.evaluate current (some before) = .discrete t ∧
      t.find? "e0" = some (q₀.evaluate current (some before)) ∧ t.find? "e9" = none ∧
      q₉.evaluate current (some before) = .discrete [] := by
  intro d link current before narrowed q
  have hCompiled : compile d .trivial ["nic", "direction"] = .ok q :=
    compile_of_fits (fault?_eq_none_iff.mp (by decide))
  have hTexts : ∀ g pre v, d.field? "nic" = some g → some before = some pre →
      Takes g current pre v → ∃ t, v = .text t := by
    rintro g pre v hField - ⟨s, -, old, -, hv⟩
    obtain rfl : Stock.linkName = g := Option.some.inj hField
    obtain ⟨t, -, rfl⟩ := Option.map_eq_some_iff.mp (Option.mem_toList.mp hv)
    exact ⟨t, rfl⟩
  obtain ⟨q₀, hCompiled₀, hDrill₀⟩ := drill_down (by decide) hCompiled "e0"
  obtain ⟨q₉, hCompiled₉, hDrill₉⟩ := drill_down (by decide) hCompiled "e9"
  obtain ⟨t, hValue, hSorted, hEntry₀⟩ := hDrill₀ current (some before) hTexts
  obtain ⟨t₉, hValue₉, -, hEntry₉⟩ := hDrill₉ current (some before) hTexts
  obtain rfl : t = t₉ := ReducedValue.discrete.inj (hValue.symm.trans hValue₉)
  -- which links there are is read off the breakdown
  have hKeys : t.keys = ["e0", "e1"] := by
    obtain ⟨t', hRead, hKeys⟩ : ∃ t' : Table String (ReducedValue Extended),
        q.evaluate current (some before) = .discrete t' ∧ t'.keys = ["e0", "e1"] :=
      ⟨_, rfl, by decide +kernel⟩
    rwa [ReducedValue.discrete.inj (hValue.symm.trans hRead)]
  obtain ⟨v, hv⟩ := Option.isSome_iff_exists.mp
    ((Table.mem_keys_iff hSorted).mp (show "e0" ∈ t.keys by simp [hKeys]))
  have hNone : t.find? "e9" = none := by
    have hMissing := (Table.mem_keys_iff hSorted).not.mp (show "e9" ∉ t.keys by simp [hKeys])
    rwa [Bool.not_eq_true, Option.isSome_eq_false_iff, Option.isNone_iff_eq_none] at hMissing
  rw [hv, Option.getD_some] at hEntry₀
  rw [hNone, Option.getD_none] at hEntry₉
  exact ⟨q₀, q₉, t, hCompiled₀, hCompiled₉, hValue, hEntry₀ ▸ hv, hNone, hEntry₉⟩

end Query

end FleetMetrics
