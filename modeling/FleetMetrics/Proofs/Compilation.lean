import Mathlib
import FleetMetrics.Proofs.Binary64
import FleetMetrics.Proofs.Expansion.Choices
import FleetMetrics.Proofs.Query

/-!
# When a request compiles, and to what

A field that a predicate compares but a data point lacks does not fail: the comparison is false. A
field that the decomposition asks for but a data point lacks does not fail either: the point drops
out. So a name that got lost on the way from a request to a query would not be reported, it would
show as values that are too small. The checks before compilation refuse every name that the metric
does not know, and compilation gathers every name that is read later; then each data point has
exactly these fields, and nothing that is looked up in it is absent.

`Query.Fits` already says what the checks ask for, in terms of what they compute. `Compilable` says
it of the request itself: of the comparisons that stand in the predicate at any depth, and of the
fields of the descriptor. A descriptor has distinct names by its type, however it was put together.
Which fault is reported when there are several is not said.

Main results:

* `fits_iff_compilable` — the checks ask for nothing else.
* `Compiled.of_fits` — the decomposition, the fields to expand, and the data points of a query.
* `compiles_iff_compilable` — both, for every descriptor, predicate and decomposition.
-/

namespace FleetMetrics

variable {N : Type}

/-! ## What a request says -/

namespace Expression

mutual

/-- The fields that an expression mentions are those of the comparisons that stand in it. -/
theorem mem_mentions_iff {field : String} : ∀ e : Expression N,
    field ∈ e.mentions ↔ ∃ c literal, (compare c field literal).Within e
  | .join c parts => by
    rw [mentions, mem_mentionsAll_iff parts]
    constructor
    · rintro ⟨part, hPart, c', literal, hWithin⟩
      exact ⟨c', literal, .part hPart hWithin⟩
    · rintro ⟨c', literal, hWithin⟩
      cases hWithin with
      | part hPart hWithin => exact ⟨_, hPart, c', literal, hWithin⟩
  | .compare c name literal => by
    rw [mentions, List.mem_singleton]
    constructor
    · rintro rfl
      exact ⟨c, literal, .whole _⟩
    · rintro ⟨c', literal', hWithin⟩
      cases hWithin with
      | whole => rfl

/-- A field is mentioned by a list of expressions if one of them compares it somewhere within. -/
theorem mem_mentionsAll_iff {field : String} : ∀ es : List (Expression N),
    field ∈ mentionsAll es ↔ ∃ e ∈ es, ∃ c literal, (compare c field literal).Within e
  | [] => by simp [mentionsAll]
  | e :: rest => by
    rw [mentionsAll, List.mem_append, mem_mentions_iff e, mem_mentionsAll_iff rest]
    simp only [List.mem_cons, exists_eq_or_imp]

end

end Expression

namespace Predicate

/-- An expression stands in a predicate, at any depth. -/
def Contains (p : Predicate N) (e : Expression N) : Prop :=
  ∃ whole, p.expression = some whole ∧ e.Within whole

/-- A predicate compares a field with something. -/
def Compares (p : Predicate N) (field : String) : Prop :=
  ∃ c literal, p.Contains (.compare c field literal)

/-- The fields of a predicate are those that it compares. -/
theorem mem_fields_iff {p : Predicate N} {field : String} :
    field ∈ p.fields ↔ p.Compares field := by
  rw [mem_fields]
  constructor
  · rintro ⟨e, hWhole, hMention⟩
    obtain ⟨c, literal, hWithin⟩ := e.mem_mentions_iff.mp hMention
    exact ⟨c, literal, e, hWhole, hWithin⟩
  · rintro ⟨c, literal, e, hWhole, hWithin⟩
    exact ⟨e, hWhole, e.mem_mentions_iff.mpr ⟨c, literal, hWithin⟩⟩

/-- A predicate joins nothing empty if no empty combination stands in it. -/
theorem joined_iff {p : Predicate N} :
    p.expression.bind Expression.emptyJoin? = none ↔ ∀ c, ¬ p.Contains (.join c []) := by
  cases hWhole : p.expression with
  | none => simp [Contains, hWhole]
  | some e =>
    rw [Option.bind_some, Expression.emptyJoin?_eq_none_iff]
    refine forall_congr' fun c => not_congr ?_
    simp [Contains, hWhole]

end Predicate

namespace Descriptor

/-- A metric has a field of a name. -/
def Has (d : Descriptor N) (name : String) : Prop :=
  ∃ f ∈ d.fields, f.name = name

variable {d : Descriptor N} {name : String}

/-- A field is found if the descriptor has it. -/
theorem isSome_field? : (d.field? name).isSome ↔ d.Has name := by
  constructor
  · intro hSome
    obtain ⟨f, hField⟩ := Option.isSome_iff_exists.mp hSome
    exact ⟨f, mem_of_field? hField, name_of_field? hField⟩
  · rintro ⟨f, hMem, rfl⟩
    rw [field?_of_mem hMem]
    rfl

/-- The kind of a field is the declared one. -/
theorem arityOf_eq_some {arity : FieldArity} :
    d.arityOf name = some arity ↔ ∃ f ∈ d.fields, f.name = name ∧ f.arity = arity := by
  rw [arityOf, Option.map_eq_some_iff]
  constructor
  · rintro ⟨f, hField, hArity⟩
    exact ⟨f, mem_of_field? hField, name_of_field? hField, hArity⟩
  · rintro ⟨f, hMem, rfl, hArity⟩
    exact ⟨f, field?_of_mem hMem, hArity⟩

end Descriptor

/-! ## What compiles -/

namespace Query

variable [Arithmetic N] {d : Descriptor N} {p : Predicate N} {D : List String}

/-- A request that a query can be compiled from. -/
structure Compilable (d : Descriptor N) (p : Predicate N) (D : List String) : Prop where
  distinct : D.Nodup
  known : ∀ n ∈ D, d.Has n
  compared : ∀ n, p.Compares n → d.Has n
  oneNumeric : ∀ f ∈ d.fields, ∀ g ∈ d.fields, f.name ∈ D → g.name ∈ D →
    f.arity = .numeric → g.arity = .numeric → f = g
  /-- No combination is empty, at any depth. -/
  joined : ∀ c, ¬ p.Contains (.join c [])
  bucketed : ∀ f ∈ d.fields, f.name ∈ D → f.arity = .numeric →
    ∃ b, f.bucketizer = some b ∧ b.isValid = true
  used : ∀ n ∈ d.extractUses, d.Has n

omit [Arithmetic N] in
/-- The numeric fields of a decomposition are those that are declared numeric. -/
theorem mem_numericFields {n : String} :
    n ∈ numericFields d.arityOf D ↔ n ∈ D ∧ ∃ f ∈ d.fields, f.name = n ∧ f.arity = .numeric := by
  rw [numericFields, List.mem_filter, decide_eq_true_eq, Descriptor.arityOf_eq_some]

omit [Arithmetic N] in
/-- At most one name is that of a numeric field, counted or compared two by two. -/
theorem oneNumeric_iff (distinct : D.Nodup) :
    (numericFields d.arityOf D).length ≤ 1 ↔
      ∀ f ∈ d.fields, ∀ g ∈ d.fields, f.name ∈ D → g.name ∈ D →
        f.arity = .numeric → g.arity = .numeric → f = g := by
  have hDistinct : (numericFields d.arityOf D).Nodup := distinct.filter _
  rw [← List.toFinset_card_of_nodup hDistinct, Finset.card_le_one]
  simp only [List.mem_toFinset, mem_numericFields]
  constructor
  · intro hSame f hf g hg hfD hgD hfNumeric hgNumeric
    have hName := hSame f.name ⟨hfD, f, hf, rfl, hfNumeric⟩ g.name ⟨hgD, g, hg, rfl, hgNumeric⟩
    -- a name stands for one field
    have hField := Descriptor.field?_of_mem hf
    rw [hName, Descriptor.field?_of_mem hg] at hField
    exact (Option.some.inj hField).symm
  · rintro hSame _ ⟨hfD, f, hf, rfl, hfNumeric⟩ _ ⟨hgD, g, hg, rfl, hgNumeric⟩
    rw [hSame f hf g hg hfD hgD hfNumeric hgNumeric]

/-- **The checks ask for what makes a request compilable**, and for nothing else. -/
theorem fits_iff_compilable : Fits d p D ↔ Compilable d p D := by
  -- a look-up finds a name exactly if some field has it; otherwise the conditions are the same
  constructor
  · intro fits
    exact {
      distinct := fits.distinct
      known := fun n hn => Descriptor.isSome_field?.mp (fits.known n hn)
      compared := fun n hn =>
        Descriptor.isSome_field?.mp (fits.compared n (Predicate.mem_fields_iff.mpr hn))
      oneNumeric := (oneNumeric_iff fits.distinct).mp fits.oneNumeric
      joined := Predicate.joined_iff.mp fits.joined
      bucketed := fun f hf hD =>
        fits.bucketed f.name hD f (Descriptor.field?_of_mem hf)
      used := fun n hn => Descriptor.isSome_field?.mp (fits.used n hn) }
  · intro compilable
    exact {
      known := fun n hn => Descriptor.isSome_field?.mpr (compilable.known n hn)
      distinct := compilable.distinct
      oneNumeric := (oneNumeric_iff compilable.distinct).mpr compilable.oneNumeric
      joined := Predicate.joined_iff.mpr compilable.joined
      compared := fun n hn =>
        Descriptor.isSome_field?.mpr (compilable.compared n (Predicate.mem_fields_iff.mp hn))
      used := fun n hn => Descriptor.isSome_field?.mpr (compilable.used n hn)
      bucketed := fun n hn f hField => by
        obtain rfl := Descriptor.name_of_field? hField
        exact compilable.bucketed f (Descriptor.mem_of_field? hField) hn }

/-! ## What it compiles to -/

/-- A query is what a request says. -/
structure Compiled (d : Descriptor N) (p : Predicate N) (D : List String) (q : Query N) :
    Prop where
  descriptor : q.descriptor = d
  predicate : q.predicate = p
  /-- The decomposition is that of the request, in its order but for the numeric field, which comes
  last. -/
  reordered : ∃ (groups : List (FieldSpec N)) (numeric : Option (FieldSpec N)),
    q.decomposition = groups ++ numeric.toList ∧ (∀ f ∈ groups, f.arity = .discrete) ∧
      (∀ f ∈ numeric, f.arity = .numeric) ∧ (groups.map (·.name)).Sublist D ∧
      (q.decomposition.map (·.name)).Perm D ∧ ∀ f ∈ q.decomposition, f ∈ d.fields
  needed : ∀ n, n ∈ q.neededFields ↔
    n ∈ D ∨ p.Compares n ∨ n ∈ d.extractUses ∨ n = hostnameField ∧ d.Has hostnameField
  /-- Each name once, in the order of the descriptor. -/
  listed : q.neededFields.Nodup ∧ q.neededFields.Sublist (d.fields.map (·.name))
  /-- A data point has exactly the fields that are needed. -/
  carried : ∀ pair, ∀ point ∈ q.dataPoints pair, point.fields.keys.Perm q.neededFields
  /-- Nothing that the predicate, the contribution or the reduction looks up is absent; the first
  two look into every map of the expansion. -/
  met : ∀ pair, ∀ fields ∈ expand q.needed pair,
    (∀ n, p.Compares n → ∃ v, fields.find? n = some v) ∧
      (∀ n ∈ d.extractUses, ∃ v, fields.find? n = some v) ∧
      ∀ f ∈ q.decomposition, ∃ v, fields.find? f.name = some v

omit [Arithmetic N] in
/-- The fields to expand have distinct names, in the order of the descriptor. -/
theorem neededFields_listed (d : Descriptor N) (p : Predicate N) (D : List String) :
    (made d p D).neededFields.Nodup ∧
      (made d p D).neededFields.Sublist (d.fields.map (·.name)) := by
  have hSublist : (made d p D).neededFields.Sublist (d.fields.map (·.name)) :=
    List.filter_sublist.map _
  exact ⟨d.distinct.sublist hSublist, hSublist⟩

omit [Arithmetic N] in
/-- Every map of the expansion has the fields that are needed. -/
theorem keys_of_mem_expand {pair : SamplePair N} {fields : FieldMap N}
    (mem : fields ∈ expand (made d p D).needed pair) :
    fields.keys.Perm (made d p D).neededFields := by
  -- the columns of the expansion are named by the needed fields
  have hNames : ((made d p D).needed.map fun f => (f.name, f.values pair)).map (·.1) =
      (made d p D).neededFields := by
    rw [List.map_map]
    rfl
  have hDistinct := (neededFields_listed d p D).1
  rw [← hNames] at hDistinct ⊢
  exact keys_of_mem_cartesian hDistinct mem

omit [Arithmetic N] in
/-- The decomposition keeps the order of the request and puts the numeric field last. -/
theorem reordered_orderedFields (known : ∀ n ∈ D, (d.field? n).isSome)
    (oneNumeric : (numericFields d.arityOf D).length ≤ 1) :
    ∃ (groups : List (FieldSpec N)) (numeric : Option (FieldSpec N)),
      orderedFields d D = groups ++ numeric.toList ∧ (∀ f ∈ groups, f.arity = .discrete) ∧
        (∀ f ∈ numeric, f.arity = .numeric) ∧ (groups.map (·.name)).Sublist D := by
  have hOne : ((numericFields d.arityOf D).filterMap d.field?).length ≤ 1 :=
    (List.length_filterMap_le _ _).trans oneNumeric
  refine ⟨(D.filter fun n => d.arityOf n ≠ some .numeric).filterMap d.field?,
    ((numericFields d.arityOf D).filterMap d.field?).head?, ?_,
    fun f hf => arity_of_mem_grouping hf,
    fun f hf => arity_of_mem_numeric (List.mem_of_head? hf), ?_⟩
  · -- of one element at most, the first is all there is
    rw [← List.take_one, List.take_of_length_le hOne]
    exact List.filterMap_append
  · rw [Descriptor.names_of_known fun n hn => known n (List.mem_filter.mp hn).1]
    exact List.filter_sublist

/-- **What a request compiles to.** -/
theorem Compiled.of_fits (fits : Fits d p D) : Compiled d p D (made d p D) := by
  have hNeeded : ∀ n, n ∈ (made d p D).neededFields ↔
      n ∈ D ∨ p.Compares n ∨ n ∈ d.extractUses ∨ n = hostnameField ∧ d.Has hostnameField := by
    intro n
    rw [mem_neededFields fits, mem_neededNames, Predicate.mem_fields_iff, Descriptor.isSome_field?]
  -- every name that is looked up is needed, and what is needed is there
  have hMet : ∀ {pair : SamplePair N} {fields : FieldMap N},
      fields ∈ expand (made d p D).needed pair → ∀ n ∈ (made d p D).neededFields,
        ∃ v, fields.find? n = some v := by
    intro pair fields hFields n hn
    have hKey := (keys_of_mem_expand hFields).mem_iff.mpr hn
    rw [Table.mem_keys_iff (ascending_of_mem_cartesian hFields)] at hKey
    exact Option.isSome_iff_exists.mp hKey
  obtain ⟨-, -, hPerm⟩ := of_compile (compile_of_fits fits)
  obtain ⟨groups, numeric, hOrdered, hGroups, hNumeric, hSublist⟩ :=
    reordered_orderedFields fits.known fits.oneNumeric
  refine {
    descriptor := rfl
    predicate := rfl
    reordered := ⟨groups, numeric, hOrdered, hGroups, hNumeric, hSublist, hPerm, ?_⟩
    needed := hNeeded
    listed := neededFields_listed d p D
    carried := ?_
    met := ?_ }
  · intro f hf
    obtain ⟨n, -, hField⟩ := mem_orderedFields.mp hf
    exact Descriptor.mem_of_field? hField
  · intro pair point hPoint
    obtain ⟨fields, hFields, hExtract⟩ := List.mem_filterMap.mp hPoint
    obtain ⟨value, -, rfl⟩ := Option.map_eq_some_iff.mp hExtract
    exact keys_of_mem_expand (List.mem_filter.mp hFields).1
  · intro pair fields hFields
    refine ⟨fun n hn => ?_, fun n hn => ?_, fun f hf => ?_⟩
    · exact hMet hFields n ((hNeeded n).mpr (.inr (.inl hn)))
    · exact hMet hFields n ((hNeeded n).mpr (.inr (.inr (.inl hn))))
    · exact hMet hFields f.name ((hNeeded f.name).mpr
        (.inl (hPerm.mem_iff.mp (List.mem_map_of_mem hf))))

/-- **Compilation characterised.** A request compiles exactly if it is compilable, and then the
query is what the request says. -/
theorem compiles_iff_compilable (d : Descriptor N) (p : Predicate N) (D : List String) :
    ((∃ q, compile d p D = .ok q) ↔ Compilable d p D) ∧
      ∀ q, compile d p D = .ok q → Compiled d p D q := by
  refine ⟨⟨?_, fun compilable => ?_⟩, fun q compiled => ?_⟩
  · rintro ⟨q, compiled⟩
    exact fits_iff_compilable.mp (compile_eq_ok.mp compiled).1
  · exact ⟨_, compile_of_fits (fits_iff_compilable.mpr compilable)⟩
  · obtain ⟨hFits, rfl⟩ := compile_eq_ok.mp compiled
    exact .of_fits hFits

/-- A query for the operations of one disk, by size and kind. The size comes last, the disk is
expanded for the predicate, and the host because the metric carries it; the latency is not. -/
theorem compiles_iff_compilable_brief :
    let disk : FieldSpec Float := .fromAttribute "disk" "disk" "disk"
    let kind : FieldSpec Float := .fixed "optype" "type" ["read", "write"]
    let size : FieldSpec Float := .numeric "size" "size" (.linear 1024.0) fun _ => [.number 512.0]
    let latency : FieldSpec Float := .discrete "latency" "latency" fun _ => []
    let d := (((((Descriptor.new "m" "s" "S" "u").field disk).field latency).field kind).field
      size).withHostname "web1" |>.withExtract ["optype"] fun _ _ => some 1.0
    let p : Predicate Float := ⟨some (.compare .eq "disk" (.text "sda"))⟩
    let q := made d p ["size", "optype"]
    let sample : Sample Float := ⟨"disk:0", 0, [], [("disk", "sda")]⟩
    compile d p ["size", "optype"] = .ok q ∧ Compilable d p ["size", "optype"] ∧
      Compiled d p ["size", "optype"] q ∧ q.decomposition.map (·.name) = ["optype", "size"] ∧
      q.neededFields = ["disk", "optype", "size", "hostname"] ∧
      (q.dataPoints (.of sample sample)).length = 2 ∧
      ∀ point ∈ q.dataPoints (.of sample sample),
        point.fields.keys.Perm ["disk", "optype", "size", "hostname"] := by
  intro disk kind size latency d p q sample
  have hCompiled : compile d p ["size", "optype"] = .ok q :=
    compile_of_fits (fault?_eq_none_iff.mp (by decide +kernel))
  have hQuery := (compiles_iff_compilable d p ["size", "optype"]).2 q hCompiled
  have hNeeded : q.neededFields = ["disk", "optype", "size", "hostname"] := by decide +kernel
  refine ⟨hCompiled, (compiles_iff_compilable d p ["size", "optype"]).1.mp ⟨q, hCompiled⟩, hQuery,
    by decide +kernel, hNeeded, by decide +kernel, ?_⟩
  rw [← hNeeded]
  exact hQuery.carried _

end Query

end FleetMetrics
