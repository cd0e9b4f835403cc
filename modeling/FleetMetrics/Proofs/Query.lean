import Mathlib
import FleetMetrics.Query
import FleetMetrics.Proofs.Roster
import FleetMetrics.Proofs.Table

/-!
# What is compiled

A request passes several checks, one after the other, each of which can refuse it, before a query
is compiled from it. `Query.Fits` lists what the checks ask for without their order, and nothing is
wrong with a request exactly if it fits. Later arguments take a request apart by the fields of
`Fits` and never open a check.

Nothing here says which fault is reported when there are several.

Main results:

* `requestFault?_eq_none_iff`, `fault?_eq_none_iff` — nothing is wrong with a request exactly if it
  fits, and what that means of the fields alone.
* `mem_neededNames` — what is expanded: the decomposition, the predicate, the contribution, and the
  host.
* `Expression.eval_congr`, `Predicate.eval_congr` — a predicate depends on nothing but the fields
  that it compares.
-/

namespace FleetMetrics

/-! ## Predicates -/

namespace Expression

variable {N : Type} [Arithmetic N] {x y : FieldMap N}

mutual

/-- Data points that agree on the fields an expression compares satisfy it both or neither. -/
theorem eval_congr : ∀ e : Expression N, (∀ f ∈ e.mentions, x.find? f = y.find? f) →
    e.eval x = e.eval y
  | .join .all parts, alike => by
    rw [eval, eval]
    exact evalAll_congr parts alike
  | .join .any parts, alike => by
    rw [eval, eval]
    exact evalAny_congr parts alike
  | .compare c field literal, alike => by
    rw [eval, eval, alike field (by simp [mentions])]

/-- All of some expressions hold alike if the fields that any of them mentions are alike. -/
theorem evalAll_congr : ∀ es : List (Expression N),
    (∀ f ∈ mentionsAll es, x.find? f = y.find? f) → evalAll x es = evalAll y es
  | [], _ => rfl
  | e :: rest, alike => by
    simp only [mentionsAll, List.mem_append] at alike
    rw [evalAll, evalAll, eval_congr e fun f hf => alike f (.inl hf),
      evalAll_congr rest fun f hf => alike f (.inr hf)]

theorem evalAny_congr : ∀ es : List (Expression N),
    (∀ f ∈ mentionsAll es, x.find? f = y.find? f) → evalAny x es = evalAny y es
  | [], _ => rfl
  | e :: rest, alike => by
    simp only [mentionsAll, List.mem_append] at alike
    rw [evalAny, evalAny, eval_congr e fun f hf => alike f (.inl hf),
      evalAny_congr rest fun f hf => alike f (.inr hf)]

end

/-- An expression stands in another one, or is that one. -/
inductive Within {N : Type} : Expression N → Expression N → Prop
  | whole (e : Expression N) : Within e e
  | part {e part : Expression N} {c : Connective} {parts : List (Expression N)}
      (mem : part ∈ parts) (within : Within e part) : Within e (.join c parts)

mutual

/-- An expression has no fault of its own if no combination in it, at any depth, is empty. -/
theorem emptyJoin?_eq_none_iff {N : Type} : ∀ e : Expression N,
    e.emptyJoin? = none ↔ ∀ c, ¬ (join c []).Within e
  | .join c [] => by
    rw [emptyJoin?]
    exact ⟨nofun, fun none => absurd (.whole _) (none c)⟩
  | .join c (e :: rest) => by
    rw [emptyJoin?, Option.or_eq_none_iff, emptyJoin?_eq_none_iff e,
      firstEmptyJoin?_eq_none_iff rest, ← List.forall_mem_cons (p := fun e => ∀ c,
        ¬ (join c []).Within e)]
    constructor
    · intro parts c' within
      cases within with
      | part mem within => exact parts _ mem c' within
    · exact fun whole part mem c' within => whole c' (.part mem within)
  | .compare c field literal => by
    rw [emptyJoin?]
    exact ⟨fun _ c' within => (nomatch within), fun _ => rfl⟩

/-- A list of expressions has no empty join if none of them has one within. -/
theorem firstEmptyJoin?_eq_none_iff {N : Type} : ∀ es : List (Expression N),
    firstEmptyJoin? es = none ↔ ∀ e ∈ es, ∀ c, ¬ (join c []).Within e
  | [] => by simp [firstEmptyJoin?]
  | e :: rest => by
    rw [firstEmptyJoin?, Option.or_eq_none_iff, emptyJoin?_eq_none_iff e,
      firstEmptyJoin?_eq_none_iff rest, List.forall_mem_cons]

end

end Expression

namespace Predicate

variable {N : Type}

/-- The fields of a predicate are those that its expression mentions; the trivial one has none. -/
theorem mem_fields {p : Predicate N} {f : String} :
    f ∈ p.fields ↔ ∃ e, p.expression = some e ∧ f ∈ e.mentions := by
  unfold fields
  cases p.expression with
  | none => simp
  | some e => simp [Table.mem_keys_ofList_const]

/-- A predicate looks at no field but its own. -/
theorem eval_congr [Arithmetic N] (p : Predicate N) {x y : FieldMap N}
    (alike : ∀ f ∈ p.fields, x.find? f = y.find? f) : p.eval x = p.eval y := by
  unfold eval
  cases hExpression : p.expression with
  | none => rfl
  | some e =>
    exact e.eval_congr fun f hf => alike f (mem_fields.mpr ⟨e, hExpression, hf⟩)

/-- Nothing is wrong with a predicate that joins nothing empty and compares known fields. -/
theorem fault?_eq_none_iff {p : Predicate N} {module stat : String}
    {arityOf : String → Option FieldArity} :
    p.fault? module stat arityOf = none ↔
      p.expression.bind Expression.emptyJoin? = none ∧ ∀ f ∈ p.fields, (arityOf f).isSome := by
  simp only [fault?, Option.or_eq_none_iff, Option.map_eq_none_iff, List.find?_eq_none,
    Option.isNone_iff_eq_none, ← Option.ne_none_iff_isSome, ne_eq]

end Predicate

/-! ## Decompositions -/

/-- A decomposition in which nothing is wrong has known fields only, each once. -/
theorem firstBadField?_eq_none_iff {module stat : String} {arityOf : String → Option FieldArity}
    {seen rest : List String} :
    firstBadField? module stat arityOf seen rest = none ↔
      (∀ f ∈ rest, (arityOf f).isSome) ∧ rest.Nodup ∧ ∀ f ∈ rest, f ∉ seen := by
  induction rest generalizing seen with
  | nil => simp [firstBadField?]
  | cons f rest ih =>
    unfold firstBadField?
    by_cases hSeen : f ∈ seen
    · simp [hSeen]
    · by_cases hKnown : (arityOf f).isNone
      · have hUnknown : ¬ (arityOf f).isSome := by simpa using hKnown
        simp [hSeen, hKnown, hUnknown]
      · have hSome : (arityOf f).isSome := by simpa [Option.isSome_iff_ne_none] using hKnown
        rw [if_neg hSeen, if_neg hKnown, ih, List.forall_mem_cons, List.nodup_cons,
          List.forall_mem_cons]
        -- what comes later is not the field itself, as it was put among those seen
        constructor
        · rintro ⟨hAll, hDistinct, hApart⟩
          exact ⟨⟨hSome, hAll⟩, ⟨fun hMem => hApart f hMem List.mem_cons_self, hDistinct⟩, hSeen,
            fun g hg hIn => hApart g hg (List.mem_cons_of_mem _ hIn)⟩
        · rintro ⟨⟨-, hAll⟩, ⟨hOnce, hDistinct⟩, -, hApart⟩
          refine ⟨hAll, hDistinct, fun g hg hIn => ?_⟩
          rcases List.mem_cons.mp hIn with rfl | hIn
          · exact hOnce hg
          · exact hApart g hg hIn

/-- **Nothing is wrong with a request** for known fields, each once and at most one of them numeric,
with a predicate that joins nothing empty and compares known fields. -/
theorem requestFault?_eq_none_iff {N : Type} {module stat : String} {predicate : Predicate N}
    {decomposition : List String} {arityOf : String → Option FieldArity} :
    requestFault? module stat predicate decomposition arityOf = none ↔
      (∀ f ∈ decomposition, (arityOf f).isSome) ∧ decomposition.Nodup ∧
        (numericFields arityOf decomposition).length ≤ 1 ∧
        predicate.expression.bind Expression.emptyJoin? = none ∧
        ∀ f ∈ predicate.fields, (arityOf f).isSome := by
  have hNumeric : numericFault? arityOf decomposition = none ↔
      (numericFields arityOf decomposition).length ≤ 1 := by
    simp only [numericFault?, ite_eq_right_iff, reduceCtorEq, imp_false, Nat.not_lt]
  simp only [requestFault?, Option.or_eq_none_iff, firstBadField?_eq_none_iff, hNumeric,
    Predicate.fault?_eq_none_iff, List.not_mem_nil, not_false_eq_true, implies_true, and_true,
    and_assoc]

section Arity

variable {arityOf arityOf' : String → Option FieldArity} {names : List String}
  (alike : ∀ n ∈ names, arityOf n = arityOf' n)

include alike

/-- Which fields are numeric depends only on what the descriptor says of the fields named. -/
theorem numericFields_congr : numericFields arityOf names = numericFields arityOf' names :=
  List.filter_congr fun n hn => by rw [alike n hn]

/-- Whether there is a numeric field depends on no more than that. -/
theorem any_numeric_congr :
    (names.any fun n => decide (arityOf n = some .numeric)) =
      names.any fun n => decide (arityOf' n = some .numeric) := by
  rw [Bool.eq_iff_iff, List.any_eq_true, List.any_eq_true]
  exact exists_congr fun n => and_congr_right fun hn => by rw [alike n hn]

end Arity

/-- Ordering a decomposition neither drops a field nor repeats one. -/
theorem orderDecomposition_perm (arityOf : String → Option FieldArity) (names : List String) :
    (orderDecomposition arityOf names).Perm names := by
  have hPerm := List.filter_append_perm (fun n => decide (arityOf n ≠ some .numeric)) names
  simpa [orderDecomposition, numericFields] using hPerm

namespace Descriptor

variable {N : Type} {d : Descriptor N} {n : String}

theorem isSome_arityOf : (d.arityOf n).isSome = (d.field? n).isSome := by
  rw [arityOf, Option.isSome_map]

theorem name_of_field? {f : FieldSpec N} (found : d.field? n = some f) : f.name = n :=
  Roster.name_of_find? found

theorem mem_of_field? {f : FieldSpec N} (found : d.field? n = some f) : f ∈ d.fields :=
  Roster.mem_of_find? found

/-- A field that is declared is found, since no two have one name. -/
theorem field?_of_mem {f : FieldSpec N} (mem : f ∈ d.fields) : d.field? f.name = some f :=
  Roster.find?_of_mem d.distinct mem

/-- Of names that are all known, there is one field each, in order. -/
theorem names_of_known {names : List String} (known : ∀ n ∈ names, (d.field? n).isSome) :
    (names.filterMap d.field?).map (·.name) = names := by
  induction names with
  | nil => rfl
  | cons n rest ih =>
    obtain ⟨field, hField⟩ := Option.isSome_iff_exists.mp (known n List.mem_cons_self)
    rw [List.filterMap_cons, hField, List.map_cons, name_of_field? hField,
      ih fun m hm => known m (List.mem_cons_of_mem _ hm)]

end Descriptor

namespace Query

variable {N : Type} [Arithmetic N] {d : Descriptor N} {p : Predicate N}
  {decomposition : List String}

omit [Arithmetic N] in
/-- A name is needed by the decomposition, the predicate, the contribution, or for the host. -/
theorem mem_neededNames {n : String} :
    n ∈ neededNames d p decomposition ↔ n ∈ decomposition ∨ n ∈ p.fields ∨ n ∈ d.extractUses ∨
      n = hostnameField ∧ (d.field? hostnameField).isSome := by
  unfold neededNames
  rw [Table.mem_keys_ofList_const]
  split
  · next h => simp [h]
  · next h => simp [h]

/-! ## Requests that fit -/

/-- Everything that a query can be compiled from. -/
structure Fits (d : Descriptor N) (p : Predicate N) (decomposition : List String) : Prop where
  known : ∀ n ∈ decomposition, (d.field? n).isSome
  distinct : decomposition.Nodup
  oneNumeric : (numericFields d.arityOf decomposition).length ≤ 1
  /-- No combination without parts. -/
  joined : p.expression.bind Expression.emptyJoin? = none
  compared : ∀ n ∈ p.fields, (d.field? n).isSome
  used : ∀ n ∈ d.extractUses, (d.field? n).isSome
  /-- A numeric field to reduce along has a bucketizer that can be used. -/
  bucketed : ∀ n ∈ decomposition, ∀ f, d.field? n = some f → f.arity = .numeric →
    ∃ b, f.bucketizer = some b ∧ b.isValid = true

omit [Arithmetic N] in
/-- The fields of a query are those of its decomposition. -/
theorem mem_orderedFields {f : FieldSpec N} :
    f ∈ orderedFields d decomposition ↔ ∃ n ∈ decomposition, d.field? n = some f := by
  unfold orderedFields
  rw [List.mem_filterMap]
  exact exists_congr fun n => and_congr_left fun _ =>
    (orderDecomposition_perm d.arityOf decomposition).mem_iff

omit [Arithmetic N] in
/-- What comes first in a reordered decomposition groups. -/
theorem arity_of_mem_grouping {f : FieldSpec N}
    (mem : f ∈ (decomposition.filter fun n => d.arityOf n ≠ some .numeric).filterMap d.field?) :
    f.arity = .discrete := by
  obtain ⟨n, hn, hField⟩ := List.mem_filterMap.mp mem
  have hOther := (List.mem_filter.mp hn).2
  rw [Descriptor.arityOf, hField, Option.map_some] at hOther
  cases h : f.arity with
  | discrete => rfl
  | numeric => simp [h] at hOther

omit [Arithmetic N] in
/-- What comes last is numeric. -/
theorem arity_of_mem_numeric {f : FieldSpec N}
    (mem : f ∈ (numericFields d.arityOf decomposition).filterMap d.field?) :
    f.arity = .numeric := by
  obtain ⟨n, hn, hField⟩ := List.mem_filterMap.mp mem
  have hNumeric := (List.mem_filter.mp hn).2
  rw [Descriptor.arityOf, hField, Option.map_some] at hNumeric
  simpa using hNumeric

/-- There is no fault with the bucketizers if every numeric field has one, and it is valid. -/
theorem bucketizerFault?_eq_none_iff {fields : List (FieldSpec N)} :
    bucketizerFault? fields = none ↔
      ∀ f ∈ fields, f.arity = .numeric → ∃ b, f.bucketizer = some b ∧ b.isValid = true := by
  unfold bucketizerFault?
  rw [List.findSome?_eq_none_iff]
  refine forall₂_congr fun f _ => ?_
  cases f.arity with
  | discrete => simp
  | numeric =>
    cases f.bucketizer with
    | none => simp
    | some b => by_cases h : b.isValid <;> simp [h]

omit [Arithmetic N] in
/-- No field is missing if all of them are declared. -/
theorem missingField?_eq_none_iff {names : List String} :
    missingField? d names = none ↔ ∀ n ∈ names, (d.field? n).isSome := by
  simp only [missingField?, Option.map_eq_none_iff, List.find?_eq_none, Option.isNone_iff_eq_none,
    ← Option.ne_none_iff_isSome, ne_eq]

/-- **Nothing is wrong with a request exactly if it fits.** -/
theorem fault?_eq_none_iff : fault? d p decomposition = none ↔ Fits d p decomposition := by
  simp only [fault?, Option.or_eq_none_iff, requestFault?_eq_none_iff, Descriptor.isSome_arityOf,
    bucketizerFault?_eq_none_iff, missingField?_eq_none_iff, mem_neededNames]
  constructor
  · rintro ⟨⟨hKnown, hDistinct, hOne, hJoined, hCompared⟩, hBucketed, hNeeded⟩
    exact ⟨hKnown, hDistinct, hOne, hJoined, hCompared,
      fun n hn => hNeeded n (.inr (.inr (.inl hn))),
      fun n hn f hf => hBucketed f (mem_orderedFields.mpr ⟨n, hn, hf⟩)⟩
  · rintro ⟨hKnown, hDistinct, hOne, hJoined, hCompared, hUsed, hBucketed⟩
    refine ⟨⟨hKnown, hDistinct, hOne, hJoined, hCompared⟩, fun f hf => ?_, ?_⟩
    · obtain ⟨n, hn, hField⟩ := mem_orderedFields.mp hf
      exact hBucketed n hn f hField
    · -- the name of the host is needed only where there is a field for it
      rintro n (hn | hn | hn | ⟨rfl, hHost⟩)
      · exact hKnown n hn
      · exact hCompared n hn
      · exact hUsed n hn
      · exact hHost

/-- The query compiled from a request that fits. -/
def made (d : Descriptor N) (p : Predicate N) (decomposition : List String) : Query N where
  descriptor := d
  predicate := p
  needed := d.fields.filter fun f => f.name ∈ neededNames d p decomposition
  decomposition := orderedFields d decomposition

/-- What fits is compiled. -/
theorem compile_of_fits (fits : Fits d p decomposition) :
    compile d p decomposition = .ok (made d p decomposition) := by
  rw [compile, fault?_eq_none_iff.mpr fits]
  rfl

/-- Nothing else is compiled, and there is only one query for it. -/
theorem compile_eq_ok {q : Query N} :
    compile d p decomposition = .ok q ↔ Fits d p decomposition ∧ q = made d p decomposition := by
  constructor
  · intro compiled
    have hFits : Fits d p decomposition := by
      rw [← fault?_eq_none_iff]
      unfold compile at compiled
      split at compiled
      · cases compiled
      · assumption
    rw [compile_of_fits hFits] at compiled
    exact ⟨hFits, (Except.ok.inj compiled).symm⟩
  · rintro ⟨hFits, rfl⟩
    exact compile_of_fits hFits

/-- A compiled query is for the descriptor, the predicate and the decomposition that it is compiled
from. -/
theorem of_compile {q : Query N} (compiled : compile d p decomposition = .ok q) :
    q.descriptor = d ∧ q.predicate = p ∧
      (q.decomposition.map (·.name)).Perm decomposition := by
  obtain ⟨hFits, rfl⟩ := compile_eq_ok.mp compiled
  refine ⟨rfl, rfl, ?_⟩
  have hPerm := orderDecomposition_perm d.arityOf decomposition
  have hNames : (orderedFields d decomposition).map (·.name) =
      orderDecomposition d.arityOf decomposition :=
    Descriptor.names_of_known fun n hn => hFits.known n (hPerm.mem_iff.mp hn)
  exact hNames ▸ hPerm

/-- The fields expanded are those whose names are needed. -/
theorem mem_neededFields (fits : Fits d p decomposition) {n : String} :
    n ∈ (made d p decomposition).neededFields ↔ n ∈ neededNames d p decomposition := by
  constructor
  · intro hn
    obtain ⟨f, hf, rfl⟩ := List.mem_map.mp hn
    simpa using (List.mem_filter.mp hf).2
  · intro hn
    have hKnown := missingField?_eq_none_iff.mp
      (Option.or_eq_none_iff.mp (Option.or_eq_none_iff.mp (fault?_eq_none_iff.mpr fits)).2).2 n hn
    obtain ⟨f, hField⟩ := Option.isSome_iff_exists.mp hKnown
    refine List.mem_map.mpr ⟨f, List.mem_filter.mpr ⟨Descriptor.mem_of_field? hField, ?_⟩,
      Descriptor.name_of_field? hField⟩
    simpa [Descriptor.name_of_field? hField] using hn

end Query

end FleetMetrics
