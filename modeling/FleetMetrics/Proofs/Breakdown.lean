import Mathlib
import FleetMetrics.Proofs.Exact
import FleetMetrics.Proofs.Expansion
import FleetMetrics.Proofs.Query
import FleetMetrics.Proofs.Stock

/-!
# Another breakdown of the same contributions

Two queries with one predicate over one metric, which differ in what they break down by, should be
about the same contributions. They do not expand the same fields, though, and the expansion decides
how many data points there are, which of them the predicate keeps, what they contribute and in
which order they come. A field that is expanded for one query only must not be seen in any of that.

The predicate and the contribution do not see it, since what they read is needed by both queries.
The number and the order of the points do not show it either if the field has one value. With two
values each contribution would count twice, with none it would be lost: this is assumed away here,
and the stock metrics meet the assumption on samples that have the attributes they are to be broken
down by.

Main results:

* `parallel_of_single` — the data points of two such queries agree one by one.
* `breakdown_sound` — so it is for every metric, and in particular for the stock metrics.
-/

namespace FleetMetrics

variable {N : Type} [Arithmetic N]

namespace Query

/-- The queries have equally many data points, with the same contributions in the same order, and
points at one place agree on every field that both queries need. -/
structure Parallel (q₁ q₂ : Query N) (p : SamplePair N) : Prop where
  length : (q₁.dataPoints p).length = (q₂.dataPoints p).length
  values : (q₁.dataPoints p).map (·.value) = (q₂.dataPoints p).map (·.value)
  fields : List.Forall₂
    (fun x y : DataPoint N => ∀ n ∈ q₁.neededFields, n ∈ q₂.neededFields →
      x.fields.find? n = y.fields.find? n)
    (q₁.dataPoints p) (q₂.dataPoints p)

/-- A field that one of two queries needs and the other does not. -/
def NeededByOne (q₁ q₂ : Query N) (f : FieldSpec N) : Prop :=
  f.name ∈ q₁.neededFields ∧ f.name ∉ q₂.neededFields ∨
    f.name ∈ q₂.neededFields ∧ f.name ∉ q₁.neededFields

omit [Arithmetic N] in
instance (q₁ q₂ : Query N) (f : FieldSpec N) : Decidable (NeededByOne q₁ q₂ f) :=
  inferInstanceAs (Decidable (_ ∨ _))

/-- Is a field needed for a decomposition? -/
def needs (d : Descriptor N) (p : Predicate N) (decomposition : List String) (n : String) : Bool :=
  decide (n ∈ neededNames d p decomposition)

variable {d : Descriptor N} {p : Predicate N} {D₁ D₂ : List String} {q₁ q₂ : Query N}
  {pair : SamplePair N}

omit [Arithmetic N] in
/-- What the predicate compares and what the contribution reads is needed for any decomposition. -/
theorem needs_of_shared {n : String} (shared : n ∈ p.fields ∨ n ∈ d.extractUses)
    (decomposition : List String) : needs d p decomposition n = true :=
  decide_eq_true (mem_neededNames.mpr (.inr (shared.imp id .inl)))

omit [Arithmetic N] in
/-- The columns of a query are those of its metric whose names it needs. -/
theorem expand_needed (d : Descriptor N) (p : Predicate N) (decomposition : List String)
    (pair : SamplePair N) :
    expand (made d p decomposition).needed pair =
      cartesian ((d.fields.map fun f => (f.name, f.values pair)).filter
        (needs d p decomposition ·.1)) := by
  rw [expand, made, List.filter_map]
  rfl

section SideBySide

variable (fits₁ : Fits d p D₁) (fits₂ : Fits d p D₂)
  (single : ∀ f ∈ d.fields, NeededByOne (made d p D₁) (made d p D₂) f → (f.values pair).length = 1)

include fits₁ fits₂ single

theorem forall₂_expand :
    List.Forall₂ (FieldMap.Alike (needs d p D₁) (needs d p D₂))
      (expand (made d p D₁).needed pair) (expand (made d p D₂).needed pair) := by
  rw [expand_needed, expand_needed]
  refine forall₂_cartesian fun column hColumn hne => ?_
  obtain ⟨f, hf, rfl⟩ := List.mem_map.mp hColumn
  refine single f hf ?_
  rw [NeededByOne, mem_neededFields fits₁, mem_neededFields fits₂]
  unfold needs at hne
  by_cases h₁ : f.name ∈ neededNames d p D₁ <;> by_cases h₂ : f.name ∈ neededNames d p D₂ <;>
    simp_all

theorem forall₂_dataPoints (declared : d.Declared) :
    List.Forall₂ (fun x y : DataPoint N =>
        x.value = y.value ∧ FieldMap.Alike (needs d p D₁) (needs d p D₂) x.fields y.fields)
      ((made d p D₁).dataPoints pair) ((made d p D₂).dataPoints pair) := by
  have hShared : ∀ {x y : FieldMap N}, FieldMap.Alike (needs d p D₁) (needs d p D₂) x y →
      ∀ n, n ∈ p.fields ∨ n ∈ d.extractUses → x.find? n = y.find? n := by
    intro x y alike n shared
    exact alike.agree n (needs_of_shared shared D₁) (needs_of_shared shared D₂)
  -- the predicate keeps the maps of the same places
  have hKept : List.Forall₂ (FieldMap.Alike (needs d p D₁) (needs d p D₂))
      ((expand (made d p D₁).needed pair).filter p.eval)
      ((expand (made d p D₂).needed pair).filter p.eval) := by
    refine List.rel_filter (fun x y alike => ?_) (forall₂_expand fits₁ fits₂ single)
    show p.eval x = true ↔ p.eval y = true
    rw [p.eval_congr fun n hn => hShared alike n (.inl hn)]
  -- and each of them contributes the same, or nothing on both sides
  refine List.rel_filterMap (fun x y alike => ?_) hKept
  show Option.Rel _ ((d.extract x pair).map _) ((d.extract y pair).map _)
  rw [declared x y pair fun n hn => hShared alike n (.inr hn)]
  cases d.extract y pair with
  | none => exact .none
  | some value => exact .some ⟨rfl, alike⟩

end SideBySide

/-- **Fields with one value only add an entry.** -/
theorem parallel_of_single (declared : d.Declared) (compiled₁ : compile d p D₁ = .ok q₁)
    (compiled₂ : compile d p D₂ = .ok q₂)
    (single : ∀ f ∈ d.fields, NeededByOne q₁ q₂ f → (f.values pair).length = 1) :
    Parallel q₁ q₂ pair := by
  obtain ⟨hFits₁, rfl⟩ := compile_eq_ok.mp compiled₁
  obtain ⟨hFits₂, rfl⟩ := compile_eq_ok.mp compiled₂
  have hPoints := forall₂_dataPoints hFits₁ hFits₂ single declared
  refine ⟨hPoints.length_eq, ?_, ?_⟩
  · rw [← List.forall₂_eq_eq_eq, List.forall₂_map_left_iff, List.forall₂_map_right_iff]
    exact hPoints.imp fun x y alike => alike.1
  · refine hPoints.imp fun x y alike n hn₁ hn₂ => alike.2.agree n ?_ ?_
    · exact decide_eq_true ((mem_neededFields hFits₁).mp hn₁)
    · exact decide_eq_true ((mem_neededFields hFits₂).mp hn₂)

/-- A plain metric has one value for a field that one query needs and the other does not, if the
samples carry the attributes it is read from. -/
theorem single_of_plain (plain : d.Plain) (compiled₁ : compile d p D₁ = .ok q₁)
    (compiled₂ : compile d p D₂ = .ok q₂) {f : FieldSpec N} (mem : f ∈ d.fields)
    (one : NeededByOne q₁ q₂ f) (carried : f.Carried pair) : (f.values pair).length = 1 := by
  obtain ⟨hFits₁, rfl⟩ := compile_eq_ok.mp compiled₁
  obtain ⟨hFits₂, rfl⟩ := compile_eq_ok.mp compiled₂
  simp only [NeededByOne, mem_neededFields hFits₁, mem_neededFields hFits₂, mem_neededNames] at one
  rcases plain.fields f mem with hUsed | hHost | hSingle
  · -- what the contribution reads is needed by both
    simp [hUsed] at one
  · -- and so is the host
    have hField : (d.field? hostnameField).isSome := by
      rw [← hHost, Descriptor.field?_of_mem mem]
      rfl
    simp [hHost, hField] at one
  · exact hSingle pair carried

/-- **Asking for another breakdown changes no contribution.** For a metric whose contribution reads
the declared fields only, two decompositions that both compile with a predicate, and a pair of
samples for which each field needed by one of the queries alone has one value, the two queries have
the same contributions in the same order. The stock metrics are such metrics, with the host's name
or without, and for them it is enough that the samples carry the attributes which the fields needed
by one query alone are read from. -/
theorem breakdown_sound :
    (∀ (d : Descriptor N), d.Declared → ∀ (p : Predicate N) (D₁ D₂ : List String)
      (q₁ q₂ : Query N), compile d p D₁ = .ok q₁ → compile d p D₂ = .ok q₂ →
      ∀ pair : SamplePair N,
        (∀ f ∈ d.fields, NeededByOne q₁ q₂ f → (f.values pair).length = 1) →
        Parallel q₁ q₂ pair) ∧
    ∀ entry ∈ (Stock.metrics : List (String × Descriptor N)), ∀ (hostname : String),
      ∀ d ∈ [entry.2, entry.2.withHostname hostname], d.Declared ∧
      ∀ (p : Predicate N) (D₁ D₂ : List String) (q₁ q₂ : Query N),
        compile d p D₁ = .ok q₁ → compile d p D₂ = .ok q₂ →
        ∀ pair : SamplePair N, (∀ f ∈ d.fields, NeededByOne q₁ q₂ f → f.Carried pair) →
          Parallel q₁ q₂ pair := by
  refine ⟨fun d declared p D₁ D₂ q₁ q₂ compiled₁ compiled₂ pair single =>
    parallel_of_single declared compiled₁ compiled₂ single, ?_⟩
  intro entry hEntry hostname d hd
  have hPlain : d.Plain := by
    rcases List.mem_cons.mp hd with rfl | hd
    · exact Stock.plain_stock entry hEntry
    · rw [List.mem_singleton.mp hd]
      exact Descriptor.plain_withHostname (Stock.plain_stock entry hEntry) hostname
  refine ⟨hPlain.declared, fun p D₁ D₂ q₁ q₂ compiled₁ compiled₂ pair carried => ?_⟩
  exact parallel_of_single hPlain.declared compiled₁ compiled₂ fun f hf one =>
    single_of_plain hPlain compiled₁ compiled₂ hf one (carried f hf one)

/-- A metric with two sides of a room, and the bytes of a link: by room, and by link, both
directions count as they do without. -/
theorem breakdown_sound_brief :
    let sides : Descriptor Extended :=
      (((Descriptor.new "m" "s" "S" "u").field (.fixed "room" "room" ["r"])).field
        (.fixed "side" "side" ["left", "right"])).withExtract ["side"]
        (Stock.growthBy "side" "left" "obytes64" "rbytes64")
    let bytes : Descriptor Extended := Stock.linkBytes.withHostname "h"
    let pair : SamplePair Extended := .of
      ⟨"nic:e0", 1, [("obytes64", .finite 7), ("rbytes64", .finite 4)], [("name", "e0")]⟩
      ⟨"nic:e0", 0, [], []⟩
    Parallel (made sides .trivial []) (made sides .trivial ["room"]) pair ∧
      Parallel (made bytes .trivial []) (made bytes .trivial ["nic"]) pair ∧
      ((made bytes .trivial []).dataPoints pair).length = 2 := by
  intro sides bytes pair
  have hCompiled : ∀ {d : Descriptor Extended} {names : List String},
      fault? d .trivial names = none → compile d .trivial names = .ok (made d .trivial names) :=
    fun fits => compile_of_fits (fault?_eq_none_iff.mp fits)
  refine ⟨?_, ?_, by decide⟩
  · refine breakdown_sound.1 sides (Stock.readsOnly_growthBy List.mem_cons_self _ _ _) .trivial []
      ["room"] _ _ (hCompiled (by decide)) (hCompiled (by decide)) pair ?_
    -- the room is the only field that one query needs and the other does not
    intro f hf one
    rcases List.mem_cons.mp hf with rfl | hf
    · rfl
    · rw [List.mem_singleton.mp hf] at one
      exact absurd one (by decide)
  · refine (breakdown_sound.2 ("nic:", Stock.linkBytes) (by simp [Stock.metrics]) "h" bytes
      (by simp [bytes])).2 .trivial [] ["nic"] _ _ (hCompiled (by decide)) (hCompiled (by decide))
      pair ?_
    intro f hf one attr reads
    rcases List.mem_cons.mp hf with rfl | hf
    · -- the name of the link is read from an attribute that is there
      obtain ⟨p, attributes, hSame, hChange⟩ := reads
      by_cases hAttr : attr = "name"
      · subst hAttr
        rfl
      · exact absurd (congrArg (fun t : Option String => (t.map FieldValue.text).toList)
          (hSame "name" (Ne.symm hAttr))) hChange
    · rcases List.mem_cons.mp hf with rfl | hf
      · exact absurd one (by decide)
      · rw [List.mem_singleton.mp hf] at one
        exact absurd one (by decide)

end Query

end FleetMetrics
