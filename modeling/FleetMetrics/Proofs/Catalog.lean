import Mathlib
import FleetMetrics.Catalog
import FleetMetrics.Proofs.Table

/-!
# What a catalog knows

A catalog is merged from announcements, and at every level what was known first stays. Which
announcement came first shows in labels and units. For the fields of a statistic and their arities
it does not matter as long as all announcements agree, and these are all that a request is checked
against.

The theorems say level by level what is found in a merged catalog, in terms of what is found in the
catalog and in the announcement; later arguments do not open `merge`.

Main results:

* `Table.find?_mergeWith` — a merged entry goes through the rule, everything else stays.
* `Catalog.stat?_merge` — the statistics of a merged catalog.
* `Catalog.arityOf_mergeStat` — a field keeps its first arity.
-/

namespace FleetMetrics

namespace Table

variable {κ β : Type} [Ord κ]

/-- Merging into a table in order leaves it in order. -/
theorem ascending_mergeWith [Std.TransOrd κ] (rule : Option β → β → β) {known : Table κ β}
    (sorted : known.Ascending) (news : Table κ β) : (known.mergeWith rule news).Ascending := by
  unfold mergeWith
  induction news generalizing known with
  | nil => exact sorted
  | cons entry rest ih => exact ih (ascending_alter sorted _ _)

/-- The look-ups of a merged table. -/
theorem find?_mergeWith [Std.TransOrd κ] [Std.LawfulEqOrd κ] [DecidableEq κ]
    (rule : Option β → β → β) {known news : Table κ β} (sorted : known.Ascending)
    (sorted' : news.Ascending) (k : κ) :
    (known.mergeWith rule news).find? k =
      ((news.find? k).map (rule (known.find? k))).or (known.find? k) := by
  unfold mergeWith
  induction news generalizing known with
  | nil => rfl
  | cons entry rest ih =>
    obtain ⟨hHead, hRest⟩ := List.pairwise_cons.mp sorted'
    rw [List.foldl_cons, ih (ascending_alter sorted _ _) hRest, find?_alter_eq sorted, find?_cons]
    by_cases hk : k = entry.1
    · -- the key of the first entry comes only once
      subst hk
      rw [find?_eq_none_of_lt hHead, if_pos rfl, if_pos Std.ReflOrd.compare_self]
      rfl
    · have hApart : compare k entry.1 ≠ .eq := fun h => hk (Std.LawfulEqOrd.eq_of_compare h)
      rw [if_neg hk, if_neg hApart]

end Table

namespace Catalog

/-! ## Order -/

/-- A catalog that is in order at every level. -/
structure Ordered (c : Catalog) : Prop where
  modules : c.Ascending
  stats : ∀ module m, c.find? module = some m → m.stats.Ascending
  fields : ∀ module stat s, c.stat? module stat = some s → s.fields.Ascending

theorem ordered_nil : Ordered [] :=
  ⟨Table.ascending_nil, nofun, nofun⟩

/-- The order of a catalog asked of one entry at a time. -/
theorem ordered_iff {c : Catalog} :
    c.Ordered ↔ c.Ascending ∧
      ∀ e ∈ c, e.2.stats.Ascending ∧ ∀ e' ∈ e.2.stats, e'.2.fields.Ascending := by
  constructor
  · intro h
    refine ⟨h.modules, fun e he => ?_⟩
    have hModule := (Table.mem_iff_find? h.modules).mp he
    have hStats := h.stats e.1 e.2 hModule
    refine ⟨hStats, fun e' he' => h.fields e.1 e'.1 e'.2 ?_⟩
    rw [stat?, hModule]
    exact (Table.mem_iff_find? hStats).mp he'
  · rintro ⟨hModules, hEntries⟩
    have hFound : ∀ module m, Table.find? c module = some m → (module, m) ∈ c :=
      fun _ _ found => (Table.mem_iff_find? hModules).mpr found
    refine ⟨hModules, fun module m found => (hEntries _ (hFound module m found)).1, ?_⟩
    intro module stat s found
    obtain ⟨m, hModule, hStat⟩ := Option.bind_eq_some_iff.mp found
    obtain ⟨hStats, hFields⟩ := hEntries _ (hFound module m hModule)
    exact hFields _ ((Table.mem_iff_find? hStats).mpr hStat)

/-- Whether a catalog is in order can be computed. -/
instance decidableOrdered (c : Catalog) : Decidable c.Ordered :=
  decidable_of_iff _ ordered_iff.symm

/-! ## Merged catalogs -/

/-- A field of a merged statistic is described as it was first. -/
theorem find?_fields_mergeStat {known : Option StatInfo} {news : StatInfo}
    (sorted : ∀ s, known = some s → s.fields.Ascending) (sorted' : news.fields.Ascending)
    (field : String) :
    (mergeStat known news).fields.find? field =
      (known.bind (·.fields.find? field)).or (news.fields.find? field) := by
  have hFirst : (known.getD ⟨news.label, news.unit, []⟩).fields.Ascending := by
    cases known with
    | none => exact Table.ascending_nil
    | some s => exact sorted s rfl
  rw [mergeStat, Table.find?_mergeWith mergeField hFirst sorted']
  cases known with
  | none => cases news.fields.find? field <;> rfl
  | some s =>
    simp only [Option.getD_some, Option.bind_some]
    cases news.fields.find? field <;> cases s.fields.find? field <;> rfl

/-- A field that is known keeps its kind, and one that is new gets the announced one. -/
theorem arityOf_mergeStat {known : Option StatInfo} {news : StatInfo}
    (sorted : ∀ s, known = some s → s.fields.Ascending) (sorted' : news.fields.Ascending)
    (field : String) :
    (mergeStat known news).arityOf field =
      (known.bind (·.arityOf field)).or (news.arityOf field) := by
  rw [StatInfo.arityOf, find?_fields_mergeStat sorted sorted', Option.map_or]
  cases known <;> rfl

/-- The fields of a statistic stay in order. -/
theorem fields_mergeStat {known : Option StatInfo} (sorted : ∀ s, known = some s → s.fields.Ascending)
    (news : StatInfo) : (mergeStat known news).fields.Ascending := by
  refine Table.ascending_mergeWith _ ?_ _
  cases known with
  | none => exact Table.ascending_nil
  | some s => exact sorted s rfl

/-- A module that is announced is merged with what is known of it, and all others stay. -/
theorem find?_merge {c news : Catalog} (sorted : c.Ordered) (sorted' : news.Ordered)
    (module : String) :
    Table.find? (c.merge news) module =
      ((Table.find? news module).map (mergeModule (Table.find? c module))).or
        (Table.find? c module) :=
  Table.find?_mergeWith mergeModule sorted.modules sorted'.modules module

/-- The statistics of a merged catalog: what the announcement lists is merged with what is known,
everything else stays. -/
theorem stat?_merge {c news : Catalog} (sorted : c.Ordered) (sorted' : news.Ordered)
    (module stat : String) :
    (c.merge news).stat? module stat =
      ((news.stat? module stat).map (mergeStat (c.stat? module stat))).or (c.stat? module stat) := by
  rw [stat?, find?_merge sorted sorted', stat?, stat?]
  cases hNews : Table.find? news module with
  | none => rfl
  | some m =>
    have hSorted' := sorted'.stats _ _ hNews
    cases hKnown : Table.find? c module with
    | none => exact Table.find?_mergeWith mergeStat Table.ascending_nil hSorted' stat
    | some first =>
      exact Table.find?_mergeWith mergeStat (sorted.stats _ _ hKnown) hSorted' stat

/-- A catalog stays in order at all of its levels. -/
theorem ordered_merge {c news : Catalog} (sorted : c.Ordered) (sorted' : news.Ordered) :
    (c.merge news).Ordered where
  modules := Table.ascending_mergeWith _ sorted.modules _
  stats module m found := by
    rw [find?_merge sorted sorted', Option.or_eq_some_iff, Option.map_eq_some_iff] at found
    rcases found with ⟨m', -, rfl⟩ | ⟨-, hKept⟩
    · -- a merged module starts from the one that is known, or from nothing
      refine Table.ascending_mergeWith _ ?_ _
      cases hKnown : Table.find? c module with
      | none => exact Table.ascending_nil
      | some first => exact sorted.stats _ _ hKnown
    · exact sorted.stats _ _ hKept
  fields module stat s found := by
    rw [stat?_merge sorted sorted', Option.or_eq_some_iff, Option.map_eq_some_iff] at found
    rcases found with ⟨s', -, rfl⟩ | ⟨-, hKept⟩
    · exact fields_mergeStat (fun known hKnown => sorted.fields _ _ known hKnown) _
    · exact sorted.fields _ _ _ hKept

end Catalog

end FleetMetrics
