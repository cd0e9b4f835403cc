import Mathlib
import FleetMetrics.Proofs.Catalog

/-!
# A catalog, entry by entry

Merging an announcement into a catalog is three loops, one inside the other, and each level has a
first writer of its own: the label of a module may come from one host, the label of a statistic in
it from another, and a field of that statistic from a third. A rule that holds at one level can be
broken at the next, say by a statistic that brings its fields along when only its label is new.

Here a catalog is seen as a function: `known?` says what is known at a path, and a path leads to a
module, to a statistic or to a field. At every path a merge is the same operation, which keeps what
is known and takes what is not. Two catalogs that know the same at every path are the same list,
so nothing is lost in this view.

Main results:

* `known?_merge` — what a merged catalog says at a path.
* `known?_foldl_merge` — of several announcements the first that says anything at a path counts.
* `ext_known?` — a catalog is what it says.
-/

namespace FleetMetrics.Catalog

/-- Where a catalog can say something. -/
inductive Path
  | module (name : String)
  | stat (module name : String)
  | field (module stat name : String)

/-- What a catalog can say at a path, whatever lies below the path. -/
inductive Entry
  | module (label : String)
  | stat (label unit : String)
  | field (info : FieldInfo)
  deriving DecidableEq

/-- What a catalog says at a path. -/
def known? (c : Catalog) : Path → Option Entry
  | .module name => (Table.find? c name).map fun m => .module m.label
  | .stat module name => (c.stat? module name).map fun s => .stat s.label s.unit
  | .field module stat name => (c.stat? module stat).bind fun s => (s.fields.find? name).map .field

/-- Everything that a catalog says is said by another one. -/
def Extends (c d : Catalog) : Prop :=
  ∀ p e, c.known? p = some e → d.known? p = some e

/-! ## Merged catalogs -/

section Merge

variable {c news : Catalog} (sorted : c.Ordered) (sorted' : news.Ordered)

include sorted sorted'

/-- **The first word stays, at every level.** A merged catalog says what was known, and where
nothing was known what is announced. -/
theorem known?_merge (p : Path) : (c.merge news).known? p = (c.known? p).or (news.known? p) := by
  cases p with
  | module m =>
    simp only [known?, find?_merge sorted sorted']
    cases Table.find? news m <;> cases Table.find? c m <;> rfl
  | stat m s =>
    simp only [known?, stat?_merge sorted sorted']
    cases news.stat? m s <;> cases c.stat? m s <;> rfl
  | field m s f =>
    simp only [known?, stat?_merge sorted sorted']
    cases hNews : news.stat? m s with
    | none => simp
    | some stat =>
      rw [Option.map_some, Option.some_or, Option.bind_some, Option.bind_some,
        find?_fields_mergeStat (sorted.fields m s) (sorted'.fields m s stat hNews), Option.map_or]
      cases c.stat? m s <;> rfl

end Merge

section Announcements

variable {announced : List Catalog} (tables : ∀ news ∈ announced, news.Ordered) {c : Catalog}
  (sorted : c.Ordered)

include tables sorted

theorem ordered_foldl_merge : (announced.foldl merge c).Ordered := by
  induction announced generalizing c with
  | nil => exact sorted
  | cons news rest ih =>
    have hNews := tables news List.mem_cons_self
    exact ih (fun n hn => tables n (List.mem_cons_of_mem _ hn)) (ordered_merge sorted hNews)

/-- Several announcements are merged in turn. Of those that say anything at a path the first one
counts, unless the catalog knew before. -/
theorem known?_foldl_merge (p : Path) :
    (announced.foldl merge c).known? p = (c.known? p).or (announced.findSome? (·.known? p)) := by
  induction announced generalizing c with
  | nil => exact (Option.or_none).symm
  | cons news rest ih =>
    have hNews := tables news List.mem_cons_self
    have hRest := ih (fun n hn => tables n (List.mem_cons_of_mem _ hn)) (ordered_merge sorted hNews)
    rw [List.foldl_cons, hRest, known?_merge sorted hNews, List.findSome?_cons, Option.or_assoc]
    -- what the first announcement leaves open is open to the others
    cases news.known? p <;> rfl

end Announcements

/-! ## A catalog is what it says -/

section Ext

variable {c d : Catalog} (hc : c.Ordered) (hd : d.Ordered)
  (same : ∀ p, c.known? p = d.known? p)

include hc hd same

/-- Two catalogs that say the same know the same statistics. -/
theorem stat?_eq_of_known? (m s : String) : c.stat? m s = d.stat? m s := by
  have hHead := same (.stat m s)
  have hFields := fun f => same (.field m s f)
  simp only [known?] at hHead hFields
  cases hC : c.stat? m s with
  | none =>
    rw [hC, Option.map_none, eq_comm, Option.map_eq_none_iff] at hHead
    exact hHead.symm
  | some stat =>
    cases hD : d.stat? m s with
    | none => rw [hC, hD] at hHead; cases hHead
    | some stat' =>
      simp only [hC, hD, Option.map_some, Option.some.injEq, Entry.stat.injEq] at hHead
      have hTable : stat.fields = stat'.fields := by
        refine Table.ext_find? (hc.fields m s stat hC) (hd.fields m s stat' hD) fun f => ?_
        have hField := hFields f
        rw [hC, hD, Option.bind_some, Option.bind_some] at hField
        exact Option.map_injective (fun _ _ h => Entry.field.inj h) hField
      obtain ⟨label, unit, fields⟩ := stat
      obtain ⟨label', unit', fields'⟩ := stat'
      obtain ⟨rfl, rfl⟩ := hHead
      obtain rfl := hTable
      rfl

/-- **A catalog is what it says.** Two catalogs that say the same at every path are equal. -/
theorem ext_known? : c = d := by
  refine Table.ext_find? hc.modules hd.modules fun m => ?_
  have hHead := same (.module m)
  have hStats := stat?_eq_of_known? hc hd same m
  simp only [known?] at hHead
  simp only [stat?] at hStats
  cases hC : Table.find? c m with
  | none =>
    rw [hC, Option.map_none, eq_comm, Option.map_eq_none_iff] at hHead
    exact hHead.symm
  | some known =>
    cases hD : Table.find? d m with
    | none => rw [hC, hD] at hHead; cases hHead
    | some known' =>
      simp only [hC, hD, Option.map_some, Option.some.injEq, Entry.module.injEq] at hHead
      have hTable : known.stats = known'.stats := by
        refine Table.ext_find? (hc.stats m known hC) (hd.stats m known' hD) fun s => ?_
        simpa only [hC, hD, Option.bind_some] using hStats s
      obtain ⟨label, stats⟩ := known
      obtain ⟨label', stats'⟩ := known'
      obtain rfl := hHead
      obtain rfl := hTable
      rfl

end Ext

end FleetMetrics.Catalog
