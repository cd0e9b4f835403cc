import Mathlib
import FleetMetrics.Proofs.Fleet.Duty

/-!
# The life of an instrumenter

An instrumenter is offered modules and metrics, reads mail and reports, in any order.
`Instrumenter.Equipped` is every state it gets into, together with the descriptors of the metrics
that it has been offered so far; `Instrumenter.Stocked` is what holds in all of them. What is found
under the names of a metric is the descriptor that was offered under these names, with the host's
name added, and nothing else is found.

A host may keep its samples in several feeds, and metrics may share one. `reportFrom` is a report
in which every statistic is read from the feed it belongs to; a report over a single feed is the
case in which all statistics belong to that one.

Main results:

* `metric?_addMetric` — what an accepted offer does to the metrics.
* `stocked_of_equipped` — whatever has happened, the metrics are those that were offered.
* `equipped_addStock` — a new host can be given the whole stock.
* `stat?_catalog` — the announced catalog lists exactly the metrics.
-/

namespace FleetMetrics

namespace Instrumenter

/-! ## Reports over several feeds -/

/-- Report every active instrumentation, where each statistic has a feed that it is read from. -/
def reportFrom (i : Instrumenter) (feeds : String → String → Feed Float) (now : Timestamp) :
    Instrumenter × List (String × Message Float) × Nat :=
  let reports := i.active.map fun entry =>
    let d := entry.2.metric.query.descriptor
    (entry.1, i.reportOne (feeds d.module d.stat) now entry.1 entry.2)
  ({ i with active := reports.map fun r => (r.1, r.2.1) }, reports.map (·.2.2.1),
    (reports.filter (·.2.2.2)).length)

/-- With one feed for everything this is the report over that feed. -/
theorem reportFrom_single (i : Instrumenter) (f : Feed Float) (now : Timestamp) :
    i.reportFrom (fun _ _ => f) now = i.report f now := rfl

/-- A report goes over the active instrumentations one by one, each with the samples of its own
metric. -/
theorem active_reportFrom (i : Instrumenter) (feeds : String → String → Feed Float)
    (now : Timestamp) :
    (i.reportFrom feeds now).1.active = i.active.mapValues fun id a =>
      (i.reportOne (feeds a.metric.query.descriptor.module a.metric.query.descriptor.stat) now id
        a).1 := by
  simp only [reportFrom, Table.mapValues, List.map_map]
  rfl

/-! ## Offers -/

/-- A metric is accepted under names that are free, in a module that is there. It is then found
under its names, with the host's name added, and everything else is found where it was. -/
theorem metric?_addMetric {i j : Instrumenter} (offers : i.Offers) {d : Descriptor Float}
    {scope : Option String} (added : i.addMetric d scope = .ok j) :
    i.modules.contains d.module = true ∧ i.metric? d.module d.stat = none ∧
      ∀ module stat, j.metric? module stat =
        if module = d.module ∧ stat = d.stat then some ⟨d.withHostname i.hostname, scope⟩
        else i.metric? module stat := by
  -- what was added had no fault
  have hFault : i.metricFault? d = none := by
    unfold addMetric at added
    split at added
    · cases added
    · assumption
  obtain ⟨hModule, hFree⟩ : i.modules.contains d.module = true ∧
      i.metric? d.module d.stat = none := by
    unfold metricFault? at hFault
    split at hFault
    · cases hFault
    · next hModule =>
      split at hFault
      · cases hFault
      · next hFree => exact ⟨by simpa using hModule, by simpa using hFree⟩
  rw [addMetric, hFault] at added
  obtain rfl := Except.ok.inj added
  refine ⟨hModule, hFree, fun module stat => ?_⟩
  have hStats : ((i.metrics.find? d.module).getD []).Ascending := by
    cases h : i.metrics.find? d.module with
    | none => exact Table.ascending_nil
    | some stats => exact offers.stats _ _ h
  simp only [metric?, Table.find?_alter_eq offers.sorted]
  -- a module is a table in a table, so there are two look-ups to follow
  by_cases hSame : module = d.module
  · subst hSame
    rw [if_pos rfl, Option.bind_some, Table.find?_insert hStats]
    by_cases hStat : stat = d.stat
    · simp [hStat]
    · rw [if_neg hStat, if_neg (by simp [hStat])]
      cases i.metrics.find? d.module with
      | none => rfl
      | some stats => rfl
  · rw [if_neg hSame, if_neg (by simp [hSame])]

/-! ## Everything that happens -/

/-- An instrumenter after anything that can happen to it, with the descriptors of the metrics that
it has accepted, the latest first. -/
inductive Equipped (keyBase hostname : String) : List (Descriptor Float) → Instrumenter → Prop
  | new : Equipped keyBase hostname [] (.new keyBase hostname)
  | addModule {ds : List (Descriptor Float)} {i : Instrumenter}
      (before : Equipped keyBase hostname ds i) (name label : String) :
      Equipped keyBase hostname ds (i.addModule name label)
  | addMetric {ds : List (Descriptor Float)} {i j : Instrumenter}
      (before : Equipped keyBase hostname ds i) {d : Descriptor Float} {scope : Option String}
      (added : i.addMetric d scope = .ok j) : Equipped keyBase hostname (d :: ds) j
  | handle {ds : List (Descriptor Float)} {i : Instrumenter}
      (before : Equipped keyBase hostname ds i) (e : Envelope Float) :
      Equipped keyBase hostname ds (i.handle e).1
  | report {ds : List (Descriptor Float)} {i : Instrumenter}
      (before : Equipped keyBase hostname ds i) (feeds : String → String → Feed Float)
      (now : Timestamp) : Equipped keyBase hostname ds (i.reportFrom feeds now).1

/-- What is offered are the metrics with certain descriptors. -/
structure Stocked (ds : List (Descriptor Float)) (i : Instrumenter) : Prop where
  active : i.active.Ascending
  modules : i.modules.Ascending
  offers : i.Offers
  /-- Every metric is in a module. -/
  housed : ∀ module stat, (i.metric? module stat).isSome → i.modules.contains module = true
  offered : ∀ d ∈ ds, ∃ scope, i.metric? d.module d.stat = some ⟨d.withHostname i.hostname, scope⟩
  only : ∀ module stat r, i.metric? module stat = some r →
    ∃ d ∈ ds, d.module = module ∧ d.stat = stat ∧ r.descriptor = d.withHostname i.hostname
  distinct : (ds.map fun d => (d.module, d.stat)).Nodup

/-- Whatever leaves the offers alone leaves the stock as it is. -/
theorem Stocked.congr {ds : List (Descriptor Float)} {i j : Instrumenter} (stocked : i.Stocked ds)
    (active : j.active.Ascending) (hostname : j.hostname = i.hostname)
    (modules : j.modules = i.modules) (metrics : j.metrics = i.metrics) : j.Stocked ds := by
  have hMetric : j.metric? = i.metric? := by
    funext module stat
    rw [metric?, metric?, metrics]
  exact {
    active := active
    modules := modules ▸ stocked.modules
    offers := stocked.offers.congr metrics
    housed := by
      rw [hMetric, modules]
      exact stocked.housed
    offered := by
      rw [hMetric, hostname]
      exact stocked.offered
    only := by
      rw [hMetric, hostname]
      exact stocked.only
    distinct := stocked.distinct }

/-- A module that is added changes nothing about the metrics on offer. -/
theorem stocked_addModule {ds : List (Descriptor Float)} {i : Instrumenter}
    (stocked : i.Stocked ds) (name label : String) : (i.addModule name label).Stocked ds where
  active := stocked.active
  modules := Table.ascending_alter stocked.modules _ _
  offers := stocked.offers.congr rfl
  housed module stat found := by
    have hOld := stocked.housed module stat found
    rw [Table.contains] at hOld ⊢
    show ((i.modules.alter name _).find? module).isSome = true
    rw [Table.find?_alter_eq stocked.modules]
    split
    · rfl
    · exact hOld
  offered := stocked.offered
  only := stocked.only
  distinct := stocked.distinct

/-- A metric that is added is on offer besides the others. -/
theorem stocked_addMetric {ds : List (Descriptor Float)} {i j : Instrumenter}
    (stocked : i.Stocked ds) {d : Descriptor Float} {scope : Option String}
    (added : i.addMetric d scope = .ok j) : j.Stocked (d :: ds) := by
  obtain ⟨hModule, hFree, hMetric⟩ := metric?_addMetric stocked.offers added
  obtain ⟨hActive, hModules, hHost⟩ : j.active = i.active ∧ j.modules = i.modules ∧
      j.hostname = i.hostname := by
    unfold addMetric at added
    split at added
    · cases added
    · rw [← Except.ok.inj added]
      exact ⟨rfl, rfl, rfl⟩
  -- the names were free, so no descriptor that is there already has them
  have hApart : ∀ d' ∈ ds, ¬ (d'.module = d.module ∧ d'.stat = d.stat) := by
    rintro d' hd' ⟨hm, hs⟩
    obtain ⟨_, hTaken⟩ := stocked.offered d' hd'
    rw [hm, hs, hFree] at hTaken
    cases hTaken
  refine ⟨hActive ▸ stocked.active, hModules ▸ stocked.modules, offers_addMetric stocked.offers added,
    fun module stat found => ?_, fun d' hd' => ?_, fun module stat r found => ?_, ?_⟩
  · rw [hMetric] at found
    rw [hModules]
    split at found
    · next hNames => rw [hNames.1, hModule]
    · exact stocked.housed module stat found
  · rw [hMetric, hHost]
    rcases List.mem_cons.mp hd' with rfl | hOld
    · exact ⟨scope, if_pos ⟨rfl, rfl⟩⟩
    · rw [if_neg (hApart d' hOld)]
      exact stocked.offered d' hOld
  · rw [hMetric] at found
    rw [hHost]
    split at found
    · next hNames =>
      obtain rfl := Option.some.inj found
      exact ⟨d, List.mem_cons_self, hNames.1.symm, hNames.2.symm, rfl⟩
    · obtain ⟨d', hd', hSpec⟩ := stocked.only module stat r found
      exact ⟨d', List.mem_cons_of_mem _ hd', hSpec⟩
  · rw [List.map_cons, List.nodup_cons]
    refine ⟨fun hMem => ?_, stocked.distinct⟩
    obtain ⟨d', hd', hNames⟩ := List.mem_map.mp hMem
    exact hApart d' hd' (Prod.mk.inj hNames)

/-- Mail changes what is active and nothing else. -/
theorem modules_handle (i : Instrumenter) (e : Envelope Float) :
    (i.handle e).1.modules = i.modules := by
  show (i.respond e.message).1.modules = i.modules
  unfold respond
  split
  · next id streamKey module stat predicate decomposition _ =>
    cases hEnable : i.enable id streamKey module stat predicate decomposition with
    | error _ => rfl
    | ok after =>
      unfold enable at hEnable
      -- every way to succeed leaves the modules alone
      split at hEnable
      · cases hEnable
      · split at hEnable
        · rw [← Except.ok.inj hEnable]
        · split at hEnable
          · cases hEnable
          · rw [← Except.ok.inj hEnable]
  all_goals rfl

/-- **Whatever has happened, the metrics are those that were offered.** -/
theorem stocked_of_equipped {keyBase hostname : String} {ds : List (Descriptor Float)}
    {i : Instrumenter} (equipped : Equipped keyBase hostname ds i) :
    i.keyBase = keyBase ∧ i.hostname = hostname ∧ i.Stocked ds := by
  induction equipped with
  | new =>
    exact ⟨rfl, rfl, Table.ascending_nil, Table.ascending_nil, ⟨Table.ascending_nil, nofun, nofun⟩,
      nofun, nofun, nofun, List.nodup_nil⟩
  | addModule before name label ih =>
    exact ⟨ih.1, ih.2.1, stocked_addModule ih.2.2 name label⟩
  | addMetric before added ih =>
    obtain ⟨hBase, hHost, hStocked⟩ := ih
    refine ⟨?_, ?_, stocked_addMetric hStocked added⟩
    all_goals
      unfold Instrumenter.addMetric at added
      split at added
      · cases added
      · cases added
        assumption
  | handle before e ih =>
    obtain ⟨hBase, hHost, hStocked⟩ := ih
    -- handling changes what is active, and not what is on offer
    obtain ⟨-, hSorted, hBase', hHost', hMetrics⟩ := heeds_handle hStocked.active e
    exact ⟨hBase'.trans hBase, hHost'.trans hHost,
      hStocked.congr hSorted hHost' (modules_handle _ e) hMetrics⟩
  | @report _ i before feeds now ih =>
    obtain ⟨hBase, hHost, hStocked⟩ := ih
    refine ⟨hBase, hHost, hStocked.congr ?_ rfl rfl rfl⟩
    rw [active_reportFrom]
    exact Table.ascending_mapValues hStocked.active _

/-! ## The stock -/

/-- Any number of modules can be added to an instrumenter that is equipped. -/
theorem equipped_addModules {keyBase hostname : String} {ds : List (Descriptor Float)}
    {i : Instrumenter} (equipped : Equipped keyBase hostname ds i)
    (modules : List (String × String)) :
    Equipped keyBase hostname ds (modules.foldl (fun i m => i.addModule m.1 m.2) i) := by
  induction modules generalizing i with
  | nil => exact equipped
  | cons m rest ih => exact ih (.addModule equipped m.1 m.2)

/-- Metrics with free names, in modules that are there, are all accepted. -/
theorem equipped_addMetrics {keyBase hostname : String} {ds : List (Descriptor Float)}
    {i : Instrumenter} (equipped : Equipped keyBase hostname ds i)
    {metrics : List (String × Descriptor Float)}
    (housed : ∀ e ∈ metrics, i.modules.contains e.2.module = true)
    (free : ∀ e ∈ metrics, i.metric? e.2.module e.2.stat = none)
    (distinct : (metrics.map fun e => (e.2.module, e.2.stat)).Nodup) :
    (i.addMetrics metrics).2 = none ∧
      Equipped keyBase hostname ((metrics.map (·.2)).reverse ++ ds) (i.addMetrics metrics).1 := by
  induction metrics generalizing ds i with
  | nil => exact ⟨rfl, equipped⟩
  | cons e rest ih =>
    obtain ⟨hApart, hDistinct⟩ := List.nodup_cons.mp distinct
    have hFault : i.metricFault? e.2 = none := by
      rw [metricFault?, housed e List.mem_cons_self, free e List.mem_cons_self]
      rfl
    obtain ⟨j, hAdded, hModules⟩ :
        ∃ j, i.addMetric e.2 (some e.1) = .ok j ∧ j.modules = i.modules := by
      rw [addMetric, hFault]
      exact ⟨_, rfl, rfl⟩
    obtain ⟨-, -, hStocked⟩ := stocked_of_equipped equipped
    obtain ⟨-, -, hMetric⟩ := metric?_addMetric hStocked.offers hAdded
    have hNext := ih (.addMetric equipped hAdded)
      (fun e' he' => hModules ▸ housed e' (List.mem_cons_of_mem _ he'))
      (fun e' he' => by
        -- names that come later are not the ones that are taken now
        rw [hMetric, if_neg fun hSame => hApart ?_]
        · exact free e' (List.mem_cons_of_mem _ he')
        · exact List.mem_map.mpr ⟨e', he', by rw [hSame.1, hSame.2]⟩) hDistinct
    rw [addMetrics, hAdded]
    simpa using hNext

/-- **A new host can be given the whole stock.** -/
theorem equipped_addStock (keyBase hostname : String) :
    ((new keyBase hostname).addStock).2 = none ∧
      Equipped keyBase hostname (Stock.metrics.map (·.2)).reverse
        ((new keyBase hostname).addStock).1 := by
  let i := Stock.modules.foldl (fun i m => i.addModule m.1 m.2) (new keyBase hostname)
  -- the modules do not depend on the name of the host
  let modules : Table String String :=
    Stock.modules.foldl (fun t m => Table.insertNew t m.1 m.2) []
  have hModules : i.modules = modules := rfl
  have hHoused : ∀ e ∈ (Stock.metrics : List (String × Descriptor Float)),
      modules.contains e.2.module = true := by decide +kernel
  have hDistinct : ((Stock.metrics : List (String × Descriptor Float)).map fun e =>
      (e.2.module, e.2.stat)).Nodup := by decide +kernel
  have hAll := equipped_addMetrics (equipped_addModules .new Stock.modules)
    (hModules ▸ hHoused) (fun _ _ => rfl) hDistinct
  rwa [List.append_nil] at hAll

/-- The announced catalog lists exactly the metrics on offer. -/
theorem stat?_catalog {ds : List (Descriptor Float)} {i : Instrumenter} (stocked : i.Stocked ds)
    (module stat : String) :
    i.catalog.stat? module stat = (i.metric? module stat).map (·.descriptor.statInfo) := by
  have hEntry : ∀ label : String, (ModuleInfo.mk label
      (((i.metrics.find? module).getD []).mapValues fun _ r => r.descriptor.statInfo)).stats.find?
        stat = (i.metric? module stat).map (·.descriptor.statInfo) := by
    intro label
    rw [Table.find?_mapValues, metric?]
    cases i.metrics.find? module <;> rfl
  rw [Catalog.stat?, catalog, Table.find?_mapValues]
  cases hModule : i.modules.find? module with
  | some label => exact hEntry label
  | none =>
    -- a metric would have its module
    cases hMetric : i.metric? module stat with
    | none => rfl
    | some r =>
      have hHoused := stocked.housed module stat (by rw [hMetric]; rfl)
      rw [Table.contains, hModule] at hHoused
      cases hHoused

end Instrumenter

end FleetMetrics
