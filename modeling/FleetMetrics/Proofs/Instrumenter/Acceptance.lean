import Mathlib
import FleetMetrics.Proofs.Coordinator.Announcements
import FleetMetrics.Proofs.Coordinator.Lifecycle
import FleetMetrics.Proofs.Instrumenter.Acknowledgement

/-!
# What is accepted can be enabled

A request is checked twice, against different data: by the coordinator against the catalog, which is
merged from what the hosts have announced, and by every host against its own descriptors, to which
it has added a field with its name. A request that passed the first check and failed the second
would leave an instrumentation that can never be enabled.

In a fleet whose hosts all offer the same metrics both checks come to the same. What they have in
common is `Spec.GrantedBy`, which speaks of neither catalogs nor hosts. The coordinator's check is
matched with it by an invariant of histories (`Informed`), the host's check by what a host has been
offered. Nothing is said of fleets whose hosts differ: there the catalog lists what some host
offers, and others refuse it.

A blank name is refused by the coordinator alone, so it is left out of the converse.

Main results:

* `Query.fits_iff_of_ready` — of a well-made descriptor only the arities matter.
* `Instrumenter.enable_of_granted`, `Instrumenter.granted_of_enable` — what a host can enable.
* `Coordinator.informed_run` — what the coordinator knows, and what it has accepted.
* `Coordinator.accepted_iff_enabled` — both checks come to the same.
-/

namespace FleetMetrics

/-! ## Descriptors on a host -/

namespace Descriptor

/-- A well-made descriptor: its numeric fields can be put into buckets, and its contribution reads
fields that it has. -/
structure Ready (d : Descriptor Float) : Prop where
  bucketed : ∀ f ∈ d.fields, f.arity = .numeric → ∃ b, f.bucketizer = some b ∧ b.isValid = true
  used : ∀ n ∈ d.extractUses, (d.field? n).isSome

/-- Whether a descriptor is well-made can be computed. -/
instance decidableReady (d : Descriptor Float) : Decidable d.Ready :=
  decidable_of_iff ((∀ f ∈ d.fields, f.arity = .numeric → f.bucketizer.any (·.isValid) = true) ∧
      ∀ n ∈ d.extractUses, (d.field? n).isSome) <| by
    simp only [Option.any_eq_true]
    exact ⟨fun h => ⟨h.1, h.2⟩, fun h => ⟨h.bucketed, h.used⟩⟩

/-- **The stock is well-made.** -/
theorem ready_stock : ∀ entry ∈ (Stock.metrics : List (String × Descriptor Float)),
    entry.2.Ready := by
  decide +kernel

/-- The arity that a field has on every host that offers the metric. -/
def hostedArity (d : Descriptor Float) (n : String) : Option FieldArity :=
  (d.arityOf n).or (if n = hostnameField then some .discrete else none)

/-- A host adds one field, unless there is one of that name. -/
theorem field?_withHostname (d : Descriptor Float) (hostname n : String) :
    (d.withHostname hostname).field? n =
      (d.field? n).or (if n = hostnameField then
        some (.fixed hostnameField "hostname" [hostname]) else none) := by
  unfold withHostname
  split
  · next f known =>
    by_cases hn : n = hostnameField
    · rw [hn, known]
      rfl
    · rw [if_neg hn, Option.or_none]
  · next missing =>
    show Roster.find? _ n (Roster.put _ _ d.fields) = _
    rw [Roster.find?_put]
    change (if hostnameField = n then _ else d.field? n) = _
    by_cases hn : n = hostnameField
    · rw [hn, missing]
      rfl
    · rw [if_neg (Ne.symm hn), if_neg hn, Option.or_none]

/-- With the field for the hostname a metric has the arities that it has on every host. -/
theorem arityOf_withHostname (d : Descriptor Float) (hostname : String) :
    (d.withHostname hostname).arityOf = d.hostedArity := by
  funext n
  rw [arityOf, field?_withHostname, hostedArity, arityOf]
  cases d.field? n with
  | some f => rfl
  | none => split <;> rfl

/-- A metric that is ready is ready with the field for the hostname, too. -/
theorem Ready.withHostname {d : Descriptor Float} (ready : d.Ready) (hostname : String) :
    (d.withHostname hostname).Ready where
  bucketed f hf numeric := by
    have hFound := field?_of_mem hf
    rw [field?_withHostname, Option.or_eq_some_iff] at hFound
    rcases hFound with hOwn | ⟨-, hAdded⟩
    · exact ready.bucketed f (mem_of_field? hOwn) numeric
    · -- the field that the host adds groups
      split at hAdded
      · rw [← Option.some.inj hAdded] at numeric
        cases numeric
      · cases hAdded
  used n hn := by
    have hUses : (d.withHostname hostname).extractUses = d.extractUses := by
      unfold Descriptor.withHostname
      split <;> rfl
    rw [hUses] at hn
    rw [field?_withHostname, Option.isSome_or, ready.used n hn, Bool.true_or]

/-- The catalog entry of a metric has the arities of its fields. -/
theorem arityOf_statInfo (d : Descriptor Float) : d.statInfo.arityOf = d.arityOf := by
  funext n
  have hKeys : ((d.fields.map fun f => (f.name, f.info)).map (·.1)).Nodup := by
    rw [List.map_map]
    exact d.distinct
  have hFind : d.statInfo.fields.find? n = (d.field? n).map (·.info) := by
    refine Option.ext fun info => ?_
    rw [statInfo, Table.find?_ofList_iff hKeys, Option.map_eq_some_iff, List.mem_map]
    constructor
    · rintro ⟨f, hf, hSame⟩
      obtain ⟨rfl, rfl⟩ := Prod.mk.inj hSame
      exact ⟨f, field?_of_mem hf, rfl⟩
    · rintro ⟨f, hFound, rfl⟩
      exact ⟨f, mem_of_field? hFound, by rw [name_of_field? hFound]⟩
  rw [StatInfo.arityOf, hFind, Option.map_map]
  rfl

end Descriptor

/-- **Of a well-made descriptor only the arities matter.** What else a host checks never fails. -/
theorem Query.fits_iff_of_ready {d : Descriptor Float} (ready : d.Ready) {p : Predicate Float}
    {decomposition : List String} :
    Query.Fits d p decomposition ↔
      requestFault? d.module d.stat p decomposition d.arityOf = none := by
  rw [← Query.fault?_eq_none_iff, Query.fault?, Option.or_eq_none_iff]
  refine ⟨And.left, fun hRequest => ⟨hRequest, Option.or_eq_none_iff.mpr ⟨?_, ?_⟩⟩⟩
  · rw [Query.bucketizerFault?_eq_none_iff]
    intro f hf
    obtain ⟨n, -, hField⟩ := Query.mem_orderedFields.mp hf
    exact ready.bucketed f (Descriptor.mem_of_field? hField)
  · simp only [requestFault?_eq_none_iff, Descriptor.isSome_arityOf] at hRequest
    obtain ⟨hKnown, -, -, -, hCompared⟩ := hRequest
    rw [Query.missingField?_eq_none_iff]
    intro n hn
    rcases Query.mem_neededNames.mp hn with h | h | h | ⟨rfl, h⟩
    · exact hKnown n h
    · exact hCompared n h
    · exact ready.used n h
    · exact h

/-- A request asks for one of some metrics, and in a way that fits its fields. -/
def Spec.GrantedBy (s : Spec) (ds : List (Descriptor Float)) : Prop :=
  ∃ d ∈ ds, d.module = s.module ∧ d.stat = s.stat ∧
    requestFault? s.module s.stat s.predicate s.decomposition d.hostedArity = none

/-- The command that tells a host to start what a spec asks for. -/
def Spec.command (s : Spec) (id : InstId) (streamKey : String) : Message Float :=
  .enableInstrumentation id streamKey s.module s.stat s.predicate s.decomposition

/-- A host can compile exactly what fits the arities. -/
theorem Query.fits_withHostname_iff {d : Descriptor Float} (ready : d.Ready) (hostname : String)
    {p : Predicate Float} {decomposition : List String} :
    Query.Fits (d.withHostname hostname) p decomposition ↔
      requestFault? d.module d.stat p decomposition d.hostedArity = none := by
  obtain ⟨hModule, hStat⟩ := Instrumenter.withHostname_frame d hostname
  rw [Query.fits_iff_of_ready (ready.withHostname hostname), Descriptor.arityOf_withHostname,
    hModule, hStat]

/-! ## What a host can enable -/

namespace Instrumenter

/-- A host that has been offered certain metrics, in any order, whatever else has happened to
it. -/
def Offering (i : Instrumenter) (ds : List (Descriptor Float)) : Prop :=
  ∃ keyBase hostname ds', Equipped keyBase hostname ds' i ∧ ds'.Perm ds

/-- An instrumenter that offers metrics has them in stock. -/
theorem Offering.stocked {i : Instrumenter} {ds : List (Descriptor Float)}
    (offering : i.Offering ds) : i.Stocked ds := by
  obtain ⟨keyBase, hostname, ds', hEquipped, hPerm⟩ := offering
  obtain ⟨-, -, hStocked⟩ := stocked_of_equipped hEquipped
  exact { hStocked with
    offered := fun d hd => hStocked.offered d (hPerm.mem_iff.mpr hd)
    only := fun module stat r found =>
      let ⟨d, hd, hSpec⟩ := hStocked.only module stat r found
      ⟨d, hPerm.mem_iff.mp hd, hSpec⟩
    distinct := ((hPerm.map _).nodup_iff).mp hStocked.distinct }

variable {ds : List (Descriptor Float)} {i : Instrumenter}

/-- A host enables every request that its metrics grant. -/
theorem enable_of_granted (ready : ∀ d ∈ ds, d.Ready) (stocked : i.Stocked ds) {s : Spec}
    (granted : s.GrantedBy ds) (id : InstId) (streamKey : String) :
    ∃ after, i.enable id streamKey s.module s.stat s.predicate s.decomposition = .ok after := by
  obtain ⟨d, hd, hModule, hStat, hRequest⟩ := granted
  obtain ⟨scope, hMetric⟩ := stocked.offered d hd
  rw [hModule, hStat] at hMetric
  have hFits : Query.Fits (d.withHostname i.hostname) s.predicate s.decomposition := by
    rw [Query.fits_withHostname_iff (ready d hd), hModule, hStat]
    exact hRequest
  have hOutcome := i.enable_outcome id streamKey s.module s.stat s.predicate s.decomposition
  generalize i.enable id streamKey s.module s.stat s.predicate s.decomposition = result at hOutcome
  cases hOutcome with
  | unknown absent =>
    rw [hMetric] at absent
    cases absent
  | running => exact ⟨_, rfl⟩
  | unfit found idle fault =>
    rw [hMetric] at found
    rw [← Option.some.inj found, Query.compile_of_fits hFits] at fault
    cases fault
  | started => exact ⟨_, rfl⟩

/-- What a host starts is granted by its metrics. -/
theorem granted_of_enable (ready : ∀ d ∈ ds, d.Ready) (stocked : i.Stocked ds) {s : Spec}
    {id : InstId} (idle : i.isActive id = false) {streamKey : String} {after : Instrumenter}
    (enabled : i.enable id streamKey s.module s.stat s.predicate s.decomposition = .ok after) :
    s.GrantedBy ds := by
  have hOutcome := i.enable_outcome id streamKey s.module s.stat s.predicate s.decomposition
  rw [enabled] at hOutcome
  cases hOutcome with
  | running found active =>
    rw [idle] at active
    cases active
  | started found _ compiled =>
    obtain ⟨d, hd, hModule, hStat, hDescriptor⟩ := stocked.only _ _ _ found
    rw [hDescriptor] at compiled
    have hFits := (Query.compile_eq_ok.mp compiled).1
    rw [Query.fits_withHostname_iff (ready d hd), hModule, hStat] at hFits
    exact ⟨d, hd, hModule, hStat, hFits⟩

/-! ## What a host announces -/

/-- What is on offer is listed in order. -/
theorem ordered_catalog (stocked : i.Stocked ds) : i.catalog.Ordered where
  modules := Table.ascending_mapValues stocked.modules _
  stats module m found := by
    rw [catalog, Table.find?_mapValues, Option.map_eq_some_iff] at found
    obtain ⟨label, -, rfl⟩ := found
    have hStats : ((i.metrics.find? module).getD []).Ascending := by
      cases hFind : i.metrics.find? module with
      | none => exact Table.ascending_nil
      | some stats => exact stocked.offers.stats _ _ hFind
    exact Table.ascending_mapValues hStats fun _ r => r.descriptor.statInfo
  fields module stat s found := by
    rw [stat?_catalog stocked, Option.map_eq_some_iff] at found
    obtain ⟨r, -, rfl⟩ := found
    exact Table.ascending_ofList _

end Instrumenter

/-- A catalog lists metrics: whatever it knows is one of them, with its arities. -/
structure Catalog.Lists (c : Catalog) (ds : List (Descriptor Float)) : Prop where
  ordered : c.Ordered
  only : ∀ module stat info, c.stat? module stat = some info →
    ∃ d ∈ ds, d.module = module ∧ d.stat = stat ∧ info.arityOf = d.hostedArity

/-- A catalog lists all of some metrics, and these have different names. -/
structure Catalog.ListsAll (c : Catalog) (ds : List (Descriptor Float)) : Prop where
  all : ∀ d ∈ ds, (c.stat? d.module d.stat).isSome
  distinct : (ds.map fun d => (d.module, d.stat)).Nodup

/-- A host announces what it has been offered. -/
theorem Instrumenter.lists_catalog {i : Instrumenter} {ds : List (Descriptor Float)}
    (stocked : i.Stocked ds) : i.catalog.Lists ds ∧ i.catalog.ListsAll ds := by
  refine ⟨⟨ordered_catalog stocked, fun module stat info found => ?_⟩, fun d hd => ?_,
    stocked.distinct⟩
  · rw [stat?_catalog stocked, Option.map_eq_some_iff] at found
    obtain ⟨r, hMetric, rfl⟩ := found
    obtain ⟨d, hd, hModule, hStat, hDescriptor⟩ := stocked.only _ _ _ hMetric
    refine ⟨d, hd, hModule, hStat, ?_⟩
    rw [Descriptor.arityOf_statInfo, hDescriptor, Descriptor.arityOf_withHostname]
  · obtain ⟨scope, hMetric⟩ := stocked.offered d hd
    rw [stat?_catalog stocked, hMetric]
    rfl

namespace Catalog

variable {c news : Catalog} {ds : List (Descriptor Float)}

/-- Metrics with different names are told apart by their names. -/
theorem eq_of_names (distinct : (ds.map fun d => (d.module, d.stat)).Nodup) {d d' : Descriptor Float}
    (hd : d ∈ ds) (hd' : d' ∈ ds) (module : d.module = d'.module) (stat : d.stat = d'.stat) :
    d = d' :=
  List.inj_on_of_nodup_map distinct hd hd' (by rw [module, stat])

/-- Announcements of the same metrics can be merged: whichever came first, the arities are the
same. -/
theorem lists_merge (known : c.Lists ds) (lists : news.Lists ds) (all : news.ListsAll ds) :
    (c.merge news).Lists ds ∧ (c.merge news).ListsAll ds := by
  have hStat := stat?_merge known.ordered lists.ordered
  refine ⟨⟨ordered_merge known.ordered lists.ordered, fun module stat info found => ?_⟩,
    fun d hd => ?_, all.distinct⟩
  · rw [hStat, Option.or_eq_some_iff, Option.map_eq_some_iff] at found
    rcases found with ⟨s, hNews, rfl⟩ | ⟨-, hKept⟩
    · obtain ⟨d, hd, hModule, hName, hArity⟩ := lists.only _ _ _ hNews
      refine ⟨d, hd, hModule, hName, ?_⟩
      funext field
      rw [arityOf_mergeStat (fun s' => known.ordered.fields module stat s')
        (lists.ordered.fields _ _ _ hNews), hArity]
      cases hOld : c.stat? module stat with
      | none => rfl
      | some s' =>
        -- what was known is the same metric, since there is only one of its names
        obtain ⟨d', hd', hModule', hName', hArity'⟩ := known.only _ _ _ hOld
        obtain rfl := eq_of_names all.distinct hd hd' (hModule.trans hModule'.symm)
          (hName.trans hName'.symm)
        rw [Option.bind_some, hArity', Option.or_self]
    · exact known.only _ _ _ hKept
  · rw [hStat, Option.isSome_or, Option.isSome_map, all.all d hd, Bool.true_or]

end Catalog

/-! ## What the coordinator knows -/

/-- A notice comes from a host that has been offered certain metrics. -/
def Event.Announces (x : Event) (ds : List (Descriptor Float)) : Prop :=
  ∀ modules, x.catalog? = some modules → ∃ i : Instrumenter, i.Offering ds ∧ i.catalog = modules

namespace Coordinator

variable {ds : List (Descriptor Float)} {c : Coordinator}

/-- A coordinator has heard of certain metrics only, and every record is for one of them. -/
structure Informed (c : Coordinator) (ds : List (Descriptor Float)) : Prop where
  sound : c.Sound
  lists : c.registry.catalog.Lists ds
  granted : ∀ id i, c.instrumentations.find? id = some i → i.spec.GrantedBy ds

/-- What the coordinator accepts is granted by the metrics that it has heard of. -/
theorem granted_of_fault? (lists : c.registry.catalog.Lists ds) {s : Spec}
    (accepted : c.fault? s = none) : s.GrantedBy ds := by
  unfold fault? at accepted
  split at accepted
  · cases accepted
  · split at accepted
    · cases accepted
    · split at accepted
      · cases accepted
      · next info found =>
        obtain ⟨d, hd, hModule, hStat, hArity⟩ := lists.only _ _ _ found
        rw [hArity, Option.map_eq_none_iff] at accepted
        exact ⟨d, hd, hModule, hStat, accepted⟩

/-- What the metrics grant is accepted, once the coordinator has heard of them. -/
theorem fault?_of_granted (lists : c.registry.catalog.Lists ds)
    (all : c.registry.catalog.ListsAll ds) {s : Spec} (module : Text.isAllBlank s.module = false)
    (stat : Text.isAllBlank s.stat = false) (granted : s.GrantedBy ds) : c.fault? s = none := by
  obtain ⟨d, hd, hModule, hStat, hRequest⟩ := granted
  obtain ⟨info, hInfo⟩ := Option.isSome_iff_exists.mp (all.all d hd)
  obtain ⟨d', hd', hModule', hStat', hArity⟩ := lists.only _ _ _ hInfo
  obtain rfl := Catalog.eq_of_names all.distinct hd' hd hModule' hStat'
  rw [hModule, hStat] at hInfo
  rw [fault?, module, stat]
  simp only [hInfo, hArity, hRequest]
  rfl

/-- Every record after an event asks for one of the metrics, in a way that fits its fields. -/
theorem granted_step (informed : c.Informed ds) {x : Event} {id : InstId} {i : Instrumentation}
    (found : (c.step x).coordinator.instrumentations.find? id = some i) : i.spec.GrantedBy ds := by
  rcases origin_step informed.sound found with ⟨j, hBefore, hFixed⟩ | ⟨-, hAccepted⟩
  · have hSpec : i.spec = j.spec := congrArg (·.2.1) hFixed
    exact hSpec ▸ informed.granted id j hBefore
  · exact granted_of_fault? informed.lists hAccepted

/-- Announcements of the same metrics keep a coordinator informed, and the first one informs it of
them all. -/
theorem informed_step (informed : c.Informed ds) {x : Event} (announces : x.Announces ds) :
    (c.step x).coordinator.Informed ds ∧
      (x.catalog?.isSome ∨ c.registry.catalog.ListsAll ds →
        (c.step x).coordinator.registry.catalog.ListsAll ds) := by
  have hCatalog := catalog_step informed.sound x
  have hSound := sound_step informed.sound x
  cases hNotice : x.catalog? with
  | none =>
    rw [hNotice] at hCatalog
    rw [hCatalog]
    refine ⟨⟨hSound, hCatalog ▸ informed.lists, fun id i => granted_step informed⟩, ?_⟩
    rintro (h | h)
    · cases h
    · exact h
  | some modules =>
    obtain ⟨host, hOffering, rfl⟩ := announces modules hNotice
    obtain ⟨hLists, hAll⟩ := Instrumenter.lists_catalog hOffering.stocked
    obtain ⟨hMerged, hMergedAll⟩ := Catalog.lists_merge informed.lists hLists hAll
    rw [hNotice] at hCatalog
    rw [hCatalog]
    exact ⟨⟨hSound, hCatalog ▸ hMerged, fun id i => granted_step informed⟩, fun _ => hMergedAll⟩

/-- What a coordinator knows after a history in which all hosts announce the same. -/
theorem informed_run (keyBase : String) (ackTimeout : Nat) {history : List Event}
    (alike : ∀ x ∈ history, x.Announces ds) :
    let c := (Coordinator.new keyBase ackTimeout).run history
    c.Informed ds ∧
      ((∃ x ∈ history, x.catalog?.isSome) → c.registry.catalog.ListsAll ds) := by
  induction history using List.reverseRecOn with
  | nil =>
    exact ⟨⟨sound_new keyBase ackTimeout, ⟨Catalog.ordered_nil, nofun⟩, nofun⟩, by simp⟩
  | append_singleton xs x ih =>
    obtain ⟨hInformed, hAll⟩ := ih fun y hy => alike y (by simp [hy])
    obtain ⟨hNext, hNextAll⟩ := informed_step hInformed (alike x (by simp))
    rw [run_concat]
    refine ⟨hNext, ?_⟩
    rintro ⟨y, hy, hNotice⟩
    rcases List.mem_append.mp hy with hy | hy
    · exact hNextAll (.inr (hAll ⟨y, hy, hNotice⟩))
    · rw [List.mem_singleton.mp hy] at hNotice
      exact hNextAll (.inl hNotice)

/-- Whatever tells a host to start asks for one of the metrics that the coordinator has heard of. -/
theorem granted_of_sent (informed : c.Informed ds) {x : Event} {d : Dispatch}
    (sent : d ∈ (c.step x).sent) {id : InstId} {streamKey module stat : String}
    {predicate : Predicate Float} {decomposition : List String}
    (command : d.2 =
      .enableInstrumentation id streamKey module stat predicate decomposition) :
    ∃ s : Spec, s.GrantedBy ds ∧ d.2 = s.command id streamKey := by
  have hOrder : d.2.order? .instrumentation id = some (.start d.2) := by
    rw [command]
    exact if_pos rfl
  have hMem : (d.1, .start d.2) ∈ ordersIn (c.step x).sent .instrumentation id :=
    List.mem_filterMap.mpr ⟨d, sent, by rw [hOrder]; rfl⟩
  have hChange := change_step informed.sound x id
  have hRecorded := informed.granted id
  -- the command is that of a record, and carries what the record asks for
  have hSpec : ∀ i : Instrumentation, i.spec.GrantedBy ds → d.2 = i.command .instrumentation →
      ∃ s : Spec, s.GrantedBy ds ∧ d.2 = s.command id streamKey := by
    intro i granted same
    rw [command] at same
    obtain ⟨rfl, rfl, -⟩ := Message.enableInstrumentation.inj same
    exact ⟨i.spec, granted, command.trans same⟩
  generalize hOrders : (fun w => ordersIn (c.step x).sent w id) = orders at hChange
  rw [congrFun hOrders .instrumentation] at hMem
  generalize c.instrumentations.find? id = before at hChange hRecorded
  generalize (c.step x).coordinator.instrumentations.find? id = after at hChange
  cases hChange with
  | rest => cases hMem
  | @created s ticket now a chosen next =>
    obtain ⟨key, -, hSame⟩ := List.mem_map.mp hMem
    refine hSpec (c.newRecord s ticket now a.hostname) ?_
      (Order.start.inj (Prod.mk.inj hSame).2).symm
    exact granted_of_fault? informed.lists (fault?_of_chosen? chosen)
  | @recalled i e now w r arrives owed =>
    dsimp only at hMem
    split at hMem
    · next hKind =>
      obtain rfl := hKind
      have hSame := Order.start.inj (Prod.mk.inj (List.mem_singleton.mp hMem)).2
      exact hSpec i (hRecorded i rfl) hSame
    · cases hMem
  | removed | heard | expired =>
    obtain ⟨key, -, hSame⟩ := List.mem_map.mp hMem
    cases (Prod.mk.inj hSame).2

/-- **What is accepted can be enabled, and what is refused could not be.** In a fleet whose hosts
have all been offered the same well-made metrics, after any history,

* a spec that passes validation is launched with one command to every known instrumenter, and
  whichever host of the fleet reads such a command, under any number, acknowledges it as `enabled`;
* so it does with every command to start that the coordinator sends, whatever happens next, in
  particular with those that are repeated for a host that comes online again;
* a spec whose names are not blank and that does not pass, though some host has announced itself,
  is one that every host refuses for a number that it does not sample for. -/
theorem accepted_iff_enabled (keyBase : String) (ackTimeout : Nat) {history : List Event}
    (ready : ∀ d ∈ ds, d.Ready) (alike : ∀ x ∈ history, x.Announces ds) :
    let c := (Coordinator.new keyBase ackTimeout).run history
    (∀ s : Spec, c.fault? s = none →
      (∀ a ticket now, c.registry.selectAggregator = .ok a → (c.create s ticket now).sent =
        (a.routingKey, .enableAggregation c.nextId (c.streamKey c.nextId)) ::
          c.registry.instrumenters.records.map fun r =>
            (r.routingKey, s.command c.nextId (c.streamKey c.nextId))) ∧
      ∀ i : Instrumenter, i.Offering ds → ∀ source host id streamKey,
        (i.handle ⟨source, host, s.command id streamKey⟩).2 =
          [(source, .ack .enable .instrumentation id .enabled none)]) ∧
    (∀ x, ∀ d ∈ (c.step x).sent, ∀ id streamKey module stat predicate decomposition,
      d.2 = .enableInstrumentation id streamKey module stat predicate decomposition →
        ∀ i : Instrumenter, i.Offering ds → ∀ source host,
          (i.handle ⟨source, host, d.2⟩).2 =
            [(source, .ack .enable .instrumentation id .enabled none)]) ∧
    ∀ s : Spec, (∃ x ∈ history, x.catalog?.isSome) → Text.isAllBlank s.module = false →
      Text.isAllBlank s.stat = false → c.fault? s ≠ none →
        ∀ i : Instrumenter, i.Offering ds → ∀ source host id streamKey, i.isActive id = false →
          ∃ error, (i.handle ⟨source, host, s.command id streamKey⟩).2 =
            [(source, .ack .enable .instrumentation id .disabled (some error))] := by
  intro c
  obtain ⟨hInformed, hAll⟩ := informed_run keyBase ackTimeout alike
  -- a host answers every command for what is granted
  have hGranted : ∀ s : Spec, s.GrantedBy ds → ∀ i : Instrumenter, i.Offering ds →
      ∀ source host id streamKey, (i.handle ⟨source, host, s.command id streamKey⟩).2 =
        [(source, .ack .enable .instrumentation id .enabled none)] := by
    intro s granted i offering source host id streamKey
    obtain ⟨after, hEnable⟩ :=
      Instrumenter.enable_of_granted ready offering.stocked granted id streamKey
    rw [Spec.command, Instrumenter.handle_enable, hEnable]
  refine ⟨fun s accepted => ⟨fun a ticket now selected => ?_,
    hGranted s (granted_of_fault? hInformed.lists accepted)⟩, ?_, ?_⟩
  · rw [create, accepted, selected]
    rfl
  · intro x d sent id streamKey module stat predicate decomposition command i offering source host
    obtain ⟨s, granted, hCommand⟩ := granted_of_sent hInformed sent command
    rw [hCommand]
    exact hGranted s granted i offering source host id streamKey
  · intro s heard hModule hStat refused i offering source host id streamKey idle
    rw [Spec.command, Instrumenter.handle_enable]
    cases hEnable : i.enable id streamKey s.module s.stat s.predicate s.decomposition with
    | error e => exact ⟨e.message, rfl⟩
    | ok after =>
      have hSpec := Instrumenter.granted_of_enable ready offering.stocked idle hEnable
      exact absurd (fault?_of_granted hInformed.lists (hAll heard) hModule hStat hSpec) refused

/-- Two hosts with the whole stock come online after an aggregator. A spec that is broken down by
host passes validation, and one that is broken down by an unknown field does not; each host says the
same. -/
theorem accepted_iff_enabled_brief :
    let stock : List (Descriptor Float) := (Stock.metrics.map (·.2)).reverse
    let host (name : String) := ((Instrumenter.new "k" name).addStock).1
    let notice (name : String) : Event := .receive ⟨"k.instrumenter." ++ name, name,
      .instrumenterOnline (.current "instrumenter") (host name).catalog⟩ ⟨0⟩
    let history : List Event :=
      [.receive ⟨"k.aggregator.g", "g", .aggregatorOnline (.current "aggregator")⟩ ⟨0⟩,
        notice "a", notice "b"]
    let spec (field : String) : Spec := ⟨"disk", "physio_ops", .trivial, ["hostname", field], []⟩
    (∀ d ∈ stock, d.Ready) ∧ (∀ x ∈ history, x.Announces stock) ∧
      (((host "b").handle ⟨"c", "c", (spec "optype").command 1 "k.1"⟩).2 =
        [("c", .ack .enable .instrumentation 1 .enabled none)]) ∧
      ∃ error, ((host "b").handle ⟨"c", "c", (spec "zonename").command 1 "k.1"⟩).2 =
        [("c", .ack .enable .instrumentation 1 .disabled (some error))] := by
  intro stock host notice history spec
  have hReady : ∀ d ∈ stock, d.Ready := by
    intro d hd
    obtain ⟨entry, hEntry, rfl⟩ := List.mem_map.mp (List.mem_reverse.mp hd)
    exact Descriptor.ready_stock entry hEntry
  have hOffering : ∀ name, (host name).Offering stock := fun name =>
    ⟨"k", name, stock, (Instrumenter.equipped_addStock "k" name).2, .rfl⟩
  have hAnnounces : ∀ x ∈ history, x.Announces stock := by
    intro x hx modules hCatalog
    rcases List.mem_cons.mp hx with rfl | hx
    · cases hCatalog
    · rcases List.mem_cons.mp hx with rfl | hx
      · exact ⟨host "a", hOffering "a", Option.some.inj hCatalog⟩
      · obtain rfl := List.mem_singleton.mp hx
        exact ⟨host "b", hOffering "b", Option.some.inj hCatalog⟩
  obtain ⟨hAccepted, -, hRefused⟩ := accepted_iff_enabled "k" 3 hReady hAnnounces
  have hGood : ((Coordinator.new "k" 3).run history).fault? (spec "optype") = none := by
    decide +kernel
  have hBad : ((Coordinator.new "k" 3).run history).fault? (spec "zonename") ≠ none := by
    decide +kernel
  have hNamed : Text.isAllBlank (spec "zonename").module = false ∧
      Text.isAllBlank (spec "zonename").stat = false := by decide +kernel
  exact ⟨hReady, hAnnounces,
    (hAccepted _ hGood).2 (host "b") (hOffering "b") "c" "c" 1 "k.1",
    hRefused _ ⟨notice "a", by simp [history], rfl⟩ hNamed.1 hNamed.2 hBad (host "b")
      (hOffering "b") "c" "c" 1 "k.1" rfl⟩

end Coordinator

end FleetMetrics
