import Mathlib
import FleetMetrics.Arithmetic.Binary64
import FleetMetrics.Proofs.Retention

/-!
# The latest report of a host

A host may report more than once in a second, and reports may overtake each other on their way. An
aggregator files a report under the second it was sampled in and then forgets the time: a slot has
one value for each host, and a report that is accepted replaces it. So "the latest value of a host"
can mean two things. Sampled last is what a reader of the slot would expect, since all that the
slot is for is the time of sampling; handled last is what it is.

The two agree as long as the reports of each host are handled in the order in which they were
sampled, and nothing else helps. Given any reports of which one host makes two with different
values, there is an order of delivery in which the slot has the wrong one
(`latest_in_every_order_iff`); two reports of one host are enough (`older_displaces_newer`).

Values are asked to fit those of other hosts, so that none is dropped, and the second to be kept.
Between the reports anything else may arrive, but for the end of the instrumentation.

Main results:

* `accepted_eq_of_fits` — reports that fit are all accepted.
* `has_run` — what is collected for one second, by the reports for it alone.
* `Observation.valueOf_newest` — reports in the order of sampling end with the newest.
* `latest_in_every_order_iff` — what a host has in the end, and when this is its newest value.
-/

namespace FleetMetrics

variable {N : Type} [Arithmetic N]

/-! ## Observations -/

/-- A value of a host with the time it was sampled at. -/
structure Observation (N : Type) where
  hostname : String
  sampledAt : Timestamp
  value : ReducedValue N

namespace Observation

/-- What an aggregator looks at. -/
def report (o : Observation N) : Report N :=
  ⟨o.hostname, o.sampledAt.seconds, o.value⟩

/-- The message with the observation. -/
def envelope (o : Observation N) (source : String) (id : InstId) : Envelope N :=
  ⟨source, o.hostname, .data id o.sampledAt o.value⟩

/-- No observation of the same host was sampled later. -/
structure Newest (os : List (Observation N)) (o : Observation N) : Prop where
  mem : o ∈ os
  le : ∀ o' ∈ os, o'.hostname = o.hostname → o'.sampledAt.nanos ≤ o.sampledAt.nanos

/-- The observations of each host stand in the order of sampling. -/
def InOrder (os : List (Observation N)) : Prop :=
  os.Pairwise fun o o' => o.hostname = o'.hostname → o.sampledAt.nanos < o'.sampledAt.nanos

instance (os : List (Observation N)) : Decidable (InOrder os) :=
  inferInstanceAs (Decidable (os.Pairwise _))

end Observation

/-- The observation that an envelope bears for a second of an instrumentation. -/
def Envelope.observation? (e : Envelope N) (id : InstId) (second : Int) :
    Option (Observation N) :=
  match e.message with
  | .data id' sampledAt value =>
    if id' = id ∧ sampledAt.seconds = second then some ⟨e.hostname, sampledAt, value⟩ else none
  | _ => none

/-- The observations for a second of an instrumentation, in the order of their arrival. -/
def observations (id : InstId) (second : Int) (es : List (Envelope N)) : List (Observation N) :=
  es.filterMap (·.observation? id second)

/-- Every host has the value that was sampled last. -/
def Slot.HasNewest (s : Slot N) (os : List (Observation N)) : Prop :=
  ∀ o, Observation.Newest os o → s.hosts.find? o.hostname = some o.value

namespace Observation

omit [Arithmetic N]

variable {os : List (Observation N)} {o : Observation N}

theorem exists_newest (mem : o ∈ os) : ∃ n, Newest os n ∧ n.hostname = o.hostname := by
  -- the last in time among the observations of the host
  have hOwn : o ∈ os.filter (·.hostname = o.hostname) := by simpa using mem
  cases hMax : (os.filter (·.hostname = o.hostname)).argmax (·.sampledAt.nanos) with
  | none =>
    rw [List.argmax_eq_none.mp hMax] at hOwn
    cases hOwn
  | some n =>
    obtain ⟨hMem, hHost⟩ := List.mem_filter.mp (List.argmax_mem hMax)
    simp only [decide_eq_true_eq] at hHost
    refine ⟨n, ⟨hMem, fun o' hMem' hHost' => ?_⟩, hHost⟩
    have hOwn' : o' ∈ os.filter (·.hostname = o.hostname) := by simp [hMem', hHost', hHost]
    exact List.le_of_mem_argmax (f := fun o => o.sampledAt.nanos) hOwn' hMax

/-- A host that is observed has one of its values. -/
theorem exists_valueOf (mem : o ∈ os) : ∃ o' ∈ os, o'.hostname = o.hostname ∧
    valueOf (os.map report) o.hostname = some o'.value := by
  have hSome : ((os.map report).reverse.find? (·.hostname = o.hostname)).isSome = true := by
    rw [List.find?_isSome]
    exact ⟨o.report, List.mem_reverse.mpr (List.mem_map_of_mem mem), decide_eq_true rfl⟩
  obtain ⟨r, hFind⟩ := Option.isSome_iff_exists.mp hSome
  obtain ⟨o', ho', rfl⟩ := List.mem_map.mp (List.mem_reverse.mp (List.mem_of_find?_eq_some hFind))
  have hHost : o'.report.hostname = o.hostname := by simpa using List.find?_some hFind
  exact ⟨o', ho', hHost, by rw [valueOf, hFind]; rfl⟩

/-- In the order of sampling, the last observation of a host is its newest. -/
theorem valueOf_newest (ordered : InOrder os) (newest : Newest os o) :
    valueOf (os.map report) o.hostname = some o.value := by
  induction os using List.reverseRecOn with
  | nil => cases newest.mem
  | append_singleton os last ih =>
    obtain ⟨hOrdered, -, hLast⟩ := List.pairwise_append.mp ordered
    rw [List.map_append, List.map_singleton, valueOf_concat]
    rcases List.mem_append.mp newest.mem with hMem | hMem
    · split
      · next hHost =>
        -- a later observation of the host would be newer than the newest
        have hLater := hLast o hMem last (List.mem_singleton_self _) hHost
        have hEarlier := newest.le last (by simp) hHost.symm
        omega
      · exact ih hOrdered ⟨hMem, fun o' ho' => newest.le o' (List.mem_append_left _ ho')⟩
    · obtain rfl := List.mem_singleton.mp hMem
      exact if_pos rfl

end Observation

/-- Reports that fit those of other hosts are all accepted. -/
theorem accepted_eq_of_fits {second : Int} {os : List (Observation N)}
    (same : ∀ o ∈ os, o.sampledAt.seconds = second)
    (fits : ∀ o ∈ os, ∀ o' ∈ os, o.hostname ≠ o'.hostname → o.value.Fits o'.value) :
    accepted second (os.map Observation.report) = os.map Observation.report := by
  induction os using List.reverseRecOn with
  | nil => rfl
  | append_singleton os last ih =>
    have hEarlier := ih (fun o ho => same o (List.mem_append_left _ ho))
      fun o ho o' ho' => fits o (List.mem_append_left _ ho) o' (List.mem_append_left _ ho')
    have hLast : last ∈ os ++ [last] := by simp
    -- the values in the slot are values of earlier reports
    have hJoins : last.report.Joins (os.map Observation.report) := by
      intro other _ hne v hv
      obtain ⟨r, hr, hHost, rfl⟩ := exists_of_valueOf hv
      obtain ⟨o, ho, rfl⟩ := List.mem_map.mp hr
      exact fits last hLast o (List.mem_append_left _ ho) fun h => hne (hHost.symm.trans h.symm)
    rw [List.map_append, List.map_singleton, accepted_concat, hEarlier,
      if_pos ⟨same last hLast, hJoins⟩]

/-! ## Runs -/

namespace Aggregation

variable {retain : Nat} {g : Aggregation N} {second : Int}

omit [Arithmetic N] in
theorem countP_insert_self (w : Table Int (Slot N)) (slot : Slot N) :
    (w.insert second slot).countP (fun entry => second < entry.1) =
      w.countP fun entry => second < entry.1 := by
  induction w with
  | nil => simp [Table.insert, Table.alter]
  | cons entry rest ih =>
    simp only [Table.insert, Table.alter] at ih ⊢
    split
    · simp
    · next hSame =>
      have hKey : second = entry.1 := compare_eq_iff_eq.mp hSame
      simp [hKey]
    · simp only [List.countP_cons, ih]

/-- A value for a second does not take the room for it. -/
theorem room_record (room : ¬ Crowded retain g.window second) (h : String)
    (value : ReducedValue N) : ¬ Crowded retain (g.record retain h second value).window second := by
  intro crowded
  refine room (crowded.trans ?_)
  rw [← countP_insert_self g.window (g.slotAfter h second value)]
  exact List.Sublist.countP_le (List.drop_sublist _ _)

end Aggregation

namespace Aggregator

variable {a : Aggregator N} {id : InstId} {second : Int}

/-- An envelope brings an observation for the second, or a value for another one, or it leaves what
is collected alone. -/
theorem find?_observe (tidy : a.Tidy) {e : Envelope N} {g : Aggregation N}
    (found : a.store.find? id = some g) (lasts : e.message ≠ .disable .aggregation id)
    (second : Int) :
    ∃ g', (a.handle e).1.store.find? id = some g' ∧
      ((∃ o, e.observation? id second = some o ∧
          g' = g.record a.retain o.hostname o.sampledAt.seconds o.value) ∨
        e.observation? id second = none ∧
          (g' = g ∨ ∃ s value, s ≠ second ∧ g' = g.record a.retain e.hostname s value)) := by
  have hFollow := find?_follow tidy e id
  rw [found] at hFollow
  obtain ⟨source, hostname, m⟩ := e
  cases m with
  | enableAggregation id' streamKey =>
    exact ⟨g, hFollow.trans (ite_self _), .inr ⟨rfl, .inl rfl⟩⟩
  | disable w id' =>
    cases w with
    | instrumentation => exact ⟨g, hFollow, .inr ⟨rfl, .inl rfl⟩⟩
    | aggregation =>
      have hne : id' ≠ id := by
        rintro rfl
        exact lasts rfl
      exact ⟨g, hFollow.trans (if_neg hne), .inr ⟨rfl, .inl rfl⟩⟩
  | data id' sampledAt value =>
    by_cases hId : id' = id
    · refine ⟨_, hFollow.trans (if_pos hId), ?_⟩
      by_cases hSecond : sampledAt.seconds = second
      · exact .inl ⟨⟨hostname, sampledAt, value⟩, if_pos ⟨hId, hSecond⟩, rfl⟩
      · exact .inr ⟨if_neg fun h => hSecond h.2, .inr ⟨_, _, hSecond, rfl⟩⟩
    · exact ⟨g, hFollow.trans (if_neg hId), .inr ⟨if_neg fun h => hId h.1, .inl rfl⟩⟩
  | _ => exact ⟨g, hFollow, .inr ⟨rfl, .inl rfl⟩⟩

/-- What is collected for one second, by the reports for it alone. -/
theorem has_run (tidy : a.Tidy) {g : Aggregation N} (found : a.store.find? id = some g)
    (fresh : g.window.find? second = none) {es : List (Envelope N)}
    (lasts : ∀ e ∈ es, e.message ≠ .disable .aggregation id)
    (tables : ∀ o ∈ observations id second es, o.value.Ordered) :
    ∃ g', (a.handleAll es).store.find? id = some g' ∧
      g'.Has a.retain ((observations id second es).map Observation.report) second := by
  induction es using List.reverseRecOn with
  | nil => exact ⟨g, found, .inr (.inl ⟨List.not_mem_nil, fresh⟩)⟩
  | append_singleton es e ih =>
    have hSplit : observations id second (es ++ [e]) =
        observations id second es ++ (e.observation? id second).toList := by
      rw [observations, List.filterMap_append]
      cases hLast : e.observation? id second <;> simp [observations, hLast]
    rw [hSplit] at tables ⊢
    obtain ⟨g', hFound, hHas⟩ := ih (fun e' he' => lasts e' (List.mem_append_left _ he'))
      fun o ho => tables o (List.mem_append_left _ ho)
    have hTidy := tidy_handleAll tidy es
    have hTidy' := hTidy.tidy id g' hFound
    rw [retain_handleAll] at hTidy'
    obtain ⟨g'', hFound', hStep⟩ := find?_observe hTidy hFound (lasts e (by simp)) second
    rw [retain_handleAll] at hStep
    refine ⟨g'', by rw [handleAll_concat, hFound'], ?_⟩
    -- a report about the second enters its slot, one about another second may push it out
    rcases hStep with ⟨o, hObserved, rfl⟩ | ⟨hNone, rfl | ⟨s, value, hApart, rfl⟩⟩
    · rw [hObserved] at tables ⊢
      rw [Option.toList_some, List.map_append, List.map_singleton]
      exact Aggregation.has_record (r := o.report) hTidy' hHas (tables o (by simp))
    · rw [hNone, Option.toList_none, List.append_nil]
      exact hHas
    · rw [hNone, Option.toList_none, List.append_nil]
      exact Aggregation.has_record_of_ne hTidy' hHas hApart value

/-- Reports for one second alone do not take the room for it. -/
theorem room_run (tidy : a.Tidy) {g : Aggregation N} (found : a.store.find? id = some g)
    (room : ¬ Crowded a.retain g.window second) {os : List (Observation N)}
    (same : ∀ o ∈ os, o.sampledAt.seconds = second) (source : String) :
    ∃ g', (a.handleAll (os.map (·.envelope source id))).store.find? id = some g' ∧
      ¬ Crowded a.retain g'.window second := by
  induction os using List.reverseRecOn with
  | nil => exact ⟨g, found, room⟩
  | append_singleton os o ih =>
    obtain ⟨g', hFound, hRoom⟩ := ih fun o' ho' => same o' (List.mem_append_left _ ho')
    have hTidy := tidy_handleAll tidy (os.map (·.envelope source id))
    have hEnter : (o.envelope source id).follow id (fun streamKey => ⟨streamKey, []⟩)
        (fun g r => g.record a.retain r.hostname r.second r.value) (some g') =
          some (g'.record a.retain o.hostname o.sampledAt.seconds o.value) := if_pos rfl
    rw [List.map_append, List.map_singleton, handleAll_concat, find?_follow hTidy, hFound,
      retain_handleAll, hEnter]
    refine ⟨_, rfl, ?_⟩
    rw [same o (by simp)]
    exact Aggregation.room_record hRoom _ _

omit [Arithmetic N] in
theorem observations_envelopes {os : List (Observation N)}
    (same : ∀ o ∈ os, o.sampledAt.seconds = second) (source : String) (id : InstId) :
    observations id second (os.map (·.envelope source id)) = os := by
  rw [observations, List.filterMap_map]
  refine (List.filterMap_congr fun o ho => ?_).trans List.filterMap_some
  exact if_pos ⟨rfl, same o ho⟩

/-- Some envelopes deliver observations, in any order and with anything in between but the end of
the instrumentation, and the second is kept. -/
structure Delivers (a : Aggregator N) (id : InstId) (second : Int) (os : List (Observation N))
    (es : List (Envelope N)) : Prop where
  lasts : ∀ e ∈ es, e.message ≠ .disable .aggregation id
  perm : (observations id second es).Perm os
  kept : second ∈ (a.handleAll es).seconds id

/-- What a delivery leaves in the slot: of each host what was handled last. -/
theorem keeps_delivered (tidy : a.Tidy) {g : Aggregation N} (found : a.store.find? id = some g)
    (fresh : g.window.find? second = none) {os : List (Observation N)}
    (same : ∀ o ∈ os, o.sampledAt.seconds = second) (tables : ∀ o ∈ os, o.value.Ordered)
    (fits : ∀ o ∈ os, ∀ o' ∈ os, o.hostname ≠ o'.hostname → o.value.Fits o'.value)
    {es : List (Envelope N)} (delivers : a.Delivers id second os es) :
    ∃ slot, ((a.handleAll es).window id).find? second = some slot ∧
      slot.Keeps ((observations id second es).map Observation.report) := by
  have hMem : ∀ {o}, o ∈ observations id second es → o ∈ os := delivers.perm.mem_iff.mp
  obtain ⟨g', hFound, hHas⟩ := has_run tidy found fresh delivers.lasts
    fun o ho => tables o (hMem ho)
  have hTidy := (tidy_handleAll tidy es).tidy id g' hFound
  have hWindow : (a.handleAll es).window id = g'.window := by rw [window, hFound]
  have hKept : (g'.window.find? second).isSome = true := by
    rw [← Table.mem_keys_iff hTidy.sorted, ← hWindow]
    exact delivers.kept
  rw [retain_handleAll] at hTidy
  rw [hWindow]
  rcases hHas with hCrowded | ⟨-, hNone⟩ | ⟨slot, hSlot, -, hKeeps⟩
  · rw [find?_of_crowded hTidy.bounded hCrowded] at hKept
    cases hKept
  · rw [hNone] at hKept
    cases hKept
  · refine ⟨slot, hSlot, ?_⟩
    rwa [accepted_eq_of_fits (fun o ho => same o (hMem ho))
      fun o ho o' ho' => fits o (hMem ho) o' (hMem ho')] at hKeeps

/-- Any order of some observations is delivered, if there is room for the second. -/
theorem delivers_envelopes (tidy : a.Tidy) {g : Aggregation N} (found : a.store.find? id = some g)
    (fresh : g.window.find? second = none) (room : ¬ Crowded a.retain g.window second)
    {os os' : List (Observation N)} (perm : os'.Perm os) (nonempty : os ≠ [])
    (same : ∀ o ∈ os, o.sampledAt.seconds = second) (tables : ∀ o ∈ os, o.value.Ordered) :
    a.Delivers id second os (os'.map (·.envelope "" id)) := by
  have hSame : ∀ o ∈ os', o.sampledAt.seconds = second := fun o ho => same o (perm.mem_iff.mp ho)
  have hObserved := observations_envelopes hSame "" id
  have hLasts : ∀ e ∈ os'.map (·.envelope "" id), e.message ≠ .disable .aggregation id := by
    intro e he
    obtain ⟨o, -, rfl⟩ := List.mem_map.mp he
    exact nofun
  refine ⟨hLasts, by rw [hObserved]; exact perm, ?_⟩
  obtain ⟨g', hFound, hHas⟩ := has_run tidy found fresh hLasts fun o ho => by
    rw [hObserved] at ho
    exact tables o (perm.mem_iff.mp ho)
  obtain ⟨g'', hFound', hRoom⟩ := room_run tidy found room hSame ""
  obtain rfl : g'' = g' := Option.some.inj (hFound'.symm.trans hFound)
  have hTidy := (tidy_handleAll tidy _).tidy id g'' hFound
  rw [seconds, window, hFound, Table.mem_keys_iff hTidy.sorted]
  rcases hHas with hCrowded | ⟨hNew, -⟩ | ⟨slot, hSlot, -⟩
  · exact absurd hCrowded hRoom
  · -- something was reported for the second
    rw [hObserved, List.map_map] at hNew
    obtain ⟨o, ho⟩ := List.exists_mem_of_ne_nil os nonempty
    refine absurd (List.mem_map.mpr ⟨o, perm.mem_iff.mpr ho, ?_⟩) hNew
    exact same o ho
  · rw [hSlot]
    rfl

/-- Whichever observation of a host is handled last is what the host has in the end, so if that is
the newest in every order, then all have its value. -/
theorem value_eq_newest (tidy : a.Tidy) {g : Aggregation N} (found : a.store.find? id = some g)
    (fresh : g.window.find? second = none) (room : ¬ Crowded a.retain g.window second)
    {os : List (Observation N)} (same : ∀ o ∈ os, o.sampledAt.seconds = second)
    (tables : ∀ o ∈ os, o.value.Ordered)
    (fits : ∀ o ∈ os, ∀ o' ∈ os, o.hostname ≠ o'.hostname → o.value.Fits o'.value)
    (latest : ∀ es, a.Delivers id second os es →
      ∃ slot, ((a.handleAll es).window id).find? second = some slot ∧ slot.HasNewest os)
    {n x : Observation N} (newest : Observation.Newest os n) (mem : x ∈ os)
    (host : x.hostname = n.hostname) : x.value = n.value := by
  obtain ⟨front, back, rfl⟩ := List.append_of_mem mem
  have hPerm : ((front ++ back) ++ [x]).Perm (front ++ x :: back) :=
    (List.perm_append_singleton x _).trans List.perm_middle.symm
  have hDelivers := delivers_envelopes tidy found fresh room hPerm (by simp) same tables
  obtain ⟨slot, hSlot, hHas⟩ := latest _ hDelivers
  obtain ⟨slot', hSlot', hKeeps⟩ := keeps_delivered tidy found fresh same tables fits hDelivers
  obtain rfl : slot = slot' := Option.some.inj (hSlot.symm.trans hSlot')
  have hSame : ∀ y ∈ (front ++ back) ++ [x], y.sampledAt.seconds = second :=
    fun y hy => same y (hPerm.mem_iff.mp hy)
  have hHost : n.hostname = x.report.hostname := host.symm
  have hValue := hKeeps.hosts n.hostname
  rw [hHas n newest, observations_envelopes hSame, List.map_append, List.map_singleton,
    valueOf_concat, if_pos hHost] at hValue
  exact (Option.some.inj hValue).symm

/-- **The latest report of a host.** Let an aggregator collect an instrumentation and have nothing
for a second yet, but room for it. Let any observations for that second be delivered in any order,
where values of different hosts fit each other.

* Every host has the value that was handled last, and the value of the second is the last of all
  merged with those of the other hosts.
* This is the value that was sampled last, if the observations of each host arrive in the order of
  sampling.
* It is so in every order of delivery if and only if no host has two different values among the
  observations. -/
theorem latest_in_every_order_iff (reachable : a.Reachable)
    (enabled : a.store.contains id = true) (fresh : a.valueAt id second = none)
    (room : ¬ Crowded a.retain (a.window id) second) {os : List (Observation N)}
    (same : ∀ o ∈ os, o.sampledAt.seconds = second) (tables : ∀ o ∈ os, o.value.Ordered)
    (fits : ∀ o ∈ os, ∀ o' ∈ os, o.hostname ≠ o'.hostname → o.value.Fits o'.value) :
    (∀ es, a.Delivers id second os es →
      ∃ slot, ((a.handleAll es).window id).find? second = some slot ∧
        (a.handleAll es).valueAt id second = some slot.merged ∧
        slot.Keeps ((observations id second es).map Observation.report) ∧
        (Observation.InOrder (observations id second es) → slot.HasNewest os)) ∧
    ((∀ es, a.Delivers id second os es →
        ∃ slot, ((a.handleAll es).window id).find? second = some slot ∧ slot.HasNewest os) ↔
      ∀ o ∈ os, ∀ o' ∈ os, o.hostname = o'.hostname → o.value = o'.value) := by
  have hTidy := tidy_of_reachable reachable
  obtain ⟨g, hFound⟩ := Option.isSome_iff_exists.mp enabled
  have hFresh : g.window.find? second = none := by
    simpa [valueAt, window, hFound] using fresh
  have hRoom : ¬ Crowded a.retain g.window second := by
    rwa [window, hFound] at room
  -- in any order the slot keeps of each host what came last
  have hKeeps : ∀ es, a.Delivers id second os es →
      ∃ slot, ((a.handleAll es).window id).find? second = some slot ∧
        slot.Keeps ((observations id second es).map Observation.report) :=
    fun es delivers => keeps_delivered hTidy hFound hFresh same tables fits delivers
  refine ⟨fun es delivers => ?_, fun latest o ho o' ho' hHost => ?_, fun alike es delivers => ?_⟩
  · obtain ⟨slot, hSlot, hSlotKeeps⟩ := hKeeps es delivers
    refine ⟨slot, hSlot, by rw [valueAt, hSlot]; rfl, hSlotKeeps, fun ordered o newest => ?_⟩
    rw [hSlotKeeps.hosts]
    exact Observation.valueOf_newest ordered ⟨delivers.perm.mem_iff.mpr newest.mem,
      fun o' ho' => newest.le o' (delivers.perm.mem_iff.mp ho')⟩
  -- every report of a host can be delivered last, after its newest
  · obtain ⟨n, hNewest, hHostNewest⟩ := Observation.exists_newest ho
    have hValue : ∀ {x}, x ∈ os → x.hostname = n.hostname → x.value = n.value :=
      value_eq_newest hTidy hFound hFresh hRoom same tables fits latest hNewest
    rw [hValue ho hHostNewest.symm, hValue ho' (hHost.symm.trans hHostNewest.symm)]
  · obtain ⟨slot, hSlot, hSlotKeeps⟩ := hKeeps es delivers
    refine ⟨slot, hSlot, fun o newest => ?_⟩
    obtain ⟨o', ho', hHost, hValue⟩ :=
      Observation.exists_valueOf (delivers.perm.mem_iff.mpr newest.mem)
    rw [hSlotKeeps.hosts, hValue, alike o' (delivers.perm.mem_iff.mp ho') o newest.mem hHost]

/-- Two hosts report one second, one of them twice and in order; a ping comes in between. -/
theorem latest_in_every_order_brief :
    let a : Aggregator Extended := (Aggregator.new "k" "g" 2).handleAll
      [⟨"k.coordinator", "c", .enableAggregation 1 "k.stream.1"⟩]
    let os : List (Observation Extended) := [⟨"h", ⟨5100000000⟩, .scalar (.finite 1)⟩,
      ⟨"i", ⟨5200000000⟩, .scalar (.finite 2)⟩, ⟨"h", ⟨5900000000⟩, .scalar (.finite 4)⟩]
    ∃ slot, ((a.handleAll (os.map (·.envelope "k.instrumenter" 1) ++
        [⟨"k.coordinator", "c", .ping⟩])).window 1).find? 5 = some slot ∧ slot.HasNewest os := by
  intro a os
  have hReachable : a.Reachable := ⟨"k", "g", 2, _, rfl⟩
  have hRoom : ¬ Crowded a.retain (a.window 1) 5 := Nat.not_succ_le_zero 1
  have hTables : ∀ o ∈ os, o.value.Ordered := by
    simp only [os, List.forall_mem_cons]
    exact ⟨.scalar _, .scalar _, .scalar _, List.forall_mem_nil _⟩
  have hFits : ∀ o ∈ os, ∀ o' ∈ os, o.hostname ≠ o'.hostname → o.value.Fits o'.value := by
    have hScalar : ∀ o ∈ os, ∃ x, o.value = .scalar x := by
      simp only [os, List.forall_mem_cons]
      exact ⟨⟨_, rfl⟩, ⟨_, rfl⟩, ⟨_, rfl⟩, List.forall_mem_nil _⟩
    intro o ho o' ho' _
    obtain ⟨x, hx⟩ := hScalar o ho
    obtain ⟨y, hy⟩ := hScalar o' ho'
    rw [hx, hy]
    exact (ReducedValue.fits_leaf (by simp [ReducedValue.shape])).mpr rfl
  have hDelivers : a.Delivers 1 5 os (os.map (·.envelope "k.instrumenter" 1) ++
      [⟨"k.coordinator", "c", .ping⟩]) := by
    refine ⟨by simp [os, Observation.envelope], .rfl, by decide +kernel⟩
  obtain ⟨slot, hSlot, -, -, hNewest⟩ := (latest_in_every_order_iff hReachable rfl rfl
    hRoom (by decide) hTables hFits).1 _ hDelivers
  exact ⟨slot, hSlot, hNewest (by decide)⟩

/-- One host reports twice in a second, and the reports overtake each other: the slot has the value
that was sampled first. -/
theorem older_displaces_newer :
    let a : Aggregator Float := (Aggregator.new "fleetstat" "agg1" 10).handleAll
      [⟨"fleetstat.config", "hq", .enableAggregation 1 "fleetstat.instrumentation.1"⟩]
    let newer : Observation Float := ⟨"web1", ⟨100900000000⟩, .scalar 45.0⟩
    let older : Observation Float := ⟨"web1", ⟨100100000000⟩, .scalar 40.0⟩
    let deliver (os : List (Observation Float)) : Aggregator Float :=
      a.handleAll (os.map (·.envelope "fleetstat.instrumenter.web1" 1))
    a.store.contains 1 = true ∧ Observation.Newest [newer, older] newer ∧
      newer.value.shape = older.value.shape ∧
      (deliver [older, newer]).valueAt 1 100 = some newer.value ∧
      (deliver [newer, older]).valueAt 1 100 = some older.value ∧
      older.value ≠ newer.value := by
  intro a newer older deliver
  refine ⟨rfl, ⟨List.mem_cons_self, by decide⟩, rfl, rfl, rfl, ?_⟩
  intro hSame
  have hBits := congrArg (fun x => x == 45.0) (ReducedValue.scalar.inj hSame)
  exact absurd hBits (by decide +kernel)

end Aggregator

end FleetMetrics
