import Mathlib
import FleetMetrics.Proofs.Aggregator
import FleetMetrics.Proofs.Merging

/-!
# What an aggregator keeps

An aggregator never looks back: a message changes one slot, and one window is trimmed. What is kept
after a whole run is said here in terms of what has been reported in it (`history`), with no mention
of slots being updated or windows being cut.

For the seconds this means that those which are not kept have no room (`Crowded`), since the time
they were dropped or came too late. Then the ones kept are the greatest of all that were reported.
It also means that a second which is kept has been kept since its first report. So its slot has seen
all reports for it.

For the slots it means that a report is accepted or not by what is held of the other hosts, and of
each host by the last of its reports that was accepted (`accepted`). An update merges the values of
the other hosts into the new one, and it is one merge after another that may fail. That this is the
same as fitting each of them takes two facts: the values held fit two by two, and a merge fits what
both of its parts fit. Both are facts about breakdowns that are tables, as all are that hosts report
(`ReducedValue.Ordered`).

Main results:

* `keys_eq_greatest` — the seconds of a window are the greatest of all seconds.
* `Slot.update_iff` — an update is accepted if the value fits those of all other hosts.
* `Aggregation.has_record` — what one report does, for each second.
* `keeps_recent` — the store is the recent data, each host once.
-/

namespace FleetMetrics

variable {N : Type} [Arithmetic N]

/-! ## Reports -/

/-- The reports for an instrumentation since it was enabled, in the order of their arrival; none
while it is not. -/
def history (id : InstId) (es : List (Envelope N)) : Option (List (Report N)) :=
  es.foldl (fun log e => e.follow id (fun _ => []) (fun log r => log ++ [r]) log) none

/-- The value that a host has last among some reports. -/
def valueOf (reports : List (Report N)) (hostname : String) : Option (ReducedValue N) :=
  (reports.reverse.find? (·.hostname = hostname)).map (·.value)

/-- A report fits what the other hosts have last. -/
def Report.Joins (r : Report N) (held : List (Report N)) : Prop :=
  ∀ other ∈ held, other.hostname ≠ r.hostname →
    ∀ v ∈ valueOf held other.hostname, r.value.Fits v

instance (r : Report N) (held : List (Report N)) : Decidable (r.Joins held) :=
  inferInstanceAs (Decidable (∀ other ∈ held, other.hostname ≠ r.hostname →
    ∀ v ∈ valueOf held other.hostname, r.value.Fits v))

/-- The reports for a second that are accepted, each by what was accepted before it. -/
def accepted (second : Int) (log : List (Report N)) : List (Report N) :=
  log.foldl (fun held r => if r.second = second ∧ r.Joins held then held ++ [r] else held) []

/-- The greatest of some seconds, ascending and each of them once. -/
def greatest (count : Nat) (seconds : List Int) : List Int :=
  seconds.toFinset.sort.rtake count

section Reports

omit [Arithmetic N]

/-- A host's value is the one from its last report. -/
theorem valueOf_concat (reports : List (Report N)) (r : Report N) (hostname : String) :
    valueOf (reports ++ [r]) hostname =
      if hostname = r.hostname then some r.value else valueOf reports hostname := by
  rw [valueOf, List.reverse_append, List.reverse_singleton, List.singleton_append, List.find?_cons]
  by_cases h : r.hostname = hostname
  · simp [h]
  · simp [h, Ne.symm h, valueOf]

/-- A value that a host has was reported by it. -/
theorem exists_of_valueOf {reports : List (Report N)} {hostname : String} {v : ReducedValue N}
    (found : valueOf reports hostname = some v) :
    ∃ r ∈ reports, r.hostname = hostname ∧ r.value = v := by
  obtain ⟨r, hr, rfl⟩ := Option.map_eq_some_iff.mp found
  exact ⟨r, List.mem_reverse.mp (List.mem_of_find?_eq_some hr),
    by simpa using List.find?_some hr, rfl⟩

/-- What is kept stays as it is under an envelope that is not about its instrumentation. -/
theorem Envelope.follow_other {α : Type} {id : InstId} {fresh : String → α}
    {enter : α → Report N → α} {e : Envelope N}
    (enable : ∀ streamKey, e.message ≠ .enableAggregation id streamKey)
    (disable : e.message ≠ .disable .aggregation id)
    (data : ∀ sampledAt value, e.message ≠ .data id sampledAt value) (kept : Option α) :
    e.follow id fresh enter kept = kept := by
  unfold follow
  split
  · next id' streamKey h =>
    refine if_neg ?_
    rintro rfl
    exact enable streamKey h
  · next id' h =>
    refine if_neg ?_
    rintro rfl
    exact disable h
  · next id' sampledAt value h =>
    refine if_neg ?_
    rintro rfl
    exact data sampledAt value h
  · rfl

/-- Two things that are kept along the same envelopes stay related, if they are when they begin and
every report keeps them so. -/
theorem Envelope.follow_rel {α β : Type} {R : α → β → Prop} {id : InstId} {fresh : String → α}
    {fresh' : String → β} {enter : α → Report N → α} {enter' : β → Report N → β} {e : Envelope N}
    {kept : Option α} {kept' : Option β} (rel : Option.Rel R kept kept')
    (begins : ∀ streamKey, R (fresh streamKey) (fresh' streamKey))
    (enters : ∀ sampledAt value, e.message = .data id sampledAt value → ∀ x y, R x y →
      R (enter x ⟨e.hostname, sampledAt.seconds, value⟩)
        (enter' y ⟨e.hostname, sampledAt.seconds, value⟩)) :
    Option.Rel R (e.follow id fresh enter kept) (e.follow id fresh' enter' kept') := by
  obtain ⟨source, hostname, m⟩ := e
  cases m with
  | enableAggregation id' streamKey =>
    show Option.Rel R (if _ then _ else _) (if _ then _ else _)
    split
    · cases rel with
      | none => exact .some (begins streamKey)
      | some h => exact .some h
    · exact rel
  | disable w id' =>
    cases w with
    | instrumentation => exact rel
    | aggregation =>
      show Option.Rel R (if _ then _ else _) (if _ then _ else _)
      split
      · exact .none
      · exact rel
  | data id' sampledAt value =>
    show Option.Rel R (if _ then _ else _) (if _ then _ else _)
    split
    · next hId =>
      subst hId
      cases rel with
      | none => exact .none
      | some h => exact .some (enters sampledAt value rfl _ _ h)
    · exact rel
  | _ => exact rel

/-- One more envelope adds a report or starts the log over, if it concerns the instrumentation at
all. -/
theorem history_concat (id : InstId) (es : List (Envelope N)) (e : Envelope N) :
    history id (es ++ [e]) =
      e.follow id (fun _ => []) (fun log r => log ++ [r]) (history id es) := by
  rw [history, List.foldl_append]
  rfl

end Reports

/-- One more report is accepted if it is about the second and joins what was accepted before. -/
theorem accepted_concat (second : Int) (log : List (Report N)) (r : Report N) :
    accepted second (log ++ [r]) = if r.second = second ∧ r.Joins (accepted second log)
      then accepted second log ++ [r] else accepted second log := by
  rw [accepted, List.foldl_append]
  rfl

/-- Only reports about the second are accepted. -/
theorem mem_accepted {second : Int} {log : List (Report N)} {r : Report N}
    (mem : r ∈ accepted second log) : r ∈ log ∧ r.second = second := by
  induction log using List.reverseRecOn with
  | nil => cases mem
  | append_singleton log last ih =>
    rw [accepted_concat] at mem
    split at mem
    · next h =>
      rcases List.mem_append.mp mem with mem | mem
      · exact ⟨List.mem_append_left _ (ih mem).1, (ih mem).2⟩
      · rw [List.mem_singleton.mp mem]
        exact ⟨by simp, h.1⟩
    · exact ⟨List.mem_append_left _ (ih mem).1, (ih mem).2⟩

/-! ## Seconds -/

section Seconds

variable {retain : Nat} {w : Table Int (Slot N)}

omit [Arithmetic N]

/-- **The seconds of a window are the greatest of all seconds**, if there is no room for those that
it lacks. -/
theorem keys_eq_greatest (sorted : w.Ascending) (bounded : w.length ≤ retain) {seconds : List Int}
    (kept : ∀ second ∈ w.keys, second ∈ seconds)
    (lost : ∀ second ∈ seconds, second ∉ w.keys → Crowded retain w second) :
    w.keys = greatest retain seconds := by
  have hKeys : w.keys.SortedLT := by
    refine List.Pairwise.sortedLT ?_
    rw [Table.keys, List.pairwise_map]
    exact List.Pairwise.imp Int.compare_eq_lt.mp sorted
  let missing := seconds.toFinset.filter (· ∉ w.keys)
  have hCrowded : ∀ second ∈ missing.sort, Crowded retain w second := by
    intro second hSecond
    obtain ⟨hMem, hLost⟩ := Finset.mem_filter.mp ((Finset.mem_sort _).mp hSecond)
    exact lost second (List.mem_toFinset.mp hMem) hLost
  -- what the window lacks comes before all that it has
  have hEarly : ∀ second ∈ missing.sort, ∀ key ∈ w.keys, second < key := by
    intro second hSecond key hKey
    obtain ⟨entry, hEntry, rfl⟩ := List.mem_map.mp hKey
    exact lt_of_crowded bounded (hCrowded second hSecond) entry hEntry
  have hSplit : seconds.toFinset.sort = missing.sort ++ w.keys := by
    refine List.SortedLT.eq_of_mem_iff (Finset.sortedLT_sort _) ?_ fun second => ?_
    · refine List.Pairwise.sortedLT (List.pairwise_append.mpr ⟨?_, hKeys.pairwise, hEarly⟩)
      exact (Finset.sortedLT_sort _).pairwise
    · rw [List.mem_append, Finset.mem_sort, Finset.mem_sort, Finset.mem_filter, List.mem_toFinset]
      by_cases hMem : second ∈ w.keys
      · simp [hMem, kept second hMem]
      · simp [hMem]
  rw [greatest, hSplit, List.rtake]
  -- the window is full as soon as it lacks a second
  have hDrop : (missing.sort ++ w.keys).length - retain = missing.sort.length := by
    have hLength : w.keys.length = w.length := List.length_map _
    rw [List.length_append, hLength]
    cases hMissing : missing.sort with
    | nil =>
      rw [List.length_nil]
      omega
    | cons second rest =>
      have hFull : retain ≤ w.length :=
        (hCrowded second (by simp [hMissing])).trans List.countP_le_length
      omega
  rw [hDrop, List.drop_left]

end Seconds

/-! ## Slots -/

namespace Slot

/-- A slot has of each host what it reported last, and the last report of all merged with what the
other hosts have, in the order of their names. -/
structure Keeps (s : Slot N) (held : List (Report N)) : Prop where
  sorted : s.hosts.Ascending
  hosts : ∀ h, s.hosts.find? h = valueOf held h
  merged : ∃ r, held.getLast? = some r ∧
    (s.hosts.erase r.hostname).values.foldlM ReducedValue.merge r.value = .ok s.merged

/-- The values of a slot fit two by two. -/
structure Consistent (s : Slot N) : Prop where
  sorted : s.hosts.Ascending
  ordered : ∀ h v, s.hosts.find? h = some v → v.Ordered
  fits : ∀ h h' v v', h ≠ h' → s.hosts.find? h = some v → s.hosts.find? h' = some v' → v.Fits v'

variable {s : Slot N}

omit [Arithmetic N] in
/-- The other hosts' values are those that stand under another name. -/
theorem mem_values_erase (sorted : s.hosts.Ascending) {h : String} {v : ReducedValue N} :
    v ∈ (s.hosts.erase h).values ↔ ∃ h', h' ≠ h ∧ s.hosts.find? h' = some v := by
  rw [Table.mem_values_iff (Table.ascending_erase sorted h)]
  refine exists_congr fun h' => ?_
  rw [Table.find?_erase]
  split <;> simp [*]

/-- An update is accepted if the new value merges with those of all other hosts, and then the slot
holds the result. -/
theorem update_eq_ok {h : String} {v : ReducedValue N} {s' : Slot N} :
    s.update h v = .ok s' ↔ ∃ merged,
      (s.hosts.erase h).values.foldlM ReducedValue.merge v = .ok merged ∧
        s' = ⟨s.hosts.insert h v, merged⟩ := by
  have hOthers : s.hosts.filter (fun entry => entry.1 ≠ h) = s.hosts.erase h := by
    refine List.filter_congr fun entry _ => ?_
    have hSame : compare h entry.1 = .eq ↔ h = entry.1 := compare_eq_iff_eq
    simp [hSame, eq_comm]
  rw [update, mergeOthers, hOthers, Table.values, List.foldlM_map]
  cases (s.hosts.erase h).foldlM (fun merged entry => merged.merge entry.2) v with
  | error fault => simp [Except.map]
  | ok merged => simp [Except.map, eq_comm]

/-- **An update is accepted if the value fits those of all other hosts.** -/
theorem update_iff (consistent : s.Consistent) {h : String} {v : ReducedValue N} (hv : v.Ordered) :
    (∃ s', s.update h v = .ok s') ↔
      ∀ h' v', h' ≠ h → s.hosts.find? h' = some v' → v.Fits v' := by
  have hErased := Table.ascending_erase consistent.sorted h
  have hOthers : ∀ x ∈ (s.hosts.erase h).values, x.Ordered := by
    intro x hx
    obtain ⟨h', -, hFind⟩ := (mem_values_erase consistent.sorted).mp hx
    exact consistent.ordered h' x hFind
  have hPairwise : (s.hosts.erase h).values.Pairwise ReducedValue.Fits := by
    rw [Table.values, List.pairwise_map]
    refine List.Pairwise.imp_of_mem (fun {x y} hx hy hLt => ?_) hErased
    have hne : x.1 ≠ y.1 := by
      intro hSame
      rw [hSame, Std.ReflOrd.compare_self] at hLt
      cases hLt
    -- what stands in the table with one host erased stands in the whole table
    have hIn : ∀ z ∈ s.hosts.erase h, s.hosts.find? z.1 = some z.2 := fun z hz =>
      (Table.mem_iff_find? consistent.sorted).mp (List.mem_filter.mp hz).1
    exact consistent.fits _ _ _ _ hne (hIn x hx) (hIn y hy)
  have hMerge := ReducedValue.foldlM_merge_iff hv hOthers
  rw [List.pairwise_cons, and_iff_left hPairwise] at hMerge
  have hUpdate : (∃ s', s.update h v = .ok s') ↔
      ∃ m, (s.hosts.erase h).values.foldlM ReducedValue.merge v = .ok m := by
    simp only [update_eq_ok]
    constructor
    · rintro ⟨-, m, hm, -⟩
      exact ⟨m, hm⟩
    · rintro ⟨m, hm⟩
      exact ⟨_, m, hm, rfl⟩
  rw [hUpdate, hMerge]
  constructor
  · intro hAll h' v' hne hFind
    exact hAll v' ((mem_values_erase consistent.sorted).mpr ⟨h', hne, hFind⟩)
  · intro hAll v' hv'
    obtain ⟨h', hne, hFind⟩ := (mem_values_erase consistent.sorted).mp hv'
    exact hAll h' v' hne hFind

/-- What a report fits, read off the slot. -/
theorem joins_iff {held : List (Report N)} (keeps : s.Keeps held) (r : Report N) :
    r.Joins held ↔ ∀ h' v', h' ≠ r.hostname → s.hosts.find? h' = some v' → r.value.Fits v' := by
  constructor
  · intro hJoins h' v' hne hFind
    rw [keeps.hosts] at hFind
    obtain ⟨other, hOther, rfl, -⟩ := exists_of_valueOf hFind
    exact hJoins other hOther hne v' hFind
  · intro hAll other _ hne v hv
    exact hAll other.hostname v hne ((keeps.hosts _).trans hv)

/-- A first report is kept. -/
theorem keeps_first (r : Report N) : (Slot.first r.hostname r.value).Keeps [r] where
  sorted := List.pairwise_singleton _ _
  hosts h := by
    have hSame : compare h r.hostname = .eq ↔ h = r.hostname := compare_eq_iff_eq
    rw [first, Table.find?_cons, valueOf, List.reverse_singleton]
    by_cases hHost : h = r.hostname
    · simp [hHost]
    · simp [hSame, hHost, Ne.symm hHost]
  merged := by
    refine ⟨r, rfl, ?_⟩
    have hErased : (first r.hostname r.value).hosts.erase r.hostname = [] := by
      simp [first, Table.erase]
    rw [hErased]
    rfl

/-- A slot with one report is consistent. -/
theorem consistent_first {h : String} {v : ReducedValue N} (hv : v.Ordered) :
    (Slot.first h v).Consistent where
  sorted := List.pairwise_singleton _ _
  ordered h' v' hFind := by
    have hEntry := (Table.mem_iff_find? (List.pairwise_singleton _ _)).mpr hFind
    rw [List.mem_singleton, Prod.mk.injEq] at hEntry
    rw [hEntry.2]
    exact hv
  fits h' h'' v' v'' hne hFind' hFind'' := by
    have hEntry' := (Table.mem_iff_find? (List.pairwise_singleton _ _)).mpr hFind'
    have hEntry'' := (Table.mem_iff_find? (List.pairwise_singleton _ _)).mpr hFind''
    rw [List.mem_singleton, Prod.mk.injEq] at hEntry' hEntry''
    exact absurd (hEntry'.1.trans hEntry''.1.symm) hne

/-- An accepted report takes the place of the last one of its host. -/
theorem keeps_update {held : List (Report N)} (keeps : s.Keeps held) {r : Report N} {s' : Slot N}
    (updated : s.update r.hostname r.value = .ok s') : s'.Keeps (held ++ [r]) := by
  obtain ⟨m, hMerge, rfl⟩ := update_eq_ok.mp updated
  refine ⟨Table.ascending_insert keeps.sorted _ _, fun h => ?_, r, List.getLast?_concat, ?_⟩
  · rw [Table.find?_insert keeps.sorted, valueOf_concat, keeps.hosts]
  · rw [Table.erase_insert keeps.sorted]
    exact hMerge

/-- An update that is accepted leaves a slot consistent. -/
theorem consistent_update (consistent : s.Consistent) {h : String} {v : ReducedValue N}
    (hv : v.Ordered) {s' : Slot N} (updated : s.update h v = .ok s') : s'.Consistent := by
  have hFits := (update_iff consistent hv).mp ⟨s', updated⟩
  obtain ⟨m, -, rfl⟩ := update_eq_ok.mp updated
  have hFind : ∀ h', (s.hosts.insert h v).find? h' = if h' = h then some v else s.hosts.find? h' :=
    fun h' => Table.find?_insert consistent.sorted h h' v
  refine ⟨Table.ascending_insert consistent.sorted _ _, fun h' v' hv' => ?_,
    fun h' h'' v' v'' hne hv' hv'' => ?_⟩
  · rw [hFind] at hv'
    split at hv'
    · rw [← Option.some.inj hv']
      exact hv
    · exact consistent.ordered h' v' hv'
  · rw [hFind] at hv' hv''
    split at hv'
    · next hHost =>
      rw [if_neg (fun h => hne (hHost.trans h.symm))] at hv''
      rw [← Option.some.inj hv']
      exact hFits h'' v'' (fun h => hne (hHost.trans h.symm)) hv''
    · next hHost =>
      split at hv''
      · rw [← Option.some.inj hv'']
        exact (hFits h' v' hHost hv').symm hv (consistent.ordered h' v' hv')
      · exact consistent.fits h' h'' v' v'' hne hv' hv''

end Slot

/-! ## Aggregations -/

namespace Aggregation

/-- What an aggregation has of a second: no room, nothing because nothing was reported, or a slot
with the reports that were accepted. -/
def Has (g : Aggregation N) (retain : Nat) (log : List (Report N)) (second : Int) : Prop :=
  Crowded retain g.window second ∨
    (second ∉ log.map (·.second) ∧ g.window.find? second = none) ∨
    ∃ slot, g.window.find? second = some slot ∧ slot.Consistent ∧ slot.Keeps (accepted second log)

/-- An aggregation has of every second what was reported for it. -/
structure Follows (g : Aggregation N) (retain : Nat) (log : List (Report N)) : Prop where
  tidy : g.Tidy retain
  has : ∀ second, g.Has retain log second

variable {g : Aggregation N} {retain : Nat} {log : List (Report N)} {second : Int}

/-- A new aggregation has no reports to follow. -/
theorem follows_new (retain : Nat) (streamKey : String) :
    (⟨streamKey, []⟩ : Aggregation N).Follows retain [] where
  tidy := ⟨Table.ascending_nil, Nat.zero_le _⟩
  has _ := .inr (.inl ⟨List.not_mem_nil, rfl⟩)

/-- The slot of a second once a report for it is entered. -/
theorem slotAfter_spec (has : g.Has retain log second) (room : ¬ Crowded retain g.window second)
    {r : Report N} (hr : r.value.Ordered) (same : r.second = second) :
    (g.slotAfter r.hostname second r.value).Consistent ∧
      (g.slotAfter r.hostname second r.value).Keeps (accepted second (log ++ [r])) := by
  rw [slotAfter, accepted_concat]
  rcases has with hCrowded | ⟨hNew, hNone⟩ | ⟨slot, hFind, hConsistent, hKeeps⟩
  · exact absurd hCrowded room
  · -- the first report of a second has no other hosts to fit
    have hEmpty : accepted second log = [] := by
      refine List.eq_nil_iff_forall_not_mem.mpr fun x hx => hNew ?_
      obtain ⟨hLog, rfl⟩ := mem_accepted hx
      exact List.mem_map_of_mem hLog
    have hJoins : r.Joins [] := fun other hOther => absurd hOther List.not_mem_nil
    rw [hNone, hEmpty, if_pos ⟨same, hJoins⟩]
    exact ⟨Slot.consistent_first hr, Slot.keeps_first r⟩
  · have hAccepted : (∃ s', slot.update r.hostname r.value = .ok s') ↔
        r.Joins (accepted second log) :=
      (Slot.update_iff hConsistent hr).trans (Slot.joins_iff hKeeps r).symm
    rw [hFind]
    by_cases hJoins : r.Joins (accepted second log)
    · obtain ⟨s', hUpdate⟩ := hAccepted.mpr hJoins
      rw [if_pos ⟨same, hJoins⟩]
      simp only [hUpdate]
      exact ⟨Slot.consistent_update hConsistent hr hUpdate, Slot.keeps_update hKeeps hUpdate⟩
    · rw [if_neg fun h => hJoins h.2]
      cases hUpdate : slot.update r.hostname r.value with
      | ok s' => exact absurd (hAccepted.mp ⟨s', hUpdate⟩) hJoins
      | error fault =>
        simp only [hUpdate]
        exact ⟨hConsistent, hKeeps⟩

/-- **One report more**: its second has it if it is accepted, the others have what they had, and any
of them may be without room from then on. -/
theorem has_record (tidy : g.Tidy retain) (has : g.Has retain log second) {r : Report N}
    (hr : r.value.Ordered) :
    (g.record retain r.hostname r.second r.value).Has retain (log ++ [r]) second := by
  by_cases hCrowded : Crowded retain g.window second
  · exact .inl (crowded_record tidy hCrowded _ _ _)
  rcases find?_record tidy r.hostname r.second r.value second with hFind | hCrowded'
  · unfold Has
    rw [hFind]
    by_cases hSecond : second = r.second
    · subst hSecond
      rw [if_pos rfl]
      have hSpec := slotAfter_spec has hCrowded hr rfl
      exact .inr (.inr ⟨_, rfl, hSpec⟩)
    · rw [if_neg hSecond, accepted_concat, if_neg fun h => hSecond h.1.symm]
      rcases has with h | ⟨hNew, hNone⟩ | hSlot
      · exact absurd h hCrowded
      · refine .inr (.inl ⟨fun hMem => ?_, hNone⟩)
        rw [List.map_append, List.mem_append, List.map_singleton, List.mem_singleton] at hMem
        exact hMem.elim hNew hSecond
      · exact .inr (.inr hSlot)
  · exact .inl hCrowded'

/-- A value for another second may only take the room. -/
theorem has_record_of_ne (tidy : g.Tidy retain) (has : g.Has retain log second) {h : String}
    {other : Int} (apart : other ≠ second) (value : ReducedValue N) :
    (g.record retain h other value).Has retain log second := by
  rcases has with hCrowded | hRest
  · exact .inl (crowded_record tidy hCrowded _ _ _)
  · rcases find?_record tidy h other value second with hFind | hCrowded
    · rw [if_neg (Ne.symm apart)] at hFind
      unfold Has
      rw [hFind]
      exact .inr hRest
    · exact .inl hCrowded

/-- Recording one more report follows the history that has it at its end. -/
theorem follows_record (follows : g.Follows retain log) {r : Report N} (hr : r.value.Ordered) :
    (g.record retain r.hostname r.second r.value).Follows retain (log ++ [r]) where
  tidy := tidy_record follows.tidy _ _ _
  has second := has_record follows.tidy (follows.has second) hr

/-- There is no room for a second that was reported and is not kept. -/
theorem crowded_of_lost (follows : g.Follows retain log) (reported : second ∈ log.map (·.second))
    (lost : second ∉ g.window.keys) : Crowded retain g.window second := by
  rw [Table.mem_keys_iff follows.tidy.sorted] at lost
  rcases follows.has second with hCrowded | ⟨hNew, -⟩ | ⟨slot, hFind, -⟩
  · exact hCrowded
  · exact absurd reported hNew
  · rw [hFind] at lost
    exact absurd rfl lost

/-- A second that is kept has the reports that were accepted. -/
theorem slot_of_follows (follows : g.Follows retain log) {slot : Slot N}
    (found : g.window.find? second = some slot) :
    slot.Consistent ∧ slot.Keeps (accepted second log) := by
  rcases follows.has second with hCrowded | ⟨-, hNone⟩ | ⟨slot', hFind, hSpec⟩
  · rw [find?_of_crowded follows.tidy.bounded hCrowded] at found
    cases found
  · rw [hNone] at found
    cases found
  · rwa [Option.some.inj (found.symm.trans hFind)]

/-- The seconds of an aggregation are the greatest that were reported. -/
theorem keys_of_follows (follows : g.Follows retain log) :
    g.window.keys = greatest retain (log.map (·.second)) := by
  refine keys_eq_greatest follows.tidy.sorted follows.tidy.bounded (fun second hKept => ?_)
    fun second => crowded_of_lost follows
  obtain ⟨slot, hFind⟩ := Option.isSome_iff_exists.mp
    ((Table.mem_keys_iff follows.tidy.sorted).mp hKept)
  obtain ⟨r, hLast, -⟩ := (slot_of_follows follows hFind).2.merged
  obtain ⟨hLog, rfl⟩ := mem_accepted (List.mem_of_getLast? hLast)
  exact List.mem_map_of_mem hLog

/-- A report that is not accepted changes nothing. -/
theorem record_of_rejected (tidy : g.Tidy retain) {slot : Slot N}
    (found : g.window.find? second = some slot) {h : String} {v : ReducedValue N}
    {fault : MetricError} (rejected : slot.update h v = .error fault) :
    g.record retain h second v = g := by
  have hSlot : g.slotAfter h second v = slot := by
    rw [slotAfter, found]
    simp only [rejected]
    rfl
  have hLatest : latest retain g.window = g.window := by
    rw [latest, Nat.sub_eq_zero_of_le tidy.bounded, List.drop_zero]
  have hWindow : (g.record retain h second v).window = g.window := by
    rw [window_record, hSlot, Table.insert_of_find? tidy.sorted found, hLatest]
  exact congrArg (Aggregation.mk g.streamKey) hWindow

end Aggregation

/-! ## Aggregators -/

namespace Aggregator

variable {a : Aggregator N} {id : InstId}

/-- What holds of a fresh aggregation and is kept by every report holds of what is collected and the
reports that were made. -/
theorem tracks_run {R : Aggregation N → List (Report N) → Prop} (keyBase hostname : String)
    {retain : Nat} {es : List (Envelope N)} (fresh : ∀ streamKey, R ⟨streamKey, []⟩ [])
    (enter : ∀ e ∈ es, ∀ sampledAt value, e.message = .data id sampledAt value →
      ∀ g log, R g log → R (g.record (Nat.max retain 1) e.hostname sampledAt.seconds value)
        (log ++ [⟨e.hostname, sampledAt.seconds, value⟩])) :
    Option.Rel R (((new keyBase hostname retain).handleAll es).store.find? id) (history id es) := by
  induction es using List.reverseRecOn with
  | nil => exact .none
  | append_singleton es e ih =>
    have hRel := ih fun e' he' => enter e' (List.mem_append_left _ he')
    have hTidy := tidy_of_reachable (N := N) ⟨keyBase, hostname, retain, es, rfl⟩
    have hRetain : ((new (N := N) keyBase hostname retain).handleAll es).retain =
        Nat.max retain 1 := retain_handleAll _ es
    rw [handleAll_concat, find?_follow hTidy, history_concat, hRetain]
    exact Envelope.follow_rel hRel fresh (enter e (by simp))

/-- Where there is no room for a second there is none later on. -/
theorem crowded_run (tidy : a.Tidy) {g : Aggregation N} (found : a.store.find? id = some g)
    {second : Int} (crowded : Crowded a.retain g.window second) {es : List (Envelope N)}
    (lasts : ∀ e ∈ es, e.message ≠ .disable .aggregation id) :
    ∃ g', (a.handleAll es).store.find? id = some g' ∧ Crowded a.retain g'.window second := by
  induction es using List.reverseRecOn with
  | nil => exact ⟨g, found, crowded⟩
  | append_singleton es e ih =>
    obtain ⟨g', hFound, hCrowded⟩ := ih fun e' he' => lasts e' (List.mem_append_left _ he')
    have hTidy := tidy_handleAll tidy es
    rw [handleAll_concat]
    rcases find?_handle hTidy hFound (lasts e (by simp)) with ⟨s, value, hFind, -⟩ | ⟨hFind, -⟩
    · refine ⟨_, hFind, ?_⟩
      have hSorted := (hTidy.tidy id g' hFound).sorted
      rw [retain_handleAll, Aggregation.window_record]
      exact crowded_latest (Table.ascending_insert hSorted _ _) (crowded_insert hCrowded _ _)
    · exact ⟨g', hFind, hCrowded⟩

/-- A report that is not accepted leaves the aggregator as it is. -/
theorem handle_of_rejected (tidy : a.Tidy) {g : Aggregation N} (found : a.store.find? id = some g)
    {e : Envelope N} {sampledAt : Timestamp} {value : ReducedValue N}
    (message : e.message = .data id sampledAt value) {slot : Slot N}
    (kept : g.window.find? sampledAt.seconds = some slot) {fault : MetricError}
    (rejected : slot.update e.hostname value = .error fault) : (a.handle e).1 = a := by
  have hSame : g.record a.retain e.hostname sampledAt.seconds value = g :=
    Aggregation.record_of_rejected (tidy.tidy id g found) kept rejected
  have hStore : a.store.insert id g = a.store := Table.insert_of_find? tidy.sorted found
  simp only [handle, message, merge, found, hSame, hStore]

/-- **The store is the recent data, each host once.** Let an aggregator that keeps some seconds have
handled any envelopes, with values whose breakdowns are tables, as those of every query and all that
are read from JSON (`Query.ordered_evaluate`, `ReducedValue.ordered_ofJson`), and let an
instrumentation be enabled. Then, of all that was reported for it since it was enabled,

* the seconds kept are the greatest that were reported, and one that is not kept never comes back,
  as long as the instrumentation is not ended;
* a second that is kept has of each host the last report that was accepted, and the last of all
  merged with what the other hosts have in the order of their names;
* the next report for it is accepted if it fits what each of the other hosts has, and otherwise the
  aggregator stays as it is;
* an envelope that is not about the instrumentation leaves what is collected for it alone, and a
  report for one that is not known changes nothing at all. -/
theorem keeps_recent (keyBase hostname : String) {retain : Nat} (positive : 1 ≤ retain)
    {es : List (Envelope N)} {id : InstId}
    (tables : ∀ e ∈ es, ∀ sampledAt value, e.message = .data id sampledAt value → value.Ordered)
    (enabled : ((new keyBase hostname retain).handleAll es).store.contains id = true) :
    let a := (new keyBase hostname retain).handleAll es
    ∃ log, history id es = some log ∧
      a.seconds id = greatest retain (log.map (·.second)) ∧
      (∀ later : List (Envelope N), (∀ e ∈ later, e.message ≠ .disable .aggregation id) →
        ∀ r ∈ log, r.second ∉ a.seconds id → r.second ∉ (a.handleAll later).seconds id) ∧
      (∀ second slot, (a.window id).find? second = some slot →
        slot.Keeps (accepted second log)) ∧
      (∀ (e : Envelope N) sampledAt value slot, e.message = .data id sampledAt value →
        value.Ordered → (a.window id).find? sampledAt.seconds = some slot →
        ((∃ slot', slot.update e.hostname value = .ok slot') ↔
          ∀ h v, h ≠ e.hostname → slot.hosts.find? h = some v → value.Fits v) ∧
        ∀ fault, slot.update e.hostname value = .error fault → (a.handle e).1 = a) ∧
      (∀ e : Envelope N, (∀ streamKey, e.message ≠ .enableAggregation id streamKey) →
        e.message ≠ .disable .aggregation id →
        (∀ sampledAt value, e.message ≠ .data id sampledAt value) →
        (a.handle e).1.store.find? id = a.store.find? id) ∧
      ∀ (e : Envelope N) id' sampledAt value, e.message = .data id' sampledAt value →
        a.store.contains id' = false → (a.handle e).1 = a := by
  intro a
  have hTidy : a.Tidy := tidy_of_reachable ⟨keyBase, hostname, retain, es, rfl⟩
  have hRetain : a.retain = retain :=
    (retain_handleAll _ es).trans (Nat.max_eq_left positive)
  obtain ⟨g, hFound⟩ : ∃ g, a.store.find? id = some g := Option.isSome_iff_exists.mp enabled
  have hWindow : a.window id = g.window := by rw [window, hFound]
  -- the store runs in step with the reports, so what is collected follows a log of them
  have hRel : Option.Rel (fun g log => g.Follows (Nat.max retain 1) log) (a.store.find? id)
      (history id es) :=
    tracks_run keyBase hostname (Aggregation.follows_new _)
      fun e he sampledAt value hMessage g log follows =>
        Aggregation.follows_record (r := ⟨e.hostname, sampledAt.seconds, value⟩) follows
          (tables e he sampledAt value hMessage)
  have hMax : Nat.max retain 1 = retain := Nat.max_eq_left positive
  rw [hFound, hMax] at hRel
  cases hLog : history id es with
  | none =>
    rw [hLog] at hRel
    cases hRel
  | some log =>
  rw [hLog] at hRel
  have hFollows : g.Follows retain log := by
    cases hRel with
    | some h => exact h
  have hSeconds : a.seconds id = g.window.keys := congrArg Table.keys hWindow
  refine ⟨log, rfl, hSeconds.trans (Aggregation.keys_of_follows hFollows), ?_,
    fun second slot hFind => (Aggregation.slot_of_follows hFollows (hWindow ▸ hFind)).2,
    ?_, ?_, ?_⟩
  -- what has been lost is crowded out, and a crowd only grows
  · intro later lasts r hr hMissing hBack
    have hCrowded : Crowded a.retain g.window r.second := by
      rw [hRetain]
      exact Aggregation.crowded_of_lost hFollows (List.mem_map_of_mem hr) (hSeconds ▸ hMissing)
    obtain ⟨g', hFound', hCrowded'⟩ := crowded_run hTidy hFound hCrowded lasts
    have hTidy' := (tidy_handleAll hTidy later).tidy id g' hFound'
    rw [retain_handleAll] at hTidy'
    rw [seconds, window, hFound', Table.mem_keys_iff hTidy'.sorted,
      find?_of_crowded hTidy'.bounded hCrowded'] at hBack
    cases hBack
  -- rejected, a report leaves its slot and with it the whole agent
  · intro e sampledAt value slot hMessage hOrdered hFind
    have hConsistent := (Aggregation.slot_of_follows hFollows (hWindow ▸ hFind)).1
    refine ⟨Slot.update_iff hConsistent hOrdered, fun fault hRejected => ?_⟩
    exact handle_of_rejected hTidy hFound hMessage (hWindow ▸ hFind) hRejected
  · intro e hEnable hDisable hData
    rw [find?_follow hTidy, Envelope.follow_other hEnable hDisable hData]
  · intro e id' sampledAt value hMessage hUnknown
    have hNone : a.store.find? id' = none := by simpa [Table.contains] using hUnknown
    simp only [handle, hMessage, merge, hNone]

/-- Two seconds are kept. A breakdown does not fit the number of another host, a late second has no
room, and a host that reports again replaces its number. -/
theorem keeps_recent_brief :
    let report (h : String) (nanos : Int) (value : ReducedValue Extended) : Envelope Extended :=
      ⟨"k.instrumenter", h, .data 1 ⟨nanos⟩ value⟩
    let es := [⟨"k.coordinator", "c", .enableAggregation 1 "k.stream.1"⟩,
      report "h" 3000000000 (.scalar (.finite 1)), report "i" 3000000000 (.discrete []),
      report "h" 5000000000 (.scalar (.finite 2)), report "i" 1000000000 (.scalar (.finite 4)),
      report "h" 3000000000 (.scalar (.finite 8))]
    let a := (Aggregator.new "k" "g" 2).handleAll es
    let log := (history 1 es).getD []
    ∃ slot, a.seconds 1 = [3, 5] ∧ a.seconds 1 = greatest 2 [3, 3, 5, 1, 3] ∧
      (a.window 1).find? 3 = some slot ∧ slot.Keeps (accepted 3 log) ∧
      (accepted 3 log).map (·.hostname) = ["h", "h"] := by
  intro report es a log
  have hTables : ∀ e ∈ es, ∀ sampledAt value, e.message = .data 1 sampledAt value →
      value.Ordered := by
    intro e he sampledAt value hMessage
    simp only [es, report, List.mem_cons, List.not_mem_nil, or_false] at he
    rcases he with rfl | rfl | rfl | rfl | rfl | rfl <;> cases hMessage
    case inr.inr.inl => exact .discrete [] Table.ascending_nil (by simp)
    all_goals exact .scalar _
  obtain ⟨log', hLog, hSeconds, -, hSlots, -⟩ :=
    keeps_recent "k" "g" (show 1 ≤ 2 by decide) hTables (by decide)
  have hSame : log' = log := (congrArg (·.getD []) hLog).symm
  have hReported : log.map (·.second) = [3, 3, 5, 1, 3] := by decide
  obtain ⟨slot, hSlot⟩ := Option.isSome_iff_exists.mp
    (show ((a.window 1).find? 3).isSome = true by decide +kernel)
  rw [hSame, hReported] at hSeconds
  exact ⟨slot, by decide +kernel, hSeconds, hSlot, hSame ▸ hSlots 3 slot hSlot,
    by decide +kernel⟩

end Aggregator

end FleetMetrics
