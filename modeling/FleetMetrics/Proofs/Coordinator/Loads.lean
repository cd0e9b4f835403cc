import Mathlib
import FleetMetrics.Proofs.Coordinator.Change

/-!
# Loads are exact

The load of a participant is a counter that seven operations raise and lower, and lowering it
stops silently at zero. The theorems here say that this never happens: the counter is, in every
reachable state, the number of instrumentations that count for the participant.

The argument is a balance. `loadOf` counts the instrumentations; `balance_step` says how one event
moves the count, in terms of the releases and acquisitions of the ledger. Since a count is never
negative, no event releases more than there is.

Main results:

* `balance_step` — an event moves the number of instrumentations of a host as its ledger says.
* `loads_exact` — in every reachable state counters and numbers agree, no release finds a counter
  at zero, and an empty table means that nobody has a load.
-/

namespace FleetMetrics.Coordinator

/-- How many instrumentations count in the load of a host. -/
def loadOf (c : Coordinator) (w : Work) (h : String) : Nat :=
  c.instrumentations.values.countP (·.loads w h)

/-- If changing a value takes out of the count what is listed for it, changing all the chosen
values takes out the whole list. -/
theorem countP_change_add {α β : Type} [DecidableEq β] {q p : α → Bool} {f : α → α}
    {g : α → List β} {b : β} {vs : List α}
    (one : ∀ v ∈ vs, p v = true →
      (if q v then 1 else 0) = (if q (f v) then 1 else 0) + (g v).count b) :
    (vs.map fun v => if p v then f v else v).countP q + ((vs.filter p).flatMap g).count b =
      vs.countP q := by
  induction vs with
  | nil => rfl
  | cons v rest ih =>
    have hRest := ih fun v' hv' => one v' (List.mem_cons_of_mem _ hv')
    rw [List.map_cons, List.countP_cons, List.countP_cons]
    by_cases hp : p v = true
    · have hOne := one v List.mem_cons_self hp
      rw [List.filter_cons_of_pos hp, List.flatMap_cons, List.count_append, if_pos hp]
      omega
    · rw [List.filter_cons_of_neg hp, if_neg hp]
      omega

/-- A participant that comes online is told of everything that it counted for. -/
theorem owes_of_loads {c : Coordinator} {id : InstId} {i : Instrumentation} (hi : c.Fits id i)
    {w : Work} {h : String} (loaded : i.loads w h = true) :
    owes w h (Registry.outcome (c.registry.directory w) h) i = true := by
  obtain ⟨hLive, a, hAck, hFail⟩ := Instrumentation.loads_iff.mp loaded
  have hKnown : Registry.outcome (c.registry.directory w) h = .restarted :=
    if_pos (hi.known w h a hAck)
  have hNot : a ≠ .failed := by
    rintro rfl
    cases hFail
  rw [hKnown]
  cases w with
  | instrumentation =>
    have hFind : i.instrumenterAcks.find? h = some a := hAck
    simp only [owes, owesInstrumenter, hFind]
    simpa using hNot
  | aggregation =>
    have hHost := assigned_of_ackOf hAck rfl
    simp only [Instrumentation.ackOf, if_pos hHost, Option.some.injEq] at hAck
    simp [owes, owesAggregator, hLive, hHost, hAck, hNot]

/-- A deletion releases exactly the hosts that the record counts for, each once. -/
theorem count_held {c : Coordinator} {id : InstId} {i : Instrumentation} (hi : c.Fits id i)
    (w : Work) (h : String) :
    (held i w).count h = if i.loads w h then 1 else 0 := by
  rw [held]
  by_cases hStage : i.stage = .failed
  · simp [hStage, Instrumentation.loads]
  · rw [if_neg hStage, Instrumentation.count_hosts hi.acks]
    simp [Instrumentation.mem_hosts hi.acks, Instrumentation.loads_iff, hStage]

section Balance

variable {c : Coordinator} (hc : c.Sound) (w : Work) (h : String)

include hc

/-- Creating puts one load on each host that it acquires. -/
theorem balance_create (s : Spec) (ticket : Ticket) (now : Nat) :
    (c.create s ticket now).coordinator.loadOf w h =
      c.loadOf w h + (c.acquires (.create s ticket now) w).count h := by
  rcases c.create_eq s ticket now with ⟨hNone, e, hCreate⟩ | ⟨a, hSome, hCreate⟩
  · simp [hCreate, acquires, hNone]
  have hLoads : (c.newRecord s ticket now a.hostname).loads w h =
      decide (h ∈ c.addressees a.hostname w) := by
    simp only [Instrumentation.loads, ackOf_newRecord]
    by_cases hMem : h ∈ c.addressees a.hostname w <;> simp [hMem, newRecord]
  have hNodup : (c.addressees a.hostname w).Nodup := by
    cases w with
    | instrumentation => exact c.registry.instrumenters.distinct
    | aggregation => exact List.nodup_singleton _
  rw [hCreate, c.launch_eq s ticket now (find?_of_chosen? hSome)]
  simp only [acquires, hSome, hNodup.count]
  -- the number is new, so the record is one more
  show (c.instrumentations.insert c.nextId _).values.countP _ = _
  rw [Table.countP_insert_new _ hc.ascending _ hc.free_next, hLoads]
  simp [loadOf]

/-- Deleting takes one load off each host that it releases. -/
theorem balance_delete (id : InstId) :
    (c.step (.delete id)).coordinator.loadOf w h + (c.releases (.delete id) w).count h =
      c.loadOf w h := by
  simp only [step, releases]
  cases hFind : c.instrumentations.find? id with
  | none =>
    simp only [c.delete_unknown hFind]
    rfl
  | some i =>
    obtain ⟨t, hDelete, hAfter, -, -, -⟩ := c.delete_eq hFind
    have hHeld := count_held (hc.fits id i hFind) w h
    have hErase := Table.countP_erase (·.loads w h) hc.ascending hFind
    simp only [hDelete, hAfter, loadOf, hHeld]
    exact hErase

/-- The sweep takes one load off each host for each record that it fails there. -/
theorem balance_expire (now : Nat) :
    (c.expire now).coordinator.loadOf w h + (c.releases (.expire now) w).count h =
      c.loadOf w h := by
  rw [c.expire_eq now hc.ascending hc.numbered]
  simp only [loadOf, releases, expired, changeWhere]
  rw [Table.values_mapValues]
  refine countP_change_add fun i hi hLate => ?_
  have hFits := hc.fits _ i (hc.eq_of_mem hi)
  rw [isExpired_iff] at hLate
  have hLive : i.stage ≠ .failed := by simp [hLate.1]
  -- everybody who counted has answered or is out of time, and is released
  refine Instrumentation.loads_split_settled (Instrumentation.ascending_timeOut hFits.acks) hLive
    w h (i.loads w h) ?_ fun hNot => ?_
  · simp only [Instrumentation.loads_iff, Instrumentation.ackOf_timeOut, Option.map_eq_some_iff]
    constructor
    · rintro ⟨-, a, hAck, hFail⟩
      refine ⟨a.late, ⟨a, hAck, rfl⟩, ?_⟩
      cases a <;> simp_all [AckState.late, AckState.isFailure]
    · rintro ⟨_, ⟨a, hAck, rfl⟩, hFailed⟩
      refine ⟨hLive, a, hAck, ?_⟩
      cases a with
      | unknown => rfl
      | enabled => rfl
      | failed => exact absurd rfl hFailed
      | timedOut => exact absurd hAck (hFits.timely hLive w h)
  · have hFails := fails_timeOut hFits hLate.1
    rw [hNot] at hFails
    cases hFails

/-- An agent that comes online starts without load and gets one for each instrumentation that it is
told again. -/
theorem balance_welcome {e : Envelope Float} {now : Timestamp} {w' : Work} {r : AgentRecord}
    {catalog : Catalog} (arrives : e.arrival? now w' = some r)
    (others : ∀ w, w ≠ w' → e.arrival? now w = none) :
    (c.welcome w' r catalog).coordinator.loadOf w h =
      (if (e.arrival? now w).any (·.hostname = h) then 0 else c.loadOf w h) +
        (c.acquires (.receive e now) w).count h := by
  simp only [welcome, loadOf, changeWhere, acquires]
  rw [Table.values_mapValues, List.countP_map]
  by_cases hw : w = w'
  · subst hw
    simp only [arrives, Option.any_some, decide_eq_true_eq]
    generalize hOwes : owes w r.hostname (Registry.outcome (c.registry.directory w) r.hostname) =
      owed
    by_cases hh : r.hostname = h
    · -- of its own records exactly those count that it is told of
      rw [if_pos hh, List.map_const', List.count_replicate, if_pos (beq_iff_eq.mpr hh),
        ← List.countP_eq_length_filter, Nat.zero_add]
      refine List.countP_congr fun i hi => ?_
      have hFits := hc.fits _ i (hc.eq_of_mem hi)
      subst hh
      by_cases hOwed : owed i = true
      · have hOwed' := hOwes ▸ hOwed
        rw [Function.comp_apply, if_pos hOwed]
        refine iff_of_true ?_ hOwed
        refine Instrumentation.loads_iff.mpr ⟨?_, .unknown, ?_, rfl⟩
        · rw [Instrumentation.stage_setAck]
          exact live_of_owes hOwed'
        · rw [Instrumentation.ackOf_setAck hFits.acks _ (assigned_of_owes hOwed'),
            if_pos ⟨rfl, rfl⟩]
      · rw [Function.comp_apply, if_neg hOwed]
        refine iff_of_false (fun hLoads => ?_) hOwed
        exact hOwed (hOwes ▸ owes_of_loads hFits hLoads)
    · have hNone :
          ((c.instrumentations.values.filter owed).map fun _ => r.hostname).count h = 0 := by
        rw [List.map_const', List.count_replicate, if_neg (by simpa using hh)]
      rw [if_neg hh, hNone, Nat.add_zero]
      refine List.countP_congr fun i hi => ?_
      rw [Function.comp_apply]
      split
      · next hOwed =>
        rw [Instrumentation.loads_setAck_of_ne (hc.fits _ i (hc.eq_of_mem hi)).acks _
          (assigned_of_owes (hOwes ▸ hOwed)) fun hSame => hh hSame.2.symm]
      · rfl
  · simp only [others w hw, Option.any_none, Bool.false_eq_true, if_false, List.count_nil,
      Nat.add_zero]
    refine List.countP_congr fun i hi => ?_
    rw [Function.comp_apply]
    split
    · next hOwed =>
      rw [Instrumentation.loads_setAck_of_ne (hc.fits _ i (hc.eq_of_mem hi)).acks _
        (assigned_of_owes hOwed) fun hSame => hw hSame.1]
    · rfl

/-- A word takes load off the author if it refuses, and off everybody who is relieved if the record
fails by it. -/
theorem balance_acknowledge (w' : Work) (h' : String) (id : InstId) (s : AckStatus)
    {i : Instrumentation} (heard : c.heard? w' h' id = some i) :
    (c.acknowledge w' h' id s).coordinator.loadOf w h +
        (refused w' h' s w ++ (i.setAck (ackState s) w' h').relieved w).count h =
      c.loadOf w h := by
  obtain ⟨hFind, hLive, hAck⟩ := heard?_eq_some.mp heard
  have hFits := hc.fits id i hFind
  have hId : (i.setAck (ackState s) w' h').settled.id = id :=
    (congrArg (·.1) ((Instrumentation.fixed_settled _).trans
      (Instrumentation.fixed_setAck i (ackState s) w' h'))).trans hFits.numbered
  have hWord := Instrumentation.ackOf_setAck hFits.acks (ackState s) (assigned_of_ackOf hAck) w h
  have hReplace := Table.countP_insert_old (·.loads w h) hc.ascending
    (i.setAck (ackState s) w' h').settled hFind
  -- the sender counted, and counts on unless it has not started
  have hSplit : ∀ stays : Bool, (stays = true ↔
      ∃ a, (i.setAck (ackState s) w' h').ackOf w h = some a ∧ a ≠ .failed) → _ :=
    fun stays hStays => Instrumentation.loads_split_settled
      (Instrumentation.ascending_setAck hFits.acks (ackState s) w' h')
      (Instrumentation.stage_setAck i (ackState s) w' h' ▸ hLive) w h stays hStays fun _ => by
        rw [hWord]
        split
        · cases hs : s.isEnabled <;> simp [ackState, hs]
        · exact hFits.timely hLive w h
  rw [acknowledge_heard hc.ascending hc.numbered heard, List.count_append]
  show (c.instrumentations.insert _ _).values.countP _ + _ = _
  rw [hId]
  by_cases hSame : w = w' ∧ h = h'
  · obtain ⟨rfl, rfl⟩ := hSame
    rw [if_pos ⟨rfl, rfl⟩] at hWord
    have hBefore : i.loads w h = true :=
      Instrumentation.loads_iff.mpr ⟨hLive, .unknown, hAck, rfl⟩
    -- the word of the sender: it stays in the count exactly if it has started
    have hOne := hSplit s.isEnabled (by
      rw [hWord]
      cases hs : s.isEnabled <;> simp [ackState, hs])
    have hRefused : (refused w h s w).count h = if s.isEnabled then 0 else 1 := by
      cases hs : s.isEnabled <;> simp [refused, hs]
    rw [hBefore, if_pos rfl] at hReplace
    rw [hRefused, loadOf]
    cases hs : s.isEnabled <;> simp only [hs, if_true, Bool.false_eq_true, if_false] at hOne ⊢ <;>
      omega
  · -- anybody else is neither heard nor refused
    rw [if_neg hSame] at hWord
    -- the word of anybody else stays, and so it counts as before
    have hOne := hSplit (i.loads w h) (by
      rw [hWord, Instrumentation.loads_iff]
      constructor
      · rintro ⟨-, a, hA, hFail⟩
        refine ⟨a, hA, ?_⟩
        rintro rfl
        cases hFail
      · rintro ⟨a, hA, hNot⟩
        refine ⟨hLive, a, hA, ?_⟩
        cases a with
        | unknown => rfl
        | enabled => rfl
        | failed => exact absurd rfl hNot
        | timedOut => exact absurd hA (hFits.timely hLive w h))
    have hRefused : (refused w' h' s w).count h = 0 := by
      refine List.count_eq_zero.mpr fun hMem => hSame ?_
      unfold refused at hMem
      split at hMem
      · next hw => exact ⟨hw.1, List.mem_singleton.mp hMem⟩
      · cases hMem
    rw [hRefused, loadOf]
    omega

/-- **How an event moves the number of instrumentations of a host.** A host that is announced
starts anew; otherwise what is released leaves the number, and what is acquired enters it. -/
theorem balance_step (x : Event) :
    (c.step x).coordinator.loadOf w h + (c.releases x w).count h =
      (if (x.arrival? w).any (·.hostname = h) then 0 else c.loadOf w h) +
        (c.acquires x w).count h := by
  cases x with
  | create s ticket now => exact balance_create hc w h s ticket now
  | delete id => exact balance_delete hc w h id
  | expire now => exact balance_expire hc w h now
  | receive e now =>
    show (c.handle e now).coordinator.loadOf w h + _ =
      (if (e.arrival? now w).any (·.hostname = h) then 0 else c.loadOf w h) + _
    rcases c.handle_cases e now with
      ⟨w', r, hSome, hOther, hHandle⟩ | ⟨w', id, s, error, hAck, hHandle⟩ |
      ⟨hNone, hNoAck, replies, hHandle, -⟩
    · rw [hHandle, releases_arrival (x := .receive e now) hSome, List.count_nil, Nat.add_zero]
      exact balance_welcome hc w h hSome hOther
    · obtain ⟨source, hostname, m⟩ := e
      subst hAck
      rw [hHandle]
      simp only [releases, acquires, arrival?_ack]
      cases hHeard : c.heard? w' hostname id with
      | none =>
        rw [acknowledge_unheard hHeard]
        simp [Turn.quiet]
      | some i =>
        have := balance_acknowledge hc w h w' hostname id s hHeard
        simpa using this
    · rw [hHandle, releases_other hNoAck, acquires]
      simp [hNone w]

end Balance

/-! ## Exact counters -/

/-- Every counter of a coordinator is the number of instrumentations of its host. -/
def Exact (c : Coordinator) : Prop :=
  ∀ w h r, (c.registry.directory w).find? h = some r → r.load = c.loadOf w h

theorem exact_new (keyBase : String) (ackTimeout : Nat) :
    (Coordinator.new keyBase ackTimeout).Exact := by
  intro w h r hFind
  cases w <;> cases hFind

/-- An event releases or acquires, but not both. -/
theorem releases_or_acquires (c : Coordinator) (x : Event) (w : Work) :
    c.releases x w = [] ∨ c.acquires x w = [] := by
  cases x with
  | create => exact .inl rfl
  | delete => exact .inr rfl
  | expire => exact .inr rfl
  | receive e now =>
    cases hArrives : e.arrival? now w with
    | none => exact .inr (by simp [acquires, hArrives])
    | some r => exact .inl (releases_arrival (x := .receive e now) hArrives w)

/-- Every event keeps the counters exact. -/
theorem exact_step {c : Coordinator} (hc : c.Sound) (counted : c.Exact) (x : Event) :
    (c.step x).coordinator.Exact := by
  intro w h r hFind
  have hBalance := balance_step hc w h x
  by_cases hArrives : ∃ r, x.arrival? w = some r ∧ r.hostname = h
  · obtain ⟨r', hr', rfl⟩ := hArrives
    rw [find?_directory_arrival hc.ascending hc.numbered hr'] at hFind
    rw [releases_arrival hr', hr'] at hBalance
    rw [← Option.some.inj hFind]
    simpa [AgentRecord.changeLoad] using hBalance.symm
  · have hQuiet : ∀ r, x.arrival? w = some r → r.hostname ≠ h :=
      fun r hr hh => hArrives ⟨r, hr, hh⟩
    have hAny : (x.arrival? w).any (·.hostname = h) = false := by
      cases hr : x.arrival? w with
      | none => rfl
      | some r => simpa using hQuiet r hr
    rw [find?_directory_step hc.ascending hc.numbered x w h hQuiet] at hFind
    obtain ⟨r', hr', rfl⟩ := Option.map_eq_some_iff.mp hFind
    rw [hAny] at hBalance
    have hLoad := counted w h r' hr'
    show r'.load - _ + _ = _
    -- a count is never negative, so no release is lost when the load stops at zero
    rcases releases_or_acquires c x w with hNil | hNil
    · rw [hNil, List.count_nil] at hBalance ⊢
      simp only [Bool.false_eq_true, if_false] at hBalance
      omega
    · rw [hNil, List.count_nil] at hBalance ⊢
      simp only [Bool.false_eq_true, if_false] at hBalance
      omega

/-- In every state that a coordinator gets into its counters are exact. -/
theorem exact_of_reachable {c : Coordinator} (h : c.Reachable) : c.Sound ∧ c.Exact :=
  h.induct (P := fun c => c.Sound ∧ c.Exact) (fun k t => ⟨sound_new k t, exact_new k t⟩)
    fun _ x hc => ⟨sound_step hc.1 x, exact_step hc.1 hc.2 x⟩

/-- When a release is carried out, its host is known and has a load. -/
theorem release_finds_load {c : Coordinator} (hc : c.Sound) (counted : c.Exact) {x : Event}
    {w : Work} {before after : List String} {h : String}
    (released : c.releases x w = before ++ h :: after) :
    ∃ r, ((c.entered x w).releaseAll before).find? h = some r ∧ 0 < r.load := by
  have hNone : x.arrival? w = none := by
    cases hArrives : x.arrival? w with
    | none => rfl
    | some r =>
      rw [releases_arrival hArrives] at released
      cases before <;> cases released
  have hAcquires : c.acquires x w = [] := by
    rcases releases_or_acquires c x w with hNil | hNil
    · rw [hNil] at released
      cases before <;> cases released
    · exact hNil
  have hEntered : c.entered x w = c.registry.directory w := by simp [entered, hNone]
  have hBalance := balance_step hc w h x
  simp only [hNone, hAcquires, Option.any_none, Bool.false_eq_true, if_false, List.count_nil]
    at hBalance
  have hPos : 0 < (c.releases x w).count h := by
    rw [released]
    exact List.count_pos_iff.mpr (List.mem_append_right _ List.mem_cons_self)
  -- somebody counts for the host, so the host is known
  obtain ⟨i, hi, hLoads⟩ := List.countP_pos_iff.mp (show 0 < c.loadOf w h by omega)
  obtain ⟨-, a, hAck, -⟩ := Instrumentation.loads_iff.mp hLoads
  obtain ⟨r, hr⟩ := Option.isSome_iff_exists.mp ((hc.fits _ i (hc.eq_of_mem hi)).known w h a hAck)
  rw [hEntered]
  have hFound : ((c.registry.directory w).releaseAll before).find? h =
      some (r.changeLoad (· - before.count h)) := by
    rw [Directory.find?_releaseAll, hr]
    rfl
  have hEnough : (before ++ h :: after).count h ≤ r.load := by
    rw [← released, counted w h r hr]
    omega
  exact ⟨_, hFound, Directory.load_pos_of_count_le hr hEnough hFound⟩

/-- **Loads are exact.** In every reachable state the load of a participant is the number of
instrumentations that have not failed and in which its word is neither failure nor lateness.
An event changes loads by the releases and acquisitions of its ledger, and each of these releases
finds its host with a load above zero. Without instrumentations nobody has a load. -/
theorem loads_exact {c : Coordinator} (reachable : c.Reachable) :
    (∀ w, ∀ r ∈ (c.registry.directory w).records,
      r.load = c.instrumentations.values.countP fun i =>
        i.stage ≠ .failed ∧
          (i.ackOf w r.hostname = some .unknown ∨ i.ackOf w r.hostname = some .enabled)) ∧
    (∀ x w, (c.step x).coordinator.registry.directory w =
        ((c.entered x w).releaseAll (c.releases x w)).acquireAll (c.acquires x w) ∧
      ∀ before h after, c.releases x w = before ++ h :: after →
        ∃ r, ((c.entered x w).releaseAll before).find? h = some r ∧ 0 < r.load) ∧
    (c.instrumentations = [] → ∀ w, ∀ r ∈ (c.registry.directory w).records, r.load = 0) := by
  obtain ⟨hc, hExact⟩ := exact_of_reachable reachable
  have hLoad : ∀ w, ∀ r ∈ (c.registry.directory w).records, r.load = c.loadOf w r.hostname :=
    fun w r hr => hExact w r.hostname r (Roster.find?_of_mem (c.registry.directory w).distinct hr)
  refine ⟨fun w r hr => ?_, fun x w => ⟨?_, ?_⟩, fun hEmpty w r hr => ?_⟩
  · rw [hLoad w r hr]
    exact List.countP_congr fun i _ => by simp [Instrumentation.loads]
  · exact directory_step c hc.ascending hc.numbered x w
  · exact fun before h after hSplit => release_finds_load hc hExact hSplit
  · rw [hLoad w r hr, loadOf, hEmpty]
    rfl

/-- When the instrumentation of a brief history is deleted, its instrumenter is released, and has a
load to give back. -/
theorem loads_exact_brief :
    let c := (Coordinator.new "k" 3).run briefHistory
    c.Reachable ∧ c.releases (.delete 1) .instrumentation = ["h"] ∧
      ∃ r, (c.registry.directory .instrumentation).find? "h" = some r ∧ 0 < r.load :=
  ⟨⟨"k", 3, briefHistory, rfl⟩, by decide,
    ((loads_exact ⟨"k", 3, briefHistory, rfl⟩).2.1 (.delete 1) .instrumentation).2 [] "h" []
      (by decide)⟩

end FleetMetrics.Coordinator
