import Mathlib
import FleetMetrics.Proofs.Coordinator.Confluence

/-!
# The end of the waiting time

A creation that waits too long is ended by a sweep, which marks those who have not answered as late
and then ends the creation like any other: it fails if somebody has failed or is late, and is
enabled otherwise. So a creation that waits for nobody would be enabled by the sweep that was to
fail it. A creation without a request would be failed without anybody being told.

Neither exists. In every reachable state a creation under way waits for somebody (`Fits.waits`) and
holds the request that it answers (`Ticketed`). With these the sweep is one change of all records
that are out of time, `lapsed`, and everything it does can be read off `expire_lapses`. Sweeps that
follow each other then do what the last one would do alone, although several records share loads:
giving back loads has no order.

Main results:

* `settled_timeOut` — a creation that is out of time fails.
* `ticketed_of_reachable` — a request waits exactly in the records that are creating.
* `expire_lapses` — what a sweep does as a whole.
* `expire_fails_closed` — that it fails what is out of time, and touches nothing else.
-/

namespace FleetMetrics

namespace Instrumentation

/-- A creation whose time is up: whoever has not answered is late, and the creation has failed. -/
def lapsed (i : Instrumentation) : Instrumentation :=
  { i.timeOut with stage := .failed, pending := none }

/-- Why a creation has failed whose time is up. An aggregator that has not started counts first. -/
def overdue (i : Instrumentation) : String :=
  if i.aggregatorAck = .enabled then "failed to enable some instrumenters"
  else "failed to enable aggregator"

/-- The answer to the request whose creation is out of time. -/
def rejection (i : Instrumentation) : Answer :=
  .error (.enableFailed i.overdue)

/-- Nobody who is late has said that it failed. -/
theorem hosts_timeOut (i : Instrumentation) (w : Work) :
    i.timeOut.hosts (· ≠ .failed) w = i.hosts (· ≠ .failed) w := by
  have hLate : ∀ a : AckState, decide (a.late ≠ .failed) = decide (a ≠ .failed) := by
    rintro (_ | _ | _ | _) <;> rfl
  cases w with
  | instrumentation =>
    show (List.filter _ (i.instrumenterAcks.mapValues fun _ a => a.late)).map _ = _
    rw [Table.mapValues, List.filter_map, List.map_map]
    simp only [Function.comp_def, hLate]
    rfl
  | aggregation =>
    show (if decide (i.aggregatorAck.late ≠ .failed) = true then _ else _) = _
    rw [hLate]
    rfl

/-- A creation that has failed is not out of time. -/
theorem not_expired_lapsed (i : Instrumentation) (now : Nat) :
    Coordinator.isExpired now i.lapsed = false := rfl

/-- A request stays with its creation until that ends. -/
theorem isSome_pending_settled {i : Instrumentation}
    (ticketed : i.pending.isSome = true ↔ i.stage = .creating) :
    i.settled.pending.isSome = true ↔ i.settled.stage = .creating := by
  unfold settled
  split
  · cases i.failure? <;> simp
  · exact ticketed

end Instrumentation

namespace Coordinator

/-! ## One creation -/

section Lapse

variable {c : Coordinator} {id : InstId} {i : Instrumentation} (hi : c.Fits id i)
  (creating : i.stage = .creating)

include hi creating

/-- Somebody is late when time is up, and the aggregator is asked first. -/
theorem failure?_timeOut : i.timeOut.failure? = some i.overdue := by
  have hFails := fails_timeOut hi creating
  rw [Instrumentation.fails, Bool.and_eq_true] at hFails
  have hLate : i.timeOut.aggregatorAck = i.aggregatorAck.late := rfl
  unfold Instrumentation.failure? at hFails ⊢
  rw [hLate] at hFails ⊢
  unfold Instrumentation.overdue
  cases hAck : i.aggregatorAck with
  | enabled =>
    -- the aggregator has started, so it is an instrumenter that is late or has failed
    rw [hAck] at hFails
    have hStarted : AckState.enabled.late.isFailure = false := rfl
    simp only [hStarted, Bool.false_eq_true, if_false, if_true] at hFails ⊢
    by_cases hSomebody : i.timeOut.instrumenterAcks.values.any AckState.isFailure = true
    · rw [if_pos hSomebody]
    · rw [if_neg hSomebody] at hFails
      cases hFails.2
  | _ => simp [AckState.late, AckState.isFailure]

/-- **A creation that is out of time fails.** It is not enabled, although nobody is waited for any
more. -/
theorem settled_timeOut : i.timeOut.settled = i.lapsed := by
  rw [Instrumentation.settled, Instrumentation.isDecided_timeOut hi.acks creating,
    failure?_timeOut hi creating]
  rfl

/-- When a record times out, all are relieved but those who have refused before. -/
theorem relieved_timeOut : i.timeOut.relieved = i.hosts (· ≠ .failed) := by
  funext w
  rw [Instrumentation.relieved, if_pos (fails_timeOut hi creating), Instrumentation.hosts_timeOut]

/-- The request is answered with the reason for which the record is rejected. -/
theorem verdict_timeOut :
    i.timeOut.verdict = (i.pending.map fun ticket => (ticket, i.rejection)).toList := by
  rw [Instrumentation.verdict, Instrumentation.isDecided_timeOut hi.acks creating,
    failure?_timeOut hi creating]
  rfl

end Lapse

/-! ## Requests under way -/

/-- A request waits exactly in the records that are creating. -/
def Ticketed (c : Coordinator) : Prop :=
  ∀ id i, c.instrumentations.find? id = some i → (i.pending.isSome = true ↔ i.stage = .creating)

/-- A request comes with its record, and is gone when the creation ends. -/
theorem ticketed_step {c : Coordinator} (hc : c.Sound) (ticketed : c.Ticketed) (x : Event) :
    (c.step x).coordinator.Ticketed := by
  intro id j hAfter
  have hChange := change_step hc x id
  have hBefore := ticketed id
  rw [hAfter] at hChange
  generalize c.instrumentations.find? id = before at hChange hBefore
  generalize (fun w => ordersIn (c.step x).sent w id) = orders at hChange
  cases hChange with
  | rest => exact hBefore j rfl
  | created chosen next => simp [newRecord]
  | @heard i e w s error now message live unanswered =>
    refine Instrumentation.isSome_pending_settled ?_
    rw [Instrumentation.pending_setAck, Instrumentation.stage_setAck]
    exact hBefore i rfl
  | @expired i now late => exact Instrumentation.isSome_pending_settled (hBefore i rfl)
  | @recalled i e now w r arrives owed =>
    rw [Instrumentation.pending_setAck, Instrumentation.stage_setAck]
    exact hBefore i rfl

/-- In every state that a coordinator gets into, the records being created are those with a
ticket. -/
theorem ticketed_of_reachable {c : Coordinator} (h : c.Reachable) : c.Sound ∧ c.Ticketed :=
  h.induct (P := fun c => c.Sound ∧ c.Ticketed) (fun k t => ⟨sound_new k t, nofun⟩)
    fun _ x hc => ⟨sound_step hc.1 x, ticketed_step hc.1 hc.2 x⟩

/-! ## One sweep -/

/-- The next deadline is still to come exactly if nothing is out of time. -/
theorem nextDeadline_gt_iff {c : Coordinator} {now : Nat} :
    (∀ d, c.nextDeadline = some d → now < d) ↔ c.expired now = [] := by
  have hEmpty : c.expired now = [] ↔ ∀ i ∈ c.instrumentations.values, i.stage = .creating →
      now < i.deadline := by
    simp only [expired, List.filter_eq_nil_iff, isExpired_iff, not_and, not_le]
  rw [hEmpty]
  unfold nextDeadline
  constructor
  · intro later i hi hCreating
    have hMem : i.deadline ∈
        (c.instrumentations.values.filter (·.stage = .creating)).map (·.deadline) :=
      List.mem_map_of_mem (List.mem_filter.mpr ⟨hi, by simpa using hCreating⟩)
    obtain ⟨d, hMin⟩ := Option.ne_none_iff_exists'.mp fun hNone =>
      List.ne_nil_of_mem hMem (List.min?_eq_none_iff.mp hNone)
    exact (List.le_min?_iff hMin).mp (later d hMin) _ hMem
  · intro each d hMin
    obtain ⟨i, hi, rfl⟩ := List.mem_map.mp (List.min?_mem hMin)
    obtain ⟨hMem, hCreating⟩ := List.mem_filter.mp hi
    exact each i hMem (by simpa using hCreating)

/-- The hosts that work on some instrumentations, once for each: all that have not failed. -/
def workers (is : List Instrumentation) (w : Work) : List String :=
  is.flatMap (·.hosts (· ≠ .failed) w)

section Sweep

variable {c : Coordinator} (hc : c.Sound) (now : Nat)

/-- The sweep does nothing if nothing expires. -/
theorem expire_quiet (c : Coordinator) {now : Nat} (none : c.expired now = []) :
    c.expire now = .quiet c := by
  rw [expire, none]
  rfl

include hc

/-- What expires was still being created. -/
theorem creating_of_mem_expired {i : Instrumentation} (mem : i ∈ c.expired now) :
    c.Fits i.id i ∧ i.stage = .creating := by
  obtain ⟨hMem, hLate⟩ := List.mem_filter.mp mem
  exact ⟨hc.fits _ i (hc.eq_of_mem hMem), (isExpired_iff.mp hLate).1⟩

/-- **What a sweep does as a whole.** The records that are out of time lapse. Their participants are
released and told to stop, but for those who have failed, and their requests are answered. -/
theorem expire_lapses :
    c.expire now =
      { coordinator :=
          { c.relieve (workers (c.expired now)) with
            instrumentations :=
              changeWhere (isExpired now) Instrumentation.lapsed c.instrumentations }
        sent := (c.expired now).flatMap fun i => c.stops i.id (i.hosts (· ≠ .failed))
        answered := (c.expired now).flatMap fun i =>
          (i.pending.map fun ticket => (ticket, i.rejection)).toList } := by
  -- a record that expires is being created, so that its time is up decides it
  have hRecords : changeWhere (isExpired now) (·.timeOut.settled) c.instrumentations =
      changeWhere (isExpired now) Instrumentation.lapsed c.instrumentations := by
    refine List.map_congr_left fun e he => ?_
    have hFits := hc.fits e.1 e.2 ((Table.mem_iff_find? hc.ascending).mp he)
    by_cases hLate : isExpired now e.2 = true
    · simp only [hLate, settled_timeOut hFits (isExpired_iff.mp hLate).1]
    · simp only [if_neg hLate]
  have hReleased : (fun w => (c.expired now).flatMap (·.timeOut.relieved w)) =
      workers (c.expired now) := by
    funext w
    refine List.flatMap_congr fun i hi => ?_
    obtain ⟨hFits, hCreating⟩ := creating_of_mem_expired hc now hi
    rw [relieved_timeOut hFits hCreating]
  have hSent : ((c.expired now).flatMap fun i => c.stops i.id i.timeOut.relieved) =
      (c.expired now).flatMap fun i => c.stops i.id (i.hosts (· ≠ .failed)) := by
    refine List.flatMap_congr fun i hi => ?_
    obtain ⟨hFits, hCreating⟩ := creating_of_mem_expired hc now hi
    rw [relieved_timeOut hFits hCreating]
  have hAnswered : (c.expired now).flatMap (·.timeOut.verdict) =
      (c.expired now).flatMap fun i =>
        (i.pending.map fun ticket => (ticket, i.rejection)).toList := by
    refine List.flatMap_congr fun i hi => ?_
    obtain ⟨hFits, hCreating⟩ := creating_of_mem_expired hc now hi
    exact verdict_timeOut hFits hCreating
  rw [c.expire_eq now hc.ascending hc.numbered, hRecords, hReleased, hSent, hAnswered]

/-- A record that expires lapses, and every other stays as it is. -/
theorem find?_expire (id : InstId) :
    (c.expire now).coordinator.instrumentations.find? id =
      (c.instrumentations.find? id).map fun i => if isExpired now i then i.lapsed else i := by
  rw [expire_lapses hc now]
  exact Table.find?_mapValues c.instrumentations
    (fun _ i => if isExpired now i then i.lapsed else i) id

/-- The records that are out of time are those that a sweep moves to another stage. -/
theorem moved_expire :
    (c.expired now).map (·.id) =
      c.instrumentations.keys.filter fun id =>
        (c.expire now).coordinator.stageOf id ≠ c.stageOf id := by
  rw [← Table.map_key_values hc.ascending hc.numbered, List.filter_map]
  refine congrArg _ (List.filter_congr fun i hi => ?_)
  simp only [Function.comp_apply, stageOf, find?_expire hc, hc.eq_of_mem hi, Option.map_some]
  by_cases hLate : isExpired now i = true
  · have hCreating := (isExpired_iff.mp hLate).1
    simp [hLate, hCreating, Instrumentation.lapsed]
  · simp [hLate]

/-- The number that a sweep tells is that of the records it moves to another stage. -/
theorem sweep_eq :
    c.sweep now =
      ((c.instrumentations.keys.filter fun id =>
        (c.expire now).coordinator.stageOf id ≠ c.stageOf id).length, c.expire now) := by
  rw [sweep, ← moved_expire hc, List.length_map]

/-- Each record that is out of time has a request, and that is answered once. -/
theorem answered_expire (ticketed : c.Ticketed) :
    ((c.expire now).answered.map fun answer => (some answer.1, answer.2)) =
      (c.expired now).map fun i => (i.pending, i.rejection) := by
  rw [expire_lapses hc now, List.map_flatMap, List.map_eq_flatMap]
  refine List.flatMap_congr fun i hi => ?_
  obtain ⟨hMem, hLate⟩ := List.mem_filter.mp hi
  obtain ⟨ticket, hTicket⟩ := Option.isSome_iff_exists.mp
    ((ticketed i.id i (hc.eq_of_mem hMem)).mpr (isExpired_iff.mp hLate).1)
  simp [hTicket]

/-! ## Two sweeps -/

/-- The sweep goes over the records in place. -/
theorem values_expire :
    (c.expire now).coordinator.instrumentations.values =
      c.instrumentations.values.map fun i => if isExpired now i then i.lapsed else i := by
  rw [expire_lapses hc now]
  exact Table.values_mapValues c.instrumentations fun i => if isExpired now i then i.lapsed else i

/-- What has lapsed is not found again by a later sweep. -/
theorem expired_expire (later : Nat) :
    (c.expire now).coordinator.expired later =
      (c.expired later).filter fun i => !isExpired now i := by
  rw [expired, values_expire hc, List.filter_map, expired, List.filter_filter]
  have hKept : c.instrumentations.values.filter
      (isExpired later ∘ fun i => if isExpired now i then i.lapsed else i) =
        c.instrumentations.values.filter fun i => !isExpired now i && isExpired later i := by
    refine List.filter_congr fun i _ => ?_
    cases hNow : isExpired now i with
    | true => simp [hNow, Instrumentation.not_expired_lapsed]
    | false => simp [hNow]
  rw [hKept]
  refine (List.map_congr_left fun i hi => ?_).trans (List.map_id _)
  have hNot := (List.mem_filter.mp hi).2
  simp only [Bool.and_eq_true, Bool.not_eq_true'] at hNot
  simp [hNot.1]

variable {now}

omit hc in
/-- What has expired at one time has expired at any later one. -/
theorem isExpired_mono {later : Nat} (h : now ≤ later) {i : Instrumentation}
    (late : isExpired now i = true) : isExpired later i = true := by
  rw [isExpired_iff] at late ⊢
  exact ⟨late.1, late.2.trans h⟩

omit hc in
/-- What is out of time later is out of time now, or is left over. -/
theorem expired_perm (c : Coordinator) {later : Nat} (h : now ≤ later) :
    (c.expired now ++ (c.expired later).filter fun i => !isExpired now i).Perm
      (c.expired later) := by
  have hNow : c.expired now = (c.expired later).filter (isExpired now) := by
    rw [expired, expired, List.filter_filter]
    refine List.filter_congr fun i _ => ?_
    cases hLate : isExpired now i with
    | false => rfl
    | true => rw [isExpired_mono h hLate, Bool.true_and]
  rw [hNow]
  exact List.filter_append_perm _ _

omit hc in
/-- A record that the first sweep changes is changed by the second one in the same way. -/
theorem changeWhere_expired {later : Nat} (h : now ≤ later) (t : Table InstId Instrumentation) :
    changeWhere (isExpired later) Instrumentation.lapsed
      (changeWhere (isExpired now) Instrumentation.lapsed t) =
        changeWhere (isExpired later) Instrumentation.lapsed t := by
  simp only [changeWhere, Table.mapValues_mapValues]
  refine congrArg (Table.mapValues · t) (funext₂ fun _ i => ?_)
  by_cases hNow : isExpired now i = true
  · simp [hNow, isExpired_mono h hNow, Instrumentation.not_expired_lapsed]
  · simp only [if_neg hNow]

/-- **Two sweeps do what the later one does alone.** -/
theorem expire_expire {later : Nat} (h : now ≤ later) :
    ((c.expire now).andThen (·.expire later)).Same (c.expire later) := by
  have hSound : (c.expire now).coordinator.Sound := sound_step hc (.expire now)
  have hPerm := c.expired_perm h
  have hSecond := expire_lapses hSound later
  rw [expired_expire hc now later] at hSecond
  generalize ((c.expired later).filter fun i => !isExpired now i) = rest at hPerm hSecond
  have hFirst : (c.expire now).coordinator =
      { c.relieve (workers (c.expired now)) with
        instrumentations :=
          changeWhere (isExpired now) Instrumentation.lapsed c.instrumentations } :=
    congrArg Turn.coordinator (expire_lapses hc now)
  -- loads have no order, so it does not matter which sweep gives them back
  have hLoads : (c.relieve (workers (c.expired now))).relieve (workers rest) =
      c.relieve (workers (c.expired later)) := by
    rw [relieve_relieve]
    refine relieve_perm c fun w => ?_
    rw [workers, workers, ← List.flatMap_append]
    exact hPerm.flatMap_right _
  have hKeys : ∀ i : Instrumentation,
      (c.expire now).coordinator.stops i.id (i.hosts (· ≠ .failed)) =
        c.stops i.id (i.hosts (· ≠ .failed)) := by
    intro i
    rw [hFirst]
    exact stops_relieve c i.id (workers (c.expired now)) _
  refine ⟨?_, ?_, ?_⟩
  · calc ((c.expire now).andThen (·.expire later)).coordinator
        = { (c.relieve (workers (c.expired now))).relieve (workers rest) with
            instrumentations := changeWhere (isExpired later) Instrumentation.lapsed
              (changeWhere (isExpired now) Instrumentation.lapsed c.instrumentations) } := by
          rw [Turn.andThen, hSecond, hFirst]
          rfl
      _ = (c.expire later).coordinator := by
          rw [hLoads, changeWhere_expired h, expire_lapses hc later]
  · rw [Turn.andThen, hSecond, expire_lapses hc later]
    simp only [hKeys]
    rw [expire_lapses hc now, ← List.flatMap_append]
    exact hPerm.flatMap_right _
  · rw [Turn.andThen, hSecond, expire_lapses hc later, expire_lapses hc now,
      ← List.flatMap_append]
    exact hPerm.flatMap_right _

end Sweep

/-- **A sweep fails what is out of time, and touches nothing else.** In every reachable state

* each record that is creating and whose deadline has come has failed afterwards, with everybody
  late who had not answered, and every other record is as it was;
* what is left of the coordinator is as it was, but for the loads that are given back;
* the records that are swept are those whose stage changes, and so many are told; the request of
  each is answered once, with the reason that its aggregator has not started, or else that some
  instrumenter has not;
* the next deadline is still to come afterwards, and if it was so before, nothing happens at all;
* a later sweep ends where it would have ended alone, with the same answers and messages. -/
theorem expire_fails_closed {c : Coordinator} (reachable : c.Reachable) (now : Nat) :
    let t := c.expire now
    (∀ id, t.coordinator.instrumentations.find? id =
      (c.instrumentations.find? id).map fun i =>
        if i.stage = .creating ∧ i.deadline ≤ now then
          { i.timeOut with stage := .failed, pending := none }
        else i) ∧
    t.coordinator =
      { c.relieve (workers (c.expired now)) with
        instrumentations := t.coordinator.instrumentations } ∧
    (c.expired now).map (·.id) =
      (c.instrumentations.keys.filter fun id => t.coordinator.stageOf id ≠ c.stageOf id) ∧
    c.sweep now =
      ((c.instrumentations.keys.filter fun id =>
        t.coordinator.stageOf id ≠ c.stageOf id).length, t) ∧
    (t.answered.map fun answer => (some answer.1, answer.2)) =
      ((c.expired now).map fun i => (i.pending, .error (.enableFailed
        (if i.aggregatorAck = .enabled then "failed to enable some instrumenters"
        else "failed to enable aggregator")))) ∧
    (∀ d, t.coordinator.nextDeadline = some d → now < d) ∧
    ((∀ d, c.nextDeadline = some d → now < d) → t = .quiet c ∧ c.expired now = []) ∧
    ∀ later, now ≤ later → (t.andThen (·.expire later)).Same (c.expire later) := by
  intro t
  obtain ⟨hc, hTicketed⟩ := ticketed_of_reachable reachable
  refine ⟨fun id => ?_, ?_, moved_expire hc now, sweep_eq hc now, answered_expire hc now hTicketed,
    ?_, ?_, fun later h => expire_expire hc h⟩
  · simp only [← isExpired_iff]
    exact find?_expire hc now id
  · show (c.expire now).coordinator = { c.relieve (workers (c.expired now)) with
      instrumentations := (c.expire now).coordinator.instrumentations }
    rw [expire_lapses hc now]
  · rw [nextDeadline_gt_iff, expired_expire hc, List.filter_eq_nil_iff]
    intro i hi
    simp [(List.mem_filter.mp hi).2]
  · intro hQuiet
    have hNone := nextDeadline_gt_iff.mp hQuiet
    exact ⟨c.expire_quiet hNone, hNone⟩

/-- Two creations wait: one for its instrumenter, as its aggregator has started, and a later one for
both. -/
def waitingHistory : List Event :=
  briefHistory ++
    [.receive ⟨"k.aggregator.g", "g", .ack .enable .aggregation 1 .enabled none⟩ ⟨1⟩,
      .create ⟨"m", "s", .trivial, [], []⟩ 1 2]

/-- The deadline of the first one comes, and then that of the other one. -/
theorem expire_fails_closed_brief :
    let c := (Coordinator.new "k" 3).run waitingHistory
    (c.expired 3).map (·.id) = [1] ∧ (c.sweep 3).1 = 1 ∧
      (c.expire 3).answered =
        [(0, .error (.enableFailed "failed to enable some instrumenters"))] ∧
      (c.expire 3).coordinator.nextDeadline = some 5 ∧
      ((c.expire 3).andThen (·.expire 5)).Same (c.expire 5) := by
  intro c
  obtain ⟨-, -, hMoved, hCount, hAnswered, -, -, hAgain⟩ :=
    expire_fails_closed (c := c) ⟨"k", 3, waitingHistory, rfl⟩ 3
  refine ⟨hMoved.trans (by decide), (congrArg Prod.fst hCount).trans (by decide), ?_, by decide,
    hAgain 5 (by decide)⟩
  have hPairs : ((c.expire 3).answered.map fun answer => (some answer.1, answer.2)) =
      [(some 0, .error (.enableFailed "failed to enable some instrumenters"))] :=
    hAnswered.trans (by decide)
  refine List.map_injective_iff.mpr (fun x y h => ?_) hPairs
  simpa [Prod.ext_iff] using h

end Coordinator

end FleetMetrics
