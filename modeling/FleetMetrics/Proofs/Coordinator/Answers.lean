import Mathlib
import FleetMetrics.Proofs.Coordinator.Lifecycle

/-!
# Every request is answered once

A request for an instrumentation carries a ticket, and whoever made the request waits for the one
answer that bears it. The ticket lies in the record that the request makes until the creation
ends. It may be lost in two ways: a record goes and takes its ticket along, or a creation goes on
that has forgotten its ticket. It may also be answered twice, if an end of the creation leaves it
where it is.

Neither happens, and the reason is one invariant. `Waits` says that a ticket lies in exactly one
place: in the record of its owner as long as that record is creating, and nowhere else. So what a
request is answered can be read off what an event does to this record, which `reply?` does.

Nothing here says that a request is answered eventually: a creation whose participants are silent
waits until somebody calls its time.

Main results:

* `waits_step` — no event moves a ticket to another record, or lets it lie when a creation ends.
* `answersTo_step` — what an event answers to a request is decided by the record of the request.
* `answered_once` — over every history a request gets at most one answer, none exactly while its
  record is creating, and the answer says what became of the record.
-/

namespace FleetMetrics

/-- The answers of a turn to one request. -/
def Turn.answersTo (t : Turn) (ticket : Ticket) : List Answer :=
  t.answered.filterMap fun entry => if entry.1 = ticket then some entry.2 else none

/-- What two turns answer to a ticket is answered by the one and then by the other. -/
theorem Turn.answersTo_andThen (t : Turn) (f : Coordinator → Turn) (ticket : Ticket) :
    (t.andThen f).answersTo ticket = t.answersTo ticket ++ (f t.coordinator).answersTo ticket :=
  List.filterMap_append

/-- The ticket of the request that an event is, if it is one. -/
def Event.ticket? : Event → Option Ticket
  | .create _ ticket _ => some ticket
  | _ => none

/-! ## Tickets in records -/

/-- What a request is answered when its record was creating and this is left of it. -/
def reply? (id : InstId) : Option Instrumentation → Option Answer
  | none => some (.error (.cancelled id))
  | some j =>
    match j.stage with
    | .creating => none
    | .enabled => some (.ok id)
    | .failed => j.failure?.map fun reason => .error (.enableFailed reason)

/-- A request is answered with success if what is left of its record is enabled. -/
theorem reply?_eq_ok {id n : InstId} {left : Option Instrumentation} :
    reply? id left = some (.ok n) ↔ n = id ∧ ∃ j, left = some j ∧ j.stage = .enabled := by
  unfold reply?
  split
  · simp
  · next j => cases hStage : j.stage <;> simp [hStage, eq_comm]

/-- A request is answered with a failure if what is left of its record has failed, and with the
reason that stands there. -/
theorem reply?_eq_failed {id : InstId} {left : Option Instrumentation} {reason : String} :
    reply? id left = some (.error (.enableFailed reason)) ↔
      ∃ j, left = some j ∧ j.stage = .failed ∧ j.failure? = some reason := by
  unfold reply?
  split
  · simp
  · next j => cases hStage : j.stage <;> simp [hStage]

/-- A request is cancelled if nothing is left of its record. -/
theorem reply?_eq_cancelled {id n : InstId} {left : Option Instrumentation} :
    reply? id left = some (.error (.cancelled n)) ↔ n = id ∧ left = none := by
  unfold reply?
  split
  · simp [eq_comm]
  · next j => cases j.stage <;> simp

/-- A request that has made a record is not refused any more. -/
theorem reply?_ne_refusal {id : InstId} {left : Option Instrumentation} {e : RequestError}
    (refusal : (∃ reason, e = .validation reason) ∨ e = .noAggregators) :
    reply? id left ≠ some (.error e) := by
  unfold reply?
  split
  · rcases refusal with ⟨reason, rfl⟩ | rfl <;> simp
  · next j => rcases refusal with ⟨reason, rfl⟩ | rfl <;> cases j.stage <;> simp

namespace Instrumentation

theorem pending_setAck (i : Instrumentation) (a : AckState) (w : Work) (h : String) :
    (i.setAck a w h).pending = i.pending := by
  cases w <;> rfl

theorem failure?_settled (i : Instrumentation) : i.settled.failure? = i.failure? := by
  unfold settled
  split <;> rfl

/-- A record that settling makes fail has a reason for it, so its requester can be told one. -/
theorem failure?_isSome_of_settled {i : Instrumentation} (live : i.stage ≠ .failed)
    (failed : i.settled.stage = .failed) : i.settled.failure?.isSome = true := by
  have hFails : i.fails = true := (fails_iff_stage_settled live).mpr failed
  rw [fails, Bool.and_eq_true] at hFails
  rw [failure?_settled]
  exact hFails.2

/-- A creation takes the ticket along as long as it goes on, and gives it back when it ends. -/
theorem pending_settled {i : Instrumentation} {ticket : Ticket} {own : Prop}
    (waits : i.pending = some ticket ↔ own ∧ i.stage = .creating) :
    i.settled.pending = some ticket ↔ own ∧ i.settled.stage = .creating := by
  unfold settled
  split
  · -- a creation that ends has no ticket and is creating no more
    cases i.failure? <;> simp
  · exact waits

/-- The end of a creation answers the request whose ticket lies in the record, and no other. -/
theorem filterMap_verdict {i : Instrumentation} {ticket : Ticket} {own : Prop} [Decidable own]
    (waits : i.pending = some ticket ↔ own ∧ i.stage = .creating) :
    (i.verdict.filterMap fun entry => if entry.1 = ticket then some entry.2 else none) =
      if own ∧ i.stage = .creating then (reply? i.id (some i.settled)).toList else [] := by
  cases hDecided : i.isDecided with
  | false =>
    have hVerdict : i.verdict = [] := by simp [verdict, hDecided]
    rw [hVerdict, settled_of_not_decided hDecided]
    split
    · next h => simp [reply?, h.2]
    · rfl
  | true =>
    -- the verdict and the reply are the same answer, read off the same reason
    obtain ⟨answer, hVerdict, hReply⟩ : ∃ answer : Answer,
        i.verdict = (i.pending.map fun ticket => (ticket, answer)).toList ∧
          reply? i.id (some i.settled) = some answer := by
      have hStage := stage_settled i
      rw [hDecided, if_pos rfl, fails, hDecided, Bool.true_and] at hStage
      cases hFailure : i.failure? with
      | none =>
        refine ⟨.ok i.id, by simp [verdict, hDecided, hFailure], ?_⟩
        simp [reply?, hStage, hFailure]
      | some reason =>
        refine ⟨.error (.enableFailed reason), by simp [verdict, hDecided, hFailure], ?_⟩
        simp [reply?, hStage, failure?_settled, hFailure]
    rw [hVerdict, hReply]
    by_cases hOwn : i.pending = some ticket
    · rw [if_pos (waits.mp hOwn), hOwn]
      simp
    · rw [if_neg fun h => hOwn (waits.mpr h)]
      cases hPending : i.pending with
      | none => rfl
      | some other =>
        have hOther : other ≠ ticket := fun h => hOwn (hPending.trans (congrArg some h))
        simp [hOther]

end Instrumentation

namespace Coordinator

/-- A ticket lies in the record of its owner as long as that is creating, and nowhere else. -/
structure Waits (c : Coordinator) (ticket : Ticket) (owner : Option InstId) : Prop where
  /-- The owner is a number that has been given out. -/
  given : ∀ id, owner = some id → id < c.nextId
  pending : ∀ id i, c.instrumentations.find? id = some i →
    (i.pending = some ticket ↔ owner = some id ∧ i.stage = .creating)

/-- At the start no ticket waits. -/
theorem waits_new (keyBase : String) (ackTimeout : Nat) (ticket : Ticket) :
    (Coordinator.new keyBase ackTimeout).Waits ticket none where
  given := by simp
  pending := by simp [Coordinator.new]

/-! ## One event -/

/-- What an event answers to the owner of a ticket. -/
def repliesTo (c : Coordinator) (x : Event) (owner : Option InstId) : List Answer :=
  match owner with
  | some id =>
    if c.stageOf id = some .creating then
      (reply? id ((c.step x).coordinator.instrumentations.find? id)).toList
    else []
  | none => []

/-- A request is not answered as long as its record is still being created. -/
theorem repliesTo_of_creating {c : Coordinator} {x : Event} {owner : Option InstId}
    (creating : ∀ id, owner = some id → c.stageOf id = some .creating →
      (c.step x).coordinator.stageOf id = some .creating) : c.repliesTo x owner = [] := by
  unfold repliesTo
  split
  · next id =>
    split
    · next h =>
      obtain ⟨j, hj, hStage⟩ := Option.map_eq_some_iff.mp (creating id rfl h)
      simp [hj, reply?, hStage]
    · rfl
  · rfl

/-- Deleting removes the record of that id and no other. -/
theorem find?_delete (c : Coordinator) (id id' : InstId) :
    (c.step (.delete id)).coordinator.instrumentations.find? id' =
      if id' = id then none else c.instrumentations.find? id' := by
  simp only [step]
  cases hFind : c.instrumentations.find? id with
  | none =>
    simp only [c.delete_unknown hFind, Turn.quiet]
    split
    · next h => rw [h, hFind]
    · rfl
  | some i =>
    obtain ⟨t, hDelete, hAfter, -, -, -⟩ := c.delete_eq hFind
    simp only [hDelete, hAfter]
    exact Table.find?_erase _ _ _

/-- An id has a stage if it has a record, which says it. -/
theorem stageOf_eq_some {c : Coordinator} {id : InstId} {stage : Stage} :
    c.stageOf id = some stage ↔
      ∃ i, c.instrumentations.find? id = some i ∧ i.stage = stage :=
  Option.map_eq_some_iff

section Step

variable {c : Coordinator} (hc : c.Sound) {ticket : Ticket} {owner : Option InstId}
  (waits : c.Waits ticket owner) {x : Event}

include hc

/-- A creation begins in the step that gives out its number, and at no other time. -/
theorem creating_step {id : InstId} (given : id < c.nextId)
    (creating : (c.step x).coordinator.stageOf id = some .creating) :
    c.stageOf id = some .creating := by
  obtain ⟨j, hj, hStage⟩ := stageOf_eq_some.mp creating
  have hChange := change_step hc x id
  rw [hj] at hChange
  rw [stageOf]
  generalize c.instrumentations.find? id = before at hChange
  generalize (fun w => ordersIn (c.step x).sent w id) = orders at hChange
  cases hChange with
  | rest => exact congrArg some hStage
  | created chosen next => exact absurd given (next ▸ Nat.lt_irrefl _)
  | @heard i e w s error now message live unanswered =>
    have hBefore := Instrumentation.stage_of_settled (i.setAck (ackState s) w e.hostname)
    rw [hStage, Instrumentation.stage_setAck] at hBefore
    rcases hBefore with h | ⟨h, -⟩
    · exact congrArg some h.symm
    · exact congrArg some h
  | expired late =>
    rw [isExpired_iff] at late
    exact congrArg some late.1
  | recalled arrives owed =>
    rw [Instrumentation.stage_setAck] at hStage
    exact congrArg some hStage

/-- A record that fails in a step has a reason by then. -/
theorem failure?_step {id : InstId} {j : Instrumentation} (before : c.stageOf id ≠ some .failed)
    (found : (c.step x).coordinator.instrumentations.find? id = some j)
    (failed : j.stage = .failed) : j.failure?.isSome = true := by
  have hChange := change_step hc x id
  rw [found] at hChange
  rw [stageOf] at before
  generalize c.instrumentations.find? id = record at hChange before
  generalize (fun w => ordersIn (c.step x).sent w id) = orders at hChange
  cases hChange with
  | rest => exact absurd (congrArg some failed) before
  | created chosen next => cases failed
  | @heard i e w s error now message live unanswered =>
    refine Instrumentation.failure?_isSome_of_settled ?_ failed
    rwa [Instrumentation.stage_setAck]
  | @expired i now late =>
    rw [isExpired_iff] at late
    refine Instrumentation.failure?_isSome_of_settled ?_ failed
    simp [Instrumentation.timeOut, late.1]
  | recalled arrives owed =>
    rw [Instrumentation.stage_setAck] at failed
    exact absurd (congrArg some failed) before

include waits

/-- **No event moves a ticket.** A request of somebody else brings another ticket, and a record
gives its ticket back exactly when it is creating no more. -/
theorem waits_step (foreign : x.ticket? ≠ some ticket) :
    (c.step x).coordinator.Waits ticket owner := by
  obtain ⟨-, hNext⟩ := frame_step hc x
  refine ⟨fun id hOwner => ?_, fun id j hj => ?_⟩
  · rw [hNext]
    exact Nat.lt_add_right _ (waits.given id hOwner)
  have hChange := change_step hc x id
  have hBefore := waits.pending id
  rw [hj] at hChange
  generalize c.instrumentations.find? id = before at hChange hBefore
  generalize (fun w => ordersIn (c.step x).sent w id) = orders at hChange
  cases hChange with
  | rest => exact hBefore j rfl
  | @created s other now a chosen next =>
    -- the new record holds the ticket that has come in, and its number is new
    have hOther : other ≠ ticket := fun h => foreign (congrArg some h)
    have hOwner : owner ≠ some id := fun h => absurd (waits.given id h) (next ▸ Nat.lt_irrefl _)
    simp [newRecord, hOther, hOwner]
  | @heard i e w s error now message live unanswered =>
    refine Instrumentation.pending_settled ?_
    rw [Instrumentation.pending_setAck, Instrumentation.stage_setAck]
    exact hBefore i rfl
  | @expired i now late => exact Instrumentation.pending_settled (hBefore i rfl)
  | @recalled i e now w r arrives owed =>
    rw [Instrumentation.pending_setAck, Instrumentation.stage_setAck]
    exact hBefore i rfl

omit hc waits in
/-- A record that does not hold the ticket is another one than the owner's. -/
theorem ne_of_creating {owner : Option InstId} {id id' : InstId} {i : Instrumentation}
    (found : c.instrumentations.find? id = some i)
    (without : ¬ (owner = some id ∧ i.stage = .creating)) (owned : owner = some id')
    (creating : c.stageOf id' = some .creating) : id' ≠ id := by
  rintro rfl
  obtain ⟨i', hi', hStage⟩ := stageOf_eq_some.mp creating
  obtain rfl : i = i' := Option.some.inj (found.symm.trans hi')
  exact without ⟨owned, hStage⟩

omit hc in
/-- Deleting answers a ticket only if it waits in the record that goes. -/
theorem answersTo_delete (id : InstId) :
    (c.step (.delete id)).answersTo ticket = c.repliesTo (.delete id) owner := by
  cases hFind : c.instrumentations.find? id with
  | none =>
    have hStep : c.step (.delete id) = .quiet c := by simp only [step, c.delete_unknown hFind]
    rw [repliesTo_of_creating fun id' _ h => by rwa [hStep]]
    rw [hStep]
    rfl
  | some i =>
    obtain ⟨t, hDelete, -, hAnswered, -, -⟩ := c.delete_eq hFind
    have hStep : c.step (.delete id) = t := by simp only [step, hDelete]
    rw [hStep, Turn.answersTo, hAnswered]
    by_cases hOwn : i.pending = some ticket
    · -- the record of the request goes
      obtain ⟨hOwner, hStage⟩ := (waits.pending id i hFind).mp hOwn
      have hCreating : c.stageOf id = some .creating := stageOf_eq_some.mpr ⟨i, hFind, hStage⟩
      rw [hOwner, repliesTo, if_pos hCreating, find?_delete, if_pos rfl, hOwn]
      simp [reply?]
    · -- another record goes, or one whose creation has ended
      rw [repliesTo_of_creating fun id' hOwner hCreating => ?_]
      · cases hPending : i.pending with
        | none => rfl
        | some other =>
          have hOther : other ≠ ticket := fun h => hOwn (hPending.trans (congrArg some h))
          simp [hOther]
      · have hNe : id' ≠ id :=
          ne_of_creating hFind (mt (waits.pending id i hFind).mpr hOwn) hOwner hCreating
        rw [stageOf, find?_delete, if_neg hNe]
        exact hCreating

/-- The sweep answers a ticket only if it waits in a record that expires, once, however many others
expire with it. -/
theorem answersTo_expire (now : Nat) :
    (c.step (.expire now)).answersTo ticket = c.repliesTo (.expire now) owner := by
  have hExpire : c.step (.expire now) = _ := c.expire_eq now hc.ascending hc.numbered
  have hLookup : ∀ id, (c.step (.expire now)).coordinator.instrumentations.find? id =
      (c.instrumentations.find? id).map fun i =>
        if isExpired now i then i.timeOut.settled else i := by
    intro id
    rw [hExpire]
    exact Table.find?_mapValues c.instrumentations
      (fun _ i => if isExpired now i then i.timeOut.settled else i) id
  -- each creation that ends answers for itself, and one of them at most holds the ticket
  have hEach : ∀ i ∈ c.instrumentations.values.filter (isExpired now),
      (i.timeOut.verdict.filterMap fun entry => if entry.1 = ticket then some entry.2 else none) =
        if owner = some i.id then (reply? i.id (some i.timeOut.settled)).toList else [] := by
    intro i hi
    obtain ⟨hMem, hLate⟩ := List.mem_filter.mp hi
    rw [isExpired_iff] at hLate
    rw [Instrumentation.filterMap_verdict (i := i.timeOut) (waits.pending i.id i (hc.eq_of_mem hMem))]
    simp [Instrumentation.timeOut, hLate.1]
  rw [Turn.answersTo, hExpire, List.filterMap_flatMap, expired, List.flatMap_congr hEach]
  cases owner with
  | none => simp [repliesTo]
  | some id =>
    have hOne := hc.flatMap_filter id (isExpired now)
      fun i => (reply? i.id (some i.timeOut.settled)).toList
    simp only [Option.some.injEq, eq_comm (a := id)]
    rw [hOne]
    simp only [repliesTo, hLookup, stageOf]
    cases hFind : c.instrumentations.find? id with
    | none => rfl
    | some i =>
      have hId := hc.numbered id i hFind
      by_cases hLate : isExpired now i = true
      · have hCreating : i.stage = .creating := by
          rw [isExpired_iff] at hLate
          exact hLate.1
        simp [hLate, hCreating, hId]
      · by_cases hCreating : i.stage = .creating
        · simp [hLate, hCreating, reply?]
        · simp [hLate, hCreating]

/-- A word answers a ticket only if it decides the record in which the ticket waits. -/
theorem answersTo_acknowledge (w : Work) (h : String) (id : InstId) (s : AckStatus)
    (hStep : c.step x = c.acknowledge w h id s) :
    (c.step x).answersTo ticket = c.repliesTo x owner := by
  cases hHeard : c.heard? w h id with
  | none =>
    rw [acknowledge_unheard hHeard] at hStep
    rw [repliesTo_of_creating fun id' _ hCreating => by rwa [hStep]]
    rw [hStep]
    rfl
  | some i =>
    obtain ⟨hFind, -, -⟩ := heard?_eq_some.mp hHeard
    rw [acknowledge_heard hc.ascending hc.numbered hHeard] at hStep
    have hId : (i.setAck (ackState s) w h).id = id :=
      (congrArg (·.1) (Instrumentation.fixed_setAck i _ w h)).trans (hc.numbered id i hFind)
    have hSettledId : (i.setAck (ackState s) w h).settled.id = id :=
      (congrArg (·.1) (Instrumentation.fixed_settled _)).trans hId
    have hLookup : ∀ id', (c.step x).coordinator.instrumentations.find? id' =
        if id' = id then some (i.setAck (ackState s) w h).settled
        else c.instrumentations.find? id' := by
      intro id'
      rw [hStep, ← hSettledId]
      exact Table.find?_insert hc.ascending _ _ _
    -- the word leaves the ticket where it was
    have hOwn : (i.setAck (ackState s) w h).pending = some ticket ↔
        owner = some id ∧ (i.setAck (ackState s) w h).stage = .creating := by
      rw [Instrumentation.pending_setAck, Instrumentation.stage_setAck]
      exact waits.pending id i hFind
    rw [Turn.answersTo, hStep]
    refine (Instrumentation.filterMap_verdict hOwn).trans ?_
    rw [hId, Instrumentation.stage_setAck]
    split
    · next hOwn =>
      -- the ticket waits in this record, which answers it if it is decided
      have hCreating : c.stageOf id = some .creating :=
        stageOf_eq_some.mpr ⟨i, hFind, hOwn.2⟩
      rw [hOwn.1, repliesTo, if_pos hCreating, hLookup, if_pos rfl]
    · next hOwn =>
      -- the ticket waits in another record, which is still being created
      refine (repliesTo_of_creating fun id' hOwner hCreating => ?_).symm
      have hNe : id' ≠ id := ne_of_creating hFind hOwn hOwner hCreating
      rw [stageOf, hLookup, if_neg hNe]
      exact hCreating

/-- **What an event answers to a request is decided by the record of the request.** -/
theorem answersTo_step (foreign : x.ticket? ≠ some ticket) :
    (c.step x).answersTo ticket = c.repliesTo x owner := by
  cases x with
  | create s other now =>
    have hOther : other ≠ ticket := fun h => foreign (congrArg some h)
    rcases c.create_eq s other now with ⟨-, e, hCreate⟩ | ⟨a, hSome, hCreate⟩
    · have hStep : c.step (.create s other now) = ⟨c, [], [(other, .error e)]⟩ := hCreate
      rw [repliesTo_of_creating fun id' _ hCreating => by rwa [hStep]]
      simp [Turn.answersTo, hStep, hOther]
    · have hStep : c.step (.create s other now) = c.launch s other now a := hCreate
      rw [repliesTo_of_creating fun id' hOwner hCreating => ?_]
      · rw [hStep]
        rfl
      · -- the new record has another number
        have hNe : id' ≠ c.nextId := Nat.ne_of_lt (waits.given id' hOwner)
        rw [hStep, stageOf]
        refine Eq.trans (congrArg _ ?_) hCreating
        exact Table.find?_alter_of_ne _ _ hNe
  | delete id => exact answersTo_delete waits id
  | expire now => exact answersTo_expire hc waits now
  | receive e now =>
    rcases c.handle_cases e now with
      ⟨w, r, -, -, hHandle⟩ | ⟨w, id, s, error, -, hHandle⟩ | ⟨-, -, replies, hHandle, -⟩
    · have hStep : c.step (.receive e now) = c.welcome w r (c.listed e) := hHandle
      rw [repliesTo_of_creating fun id' _ hCreating => ?_]
      · rw [hStep]
        rfl
      · -- a notice leaves every record at its stage
        rw [hStep, stageOf]
        obtain ⟨i, hi, hStage⟩ := stageOf_eq_some.mp hCreating
        rw [find?_welcome, hi]
        simp only [Option.map_some]
        split
        · rw [Instrumentation.stage_setAck, hStage]
        · rw [hStage]
    · exact answersTo_acknowledge hc waits w e.hostname id s hHandle
    · have hStep : c.step (.receive e now) = ⟨c, replies, []⟩ := hHandle
      rw [repliesTo_of_creating fun id' _ hCreating => by rwa [hStep]]
      rw [hStep]
      rfl

end Step

/-! ## Whole histories -/

section Run

variable {c : Coordinator} (hc : c.Sound) {ticket : Ticket} {owner : Option InstId}
  (waits : c.Waits ticket owner) {xs : List Event} (foreign : ∀ x ∈ xs, x.ticket? ≠ some ticket)

include hc waits foreign

/-- A ticket lies where it belongs over any history that does not use it for another request. -/
theorem waits_run : (c.run xs).Waits ticket owner := by
  induction xs using List.reverseRecOn with
  | nil => exact waits
  | append_singleton xs x ih =>
    rw [run_concat]
    refine waits_step (sound_run hc xs) (ih fun y hy => ?_) (foreign x (by simp))
    exact foreign y (List.mem_append_left _ hy)

/-- The last event of a history adds what it answers to the owner. -/
theorem answersTo_play_concat {x : Event} (last : x.ticket? ≠ some ticket) :
    (c.play (xs ++ [x])).answersTo ticket =
      (c.play xs).answersTo ticket ++ (c.run xs).repliesTo x owner := by
  rw [play_concat, Turn.answersTo_andThen, coordinator_play,
    answersTo_step (sound_run hc xs) (waits_run hc waits foreign) last]

end Run

section Run

variable {c : Coordinator} (hc : c.Sound) {ticket : Ticket} {xs : List Event}
  (foreign : ∀ x ∈ xs, x.ticket? ≠ some ticket)

include hc foreign

/-- A ticket without an owner is never answered. -/
theorem answersTo_play_of_none (waits : c.Waits ticket none) :
    (c.play xs).answersTo ticket = [] := by
  induction xs using List.reverseRecOn with
  | nil => rfl
  | append_singleton xs x ih =>
    have hForeign : ∀ y ∈ xs, y.ticket? ≠ some ticket :=
      fun y hy => foreign y (List.mem_append_left _ hy)
    rw [answersTo_play_concat hc waits hForeign (foreign x (by simp)), ih hForeign]
    rfl

/-- A request whose record is creating has one answer as soon as that has changed, and none until
then. -/
theorem answersTo_play_of_creating {id : InstId} (waits : c.Waits ticket (some id))
    (creating : c.stageOf id = some .creating) :
    ((c.play xs).answersTo ticket = [] ∧ (c.run xs).stageOf id = some .creating) ∨
      (((c.play xs).answersTo ticket).length = 1 ∧ (c.run xs).stageOf id ≠ some .creating) := by
  induction xs using List.reverseRecOn with
  | nil => exact .inl ⟨rfl, creating⟩
  | append_singleton xs x ih =>
    have hForeign : ∀ y ∈ xs, y.ticket? ≠ some ticket :=
      fun y hy => foreign y (List.mem_append_left _ hy)
    have hSound := sound_run hc xs
    have hGiven := (waits_run hc waits hForeign).given id rfl
    rw [answersTo_play_concat hc waits hForeign (foreign x (by simp)), run_concat, repliesTo]
    rcases ih hForeign with ⟨hNone, hCreating⟩ | ⟨hOne, hOver⟩
    · rw [hNone, if_pos hCreating, List.nil_append]
      cases hAfter : ((c.run xs).step x).coordinator.instrumentations.find? id with
      | none => exact .inr ⟨rfl, by simp [stageOf, hAfter]⟩
      | some j =>
        cases hStage : j.stage with
        | creating => exact .inl ⟨by simp [reply?, hStage], by simp [stageOf, hAfter, hStage]⟩
        | enabled => exact .inr ⟨by simp [reply?, hStage], by simp [stageOf, hAfter, hStage]⟩
        | failed =>
          obtain ⟨reason, hReason⟩ := Option.isSome_iff_exists.mp
            (failure?_step hSound (by simp [hCreating]) hAfter hStage)
          exact .inr ⟨by simp [reply?, hStage, hReason], by simp [stageOf, hAfter, hStage]⟩
    · -- once the creation has ended it does not begin again
      rw [if_neg hOver, List.append_nil]
      exact .inr ⟨hOne, fun h => hOver (creating_step hSound hGiven h)⟩

end Run

/-! ## The request itself -/

/-- A request is refused as invalid, or for want of an aggregator. -/
theorem create_refused {c : Coordinator} {s : Spec} (refused : c.chosen? s = none) (ticket : Ticket)
    (now : Nat) :
    ∃ e, c.create s ticket now = ⟨c, [], [(ticket, .error e)]⟩ ∧
      ((∃ reason, e = .validation reason) ∨ e = .noAggregators) := by
  unfold create
  cases hFault : c.fault? s with
  | some e => exact ⟨e, rfl, .inl (validation_of_fault? hFault)⟩
  | none =>
    have hNone : c.registry.aggregators.leastLoaded? = none := by
      simpa [chosen?, hFault] using refused
    simp only [Registry.selectAggregator, hNone]
    exact ⟨_, rfl, .inr rfl⟩

/-- A request that is not refused has its ticket in the record that it makes. -/
theorem create_accepted {c : Coordinator} (hc : c.Sound) {s : Spec} {a : AgentRecord}
    (chosen : c.chosen? s = some a) {ticket : Ticket} (now : Nat) (waits : c.Waits ticket none) :
    let t := c.step (.create s ticket now)
    t.answered = [] ∧ t.coordinator.Waits ticket (some c.nextId) ∧
      t.coordinator.stageOf c.nextId = some .creating := by
  intro t
  have hStep : t = c.launch s ticket now a := create_of_chosen chosen ticket now
  have hLookup : ∀ id, t.coordinator.instrumentations.find? id =
      if id = c.nextId then some (c.newRecord s ticket now a.hostname)
      else c.instrumentations.find? id := by
    intro id
    rw [hStep]
    exact Table.find?_insert hc.ascending _ _ _
  refine ⟨by rw [hStep]; rfl, ⟨?_, fun id i hi => ?_⟩, ?_⟩
  · rintro id hId
    rw [← Option.some.inj hId, hStep]
    exact Nat.lt_succ_self _
  · rw [hLookup] at hi
    split at hi
    · next hId =>
      rw [← Option.some.inj hi, hId]
      simp [newRecord]
    · next hId =>
      rw [waits.pending id i hi]
      simp [Ne.symm hId]
  · rw [stageOf, hLookup, if_pos rfl]
    rfl

/-- A record that an event makes enabled, or failed, was creating before. -/
theorem creating_of_moved {c : Coordinator} (hc : c.Sound) {x : Event} {id : InstId} {stage : Stage}
    (ended : stage ≠ .creating) (before : c.stageOf id ≠ some stage)
    (after : (c.step x).coordinator.stageOf id = some stage) : c.stageOf id = some .creating := by
  obtain ⟨j, hj, rfl⟩ := stageOf_eq_some.mp after
  cases hFind : c.instrumentations.find? id with
  | none => exact absurd (new_step hc hFind hj).1 ended
  | some i =>
    have hStage : c.stageOf id = some i.stage := stageOf_eq_some.mpr ⟨i, hFind, rfl⟩
    rcases fixed_step hc (x := x) hFind with ⟨-, hGone⟩ | ⟨j', hj', -, hSame | ⟨hCreating, -⟩⟩
    · rw [hj] at hGone
      cases hGone
    · obtain rfl : j = j' := Option.some.inj (hj.symm.trans hj')
      rw [hSame] at before
      exact absurd hStage before
    · rw [hStage, hCreating]

section Owner

variable {c : Coordinator} (hc : c.Sound) {ticket : Ticket} {id : InstId}
  (waits : c.Waits ticket (some id)) {x : Event} (foreign : x.ticket? ≠ some ticket)

include hc waits foreign

/-- A request is answered only while its record is creating, and then by what becomes of it. -/
theorem mem_answersTo_step (answer : Answer) :
    answer ∈ (c.step x).answersTo ticket ↔ c.stageOf id = some .creating ∧
      reply? id ((c.step x).coordinator.instrumentations.find? id) = some answer := by
  rw [answersTo_step hc waits foreign, repliesTo]
  split
  · next h => simp [h]
  · next h => simp [h]

/-- A request is answered with success in the very step in which its record becomes enabled. -/
theorem ok_mem_answersTo_iff (n : InstId) :
    .ok n ∈ (c.step x).answersTo ticket ↔
      n = id ∧ c.stageOf id ≠ some .enabled ∧
        (c.step x).coordinator.stageOf id = some .enabled := by
  rw [mem_answersTo_step hc waits foreign, reply?_eq_ok, ← stageOf_eq_some]
  constructor
  · rintro ⟨hStage, hn, hEnabled⟩
    exact ⟨hn, by simp [hStage], hEnabled⟩
  · rintro ⟨hn, hNot, hEnabled⟩
    exact ⟨creating_of_moved hc (by simp) hNot hEnabled, hn, hEnabled⟩

/-- A request is answered with a failure in the very step in which its record becomes failed. -/
theorem failed_mem_answersTo_iff :
    (∃ reason, .error (.enableFailed reason) ∈ (c.step x).answersTo ticket) ↔
      c.stageOf id ≠ some .failed ∧ (c.step x).coordinator.stageOf id = some .failed := by
  simp only [mem_answersTo_step hc waits foreign, reply?_eq_failed]
  constructor
  · rintro ⟨reason, hStage, j, hj, hFailed, -⟩
    exact ⟨by simp [hStage], stageOf_eq_some.mpr ⟨j, hj, hFailed⟩⟩
  · rintro ⟨hNot, hAfter⟩
    obtain ⟨j, hj, hFailed⟩ := stageOf_eq_some.mp hAfter
    obtain ⟨reason, hReason⟩ := Option.isSome_iff_exists.mp (failure?_step hc hNot hj hFailed)
    exact ⟨reason, creating_of_moved hc (by simp) hNot hAfter, j, hj, hFailed, hReason⟩

/-- A request is cancelled when its record is deleted before it was decided. -/
theorem cancelled_mem_answersTo_iff (n : InstId) :
    .error (.cancelled n) ∈ (c.step x).answersTo ticket ↔
      n = id ∧ x = .delete id ∧ c.stageOf id = some .creating := by
  rw [mem_answersTo_step hc waits foreign, reply?_eq_cancelled]
  constructor
  · rintro ⟨hStage, hn, hGone⟩
    obtain ⟨i, hi, -⟩ := stageOf_eq_some.mp hStage
    rcases fixed_step hc (x := x) hi with ⟨hDelete, -⟩ | ⟨j, hj, -⟩
    · exact ⟨hn, hDelete, hStage⟩
    · exact absurd (hGone.symm.trans hj) (by simp)
  · rintro ⟨hn, rfl, hStage⟩
    exact ⟨hStage, hn, by rw [find?_delete, if_pos rfl]⟩

/-- What an event answers to a request that has made a record says what becomes of the record. -/
theorem answers_of_owner :
    let answers := (c.step x).answersTo ticket
    (∀ n, .ok n ∈ answers ↔ n = id ∧ c.stageOf id ≠ some .enabled ∧
      (c.step x).coordinator.stageOf id = some .enabled) ∧
    ((∃ reason, .error (.enableFailed reason) ∈ answers) ↔
      c.stageOf id ≠ some .failed ∧ (c.step x).coordinator.stageOf id = some .failed) ∧
    (∀ reason, .error (.enableFailed reason) ∈ answers →
      ∃ j, (c.step x).coordinator.instrumentations.find? id = some j ∧
        j.failure? = some reason) ∧
    (∀ n, .error (.cancelled n) ∈ answers ↔
      n = id ∧ x = .delete id ∧ c.stageOf id = some .creating) ∧
    (∀ reason, .error (.validation reason) ∉ answers) ∧ .error .noAggregators ∉ answers := by
  intro answers
  have hMem := mem_answersTo_step hc waits foreign
  refine ⟨ok_mem_answersTo_iff hc waits foreign, failed_mem_answersTo_iff hc waits foreign, ?_,
    cancelled_mem_answersTo_iff hc waits foreign, ?_, ?_⟩
  · intro reason h
    obtain ⟨j, hj, -, hReason⟩ := reply?_eq_failed.mp ((hMem _).mp h).2
    exact ⟨j, hj, hReason⟩
  · intro reason h
    exact reply?_ne_refusal (.inl ⟨reason, rfl⟩) ((hMem _).mp h).2
  · intro h
    exact reply?_ne_refusal (.inr rfl) ((hMem _).mp h).2

end Owner

/-- **Every request is answered once, with the right answer.** A ticket stands for the one place
where the answer to a request is waited for, so no other request has it. Then

* over the whole history the request gets at most one answer, and it has none exactly if it has
  made a record that is creating;
* before the request is made nothing is answered to it, and the request itself is refused, as
  invalid or for want of an aggregator, exactly if it makes no record;
* every later event answers that it succeeded exactly when it makes the record enabled, that it
  failed exactly when it makes the record failed, with the record's reason, and that it was
  cancelled exactly when it deletes the record while it is creating. -/
theorem answered_once (keyBase : String) (ackTimeout : Nat) (before after : List Event) (s : Spec)
    (ticket : Ticket) (now : Nat) (own : ∀ x ∈ before ++ after, x.ticket? ≠ some ticket) :
    let start := Coordinator.new keyBase ackTimeout
    let request := Event.create s ticket now
    let history := before ++ request :: after
    let asked := start.run before
    let id := asked.nextId
    let made := ((asked.step request).coordinator.instrumentations.find? id).isSome = true
    ((start.play history).answersTo ticket).length ≤ 1 ∧
    ((start.play history).answersTo ticket = [] ↔
      made ∧ (start.run history).stageOf id = some .creating) ∧
    (start.play before).answersTo ticket = [] ∧
    (made ∧ (asked.step request).answersTo ticket = [] ∨
      ¬ made ∧ ∃ e, (asked.step request).answersTo ticket = [.error e] ∧
        ((∃ reason, e = .validation reason) ∨ e = .noAggregators)) ∧
    ∀ earlier y later, after = earlier ++ y :: later →
      let c := start.run (before ++ request :: earlier)
      let c' := (c.step y).coordinator
      let answers := (c.step y).answersTo ticket
      (∀ n, .ok n ∈ answers ↔
        made ∧ n = id ∧ c.stageOf id ≠ some .enabled ∧ c'.stageOf id = some .enabled) ∧
      ((∃ reason, .error (.enableFailed reason) ∈ answers) ↔
        made ∧ c.stageOf id ≠ some .failed ∧ c'.stageOf id = some .failed) ∧
      (∀ reason, .error (.enableFailed reason) ∈ answers →
        ∃ j, c'.instrumentations.find? id = some j ∧ j.failure? = some reason) ∧
      (∀ n, .error (.cancelled n) ∈ answers ↔
        made ∧ n = id ∧ y = .delete id ∧ c.stageOf id = some .creating) ∧
      (∀ reason, .error (.validation reason) ∉ answers) ∧ .error .noAggregators ∉ answers := by
  intro start request history asked id made
  have hStart : start.Sound := sound_new keyBase ackTimeout
  have hAsked : asked.Sound := sound_run hStart before
  have hBefore : ∀ x ∈ before, x.ticket? ≠ some ticket :=
    fun x hx => own x (List.mem_append_left _ hx)
  have hAfter : ∀ x ∈ after, x.ticket? ≠ some ticket :=
    fun x hx => own x (List.mem_append_right _ hx)
  have hWaits : asked.Waits ticket none :=
    waits_run hStart (waits_new keyBase ackTimeout ticket) hBefore
  have hQuiet : (start.play before).answersTo ticket = [] :=
    answersTo_play_of_none hStart hBefore (waits_new keyBase ackTimeout ticket)
  have hMade : (asked.step request).coordinator.Sound := sound_step hAsked request
  have hPlay : (start.play history).answersTo ticket =
      (asked.step request).answersTo ticket ++
        ((asked.step request).coordinator.play after).answersTo ticket := by
    rw [play_append, Turn.answersTo_andThen, coordinator_play, hQuiet, List.nil_append, play,
      Turn.answersTo_andThen]
  have hRun : ∀ xs, start.run (before ++ request :: xs) = (asked.step request).coordinator.run xs :=
    fun xs => run_append start before (request :: xs)
  cases hChosen : asked.chosen? s with
  | none =>
    -- the request is refused, and nobody owns its ticket
    obtain ⟨e, hCreate, hRefusal⟩ := create_refused hChosen ticket now
    have hStep : asked.step request = ⟨asked, [], [(ticket, .error e)]⟩ := hCreate
    have hNot : ¬ made := by
      show ¬ ((asked.step request).coordinator.instrumentations.find? id).isSome = true
      rw [hStep]
      intro hSome
      obtain ⟨i, hi⟩ := Option.isSome_iff_exists.mp hSome
      exact absurd (hAsked.fits id i hi).given (Nat.lt_irrefl _)
    have hOne : (asked.step request).answersTo ticket = [.error e] := by
      rw [hStep]
      simp [Turn.answersTo]
    have hStill : (asked.step request).coordinator.Waits ticket none := by rwa [hStep]
    rw [hPlay, hOne, answersTo_play_of_none hMade hAfter hStill]
    refine ⟨by simp, by simp [hNot], hQuiet, .inr ⟨hNot, e, rfl, hRefusal⟩, ?_⟩
    rintro earlier y later rfl c c' answers
    have hEarlier : ∀ x ∈ earlier, x.ticket? ≠ some ticket :=
      fun x hx => hAfter x (List.mem_append_left _ hx)
    have hNone : answers = [] := by
      show ((start.run (before ++ request :: earlier)).step y).answersTo ticket = []
      rw [hRun]
      exact answersTo_step (sound_run hMade earlier) (waits_run hMade hStill hEarlier)
        (hAfter y (by simp))
    simp [hNone, hNot]
  | some a =>
    obtain ⟨hAnswered, hOwner, hCreating⟩ := create_accepted hAsked hChosen now hWaits
    have hIs : made := by
      obtain ⟨i, hi, -⟩ := stageOf_eq_some.mp hCreating
      exact Option.isSome_iff_exists.mpr ⟨i, hi⟩
    have hNone : (asked.step request).answersTo ticket = [] := by
      rw [Turn.answersTo, hAnswered]
      rfl
    have hCount := answersTo_play_of_creating hMade hAfter hOwner hCreating
    rw [hPlay, hNone, List.nil_append, hRun]
    refine ⟨?_, ?_, hQuiet, .inl ⟨hIs, rfl⟩, ?_⟩
    · rcases hCount with ⟨hNil, -⟩ | ⟨hOne, -⟩
      · simp [hNil]
      · exact hOne.le
    · rcases hCount with ⟨hNil, hStage⟩ | ⟨hOne, hStage⟩
      · exact iff_of_true hNil ⟨hIs, hStage⟩
      · refine iff_of_false (fun hNil => ?_) fun h => hStage h.2
        rw [hNil] at hOne
        cases hOne
    rintro earlier y later rfl c c' answers
    have hEarlier : ∀ x ∈ earlier, x.ticket? ≠ some ticket :=
      fun x hx => hAfter x (List.mem_append_left _ hx)
    have hc : c.Sound := by
      show (start.run (before ++ request :: earlier)).Sound
      rw [hRun]
      exact sound_run hMade earlier
    have hHere : c.Waits ticket (some id) := by
      show (start.run (before ++ request :: earlier)).Waits ticket (some id)
      rw [hRun]
      exact waits_run hMade hOwner hEarlier
    have hForeign : y.ticket? ≠ some ticket := hAfter y (by simp)
    simp only [iff_true_intro hIs, true_and]
    exact answers_of_owner hc hHere hForeign

/-- In a brief history the request is answered by the last acknowledgement, with the number of its
record. -/
theorem answered_once_brief :
    let before := briefHistory.take 2
    let heard : Event :=
      .receive ⟨"k.aggregator.g", "g", .ack .enable .aggregation 1 .enabled none⟩ ⟨1⟩
    let last : Event :=
      .receive ⟨"k.instrumenter.h", "h", .ack .enable .instrumentation 1 .enabled none⟩ ⟨1⟩
    let c := (Coordinator.new "k" 3).run (briefHistory ++ [heard])
    (∀ x ∈ before ++ [heard, last], x.ticket? ≠ some 0) ∧ .ok 1 ∈ (c.step last).answersTo 0 := by
  intro before heard last c
  have hOwn : ∀ x ∈ before ++ [heard, last], x.ticket? ≠ some 0 := by decide
  obtain ⟨-, -, -, -, hLater⟩ :=
    answered_once "k" 3 before [heard, last] ⟨"m", "s", .trivial, [], []⟩ 0 0 hOwn
  exact ⟨hOwn, ((hLater [heard] last [] rfl).1 1).mpr (by decide)⟩

end Coordinator

end FleetMetrics
