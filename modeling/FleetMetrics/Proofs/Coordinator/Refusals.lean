import Mathlib
import FleetMetrics.Proofs.Coordinator.Answers
import FleetMetrics.Proofs.Coordinator.Compensation

/-!
# What an enabled record stands for

A record becomes enabled by unanimity, and is then listed as enabled until it is deleted. Unanimity
is a property of that moment only. A participant that restarts, and an instrumenter that joins, is
told to start while the record is enabled; its word becomes unknown, and it may turn out that it has
failed. The coordinator does not take the record back: the end of a creation is the only place where
a failure counts, and the record has been through it.

So the table of an enabled record can hold a failure, and `refused_behind_enabled` shows one of each
kind. What can be relied on is the converse: without a command that went out since the record became
enabled, no word in it is anything but enabled.

Main results:

* `stageOf_iff_listed` — what is asked of one record and what is listed agree.
* `behind_step`, `behind_run` — what each word in an enabled record comes from.
* `enabled_step` — only its deletion ends that a record is enabled.
* `enabled_spec` — unanimity when the record became enabled, and every word since.
-/

namespace FleetMetrics

/-- An envelope in which a host acknowledges a command to start with anything but that it has
started. -/
def Event.Refuses (x : Event) (w : Work) (h : String) (id : InstId) : Prop :=
  ∃ e now s error, x = .receive e now ∧ e.hostname = h ∧
    e.message = .ack .enable w id s error ∧ s.isEnabled = false

namespace Coordinator

/-- The stage that is told of a record is the one it is listed with. -/
theorem stageOf_iff_listed {c : Coordinator} (hc : c.Sound) (id : InstId) (stage : Stage) :
    c.stageOf id = some stage ↔ ∃ s ∈ c.list, s.id = id ∧ s.stage = stage := by
  rw [stageOf_eq_some]
  constructor
  · rintro ⟨i, hi, rfl⟩
    have hId := hc.numbered id i hi
    exact ⟨_, hc.mem_list_iff.mpr ⟨i, hId.symm ▸ hi, rfl⟩, hId, rfl⟩
  · rintro ⟨s, hMem, rfl, rfl⟩
    obtain ⟨i, hi, hs⟩ := hc.mem_list_iff.mp hMem
    exact ⟨i, hi, (congrArg (·.stage) hs).symm⟩

/-- Where a word comes from in a record that was enabled, with everybody's word, before some
events: an unknown one from a command among them, a failed one from a refusal after such a
command. -/
def Behind (start : Coordinator) (since : List Event) (w : Work) (h : String) (id : InstId) :
    AckState → Prop
  | .enabled => True
  | .unknown => Commanded start since w h id
  | .failed => ∃ earlier x later, since = earlier ++ x :: later ∧
      Commanded start earlier w h id ∧ x.Refuses w h id
  | .timedOut => False

section Behind

variable {start : Coordinator} {since : List Event} {id : InstId}

theorem Behind.concat {w : Work} {h : String} {a : AckState} (behind : Behind start since w h id a)
    (x : Event) : Behind start (since ++ [x]) w h id a := by
  cases a with
  | enabled => trivial
  | unknown => exact Commanded.concat behind x
  | failed =>
    obtain ⟨earlier, y, later, rfl, hTold, hRefuses⟩ := behind
    exact ⟨earlier, y, later ++ [x], by simp, hTold, hRefuses⟩
  | timedOut => cases behind

/-- **One event.** An enabled record stays enabled, and each word in it still has its reason. -/
theorem behind_step (hc : (start.run since).Sound) {i j : Instrumentation}
    (before : (start.run since).instrumentations.find? id = some i) (enabled : i.stage = .enabled)
    (behind : ∀ w h a, i.ackOf w h = some a → Behind start since w h id a) {x : Event}
    (after : ((start.run since).step x).coordinator.instrumentations.find? id = some j) :
    j.stage = .enabled ∧ ∀ w h a, j.ackOf w h = some a → Behind start (since ++ [x]) w h id a := by
  have hAcks := (hc.fits id i before).acks
  have hChange := change_step hc x id
  rw [before, after] at hChange
  generalize hSent : (fun w => ordersIn ((start.run since).step x).sent w id) = orders at hChange
  cases hChange with
  | rest => exact ⟨enabled, fun w h a hWord => (behind w h a hWord).concat x⟩
  | @heard _ e w' s error now message live unanswered =>
    -- an enabled record is not settled again
    have hOpen : (i.setAck (ackState s) w' e.hostname).isDecided = false := by
      simp [Instrumentation.isDecided, Instrumentation.stage_setAck, enabled]
    rw [Instrumentation.settled_of_not_decided hOpen, Instrumentation.stage_setAck]
    refine ⟨enabled, fun w h a hWord => ?_⟩
    rw [Instrumentation.ackOf_setAck hAcks _ (assigned_of_ackOf unanswered)] at hWord
    split at hWord
    · next hSame =>
      obtain ⟨rfl, rfl⟩ := hSame
      obtain rfl := Option.some.inj hWord
      -- its word was unknown, so it was told to start
      have hTold : Commanded start since w e.hostname id := behind w _ _ unanswered
      cases hs : s.isEnabled with
      | true =>
        rw [ackState, if_pos hs]
        trivial
      | false =>
        rw [ackState, if_neg (by simp [hs])]
        exact ⟨since, _, [], rfl, hTold, e, now, s, error, rfl, rfl, message, hs⟩
    · exact (behind w h a hWord).concat _
  | expired late =>
    -- time is up for creations only
    simp [isExpired, enabled] at late
  | @recalled _ e now w' r arrives owed =>
    rw [Instrumentation.stage_setAck]
    refine ⟨enabled, fun w h a hWord => ?_⟩
    rw [Instrumentation.ackOf_setAck hAcks _ (assigned_of_owes owed)] at hWord
    split at hWord
    · next hSame =>
      obtain ⟨rfl, rfl⟩ := hSame
      obtain rfl := Option.some.inj hWord
      -- its word is forgotten, and the command goes out with this event
      have hOrders := (congrFun hSent w).trans (if_pos rfl)
      exact (commands_recalled hc arrives hOrders).commanded
    · exact (behind w h a hWord).concat _

/-- **What each word comes from.** In a record that was enabled with everybody's word, and is still
there after some events, every word has its reason among these events. -/
theorem behind_run (hc : start.Sound) {i j : Instrumentation}
    (found : start.instrumentations.find? id = some i) (enabled : i.stage = .enabled)
    (unanimous : ∀ w h a, i.ackOf w h = some a → a = .enabled)
    (later : (start.run since).instrumentations.find? id = some j) :
    j.stage = .enabled ∧ ∀ w h a, j.ackOf w h = some a → Behind start since w h id a := by
  induction since using List.reverseRecOn generalizing j with
  | nil =>
    obtain rfl : i = j := Option.some.inj (found.symm.trans later)
    refine ⟨enabled, fun w h a hWord => ?_⟩
    rw [unanimous w h a hWord]
    trivial
  | append_singleton since x ih =>
    rw [run_concat] at later
    have hSound := sound_run hc since
    obtain ⟨i', hBefore⟩ := find?_of_given hSound (given_of_record hc found since) later
    obtain ⟨hEnabled, hBehind⟩ := ih hBefore
    exact behind_step hSound hBefore hEnabled hBehind later

end Behind

/-- **No way back.** Only its deletion ends that a record is enabled: whatever is acknowledged,
announced or requested otherwise, it stays so. -/
theorem enabled_step {c : Coordinator} (hc : c.Sound) {id : InstId}
    (enabled : c.stageOf id = some .enabled) {x : Event} (kept : x ≠ .delete id) :
    (c.step x).coordinator.stageOf id = some .enabled := by
  obtain ⟨i, hi, hStage⟩ := stageOf_eq_some.mp enabled
  rcases fixed_step hc (x := x) hi with ⟨hDelete, -⟩ | ⟨j, hj, -, hSame | ⟨hCreating, -⟩⟩
  · exact absurd hDelete kept
  · exact stageOf_eq_some.mpr ⟨j, hj, hSame.trans hStage⟩
  · rw [hStage] at hCreating
    cases hCreating

/-- On an event the creation of a record succeeds. -/
def Succeeds (c : Coordinator) (x : Event) (id : InstId) : Prop :=
  c.stageOf id = some .creating ∧ (c.step x).coordinator.stageOf id = some .enabled

/-- Every enabled record has succeeded once. -/
theorem succeeds_of_enabled (keyBase : String) (ackTimeout : Nat) {history : List Event}
    {id : InstId} (enabled : ((Coordinator.new keyBase ackTimeout).run history).stageOf id =
      some .enabled) :
    ∃ before x after, history = before ++ x :: after ∧
      ((Coordinator.new keyBase ackTimeout).run before).Succeeds x id := by
  induction history using List.reverseRecOn with
  | nil => cases enabled
  | append_singleton xs x ih =>
    have hc := sound_run (sound_new keyBase ackTimeout) xs
    rw [run_concat] at enabled
    by_cases hBefore : ((Coordinator.new keyBase ackTimeout).run xs).stageOf id = some .enabled
    · obtain ⟨before, y, after, hSplit, hSucceeds⟩ := ih hBefore
      exact ⟨before, y, after ++ [x], by simp [hSplit], hSucceeds⟩
    · -- a record that is not enabled becomes so from creating only
      exact ⟨xs, x, [], rfl, creating_of_moved hc (by simp) hBefore enabled, enabled⟩

/-- When a creation succeeds, all its participants have started. -/
theorem unanimous_of_succeeds {c : Coordinator} (hc : c.Sound) {x : Event} {id : InstId}
    (succeeds : c.Succeeds x id) :
    ∃ i, (c.step x).coordinator.instrumentations.find? id = some i ∧ i.stage = .enabled ∧
      ∀ w h a, i.ackOf w h = some a → a = .enabled := by
  obtain ⟨i, hi, hCreating⟩ := stageOf_eq_some.mp succeeds.1
  obtain ⟨j, hj, hEnabled⟩ := stageOf_eq_some.mp succeeds.2
  refine ⟨j, hj, hEnabled, fun w h a hWord => ?_⟩
  exact unanimous_step hc hi (by simp [hCreating]) hj hEnabled hWord

/-- A record that is there after some events was there all the time since its number was given
out. -/
theorem exists_of_later {c : Coordinator} (hc : c.Sound) {id : InstId} (given : id < c.nextId)
    {later : List Event} {j : Instrumentation}
    (found : (c.run later).instrumentations.find? id = some j) :
    ∃ i, c.instrumentations.find? id = some i := by
  induction later generalizing c with
  | nil => exact ⟨j, found⟩
  | cons x rest ih =>
    obtain ⟨i, hi⟩ := ih (sound_step hc x) (given_step hc given) found
    exact find?_of_given hc given hi

/-- **What an enabled record stands for.** A record that is told, and listed, as enabled became so
by an event with which every one of its participants had started. It has been enabled ever since,
and every word in it is enabled, or it is

* unknown, and its host was told to start since that event, or
* failed, and its host was told to start since that event and then acknowledged something other
  than that it has started.

No event but its deletion takes it out of that stage, so no acknowledgement makes it fail. -/
theorem enabled_spec (keyBase : String) (ackTimeout : Nat) (history : List Event) (id : InstId)
    (enabled : ((Coordinator.new keyBase ackTimeout).run history).stageOf id = some .enabled) :
    let start := Coordinator.new keyBase ackTimeout
    (∃ s ∈ (start.run history).list, s.id = id ∧ s.stage = .enabled) ∧
    (∀ x, x ≠ .delete id → ((start.run history).step x).coordinator.stageOf id = some .enabled) ∧
    ∃ before x after, history = before ++ x :: after ∧
      let base := start.run (before ++ [x])
      (start.run before).stageOf id = some .creating ∧
      (∃ i, base.instrumentations.find? id = some i ∧ i.aggregatorAck = .enabled ∧
        ∀ entry ∈ i.instrumenterAcks, entry.2 = .enabled) ∧
      (∀ earlier y later, after = earlier ++ y :: later →
        (base.run earlier).stageOf id = some .enabled) ∧
      ∃ i, (start.run history).instrumentations.find? id = some i ∧
        ∀ w h a, i.ackOf w h = some a → a = .enabled ∨
          a = .unknown ∧ Commanded base after w h id ∨
          a = .failed ∧ ∃ earlier y later, after = earlier ++ y :: later ∧
            Commanded base earlier w h id ∧ y.Refuses w h id := by
  intro start
  have hSound : ∀ xs, (start.run xs).Sound := fun xs =>
    sound_run (sound_new keyBase ackTimeout) xs
  refine ⟨(stageOf_iff_listed (hSound history) id .enabled).mp enabled,
    fun x kept => enabled_step (hSound history) enabled kept, ?_⟩
  -- the record as it was when its creation succeeded, and as it is now
  obtain ⟨before, x, after, rfl, hSucceeds⟩ := succeeds_of_enabled keyBase ackTimeout enabled
  obtain ⟨first, hFirst, hStage, hAll⟩ := unanimous_of_succeeds (hSound before) hSucceeds
  rw [← run_concat] at hFirst
  have hSince : start.run (before ++ x :: after) = (start.run (before ++ [x])).run after := by
    rw [← run_append, List.append_assoc, List.singleton_append]
  have hAcks := ((hSound _).fits id first hFirst).acks
  obtain ⟨last, hLast, -⟩ := stageOf_eq_some.mp enabled
  refine ⟨before, x, after, rfl, hSucceeds.1, ⟨first, hFirst, ?_, fun entry hMem => ?_⟩,
    fun earlier y later hAfter => ?_, last, hLast, fun w h a hWord => ?_⟩
  · -- the two kinds of words are in two places of the record
    exact hAll .aggregation first.aggregator _ (if_pos rfl)
  · exact hAll .instrumentation entry.1 _ ((Table.mem_iff_find? hAcks).mp hMem)
  · -- the record is still there at the end, so it was there in between
    subst hAfter
    rw [hSince, run_append] at hLast
    obtain ⟨i, hi⟩ := exists_of_later (sound_run (hSound _) earlier)
      (given_of_record (hSound _) hFirst earlier) hLast
    exact stageOf_eq_some.mpr ⟨i, hi, (behind_run (hSound _) hFirst hStage hAll hi).1⟩
  · rw [hSince] at hLast
    have hBehind := (behind_run (hSound _) hFirst hStage hAll hLast).2 w h a hWord
    cases a with
    | enabled => exact .inl rfl
    | unknown => exact .inr (.inl ⟨rfl, hBehind⟩)
    | failed => exact .inr (.inr ⟨rfl, hBehind⟩)
    | timedOut => exact hBehind.elim

/-- An instrumentation is enabled. Then its aggregator restarts, is told to start, and fails; and
so does its instrumenter. -/
def refusedHistory : List Event :=
  briefHistory ++
    [.receive ⟨"k.aggregator.g", "g", .ack .enable .aggregation 1 .enabled none⟩ ⟨1⟩,
      .receive ⟨"k.instrumenter.h", "h", .ack .enable .instrumentation 1 .enabled none⟩ ⟨1⟩,
      .receive ⟨"k.aggregator.g", "g", .aggregatorOnline (.current "aggregator")⟩ ⟨2⟩,
      .receive ⟨"k.instrumenter.h", "h", .instrumenterOnline (.current "instrumenter") []⟩ ⟨2⟩,
      .receive ⟨"k.aggregator.g", "g", .ack .enable .aggregation 1 .disabled none⟩ ⟨3⟩,
      .receive ⟨"k.instrumenter.h", "h", .ack .enable .instrumentation 1 .disabled none⟩ ⟨3⟩]

/-- The word of the instrumenter is that it failed, and it comes from a refusal after a command. -/
theorem enabled_spec_refused :
    ((Coordinator.new "k" 3).run refusedHistory).stageOf 1 = some .enabled ∧
    ∃ i, ((Coordinator.new "k" 3).run refusedHistory).instrumentations.find? 1 = some i ∧
      i.ackOf .instrumentation "h" = some .failed ∧
      ∃ base earlier y, y ∈ refusedHistory ∧ Commanded base earlier .instrumentation "h" 1 ∧
        y.Refuses .instrumentation "h" 1 := by
  have hEnabled : ((Coordinator.new "k" 3).run refusedHistory).stageOf 1 = some .enabled := by
    decide
  obtain ⟨-, -, before, x, after, hSplit, -, -, -, i, hi, hWords⟩ :=
    enabled_spec "k" 3 refusedHistory 1 hEnabled
  have hWord : (((Coordinator.new "k" 3).run refusedHistory).instrumentations.find? 1).bind
      (·.ackOf .instrumentation "h") = some .failed := by decide
  rw [hi, Option.bind_some] at hWord
  rcases hWords _ _ _ hWord with
    hOther | ⟨hOther, -⟩ | ⟨-, earlier, y, later, hAfter, hTold, hRefuses⟩
  · cases hOther
  · cases hOther
  · exact ⟨hEnabled, i, hi, hWord, _, earlier, y, by simp [hSplit, hAfter], hTold, hRefuses⟩

/-- The word of the aggregator is that it failed, too, and the record is enabled all the same. -/
theorem refused_behind_enabled :
    ¬ ∀ c : Coordinator, c.Reachable → ∀ id i, c.instrumentations.find? id = some i →
      c.stageOf id = some .enabled →
        i.aggregatorAck ≠ .failed ∧ ∀ entry ∈ i.instrumenterAcks, entry.2 ≠ .failed := by
  intro hNever
  obtain ⟨i, hi⟩ : ∃ i, ((Coordinator.new "k" 3).run refusedHistory).instrumentations.find? 1 =
      some i := Option.isSome_iff_exists.mp (by decide)
  have hWord : (((Coordinator.new "k" 3).run refusedHistory).instrumentations.find? 1).map
      (·.aggregatorAck) = some .failed := by decide
  rw [hi, Option.map_some] at hWord
  exact (hNever _ ⟨"k", 3, refusedHistory, rfl⟩ 1 i hi (by decide)).1 (Option.some.inj hWord)

end Coordinator

end FleetMetrics
