import Mathlib
import FleetMetrics.SampledMetric

/-!
# No interval is lost or counted twice

The value of a reading covers the time since an earlier reading. If a reading that fails moved that
earlier one, the growth in between would be lost; if a reading that succeeds left it where it was,
the growth would be counted again with the next. No single call shows either, so the statement is
about whole runs: changes of the feed, starts and stops of the metric and readings, in any order.

`readings` says which readings of a run succeed, from the changes of the feed alone and without a
metric. A value is then determined by the last of them since the latest start. How long ago that
was, and how many readings have failed since, makes no difference.

Main results:

* `play_unswitched` — what a run without starts and stops leaves of a metric.
* `play_onSince` — what a run leaves of a metric that is on.
* `value_run` — the value after any run.
-/

namespace FleetMetrics

variable {N : Type}

/-! ## Runs -/

/-- What can happen to a feed. -/
inductive Feed.Change (N : Type) where
  | set (sample : Sample N)
  | remove (key : String)
  | fail (reason : String)
  | recover

/-- The feed after a change. -/
def Feed.change (f : Feed N) : Feed.Change N → Feed N
  | .set sample => f.set sample
  | .remove key => f.remove key
  | .fail reason => f.fail reason
  | .recover => f.recover

/-- A failing feed is one that cannot be read, within whatever scope. -/
theorem Feed.read_eq_error {f : Feed N} {scope : Option String} {e : MetricError} :
    f.read scope = .error e ↔ ∃ reason, f.failure = some reason ∧ e = .source reason := by
  unfold Feed.read Feed.snapshot
  cases f.failure with
  | none => simp [Except.map]
  | some reason => simp [Except.map, eq_comm]

namespace SampledMetric

/-- What can happen to a sampled metric and the feed that it reads. -/
inductive Action (N : Type) where
  | feed (change : Feed.Change N)
  | instrument
  | deinstrument
  | value

/-- Does an action start or stop the metric? -/
def Action.isSwitch : Action N → Bool
  | .instrument => true
  | .deinstrument => true
  | _ => false

/-- The feed after some actions; only its changes matter. -/
def feedAfter (f : Feed N) (actions : List (Action N)) : Feed N :=
  actions.foldl (fun f a =>
    match a with
    | .feed c => f.change c
    | _ => f) f

/-- The readings that succeed among some actions, in order. -/
def readings (scope : Option String) : Feed N → List (Action N) → List (List (Sample N))
  | _, [] => []
  | f, .feed c :: rest => readings scope (f.change c) rest
  | f, .value :: rest =>
    match f.read scope with
    | .ok samples => samples :: readings scope f rest
    | .error _ => readings scope f rest
  | f, _ :: rest => readings scope f rest

/-- A metric has been started and not been stopped or started again since. -/
def OnSince (past before since : List (Action N)) : Prop :=
  past = before ++ .instrument :: since ∧ ∀ a ∈ since, a.isSwitch = false

variable [Arithmetic N]

/-- A metric and its feed after an action. -/
def act (s : SampledMetric N × Feed N) : Action N → SampledMetric N × Feed N
  | .feed c => (s.1, s.2.change c)
  | .instrument => (s.1.instrument, s.2)
  | .deinstrument => (s.1.deinstrument, s.2)
  | .value => ((s.1.value s.2).2, s.2)

/-- A metric and its feed after some actions. -/
def play (s : SampledMetric N × Feed N) (actions : List (Action N)) : SampledMetric N × Feed N :=
  actions.foldl act s

theorem play_append (s : SampledMetric N × Feed N) (xs ys : List (Action N)) :
    play s (xs ++ ys) = play (play s xs) ys :=
  List.foldl_append

/-! ## What a run leaves -/

/-- What an instrumented metric returns and becomes: a reading that fails leaves it as it was. -/
theorem value_instrumented {m : SampledMetric N} (on : m.instrumented = true) (f : Feed N) :
    m.value f =
      match f.read m.scope with
      | .ok samples =>
        (.ok (m.query.evaluate samples m.previous), { m with previous := some samples })
      | .error e => (.error e, m) :=
  if_pos on

/-- A reading that fails leaves any metric as it was. -/
theorem value_failing (m : SampledMetric N) {f : Feed N} (failing : f.failure.isSome) :
    (m.value f).2 = m := by
  obtain ⟨reason, hReason⟩ := Option.isSome_iff_exists.mp failing
  have hRead : f.read m.scope = .error (.source reason) :=
    Feed.read_eq_error.mpr ⟨reason, hReason, rfl⟩
  rw [value, hRead]
  split <;> rfl

theorem play_feed (s : SampledMetric N × Feed N) (actions : List (Action N)) :
    (play s actions).2 = feedAfter s.2 actions := by
  induction actions generalizing s with
  | nil => rfl
  | cons a rest ih =>
    show (play (act s a) rest).2 = _
    rw [ih]
    cases a <;> rfl

/-- Neither the query nor the scope of a metric ever changes. -/
theorem play_frame (s : SampledMetric N × Feed N) (actions : List (Action N)) :
    (play s actions).1.query = s.1.query ∧ (play s actions).1.scope = s.1.scope := by
  induction actions generalizing s with
  | nil => exact ⟨rfl, rfl⟩
  | cons a rest ih =>
    obtain ⟨hQuery, hScope⟩ := ih (act s a)
    have hAct : (act s a).1.query = s.1.query ∧ (act s a).1.scope = s.1.scope := by
      cases a with
      | value =>
        show (s.1.value s.2).2.query = _ ∧ (s.1.value s.2).2.scope = _
        unfold value
        split
        · split <;> exact ⟨rfl, rfl⟩
        · exact ⟨rfl, rfl⟩
      | _ => exact ⟨rfl, rfl⟩
    exact ⟨hQuery.trans hAct.1, hScope.trans hAct.2⟩

/-- **Without starts and stops, a metric goes on from its last reading.** If none has succeeded, it
has the one from before. -/
theorem play_unswitched {m : SampledMetric N} (on : m.instrumented = true) (f : Feed N)
    {since : List (Action N)} (unswitched : ∀ a ∈ since, a.isSwitch = false) :
    play (m, f) since =
      ({ m with previous := (readings m.scope f since).getLast?.or m.previous },
        feedAfter f since) := by
  induction since generalizing m f with
  | nil => rfl
  | cons a rest ih =>
    have hRest : ∀ a ∈ rest, a.isSwitch = false := fun b hb =>
      unswitched b (List.mem_cons_of_mem _ hb)
    show play (act (m, f) a) rest = _
    cases a with
    | feed c => exact ih on (f.change c) hRest
    | instrument => cases unswitched _ List.mem_cons_self
    | deinstrument => cases unswitched _ List.mem_cons_self
    | value =>
      rw [act, value_instrumented on, readings]
      cases f.read m.scope with
      | error e => exact ih on f hRest
      | ok samples =>
        -- from here on there is an earlier reading to go on from
        have hNext := ih (m := { m with previous := some samples }) on f hRest
        refine hNext.trans (congrArg (fun p => (({ m with previous := p } : SampledMetric N), _)) ?_)
        rw [List.getLast?_cons]
        cases (readings m.scope f rest).getLast? <;> rfl

/-- A metric that is on goes on from the last reading since its latest start. -/
theorem play_onSince (query : Query N) (scope : Option String) (f : Feed N)
    {past before since : List (Action N)} (on : OnSince past before since) :
    play (new query scope, f) past =
      (⟨query, scope, (readings scope (feedAfter f before) since).getLast?, true⟩,
        feedAfter f past) := by
  obtain ⟨rfl, hUnswitched⟩ := on
  let s := play (new query scope, f) before
  obtain ⟨hQuery, hScope⟩ := play_frame (new query scope, f) before
  have hFeed : s.2 = feedAfter f before := play_feed _ _
  have hStart : s.1.instrument = ⟨query, scope, none, true⟩ := by
    rw [instrument, hQuery, hScope]
    rfl
  rw [play_append]
  show play (s.1.instrument, s.2) since = _
  rw [hStart, hFeed, play_unswitched rfl _ hUnswitched, Option.or_none]
  refine congrArg (Prod.mk _) ?_
  rw [feedAfter, feedAfter, feedAfter, List.foldl_append]
  rfl

/-- A metric that is on after a run has been started at some point, and not been stopped since. -/
theorem exists_onSince (query : Query N) (scope : Option String) (f : Feed N)
    {past : List (Action N)} :
    (play (new query scope, f) past).1.instrumented = true ↔
      ∃ before since, OnSince past before since := by
  constructor
  · intro on
    induction past using List.reverseRecOn with
    | nil => cases on
    | append_singleton xs a ih =>
      rw [play_append] at on
      -- an action that is no switch leaves the metric on or off
      have hStay : a.isSwitch = false → (play (new query scope, f) xs).1.instrumented = true →
          ∃ before since, OnSince (xs ++ [a]) before since := by
        intro hSwitch hOn
        obtain ⟨before, since, rfl, hSince⟩ := ih hOn
        refine ⟨before, since ++ [a], by simp, fun b hb => ?_⟩
        rcases List.mem_append.mp hb with hb | hb
        · exact hSince b hb
        · rw [List.mem_singleton.mp hb, hSwitch]
      cases a with
      | instrument => exact ⟨xs, [], rfl, by simp⟩
      | deinstrument => cases on
      | feed c => exact hStay rfl on
      | value =>
        refine hStay rfl ?_
        by_contra hOff
        change (((play (new query scope, f) xs).1.value _).2).instrumented = true at on
        rw [value, if_neg hOff] at on
        exact hOff on
  · rintro ⟨before, since, hOn⟩
    rw [play_onSince query scope f hOn]

/-! ## Values -/

/-- What a metric that is on returns: the reading against the last one since its latest start. -/
theorem value_onSince (query : Query N) (scope : Option String) (f : Feed N)
    {past before since : List (Action N)} (on : OnSince past before since) :
    let s := play (new query scope, f) past
    (s.1.value s.2).1 = ((feedAfter f past).read scope).map fun samples =>
      query.evaluate samples (readings scope (feedAfter f before) since).getLast? := by
  intro s
  have hState : s = _ := play_onSince query scope f on
  rw [hState, value_instrumented rfl]
  cases (feedAfter f past).read scope <;> rfl

/-- What a call returns after some actions, in terms of these alone. -/
structure IsValueAfter (query : Query N) (scope : Option String) (f : Feed N)
    (past : List (Action N)) (result : Except MetricError (ReducedValue N)) : Prop where
  /-- The metric has not been started, or has been stopped since. -/
  off : result = .error .notInstrumented ↔ ¬ ∃ before since, OnSince past before since
  /-- The metric is on, and the reading fails. -/
  failed : ∀ reason, result = .error (.source reason) ↔
    (∃ before since, OnSince past before since) ∧ (feedAfter f past).failure = some reason
  /-- Otherwise the reading is evaluated against the last reading since the latest start that has
  succeeded, or against none if none has. -/
  read : ∀ before since, OnSince past before since → ∀ samples,
    (feedAfter f past).read scope = .ok samples → result =
      .ok (query.evaluate samples (readings scope (feedAfter f before) since).getLast?)

/-- **The value after any run.** A metric is started and stopped, and its feed changes, fails and
recovers, in any order. What the next call returns depends on the run alone. -/
theorem value_run (query : Query N) (scope : Option String) (f : Feed N)
    (past : List (Action N)) :
    let s := play (new query scope, f) past
    IsValueAfter query scope f past (s.1.value s.2).1 := by
  intro s
  by_cases hExists : ∃ before since, OnSince past before since
  · -- on: the call reads the feed, and fails only with it
    obtain ⟨before, since, on⟩ := hExists
    have hResult : (s.1.value s.2).1 = _ := value_onSince query scope f on
    have hError : ∀ e, (s.1.value s.2).1 = .error e ↔
        ∃ reason, (feedAfter f past).failure = some reason ∧ e = .source reason := by
      intro e
      rw [hResult, ← @Feed.read_eq_error _ _ scope]
      cases (feedAfter f past).read scope <;> simp [Except.map]
    refine ⟨?_, fun reason => ?_, fun before' since' on' samples hRead => ?_⟩
    · rw [hError]
      exact iff_of_false (by simp) fun h => h ⟨before, since, on⟩
    · rw [hError]
      simp only [MetricError.source.injEq, exists_eq_right']
      exact (and_iff_right ⟨before, since, on⟩).symm
    · rw [show (s.1.value s.2).1 = _ from value_onSince query scope f on', hRead]
      rfl
  · have hOff : ¬ s.1.instrumented = true := fun h =>
      hExists ((exists_onSince query scope f).mp h)
    have hResult : (s.1.value s.2).1 = .error .notInstrumented := by
      rw [value, if_neg hOff]
    refine ⟨iff_of_true hResult hExists, fun reason => ?_, fun before since on => ?_⟩
    · rw [hResult]
      exact iff_of_false (by simp) fun h => hExists h.1
    · exact absurd ⟨before, since, on⟩ hExists

end SampledMetric

end FleetMetrics
