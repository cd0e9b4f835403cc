import Mathlib
import FleetMetrics.Proofs.Directory
import FleetMetrics.Proofs.Table

/-!
# Participants

An instrumentation has participants of two kinds: the aggregator it is assigned to and the
instrumenters it addresses. Both are told to start and to stop, both acknowledge, and the record
treats them alike. This module gives them one vocabulary, indexed by the kind of `Work`: what a
participant has told (`ackOf`), which hosts have told what (`hosts`), the command that makes one
start (`command`). What ends a creation (`settled`) is a function of the record alone.

Main results:

* `mem_hosts`, `hosts_nodup` — the hosts of a kind, each once, are the participants of that kind.
* `ackOf_setAck`, `ackOf_timeOut`, `ackOf_settled` — what each change of a record does to what its
  participants have told.
* `waiting_iff`, `failure?_eq_none_iff` — whether a record waits, or has failed, asked of one
  participant at a time.
* `loads_split_settled` — ending a creation frees exactly the hosts it releases.
-/

namespace FleetMetrics

/-- The directory of the participants of a kind. -/
def Registry.directory (r : Registry) : Work → Directory
  | .instrumentation => r.instrumenters
  | .aggregation => r.aggregators

/-- What a participant can be told about one instrumentation. -/
inductive Order where
  | start (command : Message Float)
  | stop

/-- What a message tells the participants of a kind about an instrumentation, if anything. -/
def Message.order? (w : Work) (id : InstId) (m : Message Float) : Option Order :=
  match w, m with
  | .instrumentation, .enableInstrumentation id' .. => if id' = id then some (.start m) else none
  | .aggregation, .enableAggregation id' _ => if id' = id then some (.start m) else none
  | w, .disable w' id' => if w' = w ∧ id' = id then some .stop else none
  | _, _ => none

/-- A disable is the order to stop, for the one kind of agent and the one id that it names. -/
theorem Message.order?_disable (w w' : Work) (id id' : InstId) :
    (Message.disable w' id').order? w id = if w' = w ∧ id' = id then some .stop else none := by
  cases w <;> rfl

/-- What a message says of the start of an instrumentation by a participant of a kind, if
anything: whether it has started. -/
def Message.answer? (w : Work) (id : InstId) : Message Float → Option Bool
  | .ack .enable w' id' s _ => if w' = w ∧ id' = id then some s.isEnabled else none
  | _ => none

/-- A message that tells no participant anything, and nothing about one. -/
def Message.isInert : Message Float → Bool
  | .enableInstrumentation .. => false
  | .enableAggregation .. => false
  | .disable .. => false
  | .instrumenterOnline .. => false
  | .aggregatorOnline .. => false
  | .ack .enable .. => false
  | _ => true

/-- An inert message orders nothing of anybody. -/
theorem Message.order?_of_isInert {m : Message Float} (inert : m.isInert = true) (w : Work)
    (id : InstId) : m.order? w id = none := by
  cases m with
  | enableInstrumentation => cases inert
  | enableAggregation => cases inert
  | disable => cases inert
  | _ => cases w <;> rfl

/-- An inert message is an answer of nobody. -/
theorem Message.answer?_of_isInert {m : Message Float} (inert : m.isInert = true) (w : Work)
    (id : InstId) : m.answer? w id = none := by
  cases m with
  | ack action w' id' s error =>
    cases action with
    | enable => cases inert
    | disable => rfl
  | _ => rfl

/-- An acknowledgement of somebody who has not answered by the deadline. -/
def AckState.late (a : AckState) : AckState :=
  if a = .unknown then .timedOut else a

namespace Instrumentation

/-! ## One participant at a time -/

/-- What a participant has told; nothing of a host that does not take part. -/
def ackOf (i : Instrumentation) : Work → String → Option AckState
  | .instrumentation, h => i.instrumenterAcks.find? h
  | .aggregation, h => if i.aggregator = h then some i.aggregatorAck else none

/-- The record with another word of a participant. -/
def setAck (i : Instrumentation) (a : AckState) : Work → String → Instrumentation
  | .instrumentation, h => { i with instrumenterAcks := i.instrumenterAcks.insert h a }
  | .aggregation, _ => { i with aggregatorAck := a }

/-- The command that makes the participants of a kind start. -/
def command (i : Instrumentation) : Work → Message Float
  | .instrumentation => i.enableMessage
  | .aggregation => i.aggregateMessage

/-- The participants of a kind whose word satisfies a condition. -/
def hosts (i : Instrumentation) (p : AckState → Bool) : Work → List String
  | .instrumentation => i.hostsWhere p
  | .aggregation => i.aggregatorWhere p

/-- Does the record count in the load of a host? -/
def loads (i : Instrumentation) (w : Work) (h : String) : Bool :=
  i.stage ≠ .failed && (i.ackOf w h = some .unknown || i.ackOf w h = some .enabled)

/-- What never changes in a record. -/
def fixed (i : Instrumentation) : InstId × Spec × String × String × Nat :=
  (i.id, i.spec, i.streamKey, i.aggregator, i.deadline)

/-- The command of a record is the order to start it, for one kind of agent. -/
theorem order?_command (i : Instrumentation) (w w' : Work) (id : InstId) :
    (i.command w').order? w id =
      if w' = w ∧ i.id = id then some (.start (i.command w)) else none := by
  cases w <;> cases w' <;> simp [command, enableMessage, aggregateMessage, Message.order?]

/-- A host is among those selected by a condition if it was told and its word meets it. -/
theorem mem_hosts {i : Instrumentation} (sorted : i.instrumenterAcks.Ascending)
    {p : AckState → Bool} {w : Work} {h : String} :
    h ∈ i.hosts p w ↔ ∃ a, i.ackOf w h = some a ∧ p a = true := by
  cases w with
  | instrumentation =>
    simp only [hosts, hostsWhere, ackOf, List.mem_map, List.mem_filter]
    constructor
    · rintro ⟨⟨h', a⟩, ⟨hMem, hp⟩, rfl⟩
      exact ⟨a, (Table.mem_iff_find? sorted).mp hMem, hp⟩
    · rintro ⟨a, hFind, hp⟩
      exact ⟨(h, a), ⟨(Table.mem_iff_find? sorted).mpr hFind, hp⟩, rfl⟩
  | aggregation =>
    simp only [hosts, aggregatorWhere, ackOf]
    constructor
    · intro hMem
      split at hMem
      · next hp =>
        rw [List.mem_singleton] at hMem
        exact ⟨_, if_pos hMem.symm, hp⟩
      · simp at hMem
    · rintro ⟨a, hAck, hp⟩
      split at hAck
      · next hAgg =>
        rw [← Option.some.inj hAck] at hp
        rw [if_pos hp, hAgg]
        exact List.mem_singleton_self h
      · cases hAck

/-- Nobody is listed twice. -/
theorem hosts_nodup {i : Instrumentation} (sorted : i.instrumenterAcks.Ascending)
    (p : AckState → Bool) (w : Work) : (i.hosts p w).Nodup := by
  cases w with
  | instrumentation =>
    exact List.Nodup.sublist (List.Sublist.map _ List.filter_sublist) (Table.keys_nodup sorted)
  | aggregation =>
    simp only [hosts, aggregatorWhere]
    split <;> simp

/-- A message to the hosts that are selected goes to each of them once. -/
theorem count_hosts {i : Instrumentation} (sorted : i.instrumenterAcks.Ascending)
    (p : AckState → Bool) (w : Work) (h : String) :
    (i.hosts p w).count h = if h ∈ i.hosts p w then 1 else 0 :=
  (hosts_nodup sorted p w).count

/-! ## Changes of the word of participants -/

/-- Only the participant that is named changes its word. The aggregator's word is one entry, so
there the host has to be the aggregator. -/
theorem ackOf_setAck {i : Instrumentation} (sorted : i.instrumenterAcks.Ascending) (a : AckState)
    {w : Work} {h : String} (assigned : w = .aggregation → i.aggregator = h) (w' : Work)
    (h' : String) :
    (i.setAck a w h).ackOf w' h' = if w' = w ∧ h' = h then some a else i.ackOf w' h' := by
  cases w with
  | instrumentation =>
    cases w' with
    | instrumentation => simp [setAck, ackOf, Table.find?_insert sorted]
    | aggregation =>
      rw [if_neg (by simp)]
      rfl
  | aggregation =>
    cases w' with
    | instrumentation =>
      rw [if_neg (by simp)]
      rfl
    | aggregation =>
      have := assigned rfl
      subst this
      by_cases hh : i.aggregator = h'
      · simp [setAck, ackOf, hh]
      · simp [setAck, ackOf, hh, Ne.symm hh]

/-- Entering a word keeps the table of words in order, -/
theorem ascending_setAck {i : Instrumentation} (sorted : i.instrumenterAcks.Ascending)
    (a : AckState) (w : Work) (h : String) : (i.setAck a w h).instrumenterAcks.Ascending := by
  cases w with
  | instrumentation => exact Table.ascending_insert sorted _ _
  | aggregation => exact sorted

theorem fixed_setAck (i : Instrumentation) (a : AckState) (w : Work) (h : String) :
    (i.setAck a w h).fixed = i.fixed := by
  cases w <;> rfl

/-- A word that is entered does not by itself decide anything. -/
theorem stage_setAck (i : Instrumentation) (a : AckState) (w : Work) (h : String) :
    (i.setAck a w h).stage = i.stage := by
  cases w <;> rfl

/-- Two participants may give their words in either order. -/
theorem setAck_comm {i : Instrumentation} (sorted : i.instrumenterAcks.Ascending) {w w' : Work}
    {h h' : String} (assigned : w = .aggregation → i.aggregator = h)
    (assigned' : w' = .aggregation → i.aggregator = h') (apart : ¬ (w' = w ∧ h' = h))
    (a a' : AckState) : (i.setAck a w h).setAck a' w' h' = (i.setAck a' w' h').setAck a w h := by
  cases w with
  | instrumentation =>
    cases w' with
    | instrumentation =>
      have hNe : h ≠ h' := fun hh => apart ⟨rfl, hh.symm⟩
      simp only [setAck, Table.insert_comm sorted hNe]
    | aggregation => rfl
  | aggregation =>
    cases w' with
    | instrumentation => rfl
    | aggregation => exact absurd ⟨rfl, (assigned' rfl).symm.trans (assigned rfl)⟩ apart

/-- When time is up, a word that is still open is taken for a failure. -/
theorem ackOf_timeOut (i : Instrumentation) (w : Work) (h : String) :
    i.timeOut.ackOf w h = (i.ackOf w h).map AckState.late := by
  cases w with
  | instrumentation => exact Table.find?_mapValues i.instrumenterAcks (fun _ a => a.late) h
  | aggregation =>
    by_cases hAgg : i.aggregator = h
    · simp [ackOf, timeOut, AckState.late, hAgg]
    · simp [ackOf, timeOut, hAgg]

theorem ascending_timeOut {i : Instrumentation} (sorted : i.instrumenterAcks.Ascending) :
    i.timeOut.instrumenterAcks.Ascending :=
  Table.ascending_mapValues sorted fun _ a => a.late

theorem fixed_timeOut (i : Instrumentation) : i.timeOut.fixed = i.fixed := rfl

/-! ## The end of a creation -/

/-- A record waits as long as there is somebody who has not answered. -/
theorem waiting_iff {i : Instrumentation} (sorted : i.instrumenterAcks.Ascending) :
    i.waiting = true ↔ ∃ w h, i.ackOf w h = some .unknown := by
  simp only [waiting, Bool.or_eq_true, decide_eq_true_eq, List.any_eq_true]
  constructor
  · rintro (h | ⟨a, ha, rfl⟩)
    · exact ⟨.aggregation, i.aggregator, by simp [ackOf, h]⟩
    · obtain ⟨k, hk⟩ := (Table.mem_values_iff sorted).mp ha
      exact ⟨.instrumentation, k, hk⟩
  · rintro ⟨w, h, hAck⟩
    cases w with
    | instrumentation => exact .inr ⟨_, (Table.mem_values_iff sorted).mpr ⟨h, hAck⟩, rfl⟩
    | aggregation =>
      simp only [ackOf] at hAck
      split at hAck
      · exact .inl (Option.some.inj hAck)
      · cases hAck

/-- There is a failure to report unless every word is a good one or still open. -/
theorem failure?_eq_none_iff {i : Instrumentation} (sorted : i.instrumenterAcks.Ascending) :
    i.failure? = none ↔ ∀ w h a, i.ackOf w h = some a → a.isFailure = false := by
  -- the aggregator's failure is looked for first
  have hAgg : i.aggregatorAck.isFailure = true → i.failure? ≠ none := by
    intro h
    simp [failure?, h]
  constructor
  · intro hNone w h a hAck
    by_contra hFail
    rw [Bool.not_eq_false] at hFail
    cases w with
    | instrumentation =>
      have hAny : i.instrumenterAcks.values.any AckState.isFailure = true :=
        List.any_eq_true.mpr ⟨a, (Table.mem_values_iff sorted).mpr ⟨h, hAck⟩, hFail⟩
      simp only [failure?, hAny] at hNone
      split at hNone <;> simp at hNone
    | aggregation =>
      simp only [ackOf] at hAck
      split at hAck
      · exact hAgg (Option.some.inj hAck ▸ hFail) hNone
      · cases hAck
  · intro hAll
    have h₁ : i.aggregatorAck.isFailure = false :=
      hAll .aggregation i.aggregator _ (by simp [ackOf])
    have h₂ : i.instrumenterAcks.values.any AckState.isFailure = false := by
      rw [List.any_eq_false]
      intro a ha
      obtain ⟨k, hk⟩ := (Table.mem_values_iff sorted).mp ha
      simp [hAll .instrumentation k a hk]
    simp [failure?, h₁, h₂]

/-- Has everybody answered whom a creation waits for? -/
def isDecided (i : Instrumentation) : Bool :=
  i.stage = .creating && !i.waiting

/-- The record once its creation has ended, if nobody is still to answer. -/
def settled (i : Instrumentation) : Instrumentation :=
  if i.isDecided then
    { i with stage := if i.failure?.isNone then .enabled else .failed, pending := none }
  else i

/-- Has the creation failed, now that everybody has answered? -/
def fails (i : Instrumentation) : Bool :=
  i.isDecided && i.failure?.isSome

/-- The hosts of a kind that are released and told to stop when the creation ends: if it fails,
all that did not report failure themselves. -/
def relieved (i : Instrumentation) (w : Work) : List String :=
  if i.fails then i.hosts (· ≠ .failed) w else []

/-- The answer to the request, when the creation ends. -/
def verdict (i : Instrumentation) : List (Ticket × Answer) :=
  if i.isDecided then
    let answer : Answer :=
      match i.failure? with
      | none => .ok i.id
      | some reason => .error (.enableFailed reason)
    (i.pending.map fun ticket => (ticket, answer)).toList
  else []

/-- Settling goes by the words and does not change them. -/
theorem ackOf_settled (i : Instrumentation) (w : Work) (h : String) :
    i.settled.ackOf w h = i.ackOf w h := by
  unfold settled
  split
  · cases w <;> rfl
  · rfl

/-- The table of the instrumenters' words is not changed by settling either. -/
theorem instrumenterAcks_settled (i : Instrumentation) :
    i.settled.instrumenterAcks = i.instrumenterAcks := by
  unfold settled
  split <;> rfl

theorem fixed_settled (i : Instrumentation) : i.settled.fixed = i.fixed := by
  unfold settled
  split <;> rfl

/-- The commands are made from what was asked for, and from nothing else. -/
theorem command_eq_of_fixed {i j : Instrumentation} (h : i.fixed = j.fixed) (w : Work) :
    i.command w = j.command w := by
  simp only [fixed, Prod.mk.injEq] at h
  obtain ⟨hId, hSpec, hKey, -, -⟩ := h
  cases w <;> simp [command, enableMessage, aggregateMessage, hId, hSpec, hKey]

theorem settled_of_not_decided {i : Instrumentation} (h : i.isDecided = false) : i.settled = i := by
  simp [settled, h]

/-- As long as a record is not decided its hosts keep their load. -/
theorem relieved_of_not_decided {i : Instrumentation} (h : i.isDecided = false) :
    i.relieved = fun _ => [] := by
  funext w
  simp [relieved, fails, h]

/-- As long as a record is not decided its requester gets no answer. -/
theorem verdict_of_not_decided {i : Instrumentation} (h : i.isDecided = false) :
    i.verdict = [] := by
  simp [verdict, h]

/-- A creation that has not ended waits for somebody. -/
theorem waiting_settled {i : Instrumentation} (creating : i.settled.stage = .creating) :
    i.settled.waiting = true := by
  cases hd : i.isDecided with
  | true =>
    simp only [settled, hd, if_true] at creating
    split at creating <;> cases creating
  | false =>
    rw [settled_of_not_decided hd] at creating ⊢
    simpa [isDecided, creating] using hd

/-- A creation that ends with nobody failing is enabled, with one that failed it fails. -/
theorem stage_settled (i : Instrumentation) :
    i.settled.stage =
      if i.isDecided then (if i.fails then .failed else .enabled) else i.stage := by
  unfold settled fails
  split
  · next h => cases i.failure? <;> simp [h]
  · rfl

/-- Only a creation under way ends. -/
theorem stage_of_settled (i : Instrumentation) :
    i.settled.stage = i.stage ∨
      i.stage = .creating ∧ (i.settled.stage = .enabled ∨ i.settled.stage = .failed) := by
  rw [stage_settled]
  cases hd : i.isDecided with
  | false => exact .inl rfl
  | true =>
    simp only [isDecided, Bool.and_eq_true, decide_eq_true_eq] at hd
    refine .inr ⟨hd.1, ?_⟩
    cases i.fails with
    | false => exact .inl rfl
    | true => exact .inr rfl

/-- A record fails exactly if settling makes it failed. -/
theorem fails_iff_stage_settled {i : Instrumentation} (h : i.stage ≠ .failed) :
    i.fails = true ↔ i.settled.stage = .failed := by
  rw [stage_settled]
  cases hd : i.isDecided with
  | false => simp [fails, hd, h]
  | true => cases hf : i.fails <;> simp

/-- A creation that succeeds has heard of everybody that it has started. -/
theorem ackOf_of_enabled {i : Instrumentation} (sorted : i.instrumenterAcks.Ascending)
    (before : i.stage ≠ .enabled) (after : i.settled.stage = .enabled) {w : Work} {h : String}
    {a : AckState} (told : i.ackOf w h = some a) : a = .enabled := by
  rw [stage_settled] at after
  cases hd : i.isDecided with
  | false =>
    rw [hd] at after
    exact absurd after before
  | true =>
    have hNone : i.failure? = none := by
      cases hf : i.failure? with
      | none => rfl
      | some reason => simp [fails, hd, hf] at after
    have hWait : i.waiting ≠ true := by
      simp only [isDecided, Bool.and_eq_true, Bool.not_eq_true'] at hd
      simp [hd.2]
    -- everybody has answered, and nobody that it failed
    have hFail := (failure?_eq_none_iff sorted).mp hNone w h a told
    cases a with
    | unknown => exact absurd ((waiting_iff sorted).mpr ⟨w, h, told⟩) hWait
    | enabled => rfl
    | failed => cases hFail
    | timedOut => cases hFail

/-- When a record fails, the hosts that are relieved are those that were told and have not refused:
who refused was relieved then. -/
theorem mem_relieved {i : Instrumentation} (sorted : i.instrumenterAcks.Ascending) {w : Work}
    {h : String} :
    h ∈ i.relieved w ↔ i.fails = true ∧ ∃ a, i.ackOf w h = some a ∧ a ≠ .failed := by
  unfold relieved
  split
  · next hf => simp [hf, mem_hosts sorted]
  · next hf => simp [hf]

/-- Nobody is relieved twice for one record. -/
theorem relieved_nodup {i : Instrumentation} (sorted : i.instrumenterAcks.Ascending) (w : Work) :
    (i.relieved w).Nodup := by
  unfold relieved
  split
  · exact hosts_nodup sorted _ _
  · exact List.nodup_nil

/-- A creation under way is decided as soon as everybody late is out of time. -/
theorem isDecided_timeOut {i : Instrumentation} (sorted : i.instrumenterAcks.Ascending)
    (creating : i.stage = .creating) : i.timeOut.isDecided = true := by
  have hStage : i.timeOut.stage = .creating := creating
  have hWait : i.timeOut.waiting = false := by
    rw [← Bool.not_eq_true, waiting_iff (ascending_timeOut sorted)]
    rintro ⟨w, h, hAck⟩
    rw [ackOf_timeOut] at hAck
    obtain ⟨a, -, ha⟩ := Option.map_eq_some_iff.mp hAck
    simp only [AckState.late] at ha
    split at ha
    · cases ha
    · next hne => exact hne ha
  simp [isDecided, hStage, hWait]

/-! ## Loads -/

/-- A record puts load on a host if it has not failed, the host was told, and its word is not a
failure. -/
theorem loads_iff {i : Instrumentation} {w : Work} {h : String} :
    i.loads w h = true ↔ i.stage ≠ .failed ∧ ∃ a, i.ackOf w h = some a ∧ a.isFailure = false := by
  simp only [loads, Bool.and_eq_true, Bool.or_eq_true, decide_eq_true_eq]
  constructor
  · rintro ⟨hs, hAck | hAck⟩
    · exact ⟨hs, _, hAck, rfl⟩
    · exact ⟨hs, _, hAck, rfl⟩
  · rintro ⟨hs, a, hAck, hFail⟩
    refine ⟨hs, ?_⟩
    cases a with
    | unknown => exact .inl hAck
    | enabled => exact .inr hAck
    | failed => cases hFail
    | timedOut => cases hFail

/-- The word of one participant is nothing to the loads of the others. -/
theorem loads_setAck_of_ne {i : Instrumentation} (sorted : i.instrumenterAcks.Ascending)
    (a : AckState) {w : Work} {h : String} (assigned : w = .aggregation → i.aggregator = h)
    {w' : Work} {h' : String} (other : ¬ (w' = w ∧ h' = h)) :
    (i.setAck a w h).loads w' h' = i.loads w' h' := by
  simp only [loads, stage_setAck, ackOf_setAck sorted a assigned, if_neg other]

/-- When a creation ends, a host that it loads is either still loaded or released, and one that
it does not load is neither. The record may hold hosts that are out of time only if it fails. -/
theorem loads_split_settled {i : Instrumentation} (sorted : i.instrumenterAcks.Ascending)
    (live : i.stage ≠ .failed) (w : Work) (h : String) (before : Bool)
    (held : before = true ↔ ∃ a, i.ackOf w h = some a ∧ a ≠ .failed)
    (untimed : i.fails = false → i.ackOf w h ≠ some .timedOut) :
    (if before then 1 else 0) =
      (if i.settled.loads w h then 1 else 0) + (i.relieved w).count h := by
  have hCount : (i.relieved w).count h = if h ∈ i.relieved w then 1 else 0 :=
    (relieved_nodup sorted w).count
  rw [hCount]
  cases hf : i.fails with
  | true =>
    have hOver : i.settled.loads w h = false := by
      simp [loads, (fails_iff_stage_settled live).mp hf]
    -- a failed creation counts for nobody, so all that it held is released
    have hMem : h ∈ i.relieved w ↔ before = true := by
      rw [mem_relieved sorted, held]
      simp [hf]
    simp [hOver, hMem]
  | false =>
    have hLive : i.settled.stage ≠ .failed := fun hs => by
      rw [(fails_iff_stage_settled live).mpr hs] at hf
      cases hf
    -- one that goes on releases nobody
    have hNot : h ∉ i.relieved w := by simp [mem_relieved sorted, hf]
    have hSame : i.settled.loads w h = true ↔ before = true := by
      rw [loads_iff, held, ackOf_settled]
      constructor
      · rintro ⟨-, a, hAck, ha⟩
        refine ⟨a, hAck, ?_⟩
        rintro rfl
        cases ha
      · rintro ⟨a, hAck, ha⟩
        refine ⟨hLive, a, hAck, ?_⟩
        cases a with
        | unknown => rfl
        | enabled => rfl
        | failed => exact absurd rfl ha
        | timedOut => exact absurd hAck (untimed hf)
    simp [hNot, hSame]

end Instrumentation

end FleetMetrics
