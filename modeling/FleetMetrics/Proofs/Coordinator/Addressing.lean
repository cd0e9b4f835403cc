import Mathlib
import FleetMetrics.Proofs.Coordinator.Answers
import FleetMetrics.Proofs.Coordinator.Compensation

/-!
# Whom a record addresses

A record lists the instrumenters that were told to start. They are those that the coordinator knew
when the record was made, and those that came online for the first time while it was enabled. One
that comes online for the first time while the record is creating is never addressed: it was not
told, so its word is not waited for, and it is not told afterwards either.

A participant that comes online again has lost what it was told. It is told again, once for each
record that counts on it, and its word is forgotten. The danger is in a creation under way: the word
given before the restart must not let it succeed.

Who came online is read off the history (`CameOnline`), and who is told again off the record
(`Instrumentation.recalls`). Nothing here depends on which keys the hosts use or on whether a
command arrives.

Main results:

* `known_iff_cameOnline` — the known hosts are those that came online.
* `addressed_step`, `addressed_run` — whom one event adds to a record, and whom a history does.
* `recall_spec` — what a participant that comes online again is told, and what is forgotten.
* `waits_for_run` — a creation that waits for a host waits until that host has acknowledged or the
  time is up.
-/

namespace FleetMetrics

/-- An event brings a host online as a participant of a kind. -/
def Event.BringsOnline (x : Event) (w : Work) (h : String) : Prop :=
  ∃ r, x.arrival? w = some r ∧ r.hostname = h

/-- A host acknowledges a command to start, whatever it says. -/
def Event.Acknowledges (x : Event) (w : Work) (h : String) (id : InstId) : Prop :=
  ∃ e now s error, x = .receive e now ∧ e.hostname = h ∧ e.message = .ack .enable w id s error

/-- In a history a host came online as a participant of a kind. -/
def CameOnline (history : List Event) (w : Work) (h : String) : Prop :=
  ∃ x ∈ history, x.BringsOnline w h

theorem cameOnline_nil (w : Work) (h : String) : ¬ CameOnline [] w h := by
  rintro ⟨x, hMem, -⟩
  cases hMem

/-- Somebody has come online if the last event brought them or they had come before. -/
theorem cameOnline_concat {history : List Event} {x : Event} {w : Work} {h : String} :
    CameOnline (history ++ [x]) w h ↔ CameOnline history w h ∨ x.BringsOnline w h := by
  constructor
  · rintro ⟨y, hMem, hy⟩
    rcases List.mem_append.mp hMem with hOld | hNew
    · exact .inl ⟨y, hOld, hy⟩
    · exact .inr (List.mem_singleton.mp hNew ▸ hy)
  · rintro (⟨y, hMem, hy⟩ | hx)
    · exact ⟨y, List.mem_append_left _ hMem, hy⟩
    · exact ⟨x, by simp, hx⟩

namespace Instrumentation

/-- Does a record count on a participant that has come back? It does if it has not failed, takes
the host as a participant of the kind, and has not heard from it that it failed. -/
def recalls (i : Instrumentation) (w : Work) (h : String) : Bool :=
  i.stage ≠ .failed &&
    match i.ackOf w h with
    | some a => a ≠ .failed
    | none => false

/-- A record is recalled to a participant that has not refused, unless the record has failed. -/
theorem recalls_iff {i : Instrumentation} {w : Work} {h : String} :
    i.recalls w h = true ↔ i.stage ≠ .failed ∧ ∃ a, i.ackOf w h = some a ∧ a ≠ .failed := by
  unfold recalls
  cases i.ackOf w h <;> simp

theorem contains_iff {i : Instrumentation} {h : String} :
    i.instrumenterAcks.contains h = true ↔ (i.ackOf .instrumentation h).isSome = true :=
  Iff.rfl

end Instrumentation

namespace Coordinator

/-! ## Known hosts -/

/-- Only an announcement makes a host known, and no event makes it unknown. -/
theorem known_step_iff {c : Coordinator} (hc : c.Sound) (x : Event) (w : Work) (h : String) :
    (((c.step x).coordinator.registry.directory w).find? h).isSome ↔
      ((c.registry.directory w).find? h).isSome ∨ x.BringsOnline w h := by
  refine ⟨fun hKnown => ?_, known_step hc.ascending hc.numbered x w h⟩
  -- an event that does not bring a host online leaves its entry but for the load
  by_cases hArrives : x.BringsOnline w h
  · exact .inr hArrives
  · left
    rwa [find?_directory_step hc.ascending hc.numbered x w h fun r hr hh => hArrives ⟨r, hr, hh⟩,
      Option.isSome_map] at hKnown

/-- The hosts that a coordinator knows are those that came online. -/
theorem known_iff_cameOnline (keyBase : String) (ackTimeout : Nat) (history : List Event) (w : Work)
    (h : String) :
    ((((Coordinator.new keyBase ackTimeout).run history).registry.directory w).find? h).isSome ↔
      CameOnline history w h := by
  induction history using List.reverseRecOn with
  | nil =>
    refine iff_of_false ?_ (cameOnline_nil w h)
    cases w <;> simp [run, Coordinator.new, Registry.empty, Registry.directory, Directory.empty,
      Directory.find?, Roster.find?_nil]
  | append_singleton xs x ih =>
    have hc := sound_run (sound_new keyBase ackTimeout) xs
    rw [run_concat, known_step_iff hc, ih, cameOnline_concat]

/-! ## Who is in the table -/

section Step

variable {c : Coordinator} (hc : c.Sound) {x : Event} {id : InstId} {i j : Instrumentation}

include hc

/-- **Whom one event adds.** A record addresses whom it addressed before, and an instrumenter that
comes online for the first time if the record is enabled. -/
theorem addressed_step (before : c.instrumentations.find? id = some i)
    (after : (c.step x).coordinator.instrumentations.find? id = some j) (h : String) :
    (j.ackOf .instrumentation h).isSome ↔ (i.ackOf .instrumentation h).isSome ∨
      x.BringsOnline .instrumentation h ∧
        ((c.registry.directory .instrumentation).find? h).isSome = false ∧ i.stage = .enabled := by
  have hAcks := (hc.fits id i before).acks
  constructor
  · intro hAfter
    have hChange := change_step hc x id
    rw [before, after] at hChange
    generalize (fun w => ordersIn (c.step x).sent w id) = orders at hChange
    cases hChange with
    | rest => exact .inl hAfter
    | heard message live unanswered =>
      -- a word is taken only of those that were addressed
      rw [Instrumentation.ackOf_settled,
        Instrumentation.ackOf_setAck hAcks _ (assigned_of_ackOf unanswered)] at hAfter
      split at hAfter
      · next hSame =>
        rw [hSame.1, hSame.2, unanswered]
        exact .inl rfl
      · exact .inl hAfter
    | expired late =>
      rw [Instrumentation.ackOf_settled, Instrumentation.ackOf_timeOut, Option.isSome_map] at hAfter
      exact .inl hAfter
    | @recalled _ e now w r arrives owed =>
      rw [Instrumentation.ackOf_setAck hAcks _ (assigned_of_owes owed)] at hAfter
      split at hAfter
      · next hSame =>
        obtain ⟨rfl, rfl⟩ := hSame
        -- one that was known is owed only what addressed it before
        cases hOutcome : Registry.outcome (c.registry.directory .instrumentation) r.hostname with
        | restarted =>
          rw [hOutcome] at owed
          left
          cases hAck : i.instrumenterAcks.find? r.hostname with
          | none => cases hStage : i.stage <;> simp [owes, owesInstrumenter, hAck, hStage] at owed
          | some a =>
            rw [Instrumentation.ackOf, hAck]
            rfl
        | started =>
          -- one that was not known is owed what is enabled
          rw [hOutcome] at owed
          refine .inr ⟨⟨r, arrives, rfl⟩, ?_, ?_⟩
          · simpa [Registry.outcome] using hOutcome
          · cases hStage : i.stage <;> simp [owes, owesInstrumenter, hStage] at owed ⊢
      · exact .inl hAfter
  · rintro (hOld | ⟨⟨r, hArrives, rfl⟩, hUnknown, hEnabled⟩)
    · exact ackOf_isSome_step hc before after hOld
    · by_cases hOld : (i.ackOf .instrumentation r.hostname).isSome
      · exact ackOf_isSome_step hc before after hOld
      · have hNew : i.instrumenterAcks.contains r.hostname = false := by
          simpa [Table.contains, Instrumentation.ackOf] using hOld
        have hOwed : owes .instrumentation r.hostname
            (Registry.outcome (c.registry.directory .instrumentation) r.hostname) i = true := by
          simp [owes, owesInstrumenter, Registry.outcome, hUnknown, hEnabled, hNew]
        have hj := setAck_of_recalled before after (Option.filter_eq_some_iff.mpr ⟨hArrives, hOwed⟩)
        rw [hj, Instrumentation.ackOf_setAck hAcks _ (assigned_of_owes hOwed), if_pos ⟨rfl, rfl⟩]
        rfl

end Step

/-- On an event a number is given to a new record. -/
def Begins (c : Coordinator) (x : Event) (id : InstId) : Prop :=
  c.instrumentations.find? id = none ∧
    ((c.step x).coordinator.instrumentations.find? id).isSome = true

/-- Every record has begun with a request. -/
theorem begins_of_record (keyBase : String) (ackTimeout : Nat) {history : List Event} {id : InstId}
    {i : Instrumentation}
    (found : ((Coordinator.new keyBase ackTimeout).run history).instrumentations.find? id =
      some i) :
    ∃ before s ticket now after, history = before ++ .create s ticket now :: after ∧
      ((Coordinator.new keyBase ackTimeout).run before).Begins (.create s ticket now) id := by
  induction history using List.reverseRecOn generalizing i with
  | nil => cases found
  | append_singleton xs x ih =>
    have hc := sound_run (sound_new keyBase ackTimeout) xs
    rw [run_concat] at found
    cases hBefore : ((Coordinator.new keyBase ackTimeout).run xs).instrumentations.find? id with
    | none =>
      -- the last event made the record, and only a request makes one
      obtain ⟨-, s, ticket, now, rfl⟩ := new_step hc hBefore found
      exact ⟨xs, s, ticket, now, [], rfl, hBefore, by rw [found]; rfl⟩
    | some i' =>
      obtain ⟨before, s, ticket, now, after, hSplit, hBegins⟩ := ih hBefore
      exact ⟨before, s, ticket, now, after ++ [x], by simp [hSplit], hBegins⟩

/-- The first notice of an instrumenter comes after some events. -/
def FirstNotice (earlier : List Event) (y : Event) (h : String) : Prop :=
  y.BringsOnline .instrumentation h ∧ ¬ CameOnline earlier .instrumentation h

/-- Of the events after a record began, the one upon which an instrumenter comes online for the
first time finds the record enabled. -/
def JoinsEnabled (start : Coordinator) (before after : List Event) (h : String) (id : InstId) :
    Prop :=
  ∃ mid y rest, after = mid ++ y :: rest ∧ FirstNotice (before ++ mid) y h ∧
    (start.run (before ++ mid)).stageOf id = some .enabled

/-- A host joins what is enabled with the last event, or has joined before. -/
theorem joinsEnabled_concat {start : Coordinator} {before after : List Event} {x : Event}
    {h : String} {id : InstId} :
    JoinsEnabled start before (after ++ [x]) h id ↔ JoinsEnabled start before after h id ∨
      FirstNotice (before ++ after) x h ∧
        (start.run (before ++ after)).stageOf id = some .enabled := by
  constructor
  · rintro ⟨mid, y, rest, hSplit, hJoins⟩
    rcases split_concat hSplit with ⟨-, rfl, rfl⟩ | ⟨rest', -, hAfter⟩
    · exact .inr hJoins
    · exact .inl ⟨mid, y, rest', hAfter, hJoins⟩
  · rintro (⟨mid, y, rest, rfl, hJoins⟩ | hJoins)
    · exact ⟨mid, y, rest ++ [x], by simp, hJoins⟩
    · exact ⟨after, x, [], rfl, hJoins⟩

/-- A host has one first notice. -/
theorem FirstNotice.unique {earlier mid mid' rest rest' : List Event} {y y' : Event} {h : String}
    (first : FirstNotice (earlier ++ mid) y h) (first' : FirstNotice (earlier ++ mid') y' h)
    (same : mid ++ y :: rest = mid' ++ y' :: rest') : mid = mid' := by
  -- the later one of two would come after a notice of the same host
  have hBefore : ∀ {z z' : Event} {xs : List Event}, FirstNotice (earlier ++ xs) z h →
      z'.BringsOnline .instrumentation h → z' ∉ xs :=
    fun hFirst hNotice hMem => hFirst.2 ⟨_, List.mem_append_right _ hMem, hNotice⟩
  rcases List.append_eq_append_iff.mp same with ⟨gap, hMid, hRest⟩ | ⟨gap, hMid, hRest⟩
  · cases gap with
    | nil => simpa using hMid.symm
    | cons z gap =>
      obtain ⟨rfl, -⟩ := List.cons.inj hRest
      exact absurd (by simp [hMid]) (hBefore first' first.1)
  · cases gap with
    | nil => simpa using hMid
    | cons z gap =>
      obtain ⟨rfl, -⟩ := List.cons.inj hRest
      exact absurd (by simp [hMid]) (hBefore first first'.1)

/-- **Whom a record addresses.** Whoever came online before the record began, and whoever comes
online for the first time while it is enabled. -/
theorem addressed_run (keyBase : String) (ackTimeout : Nat) {before after : List Event} {x : Event}
    {id : InstId} {i : Instrumentation}
    (begins : ((Coordinator.new keyBase ackTimeout).run before).Begins x id)
    (found : ((Coordinator.new keyBase ackTimeout).run
      (before ++ x :: after)).instrumentations.find? id = some i) (h : String) :
    (i.ackOf .instrumentation h).isSome ↔ CameOnline before .instrumentation h ∨
      JoinsEnabled (.new keyBase ackTimeout) (before ++ [x]) after h id := by
  have hSound : ∀ xs, ((Coordinator.new keyBase ackTimeout).run xs).Sound :=
    fun xs => sound_run (sound_new keyBase ackTimeout) xs
  have hKnown := known_iff_cameOnline keyBase ackTimeout
  induction after using List.reverseRecOn generalizing i with
  | nil =>
    -- the record is the one that the request has made
    have hNothing : ¬ JoinsEnabled (.new keyBase ackTimeout) (before ++ [x]) [] h id := by
      rintro ⟨mid, y, rest, hSplit, -⟩
      cases mid <;> cases hSplit
    rw [run_concat] at found
    have hChange := change_step (hSound before) x id
    rw [begins.1, found] at hChange
    generalize (fun w => ordersIn _ w id) = orders at hChange
    cases hChange with
    | @created s ticket now a chosen next =>
      have hMem : h ∈ ((Coordinator.new keyBase ackTimeout).run before).addressees a.hostname
          .instrumentation ↔ CameOnline before .instrumentation h :=
        Directory.mem_hostnames_iff.trans (hKnown before .instrumentation h)
      rw [ackOf_newRecord, or_iff_left hNothing, ← hMem]
      split
      · next hMem => exact iff_of_true rfl hMem
      · next hNot => exact iff_of_false (by simp) hNot
  | append_singleton after z ih =>
    have hSplit : before ++ x :: (after ++ [z]) = before ++ [x] ++ after ++ [z] := by simp
    have hMiddle : before ++ x :: after = before ++ [x] ++ after := by simp
    rw [hMiddle] at ih
    rw [hSplit, run_concat] at found
    -- the number was given out when the record began, so the record is still the one it was
    have hGiven :
        id < ((Coordinator.new keyBase ackTimeout).run (before ++ [x] ++ after)).nextId := by
      obtain ⟨first, hFirst⟩ := Option.isSome_iff_exists.mp begins.2
      rw [← run_concat] at hFirst
      rw [run_append]
      exact given_of_record (hSound _) hFirst after
    obtain ⟨i', hBefore⟩ := find?_of_given (hSound _) hGiven found
    have hUnknown : (((Coordinator.new keyBase ackTimeout).run
        (before ++ [x] ++ after)).registry.directory .instrumentation |>.find? h).isSome = false ↔
          ¬ CameOnline (before ++ [x] ++ after) .instrumentation h := by
      rw [← hKnown, Bool.not_eq_true]
    have hStage : i'.stage = .enabled ↔ ((Coordinator.new keyBase ackTimeout).run
        (before ++ [x] ++ after)).stageOf id = some .enabled := by
      rw [stageOf, hBefore]
      simp
    have hOld : (i'.ackOf .instrumentation h).isSome ↔ _ := ih hBefore
    rw [addressed_step (hSound _) hBefore found h, hOld, joinsEnabled_concat, hUnknown, hStage,
      FirstNotice, or_assoc, and_assoc]

/-! ## What a participant is told that comes back -/

/-- One that comes back has to be told of the records that count on it. -/
theorem owes_restarted (w : Work) (h : String) (i : Instrumentation) :
    owes w h .restarted i = i.recalls w h := by
  unfold owes Instrumentation.recalls Instrumentation.ackOf
  cases w with
  | instrumentation =>
    unfold owesInstrumenter
    cases i.stage <;> rfl
  | aggregation =>
    unfold owesAggregator
    by_cases hAgg : i.aggregator = h <;> simp [hAgg]

/-- **A participant comes online again.** It is told to start, under the key of its notice, once for
each record that counts on it, in ascending order of their numbers; its word in these records is
forgotten, and nothing else changes in any record. -/
theorem recall_spec {c : Coordinator} (hc : c.Sound) {e : Envelope Float} {now : Timestamp}
    {w : Work} {r : AgentRecord} (arrives : e.arrival? now w = some r)
    (known : ((c.registry.directory w).find? e.hostname).isSome) :
    let t := c.step (.receive e now)
    let owed := c.instrumentations.values.filter (·.recalls w e.hostname)
    t.sent = owed.map (fun i => (e.source, i.command w)) ∧ (owed.map (·.id)).Pairwise (· < ·) ∧
      t.answered = [] ∧
      ∀ id, t.coordinator.instrumentations.find? id = (c.instrumentations.find? id).map fun i =>
        if i.recalls w e.hostname then i.setAck .unknown w e.hostname else i := by
  obtain ⟨hHost, hKey, -⟩ := Envelope.arrival?_eq_some arrives
  have hOwes : owes w r.hostname (Registry.outcome (c.registry.directory w) r.hostname) =
      (·.recalls w e.hostname) := by
    have hOutcome : Registry.outcome (c.registry.directory w) e.hostname = .restarted := by
      simp [Registry.outcome, known]
    funext i
    rw [hHost, hOutcome]
    exact owes_restarted w e.hostname i
  -- the notice is handled by the welcome, whose parts are read off one by one
  obtain ⟨catalog, hStep⟩ := c.step_of_arrival arrives
  intro t owed
  have hFind := c.find?_welcome w r catalog
  rw [hOwes, hHost] at hFind
  refine ⟨?_, ?_, ?_, ?_⟩
  · show (c.step (.receive e now)).sent = _
    rw [hStep, welcome, hOwes, hKey]
  · -- the records stand in the order of their numbers
    have hIds : (c.instrumentations.values.map (·.id)).Pairwise (· < ·) := by
      rw [Table.map_key_values hc.ascending hc.numbered, Table.keys, List.pairwise_map]
      exact hc.ascending.imp fun hLess => Nat.compare_eq_lt.mp hLess
    exact hIds.sublist (List.filter_sublist.map _)
  · show (c.step (.receive e now)).answered = _
    rw [hStep]
    rfl
  · show ∀ id, (c.step (.receive e now)).coordinator.instrumentations.find? id = _
    rw [hStep]
    exact hFind

/-! ## A creation under way -/

section Waiting

variable {c : Coordinator} (hc : c.Sound) {id : InstId} {i j : Instrumentation}
  (found : c.instrumentations.find? id = some i) (creating : i.stage = .creating) {w : Work}
  {h : String} (unknown : i.ackOf w h = some .unknown)

include hc found creating unknown

/-- An event upon which the host does not acknowledge leaves the creation waiting for it, or is the
end of its time. -/
theorem waits_for_step {x : Event} (silent : ¬ x.Acknowledges w h id)
    (found' : (c.step x).coordinator.instrumentations.find? id = some j) :
    j.stage = .creating ∧ j.ackOf w h = some .unknown ∨
      j.stage = .failed ∧ ∃ now, x = .expire now ∧ i.deadline ≤ now := by
  have hFits := hc.fits id i found
  have hFailed := fun now => fits_expired hc hFits creating (.expire now)
  have hChange := change_step hc x id
  rw [found, found'] at hChange
  generalize (fun w => ordersIn (c.step x).sent w id) = orders at hChange
  cases hChange with
  | rest => exact .inl ⟨creating, unknown⟩
  | @heard _ e w' s error now message live unanswered =>
    left
    have hAck := Instrumentation.ackOf_setAck hFits.acks (ackState s) (assigned_of_ackOf unanswered)
      w h
    have hOther : ¬ (w = w' ∧ h = e.hostname) := by
      rintro ⟨rfl, rfl⟩
      exact silent ⟨e, now, s, error, rfl, rfl, message⟩
    rw [if_neg hOther, unknown] at hAck
    -- somebody is still to answer, so the creation does not end
    have hWaiting : (i.setAck (ackState s) w' e.hostname).waiting = true :=
      (Instrumentation.waiting_iff (Instrumentation.ascending_setAck hFits.acks _ _ _)).mpr
        ⟨w, h, hAck⟩
    have hOpen : (i.setAck (ackState s) w' e.hostname).isDecided = false := by
      simp [Instrumentation.isDecided, hWaiting]
    rw [Instrumentation.settled_of_not_decided hOpen, Instrumentation.stage_setAck]
    exact ⟨creating, hAck⟩
  | @expired _ now late =>
    right
    rw [isExpired_iff] at late
    have hStage : i.timeOut.stage ≠ .failed := by simp [Instrumentation.timeOut, creating]
    exact ⟨(Instrumentation.fails_iff_stage_settled hStage).mp (fails_timeOut hFits creating), now,
      rfl, late.2⟩
  | recalled arrives owed =>
    -- another participant comes back, or this one does again
    left
    rw [Instrumentation.stage_setAck,
      Instrumentation.ackOf_setAck hFits.acks _ (assigned_of_owes owed)]
    refine ⟨creating, ?_⟩
    split
    · rfl
    · exact unknown

/-- **A creation that waits for a host** waits until that host acknowledges, or until its time is
up and it fails. -/
theorem waits_for_run {later : List Event} (silent : ∀ x ∈ later, ¬ x.Acknowledges w h id)
    (found' : (c.run later).instrumentations.find? id = some j) :
    j.deadline = i.deadline ∧ (j.stage = .creating ∧ j.ackOf w h = some .unknown ∨
      j.stage = .failed ∧ ∃ now, .expire now ∈ later ∧ i.deadline ≤ now) := by
  induction later using List.reverseRecOn generalizing j with
  | nil =>
    obtain rfl : i = j := Option.some.inj (found.symm.trans found')
    exact ⟨rfl, .inl ⟨creating, unknown⟩⟩
  | append_singleton later x ih =>
    rw [run_concat] at found'
    have hSound := sound_run hc later
    obtain ⟨i', hBefore⟩ := find?_of_given hSound (given_of_record hc found later) found'
    obtain ⟨hDeadline, hWaits⟩ :=
      ih (fun y hy => silent y (List.mem_append_left _ hy)) hBefore
    rcases fixed_step hSound (x := x) hBefore with ⟨-, hGone⟩ | ⟨j', hj', hFixed, hStage⟩
    · rw [hGone] at found'
      cases found'
    obtain rfl : j = j' := Option.some.inj (found'.symm.trans hj')
    refine ⟨(congrArg (·.2.2.2.2) hFixed).trans hDeadline, ?_⟩
    rcases hWaits with ⟨hCreating, hUnknown⟩ | ⟨hFailed, now, hMem, hLate⟩
    · rcases waits_for_step hSound hBefore hCreating hUnknown (silent x (by simp)) found' with
        hStill | ⟨hFailed, now, rfl, hLate⟩
      · exact .inl hStill
      · exact .inr ⟨hFailed, now, by simp, hDeadline ▸ hLate⟩
    · -- what has failed stays so
      refine .inr ⟨?_, now, List.mem_append_left _ hMem, hLate⟩
      rcases hStage with hSame | ⟨hCreating, -⟩
      · exact hSame.trans hFailed
      · rw [hFailed] at hCreating
        cases hCreating

end Waiting

/-- **Addressing and restarts.** After any history,

* a record began with a request, and it addresses an instrumenter if and only if that came online
  for the first time before the request, or while the record was enabled; so one that came online
  for the first time while it was creating, or had failed, is not addressed, whatever it does later;
* a participant of either kind that comes online again is told to start, under the key of its
  notice, once for each record that has not failed and takes it as a participant that did not report
  failure, in the order of their numbers, and nothing else is sent; its word in these records
  becomes unknown, and no other word and no stage changes;
* if one of these records was creating, it stays so, waiting for this participant, until the
  participant acknowledges or the time is up, when it fails. -/
theorem addressing (keyBase : String) (ackTimeout : Nat) (history : List Event) :
    let start := Coordinator.new keyBase ackTimeout
    let c := start.run history
    (∀ id i, c.instrumentations.find? id = some i →
      (∃ before s ticket now after, history = before ++ .create s ticket now :: after ∧
        (start.run before).Begins (.create s ticket now) id) ∧
      ∀ before x after, history = before ++ x :: after → (start.run before).Begins x id → ∀ h,
        (i.instrumenterAcks.contains h = true ↔ CameOnline before .instrumentation h ∨
          JoinsEnabled start (before ++ [x]) after h id) ∧
        ∀ mid y rest, after = mid ++ y :: rest → FirstNotice (before ++ [x] ++ mid) y h →
          (start.run (before ++ [x] ++ mid)).stageOf id ≠ some .enabled →
            i.instrumenterAcks.contains h = false) ∧
    ∀ e now w r, e.arrival? now w = some r → CameOnline history w e.hostname →
      let t := c.step (.receive e now)
      let owed := c.instrumentations.values.filter (·.recalls w e.hostname)
      t.sent = owed.map (fun i => (e.source, i.command w)) ∧ (owed.map (·.id)).Pairwise (· < ·) ∧
      (∀ id, c.instrumentations.find? id = none → t.coordinator.instrumentations.find? id = none) ∧
      ∀ id i, c.instrumentations.find? id = some i →
        (∃ j, t.coordinator.instrumentations.find? id = some j ∧ j.fixed = i.fixed ∧
          j.stage = i.stage ∧ j.pending = i.pending ∧
          ∀ w' h, j.ackOf w' h =
            if i.recalls w e.hostname = true ∧ w' = w ∧ h = e.hostname then some .unknown
            else i.ackOf w' h) ∧
        (i.stage = .creating → i.recalls w e.hostname = true →
          ∀ later, (∀ x ∈ later, ¬ x.Acknowledges w e.hostname id) →
            ∀ j, (t.coordinator.run later).instrumentations.find? id = some j →
              j.stage = .creating ∧ j.ackOf w e.hostname = some .unknown ∨
                j.stage = .failed ∧ ∃ now', .expire now' ∈ later ∧ i.deadline ≤ now') := by
  intro start c
  have hc : c.Sound := sound_run (sound_new keyBase ackTimeout) history
  refine ⟨fun id i hi => ⟨begins_of_record keyBase ackTimeout hi, ?_⟩, ?_⟩
  · rintro before x after hSplit hBegins h
    have hFound : (start.run (before ++ x :: after)).instrumentations.find? id = some i :=
      hSplit ▸ hi
    have hIff := addressed_run keyBase ackTimeout hBegins hFound h
    refine ⟨hIff, fun mid y rest hAfter hFirst hStage => ?_⟩
    -- there is one first notice, so it is neither before the request nor while enabled
    rw [← Bool.not_eq_true, Instrumentation.contains_iff, hIff]
    rintro (⟨z, hMem, hNotice⟩ | ⟨mid', y', rest', hAfter', hFirst', hEnabled⟩)
    · exact hFirst.2 ⟨z, by simp [hMem], hNotice⟩
    · obtain rfl := hFirst.unique hFirst' (hAfter.symm.trans hAfter')
      exact hStage hEnabled
  · intro e now w r hArrives hCame t owed
    have hKnown := (known_iff_cameOnline keyBase ackTimeout history w e.hostname).mpr hCame
    obtain ⟨hSent, hOrder, -, hFind⟩ := recall_spec hc hArrives hKnown
    refine ⟨hSent, hOrder, fun id hNone => ?_, fun id i hi => ?_⟩
    · rw [hFind, hNone]
      rfl
    have hFits := hc.fits id i hi
    have hj := hFind id
    rw [hi, Option.map_some] at hj
    refine ⟨⟨_, hj, ?_⟩, fun hCreating hRecalls later hSilent j hLater => ?_⟩
    · -- one word is set in the records that count on it, and the others stay as they are
      by_cases hRecalls : i.recalls w e.hostname = true
      · obtain ⟨-, a, hAck, -⟩ := Instrumentation.recalls_iff.mp hRecalls
        rw [if_pos hRecalls]
        refine ⟨Instrumentation.fixed_setAck .., Instrumentation.stage_setAck ..,
          Instrumentation.pending_setAck .., fun w' h => ?_⟩
        rw [Instrumentation.ackOf_setAck hFits.acks _ (assigned_of_ackOf hAck)]
        simp [hRecalls]
      · rw [if_neg hRecalls]
        exact ⟨rfl, rfl, rfl, fun w' h => by simp [hRecalls]⟩
    · -- its word is unknown now, so the creation waits for it
      obtain ⟨-, a, hAck, -⟩ := Instrumentation.recalls_iff.mp hRecalls
      rw [if_pos hRecalls] at hj
      have hUnknown := Instrumentation.ackOf_setAck hFits.acks .unknown (assigned_of_ackOf hAck) w
        e.hostname
      rw [if_pos ⟨rfl, rfl⟩] at hUnknown
      have hStage : (i.setAck .unknown w e.hostname).stage = .creating :=
        (Instrumentation.stage_setAck ..).trans hCreating
      have hDeadline : (i.setAck .unknown w e.hostname).deadline = i.deadline :=
        congrArg (·.2.2.2.2) (Instrumentation.fixed_setAck i .unknown w e.hostname)
      rw [← hDeadline]
      exact (waits_for_run (sound_step hc _) hj hStage hUnknown hSilent hLater).2

/-- An aggregator and two instrumenters, the second of which comes online when the first
instrumentation is enabled, and a second instrumentation that is still creating. -/
def joinedHistory : List Event :=
  briefHistory ++
    [.receive ⟨"k.aggregator.g", "g", .ack .enable .aggregation 1 .enabled none⟩ ⟨1⟩,
      .receive ⟨"k.instrumenter.h", "h", .ack .enable .instrumentation 1 .enabled none⟩ ⟨1⟩,
      .receive ⟨"k.instrumenter.j", "j", .instrumenterOnline (.current "instrumenter") []⟩ ⟨2⟩,
      .create ⟨"m", "s", .trivial, [], []⟩ 1 2]

/-- The first instrumentation addresses the instrumenter that was there when it began and the one
that joined. When the former restarts, it is told of both instrumentations under its new key, and
the second one is not enabled by the word of the others. -/
theorem addressing_brief :
    let start := Coordinator.new "k" 3
    let c := start.run joinedHistory
    let back : Envelope Float :=
      ⟨"k.instrumenter.h2", "h", .instrumenterOnline (.current "instrumenter") []⟩
    let others : List Event :=
      [.receive ⟨"k.aggregator.g", "g", .ack .enable .aggregation 2 .enabled none⟩ ⟨4⟩,
        .receive ⟨"k.instrumenter.j", "j", .ack .enable .instrumentation 2 .enabled none⟩ ⟨4⟩]
    (∃ i, c.instrumentations.find? 1 = some i ∧ i.instrumenterAcks.contains "h" = true ∧
      i.instrumenterAcks.contains "j" = true) ∧
    (c.step (.receive back ⟨3⟩)).sent.map (·.1) = ["k.instrumenter.h2", "k.instrumenter.h2"] ∧
    ∃ j, ((c.step (.receive back ⟨3⟩)).coordinator.run others).instrumentations.find? 2 = some j ∧
      j.stage = .creating ∧ j.ackOf .instrumentation "h" = some .unknown := by
  intro start c back others
  obtain ⟨hTable, hRecall⟩ := addressing "k" 3 joinedHistory
  obtain ⟨first, hFirst⟩ : ∃ i, c.instrumentations.find? 1 = some i :=
    Option.isSome_iff_exists.mp (by decide)
  obtain ⟨second, hSecond⟩ : ∃ i, c.instrumentations.find? 2 = some i :=
    Option.isSome_iff_exists.mp (by decide)
  -- the instrumenters of the first instrumentation
  let request : Event := .create ⟨"m", "s", .trivial, [], []⟩ 0 0
  have hBegins : (start.run (briefHistory.take 2)).Begins request 1 := ⟨rfl, by decide⟩
  have hAddressed := fun h => ((hTable 1 first hFirst).2 (briefHistory.take 2) request
    (joinedHistory.drop 3) rfl hBegins h).1
  have hWasThere : CameOnline (briefHistory.take 2) .instrumentation "h" :=
    ⟨_, List.mem_cons_of_mem _ List.mem_cons_self, _, rfl, rfl⟩
  have hJoins :
      JoinsEnabled start (briefHistory.take 2 ++ [request]) (joinedHistory.drop 3) "j" 1 := by
    refine ⟨(joinedHistory.drop 3).take 2, _, _, rfl, ⟨⟨_, rfl, rfl⟩, ?_⟩, by decide⟩
    rintro ⟨x, hMem, r, hArrives, hHost⟩
    simp only [request, briefHistory, joinedHistory, List.take, List.drop, List.cons_append,
      List.nil_append, List.mem_cons, List.not_mem_nil, or_false] at hMem
    rcases hMem with rfl | rfl | rfl | rfl | rfl <;> cases hArrives
    simp at hHost
  -- the restart
  have hCame : CameOnline joinedHistory .instrumentation "h" :=
    ⟨_, List.mem_cons_of_mem _ List.mem_cons_self, _, rfl, rfl⟩
  obtain ⟨hSent, -, -, hEach⟩ := hRecall back ⟨3⟩ .instrumentation _ rfl hCame
  have hCounts : ((c.instrumentations.find? 2).all fun i =>
      i.stage = .creating && i.recalls .instrumentation "h") = true := by decide
  rw [hSecond] at hCounts
  simp only [Option.all_some, Bool.and_eq_true, decide_eq_true_eq] at hCounts
  have hSilent : ∀ x ∈ others, ¬ x.Acknowledges .instrumentation "h" 2 := by
    rintro x hMem ⟨e, now, s, error, rfl, hHost, -⟩
    simp only [others, List.mem_cons, List.not_mem_nil, or_false, Event.receive.injEq] at hMem
    rcases hMem with ⟨rfl, -⟩ | ⟨rfl, -⟩ <;> simp at hHost
  obtain ⟨later, hLater⟩ : ∃ j, ((c.step (.receive back ⟨3⟩)).coordinator.run
      others).instrumentations.find? 2 = some j := Option.isSome_iff_exists.mp (by decide)
  have hWaits := (hEach 2 second hSecond).2 hCounts.1 hCounts.2 others hSilent later hLater
  refine ⟨⟨first, hFirst, (hAddressed "h").mpr (.inl hWasThere),
    (hAddressed "j").mpr (.inr hJoins)⟩, ?_, later, hLater, hWaits.resolve_right ?_⟩
  · rw [hSent, List.map_map]
    decide
  · -- nobody ran out of time
    rintro ⟨-, now, hMem, -⟩
    simp [others] at hMem

end Coordinator

end FleetMetrics
