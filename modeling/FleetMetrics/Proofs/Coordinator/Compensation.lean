import Mathlib
import FleetMetrics.Proofs.Coordinator.Lifecycle

/-!
# Compensation

When a creation fails, and when an instrumentation is deleted, whoever may be working on it is
told to stop. Whom the coordinator has told to start it does not remember as such: there are the
words in the record, and there is the directory. So a participant may be missed that was told to
start and is in neither, and one that comes online later may be told to start once more.

Commands go out under routing keys, and two hosts may use one key. `told` says which hosts the
coordinator tells, and `ordersIn_step` that it publishes exactly one command for each of them,
under the key by which it knows the host. Everything else is about hosts.

Nothing here says that a command arrives, or that a host obeys it.

Main results:

* `ordersIn_step` — what is published about an instrumentation, host by host.
* `toldTo_of_failed` — a creation that fails tells everybody to stop who has not failed, once.
* `accounted_run` — whoever was told to start is a participant of the record as long as there is
  one, and told to stop last when it is over.
* `compensation` — both for whole histories, and that nobody is told to start again.
-/

namespace FleetMetrics

/-- The only message that orders somebody to stop is a disable, and it names what is to stop. -/
theorem Message.order?_eq_stop {w : Work} {id : InstId} {m : Message Float}
    (stops : m.order? w id = some .stop) : m = .disable w id := by
  cases m with
  | enableInstrumentation id' =>
    cases w <;> simp [Message.order?] at stops
  | enableAggregation id' =>
    cases w <;> simp [Message.order?] at stops
  | disable w' id' =>
    rw [Message.order?_disable] at stops
    split at stops
    · next h => rw [h.1, h.2]
    · cases stops
  | _ => cases w <;> cases stops

/-- Settling changes no word, so the hosts with a certain word are the same before and after. -/
theorem Instrumentation.hosts_settled (i : Instrumentation) (p : AckState → Bool) (w : Work) :
    i.settled.hosts p w = i.hosts p w := by
  unfold settled
  split
  · cases w <;> rfl
  · rfl

namespace Coordinator

/-! ## Whom an event tells what -/

/-- The participant that an event announces, if it has to be told of an instrumentation. -/
def recalled? (c : Coordinator) (x : Event) (w : Work) (i : Instrumentation) :
    Option AgentRecord :=
  (x.arrival? w).filter fun r =>
    owes w r.hostname (Registry.outcome (c.registry.directory w) r.hostname) i

/-- The hosts of a kind that an event tells something about an instrumentation, and what. It
depends on what becomes of the record: one that is new has its addressees start, one that is
deleted has everybody stop, one that fails has those stop that have not failed themselves, and any
other may be recalled to somebody who comes online. -/
def told (c : Coordinator) (x : Event) (w : Work) (id : InstId) : List (String × Order) :=
  match c.instrumentations.find? id, (c.step x).coordinator.instrumentations.find? id with
  | none, none => []
  | none, some j => (c.addressees j.aggregator w).map fun h => (h, .start (j.command w))
  | some i, none => (c.addressees i.aggregator w).map fun h => (h, .stop)
  | some i, some j =>
    if i.stage ≠ .failed ∧ j.stage = .failed then
      (j.hosts (· ≠ .failed) w).map fun h => (h, .stop)
    else (c.recalled? x w i).toList.map fun r => (r.hostname, .start (i.command w))

/-- The key by which a host is known. -/
def keyFor (c : Coordinator) (w : Work) (h : String) : Option String :=
  ((c.registry.directory w).find? h).map (·.routingKey)

/-- The keys of hosts that are all registered are the keys of each, in the same order. -/
theorem map_keys {d : Directory} {hosts : List String} (known : ∀ h ∈ hosts, (d.find? h).isSome) :
    (d.keys hosts).map some = hosts.map fun h => (d.find? h).map (·.routingKey) := by
  induction hosts with
  | nil => rfl
  | cons h rest ih =>
    obtain ⟨r, hr⟩ := Option.isSome_iff_exists.mp (known h List.mem_cons_self)
    have hRest := ih fun h' hh' => known h' (List.mem_cons_of_mem _ hh')
    simp only [Directory.keys, List.filterMap_cons, hr, Option.map_some, List.map_cons] at hRest ⊢
    rw [hRest]

section Step

variable {c : Coordinator} (hc : c.Sound) {x : Event}

include hc

/-- Only an agent that comes online changes the key by which a host is known. -/
theorem keyFor_step (quiet : ∀ w, x.arrival? w = none) (w : Work) (h : String) :
    (c.step x).coordinator.keyFor w h = c.keyFor w h := by
  rw [keyFor, find?_directory_step hc.ascending hc.numbered x w h (by simp [quiet]),
    Option.map_map]
  rfl

/-- Orders under the keys from before a step are orders under the keys from after it, unless
somebody comes online in it. -/
theorem keyed_of_keys (quiet : ∀ w, x.arrival? w = none) {w : Work} {hosts : List String}
    (known : ∀ h ∈ hosts, ((c.registry.directory w).find? h).isSome) (o : Order) :
    (((c.registry.directory w).keys hosts).map fun key => (key, o)).map (fun e => (some e.1, e.2)) =
      (hosts.map fun h => (h, o)).map fun e => ((c.step x).coordinator.keyFor w e.1, e.2) := by
  have hKeys := congrArg (List.map fun key => (key, o)) (map_keys known)
  simp only [List.map_map] at hKeys ⊢
  simp only [Function.comp_def, keyFor_step hc quiet]
  exact hKeys

omit hc in
/-- Without a notice nobody is told to start again, so an event that ends a creation tells those
whom it releases. -/
theorem told_of_settled (quiet : ∀ w, x.arrival? w = none) {id : InstId} {i j : Instrumentation}
    (before : c.instrumentations.find? id = some i) (live : i.stage ≠ .failed)
    (after : (c.step x).coordinator.instrumentations.find? id = some j.settled)
    (same : j.stage = i.stage) (w : Work) :
    c.told x w id = (j.relieved w).map fun h => (h, .stop) := by
  have hLive : j.stage ≠ .failed := same ▸ live
  rw [told, before, after]
  by_cases hFails : j.fails = true
  · have hFailed := (Instrumentation.fails_iff_stage_settled hLive).mp hFails
    simp only [if_pos (And.intro live hFailed), Instrumentation.hosts_settled,
      Instrumentation.relieved, if_pos hFails]
  · have hGoesOn : ¬ (i.stage ≠ .failed ∧ j.settled.stage = .failed) := fun h =>
      hFails ((Instrumentation.fails_iff_stage_settled hLive).mpr h.2)
    simp only [if_neg hGoesOn, Instrumentation.relieved, if_neg hFails, recalled?, quiet w]
    rfl

/-- Who is relieved has been told, and who has been told is registered. -/
theorem known_of_relieved {id : InstId} {i j : Instrumentation}
    (found : c.instrumentations.find? id = some i) (sorted : j.instrumenterAcks.Ascending)
    (same : ∀ w h, (j.ackOf w h).isSome → (i.ackOf w h).isSome) (w : Work) :
    ∀ h ∈ j.relieved w, ((c.registry.directory w).find? h).isSome := by
  intro h hMem
  -- only participants are released, and they were so before their words changed
  obtain ⟨-, a, ha, -⟩ := (Instrumentation.mem_relieved sorted).mp hMem
  obtain ⟨a', ha'⟩ := Option.isSome_iff_exists.mp (same w h (by simp [ha]))
  exact (hc.fits id i found).known w h a' ha'

/-- The commands that go out upon a notice: its participant is recalled. -/
theorem ordersIn_step_of_arrival {e : Envelope Float} {now : Timestamp} {w' : Work}
    {r : AgentRecord} (arrives : e.arrival? now w' = some r)
    (others : ∀ w, w ≠ w' → e.arrival? now w = none) {catalog : Catalog}
    (handled : c.step (.receive e now) = c.welcome w' r catalog) (w : Work) (id : InstId) :
    (ordersIn (c.step (.receive e now)).sent w id).map (fun o => (some o.1, o.2)) =
      (c.told (.receive e now) w id).map fun o =>
        ((c.step (.receive e now)).coordinator.keyFor w o.1, o.2) := by
  have hKey : (c.step (.receive e now)).coordinator.keyFor w' r.hostname = some r.routingKey := by
    rw [keyFor, find?_directory_arrival hc.ascending hc.numbered (x := .receive e now) arrives]
    rfl
  have hAfter := c.find?_welcome w' r catalog id
  have hSent := ordersIn_welcome hc w' r catalog w id
  rw [← handled] at hAfter hSent
  rw [hSent, told, hAfter]
  cases hFind : c.instrumentations.find? id with
  | none => rfl
  | some i =>
    simp only [Option.map_some]
    -- a notice leaves the stage as it is, so nothing fails
    have hStage : ∀ b : Bool, ¬ (i.stage ≠ .failed ∧
        (if b = true then i.setAck .unknown w' r.hostname else i).stage = .failed) := by
      intro b
      cases b <;> simp [Instrumentation.stage_setAck]
    rw [if_neg (hStage _)]
    by_cases hw : w = w'
    · subst hw
      have hArrives : (Event.receive e now).arrival? w = some r := arrives
      rw [recalled?, hArrives]
      split
      · next hOwed => simp [Option.filter, hOwed, hKey]
      · next hOwed => simp [Option.filter, hOwed]
    · have hNone : (Event.receive e now).arrival? w = none := others w hw
      rw [recalled?, hNone]
      simp [hw]

/-- If nobody comes online in a step, it publishes exactly the orders that the change of the record
calls for. -/
theorem ordersIn_step_of_quiet (quiet : ∀ w, x.arrival? w = none) (w : Work) (id : InstId) :
    (ordersIn (c.step x).sent w id).map (fun o => (some o.1, o.2)) =
      (c.told x w id).map fun e => ((c.step x).coordinator.keyFor w e.1, e.2) := by
  have hChange := change_step hc x id
  generalize hBefore : c.instrumentations.find? id = before at hChange
  generalize hAfter : (c.step x).coordinator.instrumentations.find? id = after at hChange
  generalize hSent : (fun w => ordersIn (c.step x).sent w id) = orders at hChange
  rw [show ordersIn (c.step x).sent w id = orders w from congrFun hSent w]
  cases hChange with
  | rest =>
    rw [told, hBefore, hAfter]
    cases before with
    | none => rfl
    | some i => simp [recalled?, quiet w]
  | created chosen next =>
    rw [told, hBefore, hAfter]
    exact keyed_of_keys hc quiet (fun h => known_of_addressee chosen) _
  | removed i =>
    -- also instrumenters that do not take part are told, and these are known by definition
    rw [told, hBefore, hAfter]
    refine keyed_of_keys hc quiet (fun h hMem => ?_) _
    cases w with
    | instrumentation => exact Directory.mem_hostnames_iff.mp hMem
    | aggregation =>
      rw [List.mem_singleton.mp hMem]
      exact (hc.fits id i hBefore).known .aggregation i.aggregator _ (if_pos rfl)
  | @heard i e w' s error now message live unanswered =>
    have hAcks := (hc.fits id i hBefore).acks
    rw [told_of_settled quiet hBefore live hAfter (Instrumentation.stage_setAck i _ w' _)]
    refine keyed_of_keys hc quiet (known_of_relieved hc hBefore
      (Instrumentation.ascending_setAck hAcks _ _ _) (fun w h hSome => ?_) w) _
    rw [Instrumentation.ackOf_setAck hAcks _ (assigned_of_ackOf unanswered)] at hSome
    split at hSome
    · next hSame =>
      rw [hSame.1, hSame.2, unanswered]
      rfl
    · exact hSome
  | @expired i now late =>
    have hAcks := (hc.fits id i hBefore).acks
    have hLive : i.stage ≠ .failed := by
      rw [isExpired_iff] at late
      simp [late.1]
    rw [told_of_settled quiet hBefore hLive hAfter rfl]
    refine keyed_of_keys hc quiet (known_of_relieved hc hBefore
      (Instrumentation.ascending_timeOut hAcks) (fun w h hSome => ?_) w) _
    rw [Instrumentation.ackOf_timeOut, Option.isSome_map] at hSome
    exact hSome
  | @recalled i e now w' r arrives owed =>
    have hNone : e.arrival? now w' = none := quiet w'
    rw [hNone] at arrives
    cases arrives

/-- **What is published about an instrumentation.** One command for each host that is told
something, under the key by which the host is known afterwards, and no other. -/
theorem ordersIn_step (x : Event) (w : Work) (id : InstId) :
    (ordersIn (c.step x).sent w id).map (fun o => (some o.1, o.2)) =
      (c.told x w id).map fun e => ((c.step x).coordinator.keyFor w e.1, e.2) := by
  cases x with
  | create => exact ordersIn_step_of_quiet hc (fun _ => rfl) w id
  | delete => exact ordersIn_step_of_quiet hc (fun _ => rfl) w id
  | expire => exact ordersIn_step_of_quiet hc (fun _ => rfl) w id
  | receive e now =>
    rcases c.handle_cases e now with
      ⟨w', r, hSome, hOther, hHandle⟩ | ⟨w', id', s, error, hAck, -⟩ | ⟨hNone, -⟩
    · exact ordersIn_step_of_arrival hc hSome hOther hHandle w id
    · refine ordersIn_step_of_quiet hc (fun w'' => ?_) w id
      obtain ⟨source, hostname, m⟩ := e
      subst hAck
      exact arrival?_ack ..
    · exact ordersIn_step_of_quiet (x := .receive e now) hc hNone w id

end Step

/-! ## What one host is told -/

/-- What an event tells one host about an instrumentation. -/
def toldTo (c : Coordinator) (x : Event) (w : Work) (id : InstId) (h : String) : List Order :=
  ((c.told x w id).filter fun e => e.1 = h).map (·.2)

/-- What one host is told is what is told under its name. -/
theorem mem_toldTo {c : Coordinator} {x : Event} {w : Work} {id : InstId} {h : String}
    {o : Order} : o ∈ c.toldTo x w id h ↔ (h, o) ∈ c.told x w id := by
  simp only [toldTo, List.mem_map, List.mem_filter, decide_eq_true_eq]
  constructor
  · rintro ⟨⟨h', o'⟩, ⟨hMem, rfl⟩, rfl⟩
    exact hMem
  · exact fun hMem => ⟨(h, o), ⟨hMem, rfl⟩, rfl⟩

/-- If each host is told the same, one host is told it once or not at all. -/
theorem orders_of_hosts {hosts : List String} (distinct : hosts.Nodup) (o : Order) (h : String) :
    ((hosts.map fun h => (h, o)).filter fun e => e.1 = h).map (·.2) =
      if h ∈ hosts then [o] else [] := by
  induction hosts with
  | nil => rfl
  | cons h' rest ih =>
    obtain ⟨hHead, hRest⟩ := List.nodup_cons.mp distinct
    by_cases hh : h' = h
    · subst hh
      simpa [hHead] using ih hRest
    · simpa [hh, Ne.symm hh] using ih hRest

section Step

variable {c : Coordinator} (hc : c.Sound) {x : Event} {id : InstId} {i j : Instrumentation}

include hc

/-- **A creation that fails** tells those to stop, once, that have not failed themselves, also
those that are out of time. -/
theorem toldTo_of_failed (before : c.instrumentations.find? id = some i) (live : i.stage ≠ .failed)
    (after : (c.step x).coordinator.instrumentations.find? id = some j) (failed : j.stage = .failed)
    (w : Work) (h : String) :
    c.toldTo x w id h =
      match j.ackOf w h with
      | some a => if a = .failed then [] else [.stop]
      | none => [] := by
  have hAcks := ((sound_step hc x).fits id j after).acks
  have hTold : c.told x w id = (j.hosts (· ≠ .failed) w).map fun h => (h, .stop) := by
    rw [told, before, after]
    exact if_pos ⟨live, failed⟩
  rw [toldTo, hTold, orders_of_hosts (Instrumentation.hosts_nodup hAcks _ w)]
  simp only [Instrumentation.mem_hosts hAcks]
  cases j.ackOf w h with
  | none => simp
  | some a => by_cases ha : a = .failed <;> simp [ha]

omit hc in
/-- A deletion tells everybody to stop whom the coordinator would tell of a new record. -/
theorem toldTo_of_deleted (before : c.instrumentations.find? id = some i)
    (after : (c.step x).coordinator.instrumentations.find? id = none) (w : Work) (h : String) :
    c.toldTo x w id h = if h ∈ c.addressees i.aggregator w then [.stop] else [] := by
  have hTold : c.told x w id = (c.addressees i.aggregator w).map fun h => (h, .stop) := by
    rw [told, before, after]
  have hDistinct : (c.addressees i.aggregator w).Nodup := by
    cases w with
    | instrumentation => exact c.registry.instrumenters.distinct
    | aggregation => exact List.nodup_singleton _
  rw [toldTo, hTold, orders_of_hosts hDistinct]

/-- Who has a word in the record is among those that deleting it writes to. -/
theorem addressed_of_ackOf (found : c.instrumentations.find? id = some i) {w : Work} {h : String}
    {a : AckState} (word : i.ackOf w h = some a) : h ∈ c.addressees i.aggregator w := by
  cases w with
  | instrumentation =>
    exact Directory.mem_hostnames_iff.mpr ((hc.fits id i found).known .instrumentation h a word)
  | aggregation =>
    rw [← assigned_of_ackOf word rfl]
    exact List.mem_singleton_self _

omit hc in
/-- A notice is answered with a welcome. -/
theorem step_of_arrival {e : Envelope Float} {now : Timestamp} {w : Work} {r : AgentRecord}
    (arrives : e.arrival? now w = some r) :
    ∃ catalog, c.step (.receive e now) = c.welcome w r catalog := by
  rcases c.handle_cases e now with
    ⟨w', r', hSome, hOther, hHandle⟩ | ⟨w', id, s, error, hAck, -⟩ | ⟨hNone, -⟩
  · -- a notice announces a participant of one kind
    have hw : w = w' := by
      by_contra hw
      rw [hOther w hw] at arrives
      cases arrives
    subst hw
    obtain rfl : r = r' := Option.some.inj (arrives.symm.trans hSome)
    exact ⟨_, hHandle⟩
  · obtain ⟨source, hostname, m⟩ := e
    subst hAck
    rw [arrival?_ack] at arrives
    cases arrives
  · rw [hNone w] at arrives
    cases arrives

omit hc in
/-- If somebody who comes online is told to start again, the word that is left of before no longer
counts. -/
theorem setAck_of_recalled (before : c.instrumentations.find? id = some i)
    (after : (c.step x).coordinator.instrumentations.find? id = some j) {w : Work}
    {r : AgentRecord} (recalled : c.recalled? x w i = some r) :
    j = i.setAck .unknown w r.hostname := by
  obtain ⟨hArrives, hOwed⟩ := Option.filter_eq_some_iff.mp recalled
  cases x with
  | receive e now =>
    obtain ⟨catalog, hStep⟩ := c.step_of_arrival hArrives
    have hWelcome := c.find?_welcome w r catalog id
    rw [← hStep, after, before, Option.map_some, if_pos hOwed] at hWelcome
    exact Option.some.inj hWelcome
  | _ => cases hArrives

/-- Who is told to start takes part in a record that has not failed, and that is either new or
was there before and had not failed. -/
theorem record_of_start {w : Work} {h : String} {m : Message Float}
    (starts : .start m ∈ c.toldTo x w id h) :
    (∃ j, (c.step x).coordinator.instrumentations.find? id = some j ∧ j.stage ≠ .failed ∧
      (j.ackOf w h).isSome) ∧
    ((∃ i, c.instrumentations.find? id = some i ∧ i.stage ≠ .failed) ∨
      c.instrumentations.find? id = none ∧ id = c.nextId) := by
  have hMem : (h, .start m) ∈ c.told x w id := mem_toldTo.mp starts
  have hChange := change_step hc x id
  rw [told] at hMem
  generalize hBefore : c.instrumentations.find? id = before at hChange hMem
  generalize hAfter : (c.step x).coordinator.instrumentations.find? id = after at hChange hMem
  generalize (fun w => ordersIn (c.step x).sent w id) = orders at hChange
  cases before with
  | none =>
    cases after with
    | none => cases hMem
    | some j =>
      -- the record is new, and addresses whom it tells
      cases hChange with
      | @created s ticket now a chosen next =>
        obtain ⟨h', hAddressed, hSame⟩ := List.mem_map.mp hMem
        obtain rfl : h' = h := congrArg Prod.fst hSame
        refine ⟨⟨_, rfl, by simp [newRecord], ?_⟩, .inr ⟨rfl, next⟩⟩
        rw [ackOf_newRecord]
        exact Option.isSome_iff_exists.mpr ⟨_, if_pos hAddressed⟩
  | some i =>
    cases after with
    | none =>
      obtain ⟨h', -, hSame⟩ := List.mem_map.mp hMem
      cases congrArg Prod.snd hSame
    | some j =>
      dsimp only at hMem
      split at hMem
      · obtain ⟨h', -, hSame⟩ := List.mem_map.mp hMem
        cases congrArg Prod.snd hSame
      -- the record is owed to somebody who comes online
      obtain ⟨r, hRecalled, hSame⟩ := List.mem_map.mp hMem
      obtain rfl : r.hostname = h := congrArg Prod.fst hSame
      obtain ⟨hArrives, hOwed⟩ := Option.filter_eq_some_iff.mp (Option.mem_toList.mp hRecalled)
      have hLive := live_of_owes hOwed
      have hj := setAck_of_recalled hBefore hAfter (Option.mem_toList.mp hRecalled)
      have hAck := Instrumentation.ackOf_setAck (hc.fits id i hBefore).acks .unknown
        (assigned_of_owes hOwed) w r.hostname
      rw [if_pos ⟨rfl, rfl⟩] at hAck
      refine ⟨⟨j, rfl, ?_, ?_⟩, .inl ⟨i, rfl, hLive⟩⟩
      · rwa [hj, Instrumentation.stage_setAck]
      · rw [hj, hAck]
        rfl

/-- A participant remains one as long as the record exists. -/
theorem ackOf_isSome_step (before : c.instrumentations.find? id = some i)
    (after : (c.step x).coordinator.instrumentations.find? id = some j) {w : Work} {h : String}
    (participant : (i.ackOf w h).isSome) : (j.ackOf w h).isSome := by
  have hAcks := (hc.fits id i before).acks
  have hChange := change_step hc x id
  rw [before, after] at hChange
  generalize (fun w => ordersIn (c.step x).sent w id) = orders at hChange
  cases hChange with
  | rest => exact participant
  | heard message live unanswered =>
    rw [Instrumentation.ackOf_settled,
      Instrumentation.ackOf_setAck hAcks _ (assigned_of_ackOf unanswered)]
    split
    · rfl
    · exact participant
  | expired late =>
    rwa [Instrumentation.ackOf_settled, Instrumentation.ackOf_timeOut, Option.isSome_map]
  | recalled arrives owed =>
    rw [Instrumentation.ackOf_setAck hAcks _ (assigned_of_owes owed)]
    split
    · rfl
    · exact participant

end Step

/-! ## When an instrumentation is over -/

/-- An instrumentation is over when it has failed, or when its number has been given out and there
is no record of it. -/
def Over (c : Coordinator) (id : InstId) : Prop :=
  id < c.nextId ∧ ∀ i, c.instrumentations.find? id = some i → i.stage = .failed

section Over

variable {c : Coordinator} (hc : c.Sound) {x : Event} {id : InstId}

include hc

/-- A number that has been given out is not given out again. -/
theorem given_step (given : id < c.nextId) : id < (c.step x).coordinator.nextId := by
  rw [(frame_step hc x).2]
  exact Nat.lt_add_right _ given

/-- A number that has been given out gets no second record. -/
theorem find?_of_given (given : id < c.nextId) {j : Instrumentation}
    (after : (c.step x).coordinator.instrumentations.find? id = some j) :
    ∃ i, c.instrumentations.find? id = some i := by
  have hChange := change_step hc x id
  rw [after] at hChange
  generalize c.instrumentations.find? id = before at hChange
  generalize (fun w => ordersIn (c.step x).sent w id) = orders at hChange
  cases hChange with
  | rest => exact ⟨_, rfl⟩
  | created chosen next => exact absurd given (next ▸ Nat.lt_irrefl _)
  | heard => exact ⟨_, rfl⟩
  | expired => exact ⟨_, rfl⟩
  | recalled => exact ⟨_, rfl⟩

/-- What is over stays over, since a failed record does not recover and its number is not used
again. -/
theorem over_step (ended : c.Over id) : (c.step x).coordinator.Over id := by
  refine ⟨given_step hc ended.1, fun j hj => ?_⟩
  obtain ⟨i, hi⟩ := find?_of_given hc ended.1 hj
  have hFailed := ended.2 i hi
  -- a record that has failed is deleted or stays so
  rcases fixed_step hc (x := x) hi with ⟨-, hGone⟩ | ⟨j', hj', -, hSame | ⟨hCreating, -⟩⟩
  · exact absurd (hGone.symm.trans hj) (by simp)
  · obtain rfl : j = j' := Option.some.inj (hj.symm.trans hj')
    exact hSame.trans hFailed
  · rw [hFailed] at hCreating
    cases hCreating

/-- Nobody is told to start what is over. -/
theorem no_start_of_over (ended : c.Over id) {w : Work} {h : String} {m : Message Float} :
    .start m ∉ c.toldTo x w id h := by
  intro starts
  rcases (record_of_start hc starts).2 with ⟨i, hi, hLive⟩ | ⟨-, hNext⟩
  · exact hLive (ended.2 i hi)
  · exact absurd ended.1 (hNext ▸ Nat.lt_irrefl _)

/-- What is over is told to stop, or nothing at all. -/
theorem toldTo_of_over (ended : c.Over id) (w : Work) (h : String) :
    c.toldTo x w id h = [] ∨ c.toldTo x w id h = [.stop] := by
  cases hBefore : c.instrumentations.find? id with
  | none =>
    cases hAfter : (c.step x).coordinator.instrumentations.find? id with
    | none =>
      left
      rw [toldTo, told, hBefore, hAfter]
      rfl
    | some j =>
      obtain ⟨i, hi⟩ := find?_of_given hc ended.1 hAfter
      exact absurd (hBefore.symm.trans hi) (by simp)
  | some i =>
    have hFailed := ended.2 i hBefore
    cases hAfter : (c.step x).coordinator.instrumentations.find? id with
    | none =>
      rw [toldTo_of_deleted hBefore hAfter]
      split
      · exact .inr rfl
      · exact .inl rfl
    | some j =>
      -- a record that has failed is owed to nobody
      have hNobody : c.recalled? x w i = none :=
        Option.filter_eq_none_iff.mpr fun r _ hOwed => live_of_owes hOwed hFailed
      left
      rw [toldTo, told, hBefore, hAfter]
      simp [hFailed, hNobody]

end Over

/-! ## Whole histories -/

/-- In a history a host is told to start. -/
def ToldToStart (start : Coordinator) (history : List Event) (w : Work) (h : String)
    (id : InstId) : Prop :=
  ∃ before x after m, history = before ++ x :: after ∧
    .start m ∈ (start.run before).toldTo x w id h

/-- In a history a host is told to stop, under the key by which it is known, and told nothing
after that. -/
def StoppedLast (start : Coordinator) (history : List Event) (w : Work) (h : String)
    (id : InstId) : Prop :=
  ∃ before x after r, history = before ++ x :: after ∧
    (start.run before).toldTo x w id h = [.stop] ∧
    (((start.run before).step x).coordinator.registry.directory w).find? h = some r ∧
    (r.routingKey, .disable w id) ∈ ((start.run before).step x).sent ∧
    ∀ earlier y later, after = earlier ++ y :: later →
      (start.run (before ++ x :: earlier)).toldTo y w id h = []

/-- In a history a creation fails, and the record has it that a host failed. -/
def FailedItself (start : Coordinator) (history : List Event) (w : Work) (h : String)
    (id : InstId) : Prop :=
  ∃ before x after i j, history = before ++ x :: after ∧
    (start.run before).instrumentations.find? id = some i ∧ i.stage ≠ .failed ∧
    ((start.run before).step x).coordinator.instrumentations.find? id = some j ∧
    j.stage = .failed ∧ j.ackOf w h = some .failed

/-- In a history with one more event an event is the new one or an earlier one. -/
theorem split_concat {xs before after : List Event} {x y : Event}
    (split : xs ++ [x] = before ++ y :: after) :
    (after = [] ∧ before = xs ∧ y = x) ∨
      ∃ after', after = after' ++ [x] ∧ xs = before ++ y :: after' := by
  rcases List.eq_nil_or_concat after with rfl | ⟨after', z, rfl⟩
  · obtain ⟨hBefore, hy⟩ := List.append_inj' split rfl
    exact .inl ⟨rfl, hBefore.symm, (List.cons.inj hy).1.symm⟩
  · have hSplit : xs ++ [x] = (before ++ y :: after') ++ [z] := by simpa using split
    obtain ⟨hHistory, hx⟩ := List.append_inj' hSplit rfl
    obtain rfl : x = z := (List.cons.inj hx).1
    exact .inr ⟨after', by simp, hHistory⟩

section History

variable {start : Coordinator} {history : List Event} {x : Event} {w : Work} {h : String}
  {id : InstId}

/-- Who is told to start in a history is told so by its last event or was told before. -/
theorem ToldToStart.of_concat (told : ToldToStart start (history ++ [x]) w h id) :
    (∃ m, .start m ∈ (start.run history).toldTo x w id h) ∨ ToldToStart start history w h id := by
  obtain ⟨before, y, after, m, hSplit, hStart⟩ := told
  rcases split_concat hSplit with ⟨-, rfl, rfl⟩ | ⟨after', -, hHistory⟩
  · exact .inl ⟨m, hStart⟩
  · exact .inr ⟨before, y, after', m, hHistory, hStart⟩

/-- Who has failed stays accounted for, whatever happens later. -/
theorem FailedItself.concat (failed : FailedItself start history w h id) (x : Event) :
    FailedItself start (history ++ [x]) w h id := by
  obtain ⟨before, y, after, i, j, rfl, hRest⟩ := failed
  exact ⟨before, y, after ++ [x], i, j, by simp, hRest⟩

/-- Who was told to stop last still was if nothing more is told. -/
theorem StoppedLast.concat (stopped : StoppedLast start history w h id)
    (quiet : (start.run history).toldTo x w id h = []) :
    StoppedLast start (history ++ [x]) w h id := by
  obtain ⟨before, y, after, r, rfl, hStop, hFound, hSent, hSince⟩ := stopped
  refine ⟨before, y, after ++ [x], r, by simp, hStop, hFound, hSent, ?_⟩
  intro earlier z later hSplit
  rcases split_concat hSplit with ⟨-, rfl, rfl⟩ | ⟨later', -, hAfter⟩
  · exact quiet
  · exact hSince earlier z later' hAfter

/-- Who is told to stop is sent the command, under the key by which it is known. -/
theorem StoppedLast.of_stop (hc : (start.run history).Sound)
    (stop : (start.run history).toldTo x w id h = [.stop]) :
    StoppedLast start (history ++ [x]) w h id := by
  have hTold : (h, Order.stop) ∈ (start.run history).told x w id := by
    rw [← mem_toldTo, stop]
    exact List.mem_singleton_self _
  have hKeyed := List.mem_map_of_mem (f := fun o : String × Order =>
    (((start.run history).step x).coordinator.keyFor w o.1, o.2)) hTold
  rw [← ordersIn_step hc x w id] at hKeyed
  obtain ⟨⟨key, o⟩, hOrder, hSame⟩ := List.mem_map.mp hKeyed
  obtain ⟨hKey, rfl⟩ : some key = ((start.run history).step x).coordinator.keyFor w h ∧ o = .stop :=
    Prod.mk.inj hSame
  obtain ⟨r, hFound, hr⟩ := Option.map_eq_some_iff.mp hKey.symm
  obtain ⟨⟨key', m⟩, hSent, hm⟩ := List.mem_filterMap.mp hOrder
  obtain ⟨o', hm', hBoth⟩ := Option.map_eq_some_iff.mp hm
  obtain ⟨rfl, rfl⟩ : key' = key ∧ o' = .stop := Prod.mk.inj hBoth
  refine ⟨history, x, [], r, rfl, stop, hFound, ?_, fun earlier y later hSplit => ?_⟩
  · rw [hr, ← Message.order?_eq_stop hm']
    exact hSent
  · cases earlier <;> cases hSplit

end History

/-- Everybody told to start is accounted for: it takes part in the record as long as there is one,
and when the instrumentation is over, it has failed itself or was told to stop last. -/
structure Accounted (start : Coordinator) (history : List Event) (w : Work) (h : String)
    (id : InstId) : Prop where
  given : id < (start.run history).nextId
  participant : ∀ i, (start.run history).instrumentations.find? id = some i → (i.ackOf w h).isSome
  ended : (start.run history).Over id →
    FailedItself start history w h id ∨ StoppedLast start history w h id

section Accounted

variable {start : Coordinator} {history : List Event} {x : Event} {w : Work} {h : String}
  {id : InstId} (hc : (start.run history).Sound)

include hc

/-- Who has just been told to start takes part in a record that goes on. -/
theorem accounted_of_start {m : Message Float}
    (starts : .start m ∈ (start.run history).toldTo x w id h) :
    Accounted start (history ++ [x]) w h id := by
  obtain ⟨j, hj, hLive, hParticipant⟩ := (record_of_start hc starts).1
  have hFits := (sound_step hc x).fits id j hj
  rw [← run_concat] at hj hFits
  refine ⟨hFits.given, fun i hi => ?_, fun hOver => absurd (hOver.2 j hj) hLive⟩
  rwa [Option.some.inj (hi.symm.trans hj)]

/-- An instrumentation that has ended with this event told its participants so. -/
theorem stopped_of_ended (accounted : Accounted start history w h id)
    (live : ¬ (start.run history).Over id)
    (ended : ((start.run history).step x).coordinator.Over id) :
    FailedItself start (history ++ [x]) w h id ∨ StoppedLast start (history ++ [x]) w h id := by
  obtain ⟨i, hi, hLive⟩ : ∃ i, (start.run history).instrumentations.find? id = some i ∧
      i.stage ≠ .failed := by
    by_contra hNone
    refine live ⟨accounted.given, fun i hi => ?_⟩
    by_contra hLive
    exact hNone ⟨i, hi, hLive⟩
  have hParticipant := accounted.participant i hi
  cases hAfter : ((start.run history).step x).coordinator.instrumentations.find? id with
  | none =>
    -- the record was deleted
    obtain ⟨a, ha⟩ := Option.isSome_iff_exists.mp hParticipant
    have hStop := toldTo_of_deleted hi hAfter w h
    rw [if_pos (addressed_of_ackOf hc hi ha)] at hStop
    exact .inr (.of_stop hc hStop)
  | some j =>
    -- the creation failed
    have hFailed := ended.2 j hAfter
    have hStop := toldTo_of_failed hc hi hLive hAfter hFailed w h
    obtain ⟨a, ha⟩ := Option.isSome_iff_exists.mp (ackOf_isSome_step hc hi hAfter hParticipant)
    rw [ha] at hStop
    by_cases hSelf : a = .failed
    · exact .inl ⟨history, x, [], i, j, rfl, hi, hLive, hAfter, hFailed, hSelf ▸ ha⟩
    · exact .inr (.of_stop hc (hStop.trans (if_neg hSelf)))

/-- One more event leaves every host that was ever told to start accounted for. -/
theorem accounted_step (accounted : Accounted start history w h id) :
    Accounted start (history ++ [x]) w h id := by
  have hGiven := given_step hc (x := x) accounted.given
  refine ⟨?_, fun j hj => ?_, fun hOver => ?_⟩
  · rwa [run_concat]
  · rw [run_concat] at hj
    obtain ⟨i, hi⟩ := find?_of_given hc accounted.given hj
    exact ackOf_isSome_step hc hi hj (accounted.participant i hi)
  · rw [run_concat] at hOver
    by_cases hBefore : (start.run history).Over id
    · -- it was over already: at most one more command to stop goes out, when it is deleted
      rcases accounted.ended hBefore with hFailed | hStopped
      · exact .inl (hFailed.concat x)
      · rcases toldTo_of_over hc hBefore (x := x) w h with hQuiet | hStop
        · exact .inr (hStopped.concat hQuiet)
        · exact .inr (.of_stop hc hStop)
    · exact stopped_of_ended hc accounted hBefore hOver

end Accounted

/-- After every history everybody is accounted for who was told to start. -/
theorem accounted_run (keyBase : String) (ackTimeout : Nat) (history : List Event) {w : Work}
    {h : String} {id : InstId} (told : ToldToStart (.new keyBase ackTimeout) history w h id) :
    Accounted (.new keyBase ackTimeout) history w h id := by
  induction history using List.reverseRecOn with
  | nil =>
    obtain ⟨before, x, after, m, hSplit, -⟩ := told
    cases before <;> cases hSplit
  | append_singleton xs x ih =>
    have hc := sound_of_reachable ⟨keyBase, ackTimeout, xs, rfl⟩
    rcases told.of_concat with ⟨m, hStart⟩ | hEarlier
    · exact accounted_of_start hc hStart
    · exact accounted_step hc (ih hEarlier)

/-- What is over stays over in every history that follows. -/
theorem over_run {c : Coordinator} (hc : c.Sound) {id : InstId} (ended : c.Over id)
    (later : List Event) : (c.run later).Over id := by
  induction later generalizing c with
  | nil => exact ended
  | cons x rest ih => exact ih (sound_step hc x) (over_step hc ended)

/-- The number of a record is never given out again, even if the record goes. -/
theorem given_of_record {c : Coordinator} (hc : c.Sound) {id : InstId} {i : Instrumentation}
    (found : c.instrumentations.find? id = some i) (later : List Event) :
    id < (c.run later).nextId := by
  have hGiven := (hc.fits id i found).given
  clear found
  induction later generalizing c with
  | nil => exact hGiven
  | cons x rest ih => exact ih (sound_step hc x) (given_step hc hGiven)

/-- **Compensation is complete.** In every history, whatever the participants answer and whenever
they come back,

* an event publishes about an instrumentation one command for each host that is told something,
  under the key by which that host is known, and no other;
* when a creation fails, each of its participants is told to stop, once, unless the record has it
  that it failed, and nobody else is told anything;
* if the record of an instrumentation has failed or was deleted, everybody who was ever told to
  start had failed itself when the record failed, or was told to stop last, and nobody is told to
  start it in any future. -/
theorem compensation (keyBase : String) (ackTimeout : Nat) (history : List Event) (id : InstId) :
    let start := Coordinator.new keyBase ackTimeout
    let c := start.run history
    let record := c.instrumentations.find? id
    (∀ x w, (ordersIn (c.step x).sent w id).map (fun o => (some o.1, o.2)) =
      (c.told x w id).map fun o => ((c.step x).coordinator.keyFor w o.1, o.2)) ∧
    (∀ x i j, record = some i → i.stage ≠ .failed →
      (c.step x).coordinator.instrumentations.find? id = some j → j.stage = .failed →
      ∀ w h, c.toldTo x w id h =
        match j.ackOf w h with
        | some a => if a = .failed then [] else [.stop]
        | none => []) ∧
    ((∃ i, record = some i ∧ i.stage = .failed) ∨
        (record = none ∧ ∃ before after i, history = before ++ after ∧
          (start.run before).instrumentations.find? id = some i) →
      (∀ w h, ToldToStart start history w h id →
        FailedItself start history w h id ∨ StoppedLast start history w h id) ∧
      ∀ later y w key m,
        (key, .start m) ∉ ordersIn ((start.run (history ++ later)).step y).sent w id) := by
  intro start c record
  have hc : c.Sound := sound_of_reachable ⟨keyBase, ackTimeout, history, rfl⟩
  refine ⟨fun x w => ordersIn_step hc x w id, fun x i j hi hLive hj hFailed w h => ?_, fun hEnded => ?_⟩
  · exact toldTo_of_failed hc hi hLive hj hFailed w h
  -- failed or deleted, its number was given out once and there is no live record of it
  have hOver : c.Over id := by
    rcases hEnded with ⟨i, hi, hFailed⟩ | ⟨hNone, before, after, i, rfl, hi⟩
    · refine ⟨(hc.fits id i hi).given, fun j hj => ?_⟩
      rwa [Option.some.inj (hj.symm.trans hi)]
    · have hBefore : (start.run before).Sound :=
        sound_of_reachable ⟨keyBase, ackTimeout, before, rfl⟩
      refine ⟨?_, fun j hj => absurd (hj.symm.trans hNone) (by simp)⟩
      show id < (start.run (before ++ after)).nextId
      rw [run_append]
      exact given_of_record hBefore hi after
  refine ⟨fun w h hTold => (accounted_run keyBase ackTimeout history hTold).ended hOver, ?_⟩
  intro later y w key m hSent
  have hLater := over_run hc hOver later
  have hSound : (c.run later).Sound := sound_run hc later
  rw [run_append] at hSent
  -- a command to start is for some host, and nobody is told to start what is over
  have hKeyed := List.mem_map_of_mem (f := fun o : String × Order => (some o.1, o.2)) hSent
  rw [ordersIn_step hSound y w id] at hKeyed
  obtain ⟨⟨h, o⟩, hTold, hSame⟩ := List.mem_map.mp hKeyed
  obtain ⟨-, rfl⟩ : _ ∧ o = .start m := Prod.mk.inj hSame
  exact no_start_of_over hSound hLater (mem_toldTo.mpr hTold)

/-- In a brief history the instrumenter fails after the aggregator has started. The aggregator was
told to start, so its last command is to stop; the instrumenter was told too, and failed itself. -/
theorem compensation_brief :
    let heard := briefHistory ++
      [.receive ⟨"k.aggregator.g", "g", .ack .enable .aggregation 1 .enabled none⟩ ⟨1⟩]
    let last := .receive
      ⟨"k.instrumenter.h", "h", .ack .enable .instrumentation 1 .disabled none⟩ ⟨1⟩
    ((Coordinator.new "k" 3).run heard).toldTo last .aggregation 1 "g" = [.stop] ∧
      ((Coordinator.new "k" 3).run heard).toldTo last .instrumentation 1 "h" = [] ∧
      ToldToStart (.new "k" 3) (heard ++ [last]) .aggregation "g" 1 ∧
      (FailedItself (.new "k" 3) (heard ++ [last]) .aggregation "g" 1 ∨
        StoppedLast (.new "k" 3) (heard ++ [last]) .aggregation "g" 1) := by
  intro heard last
  have hStep := (compensation "k" 3 heard 1).2.1 last _ _ rfl (by decide) rfl (by decide)
  have hTold : ToldToStart (.new "k" 3) (heard ++ [last]) .aggregation "g" 1 :=
    ⟨briefHistory.take 2, _, _, _, rfl, List.mem_singleton_self _⟩
  have hEnded := (compensation "k" 3 (heard ++ [last]) 1).2.2 (.inl ⟨_, rfl, by decide⟩)
  exact ⟨hStep .aggregation "g", hStep .instrumentation "h", hTold, hEnded.1 _ _ hTold⟩

end Coordinator

end FleetMetrics
