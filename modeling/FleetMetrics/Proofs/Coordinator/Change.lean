import Mathlib
import FleetMetrics.Proofs.Coordinator.Ledger

/-!
# What one event does to one instrumentation

A step of the coordinator may touch many records at once: a notice recalls every instrumentation
of a host, the end of the waiting time ends several creations. Seen from one instrumentation there
are only six things that can happen, and `Change` lists them with all that goes with each: the
event, the record before and after, and what the participants of each kind are told about it.

`Sound` is what the records of a reachable coordinator have in common. It is derived from the
list, one case at a time.

Main results:

* `change_step` — every event does to every number one of the six things.
* `sound_of_reachable` — the records of every reachable coordinator are well-formed.
-/

namespace FleetMetrics

/-- In a list whose elements have different keys, only one element can contribute to the parts of
one key. -/
theorem flatMap_eq_of_unique {α β κ : Type} {key : α → κ} {g : α → List β} {xs : List α}
    (distinct : (xs.map key).Nodup) {x : α} (mem : x ∈ xs)
    (others : ∀ y ∈ xs, key y ≠ key x → g y = []) : xs.flatMap g = g x := by
  induction xs with
  | nil => simp at mem
  | cons y rest ih =>
    obtain ⟨hHead, hRest⟩ := List.nodup_cons.mp distinct
    rw [List.flatMap_cons]
    rcases List.mem_cons.mp mem with rfl | hMem
    · have hEmpty : rest.flatMap g = [] := by
        refine List.flatMap_eq_nil_iff.mpr fun z hz => ?_
        refine others z (List.mem_cons_of_mem _ hz) fun heq => hHead ?_
        rw [← heq]
        exact List.mem_map_of_mem hz
      rw [hEmpty, List.append_nil]
    · rw [ih hRest hMem fun z hz => others z (List.mem_cons_of_mem _ hz),
        others y List.mem_cons_self, List.nil_append]
      intro heq
      apply hHead
      rw [heq]
      exact List.mem_map_of_mem hMem

/-- Is an event an acknowledgement that a record waits for? -/
def Event.Counts (x : Event) (id : InstId) (record : Option Instrumentation) : Prop :=
  ∃ e now w s error i, x = .receive e now ∧ e.message = .ack .enable w id s error ∧
    record = some i ∧ i.stage ≠ .failed ∧ i.ackOf w e.hostname = some .unknown

/-- What is no acknowledgement of a command to start counts for no record. -/
theorem Event.not_counts_of_silent {x : Event} {id : InstId} {record : Option Instrumentation}
    (silent : ∀ e now, x = .receive e now → ∀ w s error, e.message ≠ .ack .enable w id s error) :
    ¬ x.Counts id record := by
  rintro ⟨e, now, w, s, error, i, hx, hMessage, -⟩
  exact silent e now hx w s error hMessage

namespace Coordinator

/-! ## Well-formed coordinators -/

/-- What is true of a record under a number, whatever has happened to the coordinator. -/
structure Fits (c : Coordinator) (id : InstId) (i : Instrumentation) : Prop where
  numbered : i.id = id
  /-- Numbers in use have been given out. -/
  given : id < c.nextId
  acks : i.instrumenterAcks.Ascending
  streamed : i.streamKey = c.streamKey id
  /-- Participants have been online. -/
  known : ∀ w h a, i.ackOf w h = some a → ((c.registry.directory w).find? h).isSome
  /-- Only in a creation that failed somebody is out of time. -/
  timely : i.stage ≠ .failed → ∀ w h, i.ackOf w h ≠ some .timedOut
  /-- A creation under way waits for somebody. -/
  waits : i.stage = .creating → i.waiting = true

/-- A coordinator whose records are in order and fit. -/
structure Sound (c : Coordinator) : Prop where
  ascending : c.instrumentations.Ascending
  fits : ∀ id i, c.instrumentations.find? id = some i → c.Fits id i

/-- A new coordinator has no records that could be wrong. -/
theorem sound_new (keyBase : String) (ackTimeout : Nat) :
    (Coordinator.new keyBase ackTimeout).Sound where
  ascending := Table.ascending_nil
  fits := by simp [Coordinator.new]

theorem Sound.numbered {c : Coordinator} (hc : c.Sound) (id : InstId) (i : Instrumentation)
    (found : c.instrumentations.find? id = some i) : i.id = id :=
  (hc.fits id i found).numbered

/-- The next number is free. -/
theorem Sound.free_next {c : Coordinator} (hc : c.Sound) :
    c.instrumentations.find? c.nextId = none := by
  cases hFind : c.instrumentations.find? c.nextId with
  | none => rfl
  | some i => exact absurd (hc.fits _ i hFind).given (Nat.lt_irrefl _)

/-- Different records have different numbers. -/
theorem Sound.ids_nodup {c : Coordinator} (hc : c.Sound) :
    (c.instrumentations.values.map (·.id)).Nodup :=
  Table.map_key_values hc.ascending hc.numbered ▸ Table.keys_nodup hc.ascending

theorem Sound.mem_values {c : Coordinator} (hc : c.Sound) {id : InstId} {i : Instrumentation}
    (found : c.instrumentations.find? id = some i) : i ∈ c.instrumentations.values :=
  (Table.mem_values_iff hc.ascending).mpr ⟨id, found⟩

/-- The record with a number is the only one of the list with it. -/
theorem Sound.eq_of_mem {c : Coordinator} (hc : c.Sound) {i : Instrumentation}
    (mem : i ∈ c.instrumentations.values) : c.instrumentations.find? i.id = some i := by
  obtain ⟨k, hk⟩ := (Table.mem_values_iff hc.ascending).mp mem
  rw [hc.numbered k i hk, hk]

/-- What is listed are the records. -/
theorem Sound.mem_list_iff {c : Coordinator} (hc : c.Sound) {s : Summary} :
    s ∈ c.list ↔ ∃ i, c.instrumentations.find? s.id = some i ∧
      s = ⟨i.id, i.spec, i.stage, 1 + i.spec.decomposition.length, c.statKind i.spec, i.streamKey,
        i.aggregator⟩ := by
  rw [list, List.mem_map]
  constructor
  · rintro ⟨i, hMem, rfl⟩
    exact ⟨i, hc.eq_of_mem hMem, rfl⟩
  · rintro ⟨i, hFound, hs⟩
    exact ⟨i, hc.mem_values hFound, hs.symm⟩

/-- Of the parts that the chosen records contribute to a number, there are those of its own record
alone. -/
theorem Sound.flatMap_filter {c : Coordinator} (hc : c.Sound) {β : Type} (id : InstId)
    (p : Instrumentation → Bool) (g : Instrumentation → List β) :
    ((c.instrumentations.values.filter p).flatMap fun i => if i.id = id then g i else []) =
      match c.instrumentations.find? id with
      | some i => if p i then g i else []
      | none => [] := by
  have hChosen : ∀ i ∈ c.instrumentations.values.filter p, i.id = id →
      c.instrumentations.find? id = some i ∧ p i = true := by
    rintro i hi rfl
    obtain ⟨hMem, hp⟩ := List.mem_filter.mp hi
    exact ⟨hc.eq_of_mem hMem, hp⟩
  cases hFind : c.instrumentations.find? id with
  | none =>
    refine List.flatMap_eq_nil_iff.mpr fun i hi => if_neg fun hId => ?_
    rw [hFind] at hChosen
    cases (hChosen i hi hId).1
  | some i =>
    have hId : i.id = id := hc.numbered id i hFind
    by_cases hp : p i = true
    · have hMem : i ∈ c.instrumentations.values.filter p :=
        List.mem_filter.mpr ⟨hc.mem_values hFind, hp⟩
      have hDistinct : ((c.instrumentations.values.filter p).map (·.id)).Nodup :=
        List.Nodup.sublist (List.Sublist.map _ List.filter_sublist) hc.ids_nodup
      -- numbers are distinct, so no other record contributes
      rw [flatMap_eq_of_unique hDistinct hMem, if_pos hId]
      · exact (if_pos hp).symm
      · exact fun j _ hj => if_neg fun h => hj (h.trans hId.symm)
    · dsimp only
      rw [if_neg hp]
      refine List.flatMap_eq_nil_iff.mpr fun j hj => if_neg fun hId' => hp ?_
      obtain ⟨hFind', hp'⟩ := hChosen j hj hId'
      rw [hFind] at hFind'
      rwa [Option.some.inj hFind']

/-! ## The six changes -/

/-- What an event can do to the record with a number, and what it tells the participants of each
kind about it. -/
inductive Change (c : Coordinator) (id : InstId) :
    Event → Option Instrumentation → Option Instrumentation → (Work → List (String × Order)) →
      Prop where
  /-- Nothing, and nobody was waited for. -/
  | rest {x : Event} {record : Option Instrumentation} (unheard : ¬ x.Counts id record) :
      Change c id x record record fun _ => []
  /-- A request is accepted, and the number is given to it. -/
  | created {s : Spec} {ticket : Ticket} {now : Nat} {a : AgentRecord}
      (chosen : c.chosen? s = some a) (next : id = c.nextId) :
      Change c id (.create s ticket now) none (some (c.newRecord s ticket now a.hostname)) fun w =>
        ((c.registry.directory w).keys (c.addressees a.hostname w)).map fun key =>
          (key, .start ((c.newRecord s ticket now a.hostname).command w))
  /-- The instrumentation is deleted. -/
  | removed (i : Instrumentation) :
      Change c id (.delete id) (some i) none fun w =>
        ((c.registry.directory w).keys (c.addressees i.aggregator w)).map fun key => (key, .stop)
  /-- A participant acknowledges for the first time since it was told to start. -/
  | heard {i : Instrumentation} {e : Envelope Float} {w : Work} {s : AckStatus}
      {error : Option String} {now : Timestamp} (message : e.message = .ack .enable w id s error)
      (live : i.stage ≠ .failed) (unanswered : i.ackOf w e.hostname = some .unknown) :
      Change c id (.receive e now) (some i) (some (i.setAck (ackState s) w e.hostname).settled)
        fun w' =>
          ((c.registry.directory w').keys ((i.setAck (ackState s) w e.hostname).relieved w')).map
            fun key => (key, .stop)
  /-- The creation is out of time. -/
  | expired {i : Instrumentation} {now : Nat} (late : isExpired now i = true) :
      Change c id (.expire now) (some i) (some i.timeOut.settled) fun w =>
        ((c.registry.directory w).keys (i.timeOut.relieved w)).map fun key => (key, .stop)
  /-- A participant comes online and is told to start. -/
  | recalled {i : Instrumentation} {e : Envelope Float} {now : Timestamp} {w : Work}
      {r : AgentRecord} (arrives : e.arrival? now w = some r)
      (owed : owes w r.hostname (Registry.outcome (c.registry.directory w) r.hostname) i = true) :
      Change c id (.receive e now) (some i) (some (i.setAck .unknown w r.hostname)) fun w' =>
        if w' = w then [(r.routingKey, .start (i.command w))] else []

/-- Creating makes a new record, if the request is accepted, and changes no other. -/
theorem change_create {c : Coordinator} (hc : c.Sound) (id : InstId) (s : Spec) (ticket : Ticket)
    (now : Nat) :
    Change c id (.create s ticket now) (c.instrumentations.find? id)
      ((c.create s ticket now).coordinator.instrumentations.find? id)
      fun w => ordersIn (c.create s ticket now).sent w id := by
  rcases c.create_eq s ticket now with ⟨-, e, hCreate⟩ | ⟨a, hSome, hCreate⟩
  · rw [hCreate]
    exact .rest (Event.not_counts_of_silent fun _ _ h => by cases h)
  rw [hCreate, c.launch_eq s ticket now (find?_of_chosen? hSome)]
  have hFind : ∀ id, ((c.instrumentations.insert c.nextId
      (c.newRecord s ticket now a.hostname)).find? id) =
        if id = c.nextId then some (c.newRecord s ticket now a.hostname)
        else c.instrumentations.find? id := fun id => Table.find?_insert hc.ascending _ _ _
  -- only the new number is told of, the aggregator first
  have hSent : ∀ w, ordersIn
      (toHosts c.registry.aggregators (c.addressees a.hostname .aggregation)
          ((c.newRecord s ticket now a.hostname).command .aggregation) ++
        toHosts c.registry.instrumenters (c.addressees a.hostname .instrumentation)
          ((c.newRecord s ticket now a.hostname).command .instrumentation)) w id =
        if c.nextId = id then
          ((c.registry.directory w).keys (c.addressees a.hostname w)).map fun key =>
            (key, .start ((c.newRecord s ticket now a.hostname).command w))
        else [] := by
    intro w
    rw [ordersIn_append, ordersIn_toHosts, ordersIn_toHosts, Instrumentation.order?_command,
      Instrumentation.order?_command]
    by_cases hId : c.nextId = id <;> cases w <;> simp [newRecord, hId, Registry.directory]
  simp only [store, hSent]
  rw [show (c.newRecord s ticket now a.hostname).id = c.nextId from rfl]
  show Change c id _ _ ((c.instrumentations.insert c.nextId _).find? id) _
  rw [hFind]
  by_cases hId : id = c.nextId
  · subst hId
    simp only [hc.free_next, if_true]
    exact .created hSome rfl
  · simp only [if_neg hId, if_neg (Ne.symm hId)]
    exact .rest (Event.not_counts_of_silent fun _ _ h => by cases h)

/-- Deleting removes a record and has its participants stop. -/
theorem change_delete (c : Coordinator) (id id' : InstId) :
    Change c id (.delete id') (c.instrumentations.find? id)
      ((c.step (.delete id')).coordinator.instrumentations.find? id)
      fun w => ordersIn (c.step (.delete id')).sent w id := by
  simp only [step]
  cases hFind : c.instrumentations.find? id' with
  | none =>
    simp only [c.delete_unknown hFind]
    exact .rest (Event.not_counts_of_silent fun _ _ h => by cases h)
  | some i =>
    obtain ⟨t, hDelete, hAfter, -, -, hSent⟩ := c.delete_eq hFind
    simp only [hDelete, hAfter, hSent]
    rw [Table.find?_erase]
    by_cases hId : id = id'
    · subst hId
      simp only [hFind, if_true]
      exact .removed i
    · simp only [if_neg hId, if_neg (Ne.symm hId)]
      exact .rest (Event.not_counts_of_silent fun _ _ h => by cases h)

/-- The sweep fails the records whose time is up, and changes no other. -/
theorem change_expire {c : Coordinator} (hc : c.Sound) (id : InstId) (now : Nat) :
    Change c id (.expire now) (c.instrumentations.find? id)
      ((c.expire now).coordinator.instrumentations.find? id)
      fun w => ordersIn (c.expire now).sent w id := by
  -- of all stops that are sent, those about one number come from its record
  have hSent : ∀ w,
      ordersIn ((c.expired now).flatMap fun i => c.stops i.id i.timeOut.relieved) w id =
      match c.instrumentations.find? id with
      | some i =>
        if isExpired now i then
          ((c.registry.directory w).keys (i.timeOut.relieved w)).map fun key => (key, .stop)
        else []
      | none => [] := by
    intro w
    rw [← hc.flatMap_filter id (isExpired now) fun i =>
      ((c.registry.directory w).keys (i.timeOut.relieved w)).map fun key => (key, Order.stop)]
    rw [ordersIn, List.filterMap_flatMap]
    congr 1
    funext i
    exact c.ordersIn_stops id i.id i.timeOut.relieved w
  rw [c.expire_eq now hc.ascending hc.numbered]
  simp only [hSent, changeWhere, Table.find?_mapValues]
  cases hFind : c.instrumentations.find? id with
  | none => exact .rest (Event.not_counts_of_silent fun _ _ h => by cases h)
  | some i =>
    by_cases hLate : isExpired now i = true
    · simp only [Option.map_some, hLate, if_true]
      exact .expired hLate
    · simp only [Option.map_some, if_neg hLate]
      exact .rest (Event.not_counts_of_silent fun _ _ h => by cases h)

/-- A notice changes the records that its participant is owed. -/
theorem find?_welcome (c : Coordinator) (w : Work) (r : AgentRecord) (catalog : Catalog)
    (id : InstId) :
    (c.welcome w r catalog).coordinator.instrumentations.find? id =
      (c.instrumentations.find? id).map fun i =>
        if owes w r.hostname (Registry.outcome (c.registry.directory w) r.hostname) i then
          i.setAck .unknown w r.hostname
        else i :=
  Table.find?_mapValues c.instrumentations (fun _ i =>
    if owes w r.hostname (Registry.outcome (c.registry.directory w) r.hostname) i then
      i.setAck .unknown w r.hostname
    else i) id

/-- A notice has its participant told to start, if it is owed the instrumentation. -/
theorem ordersIn_welcome {c : Coordinator} (hc : c.Sound) (w : Work) (r : AgentRecord)
    (catalog : Catalog) (w' : Work) (id : InstId) :
    ordersIn (c.welcome w r catalog).sent w' id =
      match c.instrumentations.find? id with
      | some i =>
        if owes w r.hostname (Registry.outcome (c.registry.directory w) r.hostname) i then
          (if w' = w then [(r.routingKey, .start (i.command w))] else [])
        else []
      | none => [] := by
  simp only [welcome]
  generalize owes w r.hostname
    (Registry.outcome (c.registry.directory w) r.hostname) = owed
  rw [← hc.flatMap_filter id owed fun i =>
    if w' = w then [(r.routingKey, Order.start (i.command w))] else []]
  rw [ordersIn, List.filterMap_map, List.filterMap_eq_flatMap_toList]
  congr 1
  funext i
  rw [Function.comp_apply, Instrumentation.order?_command]
  by_cases hId : i.id = id <;> by_cases hw : w' = w
  · simp [hId, hw]
  · simp [hw, Ne.symm hw]
  · simp [hId]
  · simp [hId]

/-- An agent that comes online is told again what it has to do, and its words are open again. -/
theorem change_welcome {c : Coordinator} (hc : c.Sound) (id : InstId) {e : Envelope Float}
    {now : Timestamp} {w : Work} {r : AgentRecord} (arrives : e.arrival? now w = some r)
    (catalog : Catalog) :
    Change c id (.receive e now) (c.instrumentations.find? id)
      ((c.welcome w r catalog).coordinator.instrumentations.find? id)
      fun w' => ordersIn (c.welcome w r catalog).sent w' id := by
  -- what announces a participant acknowledges nothing
  have hSilent : ∀ e' now', Event.receive e now = .receive e' now' → ∀ w s error,
      e'.message ≠ .ack .enable w id s error := by
    rintro e' now' hx w' s error hAck
    cases hx
    obtain ⟨source, hostname, m⟩ := e
    subst hAck
    rw [arrival?_ack] at arrives
    cases arrives
  simp only [ordersIn_welcome hc, find?_welcome]
  cases hFind : c.instrumentations.find? id with
  | none => exact .rest (Event.not_counts_of_silent hSilent)
  | some i =>
    by_cases hOwed : owes w r.hostname
        (Registry.outcome (c.registry.directory w) r.hostname) i = true
    · simp only [Option.map_some, hOwed, if_true]
      exact .recalled arrives hOwed
    · simp only [Option.map_some, if_neg hOwed]
      exact .rest (Event.not_counts_of_silent hSilent)

/-- A word is entered in one record if it counts there, and changes no other. -/
theorem change_acknowledge {c : Coordinator} (hc : c.Sound) (id : InstId) {e : Envelope Float}
    {now : Timestamp} {w : Work} {id' : InstId} {s : AckStatus} {error : Option String}
    (message : e.message = .ack .enable w id' s error) :
    Change c id (.receive e now) (c.instrumentations.find? id)
      ((c.acknowledge w e.hostname id' s).coordinator.instrumentations.find? id)
      fun w' => ordersIn (c.acknowledge w e.hostname id' s).sent w' id := by
  cases hHeard : c.heard? w e.hostname id' with
  | none =>
    rw [acknowledge_unheard hHeard]
    refine .rest ?_
    -- a word that counts would have been heard
    rintro ⟨e', now', w', s', error', i, hx, hMessage, hFind, hLive, hAck⟩
    cases hx
    rw [message] at hMessage
    cases hMessage
    have hSome : c.heard? w e.hostname id = some i := heard?_eq_some.mpr ⟨hFind, hLive, hAck⟩
    rw [hHeard] at hSome
    cases hSome
  | some i =>
    obtain ⟨hFind, hLive, hAck⟩ := heard?_eq_some.mp hHeard
    have hId : (i.setAck (ackState s) w e.hostname).settled.id = id' := by
      have hFixed := (Instrumentation.fixed_settled _).trans
        (Instrumentation.fixed_setAck i (ackState s) w e.hostname)
      exact (congrArg (·.1) hFixed).trans (hc.numbered id' i hFind)
    rw [acknowledge_heard hc.ascending hc.numbered hHeard]
    simp only [ordersIn_stops]
    show Change c id _ _ ((c.instrumentations.insert _ _).find? id) _
    rw [hId, Table.find?_insert hc.ascending]
    -- only the record that the word is about changes
    by_cases h : id = id'
    · subst h
      simp only [hFind, if_true]
      exact .heard message hLive hAck
    · simp only [if_neg h, if_neg (Ne.symm h)]
      refine .rest (Event.not_counts_of_silent fun e' now' hx w' s' error' hMessage => h ?_)
      cases hx
      rw [message] at hMessage
      cases hMessage
      rfl

/-- **Every event does to every number one of six things.** -/
theorem change_step {c : Coordinator} (hc : c.Sound) (x : Event) (id : InstId) :
    Change c id x (c.instrumentations.find? id) ((c.step x).coordinator.instrumentations.find? id)
      fun w => ordersIn (c.step x).sent w id := by
  cases x with
  | create s ticket now => exact change_create hc id s ticket now
  | delete id' => exact c.change_delete id id'
  | expire now => exact change_expire hc id now
  | receive e now =>
    show Change c id _ _ ((c.handle e now).coordinator.instrumentations.find? id)
      fun w => ordersIn (c.handle e now).sent w id
    rcases c.handle_cases e now with
      ⟨w', r, hSome, -, hHandle⟩ | ⟨w', id', s, error, hAck, hHandle⟩ |
      ⟨-, hNoAck, replies, hHandle, hReplies⟩
    · rw [hHandle]
      exact change_welcome hc id hSome _
    · rw [hHandle]
      exact change_acknowledge hc id hAck
    · rw [hHandle]
      simp only [ordersIn_of_inert hReplies]
      refine .rest (Event.not_counts_of_silent fun e' now' hx w s error => ?_)
      cases hx
      exact hNoAck w id s error

/-! ## Every reachable coordinator is well-formed -/

/-- The aggregator's word is that of the host it is assigned to. -/
theorem assigned_of_ackOf {i : Instrumentation} {w : Work} {h : String} {a : AckState}
    (told : i.ackOf w h = some a) : w = .aggregation → i.aggregator = h := by
  rintro rfl
  simp only [Instrumentation.ackOf] at told
  split at told
  · assumption
  · cases told

/-- An aggregator is told of the instrumentations that are assigned to it, and of no others. -/
theorem assigned_of_owes {i : Instrumentation} {w : Work} {h : String} {o : OnlineOutcome}
    (owed : owes w h o i = true) : w = .aggregation → i.aggregator = h := by
  rintro rfl
  simp only [owes, owesAggregator, Bool.and_eq_true, decide_eq_true_eq] at owed
  exact owed.2.1.2

/-- Nobody is told of an instrumentation that has failed. -/
theorem live_of_owes {i : Instrumentation} {w : Work} {h : String} {o : OnlineOutcome}
    (owed : owes w h o i = true) : i.stage ≠ .failed := by
  cases w with
  | instrumentation =>
    intro hFailed
    cases o <;> simp [owes, owesInstrumenter, hFailed] at owed
  | aggregation =>
    simp only [owes, owesAggregator, Bool.and_eq_true, decide_eq_true_eq] at owed
    exact owed.2.1.1

/-- A new record addresses everybody who is told, and nobody has answered. -/
theorem ackOf_newRecord (c : Coordinator) (s : Spec) (ticket : Ticket) (now : Nat) (a : String)
    (w : Work) (h : String) :
    (c.newRecord s ticket now a).ackOf w h =
      if h ∈ c.addressees a w then some .unknown else none := by
  cases w with
  | instrumentation =>
    rw [← Table.find?_ofList_const]
    simp only [addressees, List.map_map]
    rfl
  | aggregation =>
    show (if a = h then some AckState.unknown else none) = _
    by_cases ha : a = h
    · simp [addressees, ha]
    · simp [addressees, ha, Ne.symm ha]

/-- Everybody who is told is known. -/
theorem known_of_addressee {c : Coordinator} {s : Spec} {a : AgentRecord}
    (chosen : c.chosen? s = some a) {w : Work} {h : String}
    (addressed : h ∈ c.addressees a.hostname w) : ((c.registry.directory w).find? h).isSome := by
  cases w with
  | instrumentation => exact Directory.mem_hostnames_iff.mp addressed
  | aggregation =>
    rw [List.mem_singleton.mp addressed, Registry.directory, find?_of_chosen? chosen]
    rfl

/-- The records stay in the order of their numbers. -/
theorem ascending_step {c : Coordinator} (hc : c.Sound) (x : Event) :
    (c.step x).coordinator.instrumentations.Ascending := by
  have hChange : ∀ (p : Instrumentation → Bool) f, (changeWhere p f c.instrumentations).Ascending :=
    fun p f => Table.ascending_mapValues hc.ascending fun _ i => if p i then f i else i
  have hTurn := c.responds_step hc.ascending hc.numbered x
  generalize c.step x = t at hTurn
  cases hTurn with
  | refused | missing | unheard | silent => exact hc.ascending
  | launched | heard => exact Table.ascending_insert hc.ascending _ _
  | deleted found after => exact after ▸ Table.ascending_erase hc.ascending _
  | swept => exact hChange (isExpired _) (·.timeOut.settled)
  | @welcomed e now w r =>
    exact hChange (owes w r.hostname (Registry.outcome (c.registry.directory w) r.hostname))
      (·.setAck .unknown w r.hostname)

/-- Is a request accepted by an event? -/
def accepts (c : Coordinator) : Event → Bool
  | .create s _ _ => (c.chosen? s).isSome
  | _ => false

/-- What no event touches, and the numbers, which are given out one by one. -/
theorem frame_step {c : Coordinator} (hc : c.Sound) (x : Event) :
    (c.step x).coordinator.keyBase = c.keyBase ∧
      (c.step x).coordinator.nextId = c.nextId + if c.accepts x then 1 else 0 := by
  have hTurn := c.responds_step hc.ascending hc.numbered x
  generalize c.step x = t at hTurn
  cases hTurn with
  | refused unplaced => exact ⟨rfl, by simp [accepts, unplaced]⟩
  | launched chosen =>
    refine ⟨rfl, ?_⟩
    simp only [accepts, chosen]
    rfl
  | deleted found after => exact after ▸ ⟨rfl, rfl⟩
  | @welcomed e now w => cases w <;> exact ⟨rfl, rfl⟩
  | missing | swept | unheard | heard | silent => exact ⟨rfl, rfl⟩

/-- A creation that is out of time fails, for it waited for somebody. -/
theorem fails_timeOut {c : Coordinator} {id : InstId} {i : Instrumentation} (hi : c.Fits id i)
    (creating : i.stage = .creating) : i.timeOut.fails = true := by
  -- a creation under way waits for somebody, who is out of time now
  obtain ⟨w, h, hUnknown⟩ := (Instrumentation.waiting_iff hi.acks).mp (hi.waits creating)
  have hLate : i.timeOut.ackOf w h = some .timedOut := by
    rw [Instrumentation.ackOf_timeOut, hUnknown]
    rfl
  rw [Instrumentation.fails, Instrumentation.isDecided_timeOut hi.acks creating, Bool.true_and,
    Option.isSome_iff_ne_none, Ne,
    Instrumentation.failure?_eq_none_iff (Instrumentation.ascending_timeOut hi.acks)]
  intro hNone
  cases hNone w h _ hLate

section Fits

variable {c : Coordinator} (hc : c.Sound)

include hc

/-- What a record owes to the coordinator outlives every event. -/
theorem frame_fits {id : InstId} {i : Instrumentation} (hi : c.Fits id i) (x : Event) :
    id < (c.step x).coordinator.nextId ∧ i.streamKey = (c.step x).coordinator.streamKey id ∧
      ∀ w h a, i.ackOf w h = some a →
        (((c.step x).coordinator.registry.directory w).find? h).isSome := by
  obtain ⟨hBase, hNext⟩ := frame_step hc x
  refine ⟨?_, ?_, fun w h a hAck => ?_⟩
  · rw [hNext]
    exact Nat.lt_add_right _ hi.given
  · rw [hi.streamed, streamKey, streamKey, hBase]
  · exact known_step hc.ascending hc.numbered x w h (.inl (hi.known w h a hAck))

/-- A new record fits. -/
theorem fits_created {s : Spec} {ticket : Ticket} {now : Nat} {a : AgentRecord}
    (chosen : c.chosen? s = some a) :
    (c.step (.create s ticket now)).coordinator.Fits c.nextId
      (c.newRecord s ticket now a.hostname) := by
  obtain ⟨hBase, hNext⟩ := frame_step hc (.create s ticket now)
  have hAscending : (c.newRecord s ticket now a.hostname).instrumenterAcks.Ascending :=
    Table.ascending_ofList _
  refine ⟨rfl, ?_, hAscending, ?_, ?_, ?_, ?_⟩
  · rw [hNext]
    simp [accepts, chosen]
  · rw [streamKey, hBase]
    rfl
  · intro w h _ hAck
    refine known_step hc.ascending hc.numbered _ w h (.inl ?_)
    rw [ackOf_newRecord] at hAck
    split at hAck
    · next hMem => exact known_of_addressee chosen hMem
    · cases hAck
  · intro _ w h
    rw [ackOf_newRecord]
    split <;> simp
  · intro _
    refine (Instrumentation.waiting_iff hAscending).mpr ⟨.aggregation, a.hostname, ?_⟩
    rw [ackOf_newRecord]
    exact if_pos (List.mem_singleton_self _)

/-- A record fits after a participant was heard. -/
theorem fits_heard {id : InstId} {i : Instrumentation} (hi : c.Fits id i) {w : Work} {h : String}
    (s : AckStatus) (live : i.stage ≠ .failed) (unanswered : i.ackOf w h = some .unknown)
    (x : Event) : (c.step x).coordinator.Fits id (i.setAck (ackState s) w h).settled := by
  obtain ⟨hGiven, hStream, hKnown⟩ := frame_fits hc hi x
  have hFixed := (Instrumentation.fixed_settled _).trans
    (Instrumentation.fixed_setAck i (ackState s) w h)
  have hAck := fun w' h' => (Instrumentation.ackOf_settled _ w' h').trans
    (Instrumentation.ackOf_setAck hi.acks (ackState s) (assigned_of_ackOf unanswered) w' h')
  refine ⟨?_, hGiven, ?_, ?_, ?_, ?_, Instrumentation.waiting_settled⟩
  · exact (congrArg (·.1) hFixed).trans hi.numbered
  · rw [Instrumentation.instrumenterAcks_settled]
    exact Instrumentation.ascending_setAck hi.acks _ _ _
  · exact (congrArg (·.2.2.1) hFixed).trans hStream
  · intro w' h' a ha
    rw [hAck] at ha
    split at ha
    · next hSame =>
      rw [hSame.1, hSame.2]
      exact hKnown w h _ unanswered
    · exact hKnown w' h' a ha
  · intro _ w' h'
    rw [hAck]
    split
    · cases hs : s.isEnabled <;> simp [ackState, hs]
    · exact hi.timely live w' h'

/-- A record fits after its time is up. -/
theorem fits_expired {id : InstId} {i : Instrumentation} (hi : c.Fits id i)
    (creating : i.stage = .creating) (x : Event) :
    (c.step x).coordinator.Fits id i.timeOut.settled := by
  obtain ⟨hGiven, hStream, hKnown⟩ := frame_fits hc hi x
  have hFixed := (Instrumentation.fixed_settled _).trans (Instrumentation.fixed_timeOut i)
  have hAck := fun w h => (Instrumentation.ackOf_settled _ w h).trans
    (Instrumentation.ackOf_timeOut i w h)
  have hFails : i.timeOut.settled.stage = .failed :=
    (Instrumentation.fails_iff_stage_settled (by simp [Instrumentation.timeOut, creating])).mp
      (fails_timeOut hi creating)
  refine ⟨?_, hGiven, ?_, ?_, ?_, ?_, Instrumentation.waiting_settled⟩
  · exact (congrArg (·.1) hFixed).trans hi.numbered
  · rw [Instrumentation.instrumenterAcks_settled]
    exact Instrumentation.ascending_timeOut hi.acks
  · exact (congrArg (·.2.2.1) hFixed).trans hStream
  · intro w h a ha
    rw [hAck] at ha
    obtain ⟨a', ha', -⟩ := Option.map_eq_some_iff.mp ha
    exact hKnown w h a' ha'
  · exact fun hLive => absurd hFails hLive

/-- A record fits after a participant was told again. -/
theorem fits_recalled {id : InstId} {i : Instrumentation} (hi : c.Fits id i) {e : Envelope Float}
    {now : Timestamp} {w : Work} {r : AgentRecord} (arrives : e.arrival? now w = some r)
    (owed : owes w r.hostname (Registry.outcome (c.registry.directory w) r.hostname) i = true) :
    (c.step (.receive e now)).coordinator.Fits id (i.setAck .unknown w r.hostname) := by
  obtain ⟨hGiven, hStream, hKnown⟩ := frame_fits hc hi (.receive e now)
  have hFixed := Instrumentation.fixed_setAck i .unknown w r.hostname
  have hAck := Instrumentation.ackOf_setAck hi.acks .unknown (assigned_of_owes owed)
  refine ⟨?_, hGiven, Instrumentation.ascending_setAck hi.acks _ _ _, ?_, ?_, ?_, ?_⟩
  · exact (congrArg (·.1) hFixed).trans hi.numbered
  · exact (congrArg (·.2.2.1) hFixed).trans hStream
  · intro w' h' a ha
    rw [hAck] at ha
    split at ha
    · next hSame =>
      -- the host whose word is open again has just been registered
      refine known_step hc.ascending hc.numbered _ w' h' (.inr ⟨r, ?_, hSame.2.symm⟩)
      rw [hSame.1]
      exact arrives
    · exact hKnown w' h' a ha
  · intro _ w' h'
    rw [hAck]
    split
    · simp
    · exact hi.timely (live_of_owes owed) w' h'
  · intro _
    refine (Instrumentation.waiting_iff (Instrumentation.ascending_setAck hi.acks _ _ _)).mpr
      ⟨w, r.hostname, ?_⟩
    rw [hAck, if_pos ⟨rfl, rfl⟩]

/-- Records that fit keep fitting. -/
theorem sound_step (x : Event) : (c.step x).coordinator.Sound := by
  refine ⟨ascending_step hc x, fun id j hAfter => ?_⟩
  have hChange := change_step hc x id
  have hFits := hc.fits id
  generalize c.instrumentations.find? id = before at hChange hFits
  generalize (fun w => ordersIn (c.step x).sent w id) = orders at hChange
  rw [hAfter] at hChange
  cases hChange with
  | rest =>
    have hj := hFits j rfl
    obtain ⟨hGiven, hStream, hKnown⟩ := frame_fits hc hj x
    exact ⟨hj.numbered, hGiven, hj.acks, hStream, hKnown, hj.timely, hj.waits⟩
  | created chosen next =>
    subst next
    exact fits_created hc chosen
  | heard message live unanswered => exact fits_heard hc (hFits _ rfl) _ live unanswered _
  | expired late =>
    rw [isExpired_iff] at late
    exact fits_expired hc (hFits _ rfl) late.1 _
  | recalled arrives owed => exact fits_recalled hc (hFits _ rfl) arrives owed

/-- A coordinator that starts sound stays sound over any history. -/
theorem sound_run (xs : List Event) : (c.run xs).Sound := by
  induction xs using List.reverseRecOn with
  | nil => exact hc
  | append_singleton xs x ih =>
    rw [run_concat]
    exact sound_step ih x

end Fits

/-- The records of every reachable coordinator are in order and fit. -/
theorem sound_of_reachable {c : Coordinator} (h : c.Reachable) : c.Sound :=
  h.induct sound_new fun _ x hc => sound_step hc x

end Coordinator

end FleetMetrics
