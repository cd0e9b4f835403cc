import Mathlib
import FleetMetrics.Proofs.Coordinator.Change

/-!
# The lifecycle of an instrumentation

An instrumentation is creating until it is enabled or has failed, and then stays as it is until it
is deleted. It is enabled by unanimity: each of its participants has confirmed that it started,
and has confirmed it after it was told to start for the last time. A confirmation from before a
restart does not count, because the command that answers the restart erases it.

Who has confirmed is recorded in the table, but when is not. So the theorem is about whole
histories, and the invariant behind it, `Vouched`, finds for every word in the table the event it
comes from.

Main results:

* `fixed_step` — what one event does to the stage of a record, and what it cannot touch.
* `origin_step` — where a record comes from.
* `vouched_run` — after every history each participant in the table was told to start, and each
  one that is enabled in it has confirmed since.
* `lifecycle` — both, put together.
-/

namespace FleetMetrics

/-- An envelope in which a host confirms that it has started to work on an instrumentation. -/
def Event.Confirms (x : Event) (w : Work) (h : String) (id : InstId) : Prop :=
  ∃ e now error, x = .receive e now ∧ e.hostname = h ∧ e.message = .ack .enable w id .enabled error

namespace Coordinator

/-! ## Commands and confirmations -/

/-- On an event the coordinator tells a host to start: a command goes out under the key that the
host is known by. What goes out upon an envelope is for the host that sent it. -/
def Commands (c : Coordinator) (x : Event) (w : Work) (h : String) (id : InstId) : Prop :=
  (∀ e now, x = .receive e now → e.hostname = h) ∧
    ∃ r m, ((c.step x).coordinator.registry.directory w).find? h = some r ∧
      (r.routingKey, .start m) ∈ ordersIn (c.step x).sent w id

/-- In a history a host is told to start. -/
def Commanded (start : Coordinator) (history : List Event) (w : Work) (h : String) (id : InstId) :
    Prop :=
  ∃ before x after, history = before ++ x :: after ∧ Commands (start.run before) x w h id

/-- On an event the word of a host about an instrumentation changes from unknown to enabled. -/
def Enters (c : Coordinator) (x : Event) (w : Work) (h : String) (id : InstId) : Prop :=
  ∃ i j, c.instrumentations.find? id = some i ∧ i.ackOf w h = some .unknown ∧
    (c.step x).coordinator.instrumentations.find? id = some j ∧ j.ackOf w h = some .enabled

/-- In a history a host is told to start, then confirms that it has started, and is not told to
start again. The confirmation is what its word in the table comes from. -/
def Confirmed (start : Coordinator) (history : List Event) (w : Work) (h : String) (id : InstId) :
    Prop :=
  ∃ before x after, history = before ++ x :: after ∧ x.Confirms w h id ∧
    Enters (start.run before) x w h id ∧ Commanded start before w h id ∧
    ∀ earlier y later, after = earlier ++ y :: later →
      ¬ Commands (start.run (before ++ x :: earlier)) y w h id

section History

variable {start : Coordinator} {history : List Event} {w : Work} {h : String} {id : InstId}

/-- Who was commanded to start remains so, whatever happens later. -/
theorem Commanded.concat (told : Commanded start history w h id) (x : Event) :
    Commanded start (history ++ [x]) w h id := by
  obtain ⟨before, y, after, rfl, hCommands⟩ := told
  exact ⟨before, y, after ++ [x], by simp, hCommands⟩

/-- Who is commanded by the last event was commanded in the history. -/
theorem Commands.commanded {x : Event} (now : Commands (start.run history) x w h id) :
    Commanded start (history ++ [x]) w h id :=
  ⟨history, x, [], rfl, now⟩

/-- A confirmation counts until the next command. -/
theorem Confirmed.concat (confirmed : Confirmed start history w h id) {x : Event}
    (quiet : ¬ Commands (start.run history) x w h id) :
    Confirmed start (history ++ [x]) w h id := by
  obtain ⟨before, y, after, rfl, hConfirms, hEnters, hTold, hSince⟩ := confirmed
  refine ⟨before, y, after ++ [x], by simp, hConfirms, hEnters, hTold, ?_⟩
  intro earlier z later hSplit
  rcases List.eq_nil_or_concat later with rfl | ⟨later', z', rfl⟩
  · -- the event is the new one
    obtain ⟨rfl, hz⟩ := List.append_inj' hSplit rfl
    obtain rfl : x = z := by simpa using hz
    exact quiet
  · refine hSince earlier z later' ?_
    have hSplit' : after ++ [x] = (earlier ++ z :: later') ++ [z'] := by simpa using hSplit
    exact (List.append_inj' hSplit' rfl).1

/-- A confirmation that has just come in counts. -/
theorem Commanded.confirmed (told : Commanded start history w h id) {x : Event}
    (confirms : x.Confirms w h id) (enters : Enters (start.run history) x w h id) :
    Confirmed start (history ++ [x]) w h id := by
  refine ⟨history, x, [], rfl, confirms, enters, told, fun earlier y later hSplit => ?_⟩
  cases earlier <;> cases hSplit

end History

/-! ## One event -/

section Step

variable {c : Coordinator} (hc : c.Sound) {x : Event} {id : InstId} {i : Instrumentation}

include hc

/-- What never changes in a record does not, and only its deletion removes it. -/
theorem fixed_step (found : c.instrumentations.find? id = some i) :
    (x = .delete id ∧ (c.step x).coordinator.instrumentations.find? id = none) ∨
      ∃ j, (c.step x).coordinator.instrumentations.find? id = some j ∧ j.fixed = i.fixed ∧
        (j.stage = i.stage ∨ i.stage = .creating ∧ (j.stage = .enabled ∨ j.stage = .failed)) := by
  have hChange := change_step hc x id
  rw [found] at hChange
  generalize (c.step x).coordinator.instrumentations.find? id = after at hChange
  generalize (fun w => ordersIn (c.step x).sent w id) = orders at hChange
  cases hChange with
  | rest => exact .inr ⟨i, rfl, rfl, .inl rfl⟩
  | removed => exact .inl ⟨rfl, rfl⟩
  | @heard _ e w s error now message live unanswered =>
    refine .inr ⟨_, rfl, (Instrumentation.fixed_settled _).trans
      (Instrumentation.fixed_setAck i _ w _), ?_⟩
    have hStage := Instrumentation.stage_setAck i (ackState s) w e.hostname
    have := Instrumentation.stage_of_settled (i.setAck (ackState s) w e.hostname)
    rwa [hStage] at this
  | expired late =>
    exact .inr ⟨_, rfl, (Instrumentation.fixed_settled _).trans (Instrumentation.fixed_timeOut i),
      Instrumentation.stage_of_settled i.timeOut⟩
  | recalled arrives owed =>
    exact .inr ⟨_, rfl, Instrumentation.fixed_setAck i _ _ _,
      .inl (Instrumentation.stage_setAck i _ _ _)⟩

/-- A record that was not there before is a creation that begins. -/
theorem new_step (missing : c.instrumentations.find? id = none)
    (found : (c.step x).coordinator.instrumentations.find? id = some i) :
    i.stage = .creating ∧ ∃ s ticket now, x = .create s ticket now := by
  have hChange := change_step hc x id
  rw [missing, found] at hChange
  generalize (fun w => ordersIn (c.step x).sent w id) = orders at hChange
  cases hChange with
  | created chosen next => exact ⟨rfl, _, _, _, rfl⟩

/-- A record that an event leaves behind was there before, or its request has just been
accepted. -/
theorem origin_step (found : (c.step x).coordinator.instrumentations.find? id = some i) :
    (∃ j, c.instrumentations.find? id = some j ∧ i.fixed = j.fixed) ∨
      c.instrumentations.find? id = none ∧ c.fault? i.spec = none := by
  cases hBefore : c.instrumentations.find? id with
  | some j =>
    rcases fixed_step hc (x := x) hBefore with ⟨-, hGone⟩ | ⟨i', hFound, hFixed, -⟩
    · rw [hGone] at found
      cases found
    · obtain rfl := Option.some.inj (hFound.symm.trans found)
      exact .inl ⟨j, rfl, hFixed⟩
  | none =>
    have hChange := change_step hc x id
    rw [hBefore, found] at hChange
    generalize (fun w => ordersIn (c.step x).sent w id) = orders at hChange
    cases hChange with
    | created chosen next => exact .inr ⟨rfl, fault?_of_chosen? chosen⟩

/-- A creation succeeds only by the word of its last participant, when all the others have
started. -/
theorem unanimous_step {j : Instrumentation} (found : c.instrumentations.find? id = some i)
    (before : i.stage ≠ .enabled)
    (found' : (c.step x).coordinator.instrumentations.find? id = some j)
    (after : j.stage = .enabled) {w : Work} {h : String} {a : AckState}
    (told : j.ackOf w h = some a) : a = .enabled := by
  have hFits := hc.fits id i found
  have hChange := change_step hc x id
  rw [found, found'] at hChange
  generalize (fun w => ordersIn (c.step x).sent w id) = orders at hChange
  cases hChange with
  | rest => exact absurd after before
  | heard message live unanswered =>
    rw [Instrumentation.ackOf_settled] at told
    exact Instrumentation.ackOf_of_enabled (Instrumentation.ascending_setAck hFits.acks _ _ _)
      (Instrumentation.stage_setAck i _ _ _ ▸ before) after told
  | expired late =>
    rw [Instrumentation.ackOf_settled] at told
    exact Instrumentation.ackOf_of_enabled (Instrumentation.ascending_timeOut hFits.acks) before
      after told
  | recalled arrives owed =>
    rw [Instrumentation.stage_setAck] at after
    exact absurd after before

end Step

/-! ## Whole histories -/

/-- A word has its event in the history: the participant was told to start, and if it is enabled,
it has confirmed since. -/
def VouchedFor (start : Coordinator) (history : List Event) (id : InstId) (w : Work) (h : String)
    (a : AckState) : Prop :=
  Commanded start history w h id ∧ (a = .enabled → Confirmed start history w h id)

/-- Every word in the table has its event in the history. -/
def Vouched (start : Coordinator) (history : List Event) : Prop :=
  ∀ id i, (start.run history).instrumentations.find? id = some i →
    ∀ w h a, i.ackOf w h = some a → VouchedFor start history id w h a

section Vouched

variable {start : Coordinator} {history : List Event}

/-- An event upon which nobody is told to start leaves a confirmation standing. -/
theorem Confirmed.outlives {w : Work} {h : String} {id : InstId} {x : Event}
    {orders : List (String × Order)} (confirmed : Confirmed start history w h id)
    (sent : ordersIn ((start.run history).step x).sent w id = orders)
    (stops : ∀ o ∈ orders, ∀ m, o.2 ≠ .start m) : Confirmed start (history ++ [x]) w h id := by
  refine confirmed.concat ?_
  rintro ⟨-, r, m, -, hMem⟩
  rw [sent] at hMem
  exact stops _ hMem m rfl

/-- No stop is a command to start. -/
theorem ne_start_of_mem_stops (keys : List String) :
    ∀ o ∈ keys.map (fun key => (key, Order.stop)), ∀ m, o.2 ≠ .start m := by
  intro o ho m
  obtain ⟨key, -, rfl⟩ := List.mem_map.mp ho
  simp

/-- An accepted request tells everybody whom the new record addresses. -/
theorem commands_created {c : Coordinator} (hc : c.Sound) {s : Spec} {ticket : Ticket} {now : Nat}
    {a : AgentRecord} (chosen : c.chosen? s = some a) {w : Work} {h : String} {m : Message Float}
    (addressed : h ∈ c.addressees a.hostname w)
    (sent : ordersIn (c.step (.create s ticket now)).sent w c.nextId =
      ((c.registry.directory w).keys (c.addressees a.hostname w)).map fun key => (key, .start m)) :
    Commands c (.create s ticket now) w h c.nextId := by
  obtain ⟨r, hr⟩ := Option.isSome_iff_exists.mp (known_of_addressee chosen addressed)
  have hAfter := find?_directory_step hc.ascending hc.numbered (.create s ticket now) w h
    fun _ hArrives => by cases hArrives
  rw [hr] at hAfter
  refine ⟨fun _ _ hx => ?_, _, m, hAfter, ?_⟩
  · cases hx
  rw [sent]
  exact List.mem_map.mpr ⟨r.routingKey, Directory.mem_keys.mpr ⟨h, addressed, r, hr, rfl⟩, rfl⟩

/-- A participant that comes online and is owed an instrumentation is told of it. -/
theorem commands_recalled {c : Coordinator} (hc : c.Sound) {e : Envelope Float} {now : Timestamp}
    {w : Work} {r : AgentRecord} {id : InstId} {m : Message Float}
    (arrives : e.arrival? now w = some r)
    (sent : ordersIn (c.step (.receive e now)).sent w id = [(r.routingKey, .start m)]) :
    Commands c (.receive e now) w r.hostname id := by
  have hAfter := find?_directory_arrival hc.ascending hc.numbered (x := .receive e now) arrives
  refine ⟨fun e' now' hx => ?_, _, m, hAfter, ?_⟩
  · cases hx
    exact (Envelope.arrival?_eq_some arrives).1.symm
  · rw [sent]
    exact List.mem_singleton_self _

section Changes

variable (hc : (start.run history).Sound) {id : InstId} {i : Instrumentation}
  (hi : (start.run history).Fits id i)
  (vouched : ∀ w h a, i.ackOf w h = some a → VouchedFor start history id w h a)
  {e : Envelope Float} {now : Timestamp}

include hi vouched

/-- A participant is heard. Its word is the confirmation that has come in, if it is one. -/
theorem vouched_heard (found : (start.run history).instrumentations.find? id = some i)
    {w' : Work} {s : AckStatus} {error : Option String}
    (message : e.message = .ack .enable w' id s error)
    (unanswered : i.ackOf w' e.hostname = some .unknown) {keys : List String} {w : Work}
    (after : ((start.run history).step (.receive e now)).coordinator.instrumentations.find? id =
      some (i.setAck (ackState s) w' e.hostname).settled)
    (sent : ordersIn ((start.run history).step (.receive e now)).sent w id =
      keys.map fun key => (key, .stop))
    {h : String} {a : AckState}
    (word : (i.setAck (ackState s) w' e.hostname).settled.ackOf w h = some a) :
    VouchedFor start (history ++ [.receive e now]) id w h a := by
  have hWord := word
  rw [Instrumentation.ackOf_settled,
    Instrumentation.ackOf_setAck hi.acks _ (assigned_of_ackOf unanswered)] at word
  by_cases hSame : w = w' ∧ h = e.hostname
  · -- the word that comes in
    rw [if_pos hSame] at word
    obtain ⟨rfl, rfl⟩ := hSame
    obtain ⟨hTold, -⟩ := vouched w _ _ unanswered
    refine ⟨hTold.concat _, fun ha => ?_⟩
    subst ha
    refine hTold.confirmed ?_ ⟨i, _, found, unanswered, after, hWord⟩
    obtain rfl : s = .enabled := by
      cases hs : s.isEnabled with
      | true => simpa [AckStatus.isEnabled] using hs
      | false => simp [ackState, hs] at word
    exact ⟨e, now, error, rfl, rfl, message⟩
  · -- the words of the others stay, and those that go out are to stop
    rw [if_neg hSame] at word
    obtain ⟨hTold, hConfirmed⟩ := vouched w h a word
    exact ⟨hTold.concat _, fun ha => (hConfirmed ha).outlives sent (ne_start_of_mem_stops _)⟩

include hc

/-- A participant is told again. Its word is erased, and all others stay. -/
theorem vouched_recalled {w' : Work} {r : AgentRecord} (arrives : e.arrival? now w' = some r)
    (owed : owes w' r.hostname
      (Registry.outcome ((start.run history).registry.directory w') r.hostname) i = true)
    {w : Work}
    (sent : ordersIn ((start.run history).step (.receive e now)).sent w id =
      if w = w' then [(r.routingKey, .start (i.command w'))] else [])
    {h : String} {a : AckState} (word : (i.setAck .unknown w' r.hostname).ackOf w h = some a) :
    VouchedFor start (history ++ [.receive e now]) id w h a := by
  rw [Instrumentation.ackOf_setAck hi.acks _ (assigned_of_owes owed)] at word
  by_cases hSame : w = w' ∧ h = r.hostname
  · -- the word that is erased
    rw [if_pos hSame] at word
    obtain ⟨rfl, rfl⟩ := hSame
    obtain rfl := Option.some.inj word
    rw [if_pos rfl] at sent
    exact ⟨(commands_recalled hc arrives sent).commanded, by simp⟩
  · rw [if_neg hSame] at word
    obtain ⟨hTold, hConfirmed⟩ := vouched w h a word
    refine ⟨hTold.concat _, fun ha => (hConfirmed ha).concat ?_⟩
    -- what goes out upon a notice is for the host that has sent it
    rintro ⟨hHost, r', m, -, hMem⟩
    refine hSame ⟨?_, ?_⟩
    · by_contra hw
      rw [sent, if_neg hw] at hMem
      cases hMem
    · exact (hHost e now rfl).symm.trans (Envelope.arrival?_eq_some arrives).1.symm

end Changes

/-- **One event keeps every word vouched for.** Only a command makes a word unknown, and only a
confirmation makes it enabled; all other words stay, and their hosts are not told to start. -/
theorem vouched_step (hc : (start.run history).Sound) (vouched : Vouched start history)
    (x : Event) : Vouched start (history ++ [x]) := by
  intro id j hFind w h a hAck
  rw [run_concat] at hFind
  have hChange := change_step hc x id
  have hFits := hc.fits id
  have hVouched := vouched id
  rw [hFind] at hChange
  generalize hBefore : (start.run history).instrumentations.find? id = before
    at hChange hFits hVouched
  generalize hSent : (fun w => ordersIn ((start.run history).step x).sent w id) = orders at hChange
  cases hChange with
  | rest =>
    obtain ⟨hTold, hConfirmed⟩ := hVouched j rfl w h a hAck
    exact ⟨hTold.concat x, fun ha => (hConfirmed ha).outlives (congrFun hSent w) (by simp)⟩
  | @created s ticket now r chosen next =>
    subst next
    rw [ackOf_newRecord] at hAck
    split at hAck
    · next hMem =>
      obtain rfl := Option.some.inj hAck
      exact ⟨(commands_created hc chosen hMem (congrFun hSent w)).commanded, by simp⟩
    · cases hAck
  | @heard i e w' s error now message live unanswered =>
    exact vouched_heard (hFits i rfl) (hVouched i rfl) hBefore message unanswered hFind
      (congrFun hSent w) hAck
  | @expired i now late =>
    rw [Instrumentation.ackOf_settled, Instrumentation.ackOf_timeOut] at hAck
    obtain ⟨a', hAck', hLate⟩ := Option.map_eq_some_iff.mp hAck
    obtain ⟨hTold, hConfirmed⟩ := hVouched i rfl w h a' hAck'
    refine ⟨hTold.concat _, fun ha => ?_⟩
    -- nobody is enabled by being late
    have ha' : a' = .enabled := by
      subst ha
      cases a' <;> simp_all [AckState.late]
    exact (hConfirmed ha').outlives (congrFun hSent w) (ne_start_of_mem_stops _)
  | @recalled i e now w' r arrives owed =>
    exact vouched_recalled hc (hFits i rfl) (hVouched i rfl) arrives owed (congrFun hSent w) hAck

end Vouched

/-- Every enabled record has the words that it takes, over any history. -/
theorem vouched_run (keyBase : String) (ackTimeout : Nat) (history : List Event) :
    Vouched (.new keyBase ackTimeout) history := by
  induction history using List.reverseRecOn with
  | nil => intro id i hFind; cases hFind
  | append_singleton xs x ih =>
    exact vouched_step (sound_of_reachable ⟨keyBase, ackTimeout, xs, rfl⟩) ih x

/-- **Unanimity and lifecycle.** After any history, one more event

* keeps a record with everything in it that is fixed, and its stage unless it was creating, or is
  the deletion of this very record;
* makes new records only by requests, and then they are creating;
* makes a record enabled only if then its aggregator and all its instrumenters are, and each of
  them has confirmed that it started after it was told so for the last time. -/
theorem lifecycle (keyBase : String) (ackTimeout : Nat) (history : List Event) (x : Event)
    (id : InstId) :
    let start := Coordinator.new keyBase ackTimeout
    let before := (start.run history).instrumentations.find? id
    let after := (start.run (history ++ [x])).instrumentations.find? id
    (∀ i, before = some i →
      (x = .delete id ∧ after = none) ∨
        ∃ j, after = some j ∧
          (j.id, j.spec, j.streamKey, j.aggregator, j.deadline) =
            (i.id, i.spec, i.streamKey, i.aggregator, i.deadline) ∧
          (j.stage = i.stage ∨
            i.stage = .creating ∧ (j.stage = .enabled ∨ j.stage = .failed))) ∧
    (before = none → ∀ j, after = some j →
      j.stage = .creating ∧ ∃ s ticket now, x = .create s ticket now) ∧
    (∀ i j, before = some i → i.stage ≠ .enabled → after = some j → j.stage = .enabled →
      j.aggregatorAck = .enabled ∧ (∀ entry ∈ j.instrumenterAcks, entry.2 = .enabled) ∧
        Confirmed start (history ++ [x]) .aggregation j.aggregator id ∧
        ∀ entry ∈ j.instrumenterAcks,
          Confirmed start (history ++ [x]) .instrumentation entry.1 id) := by
  intro start before after
  have hReach : (start.run history).Reachable := ⟨keyBase, ackTimeout, history, rfl⟩
  have hc := sound_of_reachable hReach
  have hAfter : after = ((start.run history).step x).coordinator.instrumentations.find? id := by
    rw [← run_concat]
  refine ⟨fun i hi => ?_, fun hNone j hj => ?_, fun i j hi hStage hj hEnabled => ?_⟩
  · rw [hAfter]
    exact fixed_step hc hi
  · exact new_step hc hNone (hAfter ▸ hj)
  -- the event that enables a record finds every word enabled
  · have hAll : ∀ {w h a}, j.ackOf w h = some a → a = .enabled :=
      fun told => unanimous_step hc hi hStage (hAfter ▸ hj) hEnabled told
    -- and a word in a record is one that its host gave
    have hVouched := vouched_run keyBase ackTimeout (history ++ [x]) id j hj
    have hAggregator : j.ackOf .aggregation j.aggregator = some j.aggregatorAck := if_pos rfl
    have hSorted : j.instrumenterAcks.Ascending :=
      ((sound_step hc x).fits id j (hAfter ▸ hj)).acks
    have hEntry : ∀ entry ∈ j.instrumenterAcks,
        j.ackOf .instrumentation entry.1 = some entry.2 :=
      fun entry hMem => (Table.mem_iff_find? hSorted).mp hMem
    refine ⟨hAll hAggregator, fun entry hMem => hAll (hEntry entry hMem), ?_, ?_⟩
    · exact (hVouched _ _ _ hAggregator).2 (hAll hAggregator)
    · exact fun entry hMem => (hVouched _ _ _ (hEntry entry hMem)).2 (hAll (hEntry entry hMem))

/-- In a brief history with both acknowledgements the last of them makes the instrumentation
enabled, so both participants have confirmed. -/
theorem lifecycle_brief :
    let heard := briefHistory ++
      [.receive ⟨"k.aggregator.g", "g", .ack .enable .aggregation 1 .enabled none⟩ ⟨1⟩]
    let last := .receive
      ⟨"k.instrumenter.h", "h", .ack .enable .instrumentation 1 .enabled none⟩ ⟨1⟩
    Confirmed (.new "k" 3) (heard ++ [last]) .aggregation "g" 1 ∧
      Confirmed (.new "k" 3) (heard ++ [last]) .instrumentation "h" 1 := by
  intro heard last
  obtain ⟨-, -, hAgg, hIns⟩ :=
    (lifecycle "k" 3 heard last 1).2.2 _ _ rfl (by decide) rfl (by decide)
  exact ⟨hAgg, hIns ("h", .enabled) (by decide)⟩

end Coordinator

end FleetMetrics
