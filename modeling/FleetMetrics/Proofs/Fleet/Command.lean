import Mathlib
import FleetMetrics.Proofs.Fleet.System

/-!
# The coordinator on its links

Whatever happens to the coordinator, it does one of six things to an instrumentation, and each of
them is one of the moves of a link: the instrumentation begins, a host is told again, an answer is
heard, the instrumentation ends. The orders that go with it are addressed to hosts by their keys,
and since every host has a key of its own, each link gets the orders that are meant for it.

Main results:

* `orders_tell` — what the coordinator sends reaches a link as the orders under the key of its
  host.
* `link_step` — on every link an event is one of the moves that keep it sound.
* `sound_event` — an event keeps a fleet sound.
-/

namespace FleetMetrics

namespace Coordinator

/-- What the coordinator sends is an order, or it means nothing. -/
theorem sent_tells (c : Coordinator) (sorted : c.instrumentations.Ascending)
    (numbered : ∀ id i, c.instrumentations.find? id = some i → i.id = id) (x : Event) :
    ∀ d ∈ (c.step x).sent, d.2.isInert = true ∨ ∃ w id o, d.2.order? w id = some o := by
  -- besides its replies a coordinator sends starts and stops
  have hStop : ∀ w id, ∃ w' id' o, (Message.disable w id).order? w' id' = some o :=
    fun w id => ⟨w, id, .stop, by rw [Message.order?_disable, if_pos ⟨rfl, rfl⟩]⟩
  have hStart : ∀ (i : Instrumentation) w, ∃ w' id' o, (i.command w).order? w' id' = some o :=
    fun i w => ⟨w, i.id, .start (i.command w), by
      rw [Instrumentation.order?_command, if_pos ⟨rfl, rfl⟩]⟩
  have hStops : ∀ id hosts, ∀ d ∈ c.stops id hosts, ∃ w id o, d.2.order? w id = some o := by
    intro id hosts d hd
    rcases List.mem_append.mp hd with h | h
    · exact message_of_mem_toHosts h ▸ hStop .aggregation id
    · exact message_of_mem_toHosts h ▸ hStop .instrumentation id
  intro d hd
  have hTurn := c.responds_step sorted numbered x
  generalize c.step x = t at hTurn hd
  cases hTurn with
  | refused | missing | unheard => cases hd
  | @launched s ticket now a chosen =>
    rw [c.launch_eq s ticket now (find?_of_chosen? chosen)] at hd
    rcases List.mem_append.mp hd with h | h
    · exact .inr (message_of_mem_toHosts h ▸ hStart _ .aggregation)
    · exact .inr (message_of_mem_toHosts h ▸ hStart _ .instrumentation)
  | @deleted id _ _ _ _ stops =>
    obtain ⟨w, hMessage⟩ := stops d hd
    exact .inr (hMessage ▸ hStop w id)
  | swept =>
    obtain ⟨i, -, h⟩ := List.mem_flatMap.mp hd
    exact .inr (hStops _ _ d h)
  | @welcomed _ _ w =>
    obtain ⟨i, -, rfl⟩ := List.mem_map.mp hd
    exact .inr (hStart i w)
  | heard => exact .inr (hStops _ _ d hd)
  | silent _ _ inert => exact .inl (inert d hd)

end Coordinator

/-- What orders something of somebody is nobody's answer. -/
theorem Message.answer?_of_order? {m : Message Float} {w : Work} {id : InstId} {o : Order}
    (h : m.order? w id = some o) (w' : Work) (id' : InstId) : m.answer? w' id' = none := by
  cases m with
  | ack => cases w <;> cases h
  | _ => rfl

/-- What an event says of the start of an instrumentation by a host, if anything. -/
def Event.answer? (x : Event) (w : Work) (h : String) (id : InstId) : Option Bool :=
  match x with
  | .receive e _ => e.answer? w h id
  | _ => none

/-- An answer is read off an acknowledgement of a command to start. -/
theorem Event.answer?_eq_some {x : Event} {w : Work} {h : String} {id : InstId} {b : Bool}
    (answered : x.answer? w h id = some b) :
    ∃ e now s error, x = .receive e now ∧ e.hostname = h ∧ e.message = .ack .enable w id s error ∧
      s.isEnabled = b := by
  unfold answer? at answered
  split at answered
  · next e now =>
    unfold Envelope.answer? at answered
    split at answered
    · next hHost =>
      unfold Message.answer? at answered
      split at answered
      · next w' id' s error hMessage =>
        split at answered
        · next hSame =>
          obtain ⟨rfl, rfl⟩ := hSame
          exact ⟨e, now, s, error, rfl, hHost, hMessage, Option.some.inj answered⟩
        · cases answered
      · cases answered
    · cases answered
  · cases answered

/-! ## Orders by their keys -/

/-- The orders of a list that go under one key. -/
def ordersUnder (key : String) (orders : List (String × Order)) : List Order :=
  (orders.filter fun o => o.1 = key).map (·.2)

section Keys

variable {d : Directory} {keyOf : String → String} {h : String}
  (named : ∀ h r, d.find? h = some r → r.routingKey = keyOf h)

include named

/-- One order to some hosts is for a host if it is one of them. -/
theorem ordersUnder_keys (distinct : ∀ h', keyOf h' = keyOf h → h' = h) (hosts : List String)
    (o : Order) :
    let told := ordersUnder (keyOf h) ((d.keys hosts).map fun key => (key, o))
    (∀ o' ∈ told, o' = o) ∧ (told ≠ [] → h ∈ hosts) ∧
      (h ∈ hosts → (d.find? h).isSome → told ≠ []) := by
  intro told
  have hMem : ∀ o', o' ∈ told → o' = o ∧ h ∈ hosts := by
    intro o' ho'
    obtain ⟨⟨key, o''⟩, hFilter, rfl⟩ := List.mem_map.mp ho'
    obtain ⟨hIn, hKey⟩ := List.mem_filter.mp hFilter
    obtain ⟨key', hKeys, hPair⟩ := List.mem_map.mp hIn
    cases hPair
    obtain ⟨h', hHosts, r, hr, rfl⟩ := Directory.mem_keys.mp hKeys
    rw [decide_eq_true_eq, named h' r hr] at hKey
    exact ⟨rfl, distinct h' hKey ▸ hHosts⟩
  refine ⟨fun o' ho' => (hMem o' ho').1, fun hNe => ?_, fun hHosts hKnown => ?_⟩
  · obtain ⟨o', ho'⟩ := List.exists_mem_of_ne_nil told hNe
    exact (hMem o' ho').2
  · obtain ⟨r, hr⟩ := Option.isSome_iff_exists.mp hKnown
    refine List.ne_nil_of_mem (a := o) (List.mem_map.mpr ⟨(keyOf h, o), ?_, rfl⟩)
    refine List.mem_filter.mpr ⟨List.mem_map.mpr ⟨keyOf h, ?_, rfl⟩, by simp⟩
    exact Directory.mem_keys.mpr ⟨h, hHosts, r, hr, named h r hr⟩

end Keys

/-! ## How a number stands -/

namespace Instrumentation

theorem standing_of_live {i : Instrumentation} (live : i.stage ≠ .failed) (w : Work) (h : String) :
    i.standing w h = .live (i.command w) (i.ackOf w h) :=
  if_neg live

/-- A live instrumentation expects its participants to have started what its command says. -/
theorem of_standing_live {i : Instrumentation} {w : Work} {h : String} {m : Message Float}
    {a : Option AckState} (standing : i.standing w h = .live m a) :
    i.stage ≠ .failed ∧ i.command w = m ∧ i.ackOf w h = a := by
  unfold Instrumentation.standing at standing
  split at standing
  · cases standing
  · next hLive =>
    rw [Standing.live.injEq] at standing
    exact ⟨hLive, standing⟩

end Instrumentation

namespace Coordinator

/-- Where there is a record, it says what is expected. -/
theorem standing_of_some {c : Coordinator} {id : InstId} {i : Instrumentation}
    (found : c.instrumentations.find? id = some i) (w : Work) (h : String) :
    c.standing w h id = i.standing w h := by
  rw [standing, found]

/-- Without a record, nothing is expected any more of a number that has been given out, and nothing
yet of any other. -/
theorem standing_of_none {c : Coordinator} {id : InstId}
    (missing : c.instrumentations.find? id = none) (w : Work) (h : String) :
    c.standing w h id = if id < c.nextId then .ended else .unborn := by
  rw [standing, missing]

/-- When everybody has answered and the creation fails, whoever may have started is told to stop;
otherwise it goes on as it stands. -/
theorem sound_settled {l : Link} (hl : l.Sound) {w : Work} {h : String} {j : Instrumentation}
    (acks : j.instrumenterAcks.Ascending) (alive : j.stage ≠ .failed)
    (standing : l.standing = .live (j.command w) (j.ackOf w h)) {stops : List Order}
    (all : ∀ o ∈ stops, o = .stop) (told : stops = [] → h ∉ j.relieved w)
    (only : stops ≠ [] → h ∈ j.relieved w) :
    ({ l with standing := j.settled.standing w h }.tell stops).Sound := by
  cases hFails : j.fails with
  | true =>
    have hEnded : j.settled.standing w h = .ended :=
      if_pos ((Instrumentation.fails_iff_stage_settled alive).mp hFails)
    rw [hEnded]
    refine Link.sound_end hl all fun hNil m a hStanding => ?_
    rw [standing, Standing.live.injEq] at hStanding
    cases hAck : j.ackOf w h with
    | none => exact .inl (hStanding.2.symm.trans hAck)
    | some a' =>
      refine .inr (hStanding.2.symm.trans (hAck.trans ?_))
      -- whoever has not reported failure itself is among those that are told
      by_contra hNot
      refine told hNil ((Instrumentation.mem_relieved acks).mpr ⟨hFails, a', hAck, ?_⟩)
      rintro rfl
      exact hNot rfl
  | false =>
    have hNobody : h ∉ j.relieved w := by simp [Instrumentation.mem_relieved acks, hFails]
    have hNil : stops = [] := by
      by_contra hNe
      exact hNobody (only hNe)
    have hLive : j.settled.stage ≠ .failed := fun hs => by
      rw [(Instrumentation.fails_iff_stage_settled alive).mpr hs] at hFails
      cases hFails
    have hSame : j.settled.standing w h = l.standing := by
      rw [Instrumentation.standing, if_neg hLive, standing, Instrumentation.ackOf_settled,
        Instrumentation.command_eq_of_fixed (Instrumentation.fixed_settled j)]
    rw [hSame, hNil, Link.tell_nil]
    exact hl

/-! ## One event on one link -/

section Links

variable {c : Coordinator} (hc : c.Sound) {keyOf : Work → String → String}
  (named : ∀ w h r, (c.registry.directory w).find? h = some r → r.routingKey = keyOf w h)
  (distinct : ∀ w h h', keyOf w h' = keyOf w h → h' = h) {l : Link} (hl : l.Sound) {w : Work}
  {h : String} {id : InstId}

theorem ordersUnder_nil (key : String) : ordersUnder key [] = [] := rfl

include hc in
/-- Numbers that have ended do not come back, and those that nothing happens to stand as before,
except that one may be passed by. -/
theorem standing_of_rest {x : Event}
    (same : (c.step x).coordinator.instrumentations.find? id = c.instrumentations.find? id) :
    (c.step x).coordinator.standing w h id = c.standing w h id ∨
      c.standing w h id = .unborn ∧ (c.step x).coordinator.standing w h id = .ended := by
  have hNext : c.nextId ≤ (c.step x).coordinator.nextId := by
    rw [(frame_step hc x).2]
    exact Nat.le_add_right _ _
  cases hFind : c.instrumentations.find? id with
  | some i =>
    left
    rw [standing_of_some hFind, standing_of_some (same.trans hFind)]
  | none =>
    rw [standing_of_none hFind, standing_of_none (same.trans hFind)]
    by_cases hGiven : id < c.nextId
    · left
      -- numbers once given out stay given out
      rw [if_pos hGiven, if_pos (Nat.lt_of_lt_of_le hGiven hNext)]
    · rw [if_neg hGiven]
      by_cases hNow : id < (c.step x).coordinator.nextId
      · exact .inr ⟨rfl, if_pos hNow⟩
      · exact .inl (if_neg hNow)

include hc hl in
/-- Nothing happens to the instrumentation, and an answer that is heard is not waited for. -/
theorem link_rest {x : Event} (unheard : ¬ x.Counts id (c.instrumentations.find? id))
    (same : (c.step x).coordinator.instrumentations.find? id = c.instrumentations.find? id)
    (standing : l.standing = c.standing w h id) {rest : List Bool}
    (answers : l.answers = (x.answer? w h id).toList ++ rest) :
    { l with standing := (c.step x).coordinator.standing w h id, answers := rest }.Sound := by
  -- an answer that is not heard is read and leads to nothing
  have hRead : { l with answers := rest }.Sound := by
    cases hAnswer : x.answer? w h id with
    | none =>
      rw [hAnswer] at answers
      obtain rfl : l.answers = rest := answers
      exact hl
    | some b =>
      rw [hAnswer] at answers
      refine Link.sound_ignore hl answers fun m hWaits => unheard ?_
      obtain ⟨e, now, s, error, rfl, rfl, hMessage, -⟩ := Event.answer?_eq_some hAnswer
      rw [standing] at hWaits
      cases hFind : c.instrumentations.find? id with
      | none =>
        rw [standing_of_none hFind] at hWaits
        split at hWaits <;> cases hWaits
      | some i =>
        rw [standing_of_some hFind] at hWaits
        obtain ⟨hLive, -, hAck⟩ := Instrumentation.of_standing_live hWaits
        exact ⟨e, now, w, s, error, i, rfl, hMessage, rfl, hLive, hAck⟩
  -- if the number has been given out meanwhile, nothing is expected of the host from now on
  rcases standing_of_rest hc same with hSame | ⟨hUnborn, hEnded⟩
  · rw [hSame, ← standing]
    exact hRead
  · have hEnd : ({ l with standing := .ended, answers := rest }.tell []).Sound :=
      Link.sound_end hRead nofun fun _ m a hLive => by
        rw [show l.standing = .live m a from hLive, hUnborn] at standing
        cases standing
    rw [hEnded]
    rwa [Link.tell_nil] at hEnd

include named distinct hl in
/-- A request is accepted. -/
theorem link_created {s : Spec} {ticket : Ticket} {now : Nat} {a : AgentRecord}
    (chosen : c.chosen? s = some a) (missing : c.instrumentations.find? c.nextId = none)
    (standing : l.standing = c.standing w h c.nextId) :
    ({ l with standing := (c.newRecord s ticket now a.hostname).standing w h }.tell
      (ordersUnder (keyOf w h) (((c.registry.directory w).keys (c.addressees a.hostname w)).map
        fun key => (key, .start ((c.newRecord s ticket now a.hostname).command w))))).Sound := by
  obtain ⟨hAll, hOnly, hTold⟩ := ordersUnder_keys (named w) (distinct w h)
    (c.addressees a.hostname w) (.start ((c.newRecord s ticket now a.hostname).command w))
  rw [Instrumentation.standing_of_live (i := c.newRecord s ticket now a.hostname) nofun,
    ackOf_newRecord]
  refine Link.sound_begin hl ?_ hAll ?_
  · rw [standing, standing_of_none missing, if_neg (Nat.lt_irrefl _)]
  · by_cases hMem : h ∈ c.addressees a.hostname w
    · exact .inr ⟨if_pos hMem, hTold hMem (known_of_addressee chosen hMem)⟩
    · refine .inl ⟨if_neg hMem, ?_⟩
      by_contra hNe
      exact hMem (hOnly hNe)

include hc named distinct hl in
/-- The instrumentation is deleted. -/
theorem link_removed {i : Instrumentation} (found : c.instrumentations.find? id = some i)
    (standing : l.standing = c.standing w h id) :
    ({ l with standing := .ended }.tell (ordersUnder (keyOf w h)
      (((c.registry.directory w).keys (c.addressees i.aggregator w)).map
        fun key => (key, .stop)))).Sound := by
  have hi := hc.fits id i found
  obtain ⟨hAll, -, hTold⟩ := ordersUnder_keys (named w) (distinct w h)
    (c.addressees i.aggregator w) .stop
  refine Link.sound_end hl hAll fun hNil m a hLive => .inl ?_
  rw [standing, standing_of_some found] at hLive
  obtain ⟨-, -, rfl⟩ := Instrumentation.of_standing_live hLive
  cases hAck : i.ackOf w h with
  | none => rfl
  | some a =>
    -- whoever takes part is known, and so it is told
    have hKnown := hi.known w h a hAck
    refine absurd hNil (hTold ?_ hKnown)
    cases w with
    | instrumentation => exact Directory.mem_hostnames_iff.mpr hKnown
    | aggregation => exact List.mem_singleton.mpr (assigned_of_ackOf hAck rfl).symm

include hc named distinct hl in
/-- A participant is heard, and that may have been the last one. -/
theorem link_heard {i : Instrumentation} (found : c.instrumentations.find? id = some i)
    {e : Envelope Float} {now : Timestamp} {w₀ : Work} {s : AckStatus} {error : Option String}
    (message : e.message = .ack .enable w₀ id s error) (live : i.stage ≠ .failed)
    (unanswered : i.ackOf w₀ e.hostname = some .unknown)
    (standing : l.standing = c.standing w h id) {rest : List Bool}
    (answers : l.answers = (Event.answer? (.receive e now) w h id).toList ++ rest) :
    let j := i.setAck (ackState s) w₀ e.hostname
    ({ l with standing := j.settled.standing w h, answers := rest }.tell (ordersUnder (keyOf w h)
      (((c.registry.directory w).keys (j.relieved w)).map fun key => (key, .stop)))).Sound := by
  intro j
  have hi := hc.fits id i found
  have hAssigned := assigned_of_ackOf unanswered
  have hAcks : j.instrumenterAcks.Ascending := Instrumentation.ascending_setAck hi.acks _ _ _
  have hAck : j.ackOf w h = if w = w₀ ∧ h = e.hostname then some (ackState s) else i.ackOf w h :=
    Instrumentation.ackOf_setAck hi.acks (ackState s) hAssigned w h
  have hCommand : j.command w = i.command w :=
    Instrumentation.command_eq_of_fixed (Instrumentation.fixed_setAck i _ _ _) w
  obtain ⟨hAll, hOnly, hTold⟩ := ordersUnder_keys (named w) (distinct w h) (j.relieved w) .stop
  rw [standing_of_some found, Instrumentation.standing_of_live live] at standing
  have hKnown : h ∈ j.relieved w → ((c.registry.directory w).find? h).isSome := by
    intro hMem
    obtain ⟨-, a, hA, -⟩ := (Instrumentation.mem_relieved hAcks).mp hMem
    rw [hAck] at hA
    split at hA
    · next hSame =>
      rw [hSame.1, hSame.2]
      exact hi.known _ _ _ unanswered
    · exact hi.known _ _ a hA
  have hSettled : ∀ {l' : Link}, l'.Sound → l'.standing = .live (j.command w) (j.ackOf w h) →
      ({ l' with standing := j.settled.standing w h }.tell (ordersUnder (keyOf w h)
        (((c.registry.directory w).keys (j.relieved w)).map fun key => (key, .stop)))).Sound :=
    fun hl' hStanding => sound_settled hl' hAcks (Instrumentation.stage_setAck i _ _ _ ▸ live)
      hStanding hAll (fun hNil hMem => hTold hMem (hKnown hMem) hNil) hOnly
  have hAnswer : Event.answer? (.receive e now) w h id =
      if w = w₀ ∧ h = e.hostname then some s.isEnabled else none := by
    simp only [Event.answer?, Envelope.answer?, message, Message.answer?, and_true,
      eq_comm (a := w), eq_comm (a := h)]
    by_cases hh : e.hostname = h <;> simp [hh]
  rw [hAnswer] at answers
  -- on the link of the sender its answer is heard first, on the others nothing has come in
  by_cases hSame : w = w₀ ∧ h = e.hostname
  · obtain ⟨rfl, rfl⟩ := hSame
    rw [if_pos ⟨rfl, rfl⟩] at answers hAck
    rw [unanswered] at standing
    exact hSettled (Link.sound_hear hl standing answers) (by rw [hCommand, hAck]; rfl)
  · rw [if_neg hSame] at answers hAck
    obtain rfl : l.answers = rest := answers
    exact hSettled hl (by rw [hCommand, hAck, standing])

include hc named distinct hl in
/-- The creation is out of time. -/
theorem link_expired {i : Instrumentation} (found : c.instrumentations.find? id = some i)
    {now : Nat} (late : isExpired now i = true) (standing : l.standing = c.standing w h id) :
    ({ l with standing := i.timeOut.settled.standing w h }.tell (ordersUnder (keyOf w h)
      (((c.registry.directory w).keys (i.timeOut.relieved w)).map
        fun key => (key, .stop)))).Sound := by
  have hi := hc.fits id i found
  rw [isExpired_iff] at late
  have hFails := fails_timeOut hi late.1
  have hEnded : i.timeOut.settled.standing w h = .ended :=
    if_pos ((Instrumentation.fails_iff_stage_settled
      (by simp [Instrumentation.timeOut, late.1])).mp hFails)
  obtain ⟨hAll, -, hTold⟩ := ordersUnder_keys (named w) (distinct w h) (i.timeOut.relieved w) .stop
  rw [hEnded]
  refine Link.sound_end hl hAll fun hNil m a hLive => ?_
  rw [standing, standing_of_some found] at hLive
  obtain ⟨-, -, rfl⟩ := Instrumentation.of_standing_live hLive
  cases hAck : i.ackOf w h with
  | none => exact .inl rfl
  | some a =>
    -- whoever has not reported failure itself is told to stop
    right
    by_contra hNot
    refine hTold ((Instrumentation.mem_relieved (Instrumentation.ascending_timeOut hi.acks)).mpr
      ⟨hFails, a.late, ?_, ?_⟩) (hi.known w h a hAck) hNil
    · rw [Instrumentation.ackOf_timeOut, hAck]
      rfl
    · cases a with
      | failed => exact absurd rfl hNot
      | _ => simp [AckState.late]

include hc distinct hl in
/-- A participant is told again. -/
theorem link_recalled {i : Instrumentation} (found : c.instrumentations.find? id = some i)
    {w₀ : Work} {r : AgentRecord}
    (owed : owes w₀ r.hostname (Registry.outcome (c.registry.directory w₀) r.hostname) i = true)
    (own : r.routingKey = keyOf w₀ r.hostname) (standing : l.standing = c.standing w h id) :
    ({ l with standing := (i.setAck .unknown w₀ r.hostname).standing w h }.tell
      (ordersUnder (keyOf w h)
        (if w = w₀ then [(r.routingKey, .start (i.command w₀))] else []))).Sound := by
  have hi := hc.fits id i found
  have hLive := live_of_owes owed
  rw [standing_of_some found, Instrumentation.standing_of_live hLive] at standing
  rw [Instrumentation.standing_of_live (Instrumentation.stage_setAck i _ _ _ ▸ hLive),
    Instrumentation.ackOf_setAck hi.acks .unknown (assigned_of_owes owed),
    Instrumentation.command_eq_of_fixed (Instrumentation.fixed_setAck i .unknown w₀ r.hostname)]
  -- only the host that comes online is told
  by_cases hSame : w = w₀ ∧ h = r.hostname
  · obtain ⟨rfl, rfl⟩ := hSame
    have hOrders : ordersUnder (keyOf w r.hostname) [(r.routingKey, Order.start (i.command w))] =
        [.start (i.command w)] := by
      simp [ordersUnder, own]
    rw [if_pos ⟨rfl, rfl⟩, if_pos rfl, hOrders]
    exact Link.sound_recall hl standing
  · have hNil : ordersUnder (keyOf w h)
        (if w = w₀ then [(r.routingKey, Order.start (i.command w₀))] else []) = [] := by
      by_cases hw : w = w₀
      · subst hw
        -- different hosts have different keys
        have hOther : r.routingKey ≠ keyOf w h := fun hKey =>
          hSame ⟨rfl, (distinct w h r.hostname (own.symm.trans hKey)).symm⟩
        simp [ordersUnder, hOther]
      · rw [if_neg hw, ordersUnder_nil]
    rw [if_neg hSame, hNil, Link.tell_nil, ← standing]
    exact hl

include hc named distinct hl in
/-- **Whatever happens to the coordinator is one of the moves on every link.** -/
theorem link_step (x : Event)
    (arrivals : ∀ w r, x.arrival? w = some r → r.routingKey = keyOf w r.hostname)
    (standing : l.standing = c.standing w h id) {rest : List Bool}
    (answers : l.answers = (x.answer? w h id).toList ++ rest) :
    ({ l with standing := (c.step x).coordinator.standing w h id, answers := rest }.tell
      (ordersUnder (keyOf w h) (ordersIn (c.step x).sent w id))).Sound := by
  have hChange := change_step hc x id
  have hSame := fun unheard same =>
    link_rest hc hl (x := x) unheard same standing answers
  have hGiven := (frame_step hc x).2
  generalize hBefore : c.instrumentations.find? id = before at hChange hSame
  generalize hAfter : (c.step x).coordinator.instrumentations.find? id = after at hChange hSame
  generalize hSent : (fun w => ordersIn (c.step x).sent w id) = orders at hChange
  rw [show ordersIn (c.step x).sent w id = orders w from congrFun hSent w]
  cases hChange with
  | rest unheard =>
    rw [ordersUnder_nil, Link.tell_nil]
    exact hSame unheard rfl
  | created chosen next =>
    subst next
    obtain rfl : l.answers = rest := answers
    rw [standing_of_some hAfter]
    exact link_created named distinct hl chosen hBefore standing
  | removed i =>
    obtain rfl : l.answers = rest := answers
    rw [standing_of_none hAfter, if_pos (hGiven ▸ (hc.fits id i hBefore).given)]
    exact link_removed hc named distinct hl hBefore standing
  | heard message live unanswered =>
    rw [standing_of_some hAfter]
    exact link_heard hc named distinct hl hBefore message live unanswered standing answers
  | expired late =>
    obtain rfl : l.answers = rest := answers
    rw [standing_of_some hAfter]
    exact link_expired hc named distinct hl hBefore late standing
  | recalled arrives owed =>
    rename_i i e now w₀ r
    have hAnswer : Event.answer? (.receive e now) w h id = none := by
      simp only [Event.answer?, Envelope.answer?, (Envelope.message_of_arrival arrives).2.1,
        ite_self]
    rw [hAnswer] at answers
    obtain rfl : l.answers = rest := answers
    rw [standing_of_some hAfter]
    exact link_recalled hc distinct hl hBefore owed (arrivals w₀ r arrives) standing

include hc named in
/-- Orders go under the keys of hosts of their kind, and they start what the records say. -/
theorem orders_step (x : Event)
    (arrivals : ∀ w r, x.arrival? w = some r → r.routingKey = keyOf w r.hostname) :
    ∀ o ∈ ordersIn (c.step x).sent w id, (∃ h, o.1 = keyOf w h) ∧
      ∀ m, o.2 = .start m → ∃ i : Instrumentation,
        m = i.command w ∧ i.id = id ∧ i.streamKey = c.streamKey id := by
  have hChange := change_step hc x id
  have hFits := hc.fits id
  -- everything that is sent goes to hosts that are registered, and so named
  have hKeys : ∀ (hosts : List String) (order : Order),
      ∀ o ∈ ((c.registry.directory w).keys hosts).map (fun key => (key, order)),
        (∃ h, o.1 = keyOf w h) ∧ o.2 = order := by
    intro hosts order o ho
    obtain ⟨key, hKey, rfl⟩ := List.mem_map.mp ho
    obtain ⟨h, -, r, hr, rfl⟩ := Directory.mem_keys.mp hKey
    exact ⟨⟨h, named w h r hr⟩, rfl⟩
  have hStops : ∀ hosts,
      ∀ o ∈ ((c.registry.directory w).keys hosts).map (fun key => (key, Order.stop)),
        (∃ h, o.1 = keyOf w h) ∧ ∀ m, o.2 = .start m → ∃ i : Instrumentation,
          m = i.command w ∧ i.id = id ∧ i.streamKey = c.streamKey id := by
    intro hosts o ho
    obtain ⟨hKey, hStop⟩ := hKeys hosts .stop o ho
    refine ⟨hKey, fun m hStart => ?_⟩
    rw [hStop] at hStart
    cases hStart
  generalize c.instrumentations.find? id = before at hChange hFits
  generalize (c.step x).coordinator.instrumentations.find? id = after at hChange
  generalize hSent : (fun w => ordersIn (c.step x).sent w id) = orders at hChange
  rw [show ordersIn (c.step x).sent w id = orders w from congrFun hSent w]
  cases hChange with
  | rest => nofun
  | @created s ticket now a chosen next =>
    intro o ho
    obtain ⟨hKey, hStart⟩ := hKeys _ _ o ho
    refine ⟨hKey, fun m hm => ⟨c.newRecord s ticket now a.hostname, ?_, next.symm, ?_⟩⟩
    · rw [hStart] at hm
      exact (Order.start.inj hm).symm
    · rw [next]
      rfl
  | removed => exact hStops _
  | heard => exact hStops _
  | expired => exact hStops _
  | recalled arrives owed =>
    -- the host that comes online need not be registered yet, but its key is its own
    rename_i i e now w₀ r
    intro o ho
    dsimp only at ho
    split at ho
    · next hw =>
      subst hw
      obtain rfl := List.mem_singleton.mp ho
      have hi := hFits i rfl
      exact ⟨⟨r.hostname, arrivals w r arrives⟩, fun m hm =>
        ⟨i, (Order.start.inj hm).symm, hi.numbered, hi.streamed⟩⟩
    · cases ho

end Links

end Coordinator

/-! ## An event in a fleet -/

/-- The envelope that an event takes out of the coordinator's mailbox. -/
def Event.mail : Event → List (Envelope Float)
  | .receive e _ => [e]
  | _ => []

/-- An event brings at most one answer of a participant. -/
theorem Event.filterMap_mail (x : Event) (w : Work) (h : String) (id : InstId) :
    x.mail.filterMap (·.answer? w h id) = (x.answer? w h id).toList := by
  cases x with
  | receive e now =>
    show [e].filterMap _ = (e.answer? w h id).toList
    cases hAnswer : e.answer? w h id <;> simp [hAnswer]
  | _ => rfl

/-- Who is announced by an event has written what the coordinator reads. -/
theorem Event.arrival?_eq_some {x : Event} {w : Work} {r : AgentRecord}
    (arrives : x.arrival? w = some r) :
    ∃ e ∈ x.mail, ∃ now, e.arrival? now w = some r ∧ r.hostname = e.hostname ∧
      r.routingKey = e.source := by
  cases x with
  | receive e now =>
    obtain ⟨hHost, hKey, -⟩ := Envelope.arrival?_eq_some arrives
    exact ⟨e, List.mem_singleton_self e, now, arrives, hHost, hKey⟩
  | _ => cases arrives

namespace Fleet

section Event

variable {f f' : Fleet} (hf : f.Sound) {x : Event} {reader : Option Party}
  {envelope : Message Float → Envelope Float}
  (hp : f.Passes reader envelope (f.coordinator.step x).sent f')
  (read : f.inbox .coordinator = x.mail ++ f.unread reader .coordinator)

include hf read in
/-- Who is announced has a mailbox, and is reached under the key that goes with the host. -/
theorem arrives_under_key {w : Work} {r : AgentRecord} (arrives : x.arrival? w = some r) :
    r.routingKey = f.keyOf (.agent w r.hostname) ∧ (f.boxOf (.agent w r.hostname)).isSome := by
  obtain ⟨e, hMem, now, hArrives, hHost, hKey⟩ := Event.arrival?_eq_some arrives
  have hProper := hf.mail .coordinator e (read ▸ List.mem_append_left _ hMem)
  rw [hKey, hHost]
  exact hProper.notice now w r hArrives

include hf in
/-- What the coordinator sends is proper. -/
theorem proper_of_event (arrivals : ∀ w r, x.arrival? w = some r →
      r.routingKey = f.keyOf (.agent w r.hostname))
    (envelopes : ∀ m, (envelope m).message = m)
    (sources : ∀ m, (envelope m).source = f.keyOf .coordinator) {d : Dispatch}
    (mem : d ∈ (f.coordinator.step x).sent) : f.Proper (envelope d.2) where
  notice now w r h := by
    -- a coordinator sends orders and replies, and neither is a notice
    obtain ⟨hNotInert, -, hNoOrder⟩ := Envelope.message_of_arrival h
    rw [envelopes] at hNotInert hNoOrder
    rcases f.coordinator.sent_tells hf.coordinator.ascending hf.coordinator.numbered x d mem with
      hInert | ⟨w', id, o, hOrder⟩
    · rw [hInert] at hNotInert
      cases hNotInert
    · rw [hNoOrder] at hOrder
      cases hOrder
  command w id o _ := sources d.2
  stream id key h := by
    rw [envelopes] at h
    have hMem : (d.1, Order.start d.2) ∈
        ordersIn (f.coordinator.step x).sent .aggregation id :=
      List.mem_filterMap.mpr ⟨d, mem, by simp [h, Message.order?]⟩
    obtain ⟨-, hStart⟩ := Coordinator.orders_step hf.coordinator
      (fun w h r hr => (hf.registered w h r hr).1) x arrivals _ hMem
    obtain ⟨i, hCommand, -, hKey⟩ := hStart d.2 rfl
    rw [h] at hCommand
    simp only [Instrumentation.command, Instrumentation.aggregateMessage,
      Message.enableAggregation.injEq] at hCommand
    exact hCommand.2.trans hKey

include hf hp in
/-- What the coordinator sends reaches a link as the orders under the key of its host. -/
theorem orders_tell (arrivals : ∀ w r, x.arrival? w = some r →
      r.routingKey = f.keyOf (.agent w r.hostname))
    (envelopes : ∀ m, (envelope m).message = m) (other : ∀ w h, reader ≠ some (.agent w h))
    (w : Work) (h : String) (id : InstId) :
    (f'.link w h id).orders = (f.link w h id).orders ++
      if (f.link w h id).reachable then ordersUnder (f.keyOf (.agent w h))
        (ordersIn (f.coordinator.step x).sent w id) else [] := by
  obtain ⟨arrives, hArrives, hOrders⟩ :=
    hp.filterMap_inbox (·.message.order? w id) (.agent w h)
  have hUnread : f.unread reader (.agent w h) = f.inbox (.agent w h) := if_neg (other w h)
  rw [hUnread] at hOrders
  show (f'.inbox (.agent w h)).filterMap (·.message.order? w id) = _
  rw [hOrders]
  show _ = (f.inbox (.agent w h)).filterMap (·.message.order? w id) ++ _
  congr 1
  -- orders go under keys of hosts, and under the key of this host only to this host
  have hKey : ∀ d ∈ (f.coordinator.step x).sent, ∀ o, d.2.order? w id = some o →
      arrives d.1 = (f.isReachable (.agent w h) && decide (d.1 = f.keyOf (.agent w h))) := by
    intro d hd o ho
    have hMem : (d.1, o) ∈ ordersIn (f.coordinator.step x).sent w id :=
      List.mem_filterMap.mpr ⟨d, hd, by rw [ho]; rfl⟩
    obtain ⟨⟨h', hd'⟩, -⟩ := Coordinator.orders_step hf.coordinator
      (fun w h r hr => (hf.registered w h r hr).1) x arrivals _ hMem
    rw [show d.1 = f.keyOf (.agent w h') from hd', hArrives]
    by_cases hh : h' = h
    · subst hh
      simp
    · have hKeys : f.keyOf (.agent w h') ≠ f.keyOf (.agent w h) := fun hEq =>
        hh (by injection Party.key_injective hEq)
      simp [hh, hKeys]
  simp only [link, ordersUnder, ordersIn, List.filterMap_filter, envelopes,
    List.filter_filterMap, List.map_filterMap]
  split
  · next hNear =>
    refine List.filterMap_congr fun d hd => ?_
    cases hOrder : d.2.order? w id with
    | none => simp
    | some o => simp [hKey d hd o hOrder, hNear, Option.filter]
  · next hFar =>
    refine List.filterMap_eq_nil_iff.mpr fun d hd => ?_
    cases hOrder : d.2.order? w id with
    | none => simp
    | some o => simp [hKey d hd o hOrder, hFar]

include hf hp read in
/-- **An event keeps a fleet sound.** -/
theorem sound_event (coordinator : f'.coordinator = (f.coordinator.step x).coordinator)
    (duty : ∀ w h, f'.duty w h = f.duty w h) (offer : ∀ w h, f'.offer w h = f.offer w h)
    (staffed : f'.Staffed) (other : ∀ w h, reader ≠ some (.agent w h))
    (envelopes : ∀ m, (envelope m).message = m)
    (sources : ∀ m, (envelope m).source = f.keyOf .coordinator) : f'.Sound := by
  have hArrivals := fun w r => arrives_under_key hf read (w := w) (r := r)
  have hNamed := fun w h r hr => (hf.registered w h r hr).1
  refine ⟨hp.wired, coordinator ▸ Coordinator.sound_step hf.coordinator x, staffed,
    fun w h r hr => ?_, ?_, fun w h id => ?_⟩
  · rw [hp.keyOf, hp.boxes]
    rw [coordinator] at hr
    -- a host is known by the key of its last notice, or as before
    rcases Coordinator.routingKey_step hf.coordinator.ascending hf.coordinator.numbered x w hr with
      ⟨r', hArrives, rfl, hKey⟩ | ⟨r', hOld, hKey⟩
    · rw [← hKey]
      exact hArrivals w r' hArrives
    · rw [← hKey]
      exact hf.registered w h r' hOld
  · exact hp.mail hf.mail fun d hd =>
      proper_of_event hf (fun w r h => (hArrivals w r h).1) envelopes sources hd
  · have hOrders := orders_tell hf hp (fun w r h => (hArrivals w r h).1) envelopes other w h id
    have hAnswers := hp.filterMap_inbox_of_silent (g := (·.answer? w h id)) (fun d hd => by
      rw [Envelope.answer?, envelopes]
      rcases f.coordinator.sent_tells hf.coordinator.ascending hf.coordinator.numbered x d hd with
        hInert | ⟨w', id', o, hOrder⟩
      · rw [Message.answer?_of_isInert hInert, ite_self]
      · rw [Message.answer?_of_order? hOrder, ite_self]) .coordinator
    have hBefore : (f.link w h id).answers = (x.answer? w h id).toList ++
        (f.unread reader .coordinator).filterMap (·.answer? w h id) := by
      show (f.inbox .coordinator).filterMap (·.answer? w h id) = _
      rw [read, List.filterMap_append, Event.filterMap_mail]
    have hLink := Coordinator.link_step hf.coordinator hNamed
      (fun w h h' hEq => by injection Party.key_injective hEq) (hf.links w h id) x
      (fun w r h => (hArrivals w r h).1) rfl hBefore
    have hSame : f'.link w h id = ({ f.link w h id with
        standing := (f.coordinator.step x).coordinator.standing w h id
        answers := (f.unread reader .coordinator).filterMap (Envelope.answer? · w h id) }.tell
          (ordersUnder (f.keyOf (.agent w h))
            (ordersIn (f.coordinator.step x).sent w id))) := by
      simp only [Link.tell, ← hOrders]
      simp only [link, coordinator, hp.isReachable, duty, offer, hAnswers]
    rw [hSame]
    exact hLink

end Event

end Fleet

end FleetMetrics
