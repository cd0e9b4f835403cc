import Mathlib
import FleetMetrics.Proofs.Coordinator.Answers

/-!
# Acknowledgements are confluent

The participants of an instrumentation acknowledge in any order, and the bus may mix the
acknowledgements of different instrumentations. One of them is the last a creation waits for, and
it is the last one that decides: it gives the request its answer, stops those who have started,
and gives back loads that all instrumentations share. Which one that is depends on the order.

What comes out does not. A creation ends upon what all its participants have said, not upon what
the last of them says, and loads are only counted down. So two acknowledgements of different
authors can change places, and any two orders of a batch are connected by such swaps.

The order within what is published, and within what is answered, does differ. The theorem is
about multisets there, which is what `List.Perm` says.

Main results:

* `hear_comm` — two acknowledgements of different authors can change places.
* `hearAll_perm` — so can those of a whole batch.
* `acks_confluent` — the same of envelopes as they arrive.
-/

namespace FleetMetrics

/-! ## Acknowledgements -/

/-- An acknowledgement of a command to start. -/
structure Ack where
  work : Work
  hostname : String
  id : InstId
  status : AckStatus

/-- Whose word on which instrumentation an acknowledgement is. -/
def Ack.author (a : Ack) : Work × InstId × String :=
  (a.work, a.id, a.hostname)

/-- Different authors with something to say on one instrumentation are different participants. -/
theorem Ack.other_of_author {a b : Ack} (same : a.id = b.id) (apart : a.author ≠ b.author) :
    ¬ (b.work = a.work ∧ b.hostname = a.hostname) := by
  rintro ⟨hWork, hHost⟩
  exact apart (by rw [author, author, hWork, hHost, same])

/-- The acknowledgement of a command to start that an envelope holds, if it holds one. -/
def Envelope.ack? (e : Envelope Float) : Option Ack :=
  match e.message with
  | .ack .enable w id s _ => some ⟨w, e.hostname, id, s⟩
  | _ => none

/-- The record in which an acknowledgement is entered. -/
def Instrumentation.hear (i : Instrumentation) (a : Ack) : Instrumentation :=
  i.setAck (Coordinator.ackState a.status) a.work a.hostname

/-- A word that is heard leaves the record under its number. -/
theorem Instrumentation.id_settled_hear (i : Instrumentation) (a : Ack) :
    (i.hear a).settled.id = i.id := by
  have hFixed := (fixed_settled (i.hear a)).trans (fixed_setAck i _ a.work a.hostname)
  exact congrArg (·.1) hFixed

/-! ## Turns that differ in order only -/

/-- Two turns lead to the same coordinator, and publish and answer the same in some order. -/
structure Turn.Same (t t' : Turn) : Prop where
  coordinator : t.coordinator = t'.coordinator
  sent : t.sent.Perm t'.sent
  answered : t.answered.Perm t'.answered

namespace Turn.Same

theorem refl (t : Turn) : t.Same t := ⟨rfl, .rfl, .rfl⟩

theorem trans {t u v : Turn} (h : t.Same u) (h' : u.Same v) : t.Same v :=
  ⟨h.coordinator.trans h'.coordinator, h.sent.trans h'.sent, h.answered.trans h'.answered⟩

/-- The same turns, followed by the same, are the same. -/
theorem andThen {t t' : Turn} (h : t.Same t') (f : Coordinator → Turn) :
    (t.andThen f).Same (t'.andThen f) := by
  obtain ⟨hCoordinator, hSent, hAnswered⟩ := h
  refine ⟨?_, ?_, ?_⟩
  · simp only [Turn.andThen, hCoordinator]
  · simpa only [Turn.andThen, hCoordinator] using hSent.append_right _
  · simpa only [Turn.andThen, hCoordinator] using hAnswered.append_right _

/-- What follows a turn may be replaced by what comes to the same. -/
theorem andThen_right (t : Turn) {f g : Coordinator → Turn}
    (h : (f t.coordinator).Same (g t.coordinator)) : (t.andThen f).Same (t.andThen g) :=
  ⟨h.coordinator, h.sent.append_left _, h.answered.append_left _⟩

/-- The same turns answer the same to each ticket. -/
theorem answersTo {t t' : Turn} (h : t.Same t') (ticket : Ticket) :
    (t.answersTo ticket).Perm (t'.answersTo ticket) :=
  h.answered.filterMap _

end Turn.Same

theorem Turn.andThen_assoc (t : Turn) (f g : Coordinator → Turn) :
    (t.andThen f).andThen g = t.andThen fun c => (f c).andThen g := by
  simp only [Turn.andThen, List.append_assoc]

theorem Turn.andThen_quiet (t : Turn) : t.andThen Turn.quiet = t := by
  simp only [Turn.andThen, Turn.quiet, List.append_nil]

namespace Coordinator

/-! ## The order of releases and of records -/

/-- Releases only count loads down, so their order does not matter. -/
theorem relieve_perm (c : Coordinator) {hosts hosts' : Work → List String}
    (perm : ∀ w, (hosts w).Perm (hosts' w)) : c.relieve hosts = c.relieve hosts' := by
  simp only [relieve, Directory.releaseAll_perm _ (perm .aggregation),
    Directory.releaseAll_perm _ (perm .instrumentation)]

/-- A record is stored and hosts are relieved in different places. -/
theorem store_relieve (c : Coordinator) (i : Instrumentation) (hosts : Work → List String) :
    (c.store i).relieve hosts = (c.relieve hosts).store i := rfl

/-- Records of different numbers can be stored in either order. -/
theorem store_comm {c : Coordinator} (sorted : c.instrumentations.Ascending)
    {i j : Instrumentation} (apart : i.id ≠ j.id) :
    (c.store i).store j = (c.store j).store i := by
  simp only [store, Table.insert_comm sorted apart]

/-! ## One acknowledgement -/

/-- An acknowledgement arrives. -/
def hear (c : Coordinator) (a : Ack) : Turn :=
  c.acknowledge a.work a.hostname a.id a.status

/-- The record in which it is entered, if it counts. -/
def record? (c : Coordinator) (a : Ack) : Option Instrumentation :=
  c.heard? a.work a.hostname a.id

/-- An acknowledgement counts if its record has not failed and the author's word is still open. -/
theorem record?_eq_some {c : Coordinator} {a : Ack} {i : Instrumentation} :
    c.record? a = some i ↔ c.instrumentations.find? a.id = some i ∧ i.stage ≠ .failed ∧
      i.ackOf a.work a.hostname = some .unknown :=
  heard?_eq_some

section Hear

variable {c : Coordinator} (hc : c.Sound) {a b : Ack} {i i' : Instrumentation}

/-- An acknowledgement that does not count changes nothing. -/
theorem hear_unheard (unheard : c.record? a = none) : c.hear a = .quiet c :=
  acknowledge_unheard unheard _

include hc

/-- An acknowledgement that counts is entered, which may decide the record. -/
theorem hear_heard (heard : c.record? a = some i) :
    c.hear a =
      { coordinator := (c.relieve fun w => refused a.work a.hostname a.status w ++
          (i.hear a).relieved w).store (i.hear a).settled
        sent := c.stops a.id (i.hear a).relieved
        answered := (i.hear a).verdict } :=
  acknowledge_heard hc.ascending hc.numbered heard a.status

/-- Hearing an acknowledgement keeps a coordinator sound. -/
theorem sound_hear (a : Ack) : (c.hear a).coordinator.Sound := by
  have hSound := sound_step hc
    (.receive ⟨"", a.hostname, .ack .enable a.work a.id a.status none⟩ ⟨0⟩)
  obtain ⟨w, h, id, s⟩ := a
  cases w <;> exact hSound

/-- What is heard about one instrumentation does not concern another. -/
theorem record?_hear_of_ne (apart : a.id ≠ b.id) :
    (c.hear a).coordinator.record? b = c.record? b := by
  cases hHeard : c.record? a with
  | none =>
    rw [hear_unheard hHeard]
    rfl
  | some i =>
    obtain ⟨hFind, -, -⟩ := record?_eq_some.mp hHeard
    have hId : (i.hear a).settled.id = a.id :=
      (i.id_settled_hear a).trans (hc.numbered _ _ hFind)
    rw [hear_heard hc hHeard, record?, record?, heard?, heard?]
    show ((c.instrumentations.insert (i.hear a).settled.id _).find? b.id).filter _ = _
    rw [hId, Table.find?_insert hc.ascending, if_neg (Ne.symm apart)]

/-- A creation that waits for one participant goes on when another one is heard. -/
theorem not_decided_hear (same : a.id = b.id) (apart : a.author ≠ b.author)
    (heard : c.record? a = some i) (heard' : c.record? b = some i) :
    (i.hear a).isDecided = false := by
  obtain ⟨hFind, -, hAck⟩ := record?_eq_some.mp heard
  obtain ⟨-, -, hAck'⟩ := record?_eq_some.mp heard'
  have hAcks := (hc.fits _ _ hFind).acks
  have hOther := Ack.other_of_author same apart
  have hStill : (i.hear a).ackOf b.work b.hostname = some .unknown := by
    rw [Instrumentation.hear, Instrumentation.ackOf_setAck hAcks _ (assigned_of_ackOf hAck),
      if_neg hOther, hAck']
  -- the other participant is unknown still
  have hWaits : (i.hear a).waiting = true :=
    (Instrumentation.waiting_iff (Instrumentation.ascending_setAck hAcks _ _ _)).mpr
      ⟨_, _, hStill⟩
  simp [Instrumentation.isDecided, hWaits]

/-- An acknowledgement counts, or does not, whoever else is heard about the instrumentation
before. -/
theorem record?_hear_of_eq (same : a.id = b.id) (apart : a.author ≠ b.author)
    (heard : c.record? a = some i) :
    (c.hear a).coordinator.record? b = (c.record? b).map (·.hear a) := by
  obtain ⟨hFind, hLive, hAck⟩ := record?_eq_some.mp heard
  have hAcks := (hc.fits _ _ hFind).acks
  have hId : (i.hear a).settled.id = a.id := (i.id_settled_hear a).trans (hc.numbered _ _ hFind)
  have hOther := Ack.other_of_author same apart
  have hWord : (i.hear a).settled.ackOf b.work b.hostname = i.ackOf b.work b.hostname := by
    rw [Instrumentation.ackOf_settled, Instrumentation.hear,
      Instrumentation.ackOf_setAck hAcks _ (assigned_of_ackOf hAck), if_neg hOther]
  have hAfter : (c.hear a).coordinator.instrumentations.find? b.id = some (i.hear a).settled := by
    rw [hear_heard hc heard]
    show (c.instrumentations.insert (i.hear a).settled.id _).find? b.id = _
    rw [hId, Table.find?_insert hc.ascending, if_pos same.symm]
  cases hHeard : c.record? b with
  | none =>
    -- the record is live, so it is the word of the author that is missing
    have hNot : i.ackOf b.work b.hostname ≠ some .unknown := fun hUnknown => by
      rw [record?_eq_some.mpr ⟨same ▸ hFind, hLive, hUnknown⟩] at hHeard
      cases hHeard
    simp [record?, heard?, hAfter, hWord, hNot]
  | some i' =>
    have hSame : i' = i := by
      have hFind' := (record?_eq_some.mp hHeard).1
      rw [← same, hFind] at hFind'
      exact (Option.some.inj hFind').symm
    subst hSame
    have hGoesOn := not_decided_hear hc same apart heard hHeard
    rw [Instrumentation.settled_of_not_decided hGoesOn] at hAfter hWord
    have hStage : (i'.hear a).stage = i'.stage := Instrumentation.stage_setAck i' _ _ _
    refine record?_eq_some.mpr ⟨hAfter, hStage ▸ hLive, ?_⟩
    · rw [hWord]
      exact (record?_eq_some.mp hHeard).2.2

/-! ## Two acknowledgements -/

/-- Two participants of one instrumentation are heard: the first word is only entered, and the
second one may end the creation. -/
theorem hear_hear_of_eq (same : a.id = b.id) (apart : a.author ≠ b.author)
    (heard : c.record? a = some i) (heard' : c.record? b = some i) :
    (c.hear a).andThen (·.hear b) =
      { coordinator := (c.relieve fun w => refused a.work a.hostname a.status w ++
          (refused b.work b.hostname b.status w ++ ((i.hear a).hear b).relieved w)).store
            ((i.hear a).hear b).settled
        sent := c.stops b.id ((i.hear a).hear b).relieved
        answered := ((i.hear a).hear b).verdict } := by
  have hGoesOn := not_decided_hear hc same apart heard heard'
  have hRecord : (c.hear a).coordinator.record? b = some (i.hear a) := by
    rw [record?_hear_of_eq hc same apart heard, heard', Option.map_some]
  have hSecond := hear_heard (sound_hear hc a) hRecord
  -- the first word ends nothing, so it is stored as it is and nobody is told anything
  have hFirst : c.hear a =
      ⟨(c.relieve (refused a.work a.hostname a.status)).store (i.hear a), [], []⟩ := by
    rw [hear_heard hc heard, Instrumentation.relieved_of_not_decided hGoesOn,
      Instrumentation.settled_of_not_decided hGoesOn,
      Instrumentation.verdict_of_not_decided hGoesOn]
    simp only [List.append_nil]
    rfl
  have hId : ((i.hear a).hear b).settled.id = (i.hear a).id :=
    (i.hear a).id_settled_hear b
  rw [Turn.andThen, hSecond, hFirst]
  simp only [List.nil_append, store_relieve, relieve_relieve]
  rw [store_store _ _ hId]
  congr 1
  exact stops_relieve c b.id (refused a.work a.hostname a.status) _

/-- Participants of two instrumentations are heard: each word does what it does alone. -/
theorem hear_hear_of_ne (apart : a.id ≠ b.id) (heard : c.record? a = some i)
    (heard' : c.record? b = some i') :
    (c.hear a).andThen (·.hear b) =
      { coordinator := ((c.relieve fun w =>
          (refused a.work a.hostname a.status w ++ (i.hear a).relieved w) ++
            (refused b.work b.hostname b.status w ++ (i'.hear b).relieved w)).store
              (i.hear a).settled).store (i'.hear b).settled
        sent := c.stops a.id (i.hear a).relieved ++ c.stops b.id (i'.hear b).relieved
        answered := (i.hear a).verdict ++ (i'.hear b).verdict } := by
  have hSecond := hear_heard (sound_hear hc a)
    ((record?_hear_of_ne hc apart).trans heard')
  rw [Turn.andThen, hSecond, hear_heard hc heard]
  simp only [store_relieve, relieve_relieve]
  congr 2
  exact stops_relieve c b.id
    (fun w => refused a.work a.hostname a.status w ++ (i.hear a).relieved w) _

/-- An acknowledgement that does not count is not made to count by another participant's. -/
theorem record?_hear_eq_none (apart : a.author ≠ b.author) (unheard : c.record? b = none) :
    (c.hear a).coordinator.record? b = none := by
  by_cases hId : a.id = b.id
  · cases hHeard : c.record? a with
    | none => rwa [hear_unheard hHeard]
    | some i => rw [record?_hear_of_eq hc hId apart hHeard, unheard, Option.map_none]
  · rw [record?_hear_of_ne hc hId, unheard]

/-- One of the two does not count: it changes nothing, before the other one or after it. -/
theorem hear_comm_of_unheard (apart : a.author ≠ b.author) (unheard : c.record? b = none) :
    (c.hear a).andThen (·.hear b) = (c.hear b).andThen (·.hear a) := by
  have hAfter : (c.hear a).andThen (·.hear b) = c.hear a := by
    rw [Turn.andThen, hear_unheard (record?_hear_eq_none hc apart unheard)]
    exact Turn.andThen_quiet _
  have hBefore : (c.hear b).andThen (·.hear a) = c.hear a := by
    rw [hear_unheard unheard]
    rfl
  rw [hAfter, hBefore]

/-- Both count for one record: whichever comes last ends the creation, on the same words. -/
theorem hear_comm_of_eq (same : a.id = b.id) (apart : a.author ≠ b.author)
    (heard : c.record? a = some i) (heard' : c.record? b = some i) :
    (c.hear a).andThen (·.hear b) = (c.hear b).andThen (·.hear a) := by
  obtain ⟨hFind, -, hAck⟩ := record?_eq_some.mp heard
  obtain ⟨-, -, hAck'⟩ := record?_eq_some.mp heard'
  have hWords : (i.hear a).hear b = (i.hear b).hear a :=
    Instrumentation.setAck_comm (hc.fits _ _ hFind).acks (assigned_of_ackOf hAck)
      (assigned_of_ackOf hAck') (Ack.other_of_author same apart) _ _
  have hLoads : c.relieve (fun w => refused a.work a.hostname a.status w ++
      (refused b.work b.hostname b.status w ++ ((i.hear b).hear a).relieved w)) =
        c.relieve fun w => refused b.work b.hostname b.status w ++
          (refused a.work a.hostname a.status w ++ ((i.hear b).hear a).relieved w) := by
    refine relieve_perm c fun w => ?_
    simp only [← List.append_assoc]
    exact List.perm_append_comm.append_right _
  rw [hear_hear_of_eq hc same apart heard heard',
    hear_hear_of_eq hc same.symm (Ne.symm apart) heard' heard, hWords, same, hLoads]

/-- They count for different records: each does what it does alone, in another order. -/
theorem hear_comm_of_ne (apart : a.id ≠ b.id) (heard : c.record? a = some i)
    (heard' : c.record? b = some i') :
    ((c.hear a).andThen (·.hear b)).Same ((c.hear b).andThen (·.hear a)) := by
  have hApart : (i.hear a).settled.id ≠ (i'.hear b).settled.id := by
    rw [Instrumentation.id_settled_hear, Instrumentation.id_settled_hear,
      hc.numbered _ _ (record?_eq_some.mp heard).1, hc.numbered _ _ (record?_eq_some.mp heard').1]
    exact apart
  have hLoads : c.relieve (fun w =>
      (refused a.work a.hostname a.status w ++ (i.hear a).relieved w) ++
        (refused b.work b.hostname b.status w ++ (i'.hear b).relieved w)) =
        c.relieve fun w =>
          (refused b.work b.hostname b.status w ++ (i'.hear b).relieved w) ++
            (refused a.work a.hostname a.status w ++ (i.hear a).relieved w) :=
    relieve_perm c fun w => List.perm_append_comm
  have hSorted : ∀ hosts, (c.relieve hosts).instrumentations.Ascending := fun _ => hc.ascending
  -- the same coordinator, but what is published and answered comes in another order
  rw [hear_hear_of_ne hc apart heard heard', hear_hear_of_ne hc (Ne.symm apart) heard' heard,
    hLoads, store_comm (hSorted _) hApart]
  exact ⟨rfl, List.perm_append_comm, List.perm_append_comm⟩

/-- **Two acknowledgements of different authors can change places.** -/
theorem hear_comm (apart : a.author ≠ b.author) :
    ((c.hear a).andThen (·.hear b)).Same ((c.hear b).andThen (·.hear a)) := by
  cases hB : c.record? b with
  | none => exact hear_comm_of_unheard hc apart hB ▸ .refl _
  | some i' =>
    cases hA : c.record? a with
    | none => exact hear_comm_of_unheard hc (Ne.symm apart) hA ▸ .refl _
    | some i =>
      by_cases hId : a.id = b.id
      · have hFind := (record?_eq_some.mp hA).1
        have hFind' := (record?_eq_some.mp hB).1
        obtain rfl : i' = i := Option.some.inj (hFind'.symm.trans (hId ▸ hFind))
        exact hear_comm_of_eq hc hId apart hA hB ▸ .refl _
      · exact hear_comm_of_ne hc hId hA hB

end Hear

/-! ## Batches -/

/-- Acknowledgements arrive one after the other. -/
def hearAll (c : Coordinator) : List Ack → Turn
  | [] => .quiet c
  | a :: rest => (c.hear a).andThen (·.hearAll rest)

/-- **The order of a batch does not matter**, if everybody acknowledges at most once. -/
theorem hearAll_perm {as bs : List Ack} (perm : as.Perm bs) (distinct : (as.map Ack.author).Nodup)
    {c : Coordinator} (hc : c.Sound) : (c.hearAll as).Same (c.hearAll bs) := by
  induction perm generalizing c with
  | nil => exact .refl _
  | cons a _ ih =>
    have hRest := (List.nodup_cons.mp distinct).2
    exact .andThen_right _ (ih hRest (sound_hear hc a))
  | swap a b rest =>
    have hApart : b.author ≠ a.author := by
      intro hSame
      refine (List.nodup_cons.mp distinct).1 ?_
      rw [hSame]
      exact List.mem_cons_self
    simp only [hearAll, ← Turn.andThen_assoc]
    exact (hear_comm hc hApart).andThen _
  | trans first _ ih ih' =>
    exact (ih distinct hc).trans (ih' ((first.map Ack.author).nodup_iff.mp distinct) hc)

/-- An envelope with an acknowledgement is what it acknowledges, wherever it comes from and
whenever. -/
theorem step_of_ack {e : Envelope Float} {a : Ack} (holds : e.ack? = some a) (c : Coordinator)
    (now : Timestamp) : c.step (.receive e now) = c.hear a := by
  obtain ⟨source, hostname, m⟩ := e
  unfold Envelope.ack? at holds
  split at holds
  · next w id s error hMessage =>
    obtain rfl : m = _ := hMessage
    rw [← Option.some.inj holds]
    cases w <;> rfl
  · cases holds

/-- A batch of acknowledgements is heard one by one, whatever envelopes they came in. -/
theorem play_of_acks {batch : List (Envelope Float × Timestamp)}
    (acks : ∀ e ∈ batch, (e.1.ack?).isSome) (c : Coordinator) :
    c.play (batch.map fun e => .receive e.1 e.2) =
      c.hearAll ((batch.map (·.1)).filterMap Envelope.ack?) := by
  induction batch generalizing c with
  | nil => rfl
  | cons e rest ih =>
    obtain ⟨a, ha⟩ := Option.isSome_iff_exists.mp (acks e List.mem_cons_self)
    have hRest := ih fun e' he' => acks e' (List.mem_cons_of_mem _ he')
    simp only [List.map_cons, List.filterMap_cons, ha, play, hearAll, step_of_ack ha]
    simp only [hRest]

/-- **Acknowledgements are confluent.** In every state that a coordinator gets into, a batch of
envelopes with acknowledgements, at most one from each participant of each instrumentation, may
arrive in any order and at any times: the coordinator ends in the same state, it publishes the
same, and it answers the same to each request. -/
theorem acks_confluent {c : Coordinator} (reachable : c.Reachable)
    {batch batch' : List (Envelope Float × Timestamp)}
    (perm : (batch.map (·.1)).Perm (batch'.map (·.1)))
    (acks : ∀ e ∈ batch, (e.1.ack?).isSome)
    (distinct : ((batch.map (·.1)).map fun e => e.ack?.map Ack.author).Nodup) :
    let t := c.play (batch.map fun e => .receive e.1 e.2)
    let t' := c.play (batch'.map fun e => .receive e.1 e.2)
    t.coordinator = t'.coordinator ∧ t.sent.Perm t'.sent ∧ t.answered.Perm t'.answered ∧
      ∀ ticket, (t.answersTo ticket).Perm (t'.answersTo ticket) := by
  intro t t'
  have hAcks' : ∀ e ∈ batch', (e.1.ack?).isSome := by
    intro e he
    obtain ⟨e', he', hSame⟩ := List.mem_map.mp (perm.mem_iff.mpr (List.mem_map_of_mem he))
    rw [← hSame]
    exact acks e' he'
  have hDistinct : (((batch.map (·.1)).filterMap Envelope.ack?).map Ack.author).Nodup := by
    have hAuthors := distinct.filterMap (f := id) fun o o' author h h' => h.trans h'.symm
    rwa [List.filterMap_map, Function.id_comp, ← List.map_filterMap] at hAuthors
  have hSame : t.Same t' := by
    show (c.play _).Same (c.play _)
    rw [play_of_acks acks, play_of_acks hAcks']
    exact hearAll_perm (perm.filterMap _) hDistinct (sound_of_reachable reachable)
  exact ⟨hSame.coordinator, hSame.sent, hSame.answered, hSame.answersTo⟩

/-- In a brief history the aggregator starts and the instrumenter fails. Whoever is heard first,
the request is answered the same. -/
theorem acks_confluent_brief :
    let c := (Coordinator.new "k" 3).run briefHistory
    let started : Envelope Float :=
      ⟨"k.aggregator.g", "g", .ack .enable .aggregation 1 .enabled none⟩
    let failed : Envelope Float :=
      ⟨"k.instrumenter.h", "h", .ack .enable .instrumentation 1 .disabled none⟩
    let t := c.play [.receive started ⟨1⟩, .receive failed ⟨2⟩]
    let t' := c.play [.receive failed ⟨1⟩, .receive started ⟨2⟩]
    c.Reachable ∧ t.coordinator = t'.coordinator ∧ (t.answersTo 0).Perm (t'.answersTo 0) ∧
      t.answersTo 0 ≠ [] := by
  intro c started failed t t'
  have hReachable : c.Reachable := ⟨"k", 3, briefHistory, rfl⟩
  have hPerm : [started, failed].Perm [failed, started] := .swap _ _ _
  obtain ⟨hCoordinator, -, -, hAnswers⟩ :=
    @acks_confluent _ hReachable [(started, ⟨1⟩), (failed, ⟨2⟩)] [(failed, ⟨1⟩), (started, ⟨2⟩)]
      hPerm (by decide) (by decide)
  exact ⟨hReachable, hCoordinator, hAnswers 0, by decide⟩

end Coordinator

end FleetMetrics
