import Mathlib
import FleetMetrics.Proofs.Coordinator.Confluence

/-!
# What concerns a coordinator

The bus delivers whatever anybody publishes: texts that are no messages, messages for somebody
else, acknowledgements that come twice, too late, or from hosts that were never asked. A
coordinator has to let all of that pass without a trace. The danger is in the acknowledgements.
The record is looked up before it is clear that the acknowledgement counts, and one that counts may
end the creation, which reaches into the directories that all records share.

`Concerns` lists what a coordinator takes notice of. A record that is gone or has failed, a host
that is not asked and a host that has answered are all one case: nobody waits for the word.

What an acknowledgement that counts leaves alone is said by `Coordinator.bare`, the coordinator
without its records and loads, and by look-ups: other records, and the loads of hosts that take no
part in the record.

Main results:

* `handle_unconcerned` — an envelope that does not concern the coordinator gets at most a reply.
* `frame_of_word` — what an acknowledgement that counts leaves alone.
* `run_of_unconcerned` — however many envelopes of no concern arrive, nothing changes.
* `irrelevant_input_ignored` — all of it, of reachable coordinators.
-/

namespace FleetMetrics

/-! ## Everything but records and loads -/

/-- A directory without its loads: who is known, in which order, and how. -/
def Directory.unloaded (d : Directory) : Directory :=
  ⟨d.records.map (·.changeLoad fun _ => 0), by
    rw [List.map_map]
    exact d.distinct⟩

/-- Apart from loads, changing a load changes nothing. -/
theorem Directory.unloaded_changeLoad (d : Directory) (host : String) (g : Nat → Nat) :
    (d.changeLoad host g).unloaded = d.unloaded := by
  simp only [unloaded, changeLoad, Roster.change, List.map_map, mk.injEq]
  refine List.map_congr_left fun r _ => ?_
  rw [Function.comp_apply]
  split <;> rfl

theorem Directory.unloaded_acquireAll (d : Directory) (hosts : List String) :
    (d.acquireAll hosts).unloaded = d.unloaded := by
  unfold acquireAll
  induction hosts generalizing d with
  | nil => rfl
  | cons host rest ih => rw [List.foldl_cons, ih, acquire, unloaded_changeLoad]

theorem Directory.unloaded_releaseAll (d : Directory) (hosts : List String) :
    (d.releaseAll hosts).unloaded = d.unloaded := by
  unfold releaseAll
  induction hosts generalizing d with
  | nil => rfl
  | cons host rest ih => rw [List.foldl_cons, ih, release, unloaded_changeLoad]

namespace Coordinator

/-- A coordinator without its records and loads. -/
def bare (c : Coordinator) : Coordinator :=
  { c with
    registry :=
      { c.registry with
        instrumenters := c.registry.instrumenters.unloaded
        aggregators := c.registry.aggregators.unloaded }
    instrumentations := [] }

theorem bare_store (c : Coordinator) (i : Instrumentation) : (c.store i).bare = c.bare := rfl

theorem directory_store (c : Coordinator) (i : Instrumentation) (w : Work) :
    (c.store i).registry.directory w = c.registry.directory w := rfl

/-- Apart from records and loads, relieving hosts changes nothing. -/
theorem bare_relieve (c : Coordinator) (hosts : Work → List String) :
    (c.relieve hosts).bare = c.bare := by
  simp only [bare, relieve, withLoads, Directory.unloaded_releaseAll]

/-! ## What is of no concern -/

/-- What a coordinator takes notice of: a participant that comes online, and an acknowledgement of
a command to start, by a participant that a record which has not failed waits for. -/
inductive Concerns (c : Coordinator) (e : Envelope Float) : Prop where
  | instrumenter {agent : AgentInfo} {modules : Catalog}
      (notice : e.message = .instrumenterOnline agent modules)
  | aggregator {agent : AgentInfo} (notice : e.message = .aggregatorOnline agent)
  | word {w : Work} {id : InstId} {s : AckStatus} {error : Option String} {i : Instrumentation}
      (message : e.message = .ack .enable w id s error)
      (found : c.instrumentations.find? id = some i) (live : i.stage ≠ .failed)
      (unanswered : i.ackOf w e.hostname = some .unknown)

/-- What is replied to an envelope, whatever the state. -/
def replies (c : Coordinator) (e : Envelope Float) : List Dispatch :=
  match e.message with
  | .ping => [(e.source, .pingAck)]
  | .status => [(e.source, .statusAck c.status)]
  | _ => []

/-- An acknowledgement of a command to start is heard as one of its sender. -/
theorem handle_of_word {e : Envelope Float} {w : Work} {id : InstId} {s : AckStatus}
    {error : Option String} (message : e.message = .ack .enable w id s error) (c : Coordinator)
    (now : Timestamp) : c.handle e now = c.hear ⟨w, e.hostname, id, s⟩ := by
  have hAck : e.ack? = some ⟨w, e.hostname, id, s⟩ := by
    unfold Envelope.ack?
    rw [message]
  exact step_of_ack hAck c now

/-- **What does not concern a coordinator leaves no trace**, but for the reply to a ping or to a
question for the status. -/
theorem handle_unconcerned {c : Coordinator} {e : Envelope Float} (none : ¬ c.Concerns e)
    (now : Timestamp) : c.handle e now = ⟨c, c.replies e, []⟩ := by
  by_cases hWord : ∃ w id s error, e.message = .ack .enable w id s error
  · obtain ⟨w, id, s, error, hMessage⟩ := hWord
    -- a record that heard it would be one that waits for the word
    have hUnheard : c.record? ⟨w, e.hostname, id, s⟩ = .none := by
      by_contra hHeard
      obtain ⟨i, hi⟩ := Option.ne_none_iff_exists'.mp hHeard
      obtain ⟨hFind, hLive, hUnanswered⟩ := record?_eq_some.mp hi
      exact none (.word hMessage hFind hLive hUnanswered)
    rw [handle_of_word hMessage, hear_unheard hUnheard]
    simp only [replies, hMessage, Turn.quiet]
  · obtain ⟨source, hostname, m⟩ := e
    cases m with
    | instrumenterOnline => exact absurd (.instrumenter rfl) none
    | aggregatorOnline => exact absurd (.aggregator rfl) none
    | ack action =>
      cases action with
      | enable => exact absurd ⟨_, _, _, _, rfl⟩ hWord
      | disable => rfl
    | _ => rfl

/-- However many envelopes of no concern arrive, nothing changes. -/
theorem run_of_unconcerned {c : Coordinator} {xs : List (Envelope Float × Timestamp)}
    (none : ∀ x ∈ xs, ¬ c.Concerns x.1) : c.run (xs.map fun x => .receive x.1 x.2) = c := by
  induction xs with
  | nil => rfl
  | cons x rest ih =>
    have hStep : (c.step (.receive x.1 x.2)).coordinator = c := by
      rw [step, handle_unconcerned (none x List.mem_cons_self)]
    have hRest := ih fun y hy => none y (List.mem_cons_of_mem _ hy)
    rw [List.map_cons, run, List.foldl_cons, hStep]
    exact hRest

/-! ## What an acknowledgement that counts leaves alone -/

/-- The hosts that an acknowledgement releases take part in its record. -/
theorem takes_part_of_released {i : Instrumentation} (sorted : i.instrumenterAcks.Ascending)
    {a : Ack} (unanswered : i.ackOf a.work a.hostname = some .unknown) {w : Work} {h : String}
    (released : h ∈ refused a.work a.hostname a.status w ++ (i.hear a).relieved w) :
    (i.ackOf w h).isSome := by
  rcases List.mem_append.mp released with hRefused | hRelieved
  · unfold refused at hRefused
    split at hRefused
    · next hw =>
      rw [hw.1, List.mem_singleton.mp hRefused, unanswered]
      rfl
    · cases hRefused
  · have hSorted := Instrumentation.ascending_setAck sorted (ackState a.status) a.work a.hostname
    obtain ⟨-, word, hWord, -⟩ := (Instrumentation.mem_relieved hSorted).mp hRelieved
    rw [Instrumentation.ackOf_setAck sorted _ (assigned_of_ackOf unanswered)] at hWord
    split at hWord
    · next hSame =>
      rw [hSame.1, hSame.2, unanswered]
      rfl
    · rw [hWord]
      rfl

/-- **What an acknowledgement that counts leaves alone.** It is entered in its record, which may
end the creation. Nothing else changes but loads, and of these only the loads of hosts that take
part in the record. -/
theorem frame_of_word {c : Coordinator} (hc : c.Sound) {a : Ack} {i : Instrumentation}
    (heard : c.record? a = some i) :
    let c' := (c.hear a).coordinator
    c'.bare = c.bare ∧
      (∀ id, c'.instrumentations.find? id =
        if id = a.id then some (i.hear a).settled else c.instrumentations.find? id) ∧
      ∀ w h, i.ackOf w h = none →
        (c'.registry.directory w).find? h = (c.registry.directory w).find? h := by
  intro c'
  obtain ⟨hFind, -, hWord⟩ := record?_eq_some.mp heard
  have hFits := hc.fits _ i hFind
  have hAfter : c' = (c.relieve fun w =>
      refused a.work a.hostname a.status w ++ (i.hear a).relieved w).store (i.hear a).settled := by
    show (c.hear a).coordinator = _
    rw [hear_heard hc heard]
  rw [hAfter]
  refine ⟨?_, fun id => ?_, fun w h hOut => ?_⟩
  · rw [bare_store, bare_relieve]
  · show (c.instrumentations.insert _ _).find? id = _
    rw [Table.find?_insert hc.ascending, Instrumentation.id_settled_hear, hFits.numbered]
  -- only hosts that take part are released
  · have hNone : h ∉ refused a.work a.hostname a.status w ++ (i.hear a).relieved w := by
      intro hMem
      have hPart := takes_part_of_released hFits.acks hWord hMem
      rw [hOut] at hPart
      cases hPart
    rw [directory_store, directory_relieve, Directory.find?_releaseAll,
      List.count_eq_zero.mpr hNone]
    cases (c.registry.directory w).find? h <;> rfl

/-- **Irrelevant and malformed input changes nothing.** In every reachable state

* a text that is no message changes nothing, and nothing is published or answered;
* an envelope changes something only if it announces a participant, or acknowledges a command to
  start for a record in the table that has not failed, by a host whose word the record waits for;
  otherwise nothing changes, nobody is answered, and nothing is published, but for one reply to the
  source of a ping or of a question for the status;
* such an acknowledgement changes its own record, and the loads of hosts that take part in the
  record, and nothing else. -/
theorem irrelevant_input_ignored {c : Coordinator} (reachable : c.Reachable) (now : Timestamp) :
    (∀ text fault, StampedEnvelope.decode text = .error fault →
      c.handleText text now = ⟨c, [], []⟩) ∧
    (∀ e, ¬ c.Concerns e → c.handle e now = ⟨c, c.replies e, []⟩) ∧
    ∀ e w id s error i, e.message = .ack .enable w id s error →
      c.instrumentations.find? id = some i → i.stage ≠ .failed →
      i.ackOf w e.hostname = some .unknown →
      let c' := (c.handle e now).coordinator
      c'.bare = c.bare ∧
        (∀ id', c'.instrumentations.find? id' =
          if id' = id then some (i.setAck (ackState s) w e.hostname).settled
          else c.instrumentations.find? id') ∧
        ∀ w' h, i.ackOf w' h = none →
          (c'.registry.directory w').find? h = (c.registry.directory w').find? h := by
  have hc := sound_of_reachable reachable
  refine ⟨fun text fault hDecode => ?_, fun e hNone => handle_unconcerned hNone now, ?_⟩
  · unfold handleText
    rw [hDecode]
    rfl
  · intro e w id s error i hMessage hFind hLive hWord c'
    have hHeard : c.record? ⟨w, e.hostname, id, s⟩ = some i :=
      record?_eq_some.mpr ⟨hFind, hLive, hWord⟩
    have hFrame := frame_of_word hc hHeard
    rwa [← handle_of_word hMessage c now] at hFrame

/-- In a brief history a text that breaks off is dropped, and so is the acknowledgement of a host
that was not asked. That of the instrumenter is entered in the record. -/
theorem irrelevant_input_ignored_brief :
    let c := (Coordinator.new "k" 3).run briefHistory
    let stray : Envelope Float :=
      ⟨"k.instrumenter.x", "x", .ack .enable .instrumentation 1 .enabled none⟩
    let refusal : Envelope Float :=
      ⟨"k.instrumenter.h", "h", .ack .enable .instrumentation 1 .disabled none⟩
    let c' := (c.handle refusal ⟨1⟩).coordinator
    c.Reachable ∧ c.handleText "\x7b" ⟨1⟩ = ⟨c, [], []⟩ ∧ ¬ c.Concerns stray ∧
      c.handle stray ⟨1⟩ = ⟨c, [], []⟩ ∧ c'.bare = c.bare ∧
      c'.instrumentations.find? 1 =
        (c.instrumentations.find? 1).map fun i =>
          (i.setAck .failed .instrumentation "h").settled := by
  intro c stray refusal c'
  have hReachable : c.Reachable := ⟨"k", 3, briefHistory, rfl⟩
  obtain ⟨hText, hOther, hWord⟩ := irrelevant_input_ignored hReachable ⟨1⟩
  have hStray : ¬ c.Concerns stray := by
    rintro (⟨⟨⟩⟩ | ⟨⟨⟩⟩ | ⟨hMessage, hFind, -, hUnanswered⟩)
    cases hMessage
    have hOut : (c.instrumentations.find? 1).bind (·.ackOf .instrumentation "x") = none := by decide
    rw [hFind, Option.bind_some, hUnanswered] at hOut
    cases hOut
  obtain ⟨hBare, hTable, -⟩ :=
    hWord refusal .instrumentation 1 .disabled none _ rfl rfl (by decide) (by decide)
  exact ⟨hReachable, hText _ _ rfl, hStray, hOther stray hStray, hBare, hTable 1⟩

end Coordinator

end FleetMetrics
