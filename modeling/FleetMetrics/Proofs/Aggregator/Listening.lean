import Mathlib
import FleetMetrics.Fleet
import FleetMetrics.Proofs.Bus.Delivery
import FleetMetrics.Proofs.Retention
import FleetMetrics.Proofs.Routing

/-!
# The streams an aggregator listens on

What an aggregator collects stands in its store, what it listens on in the routes of the bus, and
nothing ties the two together but that the aggregator changes both at once. A stream that is bound
too long keeps feeding an instrumentation that is gone; one that is unbound too early loses all data
of one that is not, and nobody is told. Commands come in any order and are repeated, others use the
same bus, and the routes also have mailboxes that are gone.

A `Listener` is an aggregator with its mailbox on a bus with any past. It attends to envelopes one
after the other, and in between the others do what they like to the bus, as long as they leave the
bindings of its mailbox alone and a handle to it (`Listener.Attends`). The argument goes through the
history of the bus, where what a mailbox is bound to is a matter of binds and unbinds alone: what an
aggregator asks of the bus is, key by key, what changes in its own list of keys
(`Aggregator.bindings_handle`).

This needs keys to be apart. Would two instrumentations share a stream, the end of one would unbind
the other. The keys that a coordinator gives out are apart (`wellKeyed_of_stream`).

Main results:

* `Aggregator.bindings_handle` — the keys after an envelope, by what was asked of the bus.
* `Listener.listening_of_attends` — store and routes agree at any time.
* `Listener.listens_exactly` — what an aggregator listens on, its acknowledgements, and its end.
-/

namespace FleetMetrics

variable {N : Type} [Arithmetic N]

/-! ## Listeners -/

/-- An aggregator at its mailbox on a bus. -/
structure Listener (N : Type) where
  agent : Aggregator N
  box : BoxId
  bus : Bus (Envelope N)

/-- What others may do to a bus while somebody has a mailbox: they leave its bindings alone, and a
handle to it. -/
def Bus.Act.Spares {α : Type} (x : Bus.Act α) (b : Bus α) (box : BoxId) : Prop :=
  match x with
  | .bind _ other | .unbind _ other => other ≠ box
  | .drop other => other = box → 1 < b.handles box
  | _ => True

namespace Listener

/-- An aggregator opens its mailbox. -/
def join (a : Aggregator N) (b : Bus (Envelope N)) : Listener N :=
  ⟨a, (b.openMailbox a.bindings).1, (b.openMailbox a.bindings).2⟩

/-- It handles an envelope: what is posted, and the listener afterwards. -/
def handle (l : Listener N) (e : Envelope N) : List (Posting N) × Listener N :=
  let (after, effects) := l.agent.handle e
  let (posted, bus) := l.bus.perform l.box l.agent.envelope effects
  (posted, ⟨after, l.box, bus⟩)

/-- It stops: the bus without it. -/
def stop (l : Listener N) : Bus (Envelope N) :=
  (l.bus.unbindAll l.box l.agent.allBindings).drop l.box

/-- An aggregator joins a bus that others have used before, and attends to envelopes while they go
on to use it. -/
inductive Attends (keyBase hostname : String) (retain : Nat) :
    List (Envelope N) → Listener N → Prop
  | join {past : Bus.History (Envelope N)} (possible : past.Possible) :
      Attends keyBase hostname retain [] (.join (.new keyBase hostname retain) past.bus)
  | handle {es : List (Envelope N)} {l : Listener N}
      (attends : Attends keyBase hostname retain es l) (e : Envelope N) :
      Attends keyBase hostname retain (es ++ [e]) (l.handle e).2
  | other {es : List (Envelope N)} {l : Listener N}
      (attends : Attends keyBase hostname retain es l) {x : Bus.Act (Envelope N)}
      (held : ∀ box, x.box? = some box → 0 < l.bus.handles box) (spares : x.Spares l.bus l.box) :
      Attends keyBase hostname retain es { l with bus := l.bus.act x }

end Listener

/-! ### In a fleet -/

namespace Fleet

/-- An aggregator that is added to a fleet joins its bus as a listener does. -/
theorem addAggregator_eq (f : Fleet) (a : Aggregator Float) :
    f.addAggregator a =
      let f := f.dropBox (f.aggregators.find? a.hostname)
      let l := Listener.join a f.bus
      { f with bus := l.bus, aggregators := f.aggregators.put ⟨a.hostname, l.agent, l.box⟩ } := rfl

/-- What an aggregator of a fleet does with an envelope is what its listener does on the bus of the
fleet. -/
theorem aggregatorHandle_eq {f : Fleet} {hostname : String} {s : Station (Aggregator Float)}
    (found : f.aggregators.find? hostname = some s) (e : Envelope Float) :
    f.aggregatorHandle hostname e =
      let (posted, l) := Listener.handle ⟨s.agent, s.box, f.bus⟩ e
      ⟨{ f with bus := l.bus, aggregators := f.aggregators.change hostname fun _ => l.agent },
        posted, []⟩ := by
  rw [aggregatorHandle, found]
  rfl

/-- An aggregator that is retired leaves the bus as a listener does. -/
theorem retireAggregator_eq {f : Fleet} {hostname : String} {s : Station (Aggregator Float)}
    (found : f.aggregators.find? hostname = some s) :
    f.retireAggregator hostname = { f with bus := Listener.stop ⟨s.agent, s.box, f.bus⟩ } := by
  rw [retireAggregator, found]
  rfl

end Fleet

/-! ## Keys -/

/-- The key under which an instrumentation was enabled; none once it was disabled. -/
def enabledUnder (id : InstId) (es : List (Envelope N)) : Option String :=
  es.foldl (fun kept e => e.follow id (fun streamKey => streamKey) (fun key _ => key) kept) none

/-- Different instrumentations are enabled under different keys, and under none that the agent has
anyway. -/
structure WellKeyed (keyBase hostname : String) (es : List (Envelope N)) : Prop where
  ids : ∀ e ∈ es, ∀ e' ∈ es, ∀ id id' key, e.message = .enableAggregation id key →
    e'.message = .enableAggregation id' key → id = id'
  own : ∀ e ∈ es, ∀ id key, e.message = .enableAggregation id key →
    key ≠ Routing.agent keyBase .aggregator hostname ∧ key ≠ Routing.broadcast keyBase

section Keys

omit [Arithmetic N]

/-- The last envelope follows those before it. -/
theorem enabledUnder_concat (id : InstId) (es : List (Envelope N)) (e : Envelope N) :
    enabledUnder id (es ++ [e]) =
      e.follow id (fun streamKey => streamKey) (fun key _ => key) (enabledUnder id es) := by
  rw [enabledUnder, List.foldl_append]
  rfl

/-- If different instrumentations have different keys over a history, they have over the part of it
that came first. -/
theorem WellKeyed.of_append {keyBase hostname : String} {es es' : List (Envelope N)}
    (keyed : WellKeyed keyBase hostname (es ++ es')) : WellKeyed keyBase hostname es where
  ids e he e' he' := keyed.ids e (List.mem_append_left _ he) e' (List.mem_append_left _ he')
  own e he := keyed.own e (List.mem_append_left _ he)

/-- What an instrumentation is enabled under, some envelope has said. -/
theorem exists_of_enabledUnder {id : InstId} {es : List (Envelope N)} {key : String}
    (enabled : enabledUnder id es = some key) :
    ∃ e ∈ es, e.message = .enableAggregation id key := by
  induction es using List.reverseRecOn with
  | nil => cases enabled
  | append_singleton es e ih =>
    rw [enabledUnder_concat] at enabled
    have hEarlier : enabledUnder id es = some key →
        ∃ e' ∈ es ++ [e], e'.message = .enableAggregation id key := fun h =>
      let ⟨e', he', hMessage⟩ := ih h
      ⟨e', List.mem_append_left _ he', hMessage⟩
    unfold Envelope.follow at enabled
    split at enabled
    · next id' streamKey hMessage =>
      split at enabled
      · next hId =>
        -- the first key stays as long as the instrumentation does
        cases hOld : enabledUnder id es with
        | none =>
          rw [hOld] at enabled
          refine ⟨e, by simp, ?_⟩
          rw [hMessage, hId, ← Option.some.inj enabled]
          rfl
        | some key' =>
          rw [hOld] at enabled
          exact hEarlier (hOld.trans enabled)
      · exact hEarlier enabled
    · split at enabled
      · cases enabled
      · exact hEarlier enabled
    · split at enabled
      · rw [Option.map_id'] at enabled
        exact hEarlier enabled
      · exact hEarlier enabled
    · exact hEarlier enabled

/-- The keys that a coordinator derives are apart. -/
theorem wellKeyed_of_stream {keyBase hostname : String} {es : List (Envelope N)}
    (derived : ∀ e ∈ es, ∀ id key, e.message = .enableAggregation id key →
      key = Routing.stream keyBase id) : WellKeyed keyBase hostname es where
  ids e he e' he' id id' key h h' :=
    Routing.stream_injective ((derived e he id key h).symm.trans (derived e' he' id' key h'))
  own e he id key h := by
    rw [derived e he id key h]
    exact ⟨(Party.key_ne_stream keyBase (.agent .aggregation hostname) id).symm,
      Routing.stream_ne_broadcast keyBase id⟩

end Keys

/-! ## What is asked of the bus -/

/-- Is a key among those of a mailbox, once something is done for it? -/
def Effect.keeps (key : String) (listens : Bool) : Effect N → Bool
  | .bind key' => decide (key = key') || listens
  | .unbind key' => !decide (key = key') && listens
  | .send _ _ => listens

/-- The acknowledgement that an envelope asks for. -/
def Envelope.confirmation? (e : Envelope N) : Option (Message N) :=
  match e.message with
  | .enableAggregation id _ => some (.ack .enable .aggregation id .enabled none)
  | .disable .aggregation id => some (.ack .disable .aggregation id .disabled none)
  | _ => none

section Follow

omit [Arithmetic N]

/-- What is kept along some envelopes can be looked at through a function. -/
theorem Envelope.follow_map {α β : Type} {id : InstId} {fresh : String → α}
    {enter : α → Report N → α} {fresh' : String → β} {enter' : β → Report N → β} {f : α → β}
    (begins : ∀ key, f (fresh key) = fresh' key) (enters : ∀ x r, f (enter x r) = enter' (f x) r)
    (e : Envelope N) (kept : Option α) :
    (e.follow id fresh enter kept).map f = e.follow id fresh' enter' (kept.map f) := by
  unfold follow
  split
  · split
    · cases kept <;> simp [begins]
    · rfl
  · split <;> rfl
  · split
    · cases kept <;> simp [enters]
    · rfl
  · rfl

end Follow

namespace Aggregator

/-- The key of a stream that is collected. -/
def keyOf (a : Aggregator N) (id : InstId) : Option String :=
  (a.store.find? id).map (·.streamKey)

/-- The streams that are collected have keys of their own. -/
structure Apart (a : Aggregator N) : Prop where
  ids : ∀ id id' key, a.keyOf id = some key → a.keyOf id' = some key → id = id'
  own : ∀ id key, a.keyOf id = some key → key ∉ a.bindings

variable {a : Aggregator N}

section Keys

omit [Arithmetic N]

/-- An aggregator is bound to its own keys and to the key of each stream that it collects. -/
theorem mem_allBindings (sorted : a.store.Ascending) (key : String) :
    key ∈ a.allBindings ↔ key ∈ a.bindings ∨ ∃ id, a.keyOf id = some key := by
  rw [allBindings, List.mem_append, List.mem_map]
  refine or_congr_right ⟨?_, ?_⟩
  · rintro ⟨g, hg, rfl⟩
    obtain ⟨id, hFind⟩ := (Table.mem_values_iff sorted).mp hg
    exact ⟨id, by rw [keyOf, hFind]; rfl⟩
  · rintro ⟨id, hKey⟩
    obtain ⟨g, hFind, rfl⟩ := Option.map_eq_some_iff.mp hKey
    exact ⟨g, (Table.mem_values_iff sorted).mpr ⟨id, hFind⟩, rfl⟩

/-- No key is listed twice. -/
theorem nodup_allBindings (sorted : a.store.Ascending) (apart : a.Apart)
    (own : a.bindings.Nodup) : a.allBindings.Nodup := by
  have hKeyOf : ∀ entry ∈ a.store, a.keyOf entry.1 = some entry.2.streamKey := by
    intro entry hEntry
    rw [keyOf, (Table.mem_iff_find? sorted).mp hEntry]
    rfl
  refine List.nodup_append.mpr ⟨own, ?_, ?_⟩
  · rw [Table.values, List.map_map, List.Nodup, List.pairwise_map]
    -- entries with one key are of one instrumentation, and a table has that once
    refine List.Pairwise.imp_of_mem (fun {x y} hx hy hLt hSame => ?_) sorted
    have hId := apart.ids _ _ _ (hKeyOf x hx) ((hKeyOf y hy).trans (congrArg some hSame.symm))
    rw [hId, Std.ReflOrd.compare_self] at hLt
    cases hLt
  · intro key hOwn key' hStream hSame
    obtain ⟨g, hg, rfl⟩ := List.mem_map.mp hStream
    obtain ⟨entry, hEntry, rfl⟩ := List.mem_map.mp hg
    exact apart.own _ _ (hKeyOf entry hEntry) (hSame ▸ hOwn)

end Keys

/-- Nothing that an aggregator handles changes what it is called, so the keys under which it is
reached stay. -/
theorem keyBase_handle (a : Aggregator N) (e : Envelope N) :
    (a.handle e).1.keyBase = a.keyBase ∧ (a.handle e).1.hostname = a.hostname := by
  obtain ⟨source, hostname, m⟩ := e
  cases m with
  | enableAggregation id streamKey =>
    simp only [handle, enable]
    split <;> exact ⟨rfl, rfl⟩
  | disable w id =>
    cases w with
    | instrumentation => exact ⟨rfl, rfl⟩
    | aggregation =>
      simp only [handle, disable]
      split <;> exact ⟨rfl, rfl⟩
  | data id sampledAt value =>
    simp only [handle, merge]
    split <;> exact ⟨rfl, rfl⟩
  | _ => exact ⟨rfl, rfl⟩

/-- What an envelope does to the key of a stream. -/
theorem keyOf_handle (tidy : a.Tidy) (e : Envelope N) (id : InstId) :
    (a.handle e).1.keyOf id =
      e.follow id (fun streamKey => streamKey) (fun key _ => key) (a.keyOf id) := by
  rw [keyOf, find?_follow tidy]
  exact Envelope.follow_map (fun _ => rfl) (fun _ _ => rfl) e _

section Streams

omit [Arithmetic N]

variable {id : InstId} {key : String} {g : Aggregation N} {after : Table InstId (Aggregation N)}

/-- The keys, when what is collected changes for one instrumentation alone. -/
theorem mem_allBindings_of_frame (sorted : after.Ascending)
    (frame : ∀ id', id' ≠ id → after.find? id' = a.store.find? id') :
    key ∈ allBindings { a with store := after } ↔
      key ∈ a.bindings ∨ (after.find? id).map (·.streamKey) = some key ∨
        ∃ id', id' ≠ id ∧ a.keyOf id' = some key := by
  rw [mem_allBindings sorted]
  refine or_congr_right ⟨?_, ?_⟩
  · rintro ⟨id', h⟩
    by_cases hId : id' = id
    · exact .inl (hId ▸ h)
    · rw [keyOf, frame id' hId] at h
      exact .inr ⟨id', hId, h⟩
  · rintro (h | ⟨id', hId, h⟩)
    · exact ⟨id, h⟩
    · refine ⟨id', ?_⟩
      rw [keyOf, frame id' hId]
      exact h

/-- The bindings with one instrumentation set apart, which is the only one that a command is about.
-/
theorem mem_allBindings_split (sorted : a.store.Ascending) (id : InstId) :
    key ∈ a.allBindings ↔ key ∈ a.bindings ∨ a.keyOf id = some key ∨
      ∃ id', id' ≠ id ∧ a.keyOf id' = some key :=
  mem_allBindings_of_frame sorted fun _ _ => rfl

/-- Collecting a stream adds its key, in place of the one that its number had before. -/
theorem mem_allBindings_insert (sorted : a.store.Ascending) :
    key ∈ allBindings { a with store := a.store.insert id g } ↔
      key ∈ a.bindings ∨ g.streamKey = key ∨ ∃ id', id' ≠ id ∧ a.keyOf id' = some key := by
  have hFrame : ∀ id', id' ≠ id → (a.store.insert id g).find? id' = a.store.find? id' := by
    intro id' hId
    rw [Table.find?_insert sorted, if_neg hId]
  rw [mem_allBindings_of_frame (Table.ascending_insert sorted id g) hFrame,
    Table.find?_insert sorted, if_pos rfl, Option.map_some, Option.some.injEq]

/-- Giving a stream up takes away the key that its number had, and no other. -/
theorem mem_allBindings_erase (sorted : a.store.Ascending) :
    key ∈ allBindings { a with store := a.store.erase id } ↔
      key ∈ a.bindings ∨ ∃ id', id' ≠ id ∧ a.keyOf id' = some key := by
  have hFrame : ∀ id', id' ≠ id → (a.store.erase id).find? id' = a.store.find? id' := by
    intro id' hId
    rw [Table.find?_erase, if_neg hId]
  rw [mem_allBindings_of_frame (Table.ascending_erase sorted id) hFrame, Table.find?_erase,
    if_pos rfl]
  simp

end Streams

/-- **What is asked of the bus** is what changes in the own list of keys. -/
theorem bindings_handle (tidy : a.Tidy) (apart : a.Apart) (e : Envelope N) (key : String) :
    key ∈ (a.handle e).1.allBindings ↔
      (a.handle e).2.foldl (Effect.keeps key) (decide (key ∈ a.allBindings)) = true := by
  obtain ⟨source, hostname, m⟩ := e
  cases m with
  | enableAggregation id streamKey =>
    simp only [handle, enable]
    split
    · exact decide_eq_true_iff.symm
    · next hNew =>
      have hNone : a.keyOf id = none := by
        rw [keyOf, Option.map_eq_none_iff]
        simpa [Table.contains] using hNew
      simp only [List.cons_append, List.nil_append, List.foldl_cons, List.foldl_nil, Effect.keeps,
        Bool.or_eq_true, decide_eq_true_eq]
      rw [mem_allBindings_insert tidy.sorted, mem_allBindings_split tidy.sorted id, hNone]
      simp only [reduceCtorEq, false_or]
      rw [or_left_comm, eq_comm]
  | disable w id =>
    cases w with
    | instrumentation => exact decide_eq_true_iff.symm
    | aggregation =>
      simp only [handle, disable]
      split
      · next g hg =>
        have hKey : a.keyOf id = some g.streamKey := by
          rw [keyOf, hg]
          rfl
        -- the key that goes is in no other's use
        have hOwn : key ∈ a.bindings → key ≠ g.streamKey := by
          rintro h rfl
          exact apart.own id _ hKey h
        have hOther : (∃ id', id' ≠ id ∧ a.keyOf id' = some key) → key ≠ g.streamKey := by
          rintro ⟨id', hId, h⟩ rfl
          exact hId (apart.ids _ _ _ h hKey)
        simp only [List.cons_append, List.nil_append, List.foldl_cons, List.foldl_nil,
          Effect.keeps, Bool.and_eq_true, Bool.not_eq_true', decide_eq_false_iff_not,
          decide_eq_true_eq]
        rw [mem_allBindings_erase tidy.sorted, mem_allBindings_split tidy.sorted id, hKey,
          Option.some.injEq]
        constructor
        · rintro (h | h)
          · exact ⟨hOwn h, .inl h⟩
          · exact ⟨hOther h, .inr (.inr h)⟩
        · rintro ⟨hne, h | h | h⟩
          · exact .inl h
          · exact absurd h.symm hne
          · exact .inr h
      · exact decide_eq_true_iff.symm
  | data id sampledAt value =>
    simp only [handle, merge]
    split
    · next g hg =>
      have hKey : a.keyOf id = some g.streamKey := by
        rw [keyOf, hg]
        rfl
      rw [mem_allBindings_insert tidy.sorted, List.foldl_nil, decide_eq_true_iff,
        mem_allBindings_split tidy.sorted id, hKey, Option.some.injEq]
      rfl
    · exact decide_eq_true_iff.symm
  | _ => exact decide_eq_true_iff.symm

end Aggregator

/-! ## Effects in the history of the bus -/

/-- An effect of the holder of a mailbox, as something that is done to the bus. -/
def Effect.act (box : BoxId) (envelope : Message N → Envelope N) :
    Effect N → Bus.Act (Envelope N)
  | .bind key => .bind key box
  | .unbind key => .unbind key box
  | .send key m => .publish key (envelope m)

namespace Bus.History

omit [Arithmetic N]

variable (past : History (Envelope N)) (box : BoxId) (envelope : Message N → Envelope N)

/-- The history with some effects carried out. -/
def perform (effects : List (Effect N)) : History (Envelope N) :=
  (effects.map (Effect.act box envelope)).reverse ++ past

/-- Effects are carried out one after the other. -/
theorem perform_cons (x : Effect N) (effects : List (Effect N)) :
    past.perform box envelope (x :: effects) =
      perform (x.act box envelope :: past) box envelope effects := by
  rw [perform, perform, List.map_cons, List.reverse_cons, List.append_assoc]
  rfl

/-- The bus after some effects is the one that their history leads to. -/
theorem bus_perform (effects : List (Effect N)) :
    (past.perform box envelope effects).bus = (past.bus.perform box envelope effects).2 := by
  induction effects generalizing past with
  | nil => rfl
  | cons x rest ih =>
    rw [perform_cons, ih]
    cases x <;> rfl

/-- No effect of an aggregator takes or gives up a mailbox. -/
theorem handles_perform (effects : List (Effect N)) (other : BoxId) :
    (past.perform box envelope effects).handles other = past.handles other := by
  induction effects generalizing past with
  | nil => rfl
  | cons x rest ih =>
    rw [perform_cons, ih]
    cases x <;> rfl

/-- Whether a key is bound after some effects follows from whether it was and from those effects
that bind or unbind it. -/
theorem isBound_perform (effects : List (Effect N)) (key : String) :
    (past.perform box envelope effects).isBound key box =
      effects.foldl (Effect.keeps key) (past.isBound key box) := by
  induction effects generalizing past with
  | nil => rfl
  | cons x rest ih =>
    rw [perform_cons, ih, List.foldl_cons]
    congr 1
    cases x <;> simp [Effect.act, isBound, Effect.keeps]

variable {past box}

/-- An aggregator that holds its mailbox can carry out any of its effects. -/
theorem possible_perform (possible : past.Possible) (held : 0 < past.handles box)
    (effects : List (Effect N)) : (past.perform box envelope effects).Possible := by
  induction effects generalizing past with
  | nil => exact possible
  | cons x rest ih =>
    rw [perform_cons]
    cases x with
    | bind key | unbind key =>
      exact ih ⟨fun _ hBox => Option.some.inj hBox ▸ held, possible⟩ held
    | send key m => exact ih ⟨nofun, possible⟩ held

/-- Somebody else's act leaves the mailbox its handle and its bindings. -/
theorem spared {x : Act (Envelope N)} (agrees : past.Agrees) (held : 0 < past.handles box)
    (spares : x.Spares past.bus box) :
    0 < handles box (x :: past) ∧ ∀ key, isBound key box (x :: past) = past.isBound key box := by
  cases x with
  | make =>
    refine ⟨?_, fun _ => rfl⟩
    rw [handles]
    split
    · exact Nat.one_pos
    · exact held
  | clone other =>
    refine ⟨?_, fun _ => rfl⟩
    rw [handles]
    split
    · exact Nat.succ_pos _
    · exact held
  | drop other =>
    refine ⟨?_, fun _ => rfl⟩
    rw [handles]
    split
    · next hBox =>
      have hMore : 1 < past.bus.handles box := spares hBox.symm
      rw [agrees.handles] at hMore
      omega
    · exact held
  | bind key other | unbind key other =>
    have hOther : other ≠ box := spares
    exact ⟨held, fun key' => by simp [isBound, Ne.symm hOther]⟩
  | publish | receive | drain => exact ⟨held, fun _ => rfl⟩

end Bus.History

/-! ## Store and routes -/

namespace Listener

/-- The routes have the mailbox of a listener under the keys that its store says, as the history of
the bus shows. -/
structure Listening (l : Listener N) (past : Bus.History (Envelope N)) : Prop where
  possible : past.Possible
  bus : past.bus = l.bus
  held : 0 < past.handles l.box
  bound : ∀ key, past.isBound key l.box = true ↔ key ∈ l.agent.allBindings

variable {l : Listener N} {past : Bus.History (Envelope N)}

omit [Arithmetic N] in
/-- A new mailbox is bound to the keys that an idle aggregator has from the start. -/
theorem listening_join (possible : past.Possible) {a : Aggregator N} (idle : a.store = []) :
    ∃ past', (join a past.bus).Listening past' := by
  have hAgrees := Bus.History.agrees_of_possible possible
  have hMade : past.bus.nextBox = past.made := hAgrees.nextBox
  -- a number that was not given out yet is bound to nothing
  obtain ⟨-, hUnbound, -, -⟩ := Bus.History.fresh possible (Nat.le_refl past.made)
  have hHandle : Bus.History.handles past.bus.nextBox (.make :: past) = 1 := if_pos hMade
  have hPossible : Bus.History.Possible (.make :: past) := ⟨nofun, possible⟩
  refine ⟨Bus.History.perform (.make :: past) past.bus.nextBox a.envelope (a.bindings.map .bind),
    Bus.History.possible_perform _ hPossible (by rw [hHandle]; exact Nat.one_pos) _, ?_, ?_,
    fun key => ?_⟩
  · rw [Bus.History.bus_perform]
    rfl
  · rw [Bus.History.handles_perform]
    exact hHandle.symm ▸ Nat.one_pos
  · have hBound := Bus.History.isBound_perform (.make :: past) past.bus.nextBox a.envelope
      (a.bindings.map .bind) key
    have hBefore : Bus.History.isBound key past.bus.nextBox (.make :: past) = false := by
      rw [hMade]
      exact hUnbound key
    rw [hBefore] at hBound
    have hKeys : (join a past.bus).agent.allBindings = a.bindings := by
      rw [join, Aggregator.allBindings, idle]
      exact List.append_nil _
    rw [hKeys]
    refine (Bool.eq_iff_iff.mp hBound).trans ?_
    simp [Aggregator.bindings, Effect.keeps, or_comm]

/-- Handling an envelope keeps the bindings on the bus in step with the store. -/
theorem listening_handle (listening : l.Listening past) (tidy : l.agent.Tidy)
    (apart : l.agent.Apart) (e : Envelope N) :
    (l.handle e).2.Listening (past.perform l.box l.agent.envelope (l.agent.handle e).2) where
  possible := Bus.History.possible_perform _ listening.possible listening.held _
  bus := by
    rw [Bus.History.bus_perform, listening.bus]
    rfl
  held := by
    rw [Bus.History.handles_perform]
    exact listening.held
  bound key := by
    have hBefore : past.isBound key l.box = decide (key ∈ l.agent.allBindings) := by
      rw [Bool.eq_iff_iff, decide_eq_true_iff]
      exact listening.bound key
    have hAfter := Bus.History.isBound_perform past l.box l.agent.envelope
      (l.agent.handle e).2 key
    rw [hBefore] at hAfter
    exact (Bool.eq_iff_iff.mp hAfter).trans (Aggregator.bindings_handle tidy apart e key).symm

omit [Arithmetic N] in
/-- Nothing that others do on the bus gets them out of step, as long as they leave this mailbox
alone. -/
theorem listening_other (listening : l.Listening past) {x : Bus.Act (Envelope N)}
    (held : ∀ box, x.box? = some box → 0 < l.bus.handles box) (spares : x.Spares l.bus l.box) :
    Listening { l with bus := l.bus.act x } (x :: past) := by
  have hAgrees := Bus.History.agrees_of_possible listening.possible
  rw [← listening.bus] at held spares
  obtain ⟨hHeld, hBound⟩ := Bus.History.spared hAgrees listening.held spares
  refine ⟨⟨fun box hBox => ?_, listening.possible⟩, ?_, hHeld, fun key => ?_⟩
  · rw [← hAgrees.handles]
    exact held box hBox
  · rw [Bus.History.bus, listening.bus]
  · rw [hBound]
    exact listening.bound key

end Listener

/-! ## Whole runs -/

namespace Aggregator

variable {keyBase hostname : String} {retain : Nat} {es : List (Envelope N)}

/-- An aggregator stays who it is. -/
theorem keyBase_run (keyBase hostname : String) (retain : Nat) (es : List (Envelope N)) :
    ((new keyBase hostname retain).handleAll es).keyBase = keyBase ∧
      ((new keyBase hostname retain).handleAll es).hostname = hostname := by
  induction es using List.reverseRecOn with
  | nil => exact ⟨rfl, rfl⟩
  | append_singleton es e ih =>
    rw [handleAll_concat, (keyBase_handle _ e).1, (keyBase_handle _ e).2]
    exact ih

/-- Whatever was handled, the keys that an aggregator has from the start are its own and the one for
everybody. -/
theorem bindings_run (keyBase hostname : String) (retain : Nat) (es : List (Envelope N)) :
    ((new keyBase hostname retain).handleAll es).bindings =
      [Routing.agent keyBase .aggregator hostname, Routing.broadcast keyBase] := by
  obtain ⟨hBase, hHost⟩ := keyBase_run keyBase hostname retain es
  rw [bindings, routingKey, hBase, hHost]

/-- The store says under which keys its instrumentations were enabled. -/
theorem keyOf_run (keyBase hostname : String) (retain : Nat) (es : List (Envelope N))
    (id : InstId) :
    ((new keyBase hostname retain).handleAll es).keyOf id = enabledUnder id es := by
  induction es using List.reverseRecOn with
  | nil => rfl
  | append_singleton es e ih =>
    have hTidy := tidy_of_reachable (N := N) ⟨keyBase, hostname, retain, es, rfl⟩
    rw [handleAll_concat, keyOf_handle hTidy, ih, enabledUnder_concat]

/-- If different instrumentations are enabled under different keys, different streams are collected
under different keys. -/
theorem apart_run (retain : Nat) (keyed : WellKeyed keyBase hostname es) :
    ((new (N := N) keyBase hostname retain).handleAll es).Apart where
  ids id id' key h h' := by
    rw [keyOf_run] at h h'
    obtain ⟨e, he, hMessage⟩ := exists_of_enabledUnder h
    obtain ⟨e', he', hMessage'⟩ := exists_of_enabledUnder h'
    exact keyed.ids e he e' he' id id' key hMessage hMessage'
  own id key h := by
    rw [keyOf_run] at h
    obtain ⟨e, he, hMessage⟩ := exists_of_enabledUnder h
    obtain ⟨hOwn, hBroadcast⟩ := keyed.own e he id key hMessage
    rw [bindings_run]
    simp [hOwn, hBroadcast]

end Aggregator

namespace Listener

variable {keyBase hostname : String} {retain : Nat} {es : List (Envelope N)} {l : Listener N}

/-- What others do on the bus in between does not reach the aggregator itself. -/
theorem agent_of_attends (attends : Attends keyBase hostname retain es l) :
    l.agent = (Aggregator.new keyBase hostname retain).handleAll es := by
  induction attends with
  | join => rfl
  | handle _ e ih =>
    rw [Aggregator.handleAll_concat, ← ih]
    rfl
  | other _ _ _ ih => exact ih

/-- **Store and routes agree** at any time. -/
theorem listening_of_attends (attends : Attends keyBase hostname retain es l)
    (keyed : WellKeyed keyBase hostname es) : ∃ past, l.Listening past := by
  induction attends with
  | join possible => exact listening_join possible rfl
  | @handle es l attends e ih =>
    have hEarlier := keyed.of_append
    obtain ⟨past, hListening⟩ := ih hEarlier
    have hAgent := agent_of_attends attends
    refine ⟨_, listening_handle hListening ?_ ?_ e⟩
    · rw [hAgent]
      exact Aggregator.tidy_of_reachable ⟨keyBase, hostname, retain, es, rfl⟩
    · rw [hAgent]
      exact Aggregator.apart_run retain hEarlier
  | other _ held spares ih =>
    obtain ⟨past, hListening⟩ := ih keyed
    exact ⟨_, listening_other hListening held spares⟩

end Listener

/-! ## Acknowledgements and the end -/

namespace Bus

omit [Arithmetic N]

/-- Unbinding some keys takes one mailbox off each of them, and no other mailbox off any. -/
theorem mem_bound_unbindAll {b : Bus (Envelope N)} (sorted : b.routes.Ascending) (box : BoxId)
    (keys : List String) (key : String) (other : BoxId) :
    other ∈ (b.unbindAll box keys).bound key ↔
      other ∈ b.bound key ∧ ¬ (key ∈ keys ∧ other = box) := by
  induction keys generalizing b with
  | nil => simp [unbindAll]
  | cons first rest ih =>
    obtain ⟨routes, hRoutes, hEq⟩ := exists_unbind_eq sorted first box
    have hFirst := mem_bound_unbind sorted first box key other
    have hRest := ih (b := b.unbind first box) (by rw [hEq]; exact hRoutes)
    rw [hFirst] at hRest
    rw [unbindAll, List.foldl_cons]
    refine hRest.trans ?_
    rw [List.mem_cons]
    tauto

/-- Changes of bindings post nothing and leave the queues alone. -/
theorem perform_changes {changes : List (Effect N)}
    (silent : ∀ x ∈ changes, ∀ key m, x ≠ .send key m) (b : Bus (Envelope N)) (box : BoxId)
    (envelope : Message N → Envelope N) (rest : List (Effect N)) :
    b.perform box envelope (changes ++ rest) =
        (b.perform box envelope changes).2.perform box envelope rest ∧
      ∀ other, (b.perform box envelope changes).2.queue other = b.queue other := by
  induction changes generalizing b with
  | nil => exact ⟨rfl, fun _ => rfl⟩
  | cons x changes ih =>
    obtain ⟨hHead, hChanges⟩ := List.forall_mem_cons.mp silent
    cases x with
    | bind key =>
      obtain ⟨hRest, hQueue⟩ := ih hChanges (b.bind key box)
      exact ⟨hRest, fun other => (hQueue other).trans (queue_bind b key box other)⟩
    | unbind key =>
      obtain ⟨hRest, hQueue⟩ := ih hChanges (b.unbind key box)
      exact ⟨hRest, fun other => (hQueue other).trans (queue_unbind b key box other)⟩
    | send key m => exact absurd rfl (hHead key m)

/-- What is published goes once to each live mailbox that is bound to the key, if it is valid. -/
theorem queue_publish {past : History (Envelope N)} (possible : past.Possible) (key : String)
    (a : Envelope N) {box : BoxId} (held : 0 < past.handles box) :
    (past.bus.publish key a).2.queue box = past.bus.queue box ++
      if Routing.isValid key = true ∧ box ∈ (past.bus.publish key a).2.bound key then [a]
      else [] := by
  have hAgrees := History.agrees_of_possible possible
  cases hValid : Routing.isValid key with
  | false =>
    rw [publish_of_invalid _ hValid]
    simp
  | true =>
    obtain ⟨-, -, -, -, hBound, hQueue, -⟩ :=
      delivers_deliver hAgrees.boxes hAgrees.routes hAgrees.distinct key a
    rw [← hAgrees.handles] at held
    have hLive := (past.bus.isLive_iff box).mpr held
    rw [publish_of_valid _ hValid, hQueue box held, hBound, if_pos rfl]
    simp [hLive]

end Bus

/-- What asks for an acknowledgement is answered by it, after changes of bindings at most. -/
theorem Aggregator.effects_of_ack {a : Aggregator N} {e : Envelope N} {ack : Message N}
    (asked : e.confirmation? = some ack) :
    ∃ changes, (a.handle e).2 = changes ++ [.send e.source ack] ∧
      ∀ x ∈ changes, ∀ key m, x ≠ .send key m := by
  obtain ⟨source, hostname, m⟩ := e
  cases m with
  | enableAggregation id streamKey =>
    cases asked
    simp only [handle, enable]
    split
    · exact ⟨[], rfl, List.forall_mem_nil _⟩
    · exact ⟨[.bind streamKey], rfl, by simp⟩
  | disable w id =>
    cases w with
    | instrumentation => cases asked
    | aggregation =>
      cases asked
      simp only [handle, disable]
      split
      · exact ⟨[.unbind _], rfl, by simp⟩
      · exact ⟨[], rfl, List.forall_mem_nil _⟩
  | _ => cases asked

namespace Listener

variable {keyBase hostname : String} {retain : Nat} {es : List (Envelope N)} {l : Listener N}

/-- What asks for an acknowledgement gets one posting, to its source, and each live mailbox that is
bound to it gets one envelope. -/
theorem acknowledged_once {past : Bus.History (Envelope N)} (listening : l.Listening past)
    {e : Envelope N} {ack : Message N} (asked : e.confirmation? = some ack) :
    ∃ reached, (l.handle e).1 = [⟨e.source, l.agent.envelope ack, reached⟩] ∧
      ∀ box, l.bus.isLive box = true → (l.handle e).2.bus.queue box = l.bus.queue box ++
        if Routing.isValid e.source = true ∧ box ∈ (l.handle e).2.bus.bound e.source
        then [l.agent.envelope ack] else [] := by
  obtain ⟨changes, hEffects, hSilent⟩ := Aggregator.effects_of_ack (a := l.agent) asked
  obtain ⟨hPerform, hQueue⟩ := Bus.perform_changes hSilent l.bus l.box l.agent.envelope
    [.send e.source ack]
  have hPossible := Bus.History.possible_perform l.agent.envelope listening.possible
    listening.held changes
  have hBus := Bus.History.bus_perform past l.box l.agent.envelope changes
  rw [listening.bus] at hBus
  have hHandle : l.handle e =
      ((l.bus.perform l.box l.agent.envelope (l.agent.handle e).2).1,
        ⟨(l.agent.handle e).1, l.box,
          (l.bus.perform l.box l.agent.envelope (l.agent.handle e).2).2⟩) := rfl
  -- the acknowledgement goes out last, over the routes as they are in the end
  rw [hHandle, hEffects, hPerform, ← hBus]
  refine ⟨_, rfl, fun box live => ?_⟩
  have hHeld : 0 < (past.perform l.box l.agent.envelope changes).handles box := by
    rw [Bus.History.handles_perform,
      ← (Bus.History.agrees_of_possible listening.possible).handles, listening.bus]
    exact (l.bus.isLive_iff box).mp live
  have hPublished := Bus.queue_publish hPossible e.source (l.agent.envelope ack) hHeld
  rw [hBus, hQueue box, ← hBus] at hPublished
  exact hPublished

omit [Arithmetic N] in
/-- A mailbox that stops is bound to no key. -/
theorem not_mem_stop {past : Bus.History (Envelope N)} (listening : l.Listening past)
    (key : String) : l.box ∉ l.stop.bound key := by
  have hAgrees := Bus.History.agrees_of_possible listening.possible
  have hRoutes := hAgrees.routes
  rw [listening.bus] at hRoutes
  -- what is bound is listed, and all that is listed is unbound
  rw [stop, Bus.drop, Bus.bound_changeBox, Bus.mem_bound_unbindAll hRoutes]
  rintro ⟨hMem, hNot⟩
  rw [← listening.bus, hAgrees.bound key l.box listening.held, listening.bound] at hMem
  exact hNot ⟨hMem, rfl⟩

/-- **An aggregator listens on exactly the streams it serves.** Let it have attended to any
envelopes on a bus that others use too, and let the instrumentations that it was told of have keys
of their own. Then

* its mailbox is bound to its own key, the broadcast key, and the keys under which the
  instrumentations in its store were enabled, once each, and to no other;
* it has in its store just the instrumentations that are enabled, each with that key;
* to enable one that is enabled, or disable one that is not, changes neither the agent nor any
  binding: all that happens is that the acknowledgement is published;
* whatever asks for an acknowledgement gets one, under the key of its source, and nothing else is
  posted;
* once it stops, its mailbox is bound to no key. -/
theorem listens_exactly (attends : Attends keyBase hostname retain es l)
    (keyed : WellKeyed keyBase hostname es) :
    (∀ key, l.box ∈ l.bus.bound key ↔
      key = Routing.agent keyBase .aggregator hostname ∨ key = Routing.broadcast keyBase ∨
        ∃ id, enabledUnder id es = some key) ∧
    (∀ key, (l.bus.bound key).count l.box ≤ 1) ∧ l.agent.allBindings.Nodup ∧
    (∀ id, (l.agent.store.find? id).map (·.streamKey) = enabledUnder id es) ∧
    (∀ (e : Envelope N) id key, e.message = .enableAggregation id key →
      l.agent.store.contains id = true →
      let published := l.bus.publish e.source
        (l.agent.envelope (.ack .enable .aggregation id .enabled none))
      l.handle e = ([⟨e.source, l.agent.envelope (.ack .enable .aggregation id .enabled none),
        published.1⟩], { l with bus := published.2 })) ∧
    (∀ (e : Envelope N) id, e.message = .disable .aggregation id →
      l.agent.store.contains id = false →
      let published := l.bus.publish e.source
        (l.agent.envelope (.ack .disable .aggregation id .disabled none))
      l.handle e = ([⟨e.source, l.agent.envelope (.ack .disable .aggregation id .disabled none),
        published.1⟩], { l with bus := published.2 })) ∧
    (∀ (e : Envelope N) ack, e.confirmation? = some ack →
      ∃ reached, (l.handle e).1 = [⟨e.source, l.agent.envelope ack, reached⟩] ∧
        ∀ box, l.bus.isLive box = true → (l.handle e).2.bus.queue box = l.bus.queue box ++
          if Routing.isValid e.source = true ∧ box ∈ (l.handle e).2.bus.bound e.source
          then [l.agent.envelope ack] else []) ∧
    ∀ key, l.box ∉ l.stop.bound key := by
  obtain ⟨past, hListening⟩ := listening_of_attends attends keyed
  have hAgrees := Bus.History.agrees_of_possible hListening.possible
  have hAgent := agent_of_attends attends
  have hTidy : l.agent.Tidy := by
    rw [hAgent]
    exact Aggregator.tidy_of_reachable ⟨keyBase, hostname, retain, es, rfl⟩
  have hApart : l.agent.Apart := by
    rw [hAgent]
    exact Aggregator.apart_run retain keyed
  have hBindings : l.agent.bindings =
      [Routing.agent keyBase .aggregator hostname, Routing.broadcast keyBase] := by
    rw [hAgent, Aggregator.bindings_run]
  have hKeyOf : ∀ id, l.agent.keyOf id = enabledUnder id es := by
    rw [hAgent]
    exact Aggregator.keyOf_run keyBase hostname retain es
  refine ⟨fun key => ?_, fun key => ?_, ?_, hKeyOf, fun e id key message known => ?_,
    fun e id message unknown => ?_, fun e ack asked => acknowledged_once hListening asked,
    not_mem_stop hListening⟩
  -- the routes of the bus, its history and the store of the agent say the same
  · rw [← hListening.bus, hAgrees.bound key l.box hListening.held, hListening.bound,
      Aggregator.mem_allBindings hTidy.sorted, hBindings]
    simp [hKeyOf, or_assoc]
  · rw [← hListening.bus]
    exact List.nodup_iff_count_le_one.mp (hAgrees.distinct key) l.box
  · refine Aggregator.nodup_allBindings hTidy.sorted hApart ?_
    -- its own two keys are different, and no stream has either
    have hOwn : Routing.agent keyBase .aggregator hostname ≠ Routing.broadcast keyBase :=
      Party.key_ne_broadcast keyBase (.agent .aggregation hostname)
    rw [hBindings]
    simpa using hOwn
  · simp only [handle, Aggregator.handle, message, Aggregator.enable, known]
    rfl
  · have hNone : l.agent.store.find? id = none := by simpa [Table.contains] using unknown
    simp only [handle, Aggregator.handle, message, Aggregator.disable, hNone]
    rfl

/-- Two streams are begun, one of them twice, and it is ended; in between somebody publishes under
its key. -/
theorem listens_exactly_brief :
    let coordinator (m : Message Float) : Envelope Float := ⟨"k.config", "c", m⟩
    let es := [coordinator (.enableAggregation 1 (Routing.stream "k" 1)),
      coordinator (.enableAggregation 2 (Routing.stream "k" 2)),
      coordinator (.enableAggregation 1 (Routing.stream "k" 1)),
      coordinator (.disable .aggregation 1)]
    ∃ l, Attends "k" "g" 2 es l ∧ l.box ∈ l.bus.bound (Routing.stream "k" 2) ∧
      l.box ∉ l.bus.bound (Routing.stream "k" 1) ∧ ∀ key, l.box ∉ l.stop.bound key := by
  intro coordinator es
  obtain ⟨l, hAttends⟩ : ∃ l, Attends "k" "g" 2 es l := by
    have hStart : Attends "k" "g" 2 [] (join (.new "k" "g" 2) (Bus.empty : Bus (Envelope Float))) :=
      @Attends.join Float _ "k" "g" 2 [] trivial
    have hTwo := (hStart.handle (coordinator (.enableAggregation 1 (Routing.stream "k" 1)))).handle
      (coordinator (.enableAggregation 2 (Routing.stream "k" 2)))
    have hPublished := hTwo.other (x := .publish (Routing.stream "k" 1) (coordinator .ping)) nofun
      trivial
    exact ⟨_, (hPublished.handle
      (coordinator (.enableAggregation 1 (Routing.stream "k" 1)))).handle
      (coordinator (.disable .aggregation 1))⟩
  have hDerived : ∀ e ∈ es, ∀ id key, e.message = .enableAggregation id key →
      key = Routing.stream "k" id := by
    intro e he id key hMessage
    simp only [es, coordinator, List.mem_cons, List.not_mem_nil, or_false] at he
    rcases he with rfl | rfl | rfl | rfl <;> cases hMessage <;> rfl
  obtain ⟨hBound, -, -, -, -, -, -, hStop⟩ := listens_exactly hAttends
    (wellKeyed_of_stream hDerived)
  refine ⟨l, hAttends, (hBound _).mpr (.inr (.inr ⟨2, by decide +kernel⟩)), fun hMem => ?_, hStop⟩
  rcases (hBound _).mp hMem with h | h | ⟨id, h⟩
  · exact Party.key_ne_stream "k" (.agent .aggregation "g") 1 h.symm
  · exact absurd h (by decide +kernel)
  · obtain ⟨e, he, hMessage⟩ := exists_of_enabledUnder h
    obtain rfl := Routing.stream_injective (hDerived e he id _ hMessage)
    exact absurd h (by decide +kernel)

end Listener

end FleetMetrics
