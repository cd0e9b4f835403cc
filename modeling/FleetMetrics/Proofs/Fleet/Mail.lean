import Mathlib
import FleetMetrics.Fleet
import FleetMetrics.Proofs.Bus
import FleetMetrics.Proofs.Directory
import FleetMetrics.Proofs.Routing

/-!
# The mail of a fleet

Seen from outside, a step of a fleet is always the same: one party reads the oldest envelope of
its mailbox, or none, and sends messages; each of them ends up in the mailbox of the party whose
key it goes under. `Passes` says so, and it is all that later modules know of the bus.

What is sent under a key that belongs to no party, such as the key of a stream, may end up in any
mailboxes; what that means is left to those who know what is sent there.

Main results:

* `passes_of_post`, `passes_of_receive` — posting messages, after reading an envelope or without.
* `wired_attend`, `wired_join` — how parties come to be on the bus.
-/

namespace FleetMetrics

namespace Crew

variable {A : Type}

/-- An agent that takes a station is found there, and all others where they were. -/
theorem find?_put (c : Crew A) (s : Station A) (h : String) :
    (c.put s).find? h = if s.hostname = h then some s else c.find? h :=
  Roster.find?_put _ _ _ _

/-- A change at one station changes no other. -/
theorem find?_change (c : Crew A) (host : String) (g : A → A) (h : String) :
    (c.change host g).find? h = (c.find? h).map fun s => if h = host then s.change g else s :=
  Roster.find?_change (f := Station.change g) (fun _ => rfl) _ _ _

/-- Another agent at a station. -/
theorem find?_change_of_find? {c : Crew A} {host : String} {s : Station A}
    (found : c.find? host = some s) (a : A) (h : String) :
    (c.change host fun _ => a).find? h =
      if h = host then some { s with agent := a } else c.find? h := by
  rw [find?_change]
  split
  · next hh =>
    rw [hh, found]
    rfl
  · rw [Option.map_id']

theorem hostname_of_find? {c : Crew A} {h : String} {s : Station A} (found : c.find? h = some s) :
    s.hostname = h :=
  Roster.name_of_find? found

/-- The host of a station is one of the hosts. -/
theorem mem_hostnames_of_find? {c : Crew A} {h : String} {s : Station A}
    (found : c.find? h = some s) : h ∈ c.hostnames := by
  rw [← hostname_of_find? found]
  exact List.mem_map_of_mem (Roster.mem_of_find? found)

end Crew

namespace Fleet

/-- The mailbox of a party, if it is there. -/
def boxOf (f : Fleet) : Party → Option BoxId
  | .coordinator => f.box
  | .agent .instrumentation h => (f.instrumenters.find? h).map (·.box)
  | .agent .aggregation h => (f.aggregators.find? h).map (·.box)

/-- What a party has not read yet. -/
def inbox (f : Fleet) (p : Party) : List (Envelope Float) :=
  match f.boxOf p with
  | some b => f.bus.queue b
  | none => []

/-- The key of a party of the fleet. -/
def keyOf (f : Fleet) (p : Party) : String :=
  p.key f.coordinator.keyBase

/-- The parties of a fleet have mailboxes of their own, and each is bound to the key of its party
and to no other party's. -/
structure Wired (f : Fleet) : Prop where
  bus : f.bus.Sound
  present : (f.boxOf .coordinator).isSome
  live : ∀ p b, f.boxOf p = some b → f.bus.isLive b = true
  apart : ∀ p q b, f.boxOf p = some b → f.boxOf q = some b → p = q
  bound : ∀ p q b, f.boxOf p = some b → (b ∈ f.bus.bound (f.keyOf q) ↔ q = p)

/-- What waits for a party is in its mailbox. -/
theorem inbox_eq {f : Fleet} {p : Party} {b : BoxId} (box : f.boxOf p = some b) :
    f.inbox p = f.bus.queue b := by
  rw [inbox, box]

theorem inbox_of_absent {f : Fleet} {p : Party} (absent : f.boxOf p = none) : f.inbox p = [] := by
  rw [inbox, absent]

/-- Does what is sent under the key of a party arrive? -/
def isReachable (f : Fleet) (p : Party) : Bool :=
  (f.boxOf p).isSome && Routing.isValid (f.keyOf p)

/-- What a party still has to read once somebody has read an envelope. -/
def unread (f : Fleet) (reader : Option Party) (p : Party) : List (Envelope Float) :=
  if reader = some p then (f.inbox p).tail else f.inbox p

/-- From one fleet to another a party, or nobody, reads an envelope, and then messages are sent.
What is under way else stays, and so do the mailboxes. -/
structure Passes (f : Fleet) (reader : Option Party) (envelope : Message Float → Envelope Float)
    (sent : List Dispatch) (f' : Fleet) : Prop where
  wired : f'.Wired
  keyBase : f'.coordinator.keyBase = f.coordinator.keyBase
  boxes : ∀ p, f'.boxOf p = f.boxOf p
  inbox : ∃ arrives : Party → String → Bool,
    (∀ p q, arrives p (f.keyOf q) = (f.isReachable q && decide (q = p))) ∧
    ∀ p, f'.inbox p =
      f.unread reader p ++ (sent.filter fun d => arrives p d.1).map fun d => envelope d.2

section Passes

variable {f f' : Fleet}

/-- A bus that binds the mailboxes of parties as before is wired as before. -/
theorem wired_of_bus (hf : f.Wired) (boxes : ∀ p, f'.boxOf p = f.boxOf p)
    (keyBase : f'.coordinator.keyBase = f.coordinator.keyBase) (bus : f'.bus.Sound)
    (live : ∀ b, f'.bus.isLive b = f.bus.isLive b)
    (bound : ∀ p b, b ∈ f'.bus.bound (f.keyOf p) ↔ b ∈ f.bus.bound (f.keyOf p)) : f'.Wired where
  bus := bus
  present := by
    rw [boxes]
    exact hf.present
  live p b hb := by
    rw [boxes] at hb
    rw [live]
    exact hf.live p b hb
  apart p q b hp hq := by
    rw [boxes] at hp hq
    exact hf.apart p q b hp hq
  bound p q b hb := by
    rw [boxes] at hb
    rw [keyOf, keyBase]
    exact (bound q b).trans (hf.bound p q b hb)

/-- Under the key of a party only this party is reached. -/
theorem reaches_keyOf (hf : f.Wired) {p : Party} {b : BoxId} (box : f.boxOf p = some b)
    (q : Party) :
    f.bus.reaches (f.keyOf q) b = (f.isReachable q && decide (q = p)) := by
  have hBound := hf.bound p q b box
  simp only [Bus.reaches, isReachable, hBound]
  by_cases h : q = p
  · subst h
    simp [box]
  · simp [h]

/-- Messages are posted on a bus that may have other bindings by now, but not for parties. -/
theorem passes_of_bus (hf : f.Wired) {bus : Bus (Envelope Float)} (sound : bus.Sound)
    (live : ∀ b, bus.isLive b = f.bus.isLive b)
    (bound : ∀ p b, b ∈ bus.bound (f.keyOf p) ↔ b ∈ f.bus.bound (f.keyOf p))
    {reader : Option Party} {envelope : Message Float → Envelope Float} {sent : List Dispatch}
    (queue : ∀ p b, f.boxOf p = some b → bus.queue b = f.unread reader p)
    (boxes : ∀ p, f'.boxOf p = f.boxOf p)
    (keyBase : f'.coordinator.keyBase = f.coordinator.keyBase)
    (posted : f'.bus = (bus.post envelope sent).2)
    (absent : ∀ p, reader = some p → (f.boxOf p).isSome) :
    f.Passes reader envelope sent f' := by
  have hPost := Bus.extends_post sound envelope sent
  refine ⟨wired_of_bus hf boxes keyBase ?_ ?_ ?_, keyBase, boxes,
    fun p key => (f.boxOf p).any (bus.reaches key), fun p q => ?_, fun p => ?_⟩
  · rw [posted]
    exact hPost.sound
  · intro b
    rw [posted, hPost.isLive, live]
  · intro p b
    rw [posted, hPost.bound]
    exact bound p b
  · -- what arrives is decided by the bindings, and those of parties are as they were
    cases hBox : f.boxOf p with
    | some b =>
      rw [← reaches_keyOf hf hBox]
      simp only [hBox, Option.any_some, Bus.reaches, bound]
    | none =>
      by_cases h : q = p
      · subst h
        simp [isReachable, hBox]
      · simp [hBox, h]
  · cases hBox : f.boxOf p with
    | some b =>
      rw [inbox_eq ((boxes p).trans hBox), posted, hPost.queue, queue p b hBox]
      simp only [hBox, Option.any_some]
    | none =>
      have hReader : reader ≠ some p := fun h => by
        have := absent p h
        rw [hBox] at this
        cases this
      rw [inbox_of_absent ((boxes p).trans hBox), unread, if_neg hReader, inbox_of_absent hBox]
      simp [hBox]

/-- Nobody reads, and messages are posted. -/
theorem passes_of_post (hf : f.Wired) {envelope : Message Float → Envelope Float}
    {sent : List Dispatch} (boxes : ∀ p, f'.boxOf p = f.boxOf p)
    (keyBase : f'.coordinator.keyBase = f.coordinator.keyBase)
    (posted : f'.bus = (f.bus.post envelope sent).2) : f.Passes none envelope sent f' := by
  refine passes_of_bus hf hf.bus (fun _ => rfl) (fun _ _ => Iff.rfl) (fun p b hb => ?_) boxes
    keyBase posted nofun
  rw [unread, if_neg nofun, inbox_eq hb]

/-- What a party reads was the oldest envelope of its inbox. -/
theorem inbox_of_receive (hf : f.Wired) {p : Party} {b : BoxId} (box : f.boxOf p = some b)
    {e : Envelope Float} {bus : Bus (Envelope Float)}
    (received : f.bus.receive? b = some (e, bus)) :
    f.inbox p = e :: f.unread (some p) p := by
  obtain ⟨-, -, -, rest, hQueue, -⟩ := Bus.receive?_eq_some hf.bus received
  rw [unread, if_pos rfl, inbox_eq box, hQueue]
  rfl

/-- A party reads an envelope, a mailbox is bound to streams or set free of them, and messages are
posted. -/
theorem passes_of_receive (hf : f.Wired) {p : Party} {b : BoxId} (box : f.boxOf p = some b)
    {e : Envelope Float} {bus bus' : Bus (Envelope Float)}
    (received : f.bus.receive? b = some (e, bus)) (sound : bus'.Sound)
    (live : ∀ b, bus'.isLive b = bus.isLive b) (queue : ∀ b, bus'.queue b = bus.queue b)
    (bound : ∀ p b, b ∈ bus'.bound (f.keyOf p) ↔ b ∈ bus.bound (f.keyOf p))
    {envelope : Message Float → Envelope Float} {sent : List Dispatch}
    (boxes : ∀ p, f'.boxOf p = f.boxOf p)
    (keyBase : f'.coordinator.keyBase = f.coordinator.keyBase)
    (posted : f'.bus = (bus'.post envelope sent).2) : f.Passes (some p) envelope sent f' := by
  obtain ⟨-, hBound, hLive, rest, hQueue, hRest⟩ := Bus.receive?_eq_some hf.bus received
  refine passes_of_bus hf sound (fun b => (live b).trans (hLive b)) (fun q b' => ?_)
    (fun q b' hb' => ?_) boxes keyBase posted fun q h => ?_
  · rw [bound, hBound]
  · rw [queue, hRest, unread]
    by_cases h : p = q
    · subst h
      obtain rfl : b' = b := Option.some.inj (hb'.symm.trans box)
      rw [if_pos rfl, if_pos rfl, inbox_eq box, hQueue]
      rfl
    · have hne : b' ≠ b := fun hEq => h (hf.apart p q b box (hEq ▸ hb'))
      rw [if_neg hne, if_neg (by simpa using h), inbox_eq hb']
  · obtain rfl := Option.some.inj h
    rw [box]
    rfl

end Passes

/-! ## New parties -/

/-- A new party gets an empty mailbox, bound to its key and to no other party's. -/
theorem wired_join {f f' : Fleet} (hf : f.Wired) {p : Party} (absent : f.boxOf p = none)
    {keys : List String} (own : ∀ q, f.keyOf q ∈ keys ↔ q = p)
    (boxes : ∀ q, f'.boxOf q = if q = p then some (f.bus.openMailbox keys).1 else f.boxOf q)
    (keyBase : f'.coordinator.keyBase = f.coordinator.keyBase)
    (bus : f'.bus = (f.bus.openMailbox keys).2) :
    f'.Wired ∧ (∀ q, f'.inbox q = f.inbox q) ∧
      ∀ key b, b ∈ f.bus.bound key → b ∈ f'.bus.bound key := by
  obtain ⟨hBox, hSound, hBound, hLive, hQueue⟩ := Bus.openMailbox_spec hf.bus keys
  have hFresh : ∀ q, f.boxOf q ≠ some f.bus.nextBox := fun q h => by
    have := hf.live q _ h
    rw [Bus.isLive_nextBox hf.bus] at this
    cases this
  have hKey : ∀ q, f'.keyOf q = f.keyOf q := fun q => by rw [keyOf, keyBase, keyOf]
  rw [hBox] at boxes
  -- the new party's mailbox is the new one, all others keep theirs
  refine ⟨⟨bus ▸ hSound, ?_, fun q b hb => ?_, fun q q' b hb hb' => ?_, fun q q' b hb => ?_⟩,
    fun q => ?_, fun key b hMem => ?_⟩
  · rw [boxes]
    split
    · rfl
    · exact hf.present
  · rw [bus, hLive]
    rw [boxes] at hb
    split at hb
    · simp [Option.some.inj hb]
    · rw [hf.live q b hb, Bool.or_true]
  · rw [boxes] at hb hb'
    split at hb
    · next h =>
      obtain rfl := Option.some.inj hb
      split at hb'
      · next h' => exact h.trans h'.symm
      · exact absurd hb' (hFresh q')
    · split at hb'
      · obtain rfl := Option.some.inj hb'
        exact absurd hb (hFresh q)
      · exact hf.apart q q' b hb hb'
  · rw [bus, hKey, hBound, own]
    rw [boxes] at hb
    split at hb
    · next h =>
      -- nobody has bound the new mailbox before
      obtain rfl := Option.some.inj hb
      have hNot : f.bus.nextBox ∉ f.bus.bound (f.keyOf q') := fun hMem => by
        have := hf.bus.live _ _ hMem
        rw [Bus.isLive_nextBox hf.bus] at this
        cases this
      simp [hNot, h]
    · -- an old mailbox is not bound to anything more
      have hne : b ≠ f.bus.nextBox := fun h => hFresh q (h ▸ hb)
      simp [hne, hf.bound q q' b hb]
  · by_cases h : q = p
    · have hBoxQ : f'.boxOf q = some f.bus.nextBox := by rw [boxes, if_pos h]
      rw [inbox_eq hBoxQ, bus, hQueue, if_pos rfl, h, inbox_of_absent absent]
    · have hBoxQ : f'.boxOf q = f.boxOf q := by rw [boxes, if_neg h]
      cases hOld : f.boxOf q with
      | none => rw [inbox_of_absent (hBoxQ.trans hOld), inbox_of_absent hOld]
      | some b =>
        have hne : b ≠ f.bus.nextBox := fun h => hFresh q (h ▸ hOld)
        rw [inbox_eq (hBoxQ.trans hOld), inbox_eq hOld, bus, hQueue, if_neg hne]
  · rw [bus, hBound]
    exact .inl hMem

/-- The coordinator comes first. -/
theorem wired_attend (keyBase hostname : String) (ackTimeout : Nat) :
    (Fleet.new keyBase hostname ackTimeout).attend.Wired ∧
      ∀ p, (Fleet.new keyBase hostname ackTimeout).attend.inbox p = [] := by
  obtain ⟨hBox, hSound, hBound, hLive, hQueue⟩ :=
    Bus.openMailbox_spec (Bus.sound_empty (α := Envelope Float))
      [(Fleet.new keyBase hostname ackTimeout).coordinator.routingKey]
  have hBoxes : ∀ p, (Fleet.new keyBase hostname ackTimeout).attend.boxOf p =
      if p = .coordinator then some 0 else none := by
    intro p
    cases p with
    | coordinator => exact congrArg some hBox
    | agent w h => cases w <;> rfl
  -- nobody but the coordinator is there
  have hOnly : ∀ p b, (Fleet.new keyBase hostname ackTimeout).attend.boxOf p = some b →
      p = .coordinator ∧ b = 0 := by
    intro p b hb
    rw [hBoxes] at hb
    split at hb
    · next h => exact ⟨h, (Option.some.inj hb).symm⟩
    · cases hb
  refine ⟨⟨hSound, by rw [hBoxes]; rfl, fun p b hb => ?_, fun p q b hp hq => ?_,
    fun p q b hb => ?_⟩, fun p => ?_⟩
  · obtain ⟨-, rfl⟩ := hOnly p b hb
    exact (hLive 0).trans rfl
  · rw [(hOnly p b hp).1, (hOnly q b hq).1]
  · obtain ⟨rfl, rfl⟩ := hOnly p b hb
    refine (hBound _ 0).trans ?_
    constructor
    · rintro (h | ⟨h, -⟩)
      · cases h
      · exact Party.key_injective (List.mem_singleton.mp h)
    · rintro rfl
      exact .inr ⟨List.mem_singleton_self _, rfl⟩
  · by_cases h : p = .coordinator
    · rw [inbox_eq ((hBoxes p).trans (if_pos h))]
      exact hQueue 0
    · exact inbox_of_absent ((hBoxes p).trans (if_neg h))

end Fleet

end FleetMetrics
