import Mathlib
import FleetMetrics.Proofs.Coordinator.Step

/-!
# The ledger of loads

Every event gives back some loads and takes some: `releases` and `acquires` list the hosts, one
entry for each single release or acquisition, in the order in which they are carried out.
`directory_step` says that this is all an event does to a directory, besides entering the
participant that a notice announces.

Nothing here says that a release finds a load to give back. That is a property of runs.

Main results:

* `directory_step` — a directory after an event is the one before it with the announced
  participant entered, the releases carried out, and then the acquisitions.
* `known_step` — who is known stays known.
* `routingKey_step` — the key of a host changes only by a notice of its own.
-/

namespace FleetMetrics.Coordinator

/-- The hosts of a kind that an event releases, once for each release. -/
def releases (c : Coordinator) (x : Event) (w : Work) : List String :=
  match x with
  | .create .. => []
  | .delete id =>
    match c.instrumentations.find? id with
    | some i => held i w
    | none => []
  | .expire now => (c.expired now).flatMap (·.timeOut.relieved w)
  | .receive e _ =>
    match e.message with
    | .ack .enable w' id s _ =>
      match c.heard? w' e.hostname id with
      | some i => refused w' e.hostname s w ++ (i.setAck (ackState s) w' e.hostname).relieved w
      | none => []
    | _ => []

/-- The hosts of a kind that an event acquires, once for each acquisition. -/
def acquires (c : Coordinator) (x : Event) (w : Work) : List String :=
  match x with
  | .create s _ _ =>
    match c.chosen? s with
    | some a => c.addressees a.hostname w
    | none => []
  | .receive e now =>
    match e.arrival? now w with
    | some r =>
      (c.instrumentations.values.filter
        (owes w r.hostname (Registry.outcome (c.registry.directory w) r.hostname))).map
          fun _ => r.hostname
    | none => []
  | _ => []

/-- A directory with the participant entered that an event announces. -/
def entered (c : Coordinator) (x : Event) (w : Work) : Directory :=
  match x.arrival? w with
  | some r => (c.registry.directory w).enter r
  | none => c.registry.directory w

/-- One directory is replaced, and the other one stays. -/
theorem directory_withDirectory (c : Coordinator) (w : Work) (d : Directory) (catalog : Catalog)
    (w' : Work) :
    (c.withDirectory w d catalog).registry.directory w' =
      if w' = w then d else c.registry.directory w' := by
  cases w <;> cases w' <;> rfl

/-- An acknowledgement brings nobody online. -/
theorem arrival?_ack (source hostname : String) (action : Action) (w : Work) (id : InstId)
    (s : AckStatus) (error : Option String) (now : Timestamp) (w' : Work) :
    (Envelope.mk source hostname (.ack action w id s error)).arrival? now w' = none := by
  cases w' <;> rfl

/-- A notice releases nobody. -/
theorem releases_arrival {c : Coordinator} {x : Event} {w : Work} {r : AgentRecord}
    (arrives : x.arrival? w = some r) (w' : Work) : c.releases x w' = [] := by
  cases x with
  | receive e now =>
    obtain ⟨source, hostname, m⟩ := e
    cases m with
    | ack action w id s error => simp [Event.arrival?, arrival?_ack] at arrives
    | _ => rfl
  | _ => cases arrives

/-- An envelope that acknowledges no command to start releases nobody. -/
theorem releases_other {c : Coordinator} {e : Envelope Float} {now : Timestamp}
    (other : ∀ w id s error, e.message ≠ .ack .enable w id s error) (w : Work) :
    c.releases (.receive e now) w = [] := by
  obtain ⟨source, hostname, m⟩ := e
  cases m with
  | ack action w id s error =>
    cases action with
    | enable => exact absurd rfl (other w id s error)
    | disable => rfl
  | _ => rfl

/-- **What an event does to a directory.** It enters the announced participant, releases, and
acquires. -/
theorem directory_step (c : Coordinator) (sorted : c.instrumentations.Ascending)
    (numbered : ∀ id i, c.instrumentations.find? id = some i → i.id = id) (x : Event) (w : Work) :
    (c.step x).coordinator.registry.directory w =
      ((c.entered x w).releaseAll (c.releases x w)).acquireAll (c.acquires x w) := by
  have hTurn := c.responds_step sorted numbered x
  generalize c.step x = t at hTurn
  cases hTurn with
  | refused unplaced =>
    simp only [acquires, unplaced]
    rfl
  | @launched s ticket now a chosen =>
    rw [c.launch_eq s ticket now (find?_of_chosen? chosen)]
    simp only [acquires, chosen]
    cases w <;> rfl
  | missing missing =>
    simp only [releases, missing]
    rfl
  | @deleted _ i _ found after =>
    simp only [releases, found, after]
    exact directory_relieve c (held i) w
  | swept => exact directory_relieve c (fun w => (c.expired _).flatMap (·.timeOut.relieved w)) w
  | @welcomed e now w' r arrives others =>
    -- a notice enters its participant and acquires what it is owed
    rw [releases_arrival (x := .receive e now) arrives]
    simp only [welcome, acquires, entered, Event.arrival?]
    show (c.withDirectory w' _ (c.listed e)).registry.directory w = _
    rw [directory_withDirectory]
    by_cases hw : w = w'
    · subst hw
      simp only [arrives, if_true]
      rfl
    · simp only [others w hw, hw, if_false]
      rfl
  | @unheard e now w' id s error message unheard =>
    -- an acknowledgement announces nobody
    obtain ⟨source, hostname, m⟩ := e
    subst message
    simp only [releases, acquires, entered, Event.arrival?, arrival?_ack, unheard]
    rfl
  | @heard e now w' id s error i j message heard word =>
    obtain ⟨source, hostname, m⟩ := e
    subst message word
    simp only [releases, acquires, entered, Event.arrival?, arrival?_ack, heard]
    exact directory_relieve c (fun w => refused w' hostname s w ++
      (i.setAck (ackState s) w' hostname).relieved w) w
  | silent nobody wordless =>
    -- anything else leaves the directories alone
    rw [releases_other wordless]
    simp only [acquires, entered, Event.arrival?, nobody w]
    rfl

section Step

variable {c : Coordinator} (sorted : c.instrumentations.Ascending)
  (numbered : ∀ id i, c.instrumentations.find? id = some i → i.id = id)

include sorted numbered

/-- The look-up of a host after an event that does not announce it. -/
theorem find?_directory_step (x : Event) (w : Work) (h : String)
    (quiet : ∀ r, x.arrival? w = some r → r.hostname ≠ h) :
    ((c.step x).coordinator.registry.directory w).find? h =
      ((c.registry.directory w).find? h).map
        (·.changeLoad fun n => n - (c.releases x w).count h + (c.acquires x w).count h) := by
  have hEntered : (c.entered x w).find? h = (c.registry.directory w).find? h := by
    unfold entered
    split
    · next r hr => rw [Directory.find?_enter, if_neg (quiet r hr)]
    · rfl
  rw [directory_step c sorted numbered, Directory.find?_acquireAll, Directory.find?_releaseAll,
    hEntered, Option.map_map]
  rfl

/-- The look-up of a host after a notice of its own: its load is what it is told anew. -/
theorem find?_directory_arrival {x : Event} {w : Work} {r : AgentRecord}
    (arrives : x.arrival? w = some r) :
    ((c.step x).coordinator.registry.directory w).find? r.hostname =
      some (r.changeLoad fun _ => (c.acquires x w).count r.hostname) := by
  have hLoad : r.load = 0 := by
    cases x with
    | receive e now => exact (Envelope.arrival?_eq_some arrives).2.2
    | _ => cases arrives
  have hEntered : (c.entered x w).find? r.hostname = some r := by
    simp only [entered, arrives]
    rw [Directory.find?_enter, if_pos rfl]
  rw [directory_step c sorted numbered, Directory.find?_acquireAll, Directory.find?_releaseAll,
    hEntered, releases_arrival arrives]
  simp [AgentRecord.changeLoad, hLoad]

/-- Who is known stays known, and whoever is announced is. -/
theorem known_step (x : Event) (w : Work) (h : String)
    (known : ((c.registry.directory w).find? h).isSome ∨
      ∃ r, x.arrival? w = some r ∧ r.hostname = h) :
    (((c.step x).coordinator.registry.directory w).find? h).isSome := by
  by_cases hArrives : ∃ r, x.arrival? w = some r ∧ r.hostname = h
  · obtain ⟨r, hr, rfl⟩ := hArrives
    rw [find?_directory_arrival sorted numbered hr]
    rfl
  · rw [find?_directory_step sorted numbered x w h fun r hr hh => hArrives ⟨r, hr, hh⟩,
      Option.isSome_map]
    exact known.resolve_right hArrives

/-- The key of a host changes only by a notice of its own, to the key that the notice names. -/
theorem routingKey_step (x : Event) (w : Work) {h : String} {r : AgentRecord}
    (found : ((c.step x).coordinator.registry.directory w).find? h = some r) :
    (∃ r', x.arrival? w = some r' ∧ r'.hostname = h ∧ r'.routingKey = r.routingKey) ∨
    ∃ r', (c.registry.directory w).find? h = some r' ∧ r'.routingKey = r.routingKey := by
  by_cases hArrives : ∃ r, x.arrival? w = some r ∧ r.hostname = h
  · obtain ⟨r', hr, rfl⟩ := hArrives
    rw [find?_directory_arrival sorted numbered hr] at found
    exact .inl ⟨r', hr, rfl, by rw [← Option.some.inj found]; rfl⟩
  · rw [find?_directory_step sorted numbered x w h fun r hr hh => hArrives ⟨r, hr, hh⟩] at found
    obtain ⟨r', hr', rfl⟩ := Option.map_eq_some_iff.mp found
    exact .inr ⟨r', hr', rfl⟩

end Step

end FleetMetrics.Coordinator
