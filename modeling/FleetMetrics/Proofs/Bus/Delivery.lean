import Mathlib
import FleetMetrics.Proofs.Bus

/-!
# What the bus delivers

The holders of mailboxes bind, unbind, publish, receive, clone and drop in any order, over any keys,
and a mailbox whose last handle was dropped stays in the routes until somebody publishes under its
key. What a mailbox is owed is read off the history of all this alone: `History.due` looks at no
queue and no route, and `History.taken` collects what came out.

What could go wrong is that a second binding delivers twice, that taking back one binding takes back
another, that mailboxes that are gone are counted, or that a number in the routes is given to a new
mailbox. The invariant `History.Agrees` compares the bus with its history. It says nothing about the
queue and the bindings of a mailbox without handles, because there the routes and the history
may differ.

Main results:

* `History.agrees_of_possible` — the bus agrees with its history, whatever was done.
* `History.delivery` — what was taken and what is still queued is what was due, and the answers and
  the counters of publishing are those of the mailboxes that have handles.
-/

namespace FleetMetrics.Bus

variable {α : Type}

/-! ## Histories -/

/-- What is done to a bus and its mailboxes. -/
inductive Act (α : Type)
  | make
  | clone (box : BoxId)
  | drop (box : BoxId)
  | bind (key : String) (box : BoxId)
  | unbind (key : String) (box : BoxId)
  | publish (key : String) (a : α)
  | receive (box : BoxId)
  | drain (box : BoxId)

/-- The mailbox that must be at hand for it. -/
def Act.box? : Act α → Option BoxId
  | .make | .publish _ _ => none
  | .clone box | .drop box | .bind _ box | .unbind _ box | .receive box | .drain box => some box

/-- What it does. Receiving from an empty mailbox waits, which changes nothing. -/
def act (b : Bus α) : Act α → Bus α
  | .make => b.newMailbox.2
  | .clone box => b.clone box
  | .drop box => b.drop box
  | .bind key box => b.bind key box
  | .unbind key box => b.unbind key box
  | .publish key a => (b.publish key a).2
  | .receive box => ((b.receive? box).map (·.2)).getD b
  | .drain box => (b.drain box).2

/-- What it takes out of a mailbox. -/
def takes (b : Bus α) (box : BoxId) : Act α → List α
  | .receive other => if box = other then ((b.receive? other).map (·.1)).toList else []
  | .drain other => if box = other then (b.drain other).1 else []
  | _ => []

/-- Everything that was done since the bus was empty, the last thing first. -/
abbrev History (α : Type) := List (Act α)

namespace History

/-- The bus it leads to. -/
def bus : History α → Bus α
  | [] => empty
  | x :: past => (bus past).act x

/-- How many mailboxes were made. They are numbered in the order in which they were made. -/
def made : History α → Nat
  | [] => 0
  | .make :: past => made past + 1
  | _ :: past => made past

/-- How many handles there are to a mailbox. -/
def handles (box : BoxId) : History α → Nat
  | [] => 0
  | x :: past =>
    match x with
    | .make => if box = made past then 1 else handles box past
    | .clone other => if box = other then handles box past + 1 else handles box past
    | .drop other => if box = other then handles box past - 1 else handles box past
    | _ => handles box past

/-- Was the mailbox bound to the key and not unbound from it since? -/
def isBound (key : String) (box : BoxId) : History α → Bool
  | [] => false
  | x :: past =>
    match x with
    | .bind key' other => decide (key = key' ∧ box = other) || isBound key box past
    | .unbind key' other => !decide (key = key' ∧ box = other) && isBound key box past
    | _ => isBound key box past

/-- What was published under the valid keys to which the mailbox was bound at that time, in the
order of publishing. -/
def due (box : BoxId) : History α → List α
  | [] => []
  | x :: past =>
    match x with
    | .publish key a =>
      if Routing.isValid key && isBound key box past then due box past ++ [a] else due box past
    | _ => due box past

/-- What was taken out of the mailbox so far, in that order. -/
def taken (box : BoxId) : History α → List α
  | [] => []
  | x :: past => taken box past ++ (bus past).takes box x

/-- The answers to publishing, the last one first. -/
def answers : History α → List (Except TransportError Nat)
  | [] => []
  | x :: past =>
    match x with
    | .publish key a => ((bus past).publish key a).1 :: answers past
    | _ => answers past

/-- Is it a publish under a valid key? -/
def isPublication : Act α → Bool
  | .publish key _ => Routing.isValid key
  | _ => false

/-- Every mailbox that was used had a handle at that time. -/
def Possible : History α → Prop
  | [] => True
  | x :: past => (∀ box, x.box? = some box → 0 < handles box past) ∧ Possible past

/-- A mailbox that was not made yet is nowhere in a possible history. -/
theorem fresh {past : History α} (possible : past.Possible) {box : BoxId}
    (unmade : past.made ≤ box) :
    past.handles box = 0 ∧ (∀ key, past.isBound key box = false) ∧ past.due box = [] ∧
      past.taken box = [] := by
  induction past with
  | nil => exact ⟨rfl, fun _ => rfl, rfl, rfl⟩
  | cons x past ih =>
    obtain ⟨hUsed, hPast⟩ := possible
    -- what was used had a handle, so it is not the mailbox that was not made
    have hOther : made past ≤ box → ∀ other, x.box? = some other → box ≠ other := by
      rintro h other hBox rfl
      exact absurd (hUsed box hBox) (by rw [(ih hPast h).1]; exact Nat.lt_irrefl 0)
    cases x with
    | make =>
      obtain ⟨hHandles, hBound, hDue, hTaken⟩ := ih hPast (Nat.le_of_succ_le unmade)
      have hNew : box ≠ made past := Nat.ne_of_gt unmade
      exact ⟨by simp [handles, hNew, hHandles], hBound, hDue, by simp [taken, takes, hTaken]⟩
    | publish key a =>
      obtain ⟨hHandles, hBound, hDue, hTaken⟩ := ih hPast unmade
      exact ⟨hHandles, hBound, by simp [due, hBound, hDue], by simp [taken, takes, hTaken]⟩
    | clone other | drop other | bind key other | unbind key other | receive other | drain other =>
      obtain ⟨hHandles, hBound, hDue, hTaken⟩ := ih hPast unmade
      have hNe := hOther unmade other rfl
      exact ⟨by simp [handles, hNe, hHandles], by simp [isBound, hNe, hBound], hDue,
        by simp [taken, takes, hNe, hTaken]⟩

end History

/-! ## The handles and the queue of one mailbox -/

/-- The handles to a mailbox. -/
def handles (b : Bus α) (box : BoxId) : Nat :=
  ((b.boxes.find? box).map (·.handles)).getD 0

/-- A mailbox is alive as long as somebody holds it. -/
theorem isLive_iff (b : Bus α) (box : BoxId) : b.isLive box = true ↔ 0 < b.handles box := by
  unfold isLive handles
  cases b.boxes.find? box with
  | none => simp
  | some m => simp

/-- A mailbox that does not exist has nothing in it. -/
theorem queue_eq (b : Bus α) (box : BoxId) :
    b.queue box = ((b.boxes.find? box).map (·.queue)).getD [] := by
  unfold queue
  cases b.boxes.find? box <;> rfl

/-- A mailbox with handles is there. -/
theorem exists_of_handles {b : Bus α} {box : BoxId} (held : 0 < b.handles box) :
    ∃ m, b.boxes.find? box = some m ∧ m.handles = b.handles box ∧ m.queue = b.queue box := by
  rw [queue_eq]
  unfold handles at held ⊢
  cases hm : b.boxes.find? box with
  | none => simp [hm] at held
  | some m => exact ⟨m, rfl, rfl, rfl⟩

section ChangeOne

variable {b : Bus α} {other : BoxId} {m : Mailbox α}

/-- Changing one mailbox changes the holders of that one alone. -/
theorem handles_changeBox (sorted : b.boxes.Ascending) (found : b.boxes.find? other = some m)
    (f : Mailbox α → Mailbox α) (box : BoxId) :
    (b.changeBox other f).handles box = if box = other then (f m).handles else b.handles box := by
  unfold handles
  rw [find?_changeBox sorted, found]
  split <;> rfl

/-- Changing one mailbox changes what waits in that one alone. -/
theorem queue_changeBox (sorted : b.boxes.Ascending) (found : b.boxes.find? other = some m)
    (f : Mailbox α → Mailbox α) (box : BoxId) :
    (b.changeBox other f).queue box = if box = other then (f m).queue else b.queue box := by
  rw [queue_eq, queue_eq, find?_changeBox sorted, found]
  split <;> rfl

/-- Changing a mailbox changes the table of the mailboxes and nothing else. -/
theorem exists_changeBox_eq (sorted : b.boxes.Ascending) (other : BoxId)
    (f : Mailbox α → Mailbox α) :
    ∃ boxes, boxes.Ascending ∧ b.changeBox other f = { b with boxes := boxes } := by
  unfold changeBox
  split
  · exact ⟨_, Table.ascending_insert sorted _ _, rfl⟩
  · exact ⟨b.boxes, sorted, rfl⟩

/-- A mailbox that is put back as it was leaves the bus as it was. -/
theorem changeBox_id (sorted : b.boxes.Ascending) (other : BoxId) : b.changeBox other id = b := by
  unfold changeBox
  split
  · next m hm => rw [id, Table.insert_of_find? sorted hm]
  · rfl

end ChangeOne

/-! ## Publishing while mailboxes may be gone -/

/-- Putting something into different mailboxes puts it once into each of them that is there. -/
theorem exists_pushAll_eq {b : Bus α} (sorted : b.boxes.Ascending) (a : α) {boxes : List BoxId}
    (distinct : boxes.Nodup) :
    ∃ after : Table BoxId (Mailbox α), after.Ascending ∧
      (∀ box, after.find? box = (b.boxes.find? box).map fun m =>
        if box ∈ boxes then { m with queue := m.queue ++ [a] } else m) ∧
      boxes.foldl (push a) b = { b with boxes := after } := by
  induction boxes generalizing b with
  | nil => exact ⟨b.boxes, sorted, by simp, rfl⟩
  | cons first rest ih =>
    obtain ⟨hHead, hRest⟩ := List.nodup_cons.mp distinct
    obtain ⟨pushed, hPushed, hOne⟩ :=
      exists_changeBox_eq sorted first fun m => { m with queue := m.queue ++ [a] }
    have hFind : ∀ box, pushed.find? box = (b.boxes.find? box).map fun m =>
        if box = first then { m with queue := m.queue ++ [a] } else m := by
      intro box
      have := find?_changeBox sorted first (fun m => { m with queue := m.queue ++ [a] }) box
      rw [hOne] at this
      rw [this]
      by_cases h : box = first
      · subst h
        simp
      · simp [h]
    obtain ⟨after, hAfter, hFinds, hAll⟩ := ih (b := { b with boxes := pushed }) hPushed hRest
    refine ⟨after, hAfter, fun box => ?_, ?_⟩
    · -- the first one is not among the rest, so it is pushed to once
      rw [hFinds, hFind, Option.map_map]
      congr 1
      funext m
      by_cases h : box = first
      · subst h
        simp [hHead]
      · simp [h]
    · rw [List.foldl_cons, push, hOne, hAll]

/-- What publishing under a valid key does, when some of the mailboxes bound to it may be gone. -/
structure Delivers (b : Bus α) (key : String) (a : α) (after : Bus α) : Prop where
  boxes : after.boxes.Ascending
  routes : after.routes.Ascending
  nextBox : after.nextBox = b.nextBox
  handles : ∀ box, after.handles box = b.handles box
  bound : ∀ key', after.bound key' =
    if key' = key then (b.bound key).filter b.isLive else b.bound key'
  queue : ∀ box, 0 < b.handles box →
    after.queue box = b.queue box ++ if box ∈ b.bound key then [a] else []
  published : after.published = b.published + 1
  unrouted : after.unrouted =
    b.unrouted + if ((b.bound key).filter b.isLive).length = 0 then 1 else 0

/-- Delivering counts one publication, puts the message into every live mailbox that is bound, and
forgets the dead ones under this key. -/
theorem delivers_deliver {b : Bus α} (boxes : b.boxes.Ascending) (routes : b.routes.Ascending)
    (distinct : ∀ key, (b.bound key).Nodup) (key : String) (a : α) :
    b.Delivers key a (b.deliver key a).2 := by
  -- a key without routes does not get an empty one
  have hRoutes : (if (b.bound key).isEmpty then b.routes
      else b.routes.insert key ((b.bound key).filter b.isLive)).Ascending := by
    split
    · exact routes
    · exact Table.ascending_insert routes _ _
  obtain ⟨after, hAfter, hFind, hAll⟩ := exists_pushAll_eq (b := { b with
      routes := if (b.bound key).isEmpty then b.routes
        else b.routes.insert key ((b.bound key).filter b.isLive) }) boxes a
    ((distinct key).filter b.isLive)
  unfold deliver
  simp only [hAll]
  refine ⟨hAfter, hRoutes, rfl, fun box => ?_, fun key' => ?_, fun box held => ?_, rfl, ?_⟩
  · -- a push leaves the handles alone
    simp only [handles, hFind, Option.map_map]
    congr 2
    funext m
    simp only [Function.comp_apply]
    split <;> rfl
  · unfold bound
    dsimp only
    split
    · next hEmpty =>
      -- nobody was bound, so nobody is taken out of the routes
      split
      · next h => simp_all [bound]
      · rfl
    · rw [Table.find?_insert routes]
      split <;> rfl
  · -- with a handle it is live, so taking out those that are gone does not concern it
    obtain ⟨m, hm, -⟩ := exists_of_handles held
    have hLive := (b.isLive_iff box).mpr held
    rw [queue_eq, queue_eq]
    simp only [hFind, hm, List.mem_filter, hLive, and_true, Option.map_some, Option.getD_some]
    split
    · rfl
    · exact (List.append_nil _).symm
  · simp [List.length_eq_zero_iff]

/-- Under a valid key a publication is answered with the number of live mailboxes that it reaches.
-/
theorem publish_of_valid (b : Bus α) {key : String} (valid : Routing.isValid key = true) (a : α) :
    b.publish key a = (.ok ((b.bound key).filter b.isLive).length, (b.deliver key a).2) :=
  if_pos valid

/-- Under an invalid key nothing is published, and nothing is counted. -/
theorem publish_of_invalid (b : Bus α) {key : String} (invalid : Routing.isValid key = false)
    (a : α) : b.publish key a = (.error (.invalidKey key), b) :=
  if_neg (by simp [invalid])

/-! ## Buses that follow a history -/

namespace History

/-- The bus agrees with its history: on the mailboxes that have handles, and on the counters. -/
structure Agrees (past : History α) : Prop where
  boxes : past.bus.boxes.Ascending
  routes : past.bus.routes.Ascending
  nextBox : past.bus.nextBox = past.made
  handles : ∀ box, past.bus.handles box = past.handles box
  distinct : ∀ key, (past.bus.bound key).Nodup
  /-- Numbers in the routes have been given out, also those of mailboxes that are gone. -/
  given : ∀ key, ∀ box ∈ past.bus.bound key, box < past.made
  bound : ∀ key box, 0 < past.handles box →
    (box ∈ past.bus.bound key ↔ past.isBound key box = true)
  queue : ∀ box, 0 < past.handles box → past.taken box ++ past.bus.queue box = past.due box
  published : past.bus.published = past.countP isPublication
  unrouted : past.bus.unrouted = past.answers.count (.ok 0)

/-- At the start there is nothing to agree on. -/
theorem agrees_nil : Agrees ([] : History α) where
  boxes := Table.ascending_nil
  routes := Table.ascending_nil
  nextBox := rfl
  handles _ := rfl
  distinct _ := List.nodup_nil
  given _ _ h := absurd h List.not_mem_nil
  bound _ _ h := absurd h (Nat.lt_irrefl 0)
  queue _ h := absurd h (Nat.lt_irrefl 0)
  published := rfl
  unrouted := rfl

section Step

variable {past : History α} (h : past.Agrees)
include h

/-- A mailbox that is made is new, so nothing in the past can be about it. -/
theorem agrees_make (possible : past.Possible) : Agrees (.make :: past) := by
  have hFind := find?_newMailbox h.boxes
  rw [h.nextBox] at hFind
  have hHandles : ∀ box, past.bus.newMailbox.2.handles box =
      if box = past.made then 1 else past.handles box := by
    intro box
    rw [← h.handles, Bus.handles, hFind, Bus.handles]
    split <;> rfl
  obtain ⟨-, hUnbound, hDue, hTaken⟩ := fresh possible (Nat.le_refl past.made)
  refine ⟨Table.ascending_insert h.boxes _ _, h.routes, congrArg (· + 1) h.nextBox, hHandles,
    h.distinct, fun key box hMem => Nat.lt_succ_of_lt (h.given key box hMem),
    fun key box held => ?_, fun box held => ?_, h.published, h.unrouted⟩
  · by_cases hNew : box = past.made
    · subst hNew
      -- the number is a new one, so no route has it
      exact iff_of_false (fun hMem => Nat.lt_irrefl _ (h.given key _ hMem))
        (by simp [isBound, hUnbound])
    · exact h.bound key box (by simpa [handles, hNew] using held)
  · -- it starts empty, and nothing was due before it was made
    have hQueue : past.bus.newMailbox.2.queue box =
        if box = past.made then [] else past.bus.queue box := by
      rw [queue_eq, hFind, queue_eq]
      split <;> rfl
    simp only [taken, takes, due, bus, act, hQueue, List.append_nil]
    by_cases hNew : box = past.made
    · subst hNew
      simp [hTaken, hDue]
    · rw [if_neg hNew]
      exact h.queue box (by simpa [handles, hNew] using held)

/-- What changes one mailbox and is no binding and no publish: the history says how many handles
are left, and what is taken out is no longer queued. -/
theorem agrees_changeBox {x : Act α} {other : BoxId} (held : 0 < past.handles other)
    (f : Mailbox α → Mailbox α) (does : past.bus.act x = past.bus.changeBox other f)
    (silent : made (x :: past) = past.made ∧
      (∀ key box, isBound key box (x :: past) = past.isBound key box) ∧
      (∀ box, due box (x :: past) = past.due box) ∧ answers (x :: past) = past.answers ∧
      isPublication x = false)
    (elsewhere : ∀ box, box ≠ other →
      handles box (x :: past) = past.handles box ∧ past.bus.takes box x = [])
    (left : ∀ m, m.handles = past.handles other → (f m).handles = handles other (x :: past))
    (taken_eq : ∀ m, m.queue = past.bus.queue other → 0 < (f m).handles →
      past.bus.takes other x ++ (f m).queue = m.queue) :
    Agrees (x :: past) := by
  obtain ⟨hMade, hBound, hDue, hAnswers, hNot⟩ := silent
  -- the mailbox as it is now, and what is left of it
  obtain ⟨m, hm, hCount, hQueued⟩ := exists_of_handles (h.handles other ▸ held)
  have hLeft := left m (hCount.trans (h.handles other))
  have hHandles := handles_changeBox h.boxes hm f
  have hQueue := queue_changeBox h.boxes hm f
  obtain ⟨after, hAfter, hEq⟩ := exists_changeBox_eq h.boxes other f
  have hBus : bus (x :: past) = { past.bus with boxes := after } := does.trans hEq
  rw [← does] at hHandles hQueue
  -- who has a handle afterwards had one before
  have hHeld : ∀ box, 0 < handles box (x :: past) → 0 < past.handles box := by
    intro box hBox
    by_cases hOther : box = other
    · exact hOther ▸ held
    · rwa [(elsewhere box hOther).1] at hBox
  refine ⟨hBus ▸ hAfter, hBus ▸ h.routes, hBus ▸ hMade ▸ h.nextBox, fun box => ?_,
    hBus ▸ h.distinct, hBus ▸ hMade ▸ h.given, fun key box hBox => ?_, fun box hBox => ?_, ?_, ?_⟩
  · rw [bus, hHandles]
    split
    · next hOther => rw [hOther, hLeft]
    · next hOther => rw [(elsewhere box hOther).1, h.handles]
  · rw [hBus, hBound]
    exact h.bound key box (hHeld box hBox)
  · rw [taken, bus, hQueue, hDue, ← h.queue box (hHeld box hBox), List.append_assoc]
    by_cases hOther : box = other
    · -- what is taken out and what stays make up the queue as it was
      subst hOther
      rw [if_pos rfl, taken_eq m hQueued (hLeft ▸ hBox), hQueued]
    · rw [if_neg hOther, (elsewhere box hOther).2, List.nil_append]
  · rw [hBus, List.countP_cons_of_neg (by simp [hNot])]
    exact h.published
  · rw [hBus, hAnswers]
    exact h.unrouted

/-- One more holder of a mailbox changes nothing about what is due to it. -/
theorem agrees_clone {other : BoxId} (held : 0 < past.handles other) :
    Agrees (.clone other :: past) := by
  refine agrees_changeBox h held _ rfl ⟨rfl, fun _ _ => rfl, fun _ => rfl, rfl, rfl⟩
    (fun box hOther => ?_) (fun m hCount => ?_) (fun _ _ _ => rfl)
  · exact ⟨if_neg hOther, rfl⟩
  · exact (congrArg (· + 1) hCount).trans (if_pos rfl).symm

/-- With its last holder a mailbox and what waits in it are gone. -/
theorem agrees_drop {other : BoxId} (held : 0 < past.handles other) :
    Agrees (.drop other :: past) := by
  refine agrees_changeBox h held _ rfl ⟨rfl, fun _ _ => rfl, fun _ => rfl, rfl, rfl⟩
    (fun box hOther => ?_) (fun m hCount => ?_) (fun m _ hLeft => ?_)
  · exact ⟨if_neg hOther, rfl⟩
  · have hDrop : handles other (.drop other :: past) = past.handles other - 1 := if_pos rfl
    rw [hDrop, ← hCount]
    split
    · show 0 = m.handles - 1
      omega
    · rfl
  · -- the queue goes with the last handle only
    split at hLeft
    · exact absurd hLeft (Nat.lt_irrefl 0)
    · next hMore =>
      rw [if_neg hMore]
      rfl

/-- Draining takes everything that waits, in its order. -/
theorem agrees_drain {other : BoxId} (held : 0 < past.handles other) :
    Agrees (.drain other :: past) := by
  refine agrees_changeBox h held _ rfl ⟨rfl, fun _ _ => rfl, fun _ => rfl, rfl, rfl⟩
    (fun box hOther => ⟨rfl, if_neg hOther⟩) (fun m hCount => hCount) (fun m hQueue _ => ?_)
  rw [takes, if_pos rfl, drain, hQueue, List.append_nil]

/-- Receiving takes what has waited longest. -/
theorem agrees_receive {other : BoxId} (held : 0 < past.handles other) :
    Agrees (.receive other :: past) := by
  cases hQueue : past.bus.queue other with
  | nil =>
    -- nothing is there to be received
    refine agrees_changeBox h held id ?_ ⟨rfl, fun _ _ => rfl, fun _ => rfl, rfl, rfl⟩
      (fun box hOther => ⟨rfl, if_neg hOther⟩) (fun m hCount => hCount) (fun m _ _ => ?_)
    · rw [act, receive?, hQueue, changeBox_id h.boxes]
      rfl
    · rw [takes, if_pos rfl, receive?, hQueue]
      rfl
  | cons a rest =>
    refine agrees_changeBox h held (fun m => { m with queue := rest }) ?_
      ⟨rfl, fun _ _ => rfl, fun _ => rfl, rfl, rfl⟩ (fun box hOther => ⟨rfl, if_neg hOther⟩)
      (fun m hCount => hCount) (fun m hQueued _ => ?_)
    · rw [act, receive?, hQueue]
      rfl
    · rw [takes, if_pos rfl, receive?, hQueue, hQueued, hQueue]
      rfl

/-- What changes the routes alone, for a mailbox that has a handle. -/
theorem agrees_routes {x : Act α} {routes : Table String (List BoxId)} (sorted : routes.Ascending)
    (does : past.bus.act x = { past.bus with routes := routes })
    (silent : made (x :: past) = past.made ∧
      (∀ box, handles box (x :: past) = past.handles box) ∧
      (∀ box, due box (x :: past) = past.due box) ∧ answers (x :: past) = past.answers ∧
      (∀ box, past.bus.takes box x = []) ∧ isPublication x = false)
    (distinct : ∀ key, ((past.bus.act x).bound key).Nodup)
    (given : ∀ key, ∀ box ∈ (past.bus.act x).bound key, box < past.made)
    (binds : ∀ key box, (box ∈ past.bus.bound key ↔ past.isBound key box = true) →
      (box ∈ (past.bus.act x).bound key ↔ isBound key box (x :: past) = true)) :
    Agrees (x :: past) := by
  obtain ⟨hMade, hHandles, hDue, hAnswers, hTakes, hNot⟩ := silent
  have hBus : bus (x :: past) = { past.bus with routes := routes } := does
  refine ⟨hBus ▸ h.boxes, hBus ▸ sorted, hBus ▸ hMade ▸ h.nextBox, fun box => ?_, distinct,
    hMade ▸ given, fun key box hBox => ?_, fun box hBox => ?_, ?_, ?_⟩
  · rw [hBus, hHandles]
    exact h.handles box
  · exact binds key box (h.bound key box (hHandles box ▸ hBox))
  · rw [taken, hTakes, List.append_nil, hBus, hDue]
    exact h.queue box (hHandles box ▸ hBox)
  · rw [hBus, List.countP_cons_of_neg (by simp [hNot])]
    exact h.published
  · rw [hBus, hAnswers]
    exact h.unrouted

/-- A binding counts for what is published after it. -/
theorem agrees_bind (possible : past.Possible) {key : String} {other : BoxId}
    (held : 0 < past.handles other) : Agrees (.bind key other :: past) := by
  have hMem := mem_bound_bind h.routes key other
  obtain ⟨routes, hRoutes, hEq⟩ := exists_bind_eq h.routes key other
  refine agrees_routes h hRoutes hEq
    ⟨rfl, fun _ => rfl, fun _ => rfl, rfl, fun _ => rfl, rfl⟩
    (nodup_bound_bind h.routes h.distinct key other) (fun key' box hBox => ?_)
    (fun key' box hOld => ?_)
  · rcases (hMem key' box).mp hBox with hOld | ⟨-, rfl⟩
    · exact h.given key' box hOld
    · -- it has a handle, so it was made
      by_contra hUnmade
      have := (fresh possible (Nat.le_of_not_lt hUnmade)).1
      omega
  · rw [act, hMem, hOld, isBound]
    simp [or_comm]

/-- What is published after unbinding is no longer due. -/
theorem agrees_unbind {key : String} {other : BoxId} : Agrees (.unbind key other :: past) := by
  have hMem := mem_bound_unbind h.routes key other
  have hSub := bound_unbind_sublist h.routes key other
  obtain ⟨routes, hRoutes, hEq⟩ := exists_unbind_eq h.routes key other
  -- the routes only shrink, so what held of their members holds of those that stay
  refine agrees_routes h hRoutes hEq
    ⟨rfl, fun _ => rfl, fun _ => rfl, rfl, fun _ => rfl, rfl⟩
    (fun key' => (h.distinct key').sublist (hSub key'))
    (fun key' box hBox => h.given key' box ((hSub key').subset hBox)) (fun key' box hOld => ?_)
  rw [act, hMem, hOld, isBound, Bool.and_eq_true, Bool.not_eq_true', decide_eq_false_iff_not]
  exact and_comm

/-- Who is reached under a key: the mailboxes that have a handle and are bound to it. -/
theorem mem_reached_iff (key : String) (box : BoxId) :
    box ∈ (past.bus.bound key).filter past.bus.isLive ↔
      0 < past.handles box ∧ past.isBound key box = true := by
  rw [List.mem_filter, isLive_iff, h.handles, and_comm]
  exact and_congr_right fun held => h.bound key box held

/-- A publication is due to every mailbox that is bound to its key and held, once. -/
theorem agrees_publish (key : String) (a : α) : Agrees (.publish key a :: past) := by
  cases hValid : Routing.isValid key with
  | false =>
    -- nothing happens, and the history does not count it either
    have hBus : bus (.publish key a :: past) = past.bus := by
      rw [bus, act, publish_of_invalid _ hValid]
    have hDue : ∀ box, due box (.publish key a :: past) = past.due box := by simp [due, hValid]
    have hTaken : ∀ box, taken box (.publish key a :: past) = past.taken box :=
      fun box => List.append_nil _
    refine ⟨hBus ▸ h.boxes, hBus ▸ h.routes, hBus ▸ h.nextBox, hBus ▸ h.handles,
      hBus ▸ h.distinct, hBus ▸ h.given, hBus ▸ h.bound, fun box held => ?_, ?_, ?_⟩
    · rw [hTaken, hBus, hDue]
      exact h.queue box held
    · rw [hBus, List.countP_cons_of_neg (by simp [isPublication, hValid])]
      exact h.published
    · rw [hBus, answers, publish_of_invalid _ hValid, List.count_cons_of_ne (by simp)]
      exact h.unrouted
  | true =>
    have hBus : bus (.publish key a :: past) = (past.bus.deliver key a).2 := by
      rw [bus, act, publish_of_valid _ hValid]
    obtain ⟨hBoxes, hRoutes, hNext, hHandles, hBound, hQueue, hPublished, hUnrouted⟩ :=
      delivers_deliver h.boxes h.routes h.distinct key a
    rw [← hBus] at hBoxes hRoutes hNext hHandles hBound hQueue hPublished hUnrouted
    -- the routes lose only mailboxes that are gone
    have hMem : ∀ key' box, box ∈ (bus (.publish key a :: past)).bound key' ↔
        box ∈ past.bus.bound key' ∧ (key' = key → 0 < past.handles box) := by
      intro key' box
      rw [hBound]
      split
      · next hSame => rw [List.mem_filter, isLive_iff, h.handles, hSame]; simp
      · next hOther => simp [hOther]
    refine ⟨hBoxes, hRoutes, hNext.trans h.nextBox, fun box => (hHandles box).trans (h.handles box),
      fun key' => ?_, fun key' box hBox => h.given key' box ((hMem key' box).mp hBox).1,
      fun key' box held => ?_, fun box held => ?_, ?_, ?_⟩
    · rw [hBound]
      split
      · exact (h.distinct key).filter _
      · exact h.distinct key'
    · rw [hMem, h.bound key' box held]
      exact and_iff_left fun _ => held
    · -- the bus and the history decide alike whether it gets what is published
      have hTaken : taken box (.publish key a :: past) = past.taken box := List.append_nil _
      rw [hTaken, hQueue box (h.handles box ▸ held), ← List.append_assoc, h.queue box held, due,
        hValid, Bool.true_and]
      by_cases hBox : past.isBound key box = true
      · rw [if_pos hBox, if_pos ((h.bound key box held).mpr hBox)]
      · rw [if_neg hBox, if_neg fun hBox' => hBox ((h.bound key box held).mp hBox'),
          List.append_nil]
    · have hCounts : isPublication (.publish key a) = true := hValid
      rw [hPublished, List.countP_cons_of_pos hCounts, h.published]
    · rw [hUnrouted, answers, publish_of_valid _ hValid, List.count_cons, h.unrouted]
      simp

end Step

/-- **The bus and its history.** Whatever is done to a bus, in any order, the bus agrees with the
history of what was done. -/
theorem agrees_of_possible {past : History α} (possible : past.Possible) : past.Agrees := by
  induction past with
  | nil => exact agrees_nil
  | cons x past ih =>
    obtain ⟨hUsed, hPast⟩ := possible
    have hAgrees := ih hPast
    cases x with
    | make => exact agrees_make hAgrees hPast
    | clone box => exact agrees_clone hAgrees (hUsed box rfl)
    | drop box => exact agrees_drop hAgrees (hUsed box rfl)
    | bind key box => exact agrees_bind hAgrees hPast (hUsed box rfl)
    | unbind key box => exact agrees_unbind hAgrees
    | publish key a => exact agrees_publish hAgrees key a
    | receive box => exact agrees_receive hAgrees (hUsed box rfl)
    | drain box => exact agrees_drain hAgrees (hUsed box rfl)

/-- **Delivery.** After any history of making, cloning, dropping, binding, unbinding, publishing,
receiving and draining, over any keys:

* what was taken out of a mailbox that has a handle, followed by what it still queues, is what was
  published under valid keys while it was bound to them, once each and in that order;
* publishing under a valid key answers with the number of the mailboxes that have a handle and are
  bound to the key;
* publishing under any other key is an error and changes nothing;
* the counters say how often something was published under a valid key, and how often the answer
  was that nobody was reached. -/
theorem delivery {past : History α} (possible : past.Possible) :
    (∀ box, 0 < past.handles box → past.taken box ++ past.bus.queue box = past.due box) ∧
      (∀ key a, Routing.isValid key = true → ∃ reached : Finset BoxId,
        (∀ box, box ∈ reached ↔ 0 < past.handles box ∧ past.isBound key box = true) ∧
        (past.bus.publish key a).1 = .ok reached.card) ∧
      (∀ key a, Routing.isValid key = false →
        past.bus.publish key a = (.error (.invalidKey key), past.bus)) ∧
      past.bus.published = past.countP isPublication ∧
      past.bus.unrouted = past.answers.count (.ok 0) := by
  have hAgrees := agrees_of_possible possible
  refine ⟨hAgrees.queue, fun key a hValid => ?_,
    fun key a hInvalid => publish_of_invalid _ hInvalid a, hAgrees.published, hAgrees.unrouted⟩
  -- the bus counts a list, and no mailbox is in it twice
  have hDistinct := (hAgrees.distinct key).filter past.bus.isLive
  refine ⟨((past.bus.bound key).filter past.bus.isLive).toFinset, fun box => ?_, ?_⟩
  · rw [List.mem_toFinset]
    exact mem_reached_iff hAgrees key box
  · rw [publish_of_valid _ hValid, List.toFinset_card_of_nodup hDistinct]

/-- Two mailboxes under one key, one of them bound twice; then that one is cloned and drained, and
the other one dropped. Afterwards something is published under the key, under no key at all and
under a key that nobody is bound to. -/
def briefHistory : History Nat :=
  [.publish "j" 5, .publish "" 4, .publish "k" 3, .drop 1, .drain 0, .publish "k" 2, .bind "k" 1,
    .bind "k" 0, .clone 0, .bind "k" 0, .make, .make]

/-- In a brief history a mailbox that is bound in time has taken one message and has one waiting,
and one publication has reached nobody. -/
theorem delivery_brief :
    briefHistory.Possible ∧ 0 < briefHistory.handles 0 ∧
      briefHistory.taken 0 ++ briefHistory.bus.queue 0 = briefHistory.due 0 ∧
      briefHistory.taken 0 = [2] ∧ briefHistory.due 0 = [2, 3] ∧
      briefHistory.bus.published = 3 ∧ briefHistory.bus.unrouted = 1 := by
  have hPossible : briefHistory.Possible := by
    simp [briefHistory, Possible, Act.box?, handles, made]
  obtain ⟨hQueue, -, -, hPublished, hUnrouted⟩ := delivery hPossible
  exact ⟨hPossible, by decide, hQueue 0 (by decide), by decide, by decide,
    hPublished.trans (by decide), hUnrouted.trans (by decide)⟩

end History

end FleetMetrics.Bus
