import Mathlib
import FleetMetrics.Posting
import FleetMetrics.Proofs.Table

/-!
# What the bus does to a mailbox

As long as no mailbox is dropped, three questions tell all there is to know of a bus: what each
mailbox holds, whether it is live, and what it is bound to. The theorems here answer them after
each operation. Publishing puts something at the end of the queues that are bound to the key, and
receiving takes something from the front of one queue; neither changes what is bound.

Main results:

* `extends_post` — what a list of messages adds to each queue.
* `receive?_eq_some` — what is received was the front of the queue, and the rest stays.
* `mem_bound_bind`, `mem_bound_unbind` — what is bound after each change.
* `openMailbox_spec` — a new mailbox is empty and bound to its keys.
-/

namespace FleetMetrics.Bus

variable {α : Type}

/-- A bus whose bound mailboxes are live and bound once. -/
structure Sound (b : Bus α) : Prop where
  boxes : b.boxes.Ascending
  routes : b.routes.Ascending
  /-- Numbers in use have been given out. -/
  given : ∀ box m, b.boxes.find? box = some m → box < b.nextBox
  distinct : ∀ key, (b.bound key).Nodup
  live : ∀ key, ∀ box ∈ b.bound key, b.isLive box = true

/-- A bus without mailboxes has nothing that could be wrong. -/
theorem sound_empty : (empty : Bus α).Sound where
  boxes := Table.ascending_nil
  routes := Table.ascending_nil
  given := by simp [empty]
  distinct := by simp [empty, bound]
  live := by simp [empty, bound]

/-! ## Changes of one mailbox -/

/-- Changing a mailbox is seen in that mailbox alone. -/
theorem find?_changeBox {b : Bus α} (sorted : b.boxes.Ascending) (box : BoxId)
    (f : Mailbox α → Mailbox α) (box' : BoxId) :
    (b.changeBox box f).boxes.find? box' =
      if box' = box then (b.boxes.find? box).map f else b.boxes.find? box' := by
  unfold changeBox
  split
  · next m hm => rw [Table.find?_insert sorted, hm, Option.map_some]
  · next hm =>
    split
    · next h => rw [h, hm, Option.map_none]
    · rfl

/-- What is bound is not changed with a mailbox. -/
theorem bound_changeBox (b : Bus α) (box : BoxId) (f : Mailbox α → Mailbox α) (key : String) :
    (b.changeBox box f).bound key = b.bound key := by
  unfold changeBox
  split <;> rfl

theorem nextBox_changeBox (b : Bus α) (box : BoxId) (f : Mailbox α → Mailbox α) :
    (b.changeBox box f).nextBox = b.nextBox := by
  unfold changeBox
  split <;> rfl

section ChangeBox

variable {b : Bus α} {f : Mailbox α → Mailbox α}

/-- A change that keeps the handles keeps who is live. -/
theorem isLive_changeBox (sorted : b.boxes.Ascending) (keeps : ∀ m, (f m).handles = m.handles)
    (box box' : BoxId) : (b.changeBox box f).isLive box' = b.isLive box' := by
  unfold isLive
  rw [find?_changeBox sorted]
  by_cases h : box' = box
  · rw [if_pos h, h]
    cases b.boxes.find? box with
    | none => rfl
    | some m => simp [keeps]
  · rw [if_neg h]

/-- As long as nobody's handle is taken, the bus stays sound. -/
theorem sound_changeBox (hb : b.Sound) (keeps : ∀ m, (f m).handles = m.handles) (box : BoxId) :
    (b.changeBox box f).Sound where
  boxes := by
    unfold changeBox
    split
    · exact Table.ascending_insert hb.boxes _ _
    · exact hb.boxes
  routes := by
    unfold changeBox
    split <;> exact hb.routes
  given := by
    intro box' m hm
    rw [nextBox_changeBox]
    rw [find?_changeBox hb.boxes] at hm
    split at hm
    · next h =>
      obtain ⟨m', hm', -⟩ := Option.map_eq_some_iff.mp hm
      rw [h]
      exact hb.given box m' hm'
    · exact hb.given box' m hm
  distinct key := by
    rw [bound_changeBox]
    exact hb.distinct key
  live key box' hMem := by
    rw [bound_changeBox] at hMem
    rw [isLive_changeBox hb.boxes keeps]
    exact hb.live key box' hMem

end ChangeBox

/-! ## Publishing -/

/-- A bus is another one with something put at the end of its queues. -/
structure Extends (b : Bus α) (added : BoxId → List α) (b' : Bus α) : Prop where
  sound : b'.Sound
  bound : ∀ key, b'.bound key = b.bound key
  isLive : ∀ box, b'.isLive box = b.isLive box
  queue : ∀ box, b'.queue box = b.queue box ++ added box

theorem extends_refl {b : Bus α} (hb : b.Sound) : b.Extends (fun _ => []) b :=
  ⟨hb, fun _ => rfl, fun _ => rfl, fun _ => (List.append_nil _).symm⟩

/-- Only what each mailbox got counts, not how it is said. -/
theorem Extends.congr {b b' : Bus α} {added added' : BoxId → List α} (h : b.Extends added b')
    (same : ∀ box, added box = added' box) : b.Extends added' b' :=
  ⟨h.sound, h.bound, h.isLive, fun box => same box ▸ h.queue box⟩

/-- Of two extensions, one after the other, a mailbox has got both, in this order. -/
theorem Extends.trans {b b' b'' : Bus α} {added added' : BoxId → List α}
    (h : b.Extends added b') (h' : b'.Extends added' b'') :
    b.Extends (fun box => added box ++ added' box) b'' where
  sound := h'.sound
  bound key := (h'.bound key).trans (h.bound key)
  isLive box := (h'.isLive box).trans (h.isLive box)
  queue box := by rw [h'.queue, h.queue, List.append_assoc]

/-- A message put into a mailbox that somebody holds is the only thing that changes. -/
theorem extends_push {b : Bus α} (hb : b.Sound) (a : α) {box : BoxId} (live : b.isLive box = true) :
    b.Extends (fun box' => if box' = box then [a] else []) (b.push a box) where
  sound := by
    refine sound_changeBox hb (fun m => ?_) box
    rfl
  bound key := bound_changeBox b box _ key
  isLive box' := by
    refine isLive_changeBox hb.boxes (fun m => ?_) box box'
    rfl
  queue box' := by
    obtain ⟨m, hm⟩ : ∃ m, b.boxes.find? box = some m := by
      cases hm : b.boxes.find? box with
      | none => simp [Bus.isLive, hm] at live
      | some m => exact ⟨m, rfl⟩
    unfold push Bus.queue
    rw [find?_changeBox hb.boxes]
    by_cases h : box' = box
    · rw [if_pos h, if_pos h, h, hm]
      rfl
    · rw [if_neg h, if_neg h, List.append_nil]

/-- Different live mailboxes get something each. -/
theorem extends_pushAll {b : Bus α} (hb : b.Sound) (a : α) {boxes : List BoxId}
    (distinct : boxes.Nodup) (live : ∀ box ∈ boxes, b.isLive box = true) :
    b.Extends (fun box => if box ∈ boxes then [a] else []) (boxes.foldl (push a) b) := by
  induction boxes generalizing b with
  | nil => simpa using extends_refl hb
  | cons box rest ih =>
    obtain ⟨hHead, hRest⟩ := List.nodup_cons.mp distinct
    have hPush := extends_push hb a (live box List.mem_cons_self)
    have hTail := ih hPush.sound hRest fun box' h => by
      rw [hPush.isLive]
      exact live box' (List.mem_cons_of_mem _ h)
    refine (hPush.trans hTail).congr fun box' => ?_
    by_cases h : box' = box
    · simp [h, hHead]
    · simp [h]

/-- Routing tables that bind the same are as good as each other. -/
theorem extends_routes {b : Bus α} (hb : b.Sound) {routes : Table String (List BoxId)}
    (sorted : routes.Ascending) (same : ∀ key, (routes.find? key).getD [] = b.bound key)
    (published unrouted : Nat) :
    b.Extends (fun _ => [])
      { b with routes := routes, published := published, unrouted := unrouted } where
  sound :=
    { boxes := hb.boxes
      routes := sorted
      given := hb.given
      distinct := fun key => (congrArg List.Nodup (same key)).mpr (hb.distinct key)
      live := fun key box hMem => hb.live key box (same key ▸ hMem) }
  bound := same
  isLive _ := rfl
  queue _ := (List.append_nil _).symm

/-- Delivering reaches the mailboxes bound to that very key, each once. -/
theorem extends_deliver {b : Bus α} (hb : b.Sound) (key : String) (a : α) :
    b.Extends (fun box => if box ∈ b.bound key then [a] else []) (b.deliver key a).2 := by
  -- on a sound bus no mailbox that is bound is gone, so none is forgotten
  have hLive : (b.bound key).filter b.isLive = b.bound key :=
    List.filter_eq_self.mpr fun box h => hb.live key box h
  have hRoutes : ∀ key', ((if (b.bound key).isEmpty then b.routes
      else b.routes.insert key (b.bound key)).find? key').getD [] = b.bound key' := by
    intro key'
    split
    · rfl
    · rw [Table.find?_insert hb.routes]
      split
      · next h => rw [h]; rfl
      · rfl
  have hSorted : (if (b.bound key).isEmpty then b.routes
      else b.routes.insert key (b.bound key)).Ascending := by
    split
    · exact hb.routes
    · exact Table.ascending_insert hb.routes _ _
  have hFirst := extends_routes hb hSorted hRoutes b.published b.unrouted
  have hPush := extends_pushAll hFirst.sound a (hb.distinct key) fun box h => by
    rw [hFirst.isLive]
    exact hb.live key box h
  unfold deliver
  simp only [hLive]
  refine (hFirst.trans (hPush.trans
    (extends_routes hPush.sound hPush.sound.routes (fun _ => rfl) _ _))).congr fun box => ?_
  simp

/-- Does what is published under a key get into a mailbox? -/
def reaches (b : Bus α) (key : String) (box : BoxId) : Bool :=
  Routing.isValid key && decide (box ∈ b.bound key)

/-- Publishing reaches the mailboxes bound to the key, unless the key is no valid one, which reaches
nobody. -/
theorem extends_publish {b : Bus α} (hb : b.Sound) (key : String) (a : α) :
    b.Extends (fun box => if b.reaches key box then [a] else []) (b.publish key a).2 := by
  unfold publish reaches
  split
  · next h => simpa [h] using extends_deliver hb key a
  · next h => simpa [h] using extends_refl hb

/-- **What is posted.** Of a list of messages each queue gets, in order, those whose key reaches its
mailbox. -/
theorem extends_post {N : Type} {b : Bus (Envelope N)} (hb : b.Sound)
    (envelope : Message N → Envelope N) (sent : List (String × Message N)) :
    b.Extends (fun box => (sent.filter fun d => b.reaches d.1 box).map fun d => envelope d.2)
      (b.post envelope sent).2 := by
  induction sent generalizing b with
  | nil => exact extends_refl hb
  | cons d rest ih =>
    have hOne := extends_publish hb d.1 (envelope d.2)
    -- publishing changes no bindings, so what is reached later is as before
    have hSame : ∀ key box, (b.publish d.1 (envelope d.2)).2.reaches key box = b.reaches key box :=
      fun key box => by rw [reaches, hOne.bound, reaches]
    refine (hOne.trans (ih hOne.sound)).congr fun box => ?_
    rw [List.filter_cons]
    simp only [hSame]
    split <;> simp

/-! ## Receiving -/

/-- What is received was the front of the queue; the rest of it stays, and so does everything
else. -/
theorem receive?_eq_some {b b' : Bus α} (hb : b.Sound) {box : BoxId} {a : α}
    (received : b.receive? box = some (a, b')) :
    b'.Sound ∧ (∀ key, b'.bound key = b.bound key) ∧ (∀ box', b'.isLive box' = b.isLive box') ∧
      ∃ rest, b.queue box = a :: rest ∧
        ∀ box', b'.queue box' = if box' = box then rest else b.queue box' := by
  unfold receive? at received
  split at received
  · cases received
  · next a' rest hQueue =>
    cases received
    have hKeeps : ∀ m : Mailbox α, ({ m with queue := rest } : Mailbox α).handles = m.handles :=
      fun _ => rfl
    refine ⟨sound_changeBox hb hKeeps box, bound_changeBox b box _,
      isLive_changeBox hb.boxes hKeeps box, rest, hQueue, fun box' => ?_⟩
    rw [queue, find?_changeBox hb.boxes]
    by_cases h : box' = box
    · rw [if_pos h, if_pos h]
      cases hm : b.boxes.find? box with
      | none => simp [queue, hm] at hQueue
      | some m => rfl
    · rw [if_neg h, if_neg h, queue]

/-! ## Bindings -/

/-- Entering the mailboxes of one key leaves those of every other key alone. -/
theorem bound_insert {b : Bus α} (sorted : b.routes.Ascending) (key : String) (boxes : List BoxId)
    (key' : String) :
    ({ b with routes := b.routes.insert key boxes } : Bus α).bound key' =
      if key' = key then boxes else b.bound key' := by
  simp only [bound, Table.find?_insert sorted]
  split <;> rfl

/-- Binding changes the routes and nothing else. -/
theorem exists_bind_eq {b : Bus α} (sorted : b.routes.Ascending) (key : String) (box : BoxId) :
    ∃ routes, routes.Ascending ∧ b.bind key box = { b with routes := routes } := by
  unfold bind
  split
  · exact ⟨b.routes, sorted, rfl⟩
  · exact ⟨_, Table.ascending_insert sorted _ _, rfl⟩

/-- Binding adds one mailbox to one key, and takes nothing away. -/
theorem mem_bound_bind {b : Bus α} (sorted : b.routes.Ascending) (key : String) (box : BoxId)
    (key' : String) (box' : BoxId) :
    box' ∈ (b.bind key box).bound key' ↔ box' ∈ b.bound key' ∨ key' = key ∧ box' = box := by
  unfold bind
  split
  · next hMem =>
    constructor
    · exact .inl
    · rintro (h | ⟨rfl, rfl⟩)
      · exact h
      · exact hMem
  · rw [bound_insert sorted]
    by_cases h : key' = key
    · subst h
      simp
    · simp [h]

/-- A mailbox that is bound again is not bound twice, so it gets no message twice. -/
theorem nodup_bound_bind {b : Bus α} (sorted : b.routes.Ascending)
    (distinct : ∀ key, (b.bound key).Nodup) (key : String) (box : BoxId) (key' : String) :
    ((b.bind key box).bound key').Nodup := by
  unfold bind
  split
  · exact distinct key'
  · next hNew =>
    rw [bound_insert sorted]
    split
    · exact List.nodup_append.mpr ⟨distinct key, List.nodup_singleton box, by
        rintro x hx y hy rfl
        rw [List.mem_singleton] at hy
        exact hNew (hy ▸ hx)⟩
    · exact distinct key'

/-- Undoing a binding changes the routes and nothing else. -/
theorem exists_unbind_eq {b : Bus α} (sorted : b.routes.Ascending) (key : String) (box : BoxId) :
    ∃ routes, routes.Ascending ∧ b.unbind key box = { b with routes := routes } := by
  unfold unbind
  split
  · exact ⟨_, Table.ascending_erase sorted _, rfl⟩
  · exact ⟨_, Table.ascending_insert sorted _ _, rfl⟩

/-- Unbinding takes one mailbox off one key, and nothing else. -/
theorem mem_bound_unbind {b : Bus α} (sorted : b.routes.Ascending) (key : String) (box : BoxId)
    (key' : String) (box' : BoxId) :
    box' ∈ (b.unbind key box).bound key' ↔ box' ∈ b.bound key' ∧ ¬ (key' = key ∧ box' = box) := by
  have hFilter : ∀ boxes, (b.bound key).filter (· ≠ box) = boxes →
      (box' ∈ boxes ↔ box' ∈ b.bound key ∧ ¬ box' = box) := by
    rintro _ rfl
    simp
  unfold unbind
  split
  · next hNil =>
    have := hFilter _ hNil
    simp only [bound, Table.find?_erase]
    by_cases h : key' = key
    · subst h
      simpa [bound] using this
    · simp [h]
  · next hRest =>
    rw [bound_insert sorted]
    by_cases h : key' = key
    · subst h
      simp
    · simp [h]

/-- The mailboxes that remain keep their order. -/
theorem bound_unbind_sublist {b : Bus α} (sorted : b.routes.Ascending) (key : String) (box : BoxId)
    (key' : String) : ((b.unbind key box).bound key').Sublist (b.bound key') := by
  unfold unbind
  split
  · simp only [bound, Table.find?_erase]
    split
    · exact List.nil_sublist _
    · exact List.Sublist.refl _
  · rw [bound_insert sorted]
    split
    · next h =>
      rw [h]
      exact List.filter_sublist
    · exact List.Sublist.refl _

/-- Only a mailbox that is held can be bound without making the bus unsound. -/
theorem sound_bind {b : Bus α} (hb : b.Sound) (key : String) {box : BoxId}
    (live : b.isLive box = true) : (b.bind key box).Sound := by
  have hMem := mem_bound_bind hb.routes key box
  have hDistinct := nodup_bound_bind hb.routes hb.distinct key box
  obtain ⟨routes, hRoutes, hEq⟩ := exists_bind_eq hb.routes key box
  rw [hEq] at hMem hDistinct ⊢
  refine ⟨hb.boxes, hRoutes, hb.given, hDistinct, fun key' box' h => ?_⟩
  rcases (hMem key' box').mp h with h | ⟨-, rfl⟩
  · exact hb.live key' box' h
  · exact live

/-- Unbinding is safe at any time. -/
theorem sound_unbind {b : Bus α} (hb : b.Sound) (key : String) (box : BoxId) :
    (b.unbind key box).Sound := by
  have hBound := bound_unbind_sublist hb.routes key box
  obtain ⟨routes, hRoutes, hEq⟩ := exists_unbind_eq hb.routes key box
  rw [hEq] at hBound ⊢
  exact ⟨hb.boxes, hRoutes, hb.given, fun key' => (hb.distinct key').sublist (hBound key'),
    fun key' box' h => hb.live key' box' ((hBound key').subset h)⟩

/-- What already waits in a mailbox is not touched by binding. -/
theorem queue_bind (b : Bus α) (key : String) (box box' : BoxId) :
    (b.bind key box).queue box' = b.queue box' := by
  unfold bind
  split <;> rfl

theorem isLive_bind (b : Bus α) (key : String) (box box' : BoxId) :
    (b.bind key box).isLive box' = b.isLive box' := by
  unfold bind
  split <;> rfl

/-- What was delivered before is still received after unbinding. -/
theorem queue_unbind (b : Bus α) (key : String) (box box' : BoxId) :
    (b.unbind key box).queue box' = b.queue box' := by
  unfold unbind
  split <;> rfl

theorem isLive_unbind (b : Bus α) (key : String) (box box' : BoxId) :
    (b.unbind key box).isLive box' = b.isLive box' := by
  unfold unbind
  split <;> rfl

/-! ## New mailboxes -/

/-- The number of the next mailbox is not in use. -/
theorem isLive_nextBox {b : Bus α} (hb : b.Sound) : b.isLive b.nextBox = false := by
  unfold isLive
  split
  · next m hm => exact absurd (hb.given _ m hm) (Nat.lt_irrefl _)
  · rfl

/-- A new mailbox is empty and has one holder. -/
theorem find?_newMailbox {b : Bus α} (sorted : b.boxes.Ascending) (box : BoxId) :
    b.newMailbox.2.boxes.find? box =
      if box = b.nextBox then some ⟨[], 1⟩ else b.boxes.find? box :=
  Table.find?_insert sorted _ _ _

/-- A new mailbox is alive, and so are those that were. -/
theorem isLive_newMailbox {b : Bus α} (hb : b.Sound) (box : BoxId) :
    b.newMailbox.2.isLive box = (decide (box = b.nextBox) || b.isLive box) := by
  unfold isLive
  rw [find?_newMailbox hb.boxes]
  by_cases h : box = b.nextBox <;> simp [h]

/-- Nothing waits in a new mailbox, whatever was published before. -/
theorem queue_newMailbox {b : Bus α} (hb : b.Sound) (box : BoxId) :
    b.newMailbox.2.queue box = if box = b.nextBox then [] else b.queue box := by
  unfold queue
  rw [find?_newMailbox hb.boxes]
  by_cases h : box = b.nextBox <;> simp [h]

/-- A new mailbox gets a number that nothing is bound to yet. -/
theorem sound_newMailbox {b : Bus α} (hb : b.Sound) : b.newMailbox.2.Sound where
  boxes := Table.ascending_insert hb.boxes _ _
  routes := hb.routes
  given := by
    intro box m hm
    rw [find?_newMailbox hb.boxes] at hm
    split at hm
    · next h =>
      rw [h]
      exact Nat.lt_succ_self _
    · exact Nat.lt_succ_of_lt (hb.given box m hm)
  distinct := hb.distinct
  live := by
    intro key box hMem
    rw [isLive_newMailbox hb, hb.live key box hMem, Bool.or_true]

/-- A new mailbox is an empty one that was not there, bound to its keys; everything else stays. -/
theorem openMailbox_spec {N : Type} {b : Bus (Envelope N)} (hb : b.Sound) (keys : List String) :
    let opened := b.openMailbox keys
    opened.1 = b.nextBox ∧ opened.2.Sound ∧
      (∀ key box, box ∈ opened.2.bound key ↔ box ∈ b.bound key ∨ key ∈ keys ∧ box = b.nextBox) ∧
      (∀ box, opened.2.isLive box = (decide (box = b.nextBox) || b.isLive box)) ∧
      ∀ box, opened.2.queue box = if box = b.nextBox then [] else b.queue box := by
  -- the keys are bound one by one, so the claim is about any bus with the new mailbox
  suffices hFold : ∀ b' : Bus (Envelope N), b'.Sound → b'.isLive b.nextBox = true →
      let bound := keys.foldl (fun b' key => b'.bind key b.nextBox) b'
      bound.Sound ∧
        (∀ key box, box ∈ bound.bound key ↔ box ∈ b'.bound key ∨ key ∈ keys ∧ box = b.nextBox) ∧
        (∀ box, bound.isLive box = b'.isLive box) ∧ ∀ box, bound.queue box = b'.queue box by
    obtain ⟨hSound, hBound, hLive', hQueue'⟩ :=
      hFold b.newMailbox.2 (sound_newMailbox hb) (by simp [isLive_newMailbox hb])
    exact ⟨rfl, hSound, hBound, fun box => (hLive' box).trans (isLive_newMailbox hb box),
      fun box => (hQueue' box).trans (queue_newMailbox hb box)⟩
  induction keys with
  | nil => exact fun b' hb' _ => ⟨hb', by simp, fun _ => rfl, fun _ => rfl⟩
  | cons key rest ih =>
    intro b' hb' hOpen
    obtain ⟨hSound, hBound, hLive, hQueue⟩ :=
      ih (b'.bind key b.nextBox) (sound_bind hb' key hOpen) (by rw [isLive_bind, hOpen])
    refine ⟨hSound, fun key' box => ?_, fun box => (hLive box).trans (isLive_bind _ _ _ _),
      fun box => (hQueue box).trans (queue_bind _ _ _ _)⟩
    rw [List.foldl_cons, hBound, mem_bound_bind hb'.routes, List.mem_cons]
    tauto

end FleetMetrics.Bus
