import Mathlib
import FleetMetrics.Query
import FleetMetrics.Proofs.Participant

/-!
# Links

A link is what the coordinator and one host have to do with each other about one instrumentation:
how the instrumentation stands for the coordinator, what the host does, and what is under way
between the two. Nothing else matters for whether they agree, so the whole argument about
agreement is made here, on links, before any fleet is looked at.

Orders travel one way and answers the other, and each way keeps its order. What makes the argument
work is that all commands to start one instrumentation are the same command, so that a host that
has started once will not refuse later, and one that has refused will not start; and that the last
order about an instrumentation that has ended is to stop, unless the host has refused or was never
told.

Nothing here says that an order or an answer ever arrives.

Main results:

* `sound_begin`, `sound_recall`, `sound_hear`, `sound_ignore`, `sound_end`, `sound_start`,
  `sound_stop`, `sound_join` — everything that can happen on a link keeps it sound.
* `Sound.serves_of_enabled` — on a sound link a host whose word is that it has started is at work.
* `Sound.standing_of_quiet` — on a sound link without anything under way a host at work has said
  so.
-/

namespace FleetMetrics

/-- What a host does for an instrumentation, apart from the values it has seen. -/
inductive Duty where
  | sampling (streamKey : String) (query : Query Float) (scope : Option String)
      (instrumented : Bool)
  | collecting (streamKey : String)

/-- How an instrumentation stands for the coordinator: it has not begun, or it is creating or
enabled, with the command that starts it and the word of the host, or it has ended, because it
has failed or is deleted. -/
inductive Standing where
  | unborn
  | live (command : Message Float) (word : Option AckState)
  | ended

/-- The coordinator and a host about an instrumentation. -/
structure Link where
  standing : Standing
  /-- Do messages to the host arrive? -/
  reachable : Bool
  /-- What a command to start makes the host do, if it does not refuse. -/
  offer : Message Float → Option Duty
  /-- What the host does. -/
  duty : Option Duty
  /-- What the host has not read yet. -/
  orders : List Order
  /-- What the coordinator has not read yet: whether the host has started. -/
  answers : List Bool

namespace Link

/-- What a host does after an order. One that is at work goes on as it is. -/
def follow (offer : Message Float → Option Duty) (duty : Option Duty) : Order → Option Duty
  | .start m => duty.or (offer m)
  | .stop => none

/-- The link with more orders on their way. -/
def tell (l : Link) (orders : List Order) : Link :=
  { l with orders := l.orders ++ if l.reachable then orders else [] }

theorem tell_nil (l : Link) : l.tell [] = l := by
  simp [tell]

/-- Nothing is done and nothing is under way. -/
structure Idle (l : Link) : Prop where
  duty : l.duty = none
  orders : l.orders = []
  answers : l.answers = []

/-- What is true of a link about a creating or enabled instrumentation. -/
structure Live (l : Link) (command : Message Float) (word : Option AckState) : Prop where
  /-- All orders are to start, and by the same command. -/
  told : ∀ o ∈ l.orders, o = .start command
  serves : ∀ d, l.duty = some d → l.offer command = some d
  started : true ∈ l.answers → l.duty.isSome
  refused : false ∈ l.answers → l.offer command = none
  /-- Who takes no part has never been told. -/
  apart : word = none → l.Idle
  enabled : word = some .enabled → l.duty.isSome
  failed : word = some .failed → l.offer command = none
  /-- Who is waited for has something to read, or has answered. -/
  awaited : word = some .unknown → l.reachable = true → l.orders ≠ [] ∨ l.answers ≠ []

/-- What is true of every link. -/
structure Sound (l : Link) : Prop where
  unreachable : l.reachable = false → l.duty = none ∧ l.orders = []
  unborn : l.standing = .unborn → l.Idle
  live : ∀ m a, l.standing = .live m a → l.Live m a
  /-- Once it has read all its orders, the host does nothing for what has ended. -/
  ended : l.standing = .ended → l.orders.foldl (follow l.offer) l.duty = none

/-- On an idle link nothing is wrong, as long as the coordinator does not expect anything. -/
theorem sound_idle {l : Link} (idle : l.Idle) (apart : ∀ m a, l.standing = .live m a → a = none) :
    l.Sound where
  unreachable _ := ⟨idle.duty, idle.orders⟩
  unborn _ := idle
  live m a hLive := by
    obtain rfl := apart m a hLive
    exact
      { told := by simp [idle.orders]
        serves := by simp [idle.duty]
        started := by simp [idle.answers]
        refused := by simp [idle.answers]
        apart := fun _ => idle
        enabled := nofun
        failed := nofun
        awaited := nofun }
  ended _ := by simp [idle.orders, idle.duty]

/-- Who is at work, or has been told to start, stops when it has read that it should. -/
theorem follow_stops (offer : Message Float → Option Duty) (duty : Option Duty) {stops : List Order}
    (all : ∀ o ∈ stops, o = .stop) (idle : stops = [] → duty = none) :
    stops.foldl (follow offer) duty = none := by
  induction stops generalizing duty with
  | nil => exact idle rfl
  | cons o rest ih =>
    obtain rfl := all o List.mem_cons_self
    exact ih none (fun o' h => all o' (List.mem_cons_of_mem _ h)) fun _ => rfl

/-- Who refuses a command goes on doing nothing, however often it is told. -/
theorem follow_refused {offer : Message Float → Option Duty} {m : Message Float}
    (refuses : offer m = none) {orders : List Order} (all : ∀ o ∈ orders, o = .start m) :
    orders.foldl (follow offer) none = none := by
  induction orders with
  | nil => rfl
  | cons o rest ih =>
    obtain rfl := all o List.mem_cons_self
    rw [List.foldl_cons, follow, refuses]
    exact ih fun o' h => all o' (List.mem_cons_of_mem _ h)

section Coordinator

variable {l : Link} (hl : l.Sound)

include hl

/-- An instrumentation begins. Whoever takes part is told to start. -/
theorem sound_begin (unborn : l.standing = .unborn) {m : Message Float} {a : Option AckState}
    {starts : List Order} (all : ∀ o ∈ starts, o = .start m)
    (part : a = none ∧ starts = [] ∨ a = some .unknown ∧ starts ≠ []) :
    ({ l with standing := .live m a }.tell starts).Sound := by
  have hIdle := hl.unborn unborn
  rcases part with ⟨rfl, rfl⟩ | ⟨rfl, hStarts⟩
  · refine sound_idle ⟨hIdle.duty, ?_, hIdle.answers⟩ fun m' a hLive => ?_
    · simp [tell, hIdle.orders]
    · cases hLive
      rfl
  · refine ⟨fun hFar => ⟨hIdle.duty, ?_⟩, nofun, fun m' a hLive => ?_, nofun⟩
    · have hFar' : l.reachable = false := hFar
      simp [tell, hIdle.orders, hFar']
    · cases hLive
      exact
        { told := fun o ho => by
            simp only [tell, hIdle.orders, List.nil_append] at ho
            split at ho
            · exact all o ho
            · cases ho
          serves := by simp [tell, hIdle.duty]
          started := by simp [tell, hIdle.answers]
          refused := by simp [tell, hIdle.answers]
          apart := nofun
          enabled := nofun
          failed := nofun
          awaited := fun _ hNear => by
            have hNear' : l.reachable = true := hNear
            simp [tell, hNear', hStarts] }

/-- A host is told to start, and its word is forgotten. -/
theorem sound_recall {m : Message Float} {a : Option AckState} (live : l.standing = .live m a) :
    ({ l with standing := .live m (some .unknown) }.tell [.start m]).Sound := by
  have hLive := hl.live m a live
  refine ⟨fun hFar => ?_, nofun, fun m' a' hStanding => ?_, nofun⟩
  · have hFar' : l.reachable = false := hFar
    obtain ⟨hDuty, hOrders⟩ := hl.unreachable hFar'
    exact ⟨hDuty, by simp [tell, hOrders, hFar']⟩
  · cases hStanding
    exact
      { told := fun o ho => by
          rcases List.mem_append.mp ho with h | h
          · exact hLive.told o h
          · split at h
            · exact List.mem_singleton.mp h
            · cases h
        serves := hLive.serves
        started := hLive.started
        refused := hLive.refused
        apart := nofun
        enabled := nofun
        failed := nofun
        awaited := fun _ hNear => by
          have hNear' : l.reachable = true := hNear
          simp [tell, hNear'] }

/-- The coordinator hears an answer that it waits for. -/
theorem sound_hear {m : Message Float} {b : Bool} {rest : List Bool}
    (live : l.standing = .live m (some .unknown)) (heard : l.answers = b :: rest) :
    { l with
      standing := .live m (some (if b then .enabled else .failed))
      answers := rest }.Sound := by
  have hLive := hl.live m _ live
  refine ⟨hl.unreachable, nofun, fun m' a' hStanding => ?_, nofun⟩
  cases hStanding
  exact
    { told := hLive.told
      serves := hLive.serves
      started := fun h => hLive.started (heard ▸ List.mem_cons_of_mem _ h)
      refused := fun h => hLive.refused (heard ▸ List.mem_cons_of_mem _ h)
      apart := nofun
      enabled := fun h => hLive.started (by
        cases b with
        | true => exact heard ▸ List.mem_cons_self
        | false => cases h)
      failed := fun h => hLive.refused (by
        cases b with
        | true => cases h
        | false => exact heard ▸ List.mem_cons_self)
      awaited := fun h => by cases b <;> cases h }

/-- The coordinator drops an answer that it does not wait for. -/
theorem sound_ignore {b : Bool} {rest : List Bool} (heard : l.answers = b :: rest)
    (unawaited : ∀ m, l.standing ≠ .live m (some .unknown)) :
    { l with answers := rest }.Sound := by
  have hBusy : ¬ l.Idle := fun hIdle => by
    rw [hIdle.answers] at heard
    cases heard
  -- something was on its way, so the link is neither unborn nor one of a host that takes no part
  refine ⟨hl.unreachable, fun hUnborn => absurd (hl.unborn hUnborn) hBusy, fun m a hStanding => ?_,
    hl.ended⟩
  have hLive := hl.live m a hStanding
  exact
    { told := hLive.told
      serves := hLive.serves
      started := fun h => hLive.started (heard ▸ List.mem_cons_of_mem _ h)
      refused := fun h => hLive.refused (heard ▸ List.mem_cons_of_mem _ h)
      apart := fun h => absurd (hLive.apart h) hBusy
      enabled := hLive.enabled
      failed := hLive.failed
      awaited := fun h => absurd (h ▸ hStanding) (unawaited m) }

/-- An instrumentation ends: it has failed or is deleted. Whoever may have started is told to
stop. -/
theorem sound_end {stops : List Order} (all : ∀ o ∈ stops, o = .stop)
    (untold : stops = [] → ∀ m a, l.standing = .live m a → a = none ∨ a = some .failed) :
    ({ l with standing := .ended }.tell stops).Sound := by
  refine ⟨fun hFar => ?_, nofun, nofun, fun _ => ?_⟩
  · have hFar' : l.reachable = false := hFar
    obtain ⟨hDuty, hOrders⟩ := hl.unreachable hFar'
    exact ⟨hDuty, by simp [tell, hOrders, hFar']⟩
  · -- the host reads what it was told before, then that it should stop
    show (l.orders ++ if l.reachable then stops else []).foldl (follow l.offer) l.duty = none
    cases hReach : l.reachable with
    | false =>
      obtain ⟨hDuty, hOrders⟩ := hl.unreachable hReach
      simp [hDuty, hOrders]
    | true =>
      rw [if_pos rfl, List.foldl_append]
      refine follow_stops _ _ all fun hNil => ?_
      cases hStanding : l.standing with
      | unborn =>
        have hIdle := hl.unborn hStanding
        simp [hIdle.orders, hIdle.duty]
      | ended => exact hl.ended hStanding
      | live m a =>
        have hLive := hl.live m a hStanding
        rcases untold hNil m a hStanding with hApart | hFailed
        · have hIdle := hLive.apart hApart
          simp [hIdle.orders, hIdle.duty]
        · -- it has refused, so it does not work and never will
          have hRefuses := hLive.failed hFailed
          have hDuty : l.duty = none := by
            cases hd : l.duty with
            | none => rfl
            | some d =>
              rw [hLive.serves d hd] at hRefuses
              cases hRefuses
          rw [hDuty]
          exact follow_refused hRefuses hLive.told

end Coordinator

section Host

variable {l : Link} (hl : l.Sound)

include hl

/-- A host reads that it should start, and says whether it has. -/
theorem sound_start {m : Message Float} {rest : List Order} {b : Bool}
    (read : l.orders = .start m :: rest) (started : b = true → (l.duty.or (l.offer m)).isSome)
    (refused : b = false → l.offer m = none) :
    { l with
      duty := l.duty.or (l.offer m)
      orders := rest
      answers := l.answers ++ [b] }.Sound := by
  have hBusy : ¬ l.Idle := fun hIdle => by
    rw [hIdle.orders] at read
    cases read
  refine ⟨fun hFar => ?_, fun hUnborn => absurd (hl.unborn hUnborn) hBusy,
    fun m' a hStanding => ?_, fun hEnded => ?_⟩
  · have hOrders := (hl.unreachable hFar).2
    rw [read] at hOrders
    cases hOrders
  · have hLive := hl.live m' a hStanding
    -- what is on its way to a live instrumentation is its own command
    obtain rfl : m = m' := by
      have := hLive.told (.start m) (read ▸ List.mem_cons_self)
      injection this
    have hSome : l.duty.isSome → (l.duty.or (l.offer m)).isSome := fun h => by simp [h]
    exact
      { told := fun o h => hLive.told o (read ▸ List.mem_cons_of_mem _ h)
        serves := fun d hd => by
          cases hDuty : l.duty with
          | none => simpa [hDuty] using hd
          | some d' =>
            rw [hDuty] at hd
            exact hLive.serves d (hDuty.trans hd)
        started := fun h => by
          rcases List.mem_append.mp h with h | h
          · exact hSome (hLive.started h)
          · exact started (List.mem_singleton.mp h).symm
        refused := fun h => by
          rcases List.mem_append.mp h with h | h
          · exact hLive.refused h
          · exact refused (List.mem_singleton.mp h).symm
        apart := fun h => absurd (hLive.apart h) hBusy
        enabled := fun h => hSome (hLive.enabled h)
        failed := hLive.failed
        awaited := fun _ _ => .inr (by simp) }
  · have := hl.ended hEnded
    rwa [read] at this

/-- A host reads that it should stop. -/
theorem sound_stop {rest : List Order} (read : l.orders = .stop :: rest) :
    { l with duty := none, orders := rest }.Sound := by
  refine ⟨fun hFar => ?_, fun hUnborn => ?_, fun m a hStanding => ?_, fun hEnded => ?_⟩
  · have hOrders := (hl.unreachable hFar).2
    rw [read] at hOrders
    cases hOrders
  · have hOrders := (hl.unborn hUnborn).orders
    rw [read] at hOrders
    cases hOrders
  · -- nobody is told to stop as long as the instrumentation is creating or enabled
    cases (hl.live m a hStanding).told .stop (read ▸ List.mem_cons_self)
  · have := hl.ended hEnded
    rwa [read] at this

end Host

/-- A host joins that was not there before, so that nobody expects anything of it. -/
theorem sound_join {l : Link} (hl : l.Sound) (duty : l.duty = none) (orders : l.orders = [])
    (apart : ∀ m a, l.standing = .live m a → a = none) (reachable : Bool)
    (offer : Message Float → Option Duty) :
    { l with reachable := reachable, offer := offer }.Sound := by
  by_cases hEnded : l.standing = .ended
  · refine ⟨fun _ => ⟨duty, orders⟩, fun h => ?_, fun m a h => ?_, fun _ => ?_⟩
    · cases hEnded.symm.trans h
    · cases hEnded.symm.trans h
    · show l.orders.foldl (follow offer) l.duty = none
      rw [orders, duty]
      rfl
  · refine sound_idle ⟨duty, orders, ?_⟩ apart
    -- nobody has answered, for nobody was told
    cases hStanding : l.standing with
    | unborn => exact (hl.unborn hStanding).answers
    | live m a => exact ((hl.live m a hStanding).apart (apart m a hStanding)).answers
    | ended => exact absurd hStanding hEnded

/-- On a sound link a host whose word is that it has started is at work, as the command says. -/
theorem Sound.serves_of_enabled {l : Link} (hl : l.Sound) {m : Message Float}
    (enabled : l.standing = .live m (some .enabled)) :
    ∃ d, l.duty = some d ∧ l.offer m = some d := by
  have hLive := hl.live m _ enabled
  obtain ⟨d, hd⟩ := Option.isSome_iff_exists.mp (hLive.enabled rfl)
  exact ⟨d, hd, hLive.serves d hd⟩

/-- On a sound link without anything under way a host at work has said that it has started, unless
it was too late. -/
theorem Sound.standing_of_quiet {l : Link} (hl : l.Sound) (orders : l.orders = [])
    (answers : l.answers = []) {d : Duty} (duty : l.duty = some d) :
    ∃ m a, l.standing = .live m (some a) ∧ (a = .enabled ∨ a = .timedOut) := by
  have hNear : l.reachable = true := by
    cases hReach : l.reachable with
    | true => rfl
    | false =>
      rw [(hl.unreachable hReach).1] at duty
      cases duty
  -- of an agent at work something is expected, as no order is on its way
  cases hStanding : l.standing with
  | unborn =>
    rw [(hl.unborn hStanding).duty] at duty
    cases duty
  | ended =>
    have := hl.ended hStanding
    rw [orders, duty] at this
    cases this
  | live m word =>
    have hLive := hl.live m word hStanding
    cases word with
    | none =>
      rw [(hLive.apart rfl).duty] at duty
      cases duty
    | some a =>
      refine ⟨m, a, rfl, ?_⟩
      cases a with
      | unknown =>
        -- its word would be open only while an order or an answer is under way
        rcases hLive.awaited rfl hNear with h | h
        · exact absurd orders h
        · exact absurd answers h
      | enabled => exact .inl rfl
      | failed =>
        have := hLive.failed rfl
        rw [hLive.serves d duty] at this
        cases this
      | timedOut => exact .inr rfl

end Link

end FleetMetrics
