import Mathlib
import FleetMetrics.Arithmetic.Binary64
import FleetMetrics.Proofs.Aggregator
import FleetMetrics.Proofs.Timestamp

/-!
# Slots and the clock

Whoever asks an aggregator for a second means the second of a clock, the one that a timestamp shows
as its text. The aggregator files values by another cut of the same timestamps, the one toward
1970, and the slot that a value goes to is decided by that cut alone (`enters_slot`). The two are
the same for all times from 1970 on, so there a slot is what a clock shows for a second, and it is
the same before 1970 but for a shift of one, as long as no time is a whole second.

It goes wrong where shifted times meet others. Slot zero has the last second before 1970 and the
first after it, two times that may lie almost two seconds apart, and one value of a host overwrites
the other (`epoch_shares_slot`). Every earlier whole second shares its slot with fractions of the
second before. What remains true is that slots are numbered in the order of time, and that no other
slot has times a second apart.

Main results:

* `enters_slot` — the slot of a value in any state, by its timestamp.
* `slot_by_clock` — which times share a slot, against what their texts show.
-/

namespace FleetMetrics.Aggregator

open Timestamp

variable {N : Type} [Arithmetic N] {a : Aggregator N} {id : InstId}

/-- A value goes to the slot of its timestamp, and the others stay as they are, if there is room. -/
theorem enters_slot (tidy : a.Tidy) {g : Aggregation N} (found : a.store.find? id = some g)
    {e : Envelope N} {t : Timestamp} {value : ReducedValue N}
    (message : e.message = .data id t value) :
    ∃ g', (a.handle e).1.store.find? id = some g' ∧
      ∀ s, g'.window.find? s =
          (if s = t.seconds then some (g.slotAfter e.hostname t.seconds value)
            else g.window.find? s) ∨
        Crowded a.retain g'.window s := by
  refine ⟨g.record a.retain e.hostname t.seconds value, ?_,
    Aggregation.find?_record (tidy.tidy id g found) _ _ _⟩
  rw [find?_follow tidy, found, Envelope.follow, message]
  exact if_pos rfl

/-- **Slots and the clock.** In whatever state an aggregator is, a value for an instrumentation that
it collects goes to the slot numbered by its timestamp, cut off toward 1970, and to no other. For
any two times that messages can carry,

* their texts agree up to the second if and only if they lie in one second of the clock;
* they share a slot if and only if they do, if both are early or neither is, as from 1970 on;
* an early time and one that is not share a slot if and only if the other shows the next second;
* the later has no smaller slot;
* if they lie at least a second apart, they share no slot but that of 1970, less than a second
  before its start and less than a second after. -/
theorem slot_by_clock (reachable : a.Reachable) (enabled : a.store.contains id = true) :
    (∀ (e : Envelope N) t value, e.message = .data id t value →
      ∃ g g', a.store.find? id = some g ∧ (a.handle e).1.store.find? id = some g' ∧
        ∀ s, g'.window.find? s =
            (if s = t.seconds then some (g.slotAfter e.hostname t.seconds value)
              else g.window.find? s) ∨
          Crowded a.retain g'.window s) ∧
    ∀ t t' : Timestamp, t.Valid → t'.Valid →
      t.text = clock t.shown ++ "." ++ padded 3 (t.nanos.fmod second / 1000000) ++ "Z" ∧
      (clock t.shown = clock t'.shown ↔ t.shown = t'.shown) ∧
      ((t.Early ↔ t'.Early) → (t.seconds = t'.seconds ↔ clock t.shown = clock t'.shown)) ∧
      (t.Early → ¬ t'.Early → (t.seconds = t'.seconds ↔ t'.shown = t.shown + 1)) ∧
      (t.nanos ≤ t'.nanos → t.seconds ≤ t'.seconds) ∧
      (t.nanos + second ≤ t'.nanos → t.seconds < t'.seconds ∨
        t.seconds = 0 ∧ t'.seconds = 0 ∧ -second < t.nanos ∧ t.nanos < 0 ∧ 0 < t'.nanos ∧
          t'.nanos < second) := by
  have hTidy := tidy_of_reachable reachable
  obtain ⟨g, hFound⟩ := Option.isSome_iff_exists.mp enabled
  refine ⟨fun e t value message => ?_, fun t t' valid valid' =>
    ⟨t.text_eq, clock_eq_iff valid valid', fun alike => ?_, fun early late => ?_, seconds_mono,
      seconds_of_apart⟩⟩
  · obtain ⟨g', hAfter, hSlots⟩ := enters_slot hTidy hFound message
    exact ⟨g, g', hFound, hAfter, hSlots⟩
  -- the two cuts differ by one for early times, and only for these
  · rw [clock_eq_iff valid valid', t.seconds_eq, t'.seconds_eq]
    simp only [alike]
    omega
  · rw [t.seconds_eq, t'.seconds_eq, if_pos early, if_neg late]
    omega

/-- Two times on either side of 1970, far enough apart. -/
theorem slot_by_clock_brief :
    let a : Aggregator Float := (Aggregator.new "k" "g" 2).handleAll
      [⟨"k.coordinator", "c", .enableAggregation 1 "k.stream.1"⟩]
    let before : Timestamp := ⟨-1500000000⟩
    let after : Timestamp := ⟨2500000000⟩
    a.store.contains 1 = true ∧ before.seconds < after.seconds ∧
      clock before.shown ≠ clock after.shown := by
  intro a before after
  have hReachable : a.Reachable := ⟨"k", "g", 2, _, rfl⟩
  have hEnabled : a.store.contains 1 = true := rfl
  have hValid : before.Valid ∧ after.Valid := ⟨⟨by decide, by decide⟩, ⟨by decide, by decide⟩⟩
  obtain ⟨-, hClock, -, -, -, hApart⟩ :=
    (slot_by_clock hReachable hEnabled).2 before after hValid.1 hValid.2
  refine ⟨hEnabled, (hApart (by decide)).resolve_right (by decide), fun same => ?_⟩
  exact absurd (hClock.mp same) (by decide)

/-- Half a second before 1970 and half a second after it are two seconds of the clock and one slot,
so that the second value of a host takes the place of the first. -/
theorem epoch_shares_slot :
    let a : Aggregator Float := (Aggregator.new "fleetstat" "agg1" 10).handleAll
      [⟨"fleetstat.config", "hq", .enableAggregation 1 "fleetstat.instrumentation.1"⟩]
    let before : Timestamp := ⟨-500000000⟩
    let after : Timestamp := ⟨500000000⟩
    let report (t : Timestamp) (x : Float) : Envelope Float :=
      ⟨"fleetstat.instrumenter.web1", "web1", .data 1 t (.scalar x)⟩
    before.text = "1969-12-31T23:59:59.500Z" ∧ after.text = "1970-01-01T00:00:00.500Z" ∧
      clock before.shown ≠ clock after.shown ∧
      (a.handleAll [report before 1.0, report after 2.0]).seconds 1 = [0] ∧
      (a.handleAll [report before 1.0, report after 2.0]).valueAt 1 0 = some (.scalar 2.0) := by
  refine ⟨by decide +kernel, by decide +kernel, by decide +kernel, rfl, rfl⟩

end FleetMetrics.Aggregator
