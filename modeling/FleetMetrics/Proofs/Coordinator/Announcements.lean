import Mathlib
import FleetMetrics.Proofs.Catalog.Entries
import FleetMetrics.Proofs.Coordinator.Change

/-!
# What the hosts have announced

Every instrumenter that comes online announces what it can measure, and it may come online again
with other metrics, or with the same ones described differently. Requests are checked against the
catalog that the coordinator makes of this, so a description that could still change would make a
request valid today and invalid tomorrow.

It cannot change. The catalog is a function of the announcements alone, in the order in which they
came in, whatever else has happened in between, and at every path the first announcement that says
anything is the one that counts.

The tables of an announcement are taken to be in order (`Catalog.Ordered`), as those of every
message that is read are. Nothing else is assumed of them: an announcement may contradict all
earlier ones, those of the same host included.

Main results:

* `catalog_step`, `catalog_run` — the catalog is merged from the announcements, and from nothing
  else.
* `extends_run` — what the catalog says it says for ever.
* `first_notice_wins` — it says what was announced first, and nothing that was not announced.
-/

namespace FleetMetrics

/-- The catalog that an event announces, if it announces one. -/
def Event.catalog? : Event → Option Catalog
  | .receive ⟨_, _, .instrumenterOnline _ modules⟩ _ => some modules
  | _ => none

/-- The catalogs that are announced in a history, in order. -/
def announced (history : List Event) : List Catalog :=
  history.filterMap Event.catalog?

theorem announced_append (xs ys : List Event) :
    announced (xs ++ ys) = announced xs ++ announced ys :=
  List.filterMap_append

/-- What holds of everything that was announced holds of what either part announced. -/
theorem forall_announced_append {P : Catalog → Prop} {xs ys : List Event} :
    (∀ news ∈ announced (xs ++ ys), P news) ↔
      (∀ news ∈ announced xs, P news) ∧ ∀ news ∈ announced ys, P news := by
  rw [announced_append, List.forall_mem_append]

namespace Coordinator

/-- The catalog changes with the notices of instrumenters, and with nothing else. -/
theorem catalog_step {c : Coordinator} (hc : c.Sound) (x : Event) :
    (c.step x).coordinator.registry.catalog =
      match x.catalog? with
      | some modules => c.registry.catalog.merge modules
      | none => c.registry.catalog := by
  have hTurn := c.responds_step hc.ascending hc.numbered x
  generalize c.step x = t at hTurn
  cases hTurn with
  | refused | launched | missing | swept => rfl
  | deleted found after => exact after ▸ rfl
  | @welcomed e _ w =>
    obtain ⟨source, hostname, m⟩ := e
    cases w <;> cases m <;> rfl
  | @unheard e now w id s error message =>
    obtain ⟨source, hostname, m⟩ := e
    subst message
    rfl
  | @heard e now w id s error i j message =>
    obtain ⟨source, hostname, m⟩ := e
    subst message
    rfl
  | @silent e now replies nobody =>
    obtain ⟨source, hostname, m⟩ := e
    cases m with
    | instrumenterOnline => cases nobody .instrumentation
    | _ => rfl

/-- The catalog after a history: what was there, and all that was announced since. -/
theorem catalog_run {c : Coordinator} (hc : c.Sound) (history : List Event) :
    (c.run history).registry.catalog =
      (announced history).foldl Catalog.merge c.registry.catalog := by
  induction history using List.reverseRecOn with
  | nil => rfl
  | append_singleton xs x ih =>
    rw [run_concat, catalog_step (sound_run hc xs), ih, announced_append, List.foldl_append]
    cases hNotice : x.catalog? with
    | none => simp [announced, hNotice]
    | some news => simp [announced, hNotice]

/-- **What the catalog says it says for ever**, whatever is announced later. -/
theorem extends_run {c : Coordinator} (hc : c.Sound) (sorted : c.registry.catalog.Ordered)
    {later : List Event} (tables : ∀ news ∈ announced later, news.Ordered) :
    c.registry.catalog.Extends (c.run later).registry.catalog := by
  intro p e known
  rw [catalog_run hc, Catalog.known?_foldl_merge tables sorted, known]
  rfl

/-- The catalog of a history from the start, path by path. -/
theorem known?_run (keyBase : String) (ackTimeout : Nat) {history : List Event}
    (tables : ∀ news ∈ announced history, news.Ordered) :
    let catalog := ((Coordinator.new keyBase ackTimeout).run history).registry.catalog
    catalog.Ordered ∧ ∀ p, catalog.known? p = (announced history).findSome? (·.known? p) := by
  intro catalog
  have hCatalog : catalog = (announced history).foldl Catalog.merge [] :=
    catalog_run (sound_new keyBase ackTimeout) history
  rw [hCatalog]
  refine ⟨Catalog.ordered_foldl_merge tables Catalog.ordered_nil, fun p => ?_⟩
  rw [Catalog.known?_foldl_merge tables Catalog.ordered_nil]
  -- nothing is known at the start
  cases p <;> rfl

/-- **The first notice wins, at every level.** After any history

* the catalog says at a path what the first announcement said that said anything there, be it a
  module with its label, a statistic with its label and unit, or a field with its label and arity;
* it says something at exactly the paths at which some announcement did;
* it goes on saying so after any further events;
* an announcement that is repeated, by whatever host, leaves the catalog as it is. -/
theorem first_notice_wins (keyBase : String) (ackTimeout : Nat) {history later : List Event}
    (tables : ∀ news ∈ announced (history ++ later), news.Ordered) :
    let c := (Coordinator.new keyBase ackTimeout).run history
    let catalog := c.registry.catalog
    catalog.Ordered ∧
    (∀ p e, catalog.known? p = some e ↔ ∃ earlier news rest,
      announced history = earlier ++ news :: rest ∧ news.known? p = some e ∧
        ∀ news' ∈ earlier, news'.known? p = none) ∧
    (∀ p, (catalog.known? p).isSome ↔ ∃ news ∈ announced history, (news.known? p).isSome) ∧
    catalog.Extends (c.run later).registry.catalog ∧
    ∀ x news, news ∈ announced history → x.catalog? = some news →
      (c.step x).coordinator.registry.catalog = catalog := by
  intro c catalog
  have hc : c.Sound := sound_run (sound_new keyBase ackTimeout) history
  rw [forall_announced_append] at tables
  obtain ⟨hOrdered, hKnown⟩ := known?_run keyBase ackTimeout tables.1
  refine ⟨hOrdered, fun p e => ?_, fun p => ?_, extends_run hc hOrdered tables.2, ?_⟩
  · rw [hKnown, List.findSome?_eq_some_iff]
  · rw [hKnown, List.isSome_findSome?, List.any_eq_true]
  · intro x news hMem hNotice
    have hNews := tables.1 news hMem
    rw [catalog_step hc, hNotice]
    refine Catalog.ext_known? (Catalog.ordered_merge hOrdered hNews) hOrdered fun p => ?_
    rw [Catalog.known?_merge hOrdered hNews]
    -- what the repeated announcement says at a path, some announcement has said
    cases hSays : catalog.known? p with
    | some e => rfl
    | none =>
      rw [hKnown, List.findSome?_eq_none_iff] at hSays
      exact hSays news hMem

/-- Two hosts announce one statistic and contradict each other on everything about it. -/
def rivalHistory : List Event :=
  [.receive ⟨"k.instrumenter.a", "a", .instrumenterOnline (.current "instrumenter")
      [("m", ⟨"A", [("s", ⟨"S", "ops", [("f", ⟨"F", .discrete⟩)]⟩)]⟩)]⟩ ⟨0⟩,
    .receive ⟨"k.instrumenter.b", "b", .instrumenterOnline (.current "instrumenter")
      [("m", ⟨"B", [("s", ⟨"T", "ns", [("f", ⟨"G", .numeric⟩), ("g", ⟨"G", .numeric⟩)]⟩)]⟩)]⟩ ⟨0⟩]

/-- The host that came first describes everything but the field that only the other one has, and
either host may come online again. -/
theorem first_notice_wins_brief :
    let c := (Coordinator.new "k" 3).run rivalHistory
    c.registry.catalog.known? (.module "m") = some (.module "A") ∧
      c.registry.catalog.known? (.stat "m" "s") = some (.stat "S" "ops") ∧
      c.registry.catalog.known? (.field "m" "s" "f") = some (.field ⟨"F", .discrete⟩) ∧
      c.registry.catalog.known? (.field "m" "s" "g") = some (.field ⟨"G", .numeric⟩) ∧
      ∀ x ∈ rivalHistory, (c.step x).coordinator.registry.catalog = c.registry.catalog := by
  intro c
  have hTables : ∀ news ∈ announced (rivalHistory ++ []), news.Ordered := by decide
  obtain ⟨-, hFirst, -, -, hAgain⟩ := first_notice_wins "k" 3 hTables
  refine ⟨?_, ?_, ?_, ?_, fun x hx => ?_⟩
  · exact (hFirst _ _).mpr ⟨[], _, _, rfl, rfl, by simp⟩
  · exact (hFirst _ _).mpr ⟨[], _, _, rfl, by decide, by simp⟩
  · exact (hFirst _ _).mpr ⟨[], _, _, rfl, by decide, by simp⟩
  · -- the first announcement says nothing of this field
    exact (hFirst _ _).mpr ⟨[_], _, _, rfl, by decide, by decide⟩
  · have hNotices : ∀ x ∈ rivalHistory, x.catalog?.isSome := by decide
    obtain ⟨news, hNotice⟩ := Option.isSome_iff_exists.mp (hNotices x hx)
    exact hAgain x news (List.mem_filterMap.mpr ⟨x, hx, hNotice⟩) hNotice

end Coordinator

end FleetMetrics
