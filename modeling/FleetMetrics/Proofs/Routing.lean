import Mathlib
import FleetMetrics.Message
import FleetMetrics.Routing

/-!
# Different parties, different keys

Every party of a fleet has a key of its own, one key is for everybody, and every instrumentation
has one for its values. Hosts may be called anything, also like a part of another key, so it has to
be shown that no name makes two of these keys the same. They share the key base, and after it comes
the word that says whose key it is. No such word begins another, so a key shows its word, and what
stands behind the word is what is named.

A key must not hold white space. All of a key but the key base and the names of hosts is fixed words
and digits, so nothing else can break it.

Main results:

* `Address.key_injective` — two addresses have two keys.
* `Address.isValid_key_iff` — a key can be used if and only if the name of its host is unbroken.
* `Party.key_injective`, `Party.key_ne_stream`, `Party.key_ne_broadcast`, `stream_injective`,
  `stream_ne_broadcast` — what this says of parties and of streams.
-/

namespace FleetMetrics

/-! ## White space -/

namespace Text

/-- A text without white space. The empty text is one. -/
def Unbroken (s : String) : Prop :=
  ∀ c ∈ s.toList, isBlank c = false

/-- The test for blanks finds none exactly in an unbroken text. -/
theorem any_isBlank_eq_false {s : String} : s.toList.any isBlank = false ↔ Unbroken s := by
  simp [Unbroken]

instance (s : String) : Decidable (Unbroken s) :=
  decidable_of_iff _ any_isBlank_eq_false

theorem unbroken_append {s t : String} : Unbroken (s ++ t) ↔ Unbroken s ∧ Unbroken t := by
  simp only [Unbroken, String.toList_append, List.forall_mem_append]

theorem isBlank_of_isDigit {c : Char} (digit : c.isDigit = true) : isBlank c = false := by
  have hRange : 48 ≤ c.toNat ∧ c.toNat ≤ 57 := Char.isDigit_iff_toNat.mp digit
  -- the ranges of white space end below the digits or begin above them
  simp only [isBlank, Ranges.contains, blanks, List.any_eq_false, List.forall_mem_cons,
    List.not_mem_nil, Bool.and_eq_true, decide_eq_true_eq, false_implies, implies_true, and_true]
  omega

/-- Numbers are written in digits. -/
theorem unbroken_toString (n : Nat) : Unbroken (toString n) := by
  intro c hc
  have hDigit : c ∈ Nat.toDigits 10 n := by rwa [← Nat.toList_repr]
  exact isBlank_of_isDigit (Nat.isDigit_of_mem_toDigits (by decide) (by decide) hDigit)

end Text

/-! ## Keys -/

namespace Routing

theorem key_eq (base s : String) : key base s = base ++ "." ++ s := rfl

/-- Under one base different words make different keys. -/
theorem key_injective {base s t : String} (h : key base s = key base t) : s = t := by
  rw [key_eq, key_eq] at h
  exact (String.append_right_inj _).mp h

/-- A key of a key is one key of a longer word. -/
theorem key_key (base s t : String) : key (key base s) t = key base (key s t) := by
  simp [key_eq, String.append_assoc]

/-- A key is unbroken if the base and the word are. -/
theorem unbroken_key {base s : String} :
    Text.Unbroken (key base s) ↔ Text.Unbroken base ∧ Text.Unbroken s := by
  have hDot : Text.Unbroken "." := by decide
  rw [key_eq, Text.unbroken_append, Text.unbroken_append, and_iff_left hDot]

/-- A key is valid if it is not empty and no blank breaks it. -/
theorem isValid_iff {key : String} : isValid key = true ↔ key ≠ "" ∧ Text.Unbroken key := by
  simp [isValid, Text.Unbroken]

/-- A key below a key base is never empty. -/
theorem isValid_key {base s : String} :
    isValid (key base s) = true ↔ Text.Unbroken base ∧ Text.Unbroken s := by
  have hNonempty : key base s ≠ "" := by simp [key_eq]
  rw [isValid_iff, and_iff_right hNonempty, unbroken_key]

end Routing

/-! ## Parties -/

/-- The role of an agent that does a kind of work. -/
def Work.role : Work → Role
  | .instrumentation => .instrumenter
  | .aggregation => .aggregator

/-- The coordinator or an agent. -/
inductive Party where
  | coordinator
  | agent (w : Work) (hostname : String)
  deriving DecidableEq

namespace Party

/-- The key that a party is reached under. -/
def key (base : String) : Party → String
  | .coordinator => Routing.coordinator base
  | .agent w h => Routing.agent base w.role h

/-- The key of a party below the key base. -/
def suffix : Party → String
  | .coordinator => "config"
  | .agent w h => Routing.key w.role.name h

/-- The key of a party is made from the base and what is its own. -/
theorem key_eq_suffix (base : String) (p : Party) : p.key base = Routing.key base p.suffix := by
  cases p with
  | coordinator => rfl
  | agent w h => exact Routing.key_key base w.role.name h

end Party

/-! ## Addresses -/

/-- Whom or what a key is for: one party, all agents, or the values of an instrumentation. -/
inductive Address where
  | party (p : Party)
  | broadcast
  | stream (id : InstId)
  deriving DecidableEq

namespace Address

/-- The key of an address. -/
def key (base : String) : Address → String
  | .party p => p.key base
  | .broadcast => Routing.broadcast base
  | .stream id => Routing.stream base id

/-- The word that the key of an address has behind the key base. If something is named after it, the
dot in between is part of it. -/
def word : Address → String
  | .party .coordinator => "config"
  | .party (.agent w _) => w.role.name ++ "."
  | .broadcast => "all"
  | .stream _ => "instrumentation."

/-- What an address names: a host, or the number of an instrumentation. -/
def named : Address → String
  | .party (.agent _ h) => h
  | .stream id => toString id
  | _ => ""

/-- The host that an address names, if it names one. -/
def hostname? : Address → Option String
  | .party (.agent _ h) => some h
  | _ => none

theorem key_eq (base : String) (x : Address) :
    x.key base = Routing.key base (x.word ++ x.named) := by
  cases x with
  | party p =>
    cases p with
    | coordinator => rfl
    | agent w h => exact Routing.key_key base w.role.name h
  | broadcast => rfl
  | stream id => exact Routing.key_key base "instrumentation" (toString id)

/-- All words that stand in keys. -/
def words : List String :=
  ["config", "instrumenter.", "aggregator.", "all", "instrumentation."]

/-- Every address starts with one of the known words. -/
theorem word_mem (x : Address) : x.word ∈ words := by
  rcases x with (_ | ⟨_ | _, h⟩) | _ | id <;> simp [word, words, Work.role, Role.name]

/-- No word begins another. -/
theorem eq_of_begins :
    ∀ s ∈ words, ∀ t ∈ words, s.toList <+: t.toList → s = t := by
  decide

/-- An address is its word and what it names. -/
theorem eq_of_word_eq {x y : Address} (sameWord : x.word = y.word)
    (sameNamed : x.named = y.named) : x = y := by
  have hNumber : ∀ i j : Nat, toString i = toString j → i = j := fun _ _ => Nat.repr_injective
  -- two addresses of one form name different things, and those of two forms have two words
  rcases x with (_ | ⟨_ | _, h⟩) | _ | id <;> rcases y with (_ | ⟨_ | _, h'⟩) | _ | id' <;>
    simp_all [word, named, Work.role, Role.name]

/-- **Two addresses have two keys.** -/
theorem key_injective {base : String} {x y : Address} (same : x.key base = y.key base) :
    x = y := by
  rw [key_eq, key_eq] at same
  have hRest := Routing.key_injective same
  have hLetters := congrArg String.toList hRest
  rw [String.toList_append, String.toList_append] at hLetters
  -- both words begin one text, so one of them begins the other
  have hWord : x.word = y.word := by
    rcases List.prefix_or_prefix_of_prefix ⟨_, hLetters⟩ (List.prefix_append _ _) with h | h
    · exact eq_of_begins _ x.word_mem _ y.word_mem h
    · exact (eq_of_begins _ y.word_mem _ x.word_mem h).symm
  refine eq_of_word_eq hWord ?_
  rw [hWord] at hRest
  exact (String.append_right_inj _).mp hRest

/-- None of the words is broken by a blank. -/
theorem unbroken_word (x : Address) : Text.Unbroken x.word := by
  have hWords : ∀ s ∈ words, Text.Unbroken s := by decide
  exact hWords _ x.word_mem

/-- What follows the word is broken only if a hostname in it is. -/
theorem unbroken_named (x : Address) :
    Text.Unbroken x.named ↔ ∀ h ∈ x.hostname?, Text.Unbroken h := by
  rcases x with (_ | ⟨w, h⟩) | _ | id
  · simp [named, hostname?, Text.Unbroken]
  · simp [named, hostname?]
  · simp [named, hostname?, Text.Unbroken]
  · simpa [named, hostname?] using Text.unbroken_toString id

/-- **Which keys can be used.** Below a key base without white space it is the name of a host alone
that can make a key unusable. -/
theorem isValid_key_iff {base : String} (unbroken : Text.Unbroken base) (x : Address) :
    Routing.isValid (x.key base) = true ↔ ∀ h ∈ x.hostname?, Text.Unbroken h := by
  rw [key_eq, Routing.isValid_key, and_iff_right unbroken, Text.unbroken_append,
    and_iff_right x.unbroken_word, unbroken_named]

end Address

/-! ## Parties and streams -/

namespace Routing

/-- Different instrumentations have different streams. -/
theorem stream_injective {base : String} {i j : Nat} (h : stream base i = stream base j) :
    i = j := by
  injection (Address.key_injective h : Address.stream i = .stream j)

/-- Values are not for everybody. -/
theorem stream_ne_broadcast (base : String) (id : Nat) : stream base id ≠ broadcast base := by
  intro h
  cases (Address.key_injective h : Address.stream id = .broadcast)

end Routing

namespace Party

/-- Two parties have two keys. -/
theorem key_injective {base : String} {p q : Party} (h : p.key base = q.key base) : p = q := by
  injection (Address.key_injective h : Address.party p = .party q)

/-- The values of an instrumentation go under a key of their own. -/
theorem key_ne_stream (base : String) (p : Party) (id : Nat) :
    p.key base ≠ Routing.stream base id := by
  intro h
  cases (Address.key_injective h : Address.party p = .stream id)

/-- What is for everybody goes under a key of its own. -/
theorem key_ne_broadcast (base : String) (p : Party) : p.key base ≠ Routing.broadcast base := by
  intro h
  cases (Address.key_injective h : Address.party p = .broadcast)

/-- Where an agent can be reached, the coordinator can be. -/
theorem isValid_coordinator {base : String} {w : Work} {h : String}
    (valid : Routing.isValid ((agent w h).key base) = true) :
    Routing.isValid (coordinator.key base) = true := by
  rw [key_eq_suffix, Routing.isValid_key] at valid ⊢
  exact ⟨valid.1, by decide⟩

end Party

end FleetMetrics
