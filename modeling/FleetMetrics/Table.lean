/-!
# Tables

A table is a list of key and value pairs in ascending order of the key, with one pair per key.
Every keyed collection whose order an answer can show is a table, so the order is part of the
value and two tables with the same entries are equal.

* `Table.find?` looks a key up,
* `Table.alter` changes or adds the entry of one key and keeps the others,
* `Table.erase` drops one entry.

`find?_alter_self` and `find?_erase_of_ne` and their companions say what the operations do to a
look-up; nothing else needs to unfold them.
-/

namespace FleetMetrics

/-- Pairs in ascending order of the key, one per key. -/
abbrev Table (κ β : Type) := List (κ × β)

namespace Table

variable {κ β γ : Type} [Ord κ]

/-- The value stored under a key. -/
def find? (t : Table κ β) (k : κ) : Option β :=
  match t with
  | [] => none
  | (k', v) :: rest => if compare k k' = .eq then some v else find? rest k

/-- Is there an entry for the key? -/
def contains (t : Table κ β) (k : κ) : Bool :=
  (t.find? k).isSome

/-- Replace what is stored under a key by `f` of it, where `none` stands for "nothing stored".
An entry that was there keeps its key. -/
def alter (t : Table κ β) (k : κ) (f : Option β → β) : Table κ β :=
  match t with
  | [] => [(k, f none)]
  | (k', v) :: rest =>
    match compare k k' with
    | .lt => (k, f none) :: (k', v) :: rest
    | .eq => (k', f (some v)) :: rest
    | .gt => (k', v) :: alter rest k f

/-- Store a value under a key, replacing what was there. -/
def insert (t : Table κ β) (k : κ) (v : β) : Table κ β :=
  t.alter k fun _ => v

/-- Store a value under a key that has none yet. -/
def insertNew (t : Table κ β) (k : κ) (v : β) : Table κ β :=
  t.alter k fun old => old.getD v

/-- Drop the entry of a key. -/
def erase (t : Table κ β) (k : κ) : Table κ β :=
  t.filter fun entry => compare k entry.1 ≠ .eq

/-- The table of some pairs; of two pairs with one key the later one counts. -/
def ofList (pairs : List (κ × β)) : Table κ β :=
  pairs.foldl (fun t entry => t.insert entry.1 entry.2) []

/-- The keys, ascending. -/
def keys (t : Table κ β) : List κ :=
  t.map (·.1)

/-- The values, in the order of their keys. -/
def values (t : Table κ β) : List β :=
  t.map (·.2)

/-- Change every value, seeing its key. -/
def mapValues (f : κ → β → γ) (t : Table κ β) : Table κ γ :=
  t.map fun entry => (entry.1, f entry.1 entry.2)

/-! ## What the operations do to a look-up -/

@[simp] theorem find?_nil (k : κ) : find? ([] : Table κ β) k = none := rfl

theorem find?_cons (entry : κ × β) (t : Table κ β) (k : κ) :
    find? (entry :: t) k = if compare k entry.1 = .eq then some entry.2 else find? t k := rfl

/-- Keys in strictly ascending order, which every operation keeps. -/
def Ascending (t : Table κ β) : Prop :=
  t.Pairwise fun a b => compare a.1 b.1 = .lt

/-- A key below every stored key is not stored. -/
theorem find?_eq_none_of_lt {t : Table κ β} {k : κ} (below : ∀ e ∈ t, compare k e.1 = .lt) :
    t.find? k = none := by
  induction t with
  | nil => rfl
  | cons e es ih =>
    have h := below e List.mem_cons_self
    rw [find?_cons, if_neg (by simp [h])]
    exact ih fun x hx => below x (List.mem_cons_of_mem _ hx)

/-- The altered key holds what `f` makes of its old value. -/
theorem find?_alter_self [Std.TransOrd κ] {t : Table κ β} (sorted : t.Ascending) (k : κ)
    (f : Option β → β) : (t.alter k f).find? k = some (f (t.find? k)) := by
  induction t with
  | nil => simp [alter, find?_cons, Std.ReflOrd.compare_self]
  | cons entry rest ih =>
    have later := List.pairwise_cons.1 sorted
    unfold alter
    split
    · next h =>
      have absent : find? (entry :: rest) k = none := by
        refine find?_eq_none_of_lt fun e he => ?_
        rcases List.mem_cons.1 he with rfl | he
        · exact h
        · exact Std.TransCmp.lt_trans h (later.1 e he)
      rw [absent, find?_cons, if_pos Std.ReflOrd.compare_self]
    · next h => simp [find?_cons, h]
    · next h => simp [find?_cons, h, ih later.2]

/-- Altering one key leaves the look-up of every other key as it was. -/
theorem find?_alter_of_ne [Std.LawfulEqOrd κ] (t : Table κ β) {k k' : κ} (f : Option β → β)
    (ne : k' ≠ k) : (t.alter k f).find? k' = t.find? k' := by
  have apart : compare k' k ≠ .eq := fun h => ne (Std.LawfulEqOrd.eq_of_compare h)
  induction t with
  | nil => simp [alter, find?_cons, apart]
  | cons entry rest ih =>
    unfold alter
    split
    · simp [find?_cons, apart]
    · next h =>
      have same : k = entry.1 := Std.LawfulEqOrd.eq_of_compare h
      simp [find?_cons, ← same, apart]
    · simp [find?_cons, ih]

/-- An erased key is gone. -/
theorem find?_erase_self [Std.LawfulEqOrd κ] (t : Table κ β) (k : κ) :
    (t.erase k).find? k = none := by
  induction t with
  | nil => rfl
  | cons entry rest ih =>
    by_cases h : compare k entry.1 = .eq
    · simpa [erase, h] using ih
    · simpa [erase, h, find?_cons] using ih

/-- Erasing one key leaves the look-up of every other key as it was. -/
theorem find?_erase_of_ne [Std.LawfulEqOrd κ] (t : Table κ β) {k k' : κ} (ne : k' ≠ k) :
    (t.erase k).find? k' = t.find? k' := by
  induction t with
  | nil => rfl
  | cons entry rest ih =>
    by_cases h : compare k entry.1 = .eq
    · have same : k = entry.1 := Std.LawfulEqOrd.eq_of_compare h
      have apart : compare k' entry.1 ≠ .eq := fun h' =>
        ne ((Std.LawfulEqOrd.eq_of_compare h').trans same.symm)
      simpa [erase, h, find?_cons, apart] using ih
    · simp only [erase, ne_eq, h, not_false_eq_true, decide_true, List.filter_cons_of_pos,
        find?_cons]
      split
      · rfl
      · simpa [erase] using ih

end Table

end FleetMetrics
