/-!
# Rosters

A roster is a list of elements with distinct names. An element put under a known name takes the
place of the earlier one; a new name goes to the end. So a roster lists names in the order in
which they were first seen.
-/

namespace FleetMetrics.Roster

variable {α : Type}

/-- Put an element in the place of the one that has its name, or at the end. -/
def put (name : α → String) (x : α) : List α → List α
  | [] => [x]
  | y :: rest => if name y = name x then x :: rest else y :: put name x rest

/-- Change the element with a name. -/
def change (name : α → String) (n : String) (f : α → α) (xs : List α) : List α :=
  xs.map fun x => if name x = n then f x else x

/-- The element with a name. -/
def find? (name : α → String) (n : String) (xs : List α) : Option α :=
  xs.find? fun x => name x = n

theorem mem_put {name : α → String} {x : α} {n : String} :
    ∀ {xs : List α}, n ∈ (put name x xs).map name → n = name x ∨ n ∈ xs.map name
  | [], h => by simpa [put] using h
  | y :: rest, h => by
    unfold put at h
    split at h
    · rcases List.mem_cons.1 h with h | h
      · exact .inl h
      · exact .inr (List.mem_cons_of_mem _ h)
    · rcases List.mem_cons.1 h with h | h
      · exact .inr (by simp [h])
      · rcases mem_put h with h | h
        · exact .inl h
        · exact .inr (List.mem_cons_of_mem _ h)

/-- Putting an element keeps names distinct. -/
theorem nodup_put {name : α → String} {x : α} :
    ∀ {xs : List α}, (xs.map name).Nodup → ((put name x xs).map name).Nodup
  | [], _ => by simp [put]
  | y :: rest, h => by
    have parts := List.nodup_cons.1 h
    unfold put
    split
    · next same => simpa [← same] using h
    · next other =>
      refine List.nodup_cons.2 ⟨fun mem => ?_, nodup_put parts.2⟩
      rcases mem_put mem with h | h
      · exact other h
      · exact parts.1 h

/-- A change that keeps names keeps the list of names. -/
theorem map_change {name : α → String} {n : String} {f : α → α} (keeps : ∀ x, name (f x) = name x)
    (xs : List α) : (change name n f xs).map name = xs.map name := by
  induction xs with
  | nil => rfl
  | cons x rest ih =>
    simp only [change, List.map_cons] at ih ⊢
    rw [ih]
    split <;> simp [keeps]

/-- A change that keeps names keeps them distinct. -/
theorem nodup_change {name : α → String} {n : String} {f : α → α}
    (keeps : ∀ x, name (f x) = name x) {xs : List α} (h : (xs.map name).Nodup) :
    ((change name n f xs).map name).Nodup := by
  rw [map_change keeps]
  exact h

end FleetMetrics.Roster
