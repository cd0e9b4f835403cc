import Mathlib
import FleetMetrics.Roster

/-!
# Rosters as finite maps

A roster is a list of elements with distinct names. The theorems here say what is found under a
name, so that later arguments do not see where in the list it stands; and which names there are, in
which order, for the arguments that are about that.

Main results:

* `find?_of_mem` — every element is found under its name.
* `find?_put`, `find?_change` — look-ups after an element is put or changed.
* `map_put` — the names after an element is put.
-/

namespace FleetMetrics.Roster

variable {α : Type}

theorem find?_nil (name : α → String) (n : String) : find? name n [] = none := rfl

theorem find?_cons (name : α → String) (n : String) (x : α) (xs : List α) :
    find? name n (x :: xs) = if name x = n then some x else find? name n xs := by
  unfold find?
  rw [List.find?_cons]
  by_cases h : name x = n <;> simp [h]

/-- An entry is found under its name. -/
theorem name_of_find? {name : α → String} {n : String} {xs : List α} {x : α}
    (h : find? name n xs = some x) : name x = n := by
  have := List.find?_some h
  simpa using this

theorem mem_of_find? {name : α → String} {n : String} {xs : List α} {x : α}
    (h : find? name n xs = some x) : x ∈ xs :=
  List.mem_of_find?_eq_some h

/-- With distinct names, an element is found under its name. -/
theorem find?_of_mem {name : α → String} {xs : List α} (distinct : (xs.map name).Nodup) {x : α}
    (h : x ∈ xs) : find? name (name x) xs = some x := by
  induction xs with
  | nil => simp at h
  | cons y rest ih =>
    obtain ⟨hHead, hRest⟩ := List.nodup_cons.mp distinct
    rw [find?_cons]
    rcases List.mem_cons.mp h with rfl | h
    · rw [if_pos rfl]
    · rw [if_neg, ih hRest h]
      intro heq
      exact hHead (heq ▸ List.mem_map_of_mem h)

/-- An entry that is put in is found under its name, and all others as before. -/
theorem find?_put (name : α → String) (x : α) (n : String) (xs : List α) :
    find? name n (put name x xs) = if name x = n then some x else find? name n xs := by
  induction xs with
  | nil => rw [put, find?_cons]
  | cons y rest ih =>
    rw [put]
    split
    · next h =>
      rw [find?_cons, find?_cons, h]
      split <;> rfl
    · next h =>
      rw [find?_cons, find?_cons, ih]
      split
      · next hy => rw [if_neg (fun hx => h (hy.trans hx.symm))]
      · rfl

/-- A name that is known keeps its place, and a new one comes last. -/
theorem map_put (name : α → String) (x : α) (xs : List α) :
    (put name x xs).map name =
      if name x ∈ xs.map name then xs.map name else xs.map name ++ [name x] := by
  induction xs with
  | nil => rfl
  | cons y rest ih =>
    rw [put]
    by_cases hName : name y = name x
    · simp [hName]
    · have hMem : name x ∈ (y :: rest).map name ↔ name x ∈ rest.map name := by
        rw [List.map_cons, List.mem_cons, or_iff_right (Ne.symm hName)]
      rw [if_neg hName, List.map_cons, ih]
      by_cases hRest : name x ∈ rest.map name
      · rw [if_pos hRest, if_pos (hMem.mpr hRest), List.map_cons]
      · rw [if_neg hRest, if_neg (mt hMem.mp hRest), List.map_cons, List.cons_append]

/-- A change that keeps names changes what is found under the one name. -/
theorem find?_change {name : α → String} {f : α → α} (keeps : ∀ x, name (f x) = name x)
    (m n : String) (xs : List α) :
    find? name n (change name m f xs) =
      (find? name n xs).map fun x => if n = m then f x else x := by
  induction xs with
  | nil => rfl
  | cons y rest ih =>
    rw [change, List.map_cons, find?_cons, find?_cons, ← change, ih]
    have hname : name (if name y = m then f y else y) = name y := by
      split
      · exact keeps y
      · rfl
    rw [hname]
    split
    · next hy =>
      subst hy
      rfl
    · rfl

end FleetMetrics.Roster
