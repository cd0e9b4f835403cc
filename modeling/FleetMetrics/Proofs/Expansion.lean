import Mathlib
import FleetMetrics.Expansion
import FleetMetrics.Proofs.Table

/-!
# What an expansion contains

The maps of an expansion are built from the last column to the first, each by entering one value
into a map that is there already. So they are in order, and every value in them comes from a column
of its name.

A column with a single value enters this value into each map and leaves their number and order as
they are. Two expansions over different columns can therefore be walked through side by side, as
long as the columns that only one of them has hold one value each. Nothing is said of columns with
more values or none: they multiply the maps, or leave no map at all.

Main results:

* `ascending_of_mem_cartesian` — the maps are tables in order.
* `column_of_mem_cartesian`, `exists_of_mem_cartesian` — a value in a map comes from a column of its
  name, and every column gives one.
* `forall₂_cartesian` — two choices of columns expand to maps that agree one by one.
-/

namespace FleetMetrics

variable {N : Type}

/-- Handing a map over to the last value is as good as giving every value a copy. -/
theorem branch_eq (name : String) (values : List (FieldValue N)) (maps : List (FieldMap N)) :
    branch name values maps =
      maps.flatMap fun point => values.map fun v => Table.insert point name v := by
  induction maps with
  | nil => rfl
  | cons point rest ih =>
    rw [branch, List.flatMap_cons]
    split
    · next hNone =>
      rw [List.getLast?_eq_none_iff] at hNone
      simp [hNone]
    · next last hLast =>
      -- the values are those that take a copy, and the last one
      have hValues : values.dropLast ++ [last] = values := List.dropLast_append_getLast? last hLast
      have hMap : (values.dropLast.map fun v => Table.insert point name v) ++
          [Table.insert point name last] = values.map fun v => Table.insert point name v := by
        conv_rhs => rw [← hValues]
        rw [List.map_append, List.map_singleton]
      rw [ih, ← hMap, List.append_assoc, List.singleton_append]

/-- One more column multiplies the points by its values. -/
theorem cartesian_cons (name : String) (values : List (FieldValue N))
    (rest : List (String × List (FieldValue N))) :
    cartesian ((name, values) :: rest) =
      (cartesian rest).flatMap fun point => values.map fun v => Table.insert point name v := by
  cases rest with
  | nil => simp [cartesian]
  | cons column rest => rw [cartesian, branch_eq]; exact List.cons_ne_nil _ _

/-- A column with one value enters this value everywhere. -/
theorem cartesian_single (name : String) (v : FieldValue N)
    (rest : List (String × List (FieldValue N))) :
    cartesian ((name, [v]) :: rest) =
      (cartesian rest).map fun point => Table.insert point name v := by
  rw [cartesian_cons, List.map_eq_flatMap]
  rfl

/-- Each point has a value of the first column entered into a point of the others. -/
theorem mem_cartesian_cons {name : String} {values : List (FieldValue N)}
    {rest : List (String × List (FieldValue N))} {point : FieldMap N} :
    point ∈ cartesian ((name, values) :: rest) ↔
      ∃ before ∈ cartesian rest, ∃ v ∈ values, Table.insert before name v = point := by
  simp only [cartesian_cons, List.mem_flatMap, List.mem_map]

/-- Points are tables in order. -/
theorem ascending_of_mem_cartesian {columns : List (String × List (FieldValue N))}
    {point : FieldMap N} (mem : point ∈ cartesian columns) : point.Ascending := by
  induction columns generalizing point with
  | nil =>
    rw [List.mem_singleton.mp mem]
    exact Table.ascending_nil
  | cons column rest ih =>
    obtain ⟨before, hBefore, v, -, rfl⟩ := mem_cartesian_cons.mp mem
    exact Table.ascending_insert (ih hBefore) _ _

/-- A value in a map comes from a column of its name. -/
theorem column_of_mem_cartesian {columns : List (String × List (FieldValue N))}
    {point : FieldMap N} (mem : point ∈ cartesian columns) {name : String} {v : FieldValue N}
    (found : point.find? name = some v) : ∃ column ∈ columns, column.1 = name ∧ v ∈ column.2 := by
  induction columns generalizing point with
  | nil =>
    rw [List.mem_singleton.mp mem] at found
    cases found
  | cons column rest ih =>
    obtain ⟨before, hBefore, w, hw, rfl⟩ := mem_cartesian_cons.mp mem
    rw [Table.find?_insert (ascending_of_mem_cartesian hBefore)] at found
    split at found
    · next hName =>
      obtain rfl : w = v := Option.some.inj found
      exact ⟨column, List.mem_cons_self, hName.symm, hw⟩
    · obtain ⟨c, hc, hFrom⟩ := ih hBefore found
      exact ⟨c, List.mem_cons_of_mem _ hc, hFrom⟩

/-- A map has a value under the name of every column. -/
theorem exists_of_mem_cartesian {columns : List (String × List (FieldValue N))}
    {point : FieldMap N} (mem : point ∈ cartesian columns) {column : String × List (FieldValue N)}
    (inColumns : column ∈ columns) : ∃ v, point.find? column.1 = some v := by
  induction columns generalizing point with
  | nil => cases inColumns
  | cons first rest ih =>
    obtain ⟨before, hBefore, w, -, rfl⟩ := mem_cartesian_cons.mp mem
    rw [Table.find?_insert (ascending_of_mem_cartesian hBefore)]
    split
    · exact ⟨w, rfl⟩
    · next hName =>
      rcases List.mem_cons.mp inColumns with rfl | hRest
      · exact absurd rfl hName
      · exact ih hBefore hRest

/-! ## Two expansions side by side -/

/-- Two maps, in order, that agree on every name of both choices. -/
structure FieldMap.Alike (p q : String → Bool) (x y : FieldMap N) : Prop where
  left : x.Ascending
  right : y.Ascending
  agree : ∀ n, p n → q n → x.find? n = y.find? n

namespace FieldMap.Alike

variable {p q : String → Bool} {x y : FieldMap N} {name : String}

theorem empty : Alike p q ([] : FieldMap N) [] :=
  ⟨Table.ascending_nil, Table.ascending_nil, fun _ _ _ => rfl⟩

/-- A field that both points get leaves them alike. -/
theorem insert_both (alike : Alike p q x y) (name : String) (v : FieldValue N) :
    Alike p q (Table.insert x name v) (Table.insert y name v) where
  left := Table.ascending_insert alike.left _ _
  right := Table.ascending_insert alike.right _ _
  agree n hp hq := by
    rw [Table.find?_insert alike.left, Table.find?_insert alike.right, alike.agree n hp hq]

/-- A field that the first one gets leaves them alike if the second one's query does not look at it.
-/
theorem insert_left (alike : Alike p q x y) (out : q name = false) (v : FieldValue N) :
    Alike p q (Table.insert x name v) y where
  left := Table.ascending_insert alike.left _ _
  right := alike.right
  agree n hp hq := by
    have hne : n ≠ name := by
      rintro rfl
      rw [out] at hq
      cases hq
    rw [Table.find?_insert alike.left, if_neg hne, alike.agree n hp hq]

/-- A field that the second one gets leaves them alike if the first one's query does not look at it.
-/
theorem insert_right (alike : Alike p q x y) (out : p name = false) (v : FieldValue N) :
    Alike p q x (Table.insert y name v) where
  left := alike.left
  right := Table.ascending_insert alike.right _ _
  agree n hp hq := by
    have hne : n ≠ name := by
      rintro rfl
      rw [out] at hp
      cases hp
    rw [Table.find?_insert alike.right, if_neg hne, alike.agree n hp hq]

end FieldMap.Alike

/-- **Expansions agree one by one.** Of some columns two choices are expanded. If the columns that
only one of them has hold one value each, then there are equally many maps, and those at one place
agree on every column of both. -/
theorem forall₂_cartesian {columns : List (String × List (FieldValue N))} {p q : String → Bool}
    (single : ∀ column ∈ columns, p column.1 ≠ q column.1 → column.2.length = 1) :
    List.Forall₂ (FieldMap.Alike p q) (cartesian (columns.filter (p ·.1)))
      (cartesian (columns.filter (q ·.1))) := by
  induction columns with
  | nil => exact .cons .empty .nil
  | cons column rest ih =>
    obtain ⟨name, values⟩ := column
    have hRest := ih fun c hc => single c (List.mem_cons_of_mem _ hc)
    have hSingle : p name ≠ q name → ∃ v, values = [v] := fun h =>
      List.length_eq_one_iff.mp (single _ List.mem_cons_self h)
    cases hp : p name with
    | true =>
      cases hq : q name with
      | true =>
        -- both go through the same values
        simp only [List.filter_cons, hp, hq, if_true, cartesian_cons]
        refine List.rel_flatMap hRest fun x y alike => ?_
        rw [List.forall₂_map_left_iff, List.forall₂_map_right_iff, List.forall₂_same]
        exact fun v _ => alike.insert_both name v
      | false =>
        obtain ⟨v, rfl⟩ := hSingle (by simp [hp, hq])
        simp only [List.filter_cons, hp, hq, if_true, Bool.false_eq_true, if_false,
          cartesian_single, List.forall₂_map_left_iff]
        exact hRest.imp fun x y alike => alike.insert_left hq v
    | false =>
      cases hq : q name with
      | true =>
        obtain ⟨v, rfl⟩ := hSingle (by simp [hp, hq])
        simp only [List.filter_cons, hp, hq, if_true, Bool.false_eq_true, if_false,
          cartesian_single, List.forall₂_map_right_iff]
        exact hRest.imp fun x y alike => alike.insert_right hp v
      | false =>
        simp only [List.filter_cons, hp, hq, Bool.false_eq_true, if_false]
        exact hRest

end FleetMetrics
