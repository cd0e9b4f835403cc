import Mathlib
import FleetMetrics.Proofs.Expansion

/-!
# The choices behind an expansion

An expansion hands its maps from column to column and writes into them. So a value could end up in
a map that belongs to another choice, and the order of the maps, which is the order in which
contributions are added up later, hangs on which map is handed over. Neither happens: the maps are
what a plain product of the columns gives, each built from one choice alone.

The plain product is `List.sections` of the columns. Its order is not taken from there: `ChosenAt`
says at which place a choice stands, by counting the choices as an odometer does whose first wheel
turns fastest. Columns may have one name, and one value more than once. Then different choices can
make one map, and it is there once for each of them.

Main results:

* `getElem?_choices` — where a choice stands in the product.
* `find?_ofChoice`, `ofChoice_perm` — the map of a choice: of values with one name it has the first,
  and with distinct names it has all of them.
* `cartesian_isProduct` — an expansion is the product of its columns, in order.
-/

namespace FleetMetrics

variable {N : Type}

/-! ## The plain product -/

/-- A choice of one value from each column, and its place among all choices. From a place to the
next one the first column goes on by one value; each further column goes on by one value after a
round of those before it. -/
inductive ChosenAt :
    List (String × List (FieldValue N)) → Nat → List (String × FieldValue N) → Prop
  | nothing : ChosenAt [] 0 []
  | pick {name : String} {values : List (FieldValue N)}
      {rest : List (String × List (FieldValue N))} {i round : Nat} {v : FieldValue N}
      {choice : List (String × FieldValue N)} (picked : values[i]? = some v)
      (others : ChosenAt rest round choice) :
      ChosenAt ((name, values) :: rest) (i + values.length * round) ((name, v) :: choice)

/-- The choices of one value from each column, with the names of the columns. -/
def choices (columns : List (String × List (FieldValue N))) :
    List (List (String × FieldValue N)) :=
  (columns.map fun column => column.2.map fun v => (column.1, v)).sections

/-- One more column multiplies the choices by its values. -/
theorem choices_cons (name : String) (values : List (FieldValue N))
    (rest : List (String × List (FieldValue N))) :
    choices ((name, values) :: rest) =
      (choices rest).flatMap fun choice => values.map fun v => (name, v) :: choice := by
  simp [choices, List.sections, List.map_map, Function.comp_def]

/-- A choice has a value from each column, under the name of the column. -/
theorem mem_choices {columns : List (String × List (FieldValue N))}
    {choice : List (String × FieldValue N)} :
    choice ∈ choices columns ↔
      List.Forall₂ (fun entry column => entry.1 = column.1 ∧ entry.2 ∈ column.2) choice
        columns := by
  rw [choices, List.mem_sections, List.forall₂_map_right_iff]
  refine iff_of_eq (congrArg (fun r => List.Forall₂ r choice columns) ?_)
  funext entry column
  obtain ⟨name, v⟩ := entry
  rw [List.mem_map]
  refine propext ⟨?_, ?_⟩
  · rintro ⟨w, hw, hEntry⟩
    obtain ⟨rfl, rfl⟩ := Prod.mk.inj hEntry
    exact ⟨rfl, hw⟩
  · rintro ⟨hName, hv⟩
    exact ⟨v, hv, Prod.ext hName.symm rfl⟩

/-- There are as many choices as the product of the columns' lengths. -/
theorem length_choices (columns : List (String × List (FieldValue N))) :
    (choices columns).length = (columns.map fun column => column.2.length).prod := by
  induction columns with
  | nil => rfl
  | cons column rest ih =>
    rw [choices_cons, List.length_flatMap, List.map_cons, List.prod_cons, ← ih]
    simp only [List.length_map, List.map_const', List.sum_replicate, smul_eq_mul]
    exact Nat.mul_comm _ _

/-- In a list made of rounds of one length, a place is a place in a round, and the number of
rounds before. -/
theorem getElem?_flatMap_map {α β γ : Type} (f : α → β → γ) (xs : List α) (ys : List β)
    (place : Nat) :
    (xs.flatMap fun x => ys.map (f x))[place]? =
      xs[place / ys.length]?.bind fun x => ys[place % ys.length]?.map (f x) := by
  rcases Nat.eq_zero_or_pos ys.length with hNone | hSome
  · obtain rfl := List.length_eq_zero_iff.mp hNone
    simp
  induction xs generalizing place with
  | nil => simp
  | cons x rest ih =>
    rw [List.flatMap_cons, List.getElem?_append, List.length_map]
    split
    · next hFirst =>
      -- the place is in the first round
      rw [Nat.div_eq_of_lt hFirst, Nat.mod_eq_of_lt hFirst, List.getElem?_map]
      rfl
    · next hLater =>
      have hRound : ys.length ≤ place := Nat.le_of_not_lt hLater
      have hDiv : place / ys.length = (place - ys.length) / ys.length + 1 :=
        Nat.div_eq_sub_div hSome hRound
      have hMod : place % ys.length = (place - ys.length) % ys.length :=
        Nat.mod_eq_sub_mod hRound
      rw [ih, hDiv, hMod, List.getElem?_cons_succ]

/-- **Where a choice stands.** The choices stand in the product as an odometer counts them. -/
theorem getElem?_choices {columns : List (String × List (FieldValue N))} {place : Nat}
    {choice : List (String × FieldValue N)} :
    (choices columns)[place]? = some choice ↔ ChosenAt columns place choice := by
  induction columns generalizing place choice with
  | nil =>
    constructor
    · intro hChoice
      obtain ⟨hPlace, hNothing⟩ := List.getElem?_eq_some_iff.mp hChoice
      obtain rfl : place = 0 := Nat.lt_one_iff.mp hPlace
      obtain rfl : [] = choice := hNothing
      exact .nothing
    · rintro ⟨⟩
      rfl
  | cons column rest ih =>
    obtain ⟨name, values⟩ := column
    rw [choices_cons, getElem?_flatMap_map fun choice v => (name, v) :: choice]
    constructor
    · intro hChoice
      obtain ⟨others, hOthers, hPick⟩ := Option.bind_eq_some_iff.mp hChoice
      obtain ⟨v, hv, rfl⟩ := Option.map_eq_some_iff.mp hPick
      -- the first column goes round fastest
      rw [← Nat.mod_add_div place values.length]
      exact .pick hv (ih.mp hOthers)
    · rintro (_ | ⟨hv, hOthers⟩)
      next i round v others =>
      have hi : i < values.length := (List.getElem?_eq_some_iff.mp hv).1
      have hDiv : (i + values.length * round) / values.length = round := by
        rw [Nat.add_mul_div_left _ _ (Nat.zero_lt_of_lt hi), Nat.div_eq_of_lt hi, Nat.zero_add]
      have hMod : (i + values.length * round) % values.length = i := by
        rw [Nat.add_mul_mod_self_left, Nat.mod_eq_of_lt hi]
      rw [hDiv, hMod, ih.mpr hOthers, hv]
      rfl

/-! ## The map of a choice -/

/-- The map that a choice makes. The values are entered from the last one to the first. -/
def FieldMap.ofChoice (choice : List (String × FieldValue N)) : FieldMap N :=
  choice.foldr (fun entry point => Table.insert point entry.1 entry.2) []

namespace FieldMap

theorem ofChoice_cons (entry : String × FieldValue N) (choice : List (String × FieldValue N)) :
    ofChoice (entry :: choice) = Table.insert (ofChoice choice) entry.1 entry.2 := rfl

/-- The point of a choice is a table in order. -/
theorem ascending_ofChoice (choice : List (String × FieldValue N)) :
    (ofChoice choice).Ascending := by
  induction choice with
  | nil => exact Table.ascending_nil
  | cons entry rest ih => exact Table.ascending_insert ih _ _

/-- Of values with one name the first counts. -/
theorem find?_ofChoice (choice : List (String × FieldValue N)) (name : String) :
    (ofChoice choice).find? name = choice.lookup name := by
  induction choice with
  | nil => rfl
  | cons entry rest ih =>
    rw [ofChoice_cons, Table.find?_insert (ascending_ofChoice rest), ih, List.lookup_cons]
    by_cases hName : name = entry.1
    · simp [hName]
    · have hOther : (name == entry.1) = false := beq_eq_false_iff_ne.mpr hName
      rw [if_neg hName, hOther]

/-- With distinct names the map has the values of the choice, and nothing else. -/
theorem ofChoice_perm {choice : List (String × FieldValue N)}
    (distinct : (choice.map (·.1)).Nodup) : (ofChoice choice).Perm choice := by
  induction choice with
  | nil => exact .rfl
  | cons entry rest ih =>
    obtain ⟨hNew, hRest⟩ := List.nodup_cons.mp distinct
    have hKeys : (ofChoice rest).keys.Perm (rest.map (·.1)) := (ih hRest).map _
    have hAbsent : (ofChoice rest).find? entry.1 = none := by
      rw [← Option.not_isSome_iff_eq_none, ← Table.mem_keys_iff (ascending_ofChoice rest),
        hKeys.mem_iff]
      exact hNew
    exact (Table.insert_new_perm entry.2 hAbsent).trans ((ih hRest).cons _)

end FieldMap

/-! ## The product -/

/-- Some maps are the product of some columns. -/
structure IsProduct (columns : List (String × List (FieldValue N))) (maps : List (FieldMap N)) :
    Prop where
  /-- There is one map for each choice, in the order of the choices and made of that choice
  alone. -/
  made : maps = (choices columns).map FieldMap.ofChoice
  /-- A choice has one value from each column. -/
  whole : ∀ choice, choice ∈ choices columns ↔
    List.Forall₂ (fun entry column => entry.1 = column.1 ∧ entry.2 ∈ column.2) choice columns
  /-- The first column varies fastest and the last slowest. -/
  placed : ∀ place choice, (choices columns)[place]? = some choice ↔ ChosenAt columns place choice
  /-- A map is in order, and of columns with one name the first gives the value. -/
  first : ∀ choice, (FieldMap.ofChoice choice : FieldMap N).Ascending ∧
    ∀ name, (FieldMap.ofChoice choice).find? name = choice.lookup name
  /-- With distinct names a map has the values of its choice, under the names of all columns. -/
  apart : (columns.map (·.1)).Nodup → ∀ choice ∈ choices columns,
    (FieldMap.ofChoice choice).Perm choice ∧
      (FieldMap.ofChoice choice).keys.Perm (columns.map (·.1))
  count : maps.length = (columns.map fun column => column.2.length).prod
  /-- Without columns there is one map, which is empty. -/
  nothing : columns = [] → maps = [[]]
  /-- A column without values leaves no map. -/
  blocked : (∃ column ∈ columns, column.2 = []) → maps = []

/-- The points are those of the choices, in the same order. -/
theorem cartesian_eq (columns : List (String × List (FieldValue N))) :
    cartesian columns = (choices columns).map FieldMap.ofChoice := by
  induction columns with
  | nil => rfl
  | cons column rest ih =>
    -- the column is entered last, so it comes first in the choice
    rw [cartesian_cons, choices_cons, ih, List.flatMap_map, List.map_flatMap]
    simp only [List.map_map, Function.comp_def, FieldMap.ofChoice_cons]

/-- The names of a choice are those of the columns. -/
theorem names_of_mem_choices {columns : List (String × List (FieldValue N))}
    {choice : List (String × FieldValue N)} (mem : choice ∈ choices columns) :
    choice.map (·.1) = columns.map (·.1) := by
  rw [← List.forall₂_eq_eq_eq, List.forall₂_map_left_iff, List.forall₂_map_right_iff]
  exact (mem_choices.mp mem).imp fun _ _ h => h.1

/-- With distinct names every map has the names of the columns. -/
theorem keys_of_mem_cartesian {columns : List (String × List (FieldValue N))}
    (distinct : (columns.map (·.1)).Nodup) {point : FieldMap N} (mem : point ∈ cartesian columns) :
    point.keys.Perm (columns.map (·.1)) := by
  rw [cartesian_eq] at mem
  obtain ⟨choice, hChoice, rfl⟩ := List.mem_map.mp mem
  have hNames := names_of_mem_choices hChoice
  rw [← hNames] at distinct ⊢
  exact (FieldMap.ofChoice_perm distinct).map _

/-- **An expansion is the product of its columns**, although it hands maps over from one choice to
another. -/
theorem cartesian_isProduct (columns : List (String × List (FieldValue N))) :
    IsProduct columns (cartesian columns) where
  made := cartesian_eq columns
  whole _ := mem_choices
  placed _ _ := getElem?_choices
  first choice := ⟨FieldMap.ascending_ofChoice choice, FieldMap.find?_ofChoice choice⟩
  apart hDistinct choice hChoice := by
    have hMap : FieldMap.ofChoice choice ∈ cartesian columns := by
      rw [cartesian_eq]
      exact List.mem_map_of_mem hChoice
    refine ⟨FieldMap.ofChoice_perm ?_, keys_of_mem_cartesian hDistinct hMap⟩
    rwa [names_of_mem_choices hChoice]
  count := by rw [cartesian_eq, List.length_map, length_choices]
  nothing hNone := by rw [hNone]; rfl
  blocked := by
    rintro ⟨column, hColumn, hEmpty⟩
    -- the product of the lengths has a factor of zero
    have hZero : 0 ∈ columns.map fun column => column.2.length :=
      List.mem_map.mpr ⟨column, hColumn, by rw [hEmpty]; rfl⟩
    rw [← List.length_eq_zero_iff, cartesian_eq, List.length_map, length_choices]
    exact List.prod_eq_zero hZero

/-- Two operations on three disks: the operation varies fastest. -/
example : (cartesian [("optype", [.number 0, .number 1]),
      ("disk", [.number 5, .number 6, .number 7])] : List (FieldMap Nat)) =
    [[("disk", .number 5), ("optype", .number 0)], [("disk", .number 5), ("optype", .number 1)],
      [("disk", .number 6), ("optype", .number 0)], [("disk", .number 6), ("optype", .number 1)],
      [("disk", .number 7), ("optype", .number 0)], [("disk", .number 7), ("optype", .number 1)]] := by
  decide

end FleetMetrics
