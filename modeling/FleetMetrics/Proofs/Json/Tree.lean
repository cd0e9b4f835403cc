import Mathlib
import FleetMetrics.Json
import FleetMetrics.Message.Wire
import FleetMetrics.Proofs.Table

/-!
# JSON trees that arrive in order

A receiver does not see the tree that was sent. It sees `Json.sorted` of it: every object lists its
members in ascending order of their names, and of members with one name the last is left. Records
are taken apart by name, so nothing is lost on the way as long as a writer gives every member of an
object a name of its own; a writer that repeats one has the earlier value dropped without a trace.

`Json.depth` counts how far arrays and objects stand inside one another. What is read out of a tree
is never deeper than the tree.

Main results:

* `fields?_sorted`, `tagged?_sorted` — a sorted record has its fields, and its kind and the rest.
* `table?_sorted`, `list?_sorted` — tables and lists come through if their entries do.
* `depth_lt_of_fields?`, `depth_le_of_tagged?` — parts are shallower than the whole.
-/

namespace FleetMetrics

/-- A table in ascending order is the table of its own pairs. -/
theorem Table.ofList_of_ascending {κ β : Type} [Ord κ] [Std.TransOrd κ] [Std.LawfulEqOrd κ]
    [DecidableEq κ] {t : Table κ β} (sorted : t.Ascending) : Table.ofList t = t := by
  refine ext_find? (ascending_ofList t) sorted fun k => ?_
  refine Option.ext fun v => ?_
  rw [find?_ofList_iff (keys_nodup sorted), mem_iff_find? sorted]

namespace Json

variable {N : Type}

/-! ## Order -/

mutual

/-- The tree with the members of every object in ascending order of their names, the last of each
name. -/
def sorted : Json N → Json N
  | .array items => .array (sortedItems items)
  | .object members => .object (Table.ofList (sortedMembers members))
  | j => j

def sortedItems : List (Json N) → List (Json N)
  | [] => []
  | j :: rest => sorted j :: sortedItems rest

def sortedMembers : List (String × Json N) → List (String × Json N)
  | [] => []
  | (name, j) :: rest => (name, sorted j) :: sortedMembers rest

end

@[simp] theorem sorted_null : (null : Json N).sorted = .null := rfl

@[simp] theorem sorted_bool (b : Bool) : (bool b : Json N).sorted = .bool b := rfl

@[simp] theorem sorted_int (i : Int) : (int i : Json N).sorted = .int i := rfl

@[simp] theorem sorted_float (x : N) : (float x).sorted = .float x := rfl

@[simp] theorem sorted_string (s : String) : (string s : Json N).sorted = .string s := rfl

/-- The items of an array are sorted each for itself, and keep their places. -/
theorem sortedItems_eq (items : List (Json N)) : sortedItems items = items.map sorted := by
  induction items with
  | nil => rfl
  | cons j rest ih => rw [sortedItems, ih, List.map_cons]

/-- The members of an object are first sorted each for itself. -/
theorem sortedMembers_eq (members : List (String × Json N)) :
    sortedMembers members = members.map fun m => (m.1, m.2.sorted) := by
  induction members with
  | nil => rfl
  | cons m rest ih => rw [sortedMembers, ih, List.map_cons]

@[simp] theorem sorted_array (items : List (Json N)) :
    (array items).sorted = .array (items.map sorted) := by
  rw [sorted, sortedItems_eq]

/-- The members of an object come in the order of their names. -/
theorem sorted_object (members : List (String × Json N)) :
    (object members).sorted = .object (Table.ofList (members.map fun m => (m.1, m.2.sorted))) := by
  rw [sorted, sortedMembers_eq]

/-- An object with its members in order stays as it is but for what they hold. -/
theorem sorted_object_of_ascending {members : List (String × Json N)}
    (ascending : Table.Ascending members) :
    (object members).sorted = .object (members.map fun m => (m.1, m.2.sorted)) := by
  rw [sorted_object]
  exact congrArg object
    (Table.ofList_of_ascending (Table.ascending_mapValues ascending fun _ => sorted))

/-! ## Fields of a sorted record -/

/-- A list is read if each of its items is. -/
theorem mapM_eq_some_iff {α β : Type} {f : α → Option β} {xs : List α} {ys : List β} :
    xs.mapM f = some ys ↔ List.Forall₂ (fun x y => f x = some y) xs ys := by
  induction xs generalizing ys with
  | nil =>
    rw [List.mapM_nil, List.forall₂_nil_left_iff]
    exact Option.some_inj.trans eq_comm
  | cons x rest ih =>
    rw [List.mapM_cons, List.forall₂_cons_left_iff]
    constructor
    · intro h
      obtain ⟨y, hy, h⟩ := Option.bind_eq_some_iff.mp h
      obtain ⟨ys', hys, h⟩ := Option.bind_eq_some_iff.mp h
      exact ⟨y, ys', hy, ih.mp hys, (Option.some.inj h).symm⟩
    · rintro ⟨y, ys', hy, hys, rfl⟩
      exact Option.bind_eq_some_iff.mpr
        ⟨y, hy, Option.bind_eq_some_iff.mpr ⟨ys', ih.mpr hys, rfl⟩⟩

/-- A member is looked up by its name, so it does not matter if the values were changed before or
after. -/
theorem lookup_map {α β : Type} (f : α → β) (members : List (String × α)) (name : String) :
    (members.map fun m => (m.1, f m.2)).lookup name = (members.lookup name).map f := by
  induction members with
  | nil => rfl
  | cons m rest ih =>
    rw [List.map_cons, List.lookup_cons, List.lookup_cons]
    split
    · rfl
    · exact ih

/-- Everything in a list that was read was read from one of the items. -/
theorem exists_of_mem_mapM {α β : Type} {f : α → Option β} {xs : List α} {ys : List β}
    (mapped : xs.mapM f = some ys) {y : β} (mem : y ∈ ys) : ∃ x ∈ xs, f x = some y := by
  have hPairs := mapM_eq_some_iff.mp mapped
  clear mapped
  induction hPairs with
  | nil => cases mem
  | @cons x _ _ _ hFirst _ ih =>
    rcases List.mem_cons.mp mem with rfl | mem
    · exact ⟨x, List.mem_cons_self, hFirst⟩
    · obtain ⟨x', hx', hSome⟩ := ih mem
      exact ⟨x', List.mem_cons_of_mem _ hx', hSome⟩

/-- With names of their own, the members are found as they are listed. -/
theorem find?_ofList_eq_lookup {α : Type} {members : List (String × α)}
    (distinct : (members.map (·.1)).Nodup) (name : String) :
    (Table.ofList members).find? name = members.lookup name := by
  refine Option.ext fun v => ?_
  rw [Table.find?_ofList_iff distinct]
  induction members with
  | nil => simp
  | cons m rest ih =>
    obtain ⟨hNew, hRest⟩ := List.nodup_cons.mp distinct
    rw [List.mem_cons, ih hRest, List.lookup_cons]
    split
    · next hName =>
      -- the first member has the name, so no later one has
      have hFirst : name = m.1 := eq_of_beq hName
      have hLater : rest.lookup name ≠ some v := fun hFound =>
        hNew (List.mem_map.mpr ⟨(name, v), (ih hRest).mpr hFound, hFirst⟩)
      simp [hLater, Prod.ext_iff, ← hFirst, eq_comm]
    · next hName =>
      have hOther : ¬ (name, v) = m := fun hSame => by simp [← hSame] at hName
      simp [hOther]

/-- The entries of an ascending table with one key. -/
theorem filter_eq_find? {α : Type} {t : Table String α} (ascending : t.Ascending) (name : String) :
    t.filter (·.1 == name) = ((t.find? name).map fun v => (name, v)).toList := by
  induction t with
  | nil => rfl
  | cons e rest ih =>
    obtain ⟨hHead, hRest⟩ := List.pairwise_cons.mp ascending
    rw [List.filter_cons, Table.find?_cons, ih hRest]
    by_cases hName : e.1 = name
    · subst hName
      rw [Table.find?_eq_none_of_lt hHead, if_pos (beq_self_eq_true _),
        if_pos Std.ReflOrd.compare_self]
      rfl
    · have hApart : compare name e.1 ≠ .eq := fun h => hName (Std.LawfulEqOrd.eq_of_compare h).symm
      rw [if_neg (by simpa using hName), if_neg hApart]

/-- **Fields.** A record whose members have names of their own arrives with every field, whatever
the order in which the fields are asked for. -/
theorem fields?_sorted {members : List (String × Json N)} (distinct : (members.map (·.1)).Nodup)
    (names : List String) :
    (object members).sorted.fields? names =
      some (names.map fun name => (members.lookup name).map sorted) := by
  have hDistinct : ((members.map fun m => (m.1, m.2.sorted)).map (·.1)).Nodup := by
    rwa [List.map_map]
  rw [sorted_object, fields?, mapM_eq_some_iff]
  refine List.forall₂_map_right_iff.mpr (List.forall₂_same.mpr fun name _ => ?_)
  rw [filter_eq_find? (Table.ascending_ofList _), find?_ofList_eq_lookup hDistinct, lookup_map]
  cases members.lookup name <;> rfl

/-- **Kinds.** The kind of a record is told apart from the members that it comes with. -/
theorem tagged?_sorted {tag kind : String} {members : List (String × Json N)}
    (distinct : (members.map (·.1)).Nodup) (free : tag ∉ members.map (·.1)) :
    (object ((tag, .string kind) :: members)).sorted.tagged? tag =
      some (kind, (object members).sorted) := by
  have hNames : ((members.map fun m => (m.1, m.2.sorted)).map (·.1)) = members.map (·.1) := by
    rw [List.map_map]
    rfl
  have hDistinct : (((tag, (string kind : Json N)) ::
      members.map fun m => (m.1, m.2.sorted)).map (·.1)).Nodup := by
    rw [List.map_cons, hNames]
    exact List.nodup_cons.mpr ⟨free, distinct⟩
  have hRest : (Table.ofList ((tag, (string kind : Json N)) ::
      members.map fun m => (m.1, m.2.sorted))).filter (·.1 != tag) =
        Table.ofList (members.map fun m => (m.1, m.2.sorted)) := by
    -- both are tables, so only the look-ups count
    have hFilter : ∀ t : Table String (Json N), t.filter (·.1 != tag) = t.erase tag := fun t =>
      List.filter_congr fun e _ => by
        rw [bne, Bool.beq_eq_decide_eq, ← decide_not]
        exact decide_eq_decide.mpr
          (not_congr (eq_comm.trans Std.LawfulEqOrd.compare_eq_iff_eq.symm))
    rw [hFilter]
    refine Table.ext_find? (Table.ascending_erase (Table.ascending_ofList _) tag)
      (Table.ascending_ofList _) fun name => ?_
    rw [Table.find?_erase, find?_ofList_eq_lookup hDistinct,
      find?_ofList_eq_lookup (by rwa [hNames]), List.lookup_cons]
    split
    · next hName =>
      subst hName
      refine (List.lookup_eq_none_iff.mpr fun m hm => ?_).symm
      simp only [bne_iff_ne, ne_eq]
      rintro rfl
      exact free (hNames ▸ List.mem_map_of_mem hm)
    · next hName => rw [beq_false_of_ne hName]
  rw [sorted_object, List.map_cons, sorted_string, tagged?,
    filter_eq_find? (Table.ascending_ofList _), find?_ofList_eq_lookup hDistinct,
    List.lookup_cons_self, hRest, sorted_object]
  rfl

/-! ## Tables and lists -/

/-- **Tables.** A table comes through if each of its values does. -/
theorem table?_sorted {α : Type} {read : Json N → Option α} {write : α → Json N}
    {t : Table String α} (ascending : t.Ascending)
    (reads : ∀ e ∈ t, read (write e.2).sorted = some e.2) :
    table? read (Table.toJson write t).sorted = some t := by
  have hWritten : Table.Ascending (t.map fun e => (e.1, write e.2)) :=
    Table.ascending_mapValues ascending fun _ => write
  rw [Table.toJson, sorted_object_of_ascending hWritten, table?, List.map_map]
  have hMembers : (t.map fun e => (e.1, (write e.2).sorted)).mapM
      (fun m => (read m.2).map fun v => (m.1, v)) = some t := by
    rw [mapM_eq_some_iff, List.forall₂_map_left_iff]
    exact List.forall₂_same.mpr fun e he => by rw [reads e he, Option.map_some]
  exact (congrArg (Option.map Table.ofList) hMembers).trans
    (congrArg some (Table.ofList_of_ascending ascending))

/-- **Lists.** A list comes through if each of its items does. -/
theorem list?_sorted {α : Type} {read : Json N → Option α} {write : α → Json N} {xs : List α}
    (reads : ∀ x ∈ xs, read (write x).sorted = some x) :
    list? read (array (xs.map write)).sorted = some xs := by
  rw [sorted_array, List.map_map, list?, array?]
  change List.mapM read (xs.map _) = some xs
  rw [mapM_eq_some_iff, List.forall₂_map_left_iff]
  exact List.forall₂_same.mpr reads

/-- A list of texts comes back in its order, since only objects are sorted. -/
theorem strings?_sorted (ss : List String) :
    strings? (array (ss.map string) : Json N).sorted = some ss := by
  have hEach : ∀ s ∈ ss, string? (string s : Json N).sorted = some s := fun _ _ => rfl
  exact list?_sorted hEach

/-! ## Depth -/

mutual

/-- How many arrays and objects stand inside one another. -/
def depth : Json N → Nat
  | .array items => depthItems items + 1
  | .object members => depthMembers members + 1
  | _ => 0

/-- The depth of the deepest of some items. -/
def depthItems : List (Json N) → Nat
  | [] => 0
  | j :: rest => max (depth j) (depthItems rest)

/-- The depth of the deepest value of some members. -/
def depthMembers : List (String × Json N) → Nat
  | [] => 0
  | (_, j) :: rest => max (depth j) (depthMembers rest)

end

/-- Items are as deep as the deepest of them. -/
theorem depthItems_le {items : List (Json N)} {n : Nat} :
    depthItems items ≤ n ↔ ∀ j ∈ items, j.depth ≤ n := by
  induction items with
  | nil => simp [depthItems]
  | cons j rest ih => rw [depthItems, max_le_iff, ih, List.forall_mem_cons]

theorem depthMembers_le {members : List (String × Json N)} {n : Nat} :
    depthMembers members ≤ n ↔ ∀ m ∈ members, m.2.depth ≤ n := by
  induction members with
  | nil => simp [depthMembers]
  | cons m rest ih => rw [depthMembers, max_le_iff, ih, List.forall_mem_cons]

/-- An array is one deeper than its items. -/
theorem depth_array_le {items : List (Json N)} {n : Nat} :
    (array items).depth ≤ n + 1 ↔ ∀ j ∈ items, j.depth ≤ n := by
  rw [depth, Nat.add_le_add_iff_right, depthItems_le]

/-- An object is one deeper than its members. -/
theorem depth_object_le {members : List (String × Json N)} {n : Nat} :
    (object members).depth ≤ n + 1 ↔ ∀ m ∈ members, m.2.depth ≤ n := by
  rw [depth, Nat.add_le_add_iff_right, depthMembers_le]

/-- An item is less deep than its array, on which recursion over a tree rests. -/
theorem depth_lt_of_mem_array {items : List (Json N)} {j : Json N} (mem : j ∈ items) :
    j.depth < (array items).depth := by
  rw [depth]
  exact Nat.lt_succ_of_le (depthItems_le.mp le_rfl j mem)

/-- A member is less deep than its object. -/
theorem depth_lt_of_mem_object {members : List (String × Json N)} {m : String × Json N}
    (mem : m ∈ members) : m.2.depth < (object members).depth := by
  rw [depth]
  exact Nat.lt_succ_of_le (depthMembers_le.mp le_rfl m mem)

/-- A field is shallower than its record. -/
theorem depth_lt_of_fields? {j part : Json N} {names : List String}
    {parts : List (Option (Json N))} (fields : j.fields? names = some parts)
    (mem : some part ∈ parts) : part.depth < j.depth := by
  cases j with
  | array items =>
    rw [fields?] at fields
    split at fields
    · rw [← Option.some.inj fields, List.mem_append] at mem
      rcases mem with mem | mem
      · obtain ⟨item, hItem, hPart⟩ := List.mem_map.mp mem
        exact Option.some.inj hPart ▸ depth_lt_of_mem_array hItem
      · cases (List.mem_replicate.mp mem).2
    · cases fields
  | object members =>
    rw [fields?] at fields
    obtain ⟨name, -, hPart⟩ := exists_of_mem_mapM fields mem
    split at hPart
    · cases hPart
    · next m hOne =>
      have hMember : m ∈ members :=
        (List.mem_filter.mp (hOne ▸ List.mem_singleton_self m)).1
      rw [← Option.some.inj (Option.some.inj hPart)]
      exact depth_lt_of_mem_object hMember
    · cases hPart
  | null | bool | int | float | string => cases fields

/-- Without its kind a record is no deeper. -/
theorem depth_le_of_tagged? {j rest : Json N} {tag kind : String}
    (tagged : j.tagged? tag = some (kind, rest)) : rest.depth ≤ j.depth := by
  cases j with
  | array items =>
    cases items with
    | nil => cases tagged
    | cons first rest' =>
      cases first with
      | string s =>
        obtain ⟨-, rfl⟩ := Prod.ext_iff.mp (Option.some.inj tagged)
        rw [depth, depth, depthItems]
        exact Nat.succ_le_succ (le_max_right _ _)
      | null | bool | int | float | array | object => cases tagged
  | object members =>
    rw [tagged?] at tagged
    split at tagged
    · obtain ⟨-, rfl⟩ := Prod.ext_iff.mp (Option.some.inj tagged)
      refine depth_object_le.mpr fun m hm => ?_
      exact depthMembers_le.mp le_rfl m (List.mem_of_mem_filter hm)
    · cases tagged
  | null | bool | int | float | string => cases tagged

end Json

end FleetMetrics
