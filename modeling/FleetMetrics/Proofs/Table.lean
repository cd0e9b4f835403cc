import Mathlib
import FleetMetrics.Table

/-!
# Tables as finite maps

A table is a list, and its order is part of its value. The theorems here let later arguments
forget the list: an ascending table is determined by its look-ups, and how many of its values
satisfy a condition changes with one entry at a time.

Main results:

* `ascending_alter`, `ascending_erase`, `ascending_mapValues` — every operation keeps the order.
* `mem_alter_iff` — the entries of an altered table, also where different keys compare as equal.
* `mem_iff_find?` — the pairs of an ascending table are its look-ups.
* `ext_find?` — two ascending tables with the same look-ups are equal.
* `countP_insert_new`, `countP_insert_old`, `countP_erase` — counting values entry by entry.
-/

namespace FleetMetrics.Table

variable {κ β γ : Type} [Ord κ]

/-! ## The order is kept -/

theorem ascending_nil : Ascending ([] : Table κ β) := List.Pairwise.nil

/-- Whether a table is in order can be computed. -/
instance decidableAscending (t : Table κ β) : Decidable t.Ascending :=
  inferInstanceAs (Decidable (List.Pairwise _ t))

/-- An altered table holds what it held, but for the entry that was altered or added. -/
theorem mem_alter {t : Table κ β} {k : κ} {f : Option β → β} {e : κ × β} (h : e ∈ t.alter k f) :
    e ∈ t ∨ e = (k, f none) ∨ ∃ v, (e.1, v) ∈ t ∧ e.2 = f (some v) := by
  induction t with
  | nil => exact .inr (.inl (List.mem_singleton.mp h))
  | cons entry rest ih =>
    unfold alter at h
    split at h
    · rcases List.mem_cons.mp h with rfl | h
      · exact .inr (.inl rfl)
      · exact .inl h
    · rcases List.mem_cons.mp h with rfl | h
      · exact .inr (.inr ⟨_, List.mem_cons_self, rfl⟩)
      · exact .inl (List.mem_cons_of_mem _ h)
    · rcases List.mem_cons.mp h with rfl | h
      · exact .inl List.mem_cons_self
      · rcases ih h with hOld | hNew | ⟨v, hMem, hValue⟩
        · exact .inl (List.mem_cons_of_mem _ hOld)
        · exact .inr (.inl hNew)
        · exact .inr (.inr ⟨v, List.mem_cons_of_mem _ hMem, hValue⟩)

/-- Whatever is done to one entry, a table stays in order. -/
theorem ascending_alter [Std.TransOrd κ] {t : Table κ β} (sorted : t.Ascending) (k : κ)
    (f : Option β → β) : (t.alter k f).Ascending := by
  induction t with
  | nil => exact List.pairwise_singleton _ _
  | cons entry rest ih =>
    obtain ⟨hHead, hRest⟩ := List.pairwise_cons.mp sorted
    unfold alter
    split
    · next h =>
      refine List.pairwise_cons.mpr ⟨?_, sorted⟩
      intro e he
      rcases List.mem_cons.mp he with rfl | he
      · exact h
      · exact Std.TransCmp.lt_trans h (hHead e he)
    · exact List.pairwise_cons.mpr ⟨hHead, hRest⟩
    · next h =>
      refine List.pairwise_cons.mpr ⟨?_, ih hRest⟩
      intro e he
      rcases mem_alter he with hOld | rfl | ⟨v, hOld, -⟩
      · exact hHead e hOld
      · exact Std.OrientedCmp.lt_of_gt h
      · exact hHead (e.1, v) hOld

/-- Entering a value keeps a table in order. -/
theorem ascending_insert [Std.TransOrd κ] {t : Table κ β} (sorted : t.Ascending) (k : κ) (v : β) :
    (t.insert k v).Ascending :=
  ascending_alter sorted k _

theorem ascending_erase {t : Table κ β} (sorted : t.Ascending) (k : κ) : (t.erase k).Ascending :=
  List.Pairwise.filter _ sorted

/-- Changing the values keeps a table in order, since its keys stay. -/
theorem ascending_mapValues {t : Table κ β} (sorted : t.Ascending) (f : κ → β → γ) :
    (t.mapValues f).Ascending := by
  unfold mapValues Ascending
  rw [List.pairwise_map]
  exact sorted

/-- A table is in order whatever order its entries come in. -/
theorem ascending_ofList [Std.TransOrd κ] (pairs : List (κ × β)) : (ofList pairs).Ascending := by
  unfold ofList
  suffices h : ∀ t : Table κ β, t.Ascending →
      (pairs.foldl (fun t entry => t.insert entry.1 entry.2) t).Ascending from h [] ascending_nil
  induction pairs with
  | nil => exact fun _ h => h
  | cons p rest ih => exact fun t h => ih _ (ascending_insert h _ _)

/-! ## What is stored -/

/-- **The entries of an altered table** are those of other keys, and the one for the key. That one
stays under the key it was first stored with, where keys that compare as equal differ. -/
theorem mem_alter_iff [Std.TransOrd κ] {t : Table κ β} (sorted : t.Ascending) {k : κ}
    {f : Option β → β} {e : κ × β} :
    e ∈ t.alter k f ↔ (e ∈ t ∧ compare k e.1 ≠ .eq) ∨
      (compare k e.1 = .eq ∧ ∃ v, (e.1, v) ∈ t ∧ e.2 = f (some v)) ∨
      ((∀ e' ∈ t, compare k e'.1 ≠ .eq) ∧ e = (k, f none)) := by
  induction t with
  | nil => simp [alter]
  | cons entry rest ih =>
    obtain ⟨hHead, hRest⟩ := List.pairwise_cons.mp sorted
    unfold alter
    split
    · next hk =>
      -- the key comes before all others, so there was no entry for it
      have hNone : ∀ e' ∈ entry :: rest, compare k e'.1 ≠ .eq := by
        intro e' he' hEq
        rcases List.mem_cons.mp he' with rfl | he'
        · rw [hk] at hEq
          cases hEq
        · rw [Std.TransCmp.lt_trans hk (hHead e' he')] at hEq
          cases hEq
      rw [List.mem_cons]
      constructor
      · rintro (rfl | h)
        · exact .inr (.inr ⟨hNone, rfl⟩)
        · exact .inl ⟨h, hNone e h⟩
      · rintro (⟨h, -⟩ | ⟨hEq, v, h, -⟩ | ⟨-, h⟩)
        · exact .inr h
        · exact absurd hEq (hNone (e.1, v) h)
        · exact .inl h
    · next hk =>
      -- no other entry has the key
      have hOther : ∀ e' ∈ rest, compare k e'.1 ≠ .eq := by
        intro e' he' hEq
        have hLt := hHead e' he'
        rw [← Std.TransCmp.congr_left hk, hEq] at hLt
        cases hLt
      rw [List.mem_cons]
      constructor
      · rintro (rfl | h)
        · exact .inr (.inl ⟨hk, entry.2, List.mem_cons_self, rfl⟩)
        · exact .inl ⟨List.mem_cons_of_mem _ h, hOther e h⟩
      · rintro (⟨h, hNe⟩ | ⟨hEq, v, h, hv⟩ | ⟨hNone, -⟩)
        · rcases List.mem_cons.mp h with rfl | h
          · exact absurd hk hNe
          · exact .inr h
        · rcases List.mem_cons.mp h with rfl | h
          · exact .inl (Prod.ext rfl hv)
          · exact absurd hEq (hOther (e.1, v) h)
        · exact absurd hk (hNone entry List.mem_cons_self)
    · next hk =>
      have hNe : compare k entry.1 ≠ .eq := by simp [hk]
      rw [List.mem_cons, ih hRest]
      constructor
      · rintro (rfl | ⟨h, hOther⟩ | ⟨hEq, v, h, hv⟩ | ⟨hNone, h⟩)
        · exact .inl ⟨List.mem_cons_self, hNe⟩
        · exact .inl ⟨List.mem_cons_of_mem _ h, hOther⟩
        · exact .inr (.inl ⟨hEq, v, List.mem_cons_of_mem _ h, hv⟩)
        · refine .inr (.inr ⟨fun e' he' => ?_, h⟩)
          rcases List.mem_cons.mp he' with rfl | he'
          · exact hNe
          · exact hNone e' he'
      · rintro (⟨h, hOther⟩ | ⟨hEq, v, h, hv⟩ | ⟨hNone, h⟩)
        · rcases List.mem_cons.mp h with rfl | h
          · exact .inl rfl
          · exact .inr (.inl ⟨h, hOther⟩)
        · rcases List.mem_cons.mp h with rfl | h
          · exact absurd hEq hNe
          · exact .inr (.inr (.inl ⟨hEq, v, h, hv⟩))
        · exact .inr (.inr (.inr ⟨fun e' he' => hNone e' (List.mem_cons_of_mem _ he'), h⟩))

/-- What is stored after an insertion is the new value or was stored before. -/
theorem mem_insert {t : Table κ β} {k : κ} {v : β} {e : κ × β} (h : e ∈ t.insert k v) :
    e.2 = v ∨ e ∈ t := by
  rcases mem_alter h with hOld | rfl | ⟨_, -, hValue⟩
  · exact .inr hOld
  · exact .inl rfl
  · exact .inl hValue

/-- What is found stands in the table. -/
theorem mem_of_find? {t : Table κ β} {k : κ} {v : β} (found : t.find? k = some v) :
    ∃ k', (k', v) ∈ t := by
  induction t with
  | nil => cases found
  | cons entry rest ih =>
    rw [find?_cons] at found
    split at found
    · exact ⟨entry.1, by rw [← Option.some.inj found]; exact List.mem_cons_self⟩
    · obtain ⟨k', hMem⟩ := ih found
      exact ⟨k', List.mem_cons_of_mem _ hMem⟩

/-- No value gets into a table but those it was made from. -/
theorem mem_ofList {pairs : List (κ × β)} {e : κ × β} (h : e ∈ ofList pairs) :
    ∃ p ∈ pairs, p.2 = e.2 := by
  induction pairs using List.reverseRecOn with
  | nil => cases h
  | append_singleton pairs p ih =>
    rw [ofList, List.foldl_append] at h
    rcases mem_insert h with h | h
    · exact ⟨p, by simp, h.symm⟩
    · obtain ⟨p', hp', hValue⟩ := ih h
      exact ⟨p', List.mem_append_left _ hp', hValue⟩

/-! ## Look-ups after an operation -/

/-- Keys that compare as equal have one entry. -/
theorem find?_congr [Std.TransOrd κ] {k k' : κ} (same : compare k k' = .eq) (t : Table κ β) :
    t.find? k = t.find? k' := by
  induction t with
  | nil => rfl
  | cons entry rest ih =>
    rw [find?_cons, find?_cons, ih, Std.TransCmp.congr_left same]

/-- Altering one key leaves the look-up of every key that compares as another one as it was. -/
theorem find?_alter_of_apart [Std.TransOrd κ] {t : Table κ β} {k k' : κ} (f : Option β → β)
    (apart : compare k' k ≠ .eq) : (t.alter k f).find? k' = t.find? k' := by
  induction t with
  | nil => simp [alter, find?_cons, apart]
  | cons entry rest ih =>
    unfold alter
    split
    · rw [find?_cons, if_neg apart]
    · next h =>
      have hApart : compare k' entry.1 ≠ .eq := by rwa [← Std.TransCmp.congr_right h]
      rw [find?_cons, find?_cons, if_neg hApart, if_neg hApart]
    · rw [find?_cons, find?_cons, ih]

/-- Nothing is found under a key that compares as none of those stored. -/
theorem find?_eq_none_iff {t : Table κ β} {k : κ} :
    t.find? k = none ↔ ∀ e ∈ t, compare k e.1 ≠ .eq := by
  induction t with
  | nil => simp
  | cons entry rest ih =>
    rw [find?_cons, List.forall_mem_cons, ← ih]
    by_cases h : compare k entry.1 = .eq <;> simp [h]

/-- **The keys of an altered table** are those that were there, and the key itself if none of them
compares as it. -/
theorem mem_keys_alter [Std.TransOrd κ] {t : Table κ β} (sorted : t.Ascending) {k k' : κ}
    {f : Option β → β} :
    k' ∈ (t.alter k f).keys ↔ k' ∈ t.keys ∨ k' = k ∧ t.find? k = none := by
  simp only [keys, List.mem_map, find?_eq_none_iff]
  constructor
  · rintro ⟨e, he, rfl⟩
    rcases (mem_alter_iff sorted).mp he with ⟨he, -⟩ | ⟨-, v, hv, -⟩ | ⟨hNone, rfl⟩
    · exact .inl ⟨e, he, rfl⟩
    · exact .inl ⟨_, hv, rfl⟩
    · exact .inr ⟨rfl, hNone⟩
  · rintro (⟨e, he, rfl⟩ | ⟨rfl, hNone⟩)
    · -- an entry stays under its key, changed or not
      by_cases hAt : compare k e.1 = .eq
      · exact ⟨(e.1, f (some e.2)), (mem_alter_iff sorted).mpr (.inr (.inl ⟨hAt, e.2, he, rfl⟩)),
          rfl⟩
      · exact ⟨e, (mem_alter_iff sorted).mpr (.inl ⟨he, hAt⟩), rfl⟩
    · exact ⟨_, (mem_alter_iff sorted).mpr (.inr (.inr ⟨hNone, rfl⟩)), rfl⟩

/-- The look-ups of an altered table. -/
theorem find?_alter_eq [Std.TransOrd κ] [Std.LawfulEqOrd κ] [DecidableEq κ] {t : Table κ β}
    (sorted : t.Ascending) (k k' : κ) (f : Option β → β) :
    (t.alter k f).find? k' = if k' = k then some (f (t.find? k)) else t.find? k' := by
  split
  · next h =>
    subst h
    exact find?_alter_self sorted _ _
  · next h => exact find?_alter_of_ne t _ h

/-- A value that was entered is found under its key, and nothing else changes. -/
theorem find?_insert [Std.TransOrd κ] [Std.LawfulEqOrd κ] [DecidableEq κ] {t : Table κ β}
    (sorted : t.Ascending) (k k' : κ) (v : β) :
    (t.insert k v).find? k' = if k' = k then some v else t.find? k' :=
  find?_alter_eq sorted k k' _

/-- A key that was removed is not found, and nothing else changes. -/
theorem find?_erase [Std.LawfulEqOrd κ] [DecidableEq κ] (t : Table κ β) (k k' : κ) :
    (t.erase k).find? k' = if k' = k then none else t.find? k' := by
  split
  · next h =>
    subst h
    exact find?_erase_self t _
  · next h => exact find?_erase_of_ne t h

/-- Changing the values changes what is found, and not where. -/
theorem find?_mapValues [Std.LawfulEqOrd κ] (t : Table κ β) (f : κ → β → γ) (k : κ) :
    (t.mapValues f).find? k = (t.find? k).map (f k) := by
  induction t with
  | nil => rfl
  | cons entry rest ih =>
    rw [mapValues, List.map_cons, find?_cons, find?_cons]
    split
    · next h =>
      rw [Std.LawfulEqOrd.eq_of_compare h]
      rfl
    · exact ih

/-- A table of names with one value finds that value under exactly these names. -/
theorem find?_ofList_const [Std.TransOrd κ] [Std.LawfulEqOrd κ] [DecidableEq κ] (names : List κ)
    (v : β) (k : κ) :
    (ofList (names.map fun n => (n, v))).find? k = if k ∈ names then some v else none := by
  unfold ofList
  suffices h : ∀ t : Table κ β, t.Ascending →
      ((names.map fun n => (n, v)).foldl (fun t entry => t.insert entry.1 entry.2) t).find? k =
        if k ∈ names then some v else t.find? k from h [] ascending_nil
  induction names with
  | nil => intro t _; simp
  | cons n rest ih =>
    intro t ht
    rw [List.map_cons, List.foldl_cons, ih _ (ascending_insert ht _ _), find?_insert ht]
    by_cases hk : k = n
    · simp [hk]
    · simp [hk]

/-- Of two values stored under one key in turn the later one counts. -/
theorem insert_insert [Std.LawfulEqOrd κ] {t : Table κ β} (k : κ) (v w : β) :
    (t.insert k v).insert k w = t.insert k w := by
  induction t with
  | nil => simp [insert, alter, Std.ReflOrd.compare_self]
  | cons entry rest ih =>
    simp only [insert, alter] at ih ⊢
    split
    · simp [alter, Std.ReflOrd.compare_self]
    · next h => simp [alter, h]
    · next h => simp [alter, h, ih]

/-! ## Storing many values -/

/-- Storing values under their keys does not touch other keys. -/
theorem find?_foldl_insert_of_ne [Std.LawfulEqOrd κ] (key : β → κ) (f : β → β) {vs : List β}
    {k : κ} (apart : ∀ v ∈ vs, k ≠ key v) (t : Table κ β) :
    (vs.foldl (fun u v => u.insert (key v) (f v)) t).find? k = t.find? k := by
  induction vs generalizing t with
  | nil => rfl
  | cons v rest ih =>
    rw [List.foldl_cons, ih (fun v' h => apart v' (List.mem_cons_of_mem _ h))]
    exact find?_alter_of_ne t _ (apart v List.mem_cons_self)

/-- Of values with different keys each is found under its own. -/
theorem find?_foldl_insert_self [Std.TransOrd κ] [Std.LawfulEqOrd κ] (key : β → κ) (f : β → β)
    {vs : List β} (distinct : (vs.map key).Nodup) {v : β} (mem : v ∈ vs) {t : Table κ β}
    (sorted : t.Ascending) :
    (vs.foldl (fun u v => u.insert (key v) (f v)) t).find? (key v) = some (f v) := by
  induction vs generalizing t with
  | nil => simp at mem
  | cons x rest ih =>
    obtain ⟨hHead, hRest⟩ := List.nodup_cons.mp distinct
    rw [List.foldl_cons]
    rcases List.mem_cons.mp mem with rfl | mem
    · -- no value that comes later has its key, so it is not overwritten
      rw [find?_foldl_insert_of_ne key f]
      · exact find?_alter_self sorted _ _
      · intro v' hv' heq
        exact hHead (heq ▸ List.mem_map_of_mem hv')
    · -- a value that comes later finds a table that is still in order
      exact ih hRest mem (ascending_insert sorted _ _)

/-! ## A table is its look-ups -/

/-- In a table in order, what stands under a key is what is found there. -/
theorem mem_iff_find? [Std.TransOrd κ] [Std.LawfulEqOrd κ] {t : Table κ β}
    (sorted : t.Ascending) {k : κ} {v : β} :
    (k, v) ∈ t ↔ t.find? k = some v := by
  induction t with
  | nil => simp
  | cons entry rest ih =>
    obtain ⟨hHead, hRest⟩ := List.pairwise_cons.mp sorted
    rw [List.mem_cons, find?_cons, ih hRest]
    constructor
    · rintro (rfl | h)
      · rw [if_pos Std.ReflOrd.compare_self]
      · -- the key stands further on, so it is not the first one
        have hlt := hHead _ ((ih hRest).mpr h)
        rw [if_neg, h]
        rw [Std.OrientedCmp.gt_of_lt hlt]
        decide
    · intro h
      split at h
      · next hk =>
        have hkey : k = entry.1 := Std.LawfulEqOrd.eq_of_compare hk
        have hval : entry.2 = v := Option.some.inj h
        exact .inl (by rw [hkey, ← hval])
      · exact .inr h

/-- The values are those that are found under some key. -/
theorem mem_values_iff [Std.TransOrd κ] [Std.LawfulEqOrd κ] {t : Table κ β}
    (sorted : t.Ascending) {v : β} : v ∈ t.values ↔ ∃ k, t.find? k = some v := by
  simp only [values, List.mem_map]
  constructor
  · rintro ⟨e, he, rfl⟩
    exact ⟨e.1, (mem_iff_find? sorted).mp he⟩
  · rintro ⟨k, hk⟩
    exact ⟨(k, v), (mem_iff_find? sorted).mpr hk, rfl⟩

/-- The keys are those under which something is found. -/
theorem mem_keys_iff [Std.TransOrd κ] [Std.LawfulEqOrd κ] {t : Table κ β} (sorted : t.Ascending)
    {k : κ} : k ∈ t.keys ↔ (t.find? k).isSome := by
  rw [Option.isSome_iff_exists, keys, List.mem_map]
  constructor
  · rintro ⟨e, he, rfl⟩
    exact ⟨e.2, (mem_iff_find? sorted).mp he⟩
  · rintro ⟨v, hv⟩
    exact ⟨(k, v), (mem_iff_find? sorted).mpr hv, rfl⟩

/-- The keys of a table of names are these names. -/
theorem mem_keys_ofList_const [Std.TransOrd κ] [Std.LawfulEqOrd κ] [DecidableEq κ] {names : List κ}
    {v : β} {k : κ} : k ∈ keys (ofList (names.map fun n => (n, v))) ↔ k ∈ names := by
  rw [mem_keys_iff (ascending_ofList _), find?_ofList_const]
  split <;> simp [*]

/-- Pairs with different keys are found as they are listed. -/
theorem find?_ofList_iff [Std.TransOrd κ] [Std.LawfulEqOrd κ] [DecidableEq κ]
    {pairs : List (κ × β)} (distinct : (pairs.map (·.1)).Nodup) {k : κ} {v : β} :
    (ofList pairs).find? k = some v ↔ (k, v) ∈ pairs := by
  induction pairs using List.reverseRecOn with
  | nil => simp [ofList]
  | append_singleton pairs p ih =>
    rw [List.map_append, List.nodup_append] at distinct
    obtain ⟨hRest, -, hApart⟩ := distinct
    have hInsert : ofList (pairs ++ [p]) = (ofList pairs).insert p.1 p.2 := by
      simp [ofList, List.foldl_append]
    rw [hInsert, find?_insert (ascending_ofList pairs), List.mem_append, List.mem_singleton,
      ← ih hRest]
    split
    · -- no earlier pair has the key of the last one
      next hk =>
      have hNew : (ofList pairs).find? k ≠ some v := fun hFind =>
        hApart k (List.mem_map_of_mem ((ih hRest).mp hFind)) p.1 (by simp) hk
      constructor
      · intro hv
        exact .inr (by rw [hk, ← Option.some.inj hv])
      · rintro (hFind | rfl)
        · exact absurd hFind hNew
        · rfl
    · next hk =>
      constructor
      · exact .inl
      · rintro (hFind | rfl)
        · exact hFind
        · exact absurd rfl hk

/-- **Extensionality.** Two ascending tables with the same look-ups are the same list. -/
theorem ext_find? [Std.TransOrd κ] [Std.LawfulEqOrd κ] {s t : Table κ β} (hs : s.Ascending)
    (ht : t.Ascending) (h : ∀ k, s.find? k = t.find? k) : s = t := by
  have hne : ∀ {u : Table κ β}, u.Ascending → u.Nodup := by
    intro u hu
    refine List.Pairwise.imp ?_ hu
    rintro a b hab rfl
    rw [Std.ReflOrd.compare_self] at hab
    cases hab
  have hmem : ∀ e, e ∈ s ↔ e ∈ t := by
    rintro ⟨k, v⟩
    rw [mem_iff_find? hs, mem_iff_find? ht, h]
  -- same entries, both lists in order: the lists are equal
  have hperm := (List.perm_ext_iff_of_nodup (hne hs) (hne ht)).mpr hmem
  refine List.Perm.eq_of_pairwise ?_ hs ht hperm
  intro a b _ _ hab hba
  exact absurd hba (by rw [Std.OrientedCmp.gt_of_lt hab]; decide)

/-- Storing what is there already changes nothing. -/
theorem insert_of_find? [Std.TransOrd κ] [Std.LawfulEqOrd κ] [DecidableEq κ] {t : Table κ β}
    (sorted : t.Ascending) {k : κ} {v : β} (found : t.find? k = some v) : t.insert k v = t := by
  refine ext_find? (ascending_insert sorted k v) sorted fun k' => ?_
  rw [find?_insert sorted]
  split
  · next h => rw [h, found]
  · rfl

/-- What is stored under a key before it is erased does not matter. -/
theorem erase_insert [Std.TransOrd κ] [Std.LawfulEqOrd κ] [DecidableEq κ] {t : Table κ β}
    (sorted : t.Ascending) (k : κ) (v : β) : (t.insert k v).erase k = t.erase k := by
  refine ext_find? (ascending_erase (ascending_insert sorted k v) k) (ascending_erase sorted k)
    fun k' => ?_
  rw [find?_erase, find?_erase, find?_insert sorted]
  split <;> rfl

/-- An entry with a new key joins the others. -/
theorem insert_new_perm {t : Table κ β} {k : κ} (v : β) (new : t.find? k = none) :
    (t.insert k v).Perm ((k, v) :: t) := by
  induction t with
  | nil => exact .rfl
  | cons entry rest ih =>
    rw [find?_cons] at new
    simp only [insert, alter] at ih ⊢
    split
    · exact .rfl
    · next h =>
      rw [if_pos h] at new
      cases new
    · next h =>
      rw [if_neg (by simp [h])] at new
      exact ((ih new).cons _).trans (.swap _ _ _)

/-- A key that is new joins the others. -/
theorem keys_insert_new {t : Table κ β} {k : κ} (v : β) (new : t.find? k = none) :
    (t.insert k v).keys.Perm (k :: t.keys) :=
  (insert_new_perm v new).map _

/-- Of two tables put together the first is searched first. -/
theorem find?_append (s t : Table κ β) (k : κ) :
    Table.find? (s ++ t) k = (s.find? k).or (t.find? k) := by
  induction s with
  | nil => rfl
  | cons entry rest ih =>
    rw [List.cons_append, find?_cons, find?_cons, ih]
    split <;> rfl

/-- Values stored under different keys may be stored in either order. -/
theorem insert_comm [Std.TransOrd κ] [Std.LawfulEqOrd κ] [DecidableEq κ] {t : Table κ β}
    (sorted : t.Ascending) {k k' : κ} (apart : k ≠ k') (v v' : β) :
    (t.insert k v).insert k' v' = (t.insert k' v').insert k v := by
  have h := ascending_insert sorted k v
  have h' := ascending_insert sorted k' v'
  refine ext_find? (ascending_insert h k' v') (ascending_insert h' k v) fun n => ?_
  rw [find?_insert h, find?_insert sorted, find?_insert h', find?_insert sorted]
  by_cases hn : n = k
  · subst hn
    simp [apart]
  · simp [hn]

/-- Different entries of an ascending table have different keys. -/
theorem keys_nodup [Std.ReflOrd κ] {t : Table κ β} (sorted : t.Ascending) : t.keys.Nodup := by
  unfold keys List.Nodup
  rw [List.pairwise_map]
  refine List.Pairwise.imp ?_ sorted
  rintro a b hab heq
  rw [heq, Std.ReflOrd.compare_self] at hab
  cases hab

/-- Values that know their keys list the keys. -/
theorem map_key_values [Std.TransOrd κ] [Std.LawfulEqOrd κ] {t : Table κ β} (sorted : t.Ascending)
    {key : β → κ} (named : ∀ k v, t.find? k = some v → key v = k) : t.values.map key = t.keys := by
  rw [values, keys, List.map_map]
  exact List.map_congr_left fun e he => named e.1 e.2 ((mem_iff_find? sorted).mp he)

/-- Storing anew the values that satisfy a condition changes these values in place, if each value
knows its key. -/
theorem foldl_insert_filter [Std.TransOrd κ] [Std.LawfulEqOrd κ] {t : Table κ β}
    (sorted : t.Ascending) {key : β → κ} (named : ∀ k v, t.find? k = some v → key v = k)
    (p : β → Bool) (f : β → β) :
    (t.values.filter p).foldl (fun u v => u.insert (key v) (f v)) t =
      t.mapValues fun _ v => if p v then f v else v := by
  have hKeys : ((t.values.filter p).map key).Nodup :=
    List.Nodup.sublist (List.Sublist.map _ List.filter_sublist)
      (map_key_values sorted named ▸ keys_nodup sorted)
  have hSorted : ∀ (vs : List β) (u : Table κ β), u.Ascending →
      (vs.foldl (fun u v => u.insert (key v) (f v)) u).Ascending := by
    intro vs
    induction vs with
    | nil => exact fun _ h => h
    | cons v rest ih => exact fun u h => ih _ (ascending_insert h _ _)
  refine ext_find? (hSorted _ _ sorted) (ascending_mapValues sorted _) fun k => ?_
  have hApart : (∀ v, t.find? k = some v → p v = false) →
      ∀ v ∈ t.values.filter p, k ≠ key v := by
    intro hOut v hv hk
    obtain ⟨hMem, hp⟩ := List.mem_filter.mp hv
    obtain ⟨k', hk'⟩ := (mem_values_iff sorted).mp hMem
    rw [hk, named k' v hk', hk'] at hOut
    rw [hOut v rfl] at hp
    cases hp
  -- key by key: one that is chosen is stored anew, all others are left alone
  rw [find?_mapValues]
  cases hFind : t.find? k with
  | none =>
    rw [find?_foldl_insert_of_ne key f (hApart (by simp [hFind])), hFind]
    rfl
  | some v =>
    by_cases hp : p v = true
    · have hv : v ∈ t.values.filter p :=
        List.mem_filter.mpr ⟨(mem_values_iff sorted).mpr ⟨k, hFind⟩, hp⟩
      rw [← named k v hFind, find?_foldl_insert_self key f hKeys hv sorted]
      simp [hp]
    · rw [find?_foldl_insert_of_ne key f (hApart (by simpa [hFind] using hp)), hFind]
      simp [hp]

/-! ## Counting values -/

omit [Ord κ] in
theorem values_cons (e : κ × β) (t : Table κ β) : values (e :: t) = e.2 :: t.values := rfl

omit [Ord κ] in
/-- Changing every value changes the list of values one by one. -/
theorem values_mapValues (t : Table κ β) (f : β → γ) :
    (t.mapValues fun _ v => f v).values = t.values.map f := by
  rw [values, values, mapValues, List.map_map, List.map_map]
  rfl

omit [Ord κ] in
/-- Two changes, one after the other, are one. -/
theorem mapValues_mapValues {γ δ : Type} (t : Table κ β) (f : κ → β → γ) (g : κ → γ → δ) :
    (t.mapValues f).mapValues g = t.mapValues fun k v => g k (f k v) := by
  simp only [mapValues, List.map_map]
  rfl

/-- A new entry adds itself to a count. -/
theorem countP_insert_new (p : β → Bool) {t : Table κ β} (sorted : t.Ascending) {k : κ} (v : β)
    (new : t.find? k = none) :
    (t.insert k v).values.countP p = t.values.countP p + if p v then 1 else 0 := by
  induction t with
  | nil => simp [insert, alter, values, List.countP_cons]
  | cons entry rest ih =>
    obtain ⟨-, hRest⟩ := List.pairwise_cons.mp sorted
    rw [find?_cons] at new
    simp only [insert, alter] at ih ⊢
    split
    · next h => rw [values_cons, List.countP_cons]
    · next h => simp [h] at new
    · next h =>
      rw [if_neg (by simp [h])] at new
      rw [values_cons, values_cons, List.countP_cons, List.countP_cons, ih hRest new]
      dsimp only
      omega

/-- A replaced entry leaves a count, its replacement enters it. -/
theorem countP_insert_old [Std.TransOrd κ] [Std.LawfulEqOrd κ] (p : β → Bool) {t : Table κ β}
    (sorted : t.Ascending) {k : κ} (v : β) {old : β} (found : t.find? k = some old) :
    (t.insert k v).values.countP p + (if p old then 1 else 0) =
      t.values.countP p + if p v then 1 else 0 := by
  induction t with
  | nil => simp at found
  | cons entry rest ih =>
    obtain ⟨hHead, hRest⟩ := List.pairwise_cons.mp sorted
    rw [find?_cons] at found
    simp only [insert, alter] at ih ⊢
    split
    · -- the key would stand before the first one, but then it is not found
      next h =>
      rw [if_neg (by simp [h])] at found
      have hlt := hHead _ ((mem_iff_find? hRest).mpr found)
      rw [Std.OrientedCmp.gt_of_lt hlt] at h
      cases h
    · next h =>
      rw [if_pos h] at found
      rw [values_cons, values_cons, List.countP_cons, List.countP_cons, ← Option.some.inj found]
      dsimp only at *
      omega
    · next h =>
      rw [if_neg (by simp [h])] at found
      have := ih hRest found
      rw [values_cons, values_cons, List.countP_cons, List.countP_cons]
      dsimp only
      omega

/-- An erased entry leaves a count. -/
theorem countP_erase [Std.LawfulEqOrd κ] (p : β → Bool) {t : Table κ β}
    (sorted : t.Ascending) {k : κ} {old : β} (found : t.find? k = some old) :
    (t.erase k).values.countP p + (if p old then 1 else 0) = t.values.countP p := by
  induction t with
  | nil => simp at found
  | cons entry rest ih =>
    obtain ⟨hHead, hRest⟩ := List.pairwise_cons.mp sorted
    rw [find?_cons] at found
    rw [values_cons, List.countP_cons]
    by_cases hk : compare k entry.1 = .eq
    · rw [if_pos hk] at found
      have hkey : k = entry.1 := Std.LawfulEqOrd.eq_of_compare hk
      -- no later entry has the key, so nothing else goes
      have hkeep : erase rest k = rest := by
        refine List.filter_eq_self.mpr fun e he => ?_
        rw [hkey, hHead e he]
        rfl
      have hdrop : erase (entry :: rest) k = rest := by
        rw [← hkeep]
        simp [erase, hk]
      rw [hdrop, Option.some.inj found]
    · rw [if_neg hk] at found
      have hdrop : erase (entry :: rest) k = entry :: erase rest k := by
        simp [erase, hk]
      rw [hdrop, values_cons, List.countP_cons]
      have := ih hRest found
      omega

end FleetMetrics.Table
