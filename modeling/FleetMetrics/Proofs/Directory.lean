import Mathlib
import FleetMetrics.Coordinator
import FleetMetrics.Proofs.Roster

/-!
# Directories as finite maps

A directory lists agents in first-seen order. The theorems here say what each operation does to
the look-up of one host, so that later arguments about loads and routing keys do not see the list.
The order itself matters for the listings and for the choice of an aggregator alone.

Main results:

* `Directory.find?_acquireAll`, `Directory.find?_releaseAll` — a host's load moves by the number
  of times the host occurs among those acquired or released.
* `Directory.load_pos_of_count_le` — while a host is released at most as often as its load says,
  every single release finds a load above zero.
* `Directory.hostnames_enter` — an agent that is entered keeps its place or comes last.
* `Directory.leastLoaded?_eq_argmin` — which agent is chosen.
-/

namespace FleetMetrics

namespace Directory

theorem hostname_of_find? {d : Directory} {h : String} {r : AgentRecord}
    (found : d.find? h = some r) : r.hostname = h :=
  Roster.name_of_find? found

/-- A host is in the list of hostnames exactly if it is known. -/
theorem mem_hostnames_iff {d : Directory} {h : String} :
    h ∈ d.records.map (·.hostname) ↔ (d.find? h).isSome := by
  constructor
  · intro hm
    obtain ⟨r, hr, rfl⟩ := List.mem_map.mp hm
    rw [find?, Roster.find?_of_mem d.distinct hr]
    rfl
  · intro hs
    obtain ⟨r, hr⟩ := Option.isSome_iff_exists.mp hs
    exact List.mem_map.mpr ⟨r, Roster.mem_of_find? hr, hostname_of_find? hr⟩

/-- A record that is entered is found, and all others as before. -/
theorem find?_enter (d : Directory) (r : AgentRecord) (h : String) :
    (d.enter r).find? h = if r.hostname = h then some r else d.find? h :=
  Roster.find?_put _ _ _ _

/-- Changing the load of one host changes no other record. -/
theorem find?_changeLoad (d : Directory) (host : String) (g : Nat → Nat) (h : String) :
    (d.changeLoad host g).find? h =
      (d.find? h).map fun r => if h = host then r.changeLoad g else r :=
  Roster.find?_change (f := AgentRecord.changeLoad g) (fun _ => rfl) _ _ _

/-- Acquiring hosts raises the load of each by the number of times it occurs. -/
theorem find?_acquireAll (d : Directory) (hosts : List String) (h : String) :
    (d.acquireAll hosts).find? h = (d.find? h).map (·.changeLoad (· + hosts.count h)) := by
  unfold acquireAll
  induction hosts generalizing d with
  | nil =>
    cases hd : d.find? h with
    | none => simp [hd]
    | some r => simp [hd, AgentRecord.changeLoad]
  | cons host rest ih =>
    rw [List.foldl_cons, ih, acquire, find?_changeLoad, Option.map_map, List.count_cons]
    cases d.find? h with
    | none => rfl
    | some r =>
      simp only [Option.map_some, Function.comp_apply, AgentRecord.changeLoad, Option.some.injEq]
      by_cases hh : h = host
      · subst hh
        simp [Nat.add_assoc, Nat.add_comm 1]
      · simp [hh, Ne.symm hh]

/-- Releasing hosts lowers the load of each by the number of times it occurs. -/
theorem find?_releaseAll (d : Directory) (hosts : List String) (h : String) :
    (d.releaseAll hosts).find? h = (d.find? h).map (·.changeLoad (· - hosts.count h)) := by
  unfold releaseAll
  induction hosts generalizing d with
  | nil =>
    cases hd : d.find? h with
    | none => simp [hd]
    | some r => simp [hd, AgentRecord.changeLoad]
  | cons host rest ih =>
    rw [List.foldl_cons, ih, release, find?_changeLoad, Option.map_map, List.count_cons]
    cases d.find? h with
    | none => rfl
    | some r =>
      simp only [Option.map_some, Function.comp_apply, AgentRecord.changeLoad, Option.some.injEq]
      by_cases hh : h = host
      · subst hh
        simp only [if_true, beq_self_eq_true]
        congr 1
        omega
      · simp [hh, Ne.symm hh]

/-- Releasing hosts keeps every agent in its place. -/
theorem records_releaseAll (d : Directory) (hosts : List String) :
    (d.releaseAll hosts).records =
      d.records.map fun r => r.changeLoad (· - hosts.count r.hostname) := by
  unfold releaseAll
  induction hosts generalizing d with
  | nil =>
    have hSame : (fun r : AgentRecord => r.changeLoad (· - [].count r.hostname)) = id := rfl
    rw [hSame, List.map_id]
    rfl
  | cons host rest ih =>
    rw [List.foldl_cons, ih]
    simp only [release, changeLoad, Roster.change, List.map_map]
    refine List.map_congr_left fun r _ => ?_
    rw [Function.comp_apply, List.count_cons]
    by_cases hr : r.hostname = host
    · rw [if_pos hr, if_pos (beq_iff_eq.mpr hr.symm)]
      simp only [AgentRecord.changeLoad, AgentRecord.mk.injEq, true_and, and_true]
      omega
    · rw [if_neg hr, if_neg (by simpa using Ne.symm hr)]
      rfl

theorem releaseAll_append (d : Directory) (xs ys : List String) :
    d.releaseAll (xs ++ ys) = (d.releaseAll xs).releaseAll ys :=
  List.foldl_append

/-- The same change may be made at two hosts in either order. -/
theorem changeLoad_comm (d : Directory) (h h' : String) (g : Nat → Nat) :
    (d.changeLoad h g).changeLoad h' g = (d.changeLoad h' g).changeLoad h g := by
  have hName : ∀ r : AgentRecord, (r.changeLoad g).hostname = r.hostname := fun _ => rfl
  simp only [changeLoad, Roster.change, mk.injEq, List.map_map]
  refine List.map_congr_left fun r _ => ?_
  simp only [Function.comp_apply]
  -- a change keeps the name, so the second one finds the agent as the first one did
  split <;> split <;> simp_all only [if_true, if_false]

/-- Hosts may be released in any order. -/
theorem releaseAll_perm (d : Directory) {hosts hosts' : List String} (perm : hosts.Perm hosts') :
    d.releaseAll hosts = d.releaseAll hosts' :=
  perm.foldl_eq' (fun h _ h' _ d => d.changeLoad_comm h h' (· - 1)) d

/-- While a host occurs among the releases at most as often as its load says, each of these
releases finds a load above zero. -/
theorem load_pos_of_count_le {d : Directory} {before after : List String} {h : String}
    {r r' : AgentRecord} (found : d.find? h = some r)
    (enough : (before ++ h :: after).count h ≤ r.load)
    (found' : (d.releaseAll before).find? h = some r') : 0 < r'.load := by
  rw [find?_releaseAll, found, Option.map_some, Option.some.injEq] at found'
  subst found'
  rw [List.count_append, List.count_cons_self] at enough
  show 0 < r.load - before.count h
  omega

/-! ## The order of the hosts -/

/-- A host that is entered again keeps its place; a new one comes last. -/
theorem hostnames_enter (d : Directory) (r : AgentRecord) :
    (d.enter r).records.map (·.hostname) =
      if r.hostname ∈ d.records.map (·.hostname) then d.records.map (·.hostname)
      else d.records.map (·.hostname) ++ [r.hostname] :=
  Roster.map_put _ r d.records

/-- A load changes without its record moving. -/
theorem hostnames_changeLoad (d : Directory) (host : String) (g : Nat → Nat) :
    (d.changeLoad host g).records.map (·.hostname) = d.records.map (·.hostname) :=
  Roster.map_change (f := AgentRecord.changeLoad g) (fun _ => rfl) d.records

theorem hostnames_acquireAll (d : Directory) (hosts : List String) :
    (d.acquireAll hosts).records.map (·.hostname) = d.records.map (·.hostname) := by
  unfold acquireAll
  induction hosts generalizing d with
  | nil => rfl
  | cons host rest ih => rw [List.foldl_cons, ih, acquire, hostnames_changeLoad]

theorem hostnames_releaseAll (d : Directory) (hosts : List String) :
    (d.releaseAll hosts).records.map (·.hostname) = d.records.map (·.hostname) := by
  unfold releaseAll
  induction hosts generalizing d with
  | nil => rfl
  | cons host rest ih => rw [List.foldl_cons, ih, release, hostnames_changeLoad]

/-! ## The least loaded agent -/

/-- The least loaded agent is the first one whose load is smallest. -/
theorem leastLoaded?_eq_argmin (d : Directory) : d.leastLoaded? = d.records.argmin (·.load) := by
  unfold leastLoaded? List.argmin
  congr 1
  funext best r
  cases best <;> rfl

/-- The least loaded agent is a registered one. -/
theorem find?_leastLoaded? {d : Directory} {r : AgentRecord} (h : d.leastLoaded? = some r) :
    d.find? r.hostname = some r :=
  Roster.find?_of_mem d.distinct (List.argmin_mem (d.leastLoaded?_eq_argmin ▸ h))

end Directory

end FleetMetrics
