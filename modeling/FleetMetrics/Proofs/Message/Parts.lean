import Mathlib
import FleetMetrics.Message.Wire
import FleetMetrics.Proofs.Catalog
import FleetMetrics.Proofs.Json.Text

/-!
# Parts of messages on the wire

Every record that a message can carry is written with all its fields and read back by their names.
What has to be known of the data is what its type guarantees where the program runs: whole numbers
fit into 64 bits and tables are in order. What was read has the same properties, whatever text it
came from, so a receiver can send on what it received.

A status is the exception. It is written as a word, and two of the words stand for statuses of their
own: `AckStatus.other "enabled"` is sent like `AckStatus.enabled` and arrives as such. A status that
was read is never one of these two.

Main results:

* `Uuid.ofText?_text` — the number of a message comes through.
* `AckStatus.ofText_text` — a status comes through exactly if it is `Plain`.
* `AckStatus.plain_ofText` — every status that was read is.
* `Catalog.ofJson?_toJson`, `StatusReport.ofJson?_toJson`, `AgentInfo.ofJson?_toJson`.
* `Catalog.ordered_of_ofJson?`, `StatusReport.valid_of_ofJson?` — what was read is valid.
-/

namespace FleetMetrics

/-! ## Message numbers -/

namespace Uuid

/-- Hyphens put between groups of digits can be cut out again. -/
theorem withoutHyphens?_withHyphens : ∀ (groups : List Nat) {cs : List Char}, groups ≠ [] →
    cs.length = groups.sum → withoutHyphens? groups (withHyphens groups cs) = some cs
  | [], _, some', _ => absurd rfl some'
  | [last], cs, _, length => by
    rw [withHyphens, withoutHyphens?, if_pos (by simpa using length)]
  | n :: m :: rest, cs, _, length => by
    have hTake : (cs.take n).length = n := by
      rw [List.length_take, length, List.sum_cons]
      omega
    have hRest : (cs.drop n).length = (m :: rest).sum := by
      rw [List.length_drop, length, List.sum_cons]
      omega
    have hMore := withoutHyphens?_withHyphens (m :: rest) (List.cons_ne_nil m rest) hRest
    rw [withHyphens, withoutHyphens?, List.drop_left' hTake, List.take_left' hTake]
    · exact (congrArg (Option.map (cs.take n ++ ·)) hMore).trans
        (congrArg some (List.take_append_drop n cs))
    · simp
    · simp

/-- A number is written with as many digits as are asked for, with zeros in front. -/
theorem length_hexDigits (n count : Nat) : (hexDigits n count).length = count := by
  induction count generalizing n with
  | zero => rfl
  | succ count ih => rw [hexDigits, List.length_append, ih]; rfl

/-- One more digit multiplies by sixteen what was read before it. -/
theorem ofHex?_append (cs : List Char) (c : Char) :
    ofHex? (cs ++ [c]) =
      (ofHex? cs).bind fun n => (Json.hexDigit? c).map fun d => n * 16 + d := by
  unfold ofHex?
  rw [List.foldlM_append]
  exact congrArg _ (funext fun n => bind_pure _)

/-- The digits of a number stand for the part of it that fits into them. -/
theorem ofHex?_hexDigits (n count : Nat) : ofHex? (hexDigits n count) = some (n % 16 ^ count) := by
  induction count generalizing n with
  | zero => rw [Nat.pow_zero, Nat.mod_one]; rfl
  | succ count ih =>
    have hDigit := Json.Scan.hexDigit?_hexChar (Nat.mod_lt n (by decide : 0 < 16))
    have hValue : n / 16 % 16 ^ count * 16 + n % 16 = n % 16 ^ (count + 1) := by
      rw [Nat.pow_succ', Nat.mod_mul]
      omega
    rw [hexDigits, ofHex?_append, ih, hDigit]
    exact congrArg some hValue

/-- There is a hyphen between any two groups, so one less than there are groups. -/
theorem length_withHyphens : ∀ (groups : List Nat) {cs : List Char}, groups ≠ [] →
    cs.length = groups.sum → (withHyphens groups cs).length + 1 = groups.sum + groups.length
  | [], _, some', _ => absurd rfl some'
  | [last], cs, _, length => by
    rw [withHyphens, length]
    rfl
  | n :: m :: rest, cs, _, length => by
    have hRest : (cs.drop n).length = (m :: rest).sum := by
      rw [List.length_drop, length, List.sum_cons]
      omega
    have hMore := length_withHyphens (m :: rest) (List.cons_ne_nil m rest) hRest
    rw [withHyphens, List.length_append, List.length_cons, List.length_take, length]
    · simp only [List.sum_cons, List.length_cons] at hMore ⊢
      omega
    · simp

/-- **Numbers.** The text of a message number stands for it. -/
theorem ofText?_text (u : Uuid) : ofText? u.text = some u := by
  have hDigits := length_hexDigits u.toNat 32
  have hCut := withoutHyphens?_withHyphens groups (by decide) hDigits
  have hLength : (withHyphens groups (hexDigits u.toNat 32)).length = 36 :=
    Nat.succ.inj (length_withHyphens groups (by decide) hDigits)
  have hBare : unwrapped (withHyphens groups (hexDigits u.toNat 32)) =
      withHyphens groups (hexDigits u.toNat 32) := by
    rw [unwrapped, hLength]
    rfl
  have hFits : u.toNat % 16 ^ 32 = u.toNat := Nat.mod_eq_of_lt u.isLt
  rw [ofText?, text, String.toList_ofList, hLength, if_neg (by decide), hBare, hCut,
    Option.bind_some, ofHex?_hexDigits, hFits, Option.map_some, BitVec.ofNat_toNat,
    BitVec.setWidth_eq]

end Uuid

/-! ## Numbers and words -/

theorem Json.string?_string {N : Type} (s : String) : (Json.string s : Json N).string? = some s :=
  rfl

/-- A number of 64 bits is read as it was written. -/
theorem Json.nat?_int {n : Nat} (fits : n < Width.capacity 64) {N : Type} :
    (Json.int n : Json N).nat? 64 = some n := by
  rw [nat?, intWithin?, if_pos ⟨by omega, by omega⟩]
  rfl

/-- A number of more than 64 bits is not read. -/
theorem Json.lt_of_nat? {N : Type} {j : Json N} {n : Nat} (read : j.nat? 64 = some n) :
    n < Width.capacity 64 := by
  cases j with
  | int i =>
    rw [nat?, intWithin?] at read
    split at read
    · next hRange =>
      obtain rfl := Option.some.inj read
      omega
    · cases read
  | null | bool | float | string | array | object => cases read

/-- A time that a message can carry. -/
def Timestamp.Valid (t : Timestamp) : Prop :=
  Timestamp.lowest ≤ t.nanos ∧ t.nanos < Timestamp.beyond

/-- A time that messages can carry is read as it was written. -/
theorem Timestamp.ofJson?_int {N : Type} {t : Timestamp} (valid : t.Valid) :
    Timestamp.ofJson? (Json.int t.nanos : Json N) = some t := by
  rw [Timestamp.ofJson?, Json.intWithin?, if_pos ⟨valid.1, valid.2⟩]
  rfl

/-- Only a time that messages can carry is ever read. -/
theorem Timestamp.valid_of_ofJson? {N : Type} {j : Json N} {t : Timestamp}
    (read : Timestamp.ofJson? j = some t) : t.Valid := by
  cases j with
  | int i =>
    rw [Timestamp.ofJson?, Json.intWithin?] at read
    split at read
    · next hRange =>
      obtain rfl := Option.some.inj read
      exact hRange
    · cases read
  | null | bool | float | string | array | object => cases read

instance : ReflBEq Timestamp where
  rfl {t} := beq_self_eq_true t.nanos

namespace AckStatus

/-- A status that is not written like another one. -/
def Plain (s : AckStatus) : Prop :=
  s ≠ .other "enabled" ∧ s ≠ .other "disabled"

/-- **Statuses.** A status is read as it was written exactly if no other one is written so. -/
theorem ofText_text (s : AckStatus) : ofText s.text = s ↔ s.Plain := by
  cases s with
  | enabled => simp [ofText, text, Plain]
  | disabled => simp [ofText, text, Plain]
  | other word =>
    simp only [ofText, text, Plain, ne_eq, other.injEq]
    by_cases hEnabled : word = "enabled"
    · simp [hEnabled]
    · by_cases hDisabled : word = "disabled"
      · simp [hDisabled]
      · simp [hEnabled, hDisabled]

/-- Any word is a status, if only as one that is not known. -/
theorem ofJson?_string {N : Type} (word : String) :
    AckStatus.ofJson? (Json.string word : Json N) = some (.ofText word) :=
  rfl

/-- No word is read as a status that is written like another one. -/
theorem plain_ofText (word : String) : (ofText word).Plain := by
  unfold ofText
  split
  · exact ⟨nofun, nofun⟩
  · next h =>
    split
    · exact ⟨nofun, nofun⟩
    · next h' => exact ⟨fun hSame => h (other.inj hSame), fun hSame => h' (other.inj hSame)⟩

end AckStatus

/-! ## Agents and loads -/

variable {N : Type}

/-- What is told of an agent comes back, in whatever order its four names stand. -/
theorem AgentInfo.ofJson?_toJson (a : AgentInfo) :
    AgentInfo.ofJson? (a.toJson : Json N).sorted = some a := by
  rw [toJson, ofJson?, Json.fields?_sorted (by simp)]
  simp [List.lookup, Json.required, Json.optional, Json.string?]

/-- What holds of the loads of agents wherever the program counts them. -/
structure StatusReport.Valid (r : StatusReport) : Prop where
  instrumentations : r.instrumentations < Width.capacity 64
  instrumenters : ∀ s ∈ r.instrumenters,
    s.metrics < Width.capacity 64 ∧ s.instrumentations < Width.capacity 64
  aggregators : ∀ s ∈ r.aggregators, s.instrumentations < Width.capacity 64

/-- The load of an instrumenter from the fields of a record. -/
theorem InstrumenterStatus.ofJson?_of_fields {j host metrics load : Json N} {s : InstrumenterStatus}
    (fields : j.fields? ["hostname", "nmetrics_avail", "ninsts"] =
      some [some host, some metrics, some load])
    (hostname : host.string? = some s.hostname) (available : metrics.nat? 64 = some s.metrics)
    (running : load.nat? 64 = some s.instrumentations) : ofJson? j = some s := by
  rw [ofJson?, fields]
  simp only [Json.required, hostname, available, running]
  rfl

/-- The line of an instrumenter comes back if its two counts have 64 bits. -/
theorem InstrumenterStatus.ofJson?_toJson {s : InstrumenterStatus}
    (metrics : s.metrics < Width.capacity 64) (load : s.instrumentations < Width.capacity 64) :
    InstrumenterStatus.ofJson? (s.toJson : Json N).sorted = some s := by
  refine ofJson?_of_fields ?_ (Json.string?_string _) (Json.nat?_int metrics) (Json.nat?_int load)
  rw [toJson, Json.fields?_sorted (by simp)]
  simp [List.lookup]

/-- The load of an aggregator from the fields of a record. -/
theorem AggregatorStatus.ofJson?_of_fields {j host load : Json N} {s : AggregatorStatus}
    (fields : j.fields? ["hostname", "ninsts"] = some [some host, some load])
    (hostname : host.string? = some s.hostname)
    (running : load.nat? 64 = some s.instrumentations) : ofJson? j = some s := by
  rw [ofJson?, fields]
  simp only [Json.required, hostname, running]
  rfl

/-- The line of an aggregator comes back if its count has 64 bits. -/
theorem AggregatorStatus.ofJson?_toJson {s : AggregatorStatus}
    (load : s.instrumentations < Width.capacity 64) :
    AggregatorStatus.ofJson? (s.toJson : Json N).sorted = some s := by
  refine ofJson?_of_fields ?_ (Json.string?_string _) (Json.nat?_int load)
  rw [toJson, Json.fields?_sorted (by simp)]
  simp [List.lookup]

/-- A status report from the fields of a record. -/
theorem StatusReport.ofJson?_of_fields {j name count instrumenters aggregators : Json N}
    {r : StatusReport}
    (fields : j.fields? ["component", "ninstrumentations", "instrumenters", "aggregators"] =
      some [some name, some count, some instrumenters, some aggregators])
    (component : name.string? = some r.component)
    (running : count.nat? 64 = some r.instrumentations)
    (loads : instrumenters.list? InstrumenterStatus.ofJson? = some r.instrumenters)
    (loads' : aggregators.list? AggregatorStatus.ofJson? = some r.aggregators) :
    ofJson? j = some r := by
  rw [ofJson?, fields]
  simp only [Json.required, component, running, loads, loads']
  rfl

/-- A report comes back if its counts fit, with its lines in their order. -/
theorem StatusReport.ofJson?_members {r : StatusReport} (valid : r.Valid) :
    StatusReport.ofJson? (Json.object r.members : Json N).sorted = some r := by
  have hInstrumenters : ∀ s ∈ r.instrumenters,
      InstrumenterStatus.ofJson? (s.toJson : Json N).sorted = some s := fun s hs =>
    InstrumenterStatus.ofJson?_toJson (valid.instrumenters s hs).1 (valid.instrumenters s hs).2
  have hAggregators : ∀ s ∈ r.aggregators,
      AggregatorStatus.ofJson? (s.toJson : Json N).sorted = some s := fun s hs =>
    AggregatorStatus.ofJson?_toJson (valid.aggregators s hs)
  refine ofJson?_of_fields ?_ (Json.string?_string _) (Json.nat?_int valid.instrumentations)
    (Json.list?_sorted hInstrumenters) (Json.list?_sorted hAggregators)
  rw [Json.fields?_sorted (by simp [members]), members]
  simp [List.lookup]

/-! ## Catalogs -/

/-- The two arities have names of their own. -/
theorem FieldArity.ofJson?_name (a : FieldArity) :
    FieldArity.ofJson? (Json.string a.name : Json N) = some a := by
  cases a <;> simp [FieldArity.ofJson?, FieldArity.name, Json.choice?, List.lookup]

/-- The description of a field comes back. -/
theorem FieldInfo.ofJson?_toJson (f : FieldInfo) :
    FieldInfo.ofJson? (f.toJson : Json N).sorted = some f := by
  rw [toJson, ofJson?, Json.fields?_sorted (by simp)]
  simp [List.lookup, Json.required, Json.string?, FieldArity.ofJson?_name]

/-- The description of a statistic comes back, if its fields are a table in order. -/
theorem StatInfo.ofJson?_toJson {s : StatInfo} (fields : s.fields.Ascending) :
    StatInfo.ofJson? (s.toJson : Json N).sorted = some s := by
  have hFields := Json.table?_sorted fields fun e _ => FieldInfo.ofJson?_toJson (N := N) e.2
  rw [toJson, ofJson?, Json.fields?_sorted (by simp)]
  simp [List.lookup, Json.required, Json.optional, Json.string?, hFields]

/-- The description of a module comes back, if it is a table in order at both of its levels. -/
theorem ModuleInfo.ofJson?_toJson {m : ModuleInfo} (stats : m.stats.Ascending)
    (fields : ∀ e ∈ m.stats, e.2.fields.Ascending) :
    ModuleInfo.ofJson? (m.toJson : Json N).sorted = some m := by
  have hStats := Json.table?_sorted stats fun e he => StatInfo.ofJson?_toJson (N := N) (fields e he)
  rw [toJson, ofJson?, Json.fields?_sorted (by simp)]
  simp [List.lookup, Json.required, Json.optional, Json.string?, hStats]

/-- **Catalogs.** A catalog that is in order comes through. -/
theorem Catalog.ofJson?_toJson {c : Catalog} (ordered : c.Ordered) :
    Catalog.ofJson? (c.toJson : Json N).sorted = some c := by
  obtain ⟨hModules, hEntries⟩ := ordered_iff.mp ordered
  exact Json.table?_sorted hModules fun e he =>
    ModuleInfo.ofJson?_toJson (hEntries e he).1 (hEntries e he).2

/-! ## What was read is valid -/

/-- A table that was read is in order, and each of its values was read. -/
theorem Json.of_table? {α : Type} {read : Json N → Option α} {j : Json N} {t : Table String α}
    (found : table? read j = some t) : t.Ascending ∧ ∀ e ∈ t, ∃ part, read part = some e.2 := by
  cases j with
  | object members =>
    obtain ⟨pairs, hPairs, rfl⟩ := Option.map_eq_some_iff.mp found
    refine ⟨Table.ascending_ofList pairs, fun e he => ?_⟩
    obtain ⟨p, hp, hSame⟩ := Table.mem_ofList he
    obtain ⟨m, -, hRead⟩ := Json.exists_of_mem_mapM hPairs hp
    obtain ⟨v, hValue, rfl⟩ := Option.map_eq_some_iff.mp hRead
    exact ⟨m.2, hSame ▸ hValue⟩
  | null | bool | int | float | string | array => cases found

/-- A table that may be left out is in order. -/
theorem Json.ascending_of_optional {α : Type} {read : Json N → Option α} {part : Option (Json N)}
    {t : Table String α} (found : optional (table? read) [] part = some t) :
    t.Ascending ∧ ∀ e ∈ t, ∃ j, read j = some e.2 := by
  cases part with
  | none =>
    obtain rfl := Option.some.inj found
    exact ⟨Table.ascending_nil, nofun⟩
  | some j => exact of_table? found

/-- The fields of a statistic that was read are in order, in whatever order they were written. -/
theorem StatInfo.ascending_of_ofJson? {j : Json N} {s : StatInfo} (read : ofJson? j = some s) :
    s.fields.Ascending := by
  rw [ofJson?] at read
  split at read
  · next part _ =>
    obtain ⟨_, -, read⟩ := Option.bind_eq_some_iff.mp read
    obtain ⟨_, -, read⟩ := Option.bind_eq_some_iff.mp read
    obtain ⟨fields, hFields, read⟩ := Option.bind_eq_some_iff.mp read
    obtain rfl := Option.some.inj read
    exact (Json.ascending_of_optional hFields).1
  · cases read

/-- The statistics of a module that was read are in order, and the fields of each. -/
theorem ModuleInfo.ascending_of_ofJson? {j : Json N} {m : ModuleInfo} (read : ofJson? j = some m) :
    m.stats.Ascending ∧ ∀ e ∈ m.stats, e.2.fields.Ascending := by
  rw [ofJson?] at read
  split at read
  · obtain ⟨_, -, read⟩ := Option.bind_eq_some_iff.mp read
    obtain ⟨stats, hStats, read⟩ := Option.bind_eq_some_iff.mp read
    obtain rfl := Option.some.inj read
    obtain ⟨hAscending, hEntries⟩ := Json.ascending_of_optional hStats
    refine ⟨hAscending, fun e he => ?_⟩
    obtain ⟨part, hPart⟩ := hEntries e he
    exact StatInfo.ascending_of_ofJson? hPart
  · cases read

/-- **Catalogs.** A catalog that was read, or was left out, is in order. -/
theorem Catalog.ordered_of_ofJson? {part : Option (Json N)} {c : Catalog}
    (read : Json.optional Catalog.ofJson? [] part = some c) : c.Ordered := by
  obtain ⟨hAscending, hEntries⟩ := Json.ascending_of_optional read
  refine ordered_iff.mpr ⟨hAscending, fun e he => ?_⟩
  obtain ⟨j, hRead⟩ := hEntries e he
  exact ModuleInfo.ascending_of_ofJson? hRead

/-- The items of a list that was read were each read. -/
theorem Json.exists_of_mem_list? {α : Type} {read : Json N → Option α} {j : Json N} {xs : List α}
    (found : list? read j = some xs) {x : α} (mem : x ∈ xs) : ∃ part, read part = some x := by
  obtain ⟨items, -, hItems⟩ := Option.bind_eq_some_iff.mp found
  obtain ⟨part, -, hPart⟩ := exists_of_mem_mapM hItems mem
  exact ⟨part, hPart⟩

/-- What is read of a field that has to be there is read from it. -/
theorem Json.exists_of_required {α : Type} {read : Json N → Option α} {part : Option (Json N)}
    {a : α} (found : required read part = some a) : ∃ j, part = some j ∧ read j = some a := by
  cases part with
  | none => cases found
  | some j => exact ⟨j, rfl, found⟩

/-- The counts in a line that was read have 64 bits. -/
theorem InstrumenterStatus.valid_of_ofJson? {j : Json N} {s : InstrumenterStatus}
    (read : ofJson? j = some s) :
    s.metrics < Width.capacity 64 ∧ s.instrumentations < Width.capacity 64 := by
  rw [ofJson?] at read
  split at read
  · obtain ⟨_, -, read⟩ := Option.bind_eq_some_iff.mp read
    obtain ⟨metrics, hMetrics, read⟩ := Option.bind_eq_some_iff.mp read
    obtain ⟨load, hLoad, read⟩ := Option.bind_eq_some_iff.mp read
    obtain rfl := Option.some.inj read
    obtain ⟨_, -, hMetrics⟩ := Json.exists_of_required hMetrics
    obtain ⟨_, -, hLoad⟩ := Json.exists_of_required hLoad
    exact ⟨Json.lt_of_nat? hMetrics, Json.lt_of_nat? hLoad⟩
  · cases read

/-- The count in a line that was read has 64 bits. -/
theorem AggregatorStatus.valid_of_ofJson? {j : Json N} {s : AggregatorStatus}
    (read : ofJson? j = some s) : s.instrumentations < Width.capacity 64 := by
  rw [ofJson?] at read
  split at read
  · obtain ⟨_, -, read⟩ := Option.bind_eq_some_iff.mp read
    obtain ⟨load, hLoad, read⟩ := Option.bind_eq_some_iff.mp read
    obtain rfl := Option.some.inj read
    obtain ⟨_, -, hLoad⟩ := Json.exists_of_required hLoad
    exact Json.lt_of_nat? hLoad
  · cases read

/-- **Status reports.** The counts of a report that was read fit into 64 bits. -/
theorem StatusReport.valid_of_ofJson? {j : Json N} {r : StatusReport} (read : ofJson? j = some r) :
    r.Valid := by
  rw [ofJson?] at read
  split at read
  · obtain ⟨_, -, read⟩ := Option.bind_eq_some_iff.mp read
    obtain ⟨count, hCount, read⟩ := Option.bind_eq_some_iff.mp read
    obtain ⟨instrumenters, hInstrumenters, read⟩ := Option.bind_eq_some_iff.mp read
    obtain ⟨aggregators, hAggregators, read⟩ := Option.bind_eq_some_iff.mp read
    obtain rfl := Option.some.inj read
    obtain ⟨_, -, hCount⟩ := Json.exists_of_required hCount
    obtain ⟨_, -, hInstrumenters⟩ := Json.exists_of_required hInstrumenters
    obtain ⟨_, -, hAggregators⟩ := Json.exists_of_required hAggregators
    refine ⟨Json.lt_of_nat? hCount, fun s hs => ?_, fun s hs => ?_⟩
    · obtain ⟨_, hRead⟩ := Json.exists_of_mem_list? hInstrumenters hs
      exact InstrumenterStatus.valid_of_ofJson? hRead
    · obtain ⟨_, hRead⟩ := Json.exists_of_mem_list? hAggregators hs
      exact AggregatorStatus.valid_of_ofJson? hRead
  · cases read

/-! ## Depth -/

theorem AgentInfo.depth_toJson (a : AgentInfo) : (a.toJson : Json N).depth = 1 := by
  simp [toJson, Json.depth, Json.depthMembers]

/-- A table is one deeper than its deepest value. -/
theorem Table.depth_toJson {α : Type} {write : α → Json N} {t : Table String α} {n : Nat}
    (values : ∀ v, (write v).depth ≤ n) : (Table.toJson write t).depth ≤ n + 1 := by
  refine Json.depth_object_le.mpr fun m hm => ?_
  obtain ⟨e, -, rfl⟩ := List.mem_map.mp hm
  exact values e.2

/-- A statistic nests its table of fields, and that each field. -/
theorem StatInfo.depth_toJson (s : StatInfo) : (s.toJson : Json N).depth ≤ 3 := by
  have hField : ∀ f : FieldInfo, (f.toJson : Json N).depth ≤ 1 := fun f => by
    simp [FieldInfo.toJson, Json.depth, Json.depthMembers]
  have hFields := Table.depth_toJson (t := s.fields) hField
  refine Json.depth_object_le.mpr ?_
  simpa [Json.depth] using hFields

/-- A module nests its table of statistics, two levels more. -/
theorem ModuleInfo.depth_toJson (m : ModuleInfo) : (m.toJson : Json N).depth ≤ 5 := by
  have hStats := Table.depth_toJson (t := m.stats) (StatInfo.depth_toJson (N := N))
  refine Json.depth_object_le.mpr ?_
  simpa [Json.depth] using hStats

theorem Catalog.depth_toJson (c : Catalog) : (c.toJson : Json N).depth ≤ 6 :=
  Table.depth_toJson ModuleInfo.depth_toJson

/-- The deepest member of a report is a list of lines. -/
theorem StatusReport.depth_members (r : StatusReport) :
    ∀ m ∈ (r.members : List (String × Json N)), m.2.depth ≤ 2 := by
  have hInstrumenters :
      (Json.array (r.instrumenters.map InstrumenterStatus.toJson) : Json N).depth ≤ 2 := by
    refine Json.depth_array_le.mpr fun j hj => ?_
    obtain ⟨s, -, rfl⟩ := List.mem_map.mp hj
    simp [InstrumenterStatus.toJson, Json.depth, Json.depthMembers]
  have hAggregators :
      (Json.array (r.aggregators.map AggregatorStatus.toJson) : Json N).depth ≤ 2 := by
    refine Json.depth_array_le.mpr fun j hj => ?_
    obtain ⟨s, -, rfl⟩ := List.mem_map.mp hj
    simp [AggregatorStatus.toJson, Json.depth, Json.depthMembers]
  simp only [members, List.forall_mem_cons]
  exact ⟨Nat.zero_le _, Nat.zero_le _, hInstrumenters, hAggregators, List.forall_mem_nil _⟩

/-! ## Texts -/

/-- A whole number of 64 bits is told from its text. -/
theorem Json.legible_nat {n : Nat} (fits : n < Width.capacity 64) :
    (Json.int n : Json Float).Legible := by
  have hSign : (0 : Int) ≤ Width.capacity 63 := Int.natCast_nonneg _
  exact ⟨by omega, by omega⟩

/-- The nanoseconds of a time are told from their text, with their sign. -/
theorem Timestamp.Valid.legible {t : Timestamp} (valid : t.Valid) :
    (Json.int t.nanos : Json Float).Legible := by
  have hBeyond : Timestamp.beyond ≤ (Width.capacity 64 : Nat) := by decide
  exact ⟨valid.1, valid.2.trans_le hBeyond⟩

theorem AgentInfo.legible_toJson (a : AgentInfo) : (a.toJson : Json Float).Legible := by
  simp [toJson, Json.legible_object, Json.Legible]

/-- A table can be told from its text if each of its values can. -/
theorem Table.legible_toJson {α : Type} {write : α → Json Float} {t : Table String α}
    (values : ∀ v, (write v).Legible) : (Table.toJson write t).Legible := by
  refine Json.legible_object.mpr fun m hm => ?_
  obtain ⟨e, -, rfl⟩ := List.mem_map.mp hm
  exact values e.2

/-- A catalog holds texts alone, so there is nothing in it that could be misread. -/
theorem Catalog.legible_toJson (c : Catalog) : (c.toJson : Json Float).Legible := by
  have hField : ∀ f : FieldInfo, (f.toJson : Json Float).Legible := fun f => by
    simp [FieldInfo.toJson, Json.legible_object, Json.Legible]
  have hStat : ∀ s : StatInfo, (s.toJson : Json Float).Legible := fun s => by
    simp [StatInfo.toJson, Json.legible_object, Json.Legible, Table.legible_toJson hField]
  have hModule : ∀ m : ModuleInfo, (m.toJson : Json Float).Legible := fun m => by
    simp [ModuleInfo.toJson, Json.legible_object, Json.Legible, Table.legible_toJson hStat]
  exact Table.legible_toJson hModule

/-- The only numbers of a report are its counts. -/
theorem StatusReport.legible_members {r : StatusReport} (valid : r.Valid) :
    ∀ m ∈ (r.members : List (String × Json Float)), m.2.Legible := by
  simp only [members, List.forall_mem_cons]
  refine ⟨trivial, Json.legible_nat valid.instrumentations, Json.legible_array.mpr ?_,
    Json.legible_array.mpr ?_, nofun⟩
  · intro j hj
    obtain ⟨s, hs, rfl⟩ := List.mem_map.mp hj
    obtain ⟨hMetrics, hLoad⟩ := valid.instrumenters s hs
    rw [InstrumenterStatus.toJson, Json.legible_object]
    simp only [List.forall_mem_cons]
    exact ⟨trivial, Json.legible_nat hMetrics, Json.legible_nat hLoad, nofun⟩
  · intro j hj
    obtain ⟨s, hs, rfl⟩ := List.mem_map.mp hj
    have hLoad := valid.aggregators s hs
    rw [AggregatorStatus.toJson, Json.legible_object]
    simp only [List.forall_mem_cons]
    exact ⟨trivial, Json.legible_nat hLoad, nofun⟩

end FleetMetrics
