import Mathlib
import FleetMetrics.Message.Wire
import FleetMetrics.Proofs.Message.Parts
import FleetMetrics.Proofs.Message.Values

/-!
# Messages on the wire

A message is written as its kind and its parts, and the kind decides how the parts are read. A kind
could be read by the rules of another one, a part could be asked for by another name than the one it
was written under, a part that may be left out could be taken for missing, or a part could have the
name `kind`. None of this happens: each of the seventeen kinds is read as what it was written as.

Two things can still go wrong. A number that is not finite makes the message unreadable
(`Message.ofJson?_toJson`), and a status that is written like another one arrives as the other one
(`Message.received_beq_iff`).

Main results:

* `Message.ofJson?_toJson` — what is read of a message that was written.
* `Message.arrived_of_ofJson?` — what was read is valid and plain, and is not written much deeper.
* `Message.legible_toJson` — a message can be told from its text if the numbers in it can.
* `Message.received_beq_iff` — when the message that arrives equals the one that was sent.
-/

namespace FleetMetrics

variable {N : Type}

namespace Message

/-- The numbers in a message. -/
def numbers : Message N → List N
  | .enableInstrumentation _ _ _ _ predicate _ => predicate.numbers
  | .data _ _ value => value.numbers
  | _ => []

/-- The status that a message carries. -/
def status? : Message N → Option AckStatus
  | .instrumenterError _ _ reported => some reported
  | .ack _ _ _ reported _ => some reported
  | _ => none

/-- No status in the message is written like another one. -/
def Plain (m : Message N) : Prop :=
  ∀ s ∈ m.status?, s.Plain

/-- A message without a status has none that could be misread. -/
theorem plain_of_status?_eq_none {m : Message N} (silent : m.status? = none) : m.Plain := by
  simp [Plain, silent]

/-- What the types of the parts guarantee: whole numbers fit into 64 bits, times can be carried, and
tables are in order. -/
def Valid [Arithmetic N] : Message N → Prop
  | .statusAck report => report.Valid
  | .enableInstrumentation id .. => id < Width.capacity 64
  | .enableAggregation id _ => id < Width.capacity 64
  | .disable _ id => id < Width.capacity 64
  | .instrumenterOnline _ modules => modules.Ordered
  | .instrumenterError id .. => id < Width.capacity 64
  | .ack _ _ id .. => id < Width.capacity 64
  | .data id sampledAt value => id < Width.capacity 64 ∧ sampledAt.Valid ∧ value.InOrder
  | .ping | .pingAck | .status | .aggregatorOnline _ | .log _ => True

variable [Arithmetic N]

/-- The message that arrives when a message is sent. -/
def received : Message N → Message N
  | .instrumenterError id error reported => .instrumenterError id error (.ofText reported.text)
  | .ack action work id reported error => .ack action work id (.ofText reported.text) error
  | .data id sampledAt value => .data id sampledAt value.received
  | m => m

/-! ## Messages from their fields -/

section Fields

variable {j : Json N} {id : InstId} {idPart : Json N}

omit [Arithmetic N] in
/-- A disable is read from its one field, for either kind of agent. -/
theorem disableOfJson?_of_fields (work : Work)
    (fields : j.fields? ["inst_id"] = some [some idPart])
    (about : InstId.ofJson? idPart = some id) :
    disableOfJson? work j = some (.disable work id) := by
  rw [disableOfJson?, fields]
  simp only [Json.required, about]
  rfl

omit [Arithmetic N] in
/-- An acknowledgement is read from its three fields; the text of an error may be missing. -/
theorem ackOfJson?_of_fields {word : Json N} {reported : AckStatus} {error : Option String}
    (action : Action) (work : Work)
    (fields : j.fields? ["inst_id", "status", "error"] =
      some [some idPart, some word, error.map .string])
    (about : InstId.ofJson? idPart = some id) (reports : AckStatus.ofJson? word = some reported) :
    ackOfJson? action work j = some (.ack action work id reported error) := by
  rw [ackOfJson?, fields]
  simp only [Json.required, about, reports]
  cases error <;> rfl

/-- The command for an instrumenter is read from its six fields, if the predicate among them can be.
-/
theorem enableInstrumentation_of_fields {keyPart modulePart statPart filter path : Json N}
    {key module stat : String} {predicate : Option (Predicate N)} {decomposition : List String}
    (fields : j.fields? ["inst_id", "inst_key", "module", "stat", "predicate", "decomposition"] =
      some [some idPart, some keyPart, some modulePart, some statPart, some filter, some path])
    (about : InstId.ofJson? idPart = some id) (keyed : keyPart.string? = some key)
    (within : modulePart.string? = some module) (measured : statPart.string? = some stat)
    (filtered : Predicate.ofJson? filter = predicate)
    (along : path.strings? = some decomposition) :
    ofMembers? "cmd-enable_instrumentation" j =
      predicate.map fun p => .enableInstrumentation id key module stat p decomposition := by
  unfold ofMembers?
  simp only [enableInstrumentationOfJson?, fields, Json.required, Json.optional, about,
    keyed, within, measured, filtered, along]
  cases predicate <;> rfl

/-- The command for an aggregator is read from its two fields. -/
theorem enableAggregation_of_fields {keyPart : Json N} {key : String}
    (fields : j.fields? ["inst_id", "key"] = some [some idPart, some keyPart])
    (about : InstId.ofJson? idPart = some id) (keyed : keyPart.string? = some key) :
    ofMembers? "cmd-enable_aggregation" j = some (.enableAggregation id key) := by
  unfold ofMembers?
  simp only [fields, Json.required, about, keyed]
  rfl

/-- The notice of an instrumenter is read from the description of the agent and the list of what it
offers. -/
theorem instrumenterOnline_of_fields {agentPart modulesPart : Json N} {agent : AgentInfo}
    {modules : Catalog}
    (fields : j.fields? ["agent", "modules"] = some [some agentPart, some modulesPart])
    (described : AgentInfo.ofJson? agentPart = some agent)
    (listed : Catalog.ofJson? modulesPart = some modules) :
    ofMembers? "notify-instrumenter_online" j = some (.instrumenterOnline agent modules) := by
  unfold ofMembers?
  simp only [fields, Json.required, Json.optional, described, listed]
  rfl

/-- The notice of an aggregator is read from the description of the agent alone. -/
theorem aggregatorOnline_of_fields {agentPart : Json N} {agent : AgentInfo}
    (fields : j.fields? ["agent"] = some [some agentPart])
    (described : AgentInfo.ofJson? agentPart = some agent) :
    ofMembers? "notify-aggregator_online" j = some (.aggregatorOnline agent) := by
  unfold ofMembers?
  simp only [fields, Json.required, described]
  rfl

/-- A log line is read from its text. -/
theorem log_of_fields {textPart : Json N} {text : String}
    (fields : j.fields? ["message"] = some [some textPart])
    (written : textPart.string? = some text) : ofMembers? "notify-log" j = some (.log text) := by
  unfold ofMembers?
  simp only [fields, Json.required, written]
  rfl

/-- A report of an error is read from its three fields. -/
theorem instrumenterError_of_fields {errorPart word : Json N} {error : String}
    {reported : AckStatus}
    (fields : j.fields? ["inst_id", "error", "status"] =
      some [some idPart, some errorPart, some word])
    (about : InstId.ofJson? idPart = some id) (faulty : errorPart.string? = some error)
    (reports : AckStatus.ofJson? word = some reported) :
    ofMembers? "notify-instrumenter_error" j = some (.instrumenterError id error reported) := by
  unfold ofMembers?
  simp only [fields, Json.required, about, faulty, reports]
  rfl

/-- A report of data is read from its three fields, if the value among them can be. -/
theorem data_of_fields {timePart valuePart : Json N} {sampledAt : Timestamp}
    {value : Option (ReducedValue N)}
    (fields : j.fields? ["inst_id", "sampled_at", "value"] =
      some [some idPart, some timePart, some valuePart])
    (about : InstId.ofJson? idPart = some id) (timed : Timestamp.ofJson? timePart = some sampledAt)
    (valued : ReducedValue.ofJson? valuePart = value) :
    ofMembers? "data" j = value.map fun v => .data id sampledAt v := by
  unfold ofMembers?
  simp only [fields, Json.required, about, timed, valued]
  cases value <;> rfl

end Fields

/-! ## Messages from their members -/

/-- Members have names of their own, none of which is the name of the kind. -/
theorem names_members (m : Message N) :
    (m.members.map (·.1)).Nodup ∧ "kind" ∉ m.members.map (·.1) := by
  cases m with
  | ack action work id reported error => cases error <;> simp [members]
  | statusAck report => simp [members, StatusReport.members]
  | _ => simp [members]

/-- **Members.** Under its kind a valid message is read from its members as it was written, but for
its status and the weights in its value, unless a number in it is not finite. -/
theorem ofMembers?_members [Std.TransOrd (Bound N)] {m : Message N} (valid : m.Valid) :
    ofMembers? m.kind (Json.object m.members).sorted =
      if allFinite m.numbers then some m.received else none := by
  -- every kind looks its fields up by name, so the order they were written in does not matter
  have hFields := Json.fields?_sorted (names_members m).1
  cases m with
  | ping | pingAck | status => rfl
  | statusAck report =>
    have hReport := StatusReport.ofJson?_members (N := N) valid
    exact congrArg (Option.map Message.statusAck) hReport
  | enableInstrumentation id key module stat predicate decomposition =>
    have hRead := Predicate.ofJson?_toJson predicate
    refine (enableInstrumentation_of_fields (hFields _) (Json.nat?_int valid)
      (Json.string?_string key) (Json.string?_string module) (Json.string?_string stat) hRead
      (Json.strings?_sorted decomposition)).trans ?_
    rw [numbers]
    cases allFinite predicate.numbers <;> rfl
  | enableAggregation id key =>
    exact enableAggregation_of_fields (hFields _) (Json.nat?_int valid) (Json.string?_string key)
  | disable work id =>
    have hRead := disableOfJson?_of_fields work (hFields ["inst_id"]) (Json.nat?_int valid)
    cases work <;> exact hRead
  | instrumenterOnline agent modules =>
    exact instrumenterOnline_of_fields (hFields _) (AgentInfo.ofJson?_toJson agent)
      (Catalog.ofJson?_toJson valid)
  | aggregatorOnline agent =>
    have hAgent := AgentInfo.ofJson?_toJson (N := N) agent
    exact aggregatorOnline_of_fields (hFields _) hAgent
  | log text => exact log_of_fields (hFields _) (Json.string?_string text)
  | instrumenterError id error reported =>
    have hWord := AckStatus.ofJson?_string (N := N) reported.text
    have hParts := hFields ["inst_id", "error", "status"]
    exact instrumenterError_of_fields hParts (Json.nat?_int valid) (Json.string?_string error)
      hWord
  | ack action work id reported error =>
    have hWord := AckStatus.ofJson?_string (N := N) reported.text
    have hRead : ackOfJson? action work
        (Json.object (ack (N := N) action work id reported error).members).sorted =
          some (.ack action work id (.ofText reported.text) error) := by
      refine ackOfJson?_of_fields action work ?_ (Json.nat?_int valid) hWord
      rw [hFields]
      cases error <;> rfl
    cases action <;> cases work <;> exact hRead
  | data id sampledAt value =>
    obtain ⟨hId, hTime, hValue⟩ := valid
    have hRead := ReducedValue.ofJson?_toJson hValue
    refine (data_of_fields (hFields _) (Json.nat?_int hId) (Timestamp.ofJson?_int hTime)
      hRead).trans ?_
    rw [numbers]
    cases allFinite value.numbers <;> rfl

/-- **Messages.** A valid message is read as it was written, but for its status and the weights in
its value, unless a number in it is not finite. -/
theorem ofJson?_toJson [Std.TransOrd (Bound N)] {m : Message N} (valid : m.Valid) :
    ofJson? m.toJson.sorted = if allFinite m.numbers then some m.received else none := by
  obtain ⟨hDistinct, hFree⟩ := names_members m
  rw [ofJson?, toJson, Json.tagged?_sorted hDistinct hFree]
  exact ofMembers?_members valid

/-! ## What was read -/

/-- What holds of a message that was read, with all of its parts shallower than `n`. -/
structure Arrived (n : Nat) (m : Message N) : Prop where
  valid : m.Valid
  plain : m.Plain
  shallow : ∀ part ∈ m.members, part.2.depth < n

section Reading

variable {j : Json N} {m : Message N}

omit [Arithmetic N] in
/-- A number that a message has to have fits into 64 bits. -/
theorem lt_of_required {part : Option (Json N)} {id : InstId}
    (read : Json.required InstId.ofJson? part = some id) : id < Width.capacity 64 := by
  obtain ⟨_, -, hRead⟩ := Json.exists_of_required read
  exact Json.lt_of_nat? hRead

omit [Arithmetic N] in
/-- A status that was read is not written like another one. -/
theorem plain_of_required {part : Option (Json N)} {reported : AckStatus}
    (read : Json.required AckStatus.ofJson? part = some reported) : reported.Plain := by
  obtain ⟨_, -, hRead⟩ := Json.exists_of_required read
  obtain ⟨word, -, rfl⟩ := Option.map_eq_some_iff.mp hRead
  exact AckStatus.plain_ofText word

omit [Arithmetic N] in
/-- A message without fields is read as that message. -/
theorem eq_of_bareOfJson? {bare : Message N} (read : bareOfJson? bare j = some m) : m = bare := by
  cases j with
  | object => exact (Option.some.inj read).symm
  | array items =>
    cases items with
    | nil => exact (Option.some.inj read).symm
    | cons => cases read
  | null | bool | int | float | string => cases read

/-- A disable that was read is as its type wants it, and no deeper than what it was read from. -/
theorem arrived_of_disableOfJson? {work : Work} (read : disableOfJson? work j = some m) :
    m.Arrived (max 7 j.depth) := by
  rw [disableOfJson?] at read
  split at read
  · obtain ⟨id, hId, rfl⟩ := Option.map_eq_some_iff.mp read
    exact ⟨lt_of_required hId, plain_of_status?_eq_none rfl, by simp [members, Json.depth]⟩
  · cases read

/-- An acknowledgement that was read has a number of 64 bits and a plain status. -/
theorem arrived_of_ackOfJson? {action : Action} {work : Work}
    (read : ackOfJson? action work j = some m) : m.Arrived (max 7 j.depth) := by
  rw [ackOfJson?] at read
  split at read
  · obtain ⟨id, hId, read⟩ := Option.bind_eq_some_iff.mp read
    obtain ⟨reported, hReported, read⟩ := Option.bind_eq_some_iff.mp read
    obtain ⟨error, -, read⟩ := Option.bind_eq_some_iff.mp read
    obtain rfl := Option.some.inj read
    refine ⟨lt_of_required hId, fun s hs => ?_, ?_⟩
    · exact Option.some.inj hs ▸ plain_of_required hReported
    · cases error <;> simp [members, Json.depth]
  · cases read

/-- The command for an instrumenter that was read has a predicate no deeper than the one it was read
from. -/
theorem arrived_of_enableInstrumentationOfJson? (read : enableInstrumentationOfJson? j = some m) :
    m.Arrived (max 7 j.depth) := by
  rw [enableInstrumentationOfJson?] at read
  split at read
  · next part _ hFields =>
    obtain ⟨id, hId, read⟩ := Option.bind_eq_some_iff.mp read
    obtain ⟨_, -, read⟩ := Option.bind_eq_some_iff.mp read
    obtain ⟨_, -, read⟩ := Option.bind_eq_some_iff.mp read
    obtain ⟨_, -, read⟩ := Option.bind_eq_some_iff.mp read
    obtain ⟨predicate, hPredicate, read⟩ := Option.bind_eq_some_iff.mp read
    obtain ⟨decomposition, -, read⟩ := Option.bind_eq_some_iff.mp read
    obtain rfl := Option.some.inj read
    have hDeep : predicate.toJson.depth < max 7 j.depth := by
      cases part with
      | none =>
        obtain rfl := Option.some.inj hPredicate
        exact lt_max_of_lt_left (by decide : 1 < 7)
      | some j' =>
        have hPart : j'.depth < j.depth := Json.depth_lt_of_fields? hFields (by simp)
        have hAgain : predicate.toJson.depth ≤ max 1 j'.depth := Predicate.depth_toJson hPredicate
        omega
    have hStrings : (Json.array (decomposition.map .string) : Json N).depth < max 7 j.depth := by
      have hFlat : (Json.array (decomposition.map .string) : Json N).depth ≤ 1 := by
        refine Json.depth_array_le.mpr fun s hs => ?_
        obtain ⟨_, -, rfl⟩ := List.mem_map.mp hs
        exact le_rfl
      omega
    have hLeaf : 0 < max 7 j.depth := by omega
    refine ⟨lt_of_required hId, plain_of_status?_eq_none rfl, ?_⟩
    simp only [members, List.forall_mem_cons]
    exact ⟨hLeaf, hLeaf, hLeaf, hLeaf, hDeep, hStrings, List.forall_mem_nil _⟩
  · cases read

/-- The tables of an instrumenter's notice are in order once they have been read. -/
theorem arrived_of_instrumenterOnline
    (read : ofMembers? "notify-instrumenter_online" j = some m) : m.Arrived (max 7 j.depth) := by
  unfold ofMembers? at read
  simp only at read
  split at read
  · obtain ⟨agent, -, read⟩ := Option.bind_eq_some_iff.mp read
    obtain ⟨modules, hModules, read⟩ := Option.bind_eq_some_iff.mp read
    obtain rfl := Option.some.inj read
    have hAgent := AgentInfo.depth_toJson (N := N) agent
    have hCatalog := Catalog.depth_toJson (N := N) modules
    refine ⟨Catalog.ordered_of_ofJson? hModules, plain_of_status?_eq_none rfl, ?_⟩
    simp only [members, List.forall_mem_cons]
    exact ⟨by omega, by omega, List.forall_mem_nil _⟩
  · cases read

/-- A report of an error that was read has a number of 64 bits and a plain status. -/
theorem arrived_of_instrumenterError
    (read : ofMembers? "notify-instrumenter_error" j = some m) : m.Arrived (max 7 j.depth) := by
  unfold ofMembers? at read
  simp only at read
  split at read
  · obtain ⟨id, hId, read⟩ := Option.bind_eq_some_iff.mp read
    obtain ⟨error, -, read⟩ := Option.bind_eq_some_iff.mp read
    obtain ⟨reported, hReported, read⟩ := Option.bind_eq_some_iff.mp read
    obtain rfl := Option.some.inj read
    refine ⟨lt_of_required hId, fun s hs => ?_, by simp [members, Json.depth]⟩
    exact Option.some.inj hs ▸ plain_of_required hReported
  · cases read

/-- The buckets in a report of data are in order once they have been read. -/
theorem arrived_of_data [Std.TransOrd (Bound N)] (read : ofMembers? "data" j = some m) :
    m.Arrived (max 7 j.depth) := by
  unfold ofMembers? at read
  simp only at read
  split at read
  · next hFields =>
    obtain ⟨id, hId, read⟩ := Option.bind_eq_some_iff.mp read
    obtain ⟨sampledAt, hTime, read⟩ := Option.bind_eq_some_iff.mp read
    obtain ⟨value, hValue, read⟩ := Option.bind_eq_some_iff.mp read
    obtain rfl := Option.some.inj read
    obtain ⟨_, -, hTime⟩ := Json.exists_of_required hTime
    obtain ⟨part, rfl, hValue⟩ := Json.exists_of_required hValue
    have hPart : part.depth < j.depth := Json.depth_lt_of_fields? hFields (by simp)
    have hAgain := ReducedValue.depth_toJson hValue
    refine ⟨⟨lt_of_required hId, Timestamp.valid_of_ofJson? hTime,
      ReducedValue.inOrder_ofJson? hValue⟩, plain_of_status?_eq_none rfl, ?_⟩
    simp only [members, List.forall_mem_cons]
    exact ⟨by simp [Json.depth], by simp [Json.depth], by omega, List.forall_mem_nil _⟩
  · cases read

/-- **What was read.** Whatever it looked like, a message that was read is valid and plain, and its
parts are written shallower than it stood there, or less than seven deep. -/
theorem arrived_of_ofMembers? [Std.TransOrd (Bound N)] {kind : String}
    (read : ofMembers? kind j = some m) : m.Arrived (max 7 j.depth) := by
  -- one case for each kind in the order of the reader, and one for names of no kind
  unfold ofMembers? at read
  split at read
  · obtain rfl := eq_of_bareOfJson? read
    exact ⟨trivial, plain_of_status?_eq_none rfl, List.forall_mem_nil _⟩
  · obtain rfl := eq_of_bareOfJson? read
    exact ⟨trivial, plain_of_status?_eq_none rfl, List.forall_mem_nil _⟩
  · obtain rfl := eq_of_bareOfJson? read
    exact ⟨trivial, plain_of_status?_eq_none rfl, List.forall_mem_nil _⟩
  · -- a report is read from the message itself
    obtain ⟨report, hReport, rfl⟩ := Option.map_eq_some_iff.mp read
    have hFlat := StatusReport.depth_members (N := N) report
    exact ⟨StatusReport.valid_of_ofJson? hReport, plain_of_status?_eq_none rfl, fun part hPart =>
      lt_max_of_lt_left ((hFlat part hPart).trans_lt (by decide))⟩
  · exact arrived_of_enableInstrumentationOfJson? read
  · exact arrived_of_disableOfJson? read
  · -- the command to collect
    split at read
    · obtain ⟨id, hId, read⟩ := Option.bind_eq_some_iff.mp read
      obtain ⟨streamKey, -, read⟩ := Option.bind_eq_some_iff.mp read
      obtain rfl := Option.some.inj read
      exact ⟨lt_of_required hId, plain_of_status?_eq_none rfl, by simp [members, Json.depth]⟩
    · cases read
  · exact arrived_of_disableOfJson? read
  · exact arrived_of_instrumenterOnline read
  · -- an aggregator that comes online
    split at read
    · obtain ⟨agent, -, rfl⟩ := Option.map_eq_some_iff.mp read
      exact ⟨trivial, plain_of_status?_eq_none rfl, by simp [members, AgentInfo.depth_toJson]⟩
    · cases read
  · -- a line for the log
    split at read
    · obtain ⟨text, -, rfl⟩ := Option.map_eq_some_iff.mp read
      exact ⟨trivial, plain_of_status?_eq_none rfl, by simp [members, Json.depth]⟩
    · cases read
  · exact arrived_of_instrumenterError read
  · exact arrived_of_ackOfJson? read
  · exact arrived_of_ackOfJson? read
  · exact arrived_of_ackOfJson? read
  · exact arrived_of_ackOfJson? read
  · exact arrived_of_data read
  · cases read

end Reading

/-- A message that was read is written no deeper than it stood there, or at most seven deep. -/
theorem arrived_of_ofJson? [Std.TransOrd (Bound N)] {j : Json N} {m : Message N}
    (read : ofJson? j = some m) : m.Valid ∧ m.Plain ∧ m.toJson.depth ≤ max 7 j.depth := by
  obtain ⟨⟨kind, rest⟩, hTagged, hMembers⟩ := Option.bind_eq_some_iff.mp read
  have hRest := Json.depth_le_of_tagged? hTagged
  obtain ⟨hValid, hPlain, hShallow⟩ := arrived_of_ofMembers? hMembers
  refine ⟨hValid, hPlain, ?_⟩
  have hLe : m.toJson.depth ≤ (max 7 rest.depth - 1) + 1 := by
    refine Json.depth_object_le.mpr (List.forall_mem_cons.mpr ⟨Nat.zero_le _, fun part hPart => ?_⟩)
    exact Nat.le_sub_one_of_lt (hShallow part hPart)
  omega

/-! ## Texts and equality -/

/-- **Texts.** A valid message can be told from its text if its finite numbers can. -/
theorem legible_toJson {m : Message Float} (valid : m.Valid)
    (legible : LegibleNumbers m.numbers) : m.toJson.Legible := by
  refine Json.legible_object.mpr (List.forall_mem_cons.mpr ⟨trivial, ?_⟩)
  cases m with
  | ping | pingAck | status => exact nofun
  | statusAck report => exact StatusReport.legible_members valid
  | enableInstrumentation id key module stat predicate decomposition =>
    have hStrings : (Json.array (decomposition.map .string) : Json Float).Legible := by
      refine Json.legible_array.mpr fun s hs => ?_
      obtain ⟨_, -, rfl⟩ := List.mem_map.mp hs
      trivial
    simp only [members, List.forall_mem_cons]
    exact ⟨Json.legible_nat valid, trivial, trivial, trivial, Predicate.legible_toJson legible,
      hStrings, List.forall_mem_nil _⟩
  | enableAggregation id key =>
    exact List.forall_mem_cons.mpr ⟨Json.legible_nat valid, by simp [Json.Legible]⟩
  | disable work id =>
    exact List.forall_mem_cons.mpr ⟨Json.legible_nat valid, List.forall_mem_nil _⟩
  | instrumenterOnline agent modules =>
    simp only [members, List.forall_mem_cons]
    exact ⟨AgentInfo.legible_toJson agent, Catalog.legible_toJson modules, List.forall_mem_nil _⟩
  | aggregatorOnline agent =>
    exact List.forall_mem_cons.mpr ⟨AgentInfo.legible_toJson agent, List.forall_mem_nil _⟩
  | log text => exact List.forall_mem_cons.mpr ⟨trivial, List.forall_mem_nil _⟩
  | instrumenterError id error reported =>
    simp only [members, List.forall_mem_cons]
    exact ⟨Json.legible_nat valid, trivial, trivial, List.forall_mem_nil _⟩
  | ack action work id reported error =>
    cases error <;> exact List.forall_mem_cons.mpr ⟨Json.legible_nat valid, by simp [Json.Legible]⟩
  | data id sampledAt value =>
    obtain ⟨hId, hTime, -⟩ := valid
    simp only [members, List.forall_mem_cons]
    exact ⟨Json.legible_nat hId, hTime.legible, ReducedValue.legible_toJson legible,
      List.forall_mem_nil _⟩

/-- **Equality.** With finite numbers, the message that arrives equals the one that was sent exactly
if the status in it is not written like another one. -/
theorem received_beq_iff {m : Message Float} (finite : allFinite m.numbers = true) :
    (m.received == m) = true ↔ m.Plain := by
  -- only a status can come back as another one, and it does if it is not plain
  have hSame : ∀ reported : AckStatus,
      (AckStatus.ofText reported.text == reported) = true ↔ ∀ s ∈ some reported, s.Plain := by
    intro reported
    rw [beq_iff_eq, AckStatus.ofText_text]
    exact ⟨fun hPlain s hs => Option.some.inj hs ▸ hPlain, fun hAll => hAll reported rfl⟩
  cases m with
  | ping | pingAck | status => exact iff_of_true rfl (plain_of_status?_eq_none rfl)
  | statusAck report => exact iff_of_true (beq_self_eq_true report) (plain_of_status?_eq_none rfl)
  | enableInstrumentation id key module stat predicate decomposition =>
    have hPredicate : (predicate == predicate) = true := Predicate.beq_self finite
    have hParts : (id == id && (key == key && (module == module && (stat == stat &&
        (predicate == predicate && decomposition == decomposition))))) = true := by
      simp [hPredicate]
    exact iff_of_true hParts (plain_of_status?_eq_none rfl)
  | enableAggregation id key =>
    have hParts : (id == id && key == key) = true := by simp
    exact iff_of_true hParts (plain_of_status?_eq_none rfl)
  | disable work id =>
    have hParts : (work == work && id == id) = true := by simp
    exact iff_of_true hParts (plain_of_status?_eq_none rfl)
  | instrumenterOnline agent modules =>
    have hParts : (agent == agent && modules == modules) = true := by simp
    exact iff_of_true hParts (plain_of_status?_eq_none rfl)
  | aggregatorOnline agent =>
    exact iff_of_true (beq_self_eq_true agent) (plain_of_status?_eq_none rfl)
  | log text => exact iff_of_true (beq_self_eq_true text) (plain_of_status?_eq_none rfl)
  | instrumenterError id error reported =>
    have hParts : (id == id && (error == error && AckStatus.ofText reported.text == reported)) =
        (AckStatus.ofText reported.text == reported) := by simp
    exact (Eq.congr_left hParts).trans (hSame reported)
  | ack action work id reported error =>
    have hParts : (action == action && (work == work && (id == id &&
        (AckStatus.ofText reported.text == reported && error == error)))) =
          (AckStatus.ofText reported.text == reported) := by simp
    exact (Eq.congr_left hParts).trans (hSame reported)
  | data id sampledAt value =>
    have hValue : (value.received == value) = true := ReducedValue.received_beq finite
    have hParts : (id == id && (sampledAt == sampledAt && value.received == value)) = true := by
      simp [hValue]
    exact iff_of_true hParts (plain_of_status?_eq_none rfl)

end Message

end FleetMetrics
