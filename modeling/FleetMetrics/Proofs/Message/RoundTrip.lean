import Mathlib
import FleetMetrics.Proofs.Message.Kinds

/-!
# Envelopes that come through

An envelope is sent as a text and read back on the other side. Between the two stand a writer and a
reader of texts, a reader that sorts the members of every object, a reader that knows no form of a
value but its shape, and a limit on how deep a text may nest. What has to be shown is that together
they lose nothing but the two things that the format cannot carry: numbers that are not finite, and
statuses that are written like other ones. A receiver never holds such a status, so what it received
it can send on.

Not claimed is that every finite number can be told from its text. That depends on how numbers are
written and read alone; here it is asked of the numbers that occur (`LegibleNumbers`).

Main results:

* `StampedEnvelope.decode_encode` — what is decoded of an envelope that was encoded.
* `StampedEnvelope.arrived_of_decode` — what was decoded is valid and plain, and shallow enough to
  be decoded again.
* `StampedEnvelope.round_trip` — exactly which envelopes come through, and that decoded ones do.
-/

namespace FleetMetrics

/-- All numbers in the message are finite. -/
def Message.Finite (m : Message Float) : Prop :=
  ∀ x ∈ m.numbers, x.isFinite = true

namespace StampedEnvelope

variable {N : Type} [Arithmetic N]

/-- What the types of the parts guarantee. -/
structure Valid (e : StampedEnvelope N) : Prop where
  time : e.time.Valid
  message : e.message.Valid

/-- The envelope that arrives when an envelope is sent. -/
def received (e : StampedEnvelope N) : StampedEnvelope N :=
  { e with message := e.message.received }

/-- The envelope can be sent, and the one that arrives equals it. -/
def ComesThrough (e : StampedEnvelope Float) : Prop :=
  ∃ d, decode e.encode = .ok d ∧ (d == e) = true

/-! ## Sending -/

/-- An envelope from its fields. -/
theorem ofJson?_of_fields {j idPart sourcePart hostPart timePart part : Json N} {id : Uuid}
    {source hostname : String} {time : Timestamp} {message : Option (Message N)}
    (fields : j.fields? ["id", "source", "hostname", "time", "message"] =
      some [some idPart, some sourcePart, some hostPart, some timePart, some part])
    (numbered : idPart.string?.bind Uuid.ofText? = some id)
    (sent : sourcePart.string? = some source) (hosted : hostPart.string? = some hostname)
    (timed : Timestamp.ofJson? timePart = some time) (told : Message.ofJson? part = message) :
    ofJson? j = message.map fun m => ⟨⟨source, hostname, m⟩, id, time⟩ := by
  simp only [ofJson?, fields, Json.required, numbered, sent, hosted, timed, told]
  cases message <;> rfl

/-- An envelope is read as it was written, but for what its message loses, unless a number in it is
not finite. -/
theorem ofJson?_toJson [Std.TransOrd (Bound N)] {e : StampedEnvelope N} (valid : e.Valid) :
    ofJson? e.toJson.sorted = if allFinite e.message.numbers then some e.received else none := by
  have hParts : e.toJson.sorted.fields? ["id", "source", "hostname", "time", "message"] =
      some [some (.string (Uuid.text e.id)), some (.string e.source), some (.string e.hostname),
        some (.int e.time.nanos), some e.message.toJson.sorted] := by
    rw [toJson, Json.fields?_sorted (by simp)]
    simp [List.lookup]
  have hId : (Json.string (Uuid.text e.id) : Json N).string?.bind Uuid.ofText? = some e.id := by
    rw [Json.string?_string, Option.bind_some, Uuid.ofText?_text]
  rw [ofJson?_of_fields hParts hId (Json.string?_string e.source) (Json.string?_string e.hostname)
    (Timestamp.ofJson?_int valid.time) (Message.ofJson?_toJson valid.message)]
  cases allFinite e.message.numbers <;> rfl

/-- An envelope can be told from its text if the numbers in its message can. -/
theorem legible_toJson {e : StampedEnvelope Float} (valid : e.Valid)
    (legible : LegibleNumbers e.message.numbers) : e.toJson.Legible := by
  rw [toJson, Json.legible_object]
  simp only [List.forall_mem_cons]
  exact ⟨trivial, trivial, trivial, valid.time.legible,
    Message.legible_toJson valid.message legible, List.forall_mem_nil _⟩

/-- **Sending.** A valid envelope that is not too deep is decoded as it was encoded, but for its
status and the weights in its value, unless a number in it is not finite. -/
theorem decode_encode {e : StampedEnvelope Float} (valid : e.Valid)
    (shallow : e.toJson.depth ≤ Json.maxDepth) (legible : LegibleNumbers e.message.numbers) :
    decode e.encode = if allFinite e.message.numbers then .ok e.received
      else .error (.malformed (claimedKind e.toJson.sorted) "unexpected form") := by
  have hText := Json.readSorted?_write (legible_toJson valid legible) shallow
  rw [decode, encode, hText]
  change fromJson e.toJson.sorted = _
  rw [fromJson, ofJson?_toJson valid]
  cases allFinite e.message.numbers <;> rfl

/-- The envelope that arrives differs from the one that was sent in nothing but its message. -/
theorem received_beq_iff {e : StampedEnvelope Float} (finite : allFinite e.message.numbers = true) :
    (e.received == e) = true ↔ e.message.Plain := by
  have hParts : ((e.source == e.source && (e.hostname == e.hostname &&
      e.message.received == e.message)) && (e.id == e.id && e.time == e.time)) =
        (e.message.received == e.message) := by simp
  exact (Eq.congr_left hParts).trans (Message.received_beq_iff finite)

/-! ## Receiving -/

/-- Whatever a value looks like, an envelope that it spells is valid and plain, and is written no
deeper than the value, or at most eight deep. -/
theorem arrived_of_ofJson? [Std.TransOrd (Bound N)] {j : Json N} {e : StampedEnvelope N}
    (read : ofJson? j = some e) :
    e.Valid ∧ e.message.Plain ∧ e.toJson.depth ≤ max 8 j.depth := by
  rw [ofJson?] at read
  split at read
  · next hFields =>
    obtain ⟨id, -, read⟩ := Option.bind_eq_some_iff.mp read
    obtain ⟨source, -, read⟩ := Option.bind_eq_some_iff.mp read
    obtain ⟨hostname, -, read⟩ := Option.bind_eq_some_iff.mp read
    obtain ⟨time, hTime, read⟩ := Option.bind_eq_some_iff.mp read
    obtain ⟨message, hMessage, read⟩ := Option.bind_eq_some_iff.mp read
    obtain rfl := Option.some.inj read
    obtain ⟨_, -, hTime⟩ := Json.exists_of_required hTime
    obtain ⟨part, rfl, hMessage⟩ := Json.exists_of_required hMessage
    obtain ⟨hValid, hPlain, hDepth⟩ := Message.arrived_of_ofJson? hMessage
    have hPart : part.depth < j.depth := Json.depth_lt_of_fields? hFields (by simp)
    refine ⟨⟨Timestamp.valid_of_ofJson? hTime, hValid⟩, hPlain, ?_⟩
    have hDeepest : (max 8 j.depth - 1) + 1 = max 8 j.depth := by omega
    rw [toJson, ← hDeepest, Json.depth_object_le]
    simp only [List.forall_mem_cons]
    exact ⟨Nat.zero_le _, Nat.zero_le _, Nat.zero_le _, Nat.zero_le _, by omega,
      List.forall_mem_nil _⟩
  · cases read

/-- **Receiving.** Whatever the text, an envelope that was decoded from it is valid and plain, and
is not too deep to be decoded again. -/
theorem arrived_of_decode {text : String} {d : StampedEnvelope Float}
    (decoded : decode text = .ok d) :
    d.Valid ∧ d.message.Plain ∧ d.toJson.depth ≤ Json.maxDepth := by
  rw [decode] at decoded
  split at decoded
  · next j hText =>
    rw [fromJson] at decoded
    split at decoded
    · next hRead =>
      obtain rfl := Except.ok.inj decoded
      obtain ⟨hValid, hPlain, hDepth⟩ := arrived_of_ofJson? hRead
      have hKept : ∀ members : List (String × Json Float), ∀ m ∈ Table.ofList members,
          ∃ m' ∈ members, m'.2 = m.2 := fun members m hm => by
        obtain ⟨m', hMem, hSame⟩ := Table.mem_ofList hm
        exact ⟨m', hMem, hSame ▸ rfl⟩
      have hShallow := Json.depth_le_of_readWith? hKept hText
      exact ⟨hValid, hPlain, hDepth.trans (max_le (by decide) hShallow)⟩
    · cases decoded
  · cases decoded

/-! ## Round trips -/

/-- An envelope comes through exactly if its numbers are finite and its status is not written like
another one. -/
theorem comesThrough_iff {e : StampedEnvelope Float} (valid : e.Valid)
    (shallow : e.toJson.depth ≤ Json.maxDepth) (legible : LegibleNumbers e.message.numbers) :
    e.ComesThrough ↔ e.message.Finite ∧ e.message.Plain := by
  have hDecoded := decode_encode valid shallow legible
  by_cases hFinite : allFinite e.message.numbers = true
  · rw [if_pos hFinite] at hDecoded
    constructor
    · rintro ⟨d, hArrived, hSame⟩
      obtain rfl := Except.ok.inj (hDecoded.symm.trans hArrived)
      exact ⟨allFinite_iff.mp hFinite, (received_beq_iff hFinite).mp hSame⟩
    · rintro ⟨-, hPlain⟩
      exact ⟨e.received, hDecoded, (received_beq_iff hFinite).mpr hPlain⟩
  · rw [if_neg hFinite] at hDecoded
    constructor
    · rintro ⟨d, hArrived, -⟩
      cases hDecoded.symm.trans hArrived
    · rintro ⟨hAll, -⟩
      exact absurd (allFinite_iff.mpr hAll) hFinite

/-- **Round trips.** A valid envelope that nests no deeper than a text may is decoded as itself
exactly if all numbers in it are finite and no status in it is written like another one. No envelope
that was decoded has such a status, so each one with finite numbers can be encoded and decoded
again. -/
theorem round_trip :
    (∀ e : StampedEnvelope Float, e.Valid → e.toJson.depth ≤ Json.maxDepth →
      LegibleNumbers e.message.numbers → (e.ComesThrough ↔ e.message.Finite ∧ e.message.Plain)) ∧
    ∀ (text : String) (d : StampedEnvelope Float), decode text = .ok d →
      d.message.Plain ∧
        (LegibleNumbers d.message.numbers → d.message.Finite → d.ComesThrough) := by
  refine ⟨fun e valid shallow legible => comesThrough_iff valid shallow legible, ?_⟩
  intro text d decoded
  obtain ⟨hValid, hPlain, hShallow⟩ := arrived_of_decode decoded
  exact ⟨hPlain, fun hLegible hFinite =>
    (comesThrough_iff hValid hShallow hLegible).mpr ⟨hFinite, hPlain⟩⟩

/-- A distribution under one key and a number under another. -/
def briefData : StampedEnvelope Float :=
  ⟨⟨"agent", "db", .data 7 ⟨5⟩ (.discrete
    [("read", .distribution ⟨[(⟨1.5⟩, 3.0, 2.0)]⟩), ("write", .scalar 4.0)])⟩, 1, ⟨6⟩⟩

/-- A status that is written like another one. -/
def briefAck : StampedEnvelope Float :=
  ⟨⟨"agent", "db", .ack .enable .aggregation 7 (.other "enabled") none⟩, 2, ⟨6⟩⟩

/-- An acknowledgement as it may come from elsewhere. -/
def briefText : String :=
  "\x7b\"id\":\"00000000000000000000000000000003\",\"source\":\"\",\"hostname\":\"\",\"time\":6," ++
    "\"message\":\x7b\"kind\":\"ack-enable_aggregation\",\"inst_id\":7," ++
    "\"status\":\"enabled\"\x7d\x7d"

set_option maxRecDepth 2000 in
theorem decode_briefText : decode briefText =
    .ok ⟨⟨"", "", .ack .enable .aggregation 7 .enabled none⟩, 3, ⟨6⟩⟩ := by
  rfl

/-- A report comes through; an acknowledgement of an unknown status that is called like a known one
does not. -/
theorem round_trip_brief :
    briefData.ComesThrough ∧ ¬ briefAck.ComesThrough ∧
      ∃ d, decode briefText = .ok d ∧ d.ComesThrough := by
  refine ⟨?_, ?_, ?_⟩
  · have hValid : briefData.Valid :=
      ⟨⟨by decide, by decide⟩, by decide, ⟨by decide, by decide⟩,
        List.pairwise_pair.mpr (by decide), List.pairwise_singleton _ _, trivial, trivial⟩
    have hNumbers : briefData.message.numbers = [1.5, 3.0, 2.0, 4.0] := rfl
    have hLegible : LegibleNumbers briefData.message.numbers := by
      rw [hNumbers, LegibleNumbers]
      simp only [List.forall_mem_cons]
      exact ⟨fun _ => rfl, fun _ => rfl, fun _ => rfl, fun _ => rfl, List.forall_mem_nil _⟩
    have hFinite : briefData.message.Finite := by
      rw [Message.Finite, hNumbers]
      simp only [List.forall_mem_cons]
      exact ⟨rfl, rfl, rfl, rfl, List.forall_mem_nil _⟩
    exact (round_trip.1 briefData hValid (by decide) hLegible).mpr
      ⟨hFinite, Message.plain_of_status?_eq_none rfl⟩
  · have hId : briefAck.message.Valid := by
      rw [briefAck, Message.Valid]
      decide
    have hValid : briefAck.Valid := ⟨⟨by decide, by decide⟩, hId⟩
    intro hThrough
    have hPlain := ((round_trip.1 briefAck hValid (by decide)
      (List.forall_mem_nil _)).mp hThrough).2
    exact (hPlain _ rfl).1 rfl
  · exact ⟨_, decode_briefText, (round_trip.2 briefText _ decode_briefText).2
      (List.forall_mem_nil _) (List.forall_mem_nil _)⟩

end StampedEnvelope

end FleetMetrics
