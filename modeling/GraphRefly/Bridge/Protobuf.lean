import GraphRefly.Bridge.Wire
import Mathlib.Tactic.IntervalCases

/-!
# The Canonical Protobuf Profile

Bridge envelopes as bytes. The encoder validates an envelope and writes its
fields in order; the decoder reads fields in any order, builds an envelope,
validates it, encodes it again and refuses bytes that differ. The rules on
required fields, defaults and the one payload are written out three times, in
the parser, in the validator and in the encoder, and the codec is only sound if
the three agree.

## Main definitions

* `CanonicalWireBridgeEnvelope`, `CanonicalWireEdgeFrame`: What is encoded.
* `validateWireBridgeEnvelope`, `validateWireEdgeFrame`: The validators.
* `encodeCanonicalWireBridgeEnvelope`, `encodeCanonicalWireEdgeFrame`: The
  encoders.
* `decodeCanonicalWireBridgeEnvelope`, `decodeCanonicalWireEdgeFrame`: The
  decoders.

## Theorems

* `parseWireEdgeFrame_encode`, `parseMetadata_encode`: Nested messages are
  parsed back.
* `canonical_protobuf_bijection`: Valid envelopes and frames correspond to the
  byte strings that decode, one to one.
-/

namespace GraphRefly.Bridge

/-! ### What is encoded -/

structure CanonicalWireBridgeMetadata where
  seq : UInt64
  cursor : UInt64
  idempotencyKey : String
  attempt : UInt32
  maxAttempts : UInt32
  timestampMs : Option UInt64
  ackForSeq : Option UInt64
  requestId : Option String
  deriving DecidableEq

inductive CanonicalWireEdgeKind
  | dirty
  | data
  deriving DecidableEq

structure CanonicalWireEdgeFrame where
  kind : CanonicalWireEdgeKind
  edgeId : String
  causeId : String
  value : Option Bytes
  deriving DecidableEq

inductive CanonicalWireBridgeDataBody
  | value (value : Bytes)
  | wireEdge (frame : CanonicalWireEdgeFrame)
  deriving DecidableEq

inductive CanonicalWireBridgePayload
  | start
  | data (body : CanonicalWireBridgeDataBody)
  | ack
  | nack (error : Option Bytes)
  | status (status : Bytes)
  | error (error : Bytes)
  | close (reason : Option Bytes)
  deriving DecidableEq

structure CanonicalWireBridgeEnvelope where
  sessionId : String
  metadata : CanonicalWireBridgeMetadata
  payload : CanonicalWireBridgePayload
  deriving DecidableEq

/-! ### The validators -/

def validateWireEdgeFrame (frame : CanonicalWireEdgeFrame) : Coded Unit :=
  if frame.edgeId = "" ∨ frame.causeId = "" then
    refuse .missingRequired "WireEdgeFrame edge_id/cause_id must be non-empty"
  else
    match frame.kind, frame.value with
    | .dirty, some _ => refuse .invalidWireEdge "DIRTY WireEdgeFrame must not carry value"
    | .data, none => refuse .invalidWireEdge "DATA WireEdgeFrame requires value"
    | .dirty, none => .ok ()
    | .data, some _ => .ok ()

/-- The validator's look at the payload alone. -/
def validatePayload : CanonicalWireBridgePayload → Coded Unit
  | .data (.wireEdge frame) => validateWireEdgeFrame frame
  | .nack error =>
    if error = some [] then
      refuse .defaultEmission "nack optional bytes default value was emitted"
    else .ok ()
  | .status status =>
    if status = [] then refuse .missingRequired "status payload bytes must be non-empty" else .ok ()
  | .error error =>
    if error = [] then refuse .missingRequired "error payload bytes must be non-empty" else .ok ()
  | .close reason =>
    if reason = some [] then
      refuse .defaultEmission "close optional bytes default value was emitted"
    else .ok ()
  | .start => .ok ()
  | .ack => .ok ()
  | .data (.value _) => .ok ()

/-- Acknowledgements name the envelope they answer. -/
def CanonicalWireBridgePayload.isReceipt : CanonicalWireBridgePayload → Bool
  | .ack => true
  | .nack _ => true
  | _ => false

def validateWireBridgeEnvelope (e : CanonicalWireBridgeEnvelope) : Coded Unit :=
  if e.sessionId = "" ∨ e.metadata.seq = 0 ∨ e.metadata.attempt = 0 ∨
      e.metadata.maxAttempts < e.metadata.attempt ∨ e.metadata.idempotencyKey = "" then
    refuse .missingRequired "WireBridgeEnvelope required semantics are invalid"
  else if e.payload.isReceipt ∧ e.metadata.ackForSeq = none then
    refuse .missingRequired "ACK/NACK requires metadata.ack_for_seq"
  else if e.metadata.timestampMs = some 0 ∨ e.metadata.ackForSeq = some 0 ∨
      e.metadata.requestId = some "" then
    refuse .defaultEmission "optional metadata default value was emitted"
  else validatePayload e.payload

/-! ### The encoders -/

def encodeMetadata (m : CanonicalWireBridgeMetadata) : Bytes :=
  varintField 1 m.seq ++ varintField 2 m.cursor ++ stringField 3 m.idempotencyKey ++
    varintField 4 m.attempt.toUInt64 ++ varintField 5 m.maxAttempts.toUInt64 ++
    (match m.timestampMs with
      | some timestampMs => varintField 6 timestampMs
      | none => []) ++
    (match m.ackForSeq with
      | some ackForSeq => varintField 7 ackForSeq
      | none => []) ++
    (match m.requestId with
      | some requestId => stringField 8 requestId
      | none => [])

def CanonicalWireEdgeKind.number : CanonicalWireEdgeKind → UInt64
  | .dirty => 1
  | .data => 2

def encodeWireEdgeFrame (frame : CanonicalWireEdgeFrame) : Bytes :=
  varintField 1 frame.kind.number ++ stringField 2 frame.edgeId ++ stringField 3 frame.causeId ++
    (match frame.value with
      | some value => bytesFieldBytes 4 value
      | none => [])

def encodeCanonicalWireEdgeFrame (frame : CanonicalWireEdgeFrame) : Coded Bytes := do
  validateWireEdgeFrame frame
  .ok (encodeWireEdgeFrame frame)

def encodeDataPayload : CanonicalWireBridgeDataBody → Coded Bytes
  | .value value => .ok (bytesFieldBytes 1 value)
  | .wireEdge frame => do
      let message ← encodeCanonicalWireEdgeFrame frame
      .ok (messageField 2 message)

def encodeRequiredBytesMessage (fieldNo : Nat) (value : Bytes) : Bytes :=
  bytesFieldBytes fieldNo value

def encodeOptionalBytesMessage (fieldNo : Nat) : Option Bytes → Coded Bytes
  | none => .ok []
  | some value =>
    if value = [] then
      refuse .defaultEmission "optional bytes default value must be omitted"
    else .ok (bytesFieldBytes fieldNo value)

/-- The field that carries a payload: its number and its message. -/
def payloadMessage : CanonicalWireBridgePayload → Coded (Nat × Bytes)
  | .start => .ok (3, [])
  | .data body => (encodeDataPayload body).map ((4, ·))
  | .ack => .ok (5, [])
  | .nack error => (encodeOptionalBytesMessage 1 error).map ((6, ·))
  | .status status => .ok (7, encodeRequiredBytesMessage 1 status)
  | .error error => .ok (8, encodeRequiredBytesMessage 1 error)
  | .close reason => (encodeOptionalBytesMessage 1 reason).map ((9, ·))

def encodeCanonicalWireBridgeEnvelope (e : CanonicalWireBridgeEnvelope) : Coded Bytes := do
  validateWireBridgeEnvelope e
  let (no, message) ← payloadMessage e.payload
  .ok (stringField 1 e.sessionId ++ messageField 2 (encodeMetadata e.metadata) ++
    messageField no message)

/-! ### The parsers -/

section

variable (bytes : Bytes)

def utf8String (field : String) : Coded String :=
  match String.fromUTF8? ⟨bytes.toArray⟩ with
  | none => refuse .malformed s!"{field} is not valid utf-8"
  | some value =>
    if value = "" then refuse .missingRequired s!"{field} must be non-empty" else .ok value

/-- A string that may be absent. -/
def utf8Optional (bytes : Option Bytes) (field : String) : Coded (Option String) :=
  match bytes with
  | some bytes => (utf8String bytes field).map some
  | none => .ok none

def uint32 (value : UInt64) (field : String) : Coded UInt32 :=
  if 2 ^ 32 ≤ value.toNat then refuse .malformed s!"{field} exceeds uint32"
  else .ok value.toUInt32

def requireEmptyMessage (name : String) : Coded Unit :=
  if bytes = [] then .ok () else refuse .unknownField s!"{name} payload must be empty"

def parseRequiredBytesPayload (name : String) : Coded Bytes := do
  let fields ← readFields bytes [(1, 2)] s!"WireBridge{name}Payload"
  match bytesField fields 1 with
  | none => refuse .missingRequired s!"{name} payload missing required bytes"
  | some value =>
    if value = [] then refuse .missingRequired s!"{name} payload bytes must be non-empty"
    else .ok value

def parseOptionalBytesPayload (name : String) : Coded (Option Bytes) := do
  let fields ← readFields bytes [(1, 2)] s!"WireBridge{name}Payload"
  if bytesField fields 1 = some [] then
    refuse .defaultEmission s!"{name} optional bytes default value was emitted"
  else .ok (bytesField fields 1)

def parseWireEdgeFrame : Coded CanonicalWireEdgeFrame := do
  let fields ← readFields bytes [(1, 0), (2, 2), (3, 2), (4, 2)] "WireEdgeFrame"
  match uintField fields 1, bytesField fields 2, bytesField fields 3 with
  | some kind, some edge, some cause => do
      let edgeId ← utf8String edge "edge_id"
      let causeId ← utf8String cause "cause_id"
      if kind = 1 then
        match bytesField fields 4 with
        | some _ => refuse .invalidWireEdge "DIRTY WireEdgeFrame must not carry value"
        | none => .ok ⟨.dirty, edgeId, causeId, none⟩
      else if kind = 2 then
        match bytesField fields 4 with
        | none => refuse .invalidWireEdge "DATA WireEdgeFrame requires value"
        | some value => .ok ⟨.data, edgeId, causeId, some value⟩
      else refuse .invalidWireEdge "WireEdgeFrame kind is invalid"
  | _, _, _ => refuse .missingRequired "WireEdgeFrame missing required fields"

def parseDataPayload : Coded CanonicalWireBridgeDataBody := do
  let fields ← readFields bytes [(1, 2), (2, 2)] "WireBridgeDataPayload"
  match bytesField fields 1, bytesField fields 2 with
  | some _, some _ => refuse .invalidOneof "WireBridgeDataPayload body has multiple cases"
  | some value, none => .ok (.value value)
  | none, some wireEdge => (parseWireEdgeFrame wireEdge).map .wireEdge
  | none, none => refuse .missingRequired "WireBridgeDataPayload missing body"

def parseMetadata : Coded CanonicalWireBridgeMetadata := do
  let fields ← readFields bytes
    [(1, 0), (2, 0), (3, 2), (4, 0), (5, 0), (6, 0), (7, 0), (8, 2)] "WireBridgeMetadata"
  match uintField fields 1, uintField fields 2, bytesField fields 3, uintField fields 4,
      uintField fields 5 with
  | some seq, some cursor, some key, some attempt, some maxAttempts =>
    if uintField fields 6 = some 0 ∨ uintField fields 7 = some 0 ∨
        bytesField fields 8 = some [] then
      refuse .defaultEmission "optional metadata default value was emitted"
    else do
      let idempotencyKey ← utf8String key "idempotency_key"
      let attempt ← uint32 attempt "attempt"
      let maxAttempts ← uint32 maxAttempts "max_attempts"
      let requestId ← utf8Optional (bytesField fields 8) "request_id"
      .ok ⟨seq, cursor, idempotencyKey, attempt, maxAttempts, uintField fields 6,
        uintField fields 7, requestId⟩
  | _, _, _, _, _ => refuse .missingRequired "WireBridgeMetadata missing required fields"

def parseEnvelopePayload (fieldNo : Nat) (bytes : Bytes) : Coded CanonicalWireBridgePayload :=
  match fieldNo with
  | 3 => do
      requireEmptyMessage bytes "start"
      .ok .start
  | 4 => (parseDataPayload bytes).map .data
  | 5 => do
      requireEmptyMessage bytes "ack"
      .ok .ack
  | 6 => (parseOptionalBytesPayload bytes "nack").map .nack
  | 7 => (parseRequiredBytesPayload bytes "status").map .status
  | 8 => (parseRequiredBytesPayload bytes "error").map .error
  | 9 => (parseOptionalBytesPayload bytes "close").map .close
  | _ => refuse .unknownField "unknown envelope payload field"

/-- The fields of an envelope, all of them bytes. -/
def envelopeTable : List (Nat × Nat) :=
  [(1, 2), (2, 2), (3, 2), (4, 2), (5, 2), (6, 2), (7, 2), (8, 2), (9, 2)]

def parseWireBridgeEnvelope : Coded CanonicalWireBridgeEnvelope := do
  let fields ← readFields bytes envelopeTable "WireBridgeEnvelope"
  let payloadFields := fields.filter fun field => 3 ≤ field.no ∧ field.no ≤ 9
  match bytesField fields 1, bytesField fields 2, payloadFields with
  | some session, some metadata, [payloadField] => do
      let payloadBytes ← payloadField.asBytes
      let sessionId ← utf8String session "session_id"
      let metadata ← parseMetadata metadata
      let payload ← parseEnvelopePayload payloadField.no payloadBytes
      .ok ⟨sessionId, metadata, payload⟩
  | some _, some _, _ :: _ :: _ =>
    refuse .invalidOneof "WireBridgeEnvelope payload oneof has multiple cases"
  | _, _, _ => refuse .missingRequired "WireBridgeEnvelope missing required fields"

end

/-! ### The decoders -/

def decodeCanonicalWireBridgeEnvelope (bytes : Bytes) : Coded CanonicalWireBridgeEnvelope := do
  let envelope ← parseWireBridgeEnvelope bytes
  validateWireBridgeEnvelope envelope
  let canonical ← encodeCanonicalWireBridgeEnvelope envelope
  if canonical ≠ bytes then
    refuse .noncanonicalBytes "WireBridgeEnvelope bytes are not canonical deterministic protobuf"
  else .ok envelope

def decodeCanonicalWireEdgeFrame (bytes : Bytes) : Coded CanonicalWireEdgeFrame := do
  let frame ← parseWireEdgeFrame bytes
  validateWireEdgeFrame frame
  let canonical := encodeWireEdgeFrame frame
  if canonical ≠ bytes then
    refuse .noncanonicalBytes "WireEdgeFrame bytes are not canonical deterministic protobuf"
  else .ok frame

/-! ### Leaves -/

variable {s : String}

theorem utf8String_utf8Bytes (hs : s ≠ "") (field : String) :
    utf8String (utf8Bytes s) field = .ok s := by
  have hbytes : (⟨(utf8Bytes s).toArray⟩ : ByteArray) = s.toByteArray := by
    simp [utf8Bytes]
  have hread : String.fromUTF8? s.toByteArray = some s := by
    rw [String.fromUTF8?, dif_pos s.isValidUTF8]
    rfl
  simp [utf8String, hbytes, hread, hs]

theorem utf8Bytes_eq_nil : utf8Bytes s = [] ↔ s = "" := by
  rw [← String.toByteArray_inj]
  simp [utf8Bytes, ByteArray.ext_iff]

theorem utf8Optional_utf8Bytes {s : Option String} (hs : s ≠ some "") (field : String) :
    utf8Optional (s.map utf8Bytes) field = .ok s := by
  cases s with
  | none => rfl
  | some s =>
    have hne : s ≠ "" := fun h => hs (by rw [h])
    simp [utf8Optional, utf8String_utf8Bytes hne, Except.map]

theorem uint32_toUInt64 (value : UInt32) (field : String) :
    uint32 value.toUInt64 field = .ok value := by
  have hlt : ¬ 2 ^ 32 ≤ value.toUInt64.toNat := by
    rw [UInt32.toNat_toUInt64]
    have := value.toNat_lt
    omega
  rw [uint32, if_neg hlt]
  simp

/-! ### Nested messages -/

/-- The fields of a frame's message. -/
def frameFields (frame : CanonicalWireEdgeFrame) : List Field :=
  [⟨1, .varint frame.kind.number⟩, ⟨2, .bytes (utf8Bytes frame.edgeId)⟩,
    ⟨3, .bytes (utf8Bytes frame.causeId)⟩] ++ frame.value.toList.map fun value => ⟨4, .bytes value⟩

theorem encodeWireEdgeFrame_eq (frame : CanonicalWireEdgeFrame) :
    encodeWireEdgeFrame frame = writeFields (frameFields frame) := by
  obtain ⟨kind, edgeId, causeId, value⟩ := frame
  cases value <;>
    simp [encodeWireEdgeFrame, frameFields, writeFields, Field.write, stringField]

variable {frame : CanonicalWireEdgeFrame}

theorem validateWireEdgeFrame_eq_ok :
    validateWireEdgeFrame frame = .ok () ↔
      frame.edgeId ≠ "" ∧ frame.causeId ≠ "" ∧ (frame.kind = .data ↔ frame.value.isSome) := by
  obtain ⟨kind, edgeId, causeId, value⟩ := frame
  unfold validateWireEdgeFrame
  split_ifs with h
  · simp only [refuse, reduceCtorEq, false_iff]
    rintro ⟨hedge, hcause, -⟩
    exact h.elim hedge hcause
  · rw [not_or] at h
    cases kind <;> cases value <;> simp [refuse, h.1, h.2]

theorem parseWireEdgeFrame_encode (hvalid : validateWireEdgeFrame frame = .ok ())
    (hlen : (encodeWireEdgeFrame frame).length < 2 ^ 64) :
    parseWireEdgeFrame (encodeWireEdgeFrame frame) = .ok frame := by
  obtain ⟨hedge, hcause, hvalue⟩ := validateWireEdgeFrame_eq_ok.mp hvalid
  rw [encodeWireEdgeFrame_eq] at hlen ⊢
  have hread : readFields (writeFields (frameFields frame)) [(1, 0), (2, 2), (3, 2), (4, 2)]
      "WireEdgeFrame" = .ok (frameFields frame) := by
    refine readFields_writeFields _ _ _ ?_ ?_ hlen
    · obtain ⟨kind, edgeId, causeId, value⟩ := frame
      cases value <;> simp [frameFields, Field.Allowed, FieldValue.wireType, List.lookup_cons]
    · obtain ⟨kind, edgeId, causeId, value⟩ := frame
      cases value <;> simp [frameFields]
  obtain ⟨kind, edgeId, causeId, value⟩ := frame
  simp only [parseWireEdgeFrame, hread, bind, Except.bind]
  cases kind <;> cases value <;>
    simp_all [frameFields, uintField, bytesField, utf8String_utf8Bytes,
      CanonicalWireEdgeKind.number]

/-- The fields of the metadata's message. -/
def metadataFields (m : CanonicalWireBridgeMetadata) : List Field :=
  [⟨1, .varint m.seq⟩, ⟨2, .varint m.cursor⟩, ⟨3, .bytes (utf8Bytes m.idempotencyKey)⟩,
    ⟨4, .varint m.attempt.toUInt64⟩, ⟨5, .varint m.maxAttempts.toUInt64⟩] ++
  (m.timestampMs.toList.map fun value => ⟨6, .varint value⟩) ++
  (m.ackForSeq.toList.map fun value => ⟨7, .varint value⟩) ++
  (m.requestId.toList.map fun value => ⟨8, .bytes (utf8Bytes value)⟩)

theorem encodeMetadata_eq (m : CanonicalWireBridgeMetadata) :
    encodeMetadata m = writeFields (metadataFields m) := by
  obtain ⟨seq, cursor, key, attempt, maxAttempts, timestampMs, ackForSeq, requestId⟩ := m
  cases timestampMs <;> cases ackForSeq <;> cases requestId <;>
    simp [encodeMetadata, metadataFields, writeFields, Field.write, stringField]

/-- Metadata that the codec carries: the key is not empty and no optional field
    has its default. -/
structure CanonicalWireBridgeMetadata.Plain (m : CanonicalWireBridgeMetadata) : Prop where
  key : m.idempotencyKey ≠ ""
  timestamp : m.timestampMs ≠ some 0
  ack : m.ackForSeq ≠ some 0
  request : m.requestId ≠ some ""

theorem parseMetadata_encode {m : CanonicalWireBridgeMetadata} (hplain : m.Plain)
    (hlen : (encodeMetadata m).length < 2 ^ 64) : parseMetadata (encodeMetadata m) = .ok m := by
  rw [encodeMetadata_eq] at hlen ⊢
  have hread : readFields (writeFields (metadataFields m))
      [(1, 0), (2, 0), (3, 2), (4, 0), (5, 0), (6, 0), (7, 0), (8, 2)] "WireBridgeMetadata"
        = .ok (metadataFields m) := by
    refine readFields_writeFields _ _ _ ?_ ?_ hlen
    · obtain ⟨seq, cursor, key, attempt, maxAttempts, timestampMs, ackForSeq, requestId⟩ := m
      cases timestampMs <;> cases ackForSeq <;> cases requestId <;>
        simp [metadataFields, Field.Allowed, FieldValue.wireType, List.lookup_cons]
    · obtain ⟨seq, cursor, key, attempt, maxAttempts, timestampMs, ackForSeq, requestId⟩ := m
      cases timestampMs <;> cases ackForSeq <;> cases requestId <;> simp [metadataFields]
  -- Which optional fields are there decides what the fields look up.
  have hlookup : uintField (metadataFields m) 6 = m.timestampMs ∧
      uintField (metadataFields m) 7 = m.ackForSeq ∧
      bytesField (metadataFields m) 8 = m.requestId.map utf8Bytes := by
    obtain ⟨seq, cursor, key, attempt, maxAttempts, timestampMs, ackForSeq, requestId⟩ := m
    cases timestampMs <;> cases ackForSeq <;> cases requestId <;>
      simp [metadataFields, uintField, bytesField]
  obtain ⟨htimestamp, hack, hrequest⟩ := hlookup
  have hdefaults : ¬ (m.timestampMs = some 0 ∨ m.ackForSeq = some 0 ∨
      m.requestId.map utf8Bytes = some []) := by
    rintro (h | h | h)
    · exact hplain.timestamp h
    · exact hplain.ack h
    · obtain ⟨request, hsome, hnil⟩ := Option.map_eq_some_iff.mp h
      rw [utf8Bytes_eq_nil.mp hnil] at hsome
      exact hplain.request hsome
  have hrequired : uintField (metadataFields m) 1 = some m.seq ∧
      uintField (metadataFields m) 2 = some m.cursor ∧
      bytesField (metadataFields m) 3 = some (utf8Bytes m.idempotencyKey) ∧
      uintField (metadataFields m) 4 = some m.attempt.toUInt64 ∧
      uintField (metadataFields m) 5 = some m.maxAttempts.toUInt64 := by
    simp [metadataFields, uintField, bytesField]
  obtain ⟨h1, h2, h3, h4, h5⟩ := hrequired
  simp only [parseMetadata, hread, bind, Except.bind, h1, h2, h3, h4, h5, htimestamp, hack,
    hrequest]
  rw [if_neg hdefaults, utf8String_utf8Bytes hplain.key, uint32_toUInt64, uint32_toUInt64,
    utf8Optional_utf8Bytes hplain.request]

/-- A message with one field of bytes. -/
theorem readFields_bytesField (no : Nat) (value : Bytes) (allowed : List (Nat × Nat))
    (messageName : String) (hno : 0 < no ∧ no < 2 ^ 32) (hallowed : allowed.lookup no = some 2)
    (hlen : (bytesFieldBytes no value).length < 2 ^ 64) :
    readFields (bytesFieldBytes no value) allowed messageName = .ok [⟨no, .bytes value⟩] := by
  have hwrite : bytesFieldBytes no value = writeFields [⟨no, .bytes value⟩] := by
    simp [writeFields, Field.write]
  rw [hwrite] at hlen ⊢
  refine readFields_writeFields _ _ _ ?_ (by simp) hlen
  intro f hf
  rw [List.mem_singleton.mp hf]
  exact ⟨hallowed, hno⟩

theorem parseRequiredBytesPayload_encode {value : Bytes} (hvalue : value ≠ []) (name : String)
    (hlen : (encodeRequiredBytesMessage 1 value).length < 2 ^ 64) :
    parseRequiredBytesPayload (encodeRequiredBytesMessage 1 value) name = .ok value := by
  have hread := readFields_bytesField 1 value [(1, 2)] s!"WireBridge{name}Payload"
    (by decide) rfl hlen
  rw [parseRequiredBytesPayload, encodeRequiredBytesMessage, hread]
  simp [bind, Except.bind, bytesField, hvalue]

variable {bytes : Bytes}

theorem parseOptionalBytesPayload_encode {value : Option Bytes} (name : String)
    (hencode : encodeOptionalBytesMessage 1 value = .ok bytes) (hlen : bytes.length < 2 ^ 64) :
    parseOptionalBytesPayload bytes name = .ok value := by
  cases value with
  | none =>
    cases hencode
    rfl
  | some value =>
    have hvalue : value ≠ [] := by
      rintro rfl
      cases hencode
    rw [encodeOptionalBytesMessage, if_neg hvalue] at hencode
    cases hencode
    have hread := readFields_bytesField 1 value [(1, 2)] s!"WireBridge{name}Payload"
      (by decide) rfl hlen
    rw [parseOptionalBytesPayload, hread]
    simp [bind, Except.bind, bytesField, hvalue]

theorem parseDataPayload_encode {body : CanonicalWireBridgeDataBody}
    (hencode : encodeDataPayload body = .ok bytes) (hlen : bytes.length < 2 ^ 64) :
    parseDataPayload bytes = .ok body := by
  cases body with
  | value value =>
    cases hencode
    have hread := readFields_bytesField 1 value [(1, 2), (2, 2)] "WireBridgeDataPayload"
      (by decide) rfl hlen
    rw [parseDataPayload, hread]
    rfl
  | wireEdge frame =>
    simp only [encodeDataPayload, encodeCanonicalWireEdgeFrame, bind, Except.bind] at hencode
    cases hvalid : validateWireEdgeFrame frame with
    | error err =>
      rw [hvalid] at hencode
      cases hencode
    | ok u =>
      rw [hvalid] at hencode
      cases hencode
      have hread := readFields_bytesField 2 (encodeWireEdgeFrame frame) [(1, 2), (2, 2)]
        "WireBridgeDataPayload" (by decide) rfl hlen
      have hinner : (encodeWireEdgeFrame frame).length < 2 ^ 64 := by
        simp only [messageField, bytesFieldBytes, List.length_append] at hlen
        omega
      rw [parseDataPayload, messageField, hread]
      simp [bind, Except.bind, bytesField, parseWireEdgeFrame_encode hvalid hinner, Except.map]

theorem map_eq_ok {α β : Type} {f : α → β} {x : Coded α} {b : β} :
    x.map f = .ok b ↔ ∃ a, x = .ok a ∧ f a = b := by
  cases x <;> simp [Except.map]

variable {payload : CanonicalWireBridgePayload}

/-- The payload's message is parsed back, under its number. -/
theorem parseEnvelopePayload_encode {no : Nat}
    {message : Bytes} (hvalid : validatePayload payload = .ok ())
    (hencode : payloadMessage payload = .ok (no, message)) (hlen : message.length < 2 ^ 64) :
    parseEnvelopePayload no message = .ok payload := by
  cases payload with
  | start =>
    cases hencode
    rfl
  | ack =>
    cases hencode
    rfl
  | data body =>
    obtain ⟨bytes, hbytes, heq⟩ := map_eq_ok.mp hencode
    cases heq
    exact map_eq_ok.mpr ⟨body, parseDataPayload_encode hbytes hlen, rfl⟩
  | nack error =>
    obtain ⟨bytes, hbytes, heq⟩ := map_eq_ok.mp hencode
    cases heq
    exact map_eq_ok.mpr ⟨error, parseOptionalBytesPayload_encode "nack" hbytes hlen, rfl⟩
  | close reason =>
    obtain ⟨bytes, hbytes, heq⟩ := map_eq_ok.mp hencode
    cases heq
    exact map_eq_ok.mpr ⟨reason, parseOptionalBytesPayload_encode "close" hbytes hlen, rfl⟩
  | status status =>
    cases hencode
    have hne : status ≠ [] := by
      rintro rfl
      cases hvalid
    exact map_eq_ok.mpr ⟨status, parseRequiredBytesPayload_encode hne "status" hlen, rfl⟩
  | error error =>
    cases hencode
    have hne : error ≠ [] := by
      rintro rfl
      cases hvalid
    exact map_eq_ok.mpr ⟨error, parseRequiredBytesPayload_encode hne "error" hlen, rfl⟩

/-- A payload that passes the validator has a message, under a payload's
    number. -/
theorem payloadMessage_of_valid (hvalid : validatePayload payload = .ok ()) :
    ∃ no message, payloadMessage payload = .ok (no, message) ∧ 3 ≤ no ∧ no ≤ 9 := by
  cases payload with
  | start => exact ⟨3, [], rfl, by omega, by omega⟩
  | ack => exact ⟨5, [], rfl, by omega, by omega⟩
  | status status => exact ⟨7, _, rfl, by omega, by omega⟩
  | error error => exact ⟨8, _, rfl, by omega, by omega⟩
  | data body =>
    cases body with
    | value value => exact ⟨4, _, rfl, by omega, by omega⟩
    | wireEdge frame =>
      have hframe : validateWireEdgeFrame frame = .ok () := hvalid
      refine ⟨4, messageField 2 (encodeWireEdgeFrame frame), ?_, by omega, by omega⟩
      simp [payloadMessage, encodeDataPayload, encodeCanonicalWireEdgeFrame, hframe, bind,
        Except.bind, Except.map]
  | nack error =>
    cases error with
    | none => exact ⟨6, [], rfl, by omega, by omega⟩
    | some error =>
      have hne : error ≠ [] := by
        rintro rfl
        cases hvalid
      refine ⟨6, bytesFieldBytes 1 error, ?_, by omega, by omega⟩
      simp [payloadMessage, encodeOptionalBytesMessage, hne, Except.map]
  | close reason =>
    cases reason with
    | none => exact ⟨9, [], rfl, by omega, by omega⟩
    | some reason =>
      have hne : reason ≠ [] := by
        rintro rfl
        cases hvalid
      refine ⟨9, bytesFieldBytes 1 reason, ?_, by omega, by omega⟩
      simp [payloadMessage, encodeOptionalBytesMessage, hne, Except.map]

/-! ### Envelopes -/

/-- What the validator makes sure of. -/
structure CanonicalWireBridgeEnvelope.Valid (e : CanonicalWireBridgeEnvelope) : Prop where
  session : e.sessionId ≠ ""
  plain : e.metadata.Plain
  payload : validatePayload e.payload = .ok ()

variable {e : CanonicalWireBridgeEnvelope}

theorem CanonicalWireBridgeEnvelope.Valid.of_ok
    (h : validateWireBridgeEnvelope e = .ok ()) : e.Valid := by
  unfold validateWireBridgeEnvelope at h
  split_ifs at h with hrequired hreceipt hdefault
  · cases h
  · cases h
  · cases h
  · simp only [not_or] at hrequired hdefault
    exact {
      session := hrequired.1
      plain := {
        key := hrequired.2.2.2.2
        timestamp := hdefault.1
        ack := hdefault.2.1
        request := hdefault.2.2
      }
      payload := h
    }

/-- The bytes of an envelope whose payload has the given message. -/
def envelopeBytes (e : CanonicalWireBridgeEnvelope) (no : Nat) (message : Bytes) : Bytes :=
  stringField 1 e.sessionId ++ messageField 2 (encodeMetadata e.metadata) ++ messageField no message

variable {b : Bytes}

/-- The encoder succeeds exactly on what the validator accepts. -/
theorem encodeCanonicalWireBridgeEnvelope_eq_ok :
    encodeCanonicalWireBridgeEnvelope e = .ok b ↔
      validateWireBridgeEnvelope e = .ok () ∧ ∃ no message,
        payloadMessage e.payload = .ok (no, message) ∧ b = envelopeBytes e no message := by
  unfold encodeCanonicalWireBridgeEnvelope
  cases hvalid : validateWireBridgeEnvelope e with
  | error err => simp [bind, Except.bind]
  | ok u =>
    obtain ⟨no, message, hmessage, -⟩ := payloadMessage_of_valid
      (CanonicalWireBridgeEnvelope.Valid.of_ok hvalid).payload
    simp only [bind, Except.bind, hmessage, true_and, Except.ok.injEq, Prod.mk.injEq]
    constructor
    · intro h
      exact ⟨no, message, ⟨rfl, rfl⟩, h.symm⟩
    · rintro ⟨_, _, ⟨rfl, rfl⟩, h⟩
      exact h.symm

theorem parseWireBridgeEnvelope_encode
    (hencode : encodeCanonicalWireBridgeEnvelope e = .ok b) (hlen : b.length < 2 ^ 64) :
    parseWireBridgeEnvelope b = .ok e := by
  obtain ⟨hvalid, no, message, hmessage, rfl⟩ := encodeCanonicalWireBridgeEnvelope_eq_ok.mp hencode
  have hv := CanonicalWireBridgeEnvelope.Valid.of_ok hvalid
  obtain ⟨_, _, hmessage', hlow, hhigh⟩ := payloadMessage_of_valid hv.payload
  rw [hmessage] at hmessage'
  cases hmessage'
  -- The three fields of the envelope, read back in their order.
  have hwrite : envelopeBytes e no message
      = writeFields [⟨1, .bytes (utf8Bytes e.sessionId)⟩, ⟨2, .bytes (encodeMetadata e.metadata)⟩,
          ⟨no, .bytes message⟩] := by
    simp [envelopeBytes, writeFields, Field.write, stringField, messageField]
  have hread : readFields (envelopeBytes e no message) envelopeTable "WireBridgeEnvelope"
      = .ok [⟨1, .bytes (utf8Bytes e.sessionId)⟩, ⟨2, .bytes (encodeMetadata e.metadata)⟩,
          ⟨no, .bytes message⟩] := by
    rw [hwrite] at hlen ⊢
    refine readFields_writeFields _ _ _ ?_ ?_ hlen
    · intro f hf
      simp only [List.mem_cons, List.not_mem_nil, or_false] at hf
      rcases hf with rfl | rfl | rfl
      · exact ⟨rfl, by simp, by simp⟩
      · exact ⟨rfl, by simp, by simp⟩
      · refine ⟨?_, show 0 < no by omega, show no < 2 ^ 32 by omega⟩
        show envelopeTable.lookup no = some 2
        interval_cases no <;> rfl
    · simp only [List.map_cons, List.map_nil, List.nodup_cons, List.mem_cons, List.not_mem_nil,
        or_false, not_or, List.nodup_nil, and_true, not_false_eq_true]
      omega
  have hparts : (encodeMetadata e.metadata).length < 2 ^ 64 ∧ message.length < 2 ^ 64 := by
    simp only [envelopeBytes, stringField, messageField, bytesFieldBytes,
      List.length_append] at hlen
    omega
  have hmetadata := parseMetadata_encode hv.plain hparts.1
  have hpayload := parseEnvelopePayload_encode hv.payload hmessage hparts.2
  have hfilter : List.filter (fun field : Field => decide (3 ≤ field.no ∧ field.no ≤ 9))
      [⟨1, .bytes (utf8Bytes e.sessionId)⟩, ⟨2, .bytes (encodeMetadata e.metadata)⟩,
        ⟨no, .bytes message⟩] = [⟨no, .bytes message⟩] := by
    simp [hlow, hhigh]
  simp only [parseWireBridgeEnvelope, hread, bind, Except.bind, hfilter]
  simp [bytesField, Field.asBytes, utf8String_utf8Bytes hv.session, hmetadata, hpayload]

theorem decodeCanonicalWireBridgeEnvelope_encode
    (hencode : encodeCanonicalWireBridgeEnvelope e = .ok b) (hlen : b.length < 2 ^ 64) :
    decodeCanonicalWireBridgeEnvelope b = .ok e := by
  have hparse := parseWireBridgeEnvelope_encode hencode hlen
  have hvalid := (encodeCanonicalWireBridgeEnvelope_eq_ok.mp hencode).1
  simp [decodeCanonicalWireBridgeEnvelope, hparse, hvalid, hencode, bind, Except.bind]

theorem encode_of_decodeCanonicalWireBridgeEnvelope
    (h : decodeCanonicalWireBridgeEnvelope b = .ok e) :
    encodeCanonicalWireBridgeEnvelope e = .ok b := by
  unfold decodeCanonicalWireBridgeEnvelope at h
  cases hparse : parseWireBridgeEnvelope b with
  | error err =>
    rw [hparse] at h
    cases h
  | ok envelope =>
    cases hvalid : validateWireBridgeEnvelope envelope with
    | error err =>
      simp only [hparse, hvalid, bind, Except.bind] at h
      cases h
    | ok u =>
      cases hencode : encodeCanonicalWireBridgeEnvelope envelope with
      | error err =>
        simp only [hparse, hvalid, hencode, bind, Except.bind] at h
        cases h
      | ok canonical =>
        simp only [hparse, hvalid, hencode, bind, Except.bind] at h
        split_ifs at h with hne
        · cases h
        · cases h
          rw [hencode, not_not.mp hne]

/-! ### Frames -/

theorem encodeCanonicalWireEdgeFrame_eq_ok :
    encodeCanonicalWireEdgeFrame frame = .ok b ↔
      validateWireEdgeFrame frame = .ok () ∧ b = encodeWireEdgeFrame frame := by
  unfold encodeCanonicalWireEdgeFrame
  cases hvalid : validateWireEdgeFrame frame with
  | error err => simp [bind, Except.bind]
  | ok u => simp [bind, Except.bind, eq_comm]

theorem decodeCanonicalWireEdgeFrame_encode
    (hencode : encodeCanonicalWireEdgeFrame frame = .ok b) (hlen : b.length < 2 ^ 64) :
    decodeCanonicalWireEdgeFrame b = .ok frame := by
  obtain ⟨hvalid, rfl⟩ := encodeCanonicalWireEdgeFrame_eq_ok.mp hencode
  have hparse := parseWireEdgeFrame_encode hvalid hlen
  simp [decodeCanonicalWireEdgeFrame, hparse, hvalid, bind, Except.bind]

theorem encode_of_decodeCanonicalWireEdgeFrame (h : decodeCanonicalWireEdgeFrame b = .ok frame) :
    encodeCanonicalWireEdgeFrame frame = .ok b := by
  unfold decodeCanonicalWireEdgeFrame at h
  cases hparse : parseWireEdgeFrame b with
  | error err =>
    rw [hparse] at h
    cases h
  | ok parsed =>
    cases hvalid : validateWireEdgeFrame parsed with
    | error err =>
      simp only [hparse, hvalid, bind, Except.bind] at h
      cases h
    | ok u =>
      simp only [hparse, hvalid, bind, Except.bind] at h
      split_ifs at h with hne
      · cases h
      · cases h
        exact encodeCanonicalWireEdgeFrame_eq_ok.mpr ⟨hvalid, (not_not.mp hne).symm⟩

/-! ### The correspondence -/

/-- An encoder and a decoder that make the accepted values and the byte strings
    that decode correspond one to one. -/
structure Bijective {α : Type} (valid : α → Coded Unit) (encode : α → Coded Bytes)
    (decode : Bytes → Coded α) : Prop where
  encodes_iff : ∀ a, (∃ b, encode a = .ok b) ↔ valid a = .ok ()
  decode_encode : ∀ a b, encode a = .ok b → b.length < 2 ^ 64 → decode b = .ok a
  encode_decode : ∀ a b, decode b = .ok a → encode a = .ok b
  decode_injective : ∀ a b b', decode b = .ok a → decode b' = .ok a → b = b'
  encode_injective : ∀ a a' b, b.length < 2 ^ 64 → encode a = .ok b → encode a' = .ok b → a = a'

/-- What a codec has to satisfy, the rest follows. -/
theorem Bijective.of_inverse {α : Type} {valid : α → Coded Unit} {encode : α → Coded Bytes}
    {decode : Bytes → Coded α} (hiff : ∀ a, (∃ b, encode a = .ok b) ↔ valid a = .ok ())
    (hdecode : ∀ a b, encode a = .ok b → b.length < 2 ^ 64 → decode b = .ok a)
    (hencode : ∀ a b, decode b = .ok a → encode a = .ok b) : Bijective valid encode decode where
  encodes_iff := hiff
  decode_encode := hdecode
  encode_decode := hencode
  decode_injective a b b' h h' := by
    have heq := hencode a b h
    rw [hencode a b' h'] at heq
    exact (Except.ok.inj heq).symm
  encode_injective a a' b hlen h h' := by
    have heq := hdecode a b h hlen
    rw [hdecode a' b h' hlen] at heq
    exact (Except.ok.inj heq).symm

/-- Valid envelopes and frames correspond one to one to the byte strings that
    decode. The only condition is that the bytes can be counted in 64 bits. -/
theorem canonical_protobuf_bijection :
    Bijective validateWireBridgeEnvelope encodeCanonicalWireBridgeEnvelope
      decodeCanonicalWireBridgeEnvelope ∧
    Bijective validateWireEdgeFrame encodeCanonicalWireEdgeFrame decodeCanonicalWireEdgeFrame := by
  refine ⟨Bijective.of_inverse ?_ ?_ ?_, Bijective.of_inverse ?_ ?_ ?_⟩
  · intro e
    constructor
    · rintro ⟨b, hb⟩
      exact (encodeCanonicalWireBridgeEnvelope_eq_ok.mp hb).1
    · intro hvalid
      obtain ⟨no, message, hmessage, -⟩ := payloadMessage_of_valid
        (CanonicalWireBridgeEnvelope.Valid.of_ok hvalid).payload
      exact ⟨_, encodeCanonicalWireBridgeEnvelope_eq_ok.mpr ⟨hvalid, no, message, hmessage, rfl⟩⟩
  · exact fun e b => decodeCanonicalWireBridgeEnvelope_encode
  · exact fun e b => encode_of_decodeCanonicalWireBridgeEnvelope
  · intro frame
    constructor
    · rintro ⟨b, hb⟩
      exact (encodeCanonicalWireEdgeFrame_eq_ok.mp hb).1
    · intro hvalid
      exact ⟨_, encodeCanonicalWireEdgeFrame_eq_ok.mpr ⟨hvalid, rfl⟩⟩
  · exact fun frame b => decodeCanonicalWireEdgeFrame_encode
  · exact fun frame b => encode_of_decodeCanonicalWireEdgeFrame

/-- An envelope with an edge frame, every optional field and the largest
    sequence number. -/
def edgeEnvelope : CanonicalWireBridgeEnvelope where
  sessionId := "s"
  metadata := {
    seq := 18446744073709551615
    cursor := 0
    idempotencyKey := "k"
    attempt := 1
    maxAttempts := 300
    timestampMs := some 128
    ackForSeq := some 1
    requestId := some "é"
  }
  payload := .data (.wireEdge ⟨.data, "a", "b", some []⟩)

/-- Its bytes. -/
def edgeEnvelopeBytes : Bytes :=
  [10, 1, 115, 18, 30, 8, 255, 255, 255, 255, 255, 255, 255, 255, 255, 1, 16, 0, 26, 1, 107, 32, 1,
    40, 172, 2, 48, 128, 1, 56, 1, 66, 2, 195, 169, 34, 12, 18, 10, 8, 2, 18, 1, 97, 26,
      1, 98, 34, 0]

theorem canonical_protobuf_bijection_edge :
    encodeCanonicalWireBridgeEnvelope edgeEnvelope = .ok edgeEnvelopeBytes ∧
      decodeCanonicalWireBridgeEnvelope edgeEnvelopeBytes = .ok edgeEnvelope := by
  have hencode : encodeCanonicalWireBridgeEnvelope edgeEnvelope = .ok edgeEnvelopeBytes := by
    decide +kernel
  exact ⟨hencode, canonical_protobuf_bijection.1.decode_encode _ _ hencode (by decide)⟩

end GraphRefly.Bridge
