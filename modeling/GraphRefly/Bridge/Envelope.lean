import GraphRefly.Json.Text
import Mathlib.Logic.Function.Iterate
import Mathlib.Algebra.Group.Nat.Defs

/-!
# Wire Bridge Envelopes

The facts two bridge endpoints exchange, how an endpoint builds one and how the
other checks one. Both sides spell out the same conditions, the builder on its
input and the checker on the finished envelope; `validateInboundEnvelope_build`
says that they agree.

Sequence numbers, cursors and times are `u64` and attempts are `u32` in the
program. Here they are natural numbers, and the few operations that can reach
the upper end are written with the bound.

## Main definitions

* `WireBridgeEnvelope`: An envelope with its metadata and payload.
* `validatePayloadForType`: The payload an envelope type requires.
* `wireBridgeEnvelope`: The builder.
* `validateInboundEnvelope`: The receiver's check.
* `RetryPolicy`: How often and after which delay an envelope is sent again.

## Theorems

* `wireBridgeEnvelope_eq_ok`: What the builder returns and what it has checked.
* `wireBridgeEnvelope_of_valid`: The builder accepts what the checker accepts.
* `validateInboundEnvelope_build`: The checker accepts what the builder returns.
-/

namespace GraphRefly.Bridge

/-- The largest `u64`. -/
def u64Max : Nat := 2 ^ 64 - 1

/-- The largest `u32`. -/
def u32Max : Nat := 2 ^ 32 - 1

/-- Saturating addition below a bound. -/
def saturatingAdd (bound a b : Nat) : Nat := min (a + b) bound

/-- Saturating multiplication below a bound. -/
def saturatingMul (bound a b : Nat) : Nat := min (a * b) bound

inductive WireBridgeEnvelopeType
  | start
  | data
  | ack
  | nack
  | status
  | error
  | close
  deriving DecidableEq

namespace WireBridgeEnvelopeType

/-- Whether the envelope is a receipt for an earlier one. -/
def isReceipt : WireBridgeEnvelopeType → Bool
  | ack | nack => true
  | start | data | status | error | close => false

end WireBridgeEnvelopeType

structure WireBridgeMetadata where
  /-- Monotonic envelope sequence within the bridge session. -/
  seq : Nat
  /-- Accepted inbound cursor observed by the sending side. -/
  cursor : Nat
  idempotencyKey : String
  attempt : Nat
  maxAttempts : Nat
  timestampMs : Option Nat
  ackForSeq : Option Nat
  requestId : Option String
  deriving DecidableEq

inductive WireBridgePayload (T : Type)
  | data (value : T)
  | error (message : String)
  | status (message : String)
  | close (reason : Option String)
  deriving DecidableEq

structure WireBridgeEnvelope (T : Type) where
  sessionId : String
  envelopeType : WireBridgeEnvelopeType
  payload : Option (WireBridgePayload T)
  metadata : WireBridgeMetadata
  deriving DecidableEq

inductive WireBridgeEnvelopeError
  | emptySessionId
  | zeroSeq
  | emptyIdempotencyKey
  | zeroAttempt
  | maxAttemptsBeforeAttempt
  | zeroAckForSeq
  | missingAckForSeq
  | missingPayload
  | unexpectedPayload
  | payloadTypeMismatch
  deriving DecidableEq

/-- The text an error is reported under. -/
def WireBridgeEnvelopeError.toString : WireBridgeEnvelopeError → String
  | emptySessionId => "wireBridgeEnvelope: session_id must be non-empty"
  | zeroSeq => "wireBridgeEnvelope: seq must be positive"
  | emptyIdempotencyKey => "wireBridgeEnvelope: idempotency_key must be non-empty"
  | zeroAttempt => "wireBridgeEnvelope: attempt must be positive"
  | maxAttemptsBeforeAttempt => "wireBridgeEnvelope: max_attempts must be >= attempt"
  | zeroAckForSeq => "wireBridgeEnvelope: ack_for_seq must be positive"
  | missingAckForSeq => "wireBridgeEnvelope: ack/nack requires ack_for_seq"
  | missingPayload => "wireBridgeEnvelope: envelope type requires a payload"
  | unexpectedPayload => "wireBridgeEnvelope: envelope type must not carry a payload"
  | payloadTypeMismatch => "wireBridgeEnvelope: payload kind does not match envelope type"

structure WireBridgeEnvelopeInput (T : Type) where
  sessionId : String
  envelopeType : WireBridgeEnvelopeType
  seq : Nat
  cursor : Nat
  payload : Option (WireBridgePayload T)
  idempotencyKey : Option String
  attempt : Nat
  maxAttempts : Nat
  timestampMs : Option Nat
  ackForSeq : Option Nat
  requestId : Option String

variable {T : Type}

/-- The key of an envelope whose command names none. -/
def wireBridgeIdempotencyKey (sessionId : String) (seq : Nat) : String :=
  Json.canonicalTupleKey [sessionId, toString seq]

/-- The payload an envelope type requires, forbids or mistakes. -/
def validatePayloadForType (envelopeType : WireBridgeEnvelopeType)
    (payload : Option (WireBridgePayload T)) : Except WireBridgeEnvelopeError Unit :=
  match envelopeType, payload with
  | .data, some (.data _) => .ok ()
  | .nack, some (.error _) | .error, some (.error _) => .ok ()
  | .status, some (.status _) => .ok ()
  | .close, some (.close _) => .ok ()
  | .start, none | .ack, none => .ok ()
  | .start, some _ | .ack, some _ => .error .unexpectedPayload
  | _, some _ => .error .payloadTypeMismatch
  | _, none => .error .missingPayload

/-- An envelope from its input, after every check the sender makes. -/
def wireBridgeEnvelope (input : WireBridgeEnvelopeInput T) :
    Except WireBridgeEnvelopeError (WireBridgeEnvelope T) :=
  if input.sessionId = "" then .error .emptySessionId
  else if input.seq = 0 then .error .zeroSeq
  else if input.attempt = 0 then .error .zeroAttempt
  else if input.maxAttempts < input.attempt then .error .maxAttemptsBeforeAttempt
  else if input.envelopeType.isReceipt = true ∧ input.ackForSeq = none then .error .missingAckForSeq
  else if input.ackForSeq = some 0 then .error .zeroAckForSeq
  else
    match validatePayloadForType input.envelopeType input.payload with
    | .error e => .error e
    | .ok () =>
      let idempotencyKey :=
        input.idempotencyKey.getD (wireBridgeIdempotencyKey input.sessionId input.seq)
      if idempotencyKey = "" then .error .emptyIdempotencyKey
      else .ok
        { sessionId := input.sessionId
          envelopeType := input.envelopeType
          payload := input.payload
          metadata :=
            { seq := input.seq
              cursor := input.cursor
              idempotencyKey := idempotencyKey
              attempt := input.attempt
              maxAttempts := input.maxAttempts
              timestampMs := input.timestampMs
              ackForSeq := input.ackForSeq
              requestId := input.requestId } }

/-- The receiver's check of an envelope. -/
def validateInboundEnvelope (envelope : WireBridgeEnvelope T) :
    Except WireBridgeEnvelopeError Unit :=
  if envelope.sessionId = "" then .error .emptySessionId
  else if envelope.metadata.seq = 0 then .error .zeroSeq
  else if envelope.metadata.idempotencyKey = "" then .error .emptyIdempotencyKey
  else if envelope.metadata.attempt = 0 then .error .zeroAttempt
  else if envelope.metadata.maxAttempts < envelope.metadata.attempt then
    .error .maxAttemptsBeforeAttempt
  else if envelope.metadata.ackForSeq = some 0 then .error .zeroAckForSeq
  else if envelope.envelopeType.isReceipt = true ∧ envelope.metadata.ackForSeq = none then
    .error .missingAckForSeq
  else validatePayloadForType envelope.envelopeType envelope.payload

/-- What both sides require of an envelope. -/
structure WireBridgeEnvelope.Valid (envelope : WireBridgeEnvelope T) : Prop where
  sessionId : envelope.sessionId ≠ ""
  seq : envelope.metadata.seq ≠ 0
  idempotencyKey : envelope.metadata.idempotencyKey ≠ ""
  attempt : envelope.metadata.attempt ≠ 0
  maxAttempts : envelope.metadata.attempt ≤ envelope.metadata.maxAttempts
  ackForSeq : envelope.metadata.ackForSeq ≠ some 0
  receipt : envelope.envelopeType.isReceipt = true → envelope.metadata.ackForSeq ≠ none
  payload : validatePayloadForType envelope.envelopeType envelope.payload = .ok ()

/-- The envelope an input describes, checked or not. -/
def WireBridgeEnvelopeInput.envelope (input : WireBridgeEnvelopeInput T) :
    WireBridgeEnvelope T where
  sessionId := input.sessionId
  envelopeType := input.envelopeType
  payload := input.payload
  metadata :=
    { seq := input.seq
      cursor := input.cursor
      idempotencyKey :=
        input.idempotencyKey.getD (wireBridgeIdempotencyKey input.sessionId input.seq)
      attempt := input.attempt
      maxAttempts := input.maxAttempts
      timestampMs := input.timestampMs
      ackForSeq := input.ackForSeq
      requestId := input.requestId }

theorem validateInboundEnvelope_eq_ok (envelope : WireBridgeEnvelope T) :
    validateInboundEnvelope envelope = .ok () ↔ envelope.Valid := by
  unfold validateInboundEnvelope
  constructor
  · intro h
    split_ifs at h with h₁ h₂ h₃ h₄ h₅ h₆ h₇
    exact ⟨h₁, h₂, h₃, h₄, by omega, h₆, fun hr hn => h₇ ⟨hr, hn⟩, h⟩
  · intro h
    rw [if_neg h.sessionId, if_neg h.seq, if_neg h.idempotencyKey, if_neg h.attempt,
      if_neg (by have := h.maxAttempts; omega), if_neg h.ackForSeq,
      if_neg (fun hr => h.receipt hr.1 hr.2)]
    exact h.payload

/-- The builder returns the envelope its input describes, when it is valid. -/
theorem wireBridgeEnvelope_eq_ok (input : WireBridgeEnvelopeInput T) (e : WireBridgeEnvelope T) :
    wireBridgeEnvelope input = .ok e ↔ input.envelope.Valid ∧ e = input.envelope := by
  unfold wireBridgeEnvelope
  constructor
  · intro h
    split_ifs at h with h₁ h₂ h₃ h₄ h₅ h₆
    cases hp : validatePayloadForType input.envelopeType input.payload with
    | error err => simp [hp] at h
    | ok u =>
      simp only [hp] at h
      split_ifs at h with h₇
      have he : input.envelope = e := Except.ok.inj h
      exact ⟨⟨h₁, h₂, h₇, h₃, Nat.le_of_not_lt h₄, h₆, fun hr hn => h₅ ⟨hr, hn⟩, hp⟩, he.symm⟩
  · rintro ⟨⟨h₁, h₂, h₃, h₄, h₅, h₆, h₇, h₈⟩, rfl⟩
    simp only [WireBridgeEnvelopeInput.envelope] at h₁ h₂ h₃ h₄ h₅ h₆ h₇ h₈
    rw [if_neg h₁, if_neg h₂, if_neg h₄, if_neg (Nat.not_lt.mpr h₅),
      if_neg (fun hr => h₇ hr.1 hr.2), if_neg h₆, h₈]
    exact if_neg h₃

/-- What the builder returns, the receiver accepts. -/
theorem validateInboundEnvelope_build {input : WireBridgeEnvelopeInput T}
    {e : WireBridgeEnvelope T} (h : wireBridgeEnvelope input = .ok e) :
    validateInboundEnvelope e = .ok () := by
  obtain ⟨hvalid, rfl⟩ := (wireBridgeEnvelope_eq_ok input e).mp h
  exact (validateInboundEnvelope_eq_ok _).mpr hvalid

/-! ### Retry policies -/

inductive BackoffPolicy
  | none
  | constant (delayMs : Nat)
  | linear (initialMs stepMs : Nat) (maxMs : Option Nat)
  | exponential (initialMs factor : Nat) (maxMs : Option Nat)
  | fibonacci (unitMs : Nat) (maxMs : Option Nat)
  deriving DecidableEq

/-- A value below an optional maximum. -/
def cap (value : Nat) (max : Option Nat) : Nat :=
  max.elim value (min value)

/-- Saturating Fibonacci numbers, by the pair of the last two. -/
def fibonacci (n : Nat) : Nat :=
  (Nat.iterate (fun p : Nat × Nat => (p.2, saturatingAdd u32Max p.1 p.2)) n (0, 1)).1

/-- The delay before an attempt. -/
def BackoffPolicy.delayMs : BackoffPolicy → Nat → Nat
  | none, _ => 0
  | constant delayMs, _ => delayMs
  | linear initialMs stepMs maxMs, attempt =>
    cap (saturatingAdd u64Max initialMs (saturatingMul u64Max stepMs (attempt - 1))) maxMs
  | exponential initialMs factor maxMs, attempt =>
    cap (saturatingMul u64Max initialMs (min (factor ^ (attempt - 1)) u32Max)) maxMs
  | fibonacci unitMs maxMs, attempt =>
    cap (saturatingMul u64Max unitMs (Bridge.fibonacci attempt)) maxMs

structure RetryPolicy where
  maxAttempts : Nat
  backoff : BackoffPolicy
  deriving DecidableEq

namespace RetryPolicy

/-- Whether a failed attempt may be followed by another. -/
def shouldRetry (policy : RetryPolicy) (failedAttempt : Nat) : Bool :=
  decide (failedAttempt < policy.maxAttempts)

/-- The delay before the next attempt, if there may be one. -/
def nextDelayMs (policy : RetryPolicy) (nextAttempt : Nat) : Option Nat :=
  if nextAttempt = 0 ∨ policy.maxAttempts < nextAttempt then .none
  else some (policy.backoff.delayMs nextAttempt)

end RetryPolicy

end GraphRefly.Bridge
