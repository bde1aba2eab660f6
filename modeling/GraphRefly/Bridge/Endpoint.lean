import GraphRefly.Bridge.Envelope

/-!
# A Wire Bridge Endpoint

The state one `wire_bridge` keeps and the two things that change it: a command
of its owner and an envelope of its peer. Each handler returns the new state
and the event facts it emits, in order.

Two steps of the source unwrap a result it believes cannot fail: a retried
envelope is built from metadata that was validated before, and a receipt that
passed the check names the sequence it is for. Both are written as an `error`
that carries the panic text, so that whether they can happen is a theorem about
the run and not a choice of the model.

## Main definitions

* `BridgeState`: Next sequence, accepted cursor, remote cursor, pending map.
* `emitOutbound`: Number, build, emit and perhaps track a new envelope.
* `processAckTimeoutCommand`: Report a timeout, give up or send again.
* `processCommand`: The handler of the six commands.
* `processInbound`: The handler of an envelope from the peer.

## Theorems

* `BridgeState.setPending_cases`: Where a pending envelope comes from after a write.
* `BridgeState.setPending_lost`: Which envelope a write can lose.
-/

namespace GraphRefly.Bridge

inductive WireBridgeCommand (T : Type)
  | start (idempotencyKey requestId : Option String)
  | send (payload : T) (idempotencyKey requestId : Option String)
  | ack (ackForSeq : Nat) (idempotencyKey requestId : Option String)
  | nack (ackForSeq : Nat) (error : String) (idempotencyKey requestId : Option String)
  | close (reason idempotencyKey : Option String)
  | ackTimeout (seq attempt : Nat) (observedAtMs : Option Nat)
  deriving DecidableEq

inductive WireBridgeReceipt
  | ack
  | nack
  deriving DecidableEq

inductive WireBridgeEvent (T U : Type)
  | outbound (envelope : WireBridgeEnvelope T)
  | inbound (envelope : WireBridgeEnvelope U)
  | ack (ackForSeq : Nat) (envelope : WireBridgeEnvelope U) (outbound : WireBridgeEnvelope T)
  | nack (ackForSeq : Nat) (envelope : WireBridgeEnvelope U) (outbound : WireBridgeEnvelope T)
      (error : String)
  | timeout (seq attempt : Nat)
  | retry (seq attempt delayMs : Nat) (error : String)
  | exhausted (seq attempt : Nat) (error : String)
  | cursor (cursor : Nat)
  | duplicate (seq cursor : Nat)
  | outOfOrder (seq expected : Nat)
  | sessionMismatch (expected actual : String)
  | lateReceipt (receipt : WireBridgeReceipt) (ackForSeq : Nat)
  | invalid (error : String)
  deriving DecidableEq

inductive WireBridgeIngress (U : Type)
  | envelope (envelope : WireBridgeEnvelope U)
  | invalid (error : String)
  deriving DecidableEq

structure WireBridgeOptions where
  sessionId : String
  retry : RetryPolicy

structure PendingEnvelope (T : Type) where
  envelope : WireBridgeEnvelope T
  timeoutReportedAttempt : Option Nat
  retryDueAtMs : Option Nat

/-- The state of one endpoint. Whether the events node is active is left out:
    an endpoint that stays active never reads it. -/
structure BridgeState (T : Type) where
  nextSeq : Nat
  cursor : Nat
  remoteCursor : Nat
  pending : Nat → Option (PendingEnvelope T)

/-- The state an events node starts with. -/
def BridgeState.initial (T : Type) : BridgeState T where
  nextSeq := 1
  cursor := 0
  remoteCursor := 0
  pending := fun _ => none

/-- What a handler leaves behind: the new state and its events, or the text of
    a panic. -/
abbrev Handled (T U : Type) := Except String (BridgeState T × List (WireBridgeEvent T U))

variable {T U : Type}

structure OutboundSpec (T : Type) where
  envelopeType : WireBridgeEnvelopeType
  payload : Option (WireBridgePayload T)
  idempotencyKey : Option String
  requestId : Option String
  ackForSeq : Option Nat
  trackAck : Bool
  clearPendingFirst : Bool

namespace BridgeState

section

variable (state : BridgeState T)

/-- Forget every pending envelope. -/
def clearPending : BridgeState T :=
  { state with pending := fun _ => none }

/-- Write one slot of the pending map. -/
def setPending (seq : Nat) (p : Option (PendingEnvelope T)) :
    BridgeState T :=
  { state with pending := Function.update state.pending seq p }

theorem setPending_self (seq : Nat) (p : Option (PendingEnvelope T)) :
    (state.setPending seq p).pending seq = p :=
  Function.update_self ..

theorem setPending_of_ne {seq k : Nat} (p : Option (PendingEnvelope T))
    (hk : k ≠ seq) : (state.setPending seq p).pending k = state.pending k :=
  Function.update_of_ne hk ..

end

theorem setPending_cases {state : BridgeState T} {seq k : Nat} {p : Option (PendingEnvelope T)}
    {q : PendingEnvelope T} (h : (state.setPending seq p).pending k = some q) :
    k = seq ∧ p = some q ∨ k ≠ seq ∧ state.pending k = some q := by
  by_cases hk : k = seq
  · subst hk
    exact Or.inl ⟨rfl, (setPending_self state k p).symm.trans h⟩
  · exact Or.inr ⟨hk, (setPending_of_ne state p hk).symm.trans h⟩

theorem setPending_lost {state : BridgeState T} {seq k : Nat} {p : Option (PendingEnvelope T)}
    {q : PendingEnvelope T} (h : state.pending k = some q)
    (hnone : (state.setPending seq p).pending k = none) : k = seq ∧ p = none := by
  by_cases hk : k = seq
  · subst hk
    exact ⟨rfl, (setPending_self state k p).symm.trans hnone⟩
  · rw [setPending_of_ne state p hk, h] at hnone
    exact absurd hnone (by simp)

end BridgeState

/-- The builder's input for a new envelope. -/
def OutboundSpec.input (spec : OutboundSpec T) (opts : WireBridgeOptions) (now : Nat)
    (state : BridgeState T) : WireBridgeEnvelopeInput T where
  sessionId := opts.sessionId
  envelopeType := spec.envelopeType
  seq := state.nextSeq
  cursor := state.cursor
  payload := spec.payload
  idempotencyKey := spec.idempotencyKey
  attempt := 1
  maxAttempts := opts.retry.maxAttempts
  timestampMs := some now
  ackForSeq := spec.ackForSeq
  requestId := spec.requestId

section

variable (opts : WireBridgeOptions) (now : Nat) (state : BridgeState T)

/-- Number, build and emit a new envelope, and track it when asked. -/
def emitOutbound (spec : OutboundSpec T) : BridgeState T × List (WireBridgeEvent T U) :=
  if state.nextSeq = u64Max then
    (state, [.invalid (opts.sessionId ++ ": next outbound seq exceeded u64::MAX")])
  else
    match wireBridgeEnvelope (spec.input opts now state) with
    | .error error => (state, [.invalid error.toString])
    | .ok envelope =>
      let cleared := if spec.clearPendingFirst then state.clearPending else state
      let numbered := { cleared with nextSeq := state.nextSeq + 1 }
      let tracked :=
        if spec.trackAck then
          numbered.setPending envelope.metadata.seq (some ⟨envelope, none, none⟩)
        else numbered
      (tracked, [.outbound envelope])

/-- The builder's input for the next attempt of a pending envelope. -/
def retryInput (current : WireBridgeEnvelope T) : WireBridgeEnvelopeInput T where
  sessionId := current.sessionId
  envelopeType := current.envelopeType
  seq := current.metadata.seq
  cursor := state.cursor
  payload := current.payload
  idempotencyKey := some current.metadata.idempotencyKey
  attempt := saturatingAdd u32Max current.metadata.attempt 1
  maxAttempts := opts.retry.maxAttempts
  timestampMs := some now
  ackForSeq := current.metadata.ackForSeq
  requestId := current.metadata.requestId

/-- Send a pending envelope again, under its old number and with the cursor and
    the time of now. -/
def emitRetryOutbound (current : WireBridgeEnvelope T) : Handled T U :=
  match wireBridgeEnvelope (retryInput opts now state current) with
  | .error _ => .error "retry envelope keeps validated metadata"
  | .ok retry =>
    let state :=
      match state.pending current.metadata.seq with
      | some _ => state.setPending current.metadata.seq (some ⟨retry, none, none⟩)
      | none => state
    .ok (state, [.outbound retry])

/-- Whether a timeout that was reported before has to wait for its due time. -/
def PendingEnvelope.waits (p : PendingEnvelope T) (observedAtMs : Option Nat) : Bool :=
  match p.retryDueAtMs, observedAtMs with
  | some retryDueAtMs, some observedAtMs => decide (observedAtMs < retryDueAtMs)
  | _, _ => false

/-- A pending envelope whose timeout is reported now. -/
def PendingEnvelope.report (p : PendingEnvelope T) (attempt delayMs : Nat)
    (observedAtMs : Option Nat) : PendingEnvelope T :=
  { p with
    timeoutReportedAttempt := some attempt
    retryDueAtMs :=
      if 0 < delayMs then observedAtMs.map fun ms => saturatingAdd u64Max ms delayMs
      else p.retryDueAtMs }

/-- The text a timeout is reported under. -/
def timeoutError (opts : WireBridgeOptions) (seq : Nat) : String :=
  opts.sessionId ++ ": ack timeout for seq " ++ toString seq

/-- Report a timeout, then give up, wait or send again. -/
def processAckTimeoutCommand (seq attempt : Nat) (observedAtMs : Option Nat) : Handled T U :=
  if seq = 0 then
    .ok (state, [.invalid "wireBridge: ack-timeout command seq must be positive"])
  else if attempt = 0 then
    .ok (state, [.invalid "wireBridge: ack-timeout command attempt must be positive"])
  else
    match state.pending seq with
    | none => .ok (state, [])
    | some p =>
      if p.envelope.metadata.attempt ≠ attempt then .ok (state, [])
      else if p.timeoutReportedAttempt = some attempt then
        if p.waits observedAtMs then .ok (state, [])
        else emitRetryOutbound opts now state p.envelope
      else if opts.retry.shouldRetry attempt = false then
        .ok (state.setPending seq none,
          [.timeout seq attempt, .exhausted seq attempt (timeoutError opts seq)])
      else
        let nextAttempt := saturatingAdd u32Max attempt 1
        let delayMs := (opts.retry.nextDelayMs nextAttempt).getD 0
        let reported := p.report attempt delayMs observedAtMs
        let state := state.setPending seq (some reported)
        let events :=
          [.timeout seq attempt, .retry seq nextAttempt delayMs (timeoutError opts seq)]
        if reported.retryDueAtMs.isSome then .ok (state, events)
        else
          match emitRetryOutbound opts now state p.envelope with
          | .error panic => .error panic
          | .ok (state, sent) => .ok (state, events ++ sent)

/-- The handler of a command. -/
def processCommand :
    WireBridgeCommand T → Handled T U
  | .start idempotencyKey requestId =>
    .ok (emitOutbound opts now state
      { envelopeType := .start, payload := none, idempotencyKey, requestId,
        ackForSeq := none, trackAck := true, clearPendingFirst := false })
  | .send payload idempotencyKey requestId =>
    .ok (emitOutbound opts now state
      { envelopeType := .data, payload := some (.data payload), idempotencyKey, requestId,
        ackForSeq := none, trackAck := true, clearPendingFirst := false })
  | .ack ackForSeq idempotencyKey requestId =>
    if ackForSeq = 0 then
      .ok (state, [.invalid "wireBridge: ack command ack_for_seq must be positive"])
    else
      .ok (emitOutbound opts now state
        { envelopeType := .ack, payload := none, idempotencyKey, requestId,
          ackForSeq := some ackForSeq, trackAck := false, clearPendingFirst := false })
  | .nack ackForSeq error idempotencyKey requestId =>
    if ackForSeq = 0 then
      .ok (state, [.invalid "wireBridge: nack command ack_for_seq must be positive"])
    else
      .ok (emitOutbound opts now state
        { envelopeType := .nack, payload := some (.error error), idempotencyKey, requestId,
          ackForSeq := some ackForSeq, trackAck := false, clearPendingFirst := false })
  | .close reason idempotencyKey =>
    .ok (emitOutbound opts now state
      { envelopeType := .close, payload := some (.close reason), idempotencyKey,
        requestId := none, ackForSeq := none, trackAck := true, clearPendingFirst := true })
  | .ackTimeout seq attempt observedAtMs =>
    processAckTimeoutCommand opts now state seq attempt observedAtMs

end

/-- The error text a payload carries. -/
def payloadErrorString (payload : Option (WireBridgePayload T)) (fallback : String) : String :=
  match payload with
  | some (.error error) => error
  | _ => fallback

section

variable (state : BridgeState T) (envelope : WireBridgeEnvelope U)

/-- The handler of an acknowledgement. -/
def processAck : Handled T U :=
  match envelope.metadata.ackForSeq with
  | none => .error "validated ack has ack_for_seq"
  | some ackForSeq =>
    match state.pending ackForSeq with
    | some p => .ok (state.setPending ackForSeq none, [.ack ackForSeq envelope p.envelope])
    | none => .ok (state.setPending ackForSeq none, [.lateReceipt .ack ackForSeq])

/-- The handler of a negative acknowledgement. -/
def processNack : Handled T U :=
  match envelope.metadata.ackForSeq with
  | none => .error "validated nack has ack_for_seq"
  | some ackForSeq =>
    match state.pending ackForSeq with
    | some p =>
      .ok (state.setPending ackForSeq none,
        [.nack ackForSeq envelope p.envelope
          (payloadErrorString envelope.payload "remote nack")])
    | none => .ok (state.setPending ackForSeq none, [.lateReceipt .nack ackForSeq])

/-- What follows an accepted envelope. -/
def processReceipt : Handled T U :=
  match envelope.envelopeType with
  | .ack => processAck state envelope
  | .nack => processNack state envelope
  | .start | .data | .status | .error | .close => .ok (state, [])

end

/-- The text of a cursor that went back. -/
def regressError (sessionId : String) (cursor remoteCursor : Nat) : String :=
  sessionId ++ ": inbound cursor " ++ toString cursor ++ " regressed below " ++
    toString remoteCursor

/-- The handler of an envelope of the peer. -/
def processInbound (sessionId : String) (state : BridgeState T) :
    WireBridgeIngress U → Handled T U
  | .invalid error => .ok (state, [.invalid error])
  | .envelope envelope =>
    match validateInboundEnvelope envelope with
    | .error error => .ok (state, [.invalid error.toString])
    | .ok () =>
      if envelope.sessionId ≠ sessionId then
        .ok (state, [.sessionMismatch sessionId envelope.sessionId])
      else
        let seq := envelope.metadata.seq
        let expected := saturatingAdd u64Max state.cursor 1
        if seq ≤ state.cursor then .ok (state, [.duplicate seq state.cursor])
        else if expected < seq then .ok (state, [.outOfOrder seq expected])
        else if envelope.metadata.cursor < state.remoteCursor then
          .ok (state,
            [.invalid (regressError sessionId envelope.metadata.cursor state.remoteCursor)])
        else
          let state := { state with remoteCursor := envelope.metadata.cursor, cursor := seq }
          match processReceipt state envelope with
          | .error panic => .error panic
          | .ok (state, receipts) =>
            .ok (state, .cursor seq :: .inbound envelope :: receipts)

end GraphRefly.Bridge
