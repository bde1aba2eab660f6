import GraphRefly.Bridge.Accounts
import GraphRefly.Bridge.Delivery
import GraphRefly.Bridge.Gate
import GraphRefly.Json.Identity

/-!
# Cohorts Across A Bridge

An outbound group at the left end of a session and an inbound group with the same
edges at the right end. The channel drops, duplicates and reorders, and timeouts make
the left bridge send again.

The left bridge numbers the frames of the cohorts in the order in which the cohorts
are sent, and the right bridge takes the first of them, each once and in order,
whatever the channel does. A bridge that runs out of numbers sends a part of one
cohort and nothing after it.

## Main definitions

* `GroupWorld`, `groupStep`, `groupRun`: Everything that can happen.
* `calm`: No frame reaches the gate that the bridge does not take.
* `CohortsReleased`: What becomes of the cohorts.
* `Stream`, `Outflow`: What the left bridge has numbered, against the cohorts.

## Theorems

* `Stream.act`: The stream after one more action.
* `Stream.received_prefix`: What the right bridge has taken of the stream.
* `Outflow.act`, `Outflow.send`: The cohorts after one more step.
-/

namespace GraphRefly.Bridge

open List GraphRefly.Json

/-! ### Everything that can happen -/

/-- A session with a group at each end. The two groups have the same edges, in any
    order. -/
structure GroupSetup where
  session : Setup
  outName : String
  inName : String
  edges : List String
  expectedIds : List String
  edges_ne : edges ≠ []
  nodup : edges.Nodup
  ids_ne : ∀ id ∈ edges, id ≠ ""
  perm : expectedIds.Perm edges

/-- The frame an envelope carries. -/
def WireBridgeEnvelope.frame? (envelope : WireBridgeEnvelope WireBridgeProtobufDataBody) :
    Option CanonicalWireEdgeFrame :=
  match envelope.payload with
  | some (.data (.wireEdge frame)) => some frame
  | _ => none

/-- The frame a command sends. -/
def WireBridgeCommand.frame? : WireBridgeCommand WireBridgeProtobufDataBody →
    Option CanonicalWireEdgeFrame
  | .send (.wireEdge frame) _ _ => some frame
  | _ => none

/-- What happens at the inbound end: the bridge takes a frame, the bridge ends, and a
    cohort is released. -/
inductive GroupFact
  | frame (frame : CanonicalWireEdgeFrame)
  | ended
  | released (release : WireEdgeGroupReleaseCohort)

/-- A session with its outbound group, the cohorts that were sent, and its gate. -/
structure GroupWorld (V : Type) where
  session : Session WireBridgeProtobufDataBody WireBridgeProtobufDataBody
  out : WireEdgeGroupOutState V
  cohorts : List Cohort
  gate : WireEdgeGroupGateState
  log : List GroupFact

def GroupWorld.initial (V : Type) : GroupWorld V :=
  ⟨.initial _ _, .initial V, [], .default, []⟩

inductive GroupStep (V : Type)
  /-- An action of the session. -/
  | act (action : Action WireBridgeProtobufDataBody WireBridgeProtobufDataBody)
  /-- New values at the outbound edges, and the clock the bridge reads at each command. -/
  | run (now : Nat → Nat) (batches : List (EdgeBatch V))

/-- Actions one after the other. -/
def Session.actAll {T U : Type} (P : Setup) : List (Action T U) → Session T U →
    Option (Session T U)
  | [], c => some c
  | a :: as, c => (c.act P a).bind (Session.actAll P as)

/-- The commands among the events of a group. -/
def groupCommands (events : List WireEdgeGroupEvent) :
    List (WireBridgeCommand WireBridgeProtobufDataBody) :=
  events.filterMap fun
    | .outbound command => some command
    | _ => none

/-- What the gate makes of an envelope that arrives, and whether the bridge ended. -/
def arrive (S : GroupSetup) (gate : WireEdgeGroupGateState)
    (envelope : WireBridgeEnvelope WireBridgeProtobufDataBody) :
    WireEdgeGroupGateState × List GroupFact :=
  match wireEdgeGroupFrameEvent S.inName S.session.sessionId (.envelope envelope) with
  | none => (gate, [])
  | some event =>
    let (gate, outputs) := gate.gateEvent S.inName S.expectedIds event
    (gate, (if event = .bridgeEnd then [.ended] else []) ++ (releasesOf outputs).map .released)

section Run

variable {V : Type} [DecidableEq V]

/-- One step. Frames are sent by the group alone, so a command that sends one is none. -/
def groupStep (S : GroupSetup) (w : GroupWorld V) : GroupStep V → Option (GroupWorld V)
  | .act (.commandLeft now cmd) =>
    if cmd.frame?.isSome then none
    else (w.session.act S.session (.commandLeft now cmd)).map fun session => { w with session }
  | .act (.deliverRight index) =>
    (outbounds w.session.left.events)[index]?.bind fun envelope =>
      match processInbound S.session.sessionId w.session.right.state (.envelope envelope) with
      | .error _ => none
      | .ok (state, events) =>
        let (gate, facts) := arrive S w.gate envelope
        some { w with
          session := { w.session with right := ⟨state, w.session.right.events ++ events⟩ }
          gate
          log := w.log ++
            ((inbounds events).filterMap WireBridgeEnvelope.frame?).map .frame ++ facts }
  | .act a => (w.session.act S.session a).map fun session => { w with session }
  | .run now batches =>
    let (out, events, cohort) := wireEdgeGroupEvents S.outName S.edges w.out batches
    (w.session.actAll S.session ((groupCommands events).mapIdx fun i cmd =>
        .commandLeft (now i) cmd)).map fun session =>
      { w with session, out, cohorts := w.cohorts ++ cohort.toList }

/-- A run of steps, each of which the guard allows. -/
def groupRun (S : GroupSetup) (ok : GroupWorld V → GroupStep V → Bool) :
    List (GroupStep V) → GroupWorld V → Option (GroupWorld V)
  | [], w => some w
  | step :: steps, w => if ok w step then (groupStep S w step).bind (groupRun S ok steps) else none

end Run

instance (g : WireEdgeGroupGateState) (causeId : String) : Decidable (g.knows causeId) :=
  inferInstanceAs (Decidable (_ ∨ _))

/-- Whether a bridge takes an envelope: it is the next one in sequence, and its cursor
    does not go back. -/
def BridgeState.takes {T U : Type} (s : BridgeState T) (envelope : WireBridgeEnvelope U) : Bool :=
  !decide (envelope.metadata.seq ≤ s.cursor) &&
    !decide (saturatingAdd u64Max s.cursor 1 < envelope.metadata.seq) &&
      !decide (envelope.metadata.cursor < s.remoteCursor)

/-- No frame reaches the gate that its bridge does not take, unless the gate remembers
    the cause of the frame. -/
def calm {V : Type} (w : GroupWorld V) : GroupStep V → Bool
  | .act (.deliverRight index) =>
    match (outbounds w.session.left.events)[index]? with
    | none => true
    | some envelope =>
      match envelope.frame? with
      | none => true
      | some frame => w.session.right.state.takes envelope || decide
        (w.gate.knows frame.causeId)
  | _ => true

/-! ### What becomes of the cohorts -/

/-- The frames the bridge has taken. -/
def framesOf (log : List GroupFact) : List CanonicalWireEdgeFrame :=
  log.filterMap fun
    | .frame frame => some frame
    | _ => none

/-- The cohorts that were released. -/
def releases (log : List GroupFact) : List WireEdgeGroupReleaseCohort :=
  log.filterMap fun
    | .released release => some release
    | _ => none

/-- The bridge ended between two frames of a cohort. -/
def Interrupted (cohort : Cohort) (log : List GroupFact) : Prop :=
  ∃ before first during last after,
    log = before ++ .frame first :: during ++ .frame last :: after ∧
      first.causeId = cohort.causeId ∧ last.causeId = cohort.causeId ∧ .ended ∈ during

/-- The receiving bridge has accepted an envelope with each frame of a cohort. -/
def CameThrough {V : Type} (cohort : Cohort) (w : GroupWorld V) : Prop :=
  ∀ frame ∈ cohort.frames, ∃ envelope ∈ outbounds w.session.left.events,
    envelope.frame? = some frame ∧ envelope.metadata.seq ≤ w.session.right.state.cursor

/-- Releases carry cohorts that were sent, in the order in which they were sent and each
    once, and a cohort that came through without an end of the bridge is released. -/
structure CohortsReleased {V : Type} (w : GroupWorld V) : Prop where
  ordered : ∃ cohorts, cohorts.Sublist w.cohorts ∧ List.Forall₂ Carries (releases w.log) cohorts
  once : ((releases w.log).map (·.causeId)).Nodup
  released : ∀ cohort ∈ w.cohorts, CameThrough cohort w → ¬ Interrupted cohort w.log →
    ∃ release ∈ releases w.log, Carries release cohort

/-! ### What the left bridge has numbered -/

/-- The endpoint can send: the session has a name and an attempt is allowed. -/
def Sendable (P : Setup) : Prop :=
  P.sessionId ≠ "" ∧ P.leftRetry.maxAttempts ≠ 0

/-- What a command that sends data without keys asks for. -/
def OutboundSpec.ofData (body : WireBridgeProtobufDataBody) :
    OutboundSpec WireBridgeProtobufDataBody where
  envelopeType := .data
  payload := some (.data body)
  idempotencyKey := none
  requestId := none
  ackForSeq := none
  trackAck := true
  clearPendingFirst := false

variable {s : BridgeState WireBridgeProtobufDataBody}

/-- An envelope of data without keys is built exactly when the endpoint can send and has
    a number left. -/
theorem emitOutbound_ofData {U : Type} (P : Setup) (now : Nat) (hpos : 1 ≤ s.nextSeq)
    (body : WireBridgeProtobufDataBody) :
    (Sendable P ∧ s.nextSeq ≠ u64Max ∧ ∃ s' e, emitOutbound (U := U) P.leftOpts now s
      (.ofData body) =
        (s', [.outbound e]) ∧ s'.nextSeq = s.nextSeq + 1 ∧ e.payload = some (.data body)) ∨
      (¬ (Sendable P ∧ s.nextSeq ≠ u64Max) ∧ ∃ error,
        emitOutbound (U := U) P.leftOpts now s (.ofData body) = (s, [.invalid error])) := by
  generalize hspec : OutboundSpec.ofData body = spec
  by_cases hlimit : s.nextSeq = u64Max
  · exact Or.inr ⟨fun h => h.2 hlimit, _, if_pos hlimit⟩
  have hkey : wireBridgeIdempotencyKey P.sessionId s.nextSeq ≠ "" := by
    intro hnil
    have hlength := congrArg String.toList hnil
    simp [wireBridgeIdempotencyKey, canonicalTupleKey] at hlength
  by_cases hsend : Sendable P
  · refine Or.inl ⟨hsend, hlimit, ?_⟩
    have hvalid : (spec.input P.leftOpts now s).envelope.Valid := by
      subst hspec
      refine ⟨hsend.1, ?_, hkey, Nat.one_ne_zero, ?_, ?_, ?_, rfl⟩
      · exact Nat.one_le_iff_ne_zero.mp hpos
      · exact Nat.one_le_iff_ne_zero.mpr hsend.2
      · exact fun h => absurd h (by simp [OutboundSpec.ofData, OutboundSpec.input,
          WireBridgeEnvelopeInput.envelope])
      · exact fun h => absurd h (by simp [OutboundSpec.ofData, OutboundSpec.input,
          WireBridgeEnvelopeInput.envelope, WireBridgeEnvelopeType.isReceipt])
    rcases emitOutbound_cases (U := U) P.leftOpts now s spec with ⟨error, heq⟩ | ⟨s', heq, hnext⟩
    · have hbuild := (wireBridgeEnvelope_eq_ok (spec.input P.leftOpts now s) _).mpr ⟨hvalid, rfl⟩
      rw [emitOutbound, if_neg hlimit, hbuild] at heq
      exact absurd (Prod.mk.inj heq).2 (by simp)
    · subst hspec
      exact ⟨s', _, heq, hnext, rfl⟩
  · refine Or.inr ⟨fun h => hsend h.1, ?_⟩
    rcases emitOutbound_cases (U := U) P.leftOpts now s spec with ⟨error, heq⟩ | ⟨s', heq, hnext⟩
    · exact ⟨error, heq⟩
    · -- What is built is valid, and then the endpoint can send.
      rw [emitOutbound, if_neg hlimit] at heq
      cases hbuild : wireBridgeEnvelope (spec.input P.leftOpts now s) with
      | error err =>
        rw [hbuild] at heq
        exact absurd (Prod.mk.inj heq).2 (by simp)
      | ok e =>
        obtain ⟨hvalid, rfl⟩ := (wireBridgeEnvelope_eq_ok _ _).mp hbuild
        refine absurd ⟨hvalid.sessionId, ?_⟩ hsend
        have hmax := hvalid.maxAttempts
        have hattempt := hvalid.attempt
        simp only [WireBridgeEnvelopeInput.envelope, OutboundSpec.input, Setup.leftOpts] at hmax
        omega

variable {now : Nat}

variable {opts : WireBridgeOptions}

theorem emitOutbound_sent {T U : Type} {s s' : BridgeState T}
    {spec : OutboundSpec T} {es : List (WireBridgeEvent T U)} {e : WireBridgeEnvelope T}
    (h : emitOutbound opts now s spec = (s', es)) (hsent : outbounds es = [e]) :
    s.nextSeq ≠ u64Max ∧ e.payload = spec.payload := by
  by_cases hlimit : s.nextSeq = u64Max
  · rw [emitOutbound, if_pos hlimit] at h
    cases h
    exact absurd (show ([] : List (WireBridgeEnvelope T)) = [e] from hsent) (by simp)
  · refine ⟨hlimit, ?_⟩
    rcases emitOutbound_cases (U := U) opts now s spec with ⟨error, heq⟩ | ⟨s₁, heq, hnext⟩
    · obtain ⟨-, rfl⟩ := Prod.mk.inj (heq.symm.trans h)
      exact absurd (show ([] : List (WireBridgeEnvelope T)) = [e] from hsent) (by simp)
    · obtain ⟨-, rfl⟩ := Prod.mk.inj (heq.symm.trans h)
      obtain rfl : (spec.input opts now s).envelope = e := by
        simpa [outbounds, WireBridgeEvent.outbound?] using hsent
      rfl

variable {e : WireBridgeEnvelope WireBridgeProtobufDataBody}

theorem processCommand_sent {U : Type} {s' : BridgeState WireBridgeProtobufDataBody}
    {cmd : WireBridgeCommand WireBridgeProtobufDataBody}
    {es : List (WireBridgeEvent WireBridgeProtobufDataBody U)}
    (h : processCommand opts now s cmd = .ok (s', es)) (hsent : outbounds es = [e])
    (hnext : s'.nextSeq = s.nextSeq + 1) : s.nextSeq ≠ u64Max ∧ e.frame? = cmd.frame? := by
  cases cmd with
  | start idempotencyKey requestId =>
    obtain ⟨hlimit, hpayload⟩ := emitOutbound_sent (Except.ok.inj h) hsent
    exact ⟨hlimit, by rw [WireBridgeEnvelope.frame?, hpayload]; rfl⟩
  | send payload idempotencyKey requestId =>
    obtain ⟨hlimit, hpayload⟩ := emitOutbound_sent (Except.ok.inj h) hsent
    refine ⟨hlimit, ?_⟩
    rw [WireBridgeEnvelope.frame?, hpayload]
    cases payload <;> rfl
  | ack ackForSeq idempotencyKey requestId =>
    by_cases hzero : ackForSeq = 0
    · rw [processCommand, if_pos hzero] at h
      cases h
      exact absurd hnext (by omega)
    · rw [processCommand, if_neg hzero] at h
      obtain ⟨hlimit, hpayload⟩ := emitOutbound_sent (Except.ok.inj h) hsent
      exact ⟨hlimit, by rw [WireBridgeEnvelope.frame?, hpayload]; rfl⟩
  | nack ackForSeq error idempotencyKey requestId =>
    by_cases hzero : ackForSeq = 0
    · rw [processCommand, if_pos hzero] at h
      cases h
      exact absurd hnext (by omega)
    · rw [processCommand, if_neg hzero] at h
      obtain ⟨hlimit, hpayload⟩ := emitOutbound_sent (Except.ok.inj h) hsent
      exact ⟨hlimit, by rw [WireBridgeEnvelope.frame?, hpayload]; rfl⟩
  | close reason idempotencyKey =>
    obtain ⟨hlimit, hpayload⟩ := emitOutbound_sent (Except.ok.inj h) hsent
    exact ⟨hlimit, by rw [WireBridgeEnvelope.frame?, hpayload]; rfl⟩
  | ackTimeout seq attempt observedAtMs =>
    have hsame := (processAckTimeoutCommand_sent h).1
    omega

abbrev GroupSession := Session WireBridgeProtobufDataBody WireBridgeProtobufDataBody

/-- The envelopes the left bridge has numbered, in the order of their numbers. Every
    attempt it has emitted carries the message of the one with its number. -/
structure Stream (P : Setup) (c : GroupSession)
    (stream : List (WireBridgeEnvelope WireBridgeProtobufDataBody)) : Prop where
  sound : c.Sound P
  flow : Session.Flow P c
  positive : 1 ≤ c.left.state.nextSeq
  bounded : c.left.state.nextSeq ≤ u64Max
  numbers : stream.map (·.metadata.seq) = List.range' 1 (c.left.state.nextSeq - 1)
  message : ∀ e ∈ outbounds c.left.events, ∃ f ∈ stream,
    f.metadata.seq = e.metadata.seq ∧ f.message = e.message

/-- The stream before and after an action: it stays, or it ends with the envelope of a
    command of the left side. -/
inductive Extends (c c' : GroupSession) :
    Action WireBridgeProtobufDataBody WireBridgeProtobufDataBody →
      List (WireBridgeEnvelope WireBridgeProtobufDataBody) →
        List (WireBridgeEnvelope WireBridgeProtobufDataBody) → Prop
  | stays {a stream} (next : c'.left.state.nextSeq = c.left.state.nextSeq) :
      Extends c c' a stream stream
  | sends {now cmd stream} (e : WireBridgeEnvelope WireBridgeProtobufDataBody)
      (frame : e.frame? = cmd.frame?)
      (next : c'.left.state.nextSeq = c.left.state.nextSeq + 1)
      (left : c.left.state.nextSeq ≠ u64Max) :
      Extends c c' (.commandLeft now cmd) stream (stream ++ [e])

variable {P : Setup} {c c' : GroupSession}
  {stream : List (WireBridgeEnvelope WireBridgeProtobufDataBody)}

theorem Stream.initial (P : Setup) : Stream P (.initial _ _) [] where
  sound := Session.initial_sound P
  flow := Session.initial_flow P
  positive := Nat.le_refl 1
  bounded := by simp [Session.initial, Endpoint.initial, BridgeState.initial, u64Max]
  numbers := rfl
  message := fun e he => absurd he not_mem_nil

theorem Stream.keep (h : Stream P c stream) (hsound : c'.Sound P) (hflow : Session.Flow P c')
    (hnext : c'.left.state.nextSeq = c.left.state.nextSeq)
    (hsent : ∀ e ∈ outbounds c'.left.events, e ∈ outbounds c.left.events) : Stream P c' stream where
  sound := hsound
  flow := hflow
  positive := hnext ▸ h.positive
  bounded := hnext ▸ h.bounded
  numbers := by rw [hnext, h.numbers]
  message := fun e he => h.message e (hsent e he)

/-- The stream after one more action. -/
theorem Stream.act (h : Stream P c stream)
    {a : Action WireBridgeProtobufDataBody WireBridgeProtobufDataBody}
    (hact : c.act P a = some c') :
    ∃ stream', Stream P c' stream' ∧ Extends c c' a stream stream' := by
  have hacted := Session.act_cases h.sound hact
  have hsound := hacted.sound h.sound
  have hflow := Session.flow_step h.sound hacted h.flow
  cases a with
  | commandRight now cmd =>
    cases hacted with
    | commandRight hdone =>
      exact ⟨stream, h.keep hsound hflow rfl fun _ he => he, .stays rfl⟩
  | deliverRight index =>
    cases hacted with
    | deliverRight hmem hsent hdone =>
      exact ⟨stream, h.keep hsound hflow rfl fun _ he => he, .stays rfl⟩
  | deliverLeft index =>
    cases hacted with
    | @deliverLeft _ envelope s' es hmem hsent hdone =>
      have hnext : s'.nextSeq = c.left.state.nextSeq := by
        cases hdone with
        | refused same => rw [same]
        | accepted _ _ _ _ nextSeq => exact nextSeq
      refine ⟨stream, h.keep hsound hflow hnext fun e he => ?_, .stays hnext⟩
      rwa [outbounds_append, hsent, append_nil] at he
  | commandLeft now cmd =>
    obtain ⟨s', es, hok, hcommanded⟩ :=
      command_cases (U := WireBridgeProtobufDataBody) now h.sound.left cmd
    simp only [Session.act, hok, Endpoint.take, Option.map_some, Option.some.injEq] at hact
    subst hact
    cases hcommanded.step with
    | silent sent nextSeq kept lost =>
      refine ⟨stream, h.keep hsound hflow nextSeq fun e he => ?_, .stays nextSeq⟩
      rwa [outbounds_append, sent, append_nil] at he
    | fresh e sent nextSeq valid session seq stamp kept tracked lost =>
      obtain ⟨hlimit, hframe⟩ := processCommand_sent hok sent nextSeq
      have hpos := h.positive
      have hbound := h.bounded
      refine ⟨stream ++ [e], ⟨hsound, hflow, ?_, ?_, ?_, ?_⟩, .sends e hframe nextSeq hlimit⟩
      · show 1 ≤ s'.nextSeq
        omega
      · show s'.nextSeq ≤ u64Max
        omega
      · show _ = List.range' 1 (s'.nextSeq - 1)
        rw [nextSeq, Nat.add_sub_cancel, ← Nat.sub_add_cancel hpos, List.range'_concat,
          map_append, h.numbers]
        simp [seq]
        omega
      · intro f hf
        rw [outbounds_append, sent] at hf
        rcases mem_append.mp hf with hf | hf
        · obtain ⟨g, hg, heq⟩ := h.message f hf
          exact ⟨g, mem_append_left _ hg, heq⟩
        · obtain rfl := mem_singleton.mp hf
          exact ⟨f, by simp, rfl, rfl⟩
    | retry seq p e asked pending sent nextSeq valid session number message stamp after =>
      refine ⟨stream, ⟨hsound, hflow, ?_, ?_, ?_, ?_⟩, .stays nextSeq⟩
      · exact nextSeq ▸ h.positive
      · exact nextSeq ▸ h.bounded
      · rw [h.numbers, nextSeq]
      · intro f hf
        rw [outbounds_append, sent] at hf
        rcases mem_append.mp hf with hf | hf
        · exact h.message f hf
        · -- Another attempt carries the message of the pending envelope.
          obtain rfl := mem_singleton.mp hf
          obtain ⟨g, hg, hseq, hmessage⟩ := h.message p.envelope (h.flow.pending seq p pending)
          exact ⟨g, hg, hseq.trans ((h.sound.left seq p pending).number.trans number.symm),
            hmessage.trans message.symm⟩

/-- The frames of a stream. -/
def streamFrames (stream : List (WireBridgeEnvelope WireBridgeProtobufDataBody)) :
    List CanonicalWireEdgeFrame :=
  stream.filterMap WireBridgeEnvelope.frame?

variable {frame : CanonicalWireEdgeFrame}

theorem Stream.send (h : Stream P c stream)
    (hact : c.act P (.commandLeft now (wireEdgeGroupSend frame)) = some c') :
    ∃ stream', Stream P c' stream' ∧
      ((Sendable P ∧ c.left.state.nextSeq ≠ u64Max ∧
          streamFrames stream' = streamFrames stream ++ [frame] ∧
            c'.left.state.nextSeq = c.left.state.nextSeq + 1) ∨
        (¬ (Sendable P ∧ c.left.state.nextSeq ≠ u64Max) ∧
          streamFrames stream' = streamFrames stream ∧
            c'.left.state.nextSeq = c.left.state.nextSeq)) := by
  obtain ⟨stream', hstream, hext⟩ := h.act hact
  refine ⟨stream', hstream, ?_⟩
  have hprocess : processCommand (U := WireBridgeProtobufDataBody) P.leftOpts now c.left.state
      (wireEdgeGroupSend frame) = .ok (emitOutbound P.leftOpts now c.left.state
        (.ofData (.wireEdge frame))) := rfl
  rw [Session.act, hprocess] at hact
  rcases emitOutbound_ofData (U := WireBridgeProtobufDataBody) P now h.positive
    (.wireEdge frame) with ⟨hsend, hleft, s', e, heq, hnext, hpayload⟩ | ⟨hnot, error, heq⟩
  · rw [heq] at hact
    simp only [Endpoint.take, Option.map_some, Option.some.injEq] at hact
    subst hact
    refine Or.inl ⟨hsend, hleft, ?_, hnext⟩
    cases hext with
    | stays next => exact absurd (next.symm.trans hnext) (by omega)
    | sends f hframe _ _ =>
      have hone : f.frame? = some frame := hframe
      rw [streamFrames, filterMap_append, filterMap_cons, hone]
      rfl
  · rw [heq] at hact
    simp only [Endpoint.take, Option.map_some, Option.some.injEq] at hact
    subst hact
    refine Or.inr ⟨hnot, ?_, rfl⟩
    cases hext with
    | stays next => rfl
    | sends f hframe next _ => exact absurd next (by simp)

/-- The frames of a cohort go out one after the other: all of them if the bridge has
    numbers left in the end, none if it had none to begin with. -/
theorem Stream.sendAll (now : Nat → Nat) (frames : List CanonicalWireEdgeFrame)
    (h : Stream P c stream)
    (hact : c.actAll P ((frames.map wireEdgeGroupSend).mapIdx fun i cmd =>
      .commandLeft (now i) cmd) = some c') :
    ∃ stream' sent, Stream P c' stream' ∧ sent <+: frames ∧
      streamFrames stream' = streamFrames stream ++ sent ∧
      c.left.state.nextSeq ≤ c'.left.state.nextSeq ∧
      (Sendable P → c'.left.state.nextSeq ≠ u64Max →
        sent = frames ∧ c'.left.state.nextSeq = c.left.state.nextSeq + frames.length) ∧
      (¬ (Sendable P ∧ c.left.state.nextSeq ≠ u64Max) → sent = []) := by
  induction frames generalizing c stream now with
  | nil =>
    obtain rfl := Option.some.inj hact
    exact ⟨stream, [], h, prefix_refl _, (append_nil _).symm, Nat.le_refl _,
      fun _ _ => ⟨rfl, rfl⟩, fun _ => rfl⟩
  | cons frame frames ih =>
    rw [map_cons, mapIdx_cons] at hact
    obtain ⟨c₁, hhead, hrest⟩ := Option.bind_eq_some_iff.mp hact
    obtain ⟨stream₁, hstream₁, hcase⟩ := h.send hhead
    obtain ⟨stream', sent, hstream', hfirst, hframes, hmono, hall, hnone⟩ :=
      ih (fun i => now (i + 1)) hstream₁ hrest
    rcases hcase with ⟨hsend, hleft, hone, hnext⟩ | ⟨hnot, hone, hnext⟩
    · refine ⟨stream', frame :: sent, hstream', cons_prefix_cons.mpr ⟨rfl, hfirst⟩, ?_,
        by omega, ?_, fun hno => absurd ⟨hsend, hleft⟩ hno⟩
      · rw [hframes, hone, append_assoc]
        rfl
      · intro hs hn
        obtain ⟨rfl, hlength⟩ := hall hs hn
        refine ⟨rfl, ?_⟩
        rw [length_cons]
        omega
    · -- A bridge that cannot send one frame cannot send the next either.
      have hnil : sent = [] := hnone (by rw [hnext]; exact hnot)
      refine ⟨stream', [], hstream', nil_prefix, ?_, by omega, ?_, fun _ => rfl⟩
      · rw [hframes, hone, hnil]
      · intro hs hn
        refine absurd ⟨hs, fun hlimit => hn ?_⟩ hnot
        have hbound := hstream'.bounded
        omega

variable {f : WireBridgeEnvelope WireBridgeProtobufDataBody}

theorem frame?_of_message (h : e.message = f.message) : e.frame? = f.frame? := by
  have hpayload : e.payload = f.payload := by
    simp only [WireBridgeEnvelope.message, Prod.mk.injEq] at h
    exact h.2.1
  rw [WireBridgeEnvelope.frame?, WireBridgeEnvelope.frame?, hpayload]

theorem Stream.mem_frames (h : Stream P c stream)
    (he : e ∈ outbounds c.left.events) (hframe : e.frame? = some frame) :
    frame ∈ streamFrames stream := by
  obtain ⟨f, hf, -, hmessage⟩ := h.message e he
  exact mem_filterMap.mpr ⟨f, hf, (frame?_of_message hmessage).trans hframe⟩

theorem Stream.seq_eq (h : Stream P c stream) {i : Nat} (hf : stream[i]? = some f) :
    f.metadata.seq = i + 1 := by
  have hseq : (stream.map (·.metadata.seq))[i]? = some f.metadata.seq := by
    rw [List.getElem?_map, hf]
    rfl
  rw [h.numbers] at hseq
  obtain ⟨hi, heq⟩ := List.getElem?_eq_some_iff.mp hseq
  rw [getElem_range'] at heq
  omega

theorem Stream.received (h : Stream P c stream) :
    (inbounds c.right.events).map WireBridgeEnvelope.frame? =
      (stream.take c.right.state.cursor).map WireBridgeEnvelope.frame? := by
  have hlength : (inbounds c.right.events).length = c.right.state.cursor := by
    have := congrArg List.length h.flow.prefixed
    simpa using this
  have hstream : stream.length = c.left.state.nextSeq - 1 := by
    have := congrArg List.length h.numbers
    simpa using this
  -- The number at each place is the same in both lists.
  have hat : ∀ (i : Nat) (e : WireBridgeEnvelope WireBridgeProtobufDataBody),
      (inbounds c.right.events)[i]? = some e → e.metadata.seq = i + 1 := by
    intro i e he
    have hseq : ((inbounds c.right.events).map (·.metadata.seq))[i]? = some e.metadata.seq := by
      rw [List.getElem?_map, he]
      rfl
    rw [h.flow.prefixed] at hseq
    obtain ⟨hi, heq⟩ := List.getElem?_eq_some_iff.mp hseq
    rw [getElem_range'] at heq
    omega
  refine ext_getElem? fun i => ?_
  rw [List.getElem?_map, List.getElem?_map]
  by_cases hi : i < c.right.state.cursor
  · obtain ⟨e, he⟩ : ∃ e, (inbounds c.right.events)[i]? = some e :=
      ⟨_, List.getElem?_eq_getElem (hlength ▸ hi)⟩
    have hmem := h.flow.accepted e (mem_of_getElem? he)
    obtain ⟨f, hf, hseq, hmessage⟩ := h.message e hmem
    obtain ⟨j, hj⟩ := mem_iff_getElem?.mp hf
    have hij : j = i := by
      have h₁ := h.seq_eq hj
      have h₂ := hat i e he
      omega
    subst hij
    rw [he, List.getElem?_take, if_pos hi, hj]
    exact congrArg some (frame?_of_message hmessage.symm)
  · rw [List.getElem?_eq_none (by omega), List.getElem?_eq_none]
    simp only [length_take]
    omega

/-- The frames the right bridge has accepted are the first of the stream. -/
theorem Stream.received_prefix (h : Stream P c stream) :
    (inbounds c.right.events).filterMap WireBridgeEnvelope.frame? <+: streamFrames stream := by
  have hmap : ∀ l : List (WireBridgeEnvelope WireBridgeProtobufDataBody),
      l.filterMap WireBridgeEnvelope.frame? = (l.map WireBridgeEnvelope.frame?).filterMap id := by
    intro l
    rw [filterMap_map]
    rfl
  rw [hmap, h.received, ← hmap]
  exact (List.take_prefix _ stream).filterMap _

theorem Stream.mem_received (h : Stream P c stream)
    (he : e ∈ outbounds c.left.events) (hframe : e.frame? = some frame)
    (hseq : e.metadata.seq ≤ c.right.state.cursor) :
    frame ∈ (inbounds c.right.events).filterMap WireBridgeEnvelope.frame? := by
  obtain ⟨f, hf, hnumber, hmessage⟩ := h.message e he
  obtain ⟨i, hi⟩ := mem_iff_getElem?.mp hf
  have hplace := h.seq_eq hi
  have htake : (stream.take c.right.state.cursor)[i]? = some f := by
    rw [List.getElem?_take, if_pos (by omega), hi]
  have hsome : some frame ∈ (inbounds c.right.events).map WireBridgeEnvelope.frame? := by
    rw [h.received]
    exact mem_map.mpr
      ⟨f, mem_of_getElem? htake, (frame?_of_message hmessage).trans hframe⟩
  obtain ⟨g, hg, heq⟩ := mem_map.mp hsome
  exact mem_filterMap.mpr ⟨g, hg, heq⟩

/-! ### The cohorts that are sent -/

section Outbound

variable {V : Type} [DecidableEq V]

theorem groupCommands_append (es fs : List WireEdgeGroupEvent) :
    groupCommands (es ++ fs) = groupCommands es ++ groupCommands fs :=
  filterMap_append

theorem outboundItem_silent (name : String) (batch : EdgeBatch V) (item : EdgeItem)
    (acc : OutboundLoop V) :
    (outboundItem name batch acc item).1.nextCause = acc.1.nextCause ∧
      groupCommands (outboundItem name batch acc item).2.2 = groupCommands acc.2.2 := by
  cases item with
  | bytes value =>
    simp only [outboundItem]
    split <;> exact ⟨rfl, rfl⟩
  | foreign =>
    refine ⟨rfl, ?_⟩
    simp only [outboundItem, groupCommands_append]
    exact append_nil _
  | sentinel => exact ⟨rfl, rfl⟩

theorem outboundItems_silent (name : String) (batch : EdgeBatch V) (items : List EdgeItem)
    (acc : OutboundLoop V) :
    (items.foldl (outboundItem name batch) acc).1.nextCause = acc.1.nextCause ∧
      groupCommands (items.foldl (outboundItem name batch) acc).2.2 = groupCommands acc.2.2 := by
  induction items generalizing acc with
  | nil => exact ⟨rfl, rfl⟩
  | cons item items ih =>
    have hhead := outboundItem_silent name batch item acc
    have hrest := ih (outboundItem name batch acc item)
    exact ⟨hrest.1.trans hhead.1, hrest.2.trans hhead.2⟩

theorem outboundBatches_silent (name : String) (batches : List (EdgeBatch V))
    (acc : OutboundLoop V) :
    let out := batches.foldl (fun acc batch => batch.items.foldl (outboundItem name batch) acc) acc
    out.1.nextCause = acc.1.nextCause ∧ groupCommands out.2.2 = groupCommands acc.2.2 := by
  induction batches generalizing acc with
  | nil => exact ⟨rfl, rfl⟩
  | cons batch batches ih =>
    have hhead := outboundItems_silent name batch batch.items acc
    have hrest := ih (batch.items.foldl (outboundItem name batch) acc)
    exact ⟨hrest.1.trans hhead.1, hrest.2.trans hhead.2⟩

/-- A run of the outbound side sends nothing, or one cohort under the next cause with the
    bytes of every edge. -/
theorem wireEdgeGroupEvents_cases (name : String) (edges : List String)
    (state : WireEdgeGroupOutState V) (batches : List (EdgeBatch V)) :
    let out := wireEdgeGroupEvents name edges state batches
    (out.2.2 = none ∧ groupCommands out.2.1 = [] ∧ out.1.nextCause = state.nextCause) ∨
      ∃ cohort, out.2.2 = some cohort ∧
        groupCommands out.2.1 = cohort.frames.map wireEdgeGroupSend ∧
        out.1.nextCause = saturatingAdd u64Max state.nextCause 1 ∧
        cohort.causeId = causeKey name state.nextCause ∧ cohort.values.map Prod.fst = edges := by
  have hsilent := outboundBatches_silent name batches (state, false, [])
  simp only [wireEdgeGroupEvents]
  generalize batches.foldl (fun acc batch => batch.items.foldl (outboundItem name batch) acc)
    (state, false, []) = acc at hsilent
  obtain ⟨state', triggered, events⟩ := acc
  obtain ⟨hcause, hevents⟩ := hsilent
  have hnone : groupCommands events = [] := hevents
  cases triggered with
  | false => exact Or.inl ⟨rfl, hnone, hcause⟩
  | true =>
    simp only [if_true, emitWireEdgeGroupOutbound]
    split
    case isTrue hmissing =>
      refine Or.inl ⟨rfl, ?_, hcause⟩
      rw [groupCommands_append, hnone, nil_append, groupCommands, filterMap_map]
      simp
    case isFalse hmissing =>
      have hall : ∀ id ∈ edges, ((state'.pending.lookup id).isNone) = false := by
        intro id hid
        rw [Bool.eq_false_iff]
        exact filter_eq_nil_iff.mp (not_not.mp hmissing) id hid
      refine Or.inr ⟨_, rfl, ?_, ?_, ?_, ?_⟩
      · rw [groupCommands_append, hnone, nil_append, groupCommands, filterMap_map]
        simp
      · exact congrArg (saturatingAdd u64Max · 1) hcause
      · exact congrArg (causeKey name) hcause
      · rw [map_map, map_filterMap]
        have hkeys : ∀ ids : List String,
            (∀ id ∈ ids, ((state'.pending.lookup id).isNone) = false) →
            (ids.filterMap fun id => ((state'.pending.lookup id).map fun pending =>
              (id, pending)).map (Prod.fst ∘ fun v => (v.1, v.2.value))) = ids := by
          intro ids hids
          induction ids with
          | nil => rfl
          | cons id ids ih =>
            obtain ⟨pending, hpending⟩ :=
              Option.isSome_iff_exists.mp (by simpa using hids id mem_cons_self)
            rw [filterMap_cons, hpending]
            exact congrArg (id :: ·) (ih fun k hk => hids k (mem_cons_of_mem id hk))
        exact hkeys edges hall

end Outbound

section Outflow

variable {V : Type}

/-- The cohorts against the stream: those of which a frame was numbered come first, under
    the first causes, and as long as the bridge can send all of their frames are there. -/
structure Outflow (S : GroupSetup) (w : GroupWorld V)
    (stream : List (WireBridgeEnvelope WireBridgeProtobufDataBody)) (sent unsent : List Cohort) :
    Prop where
  numbered : Stream S.session w.session stream
  cohorts : w.cohorts = sent ++ unsent
  frames : streamFrames stream <+: sent.flatMap Cohort.frames
  exact : Sendable S.session → w.session.left.state.nextSeq ≠ u64Max →
    unsent = [] ∧ streamFrames stream = sent.flatMap Cohort.frames ∧
      w.out.nextCause = sent.length + 1 ∧ w.out.nextCause ≤ w.session.left.state.nextSeq
  causes : sent.map Cohort.causeId = (List.range' 1 sent.length).map (causeKey S.outName)
  next : sent.length < w.out.nextCause
  bounded : w.out.nextCause ≤ u64Max
  others : ∀ cohort ∈ unsent, ∃ k, sent.length < k ∧ cohort.causeId = causeKey S.outName k
  edges : ∀ cohort ∈ w.cohorts, cohort.values.map Prod.fst = S.edges

variable {S : GroupSetup} {w : GroupWorld V} {sent unsent : List Cohort}

theorem Outflow.initial (S : GroupSetup) (V : Type) :
    Outflow S (GroupWorld.initial V) [] [] [] where
  numbered := Stream.initial S.session
  cohorts := rfl
  frames := prefix_refl _
  exact := fun _ _ => ⟨rfl, rfl, rfl, Nat.le_refl 1⟩
  causes := rfl
  next := Nat.one_pos
  bounded := by simp [GroupWorld.initial, WireEdgeGroupOutState.initial, u64Max]
  others := fun c hc => absurd hc not_mem_nil
  edges := fun c hc => absurd hc not_mem_nil

/-- An action of the session that sends no frame. -/
theorem Outflow.act (h : Outflow S w stream sent unsent) (w' : GroupWorld V)
    {a : Action WireBridgeProtobufDataBody WireBridgeProtobufDataBody}
    (hact : w.session.act S.session a = some c')
    (hquiet : ∀ now cmd, a = .commandLeft now cmd → cmd.frame? = none)
    (hsession : w'.session = c') (hout : w'.out = w.out) (hcohorts : w'.cohorts = w.cohorts) :
    ∃ stream', Outflow S w' stream' sent unsent := by
  obtain ⟨stream', hstream, hext⟩ := h.numbered.act hact
  have hframes : streamFrames stream' = streamFrames stream := by
    cases hext with
    | stays next => rfl
    | sends e hframe next left =>
      rw [streamFrames, filterMap_append, filterMap_cons, hframe, hquiet _ _ rfl]
      exact append_nil _
  have hnext : w.session.left.state.nextSeq ≤ c'.left.state.nextSeq := by
    cases hext with
    | stays next => exact Nat.le_of_eq next.symm
    | sends e hframe next left => omega
  subst hsession
  refine ⟨stream', hstream, hcohorts ▸ h.cohorts, hframes ▸ h.frames, ?_, h.causes, hout ▸ h.next,
    hout ▸ h.bounded, h.others, hcohorts ▸ h.edges⟩
  intro hs hn
  have hold : w.session.left.state.nextSeq ≠ u64Max := by
    have hbound := hstream.bounded
    omega
  obtain ⟨hunsent, heq, hcause, hle⟩ := h.exact hs hold
  rw [hframes, hout]
  exact ⟨hunsent, heq, hcause, Nat.le_trans hle hnext⟩

theorem Outflow.keep {w' : GroupWorld V} (h : Outflow S w stream sent unsent)
    (hsession : w'.session = w.session)
    (hcause : w'.out.nextCause = w.out.nextCause) (hcohorts : w'.cohorts = w.cohorts) :
    Outflow S w' stream sent unsent where
  numbered := hsession ▸ h.numbered
  cohorts := hcohorts ▸ h.cohorts
  frames := h.frames
  exact := by
    rw [hsession, hcause]
    exact h.exact
  causes := h.causes
  next := hcause ▸ h.next
  bounded := hcause ▸ h.bounded
  others := h.others
  edges := hcohorts ▸ h.edges

variable {cohort : Cohort}

/-- A run of the outbound side that sends a cohort. -/
theorem Outflow.send (h : Outflow S w stream sent unsent) (w' : GroupWorld V) (now : Nat → Nat)
    (hact : w.session.actAll S.session ((cohort.frames.map wireEdgeGroupSend).mapIdx fun i cmd =>
      .commandLeft (now i) cmd) = some c')
    (hsession : w'.session = c') (hcohorts : w'.cohorts = w.cohorts ++ [cohort])
    (hcause : w'.out.nextCause = saturatingAdd u64Max w.out.nextCause 1)
    (hid : cohort.causeId = causeKey S.outName w.out.nextCause)
    (hedges : cohort.values.map Prod.fst = S.edges) :
    ∃ stream' more, Outflow S w' stream' (sent ++ more)
      (if more = [] then unsent ++ [cohort] else unsent) := by
  obtain ⟨stream', frames, hstream, hfirst, hframes, hmono, hall, hnone⟩ :=
    h.numbered.sendAll now cohort.frames hact
  have hbound := h.bounded
  have hnextCause := h.next
  have hsat : w.out.nextCause ≤ saturatingAdd u64Max w.out.nextCause 1 := by
    unfold saturatingAdd
    omega
  have hedges' : ∀ c ∈ w.cohorts ++ [cohort], c.values.map Prod.fst = S.edges := by
    intro c hc
    rcases mem_append.mp hc with hc | hc
    · exact h.edges c hc
    · rw [mem_singleton.mp hc]
      exact hedges
  have hbounded : saturatingAdd u64Max w.out.nextCause 1 ≤ u64Max := Nat.min_le_right _ _
  subst hsession
  by_cases hcan : Sendable S.session ∧ w.session.left.state.nextSeq ≠ u64Max
  · -- The bridge can send: the cohort is the next in the stream.
    obtain ⟨rfl, heq, hcount, hle⟩ := h.exact hcan.1 hcan.2
    have hlimit := h.numbered.bounded
    have hsucc : saturatingAdd u64Max w.out.nextCause 1 = sent.length + 2 := by
      unfold saturatingAdd
      have hleft := hcan.2
      omega
    refine ⟨stream', [cohort], hstream, ?_, ?_, ?_, ?_, ?_, hcause ▸ hbounded, ?_,
      hcohorts ▸ hedges'⟩
    · rw [hcohorts, h.cohorts]
      simp
    · rw [hframes, heq, flatMap_append, prefix_append_right_inj]
      simpa using hfirst
    · intro hs hn
      obtain ⟨rfl, hlength⟩ := hall hs hn
      refine ⟨rfl, ?_, ?_, ?_⟩
      · rw [hframes, heq]
        simp
      · rw [hcause, hsucc, length_append, length_singleton]
      · have hpos : 0 < cohort.frames.length := by
          have hne := length_pos_iff.mpr S.edges_ne
          rw [← hedges, length_map] at hne
          simp only [Cohort.frames, length_append, length_map]
          omega
        rw [hcause, hsucc, hlength]
        omega
    · rw [map_append, h.causes, length_append, length_singleton, List.range'_concat,
        map_append, map_singleton, map_singleton, hid, hcount]
      simp [Nat.add_comm]
    · rw [hcause, hsucc, length_append, length_singleton]
      omega
    · exact fun c hc => absurd hc not_mem_nil
  · -- It cannot, and never will: the cohort is left over.
    obtain rfl := hnone hcan
    rw [append_nil] at hframes
    refine ⟨stream', [], hstream, ?_, ?_, ?_, ?_, ?_, hcause ▸ hbounded, ?_, hcohorts ▸ hedges'⟩
    · rw [hcohorts, h.cohorts]
      simp
    · rw [append_nil, hframes]
      exact h.frames
    · intro hs hn
      refine absurd ⟨hs, fun hlimit => hn ?_⟩ hcan
      have hlast := hstream.bounded
      omega
    · rw [append_nil]
      exact h.causes
    · rw [append_nil, hcause]
      omega
    · intro c hc
      rw [if_pos rfl] at hc
      rw [append_nil]
      rcases mem_append.mp hc with hc | hc
      · exact h.others c hc
      · rw [mem_singleton.mp hc]
        exact ⟨w.out.nextCause, h.next, hid⟩

theorem Outflow.nodup (h : Outflow S w stream sent unsent) :
    (sent.map Cohort.causeId).Nodup := by
  rw [h.causes]
  refine List.Nodup.map ?_ nodup_range'
  intro m n heq
  have hparts := compoundTupleKey_injective heq
  exact toString_nat_injective (by simpa using hparts)

theorem Outflow.other (h : Outflow S w stream sent unsent)
    (hcohort : cohort ∈ unsent) : cohort.causeId ∉ sent.map Cohort.causeId := by
  obtain ⟨k, hk, hid⟩ := h.others cohort hcohort
  rw [h.causes, hid]
  intro hmem
  obtain ⟨n, hn, heq⟩ := mem_map.mp hmem
  have hparts := compoundTupleKey_injective heq
  have hnk : n = k := toString_nat_injective (by simpa using hparts)
  have hrange := mem_range'_1.mp hn
  omega

end Outflow

end GraphRefly.Bridge
