import GraphRefly.Bridge.Endpoint
import GraphRefly.Lib.Transition

/-!
# Two Endpoints And A Lossy Channel

Two endpoints of one session, joined in each direction by a channel that may
drop, duplicate, delay and reorder. Such a channel promises nothing except that
what it hands over was emitted, so it needs no state of its own: an endpoint's
event log already holds everything it ever emitted, and a delivery picks any
entry of the peer's log, at any time and any number of times.

What one step can do is said once, in `command_cases` and `inbound_cases`. A
command either emits nothing, or emits one envelope under a fresh number, or
emits one more attempt of a pending envelope. An envelope of the peer is either
turned away, and then the state is as it was, or accepted, and then it is the
next one in sequence. The invariants of the session are derived from these two
lemmas and never look into the handlers again.

## Main definitions

* `Endpoint`: A bridge state with the log of its events.
* `Session`: The two endpoints.
* `Session.act`: One command or one delivery, at either side.
* `Reachable`: The sessions a run can reach.

## Theorems

* `command_cases`: What a command can do.
* `inbound_cases`: What an envelope of the peer can do.
* `Reachable.swap`: The two sides are interchangeable.
* `Reachable.invariant`: What each kind of step preserves, every run preserves.
-/

namespace GraphRefly.Bridge

variable {T U : Type}

/-! ### The parts of an event log -/

/-- The envelope an outbound fact carries. -/
def WireBridgeEvent.outbound? : WireBridgeEvent T U → Option (WireBridgeEnvelope T)
  | .outbound envelope => some envelope
  | _ => none

/-- The envelope an inbound fact carries. -/
def WireBridgeEvent.inbound? : WireBridgeEvent T U → Option (WireBridgeEnvelope U)
  | .inbound envelope => some envelope
  | _ => none

/-- The envelopes emitted, in order. -/
def outbounds (events : List (WireBridgeEvent T U)) : List (WireBridgeEnvelope T) :=
  events.filterMap WireBridgeEvent.outbound?

/-- The envelopes accepted, in order. -/
def inbounds (events : List (WireBridgeEvent T U)) : List (WireBridgeEnvelope U) :=
  events.filterMap WireBridgeEvent.inbound?

@[simp] theorem outbounds_append (es fs : List (WireBridgeEvent T U)) :
    outbounds (es ++ fs) = outbounds es ++ outbounds fs :=
  List.filterMap_append

@[simp] theorem inbounds_append (es fs : List (WireBridgeEvent T U)) :
    inbounds (es ++ fs) = inbounds es ++ inbounds fs :=
  List.filterMap_append

/-- Whether an event says that the peer answered for a sequence number. -/
def WireBridgeEvent.answers (seq : Nat) : WireBridgeEvent T U → Bool
  | .ack ackForSeq _ _ | .nack ackForSeq _ _ _ => decide (ackForSeq = seq)
  | _ => false

/-- Whether an event says that a sequence number was given up. -/
def WireBridgeEvent.exhausts (seq : Nat) : WireBridgeEvent T U → Bool
  | .exhausted s _ _ => decide (s = seq)
  | _ => false

/-- Whether an event complains about what came in. -/
def WireBridgeEvent.complains : WireBridgeEvent T U → Bool
  | .invalid _ | .sessionMismatch _ _ => true
  | _ => false

/-- The part of an envelope that every attempt of it shares. -/
def WireBridgeEnvelope.message (e : WireBridgeEnvelope T) :
    WireBridgeEnvelopeType × Option (WireBridgePayload T) × String × Option String × Option Nat :=
  (e.envelopeType, e.payload, e.metadata.idempotencyKey, e.metadata.requestId,
    e.metadata.ackForSeq)

/-! ### What a handler can do -/

/-- What an endpoint knows about a pending envelope: it stands under its own
    number, passed the checks, and may be sent again once its timeout has been
    reported. -/
structure PendingEnvelope.Sound (opts : WireBridgeOptions) (k : Nat) (p : PendingEnvelope T) :
    Prop where
  number : p.envelope.metadata.seq = k
  valid : p.envelope.Valid
  session : p.envelope.sessionId = opts.sessionId
  retryable : ∀ a, p.timeoutReportedAttempt = some a → a < opts.retry.maxAttempts
  current : ∀ a, p.timeoutReportedAttempt = some a → a = p.envelope.metadata.attempt
  due : p.timeoutReportedAttempt = none → p.retryDueAtMs = none

/-- Every pending envelope is sound. -/
def BridgeState.Sound (opts : WireBridgeOptions) (s : BridgeState T) : Prop :=
  ∀ k p, s.pending k = some p → p.Sound opts k

/-- Whether an acknowledgement timeout makes the endpoint send again: the
    timeout was reported before and is due, or it is reported now and nothing
    delays the next attempt. -/
def BridgeState.retransmits (opts : WireBridgeOptions) (s : BridgeState T) (seq attempt : Nat)
    (observedAtMs : Option Nat) : Bool :=
  match s.pending seq with
  | none => false
  | some p =>
    decide (seq ≠ 0 ∧ attempt ≠ 0 ∧ p.envelope.metadata.attempt = attempt) &&
      if p.timeoutReportedAttempt = some attempt then !p.waits observedAtMs
      else
        opts.retry.shouldRetry attempt &&
          !(p.report attempt
            ((opts.retry.nextDelayMs (saturatingAdd u32Max attempt 1)).getD 0)
            observedAtMs).retryDueAtMs.isSome

/-- What a command can do to an endpoint. -/
inductive CommandStep (opts : WireBridgeOptions) (cmd : WireBridgeCommand T)
    (s s' : BridgeState T) (es : List (WireBridgeEvent T U)) : Prop
  /-- Nothing is emitted. A pending envelope keeps its place and its last
      attempt, unless the command gave it up. -/
  | silent
      (sent : outbounds es = [])
      (nextSeq : s'.nextSeq = s.nextSeq)
      (kept : ∀ k p', s'.pending k = some p' → ∃ p, s.pending k = some p ∧ p.envelope = p'.envelope)
      (lost : ∀ k p, s.pending k = some p → s'.pending k = none → ∃ e ∈ es, e.exhausts k = true)
  /-- A new envelope takes the next number. -/
  | fresh (e : WireBridgeEnvelope T)
      (sent : outbounds es = [e])
      (nextSeq : s'.nextSeq = s.nextSeq + 1)
      (valid : e.Valid)
      (session : e.sessionId = opts.sessionId)
      (seq : e.metadata.seq = s.nextSeq)
      (stamp : e.metadata.cursor = s.cursor)
      (kept : ∀ k p, s'.pending k = some p → s.pending k = some p ∨ k = s.nextSeq ∧ p.envelope = e)
      (tracked : e.envelopeType.isReceipt = false → s'.pending s.nextSeq ≠ none)
      (lost : ∀ k p, s.pending k = some p → s'.pending k = none → e.envelopeType = .close)
  /-- A pending envelope is sent again. -/
  | retry (seq : Nat) (p : PendingEnvelope T) (e : WireBridgeEnvelope T)
      (asked : ∃ attempt observedAtMs, cmd = .ackTimeout seq attempt observedAtMs ∧
        s.retransmits opts seq attempt observedAtMs = true)
      (pending : s.pending seq = some p)
      (sent : outbounds es = [e])
      (nextSeq : s'.nextSeq = s.nextSeq)
      (valid : e.Valid)
      (session : e.sessionId = opts.sessionId)
      (number : e.metadata.seq = seq)
      (message : e.message = p.envelope.message)
      (stamp : e.metadata.cursor = s.cursor)
      (after : s' = s.setPending seq (some ⟨e, none, none⟩))

/-- What a handler leaves alone and keeps, whichever way it went. -/
structure Commanded (opts : WireBridgeOptions) (cmd : WireBridgeCommand T)
    (s s' : BridgeState T) (es : List (WireBridgeEvent T U)) : Prop where
  sound : s'.Sound opts
  cursor : s'.cursor = s.cursor
  remoteCursor : s'.remoteCursor = s.remoteCursor
  accepted : inbounds es = []
  step : CommandStep opts cmd s s' es

variable {opts : WireBridgeOptions} {cmd : WireBridgeCommand T} {now : Nat} {s s' : BridgeState T}
  {es : List (WireBridgeEvent T U)}

theorem Commanded.report (hs : s.Sound opts) (hout : outbounds es = []) (hin : inbounds es = []) :
    Commanded opts cmd s s es :=
  ⟨hs, rfl, rfl, hin, .silent hout rfl (fun _ p h => ⟨p, h, rfl⟩)
    (fun k p h hn => absurd (h.symm.trans hn) (by simp))⟩

theorem emitOutbound_commanded (hs : s.Sound opts) (spec : OutboundSpec T)
    (htrack : spec.envelopeType.isReceipt = false → spec.trackAck = true)
    (hclear : spec.clearPendingFirst = true → spec.envelopeType = .close)
    (h : emitOutbound opts now s spec = (s', es)) : Commanded opts cmd s s' es := by
  unfold emitOutbound at h
  split at h
  · cases h
    exact Commanded.report hs rfl rfl
  · cases hbuild : wireBridgeEnvelope (spec.input opts now s) with
    | error err =>
      simp only [hbuild] at h
      cases h
      exact Commanded.report hs rfl rfl
    | ok e =>
      simp only [hbuild] at h
      obtain ⟨hvalid, rfl⟩ := (wireBridgeEnvelope_eq_ok _ _).mp hbuild
      obtain ⟨hs', hes⟩ := Prod.mk.inj h
      subst hes
      -- The three optional writes touch the pending map and the counter only.
      have hpending : s'.pending = fun k =>
          if spec.trackAck = true ∧ k = s.nextSeq then
            some ⟨(spec.input opts now s).envelope, none, none⟩
          else if spec.clearPendingFirst = true then none else s.pending k := by
        subst hs'
        funext k
        by_cases ht : spec.trackAck = true <;> by_cases hc : spec.clearPendingFirst = true <;>
          by_cases hk : k = s.nextSeq <;>
          simp [ht, hc, hk, BridgeState.setPending, BridgeState.clearPending, Function.update,
            WireBridgeEnvelopeInput.envelope, OutboundSpec.input]
      have hkept : ∀ k p, s'.pending k = some p → s.pending k = some p ∨
          k = s.nextSeq ∧ p = ⟨(spec.input opts now s).envelope, none, none⟩ := by
        intro k p hp
        rw [hpending] at hp
        simp only at hp
        split_ifs at hp with h₁ h₂
        · exact Or.inr ⟨h₁.2, (Option.some.inj hp).symm⟩
        · exact Or.inl hp
      have hrest : s'.nextSeq = s.nextSeq + 1 ∧ s'.cursor = s.cursor ∧
          s'.remoteCursor = s.remoteCursor := by
        subst hs'
        by_cases ht : spec.trackAck = true <;> by_cases hc : spec.clearPendingFirst = true <;>
          simp [ht, hc, BridgeState.setPending, BridgeState.clearPending]
      refine ⟨?_, hrest.2.1, hrest.2.2, rfl,
        .fresh (spec.input opts now s).envelope rfl hrest.1 hvalid rfl rfl rfl ?_ ?_ ?_⟩
      · intro k p hp
        rcases hkept k p hp with hold | ⟨rfl, rfl⟩
        · exact hs k p hold
        · exact ⟨rfl, hvalid, rfl, by simp, by simp, by simp⟩
      · intro k p hp
        rcases hkept k p hp with hold | ⟨hk, hp⟩
        · exact Or.inl hold
        · exact Or.inr ⟨hk, by rw [hp]⟩
      · intro hr
        rw [hpending]
        simp [htrack hr]
      · intro k p hp hnone
        rw [hpending] at hnone
        simp only at hnone
        split_ifs at hnone with h₁ h₂
        · exact hclear h₂
        · exact absurd (hp.symm.trans hnone) (by simp)

variable {seq : Nat} {p : PendingEnvelope T}

theorem emitRetryOutbound_eq (now : Nat) (hs : s.Sound opts)
    (hp : s.pending seq = some p) (hretry : p.envelope.metadata.attempt < opts.retry.maxAttempts) :
    ∃ e, emitRetryOutbound (U := U) opts now s p.envelope =
        .ok (s.setPending seq (some ⟨e, none, none⟩), [.outbound e]) ∧
      e.Valid ∧ e.sessionId = opts.sessionId ∧ e.metadata.seq = seq ∧
      e.message = p.envelope.message ∧ e.metadata.cursor = s.cursor := by
  have hold := (hs seq p hp).valid
  have hnumber := (hs seq p hp).number
  have hvalid : (retryInput opts now s p.envelope).envelope.Valid := by
    refine ⟨hold.sessionId, hold.seq, hold.idempotencyKey, ?_, ?_, hold.ackForSeq, hold.receipt,
      hold.payload⟩
    · simp only [WireBridgeEnvelopeInput.envelope, retryInput, saturatingAdd, u32Max]
      omega
    · simp only [WireBridgeEnvelopeInput.envelope, retryInput, saturatingAdd]
      omega
  have hbuild := (wireBridgeEnvelope_eq_ok _ _).mpr ⟨hvalid, rfl⟩
  refine ⟨_, ?_, hvalid, (hs seq p hp).session, hnumber, rfl, rfl⟩
  unfold emitRetryOutbound
  simp only [hbuild, hnumber, hp]

theorem BridgeState.Sound.setPending (hs : s.Sound opts) (seq : Nat)
    (q : Option (PendingEnvelope T)) (hq : ∀ p, q = some p → p.Sound opts seq) :
    (s.setPending seq q).Sound opts := by
  intro k p hp
  rcases BridgeState.setPending_cases hp with ⟨rfl, hslot⟩ | ⟨_, hold⟩
  · exact hq p hslot
  · exact hs k p hold

theorem Commanded.reported (hs : s.Sound opts) {q : PendingEnvelope T}
    (hp : s.pending seq = some p) (hq : q.Sound opts seq) (he : p.envelope = q.envelope)
    (hout : outbounds es = []) (hin : inbounds es = []) :
    Commanded opts cmd s (s.setPending seq (some q)) es := by
  refine ⟨hs.setPending _ _ fun _ h => Option.some.inj h ▸ hq, rfl, rfl, hin,
    .silent hout rfl ?_ ?_⟩
  · intro k p' hp'
    rcases BridgeState.setPending_cases hp' with ⟨rfl, hslot⟩ | ⟨_, hold⟩
    · exact ⟨p, hp, by rw [he, Option.some.inj hslot]⟩
    · exact ⟨p', hold, rfl⟩
  · intro k p' hp' hnone
    exact absurd (BridgeState.setPending_lost hp' hnone).2 (by simp)

theorem Commanded.exhausted (hs : s.Sound opts) (hexhausted : ∃ e ∈ es, e.exhausts seq = true)
    (hout : outbounds es = []) (hin : inbounds es = []) :
    Commanded opts cmd s (s.setPending seq none) es := by
  refine ⟨hs.setPending _ _ fun _ h => absurd h (by simp), rfl, rfl, hin, .silent hout rfl ?_ ?_⟩
  · intro k p hp
    rcases BridgeState.setPending_cases hp with ⟨_, hslot⟩ | ⟨_, hold⟩
    · exact absurd hslot (by simp)
    · exact ⟨p, hold, rfl⟩
  · intro k p hp hnone
    rw [(BridgeState.setPending_lost hp hnone).1]
    exact hexhausted

theorem Commanded.retry (hs : s.Sound opts) {e : WireBridgeEnvelope T}
    (hasked : ∃ attempt observedAtMs, cmd = .ackTimeout seq attempt observedAtMs ∧
      s.retransmits opts seq attempt observedAtMs = true)
    (hp : s.pending seq = some p) (hvalid : e.Valid)
    (hsession : e.sessionId = opts.sessionId) (hseq : e.metadata.seq = seq)
    (hmessage : e.message = p.envelope.message) (hstamp : e.metadata.cursor = s.cursor)
    (hout : outbounds es = [e]) (hin : inbounds es = []) :
    Commanded opts cmd s (s.setPending seq (some ⟨e, none, none⟩)) es :=
  ⟨hs.setPending _ _ fun _ h => Option.some.inj h ▸
    ⟨hseq, hvalid, hsession, by simp, by simp, by simp⟩, rfl, rfl, hin,
    .retry seq p e hasked hp hout rfl hvalid hsession hseq hmessage hstamp rfl⟩

theorem BridgeState.setPending_setPending (s : BridgeState T) (seq : Nat)
    (p q : Option (PendingEnvelope T)) :
    (s.setPending seq p).setPending seq q = s.setPending seq q := by
  simp [BridgeState.setPending]

theorem processAckTimeoutCommand_commanded (hs : s.Sound opts) (seq attempt : Nat)
    (observedAtMs : Option Nat) :
    ∃ s' es, processAckTimeoutCommand (U := U) opts now s seq attempt observedAtMs = .ok (s', es) ∧
      Commanded opts (.ackTimeout seq attempt observedAtMs) s s' es := by
  unfold processAckTimeoutCommand
  by_cases hseq : seq = 0
  · exact ⟨s, _, if_pos hseq, Commanded.report hs rfl rfl⟩
  by_cases hattempt : attempt = 0
  · exact ⟨s, _, by rw [if_neg hseq, if_pos hattempt], Commanded.report hs rfl rfl⟩
  simp only [hseq, hattempt, if_false]
  cases hp : s.pending seq with
  | none => exact ⟨s, [], rfl, Commanded.report hs rfl rfl⟩
  | some p =>
    have hsound := hs seq p hp
    by_cases hcurrent : p.envelope.metadata.attempt = attempt
    case neg => exact ⟨s, [], by simp [hcurrent], Commanded.report hs rfl rfl⟩
    by_cases hreported : p.timeoutReportedAttempt = some attempt
    · -- The timeout was reported before: the due time alone decides.
      by_cases hwaits : p.waits observedAtMs = true
      · exact ⟨s, [], by simp [hcurrent, hreported, hwaits], Commanded.report hs rfl rfl⟩
      · have hmax : p.envelope.metadata.attempt < opts.retry.maxAttempts := by
          rw [hcurrent]
          exact hsound.retryable attempt hreported
        obtain ⟨e, he, hvalid, hsession, hnumber, hmessage, hstamp⟩ :=
          emitRetryOutbound_eq (U := U) now hs hp hmax
        have hasked : s.retransmits opts seq attempt observedAtMs = true := by
          simp [BridgeState.retransmits, hp, hseq, hattempt, hcurrent, hreported, hwaits]
        refine ⟨_, [.outbound e], ?_, Commanded.retry hs ⟨attempt, observedAtMs, rfl, hasked⟩ hp
          hvalid hsession hnumber hmessage hstamp rfl rfl⟩
        simpa [hcurrent, hreported, hwaits] using he
    by_cases hshould : opts.retry.shouldRetry attempt = true
    · have hlt : attempt < opts.retry.maxAttempts := of_decide_eq_true hshould
      generalize hdelay : (opts.retry.nextDelayMs
        (saturatingAdd u32Max attempt 1)).getD 0 = delayMs
      generalize hq : p.report attempt delayMs observedAtMs = q
      have henvelope : q.envelope = p.envelope := by rw [← hq]; rfl
      have hqsound : q.Sound opts seq := by
        refine ⟨by rw [henvelope]; exact hsound.number, by rw [henvelope]; exact hsound.valid,
          by rw [henvelope]; exact hsound.session, ?_, ?_, ?_⟩ <;> rw [← hq]
        · intro a ha
          rw [← Option.some.inj ha]
          exact hlt
        · intro a ha
          rw [← Option.some.inj ha]
          exact hcurrent.symm
        · exact fun h => absurd h (by simp [PendingEnvelope.report])
      simp only [hcurrent, hreported, hshould, ne_eq, not_true_eq_false, if_false,
        Bool.true_eq_false, hq]
      by_cases hdue : q.retryDueAtMs.isSome = true
      · refine ⟨s.setPending seq (some q), [.timeout seq attempt,
          .retry seq (saturatingAdd u32Max attempt 1) delayMs (timeoutError opts seq)], ?_,
          Commanded.reported hs hp hqsound henvelope.symm rfl rfl⟩
        rw [if_pos hdue]
      · -- Nothing delays the next attempt: it is sent from the reported slot.
        obtain ⟨e, he, hvalid, hsession, hnumber, hmessage, hstamp⟩ :=
          emitRetryOutbound_eq (U := U) now
            (hs.setPending seq (some q) fun _ h => Option.some.inj h ▸ hqsound)
            (BridgeState.setPending_self s seq (some q)) (by rw [henvelope, hcurrent]; exact hlt)
        have hasked : s.retransmits opts seq attempt observedAtMs = true := by
          simp only [BridgeState.retransmits, hp, hdelay, hq, hcurrent, hshould, hreported,
            hdue]
          simp [hseq, hattempt]
        rw [BridgeState.setPending_setPending] at he
        refine ⟨_, [.timeout seq attempt, .retry seq (saturatingAdd u32Max attempt 1) delayMs
            (timeoutError opts seq), .outbound e], ?_,
          Commanded.retry hs ⟨attempt, observedAtMs, rfl, hasked⟩ hp hvalid hsession
            hnumber (hmessage.trans (by rw [henvelope])) hstamp rfl rfl⟩
        rw [if_neg hdue, ← henvelope, he]
        rfl
    · -- Out of attempts: the slot is emptied and the number reported.
      refine ⟨s.setPending seq none,
        [.timeout seq attempt, .exhausted seq attempt (timeoutError opts seq)],
        by simp [hcurrent, hreported, hshould], Commanded.exhausted hs ?_ rfl rfl⟩
      exact ⟨.exhausted seq attempt (timeoutError opts seq), by simp,
        by simp [WireBridgeEvent.exhausts]⟩

/-- A command never panics on a sound state, and does one of three things. -/
theorem command_cases (now : Nat) (hs : s.Sound opts) (cmd : WireBridgeCommand T) :
    ∃ s' es, processCommand (U := U) opts now s cmd = .ok (s', es) ∧
      Commanded opts cmd s s' es := by
  cases cmd with
  | start idempotencyKey requestId =>
    exact ⟨_, _, rfl, emitOutbound_commanded hs _ (by simp) (by simp) rfl⟩
  | send payload idempotencyKey requestId =>
    exact ⟨_, _, rfl, emitOutbound_commanded hs _ (by simp) (by simp) rfl⟩
  | ack ackForSeq idempotencyKey requestId =>
    by_cases hzero : ackForSeq = 0
    · exact ⟨s, _, if_pos hzero, Commanded.report hs rfl rfl⟩
    · exact ⟨_, _, if_neg hzero,
        emitOutbound_commanded hs _ (by simp [WireBridgeEnvelopeType.isReceipt]) (by simp) rfl⟩
  | nack ackForSeq error idempotencyKey requestId =>
    by_cases hzero : ackForSeq = 0
    · exact ⟨s, _, if_pos hzero, Commanded.report hs rfl rfl⟩
    · exact ⟨_, _, if_neg hzero,
        emitOutbound_commanded hs _ (by simp [WireBridgeEnvelopeType.isReceipt]) (by simp) rfl⟩
  | close reason idempotencyKey =>
    exact ⟨_, _, rfl, emitOutbound_commanded hs _ (by simp) (by simp) rfl⟩
  | ackTimeout seq attempt observedAtMs =>
    exact processAckTimeoutCommand_commanded hs seq attempt observedAtMs

/-- What an envelope of the peer can do to an endpoint. -/
inductive InboundStep (sessionId : String) (envelope : WireBridgeEnvelope U)
    (s s' : BridgeState T) (es : List (WireBridgeEvent T U)) : Prop
  /-- It is reported and nothing changes. The report is a complaint only if the
      envelope fails the check, belongs to another session, or is the next one
      in sequence with a cursor that went back. -/
  | refused
      (same : s' = s)
      (turnedAway : inbounds es = [])
      (complaint : (∃ e ∈ es, e.complains = true) →
        ¬ envelope.Valid ∨ envelope.sessionId ≠ sessionId ∨
          envelope.metadata.seq = s.cursor + 1 ∧ envelope.metadata.cursor < s.remoteCursor)
  /-- It is the next one in sequence and is accepted. A receipt settles the
      envelope it is for. -/
  | accepted
      (next : envelope.metadata.seq = s.cursor + 1)
      (monotone : s.remoteCursor ≤ envelope.metadata.cursor)
      (cursor : s'.cursor = s.cursor + 1)
      (remoteCursor : s'.remoteCursor = envelope.metadata.cursor)
      (nextSeq : s'.nextSeq = s.nextSeq)
      (taken : inbounds es = [envelope])
      (kept : ∀ k p, s'.pending k = some p → s.pending k = some p)
      (lost : ∀ k p, s.pending k = some p → s'.pending k = none → ∃ e ∈ es, e.answers k = true)
      (calm : ∀ e ∈ es, e.complains = false)

/-- What a receipt can do: settle the pending envelope it is for. -/
structure Receipted (s s' : BridgeState T) (es : List (WireBridgeEvent T U)) : Prop where
  sent : outbounds es = []
  taken : inbounds es = []
  cursor : s'.cursor = s.cursor
  remoteCursor : s'.remoteCursor = s.remoteCursor
  nextSeq : s'.nextSeq = s.nextSeq
  kept : ∀ k p, s'.pending k = some p → s.pending k = some p
  lost : ∀ k p, s.pending k = some p → s'.pending k = none → ∃ e ∈ es, e.answers k = true
  calm : ∀ e ∈ es, e.complains = false

theorem Receipted.settle (s : BridgeState T) (k : Nat) {ev : WireBridgeEvent T U}
    (hsent : ev.outbound? = none) (htaken : ev.inbound? = none) (hcalm : ev.complains = false)
    (hanswers : s.pending k ≠ none → ev.answers k = true) :
    Receipted s (s.setPending k none) [ev] where
  sent := by simp [outbounds, hsent]
  taken := by simp [inbounds, htaken]
  cursor := rfl
  remoteCursor := rfl
  nextSeq := rfl
  kept := by
    intro j p hp
    rcases BridgeState.setPending_cases hp with ⟨_, hslot⟩ | ⟨_, hold⟩
    · exact absurd hslot (by simp)
    · exact hold
  lost := by
    intro j p hp hnone
    obtain rfl := (BridgeState.setPending_lost hp hnone).1
    exact ⟨ev, List.mem_singleton_self ev, hanswers (by simp [hp])⟩
  calm := by simp [hcalm]

variable {envelope : WireBridgeEnvelope U}

theorem processReceipt_cases (s : BridgeState T) (hvalid : envelope.Valid) :
    ∃ s' es, processReceipt s envelope = .ok (s', es) ∧ Receipted s s' es := by
  have hnothing : Receipted s s ([] : List (WireBridgeEvent T U)) :=
    ⟨rfl, rfl, rfl, rfl, rfl, fun _ _ h => h,
      fun _ _ h hn => absurd (h.symm.trans hn) (by simp), by simp⟩
  have hreceipt := hvalid.receipt
  unfold processReceipt
  cases htype : envelope.envelopeType with
  | start => exact ⟨s, [], rfl, hnothing⟩
  | data => exact ⟨s, [], rfl, hnothing⟩
  | status => exact ⟨s, [], rfl, hnothing⟩
  | error => exact ⟨s, [], rfl, hnothing⟩
  | close => exact ⟨s, [], rfl, hnothing⟩
  | ack =>
    rw [htype] at hreceipt
    obtain ⟨k, hk⟩ := Option.ne_none_iff_exists'.mp (hreceipt rfl)
    simp only [processAck, hk]
    cases hp : s.pending k with
    | none => exact ⟨_, _, rfl, Receipted.settle s k rfl rfl rfl (fun h => absurd hp h)⟩
    | some p =>
      exact ⟨_, _, rfl, Receipted.settle s k rfl rfl rfl
        (fun _ => by simp [WireBridgeEvent.answers])⟩
  | nack =>
    rw [htype] at hreceipt
    obtain ⟨k, hk⟩ := Option.ne_none_iff_exists'.mp (hreceipt rfl)
    simp only [processNack, hk]
    cases hp : s.pending k with
    | none => exact ⟨_, _, rfl, Receipted.settle s k rfl rfl rfl (fun h => absurd hp h)⟩
    | some p =>
      exact ⟨_, _, rfl, Receipted.settle s k rfl rfl rfl
        (fun _ => by simp [WireBridgeEvent.answers])⟩

/-- An envelope of the peer never panics, and is either turned away or the next
    one in sequence. -/
theorem inbound_cases (sessionId : String) (s : BridgeState T) (envelope : WireBridgeEnvelope U) :
    ∃ s' es, processInbound sessionId s (.envelope envelope) = .ok (s', es) ∧
      outbounds es = [] ∧ InboundStep sessionId envelope s s' es := by
  unfold processInbound
  cases hcheck : validateInboundEnvelope envelope with
  | error err =>
    have hinvalid : ¬ envelope.Valid := by
      intro hvalid
      rw [(validateInboundEnvelope_eq_ok envelope).mpr hvalid] at hcheck
      exact absurd hcheck (by simp)
    exact ⟨s, [.invalid err.toString], by simp only [hcheck], rfl,
      .refused rfl rfl (fun _ => Or.inl hinvalid)⟩
  | ok u =>
    simp only [hcheck]
    have hvalid := (validateInboundEnvelope_eq_ok envelope).mp hcheck
    by_cases hsession : envelope.sessionId = sessionId
    case neg =>
      exact ⟨s, [.sessionMismatch sessionId envelope.sessionId], if_pos hsession, rfl,
        .refused rfl rfl (fun _ => Or.inr (Or.inl hsession))⟩
    simp only [hsession, ne_eq, not_true_eq_false, if_false]
    by_cases hdup : envelope.metadata.seq ≤ s.cursor
    · exact ⟨s, [.duplicate envelope.metadata.seq s.cursor], if_pos hdup, rfl,
        .refused rfl rfl (by simp [WireBridgeEvent.complains])⟩
    by_cases hgap : saturatingAdd u64Max s.cursor 1 < envelope.metadata.seq
    · exact ⟨s, [.outOfOrder envelope.metadata.seq (saturatingAdd u64Max s.cursor 1)],
        by rw [if_neg hdup, if_pos hgap], rfl,
        .refused rfl rfl (by simp [WireBridgeEvent.complains])⟩
    have hnext : envelope.metadata.seq = s.cursor + 1 := by
      unfold saturatingAdd at hgap
      omega
    by_cases hback : envelope.metadata.cursor < s.remoteCursor
    · exact ⟨s, [.invalid (regressError sessionId envelope.metadata.cursor s.remoteCursor)],
        by rw [if_neg hdup, if_neg hgap, if_pos hback], rfl,
        .refused rfl rfl (fun _ => Or.inr (Or.inr ⟨hnext, hback⟩))⟩
    · obtain ⟨s', es, hreceipt, hdone⟩ := processReceipt_cases
        ({ s with remoteCursor := envelope.metadata.cursor, cursor := envelope.metadata.seq } :
          BridgeState T) hvalid
      refine ⟨s', .cursor envelope.metadata.seq :: .inbound envelope :: es, ?_, ?_,
        .accepted hnext (Nat.le_of_not_lt hback) (hdone.cursor.trans hnext) hdone.remoteCursor
          hdone.nextSeq ?_ hdone.kept ?_ ?_⟩
      · rw [if_neg hdup, if_neg hgap, if_neg hback, hreceipt]
      · exact hdone.sent
      · exact congrArg (envelope :: ·) hdone.taken
      · intro k p hp hnone
        obtain ⟨e, he, hanswers⟩ := hdone.lost k p hp hnone
        exact ⟨e, by simp [he], hanswers⟩
      · intro e he
        rcases List.mem_cons.mp he with rfl | he
        · rfl
        rcases List.mem_cons.mp he with rfl | he
        · rfl
        · exact hdone.calm e he

theorem InboundStep.sound {sessionId : String} (h : InboundStep sessionId envelope s s' es)
    (hs : s.Sound opts) : s'.Sound opts := by
  cases h with
  | refused same => rw [same]; exact hs
  | accepted _ _ _ _ _ _ kept => exact fun k p hp => hs k p (kept k p hp)

/-! ### The session -/

/-- A bridge state with the log of everything its handlers emitted. -/
structure Endpoint (T U : Type) where
  state : BridgeState T
  events : List (WireBridgeEvent T U)

/-- An endpoint before its first command. -/
def Endpoint.initial (T U : Type) : Endpoint T U := ⟨BridgeState.initial T, []⟩

/-- The endpoint after a handler, if that did not panic. -/
def Endpoint.take (x : Endpoint T U) : Handled T U → Option (Endpoint T U)
  | .ok (state, events) => some ⟨state, x.events ++ events⟩
  | .error _ => none

/-- Two endpoints that face each other. -/
structure Session (T U : Type) where
  left : Endpoint T U
  right : Endpoint U T

/-- The options of a session: one identifier, a retry policy on each side. -/
structure Setup where
  sessionId : String
  leftRetry : RetryPolicy
  rightRetry : RetryPolicy

namespace Setup

def leftOpts (P : Setup) : WireBridgeOptions := ⟨P.sessionId, P.leftRetry⟩

def rightOpts (P : Setup) : WireBridgeOptions := ⟨P.sessionId, P.rightRetry⟩

/-- The same session seen from the other side. -/
def swap (P : Setup) : Setup := ⟨P.sessionId, P.rightRetry, P.leftRetry⟩

end Setup

/-- One thing that can happen to a session: a command with the clock it reads,
    or the delivery of some envelope the peer has emitted. -/
inductive Action (T U : Type)
  | commandLeft (now : Nat) (cmd : WireBridgeCommand T)
  | commandRight (now : Nat) (cmd : WireBridgeCommand U)
  | deliverLeft (index : Nat)
  | deliverRight (index : Nat)

/-- The same action seen from the other side. -/
def Action.swap : Action T U → Action U T
  | commandLeft now cmd => .commandRight now cmd
  | commandRight now cmd => .commandLeft now cmd
  | deliverLeft index => .deliverRight index
  | deliverRight index => .deliverLeft index

namespace Session

/-- A session before the first command. -/
def initial (T U : Type) : Session T U := ⟨Endpoint.initial T U, Endpoint.initial U T⟩

/-- The same session seen from the other side. -/
def swap (c : Session T U) : Session U T := ⟨c.right, c.left⟩

/-- One action. A delivery outside the peer's log is none, nor is a handler
    that panics. -/
def act (P : Setup) (c : Session T U) : Action T U → Option (Session T U)
  | .commandLeft now cmd =>
    (c.left.take (processCommand P.leftOpts now c.left.state cmd)).map fun x =>
      { c with left := x }
  | .commandRight now cmd =>
    (c.right.take (processCommand P.rightOpts now c.right.state cmd)).map fun x =>
      { c with right := x }
  | .deliverLeft index =>
    (outbounds c.right.events)[index]?.bind fun envelope =>
      (c.left.take (processInbound P.sessionId c.left.state (.envelope envelope))).map fun x =>
        { c with left := x }
  | .deliverRight index =>
    (outbounds c.left.events)[index]?.bind fun envelope =>
      (c.right.take (processInbound P.sessionId c.right.state (.envelope envelope))).map fun x =>
        { c with right := x }

section

variable (P : Setup) (ok : Session T U → Action T U → Prop)

/-- A run of actions, from the first to the last, each of which the guard allows. -/
def runChecked (P : Setup) (ok : Session T U → Action T U → Prop)
    [∀ c a, Decidable (ok c a)] : List (Action T U) → Session T U → Option (Session T U)
  | [], c => some c
  | a :: as, c => if ok c a then (c.act P a).bind (runChecked P ok as) else none

/-- A step by an action the guard allows. -/
def Step (c c' : Session T U) : Prop :=
  ∃ a, ok c a ∧ c.act P a = some c'

/-- A run of allowed steps. -/
def Runs : Session T U → Session T U → Prop :=
  Transition.GuardedReach (Step P ok) fun _ => True

/-- The sessions that runs of allowed steps reach. -/
def Reachable (c : Session T U) : Prop :=
  Runs P ok (initial T U) c

end

/-- Both endpoints are sound. -/
structure Sound (P : Setup) (c : Session T U) : Prop where
  left : c.left.state.Sound P.leftOpts
  right : c.right.state.Sound P.rightOpts

/-- What one action can do to a sound session. -/
inductive Acted (P : Setup) (c : Session T U) : Action T U → Session T U → Prop
  | commandLeft {now : Nat} {cmd : WireBridgeCommand T} {s' : BridgeState T}
      {es : List (WireBridgeEvent T U)} (h : Commanded P.leftOpts cmd c.left.state s' es) :
      Acted P c (.commandLeft now cmd) { c with left := ⟨s', c.left.events ++ es⟩ }
  | commandRight {now : Nat} {cmd : WireBridgeCommand U} {s' : BridgeState U}
      {es : List (WireBridgeEvent U T)} (h : Commanded P.rightOpts cmd c.right.state s' es) :
      Acted P c (.commandRight now cmd) { c with right := ⟨s', c.right.events ++ es⟩ }
  | deliverLeft {index : Nat} {envelope : WireBridgeEnvelope U} {s' : BridgeState T}
      {es : List (WireBridgeEvent T U)} (hmem : envelope ∈ outbounds c.right.events)
      (hsent : outbounds es = [])
      (h : InboundStep P.sessionId envelope c.left.state s' es) :
      Acted P c (.deliverLeft index) { c with left := ⟨s', c.left.events ++ es⟩ }
  | deliverRight {index : Nat} {envelope : WireBridgeEnvelope T} {s' : BridgeState U}
      {es : List (WireBridgeEvent U T)} (hmem : envelope ∈ outbounds c.left.events)
      (hsent : outbounds es = [])
      (h : InboundStep P.sessionId envelope c.right.state s' es) :
      Acted P c (.deliverRight index) { c with right := ⟨s', c.right.events ++ es⟩ }

variable {P : Setup} {c c' : Session T U} {a : Action T U}
  {ok : Session T U → Action T U → Prop}

theorem act_cases (hs : c.Sound P) (h : c.act P a = some c') : Acted P c a c' := by
  cases a with
  | commandLeft now cmd =>
    obtain ⟨s', es, heq, hdone⟩ := command_cases (U := U) now hs.left cmd
    simp only [act, heq, Endpoint.take, Option.map_some, Option.some.injEq] at h
    subst h
    exact .commandLeft hdone
  | commandRight now cmd =>
    obtain ⟨s', es, heq, hdone⟩ := command_cases (U := T) now hs.right cmd
    simp only [act, heq, Endpoint.take, Option.map_some, Option.some.injEq] at h
    subst h
    exact .commandRight hdone
  | deliverLeft index =>
    obtain ⟨envelope, hget, htake⟩ := Option.bind_eq_some_iff.mp h
    obtain ⟨s', es, heq, hsent, hdone⟩ := inbound_cases P.sessionId c.left.state envelope
    simp only [heq, Endpoint.take, Option.map_some, Option.some.injEq] at htake
    subst htake
    exact .deliverLeft (List.mem_of_getElem? hget) hsent hdone
  | deliverRight index =>
    obtain ⟨envelope, hget, htake⟩ := Option.bind_eq_some_iff.mp h
    obtain ⟨s', es, heq, hsent, hdone⟩ := inbound_cases P.sessionId c.right.state envelope
    simp only [heq, Endpoint.take, Option.map_some, Option.some.injEq] at htake
    subst htake
    exact .deliverRight (List.mem_of_getElem? hget) hsent hdone

theorem Acted.sound (hs : c.Sound P) (h : Acted P c a c') : c'.Sound P := by
  cases h with
  | commandLeft hdone => exact ⟨hdone.sound, hs.right⟩
  | commandRight hdone => exact ⟨hs.left, hdone.sound⟩
  | deliverLeft _ _ hdone => exact ⟨hdone.sound hs.left, hs.right⟩
  | deliverRight _ _ hdone => exact ⟨hs.left, hdone.sound hs.right⟩

theorem initial_sound (P : Setup) : (initial T U).Sound P :=
  ⟨fun _ _ h => absurd h (by simp [initial, Endpoint.initial, BridgeState.initial]),
    fun _ _ h => absurd h (by simp [initial, Endpoint.initial, BridgeState.initial])⟩

variable {inv : Session T U → Prop}

theorem Runs.invariant (hsound : c.Sound P)
    (hstep : ∀ c a c', c.Sound P → ok c a → Acted P c a c' → inv c → inv c')
    (h : Runs P ok c c') (hc : inv c) : c'.Sound P ∧ inv c' := by
  have hkeep : ∀ x y, Step P ok x y → True → (x.Sound P ∧ inv x) → (y.Sound P ∧ inv y) := by
    rintro x y ⟨a, hok, hact⟩ - ⟨hx, hinv⟩
    have hacted := act_cases hx hact
    exact ⟨hacted.sound hx, hstep x a y hx hok hacted hinv⟩
  exact Transition.GuardedReach.invariant hkeep h ⟨hsound, hc⟩

/-- What every action of a sound session preserves, every reachable session has. -/
theorem Reachable.invariant (hinit : inv (initial T U))
    (hstep : ∀ c a c', c.Sound P → ok c a → Acted P c a c' → inv c → inv c')
    (h : Reachable P ok c) : c.Sound P ∧ inv c :=
  Runs.invariant (initial_sound P) hstep h hinit

theorem act_swap (P : Setup) (c : Session T U) (a : Action T U) :
    c.swap.act P.swap a.swap = (c.act P a).map swap := by
  cases a with
  | commandLeft now cmd =>
    simp only [act, swap, Action.swap, Setup.swap, Setup.leftOpts, Setup.rightOpts,
      Option.map_map]
    rfl
  | commandRight now cmd =>
    simp only [act, swap, Action.swap, Setup.swap, Setup.leftOpts, Setup.rightOpts,
      Option.map_map]
    rfl
  | deliverLeft index =>
    simp only [act, swap, Action.swap, Setup.swap, Option.map_bind, Function.comp_def,
      Option.map_map]
  | deliverRight index =>
    simp only [act, swap, Action.swap, Setup.swap, Option.map_bind, Function.comp_def,
      Option.map_map]

/-- The two sides are interchangeable. -/
theorem Reachable.swap {ok' : Session U T → Action U T → Prop}
    (hok : ∀ c a, ok c a → ok' c.swap a.swap) (h : Reachable P ok c) :
    Reachable P.swap ok' c.swap := by
  refine Relation.ReflTransGen.lift Session.swap ?_ _ _ h
  rintro x y ⟨⟨a, ha, hact⟩, -⟩
  exact ⟨⟨a.swap, hok x a ha, by rw [act_swap, hact]; rfl⟩, trivial⟩

theorem Reachable.of_runChecked [∀ c a, Decidable (ok c a)] {as : List (Action T U)}
    (h : runChecked P ok as (initial T U) = some c) : Reachable P ok c := by
  have hrun : ∀ (as : List (Action T U)) (x : Session T U),
      runChecked P ok as x = some c → Runs P ok x c := by
    intro as
    induction as with
    | nil =>
      intro x hx
      obtain rfl := Option.some.inj hx
      exact Relation.ReflTransGen.refl
    | cons a as ih =>
      intro x hx
      by_cases hok : ok x a
      · rw [runChecked, if_pos hok] at hx
        obtain ⟨y, hy, hrest⟩ := Option.bind_eq_some_iff.mp hx
        exact Relation.ReflTransGen.head ⟨⟨a, hok, hy⟩, trivial⟩ (ih y hrest)
      · rw [runChecked, if_neg hok] at hx
        exact absurd hx (by simp)
  exact hrun as _ h

end Session

end GraphRefly.Bridge
