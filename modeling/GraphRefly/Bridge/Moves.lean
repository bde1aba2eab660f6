import GraphRefly.Bridge.Session
import Mathlib.Data.List.Induction

/-!
# What One Bridge Does

One active bridge and everything that comes to it, in any order: commands of its
owner, each with the clock it reads, and items of its peer, valid or not. The
session of two endpoints asks what their exchange achieves; here the question is
what a single bridge says about the envelopes it sends, whoever is on the other
side.

`Move` is the complete list of what an item can do, with the events it emits and
the state it leaves. An acknowledgement timeout alone can do five things:
nothing, announce a retry and wait, announce it and send, send what was
announced, or give up.

## Main definitions

* `BridgeItem`: A command or an item of the peer.
* `runBridge`: The events of each of some items in a row.
* `BridgeState.Booked`: What a bridge knows about its pending envelopes.
* `Move`: What an item can do.

## Theorems

* `bridge_moves`: Every item does one of these, and none panics.
* `runBridge_moves`: Every run is one of moves.
* `runBridge_induct`: What every move keeps, a run keeps.
-/

namespace GraphRefly.Bridge

variable {T U : Type}

/-- Something that comes to a bridge. -/
inductive BridgeItem (T U : Type)
  | command (now : Nat) (cmd : WireBridgeCommand T)
  | ingress (ingress : WireBridgeIngress U)

/-- The handler of an item. -/
def bridgeStep (opts : WireBridgeOptions) (s : BridgeState T) : BridgeItem T U → Handled T U
  | .command now cmd => processCommand opts now s cmd
  | .ingress ingress => processInbound opts.sessionId s ingress

/-- Some items in a row: the state they leave and the events of each. -/
def runBridge (opts : WireBridgeOptions) (s : BridgeState T) :
    List (BridgeItem T U) → Except String (BridgeState T × List (List (WireBridgeEvent T U)))
  | [] => .ok (s, [])
  | item :: items => do
      let (s', es) ← bridgeStep opts s item
      let (s'', rest) ← runBridge opts s' items
      return (s'', es :: rest)

/-- The envelopes whose receipt a bridge waits for. -/
def shouldTrackAck : WireBridgeEnvelopeType → Bool
  | .start | .data | .close => true
  | .ack | .nack | .status | .error => false

/-- The command that forgets what is pending. -/
def WireBridgeCommand.isClose : WireBridgeCommand T → Bool
  | .close _ _ => true
  | _ => false

/-- What a bridge knows about its pending envelopes. -/
structure BridgeState.Booked (opts : WireBridgeOptions) (s : BridgeState T) : Prop where
  sound : s.Sound opts
  limit : ∀ k p, s.pending k = some p → p.envelope.metadata.attempt ≤ opts.retry.maxAttempts
  below : ∀ k p, s.pending k = some p → k < s.nextSeq
  tracked : ∀ k p, s.pending k = some p → shouldTrackAck p.envelope.envelopeType = true
  room : s.nextSeq ≤ u64Max

/-- A report about something that came in and changed nothing. -/
def WireBridgeEvent.reports : WireBridgeEvent T U → Bool
  | .invalid _ | .duplicate _ _ | .outOfOrder _ _ | .sessionMismatch _ _ => true
  | _ => false

/-- The state after a new envelope was sent. -/
def BridgeState.sent (s : BridgeState T) (e : WireBridgeEnvelope T) : BridgeState T :=
  { s with
    nextSeq := s.nextSeq + 1
    pending := fun k =>
      if shouldTrackAck e.envelopeType = true ∧ k = s.nextSeq then some ⟨e, none, none⟩
      else if e.envelopeType = .close then none else s.pending k }

/-- A new envelope, under the next number. -/
structure Fresh (opts : WireBridgeOptions) (s : BridgeState T) (e : WireBridgeEnvelope T) :
    Prop where
  seq : e.metadata.seq = s.nextSeq
  room : s.nextSeq < u64Max
  attempt : e.metadata.attempt = 1
  limit : 1 ≤ opts.retry.maxAttempts
  valid : e.Valid
  session : e.sessionId = opts.sessionId

/-- The next attempt of a pending envelope. -/
structure Resent (opts : WireBridgeOptions) (seq : Nat) (p : PendingEnvelope T)
    (e : WireBridgeEnvelope T) : Prop where
  seq : e.metadata.seq = seq
  attempt : e.metadata.attempt = p.envelope.metadata.attempt + 1
  limit : e.metadata.attempt ≤ opts.retry.maxAttempts
  message : e.message = p.envelope.message
  valid : e.Valid
  session : e.sessionId = opts.sessionId

/-- The delay that is announced after an attempt. -/
def retryDelay (opts : WireBridgeOptions) (attempt : Nat) : Nat :=
  (opts.retry.nextDelayMs (attempt + 1)).getD 0

/-- The state after an envelope of the peer was accepted. -/
def BridgeState.accept (s : BridgeState T) (envelope : WireBridgeEnvelope U) : BridgeState T :=
  { s with remoteCursor := envelope.metadata.cursor, cursor := envelope.metadata.seq }

/-- What an item can do. -/
inductive Move (opts : WireBridgeOptions) (s : BridgeState T) :
    BridgeItem T U → BridgeState T → List (WireBridgeEvent T U) → Prop
  /-- It is turned away. -/
  | report {item} (es) (h : ∀ e ∈ es, e.reports = true) : Move opts s item s es
  /-- A new envelope is sent. -/
  | fresh {now cmd e} (h : Fresh opts s e)
      (hclose : e.envelopeType = .close ↔ cmd.isClose = true) :
      Move opts s (.command now cmd) (s.sent e) [.outbound e]
  /-- A timeout is announced with a retry whose due time is known. -/
  | wait {now seq attempt observedAtMs p due} (hp : s.pending seq = some p)
      (hattempt : p.envelope.metadata.attempt = attempt) (hnew : p.timeoutReportedAttempt = none)
      (hretry : attempt < opts.retry.maxAttempts)
      (hobserved : observedAtMs.map (saturatingAdd u64Max · (retryDelay opts attempt)) = some due)
      (hdelay : 0 < retryDelay opts attempt) :
      Move opts s (.command now (.ackTimeout seq attempt observedAtMs))
        (s.setPending seq (some ⟨p.envelope, some attempt, some due⟩))
        [.timeout seq attempt,
          .retry seq (attempt + 1) (retryDelay opts attempt) (timeoutError opts seq)]
  /-- A timeout is announced with a retry that is sent at once. -/
  | again {now seq attempt observedAtMs p e} (hp : s.pending seq = some p)
      (hattempt : p.envelope.metadata.attempt = attempt) (hnew : p.timeoutReportedAttempt = none)
      (hwait : 0 < retryDelay opts attempt → observedAtMs = none)
      (he : Resent opts seq p e) :
      Move opts s (.command now (.ackTimeout seq attempt observedAtMs))
        (s.setPending seq (some ⟨e, none, none⟩))
        [.timeout seq attempt,
          .retry seq (attempt + 1) (retryDelay opts attempt) (timeoutError opts seq),
          .outbound e]
  /-- A retry that was announced is sent. -/
  | resend {now seq attempt observedAtMs p e} (hp : s.pending seq = some p)
      (hattempt : p.envelope.metadata.attempt = attempt)
      (hreported : p.timeoutReportedAttempt = some attempt) (hdue : p.waits observedAtMs = false)
      (he : Resent opts seq p e) :
      Move opts s (.command now (.ackTimeout seq attempt observedAtMs))
        (s.setPending seq (some ⟨e, none, none⟩)) [.outbound e]
  /-- The last attempt has timed out. -/
  | exhaust {now seq attempt observedAtMs p} (hp : s.pending seq = some p)
      (hattempt : p.envelope.metadata.attempt = attempt) (hnew : p.timeoutReportedAttempt = none)
      (hlast : attempt = opts.retry.maxAttempts) :
      Move opts s (.command now (.ackTimeout seq attempt observedAtMs)) (s.setPending seq none)
        [.timeout seq attempt, .exhausted seq attempt (timeoutError opts seq)]
  /-- An envelope of the peer is accepted that settles nothing. -/
  | accept {envelope receipts} (hnext : envelope.metadata.seq = s.cursor + 1)
      (h : receipts = [] ∨ ∃ receipt k, receipts = [.lateReceipt receipt k] ∧ s.pending k = none) :
      Move opts s (.ingress (.envelope envelope)) (s.accept envelope)
        (.cursor envelope.metadata.seq :: .inbound envelope :: receipts)
  /-- A receipt of the peer is accepted that settles a pending envelope. -/
  | settle {envelope k p ev} (hnext : envelope.metadata.seq = s.cursor + 1)
      (hp : s.pending k = some p)
      (h : ev = .ack k envelope p.envelope ∨ ∃ error, ev = .nack k envelope p.envelope error) :
      Move opts s (.ingress (.envelope envelope)) ((s.accept envelope).setPending k none)
        [.cursor envelope.metadata.seq, .inbound envelope, ev]

variable {opts : WireBridgeOptions} {s s' : BridgeState T} {item : BridgeItem T U}
  {es : List (WireBridgeEvent T U)}

/-! ### Commands -/

theorem sent_eq (spec : OutboundSpec T) (e : WireBridgeEnvelope T)
    (htype : e.envelopeType = spec.envelopeType) (hseq : e.metadata.seq = s.nextSeq)
    (htrack : spec.trackAck = shouldTrackAck spec.envelopeType)
    (hclear : spec.clearPendingFirst = decide (spec.envelopeType = .close)) :
    (if spec.trackAck = true then
      BridgeState.setPending
        { (if spec.clearPendingFirst = true then s.clearPending else s) with
          nextSeq := s.nextSeq + 1 } e.metadata.seq (some ⟨e, none, none⟩)
      else { (if spec.clearPendingFirst = true then s.clearPending else s) with
        nextSeq := s.nextSeq + 1 }) = s.sent e := by
  unfold BridgeState.sent
  rw [htrack, hclear, htype, hseq]
  -- A new envelope that is tracked takes the next slot, and a close empties the others.
  cases spec.envelopeType with
  | start | data | close =>
    simp only [shouldTrackAck, BridgeState.setPending, BridgeState.clearPending, reduceCtorEq,
      decide_true, decide_false, Bool.false_eq_true, if_true, if_false, true_and,
      BridgeState.mk.injEq]
    exact funext fun k => Function.update_apply ..
  | ack | nack | status | error => rfl

theorem emitOutbound_moves (hs : s.Booked opts) (now : Nat) (cmd : WireBridgeCommand T)
    (spec : OutboundSpec T) (htrack : spec.trackAck = shouldTrackAck spec.envelopeType)
    (hclear : spec.clearPendingFirst = decide (spec.envelopeType = .close))
    (hclose : spec.envelopeType = .close ↔ cmd.isClose = true)
    (h : emitOutbound opts now s spec = (s', es)) :
    Move opts s (.command now cmd : BridgeItem T U) s' es := by
  unfold emitOutbound at h
  by_cases hfull : s.nextSeq = u64Max
  · rw [if_pos hfull] at h
    obtain ⟨rfl, rfl⟩ := Prod.mk.inj h
    exact .report _ (by simp [WireBridgeEvent.reports])
  rw [if_neg hfull] at h
  cases hbuild : wireBridgeEnvelope (spec.input opts now s) with
  | error err =>
    rw [hbuild] at h
    obtain ⟨rfl, rfl⟩ := Prod.mk.inj h
    exact .report _ (by simp [WireBridgeEvent.reports])
  | ok e =>
    obtain ⟨hvalid, rfl⟩ := (wireBridgeEnvelope_eq_ok _ _).mp hbuild
    rw [hbuild] at h
    obtain ⟨rfl, rfl⟩ := Prod.mk.inj h
    have hroom := hs.room
    rw [sent_eq spec _ rfl rfl htrack hclear]
    exact .fresh ⟨rfl, by omega, rfl, hvalid.maxAttempts, hvalid, rfl⟩ hclose

variable {seq : Nat} {p : PendingEnvelope T}

theorem emitRetryOutbound_moves (now : Nat) (hmax : opts.retry.maxAttempts ≤ u32Max)
    (hs : s.Sound opts) (hp : s.pending seq = some p)
    (hretry : p.envelope.metadata.attempt < opts.retry.maxAttempts) :
    ∃ e, emitRetryOutbound (U := U) opts now s p.envelope =
        .ok (s.setPending seq (some ⟨e, none, none⟩), [.outbound e]) ∧ Resent opts seq p e := by
  obtain ⟨e, he, hvalid, hsession, hseq, hmessage, -⟩ :=
    emitRetryOutbound_eq (U := U) now hs hp hretry
  have hattempt : e.metadata.attempt = p.envelope.metadata.attempt + 1 := by
    -- The envelope is the one the builder was asked for.
    have hbuilt := he
    unfold emitRetryOutbound at hbuilt
    cases hbuild : wireBridgeEnvelope (retryInput opts now s p.envelope) with
    | error err =>
      rw [hbuild] at hbuilt
      cases hbuilt
    | ok e' =>
      rw [hbuild] at hbuilt
      obtain ⟨-, rfl⟩ := (wireBridgeEnvelope_eq_ok _ _).mp hbuild
      have hevents := congrArg Prod.snd (Except.ok.inj hbuilt)
      have heq : (retryInput opts now s p.envelope).envelope = e := by simpa using hevents
      rw [← heq]
      simp only [WireBridgeEnvelopeInput.envelope, retryInput, saturatingAdd]
      omega
  exact ⟨e, he, hseq, hattempt, by omega, hmessage, hvalid, hsession⟩

theorem processAckTimeoutCommand_moves (now : Nat) (hmax : opts.retry.maxAttempts ≤ u32Max)
    (hs : s.Booked opts) (seq attempt : Nat) (observedAtMs : Option Nat) :
    ∃ s' es, processAckTimeoutCommand (U := U) opts now s seq attempt observedAtMs = .ok (s', es) ∧
      Move opts s (.command now (.ackTimeout seq attempt observedAtMs)) s' es := by
  unfold processAckTimeoutCommand
  by_cases hseq : seq = 0
  · exact ⟨s, _, if_pos hseq, .report _ (by simp [WireBridgeEvent.reports])⟩
  by_cases hzero : attempt = 0
  · exact ⟨s, _, by rw [if_neg hseq, if_pos hzero], .report _ (by simp [WireBridgeEvent.reports])⟩
  simp only [hseq, hzero, if_false]
  cases hp : s.pending seq with
  | none => exact ⟨s, [], rfl, .report _ (by simp)⟩
  | some p =>
    have hsound := hs.sound seq p hp
    have hlimit := hs.limit seq p hp
    by_cases hattempt : p.envelope.metadata.attempt = attempt
    case neg => exact ⟨s, [], by simp [hattempt], .report _ (by simp)⟩
    by_cases hreported : p.timeoutReportedAttempt = some attempt
    · -- The timeout was announced before: the due time alone decides.
      cases hdue : p.waits observedAtMs with
      | true => exact ⟨s, [], by simp [hattempt, hreported, hdue], .report _ (by simp)⟩
      | false =>
        obtain ⟨e, he, hresent⟩ := emitRetryOutbound_moves (U := U) now hmax hs.sound hp (by
          rw [hattempt]
          exact hsound.retryable attempt hreported)
        refine ⟨_, _, ?_, .resend hp hattempt hreported hdue hresent⟩
        simpa [hattempt, hreported, hdue] using he
    have hnew : p.timeoutReportedAttempt = none := by
      cases hr : p.timeoutReportedAttempt with
      | none => rfl
      | some a =>
        have := hsound.current a hr
        exact absurd (by rw [hr, this, hattempt]) hreported
    have hnodue := hsound.due hnew
    by_cases hretry : attempt < opts.retry.maxAttempts
    · have hnext : saturatingAdd u32Max attempt 1 = attempt + 1 := by
        unfold saturatingAdd
        omega
      have hshould : opts.retry.shouldRetry attempt = true := decide_eq_true hretry
      have hquiet : ¬ p.timeoutReportedAttempt = some attempt := hreported
      simp only [hattempt, hquiet, hshould, ne_eq, not_true_eq_false, if_false,
        Bool.true_eq_false, hnext]
      have hdelay : (opts.retry.nextDelayMs (attempt + 1)).getD 0 = retryDelay opts attempt := rfl
      simp only [hdelay]
      by_cases hwait : 0 < retryDelay opts attempt ∧ observedAtMs ≠ none
      · -- The due time is known, so the retry waits for it.
        obtain ⟨observed, hobserved⟩ := Option.ne_none_iff_exists'.mp hwait.2
        subst hobserved
        refine ⟨_, _, ?_, .wait hp hattempt hnew hretry rfl hwait.1⟩
        simp [PendingEnvelope.report, hwait.1]
      · have hnone : (p.report attempt (retryDelay opts attempt) observedAtMs).retryDueAtMs =
            none := by
          unfold PendingEnvelope.report
          by_cases hpos : 0 < retryDelay opts attempt
          · have hobserved : observedAtMs = none := by
              by_contra hne
              exact hwait ⟨hpos, hne⟩
            simp [hpos, hobserved]
          · simp [hpos, hnodue]
        have hreport : (p.report attempt (retryDelay opts attempt) observedAtMs).Sound opts seq :=
          ⟨hsound.number, hsound.valid, hsound.session,
            fun a ha => Option.some.inj ha ▸ hretry,
            fun a ha => (Option.some.inj ha).symm.trans hattempt.symm, fun hn => by cases hn⟩
        obtain ⟨e, he, hresent⟩ := emitRetryOutbound_moves (U := U) now hmax
          (hs.sound.setPending seq (some (p.report attempt (retryDelay opts attempt)
            observedAtMs))
            fun _ h => Option.some.inj h ▸ hreport)
          (BridgeState.setPending_self s seq _) (by
            rw [← hattempt] at hretry
            exact hretry)
        rw [BridgeState.setPending_setPending] at he
        refine ⟨_, _, ?_, .again hp hattempt hnew ?_
          ⟨hresent.seq, hresent.attempt, hresent.limit, hresent.message, hresent.valid,
            hresent.session⟩⟩
        · rw [if_neg (by rw [hnone]; simp)]
          have henvelope : (p.report attempt (retryDelay opts attempt) observedAtMs).envelope =
              p.envelope := rfl
          rw [henvelope] at he
          rw [he]
          rfl
        · intro hpos
          by_contra hne
          exact hwait ⟨hpos, hne⟩
    · have hshould : opts.retry.shouldRetry attempt = false := decide_eq_false hretry
      refine ⟨s.setPending seq none, _, ?_, .exhaust hp hattempt hnew (by omega)⟩
      simp [hattempt, hreported, hshould]

theorem command_moves (now : Nat) (hmax : opts.retry.maxAttempts ≤ u32Max) (hs : s.Booked opts)
    (cmd : WireBridgeCommand T) :
    ∃ s' es, processCommand (U := U) opts now s cmd = .ok (s', es) ∧
      Move opts s (.command now cmd) s' es := by
  cases cmd with
  | start idempotencyKey requestId =>
    exact ⟨_, _, rfl, emitOutbound_moves hs now _ _ rfl rfl
      (by simp [WireBridgeCommand.isClose]) rfl⟩
  | send payload idempotencyKey requestId =>
    exact ⟨_, _, rfl, emitOutbound_moves hs now _ _ rfl rfl
      (by simp [WireBridgeCommand.isClose]) rfl⟩
  | ack ackForSeq idempotencyKey requestId =>
    by_cases hzero : ackForSeq = 0
    · exact ⟨s, _, if_pos hzero, .report _ (by simp [WireBridgeEvent.reports])⟩
    · exact ⟨_, _, if_neg hzero, emitOutbound_moves hs now _ _ rfl rfl
        (by simp [WireBridgeCommand.isClose]) rfl⟩
  | nack ackForSeq error idempotencyKey requestId =>
    by_cases hzero : ackForSeq = 0
    · exact ⟨s, _, if_pos hzero, .report _ (by simp [WireBridgeEvent.reports])⟩
    · exact ⟨_, _, if_neg hzero, emitOutbound_moves hs now _ _ rfl rfl
        (by simp [WireBridgeCommand.isClose]) rfl⟩
  | close reason idempotencyKey =>
    exact ⟨_, _, rfl, emitOutbound_moves hs now _ _ rfl rfl
      (by simp [WireBridgeCommand.isClose]) rfl⟩
  | ackTimeout seq attempt observedAtMs =>
    exact processAckTimeoutCommand_moves now hmax hs seq attempt observedAtMs

/-! ### Items of the peer -/

theorem setPending_none {k : Nat} (h : s.pending k = none) : s.setPending k none = s := by
  have hpending : Function.update s.pending k none = s.pending := by
    rw [← h, Function.update_eq_self]
  unfold BridgeState.setPending
  rw [hpending]

theorem processReceipt_moves {envelope : WireBridgeEnvelope U} (hvalid : envelope.Valid)
    (hnext : envelope.metadata.seq = s.cursor + 1) :
    ∃ s' es, processReceipt (s.accept envelope) envelope = .ok (s', es) ∧
      Move opts s (.ingress (.envelope envelope)) s'
        (.cursor envelope.metadata.seq :: .inbound envelope :: es) := by
  have hreceipt := hvalid.receipt
  unfold processReceipt
  cases htype : envelope.envelopeType with
  | start | data | status | error | close =>
    exact ⟨_, [], rfl, .accept hnext (.inl rfl)⟩
  | ack =>
    rw [htype] at hreceipt
    obtain ⟨k, hk⟩ := Option.ne_none_iff_exists'.mp (hreceipt rfl)
    simp only [processAck, hk]
    cases hp : s.pending k with
    | none =>
      have hempty : (s.accept envelope).pending k = none := hp
      refine ⟨s.accept envelope, [.lateReceipt .ack k], ?_,
        .accept hnext (.inr ⟨_, k, rfl, hp⟩)⟩
      simp only [hempty, setPending_none hempty]
    | some p =>
      have hslot : (s.accept envelope).pending k = some p := hp
      refine ⟨(s.accept envelope).setPending k none, _, ?_, .settle hnext hp (.inl rfl)⟩
      simp only [hslot]
  | nack =>
    rw [htype] at hreceipt
    obtain ⟨k, hk⟩ := Option.ne_none_iff_exists'.mp (hreceipt rfl)
    simp only [processNack, hk]
    cases hp : s.pending k with
    | none =>
      have hempty : (s.accept envelope).pending k = none := hp
      refine ⟨s.accept envelope, [.lateReceipt .nack k], ?_,
        .accept hnext (.inr ⟨_, k, rfl, hp⟩)⟩
      simp only [hempty, setPending_none hempty]
    | some p =>
      have hslot : (s.accept envelope).pending k = some p := hp
      refine ⟨(s.accept envelope).setPending k none, _, ?_,
        .settle hnext hp (.inr ⟨payloadErrorString envelope.payload "remote nack", rfl⟩)⟩
      simp only [hslot]

theorem inbound_moves (ingress : WireBridgeIngress U) :
    ∃ s' es, processInbound opts.sessionId s ingress = .ok (s', es) ∧
      Move opts s (.ingress ingress) s' es := by
  cases ingress with
  | invalid error => exact ⟨s, _, rfl, .report _ (by simp [WireBridgeEvent.reports])⟩
  | envelope envelope =>
    unfold processInbound
    cases hcheck : validateInboundEnvelope envelope with
    | error err =>
      exact ⟨s, [.invalid err.toString], by simp only [hcheck],
        .report _ (by simp [WireBridgeEvent.reports])⟩
    | ok u =>
      simp only [hcheck]
      have hvalid := (validateInboundEnvelope_eq_ok envelope).mp hcheck
      by_cases hsession : envelope.sessionId = opts.sessionId
      case neg => exact ⟨s, _, if_pos hsession, .report _ (by simp [WireBridgeEvent.reports])⟩
      simp only [hsession, ne_eq, not_true_eq_false, if_false]
      by_cases hdup : envelope.metadata.seq ≤ s.cursor
      · exact ⟨s, _, if_pos hdup, .report _ (by simp [WireBridgeEvent.reports])⟩
      by_cases hgap : saturatingAdd u64Max s.cursor 1 < envelope.metadata.seq
      · exact ⟨s, _, by rw [if_neg hdup, if_pos hgap],
          .report _ (by simp [WireBridgeEvent.reports])⟩
      by_cases hback : envelope.metadata.cursor < s.remoteCursor
      · exact ⟨s, _, by rw [if_neg hdup, if_neg hgap, if_pos hback],
          .report _ (by simp [WireBridgeEvent.reports])⟩
      have hnext : envelope.metadata.seq = s.cursor + 1 := by
        unfold saturatingAdd at hgap
        omega
      obtain ⟨s', es, hreceipt, hmove⟩ :=
        @processReceipt_moves T U opts s envelope hvalid hnext
      refine ⟨s', _, ?_, hmove⟩
      rw [if_neg hdup, if_neg hgap, if_neg hback]
      unfold BridgeState.accept at hreceipt
      rw [hreceipt]

/-- Every item does one of these, and none panics. -/
theorem bridge_moves (hmax : opts.retry.maxAttempts ≤ u32Max) (hs : s.Booked opts)
    (item : BridgeItem T U) :
    ∃ s' es, bridgeStep opts s item = .ok (s', es) ∧ Move opts s item s' es := by
  cases item with
  | command now cmd => exact command_moves now hmax hs cmd
  | ingress ingress => exact inbound_moves ingress

/-! ### Runs -/

theorem booked_initial (opts : WireBridgeOptions) : (BridgeState.initial T).Booked opts where
  sound := fun k p h => by cases h
  limit := fun k p h => by cases h
  below := fun k p h => by cases h
  tracked := fun k p h => by cases h
  room := show 1 ≤ u64Max by decide

theorem BridgeState.Booked.setPending (hs : s.Booked opts) (k : Nat)
    (q : Option (PendingEnvelope T))
    (hq : ∀ p, q = some p → p.Sound opts k ∧ p.envelope.metadata.attempt ≤ opts.retry.maxAttempts ∧
      k < s.nextSeq ∧ shouldTrackAck p.envelope.envelopeType = true) :
    (s.setPending k q).Booked opts := by
  refine ⟨hs.sound.setPending k q fun p h => (hq p h).1, ?_, ?_, ?_, hs.room⟩
  · intro j p hj
    rcases BridgeState.setPending_cases hj with ⟨-, hslot⟩ | ⟨-, hold⟩
    · exact (hq p hslot).2.1
    · exact hs.limit j p hold
  · intro j p hj
    rcases BridgeState.setPending_cases hj with ⟨rfl, hslot⟩ | ⟨-, hold⟩
    · exact (hq p hslot).2.2.1
    · exact hs.below j p hold
  · intro j p hj
    rcases BridgeState.setPending_cases hj with ⟨-, hslot⟩ | ⟨-, hold⟩
    · exact (hq p hslot).2.2.2
    · exact hs.tracked j p hold

theorem Resent.envelopeType {e : WireBridgeEnvelope T}
    (h : Resent opts seq p e) : e.envelopeType = p.envelope.envelopeType :=
  congrArg (·.1) h.message

theorem BridgeState.Booked.resent (hs : s.Booked opts)
    (hp : s.pending seq = some p) {e : WireBridgeEnvelope T} (he : Resent opts seq p e) :
    (s.setPending seq (some ⟨e, none, none⟩)).Booked opts := by
  refine hs.setPending seq _ fun q hq => ?_
  rw [← Option.some.inj hq]
  refine ⟨⟨he.seq, he.valid, he.session, by simp, by simp, fun _ => rfl⟩, he.limit,
    hs.below seq p hp, ?_⟩
  rw [he.envelopeType]
  exact hs.tracked seq p hp

theorem Move.booked (h : Move opts s item s' es) (hs : s.Booked opts) : s'.Booked opts := by
  cases h with
  | report => exact hs
  | @fresh now cmd e h =>
    have hseq := h.seq
    have hroom := h.room
    refine ⟨?_, ?_, ?_, ?_, by simp only [BridgeState.sent]; omega⟩
    · intro k p hp
      simp only [BridgeState.sent] at hp
      split_ifs at hp with hnew hclose
      · rw [← Option.some.inj hp, hnew.2]
        exact ⟨hseq, h.valid, h.session, by simp, by simp, fun _ => rfl⟩
      · exact hs.sound k p hp
    · intro k p hp
      simp only [BridgeState.sent] at hp
      split_ifs at hp with hnew hclose
      · rw [← Option.some.inj hp, h.attempt]
        exact h.limit
      · exact hs.limit k p hp
    · intro k p hp
      simp only [BridgeState.sent] at hp ⊢
      split_ifs at hp with hnew hclose
      · omega
      · have := hs.below k p hp
        omega
    · intro k p hp
      simp only [BridgeState.sent] at hp
      split_ifs at hp with hnew hclose
      · rw [← Option.some.inj hp]
        exact hnew.1
      · exact hs.tracked k p hp
  | @wait now seq attempt observedAtMs p due hp hattempt hnew hretry =>
    have hsound := hs.sound seq p hp
    refine hs.setPending seq _ fun q hq => ?_
    rw [← Option.some.inj hq]
    refine ⟨⟨hsound.number, hsound.valid, hsound.session, ?_, ?_, by simp⟩, hs.limit seq p hp,
      hs.below seq p hp, hs.tracked seq p hp⟩
    · exact fun a ha => Option.some.inj ha ▸ hretry
    · exact fun a ha => (Option.some.inj ha).symm.trans hattempt.symm
  | again hp hattempt hnew hwait he => exact hs.resent hp he
  | resend hp hattempt hreported hdue he => exact hs.resent hp he
  | exhaust hp => exact hs.setPending _ none fun q hq => by cases hq
  | accept => exact ⟨hs.sound, hs.limit, hs.below, hs.tracked, hs.room⟩
  | @settle envelope k p ev hnext hp =>
    have haccept : (s.accept envelope).Booked opts :=
      ⟨hs.sound, hs.limit, hs.below, hs.tracked, hs.room⟩
    exact haccept.setPending _ none fun q hq => by cases hq

/-- Some moves in a row, with the events of each. -/
inductive Moves (opts : WireBridgeOptions) :
    BridgeState T → List (BridgeItem T U) → BridgeState T →
      List (List (WireBridgeEvent T U)) → Prop
  | nil {s : BridgeState T} : Moves opts s [] s []
  | cons {s s' s'' : BridgeState T} {item : BridgeItem T U} {es : List (WireBridgeEvent T U)}
      {items : List (BridgeItem T U)} {evs : List (List (WireBridgeEvent T U))}
      (move : Move opts s item s' es) (rest : Moves opts s' items s'' evs) :
      Moves opts s (item :: items) s'' (es :: evs)

/-- Every run is one of moves, and none panics. -/
theorem runBridge_moves (hmax : opts.retry.maxAttempts ≤ u32Max) (hs : s.Booked opts)
    (items : List (BridgeItem T U)) :
    ∃ s' evs, runBridge opts s items = .ok (s', evs) ∧ Moves opts s items s' evs ∧
      s'.Booked opts := by
  induction items generalizing s with
  | nil => exact ⟨s, [], rfl, .nil, hs⟩
  | cons item items ih =>
    obtain ⟨s₁, es, hstep, hmove⟩ := bridge_moves hmax hs item
    obtain ⟨s₂, evs, hrun, hmoves, hbooked⟩ := ih (hmove.booked hs)
    refine ⟨s₂, es :: evs, ?_, .cons hmove hmoves, hbooked⟩
    rw [runBridge, hstep]
    simp only [bind, Except.bind, hrun]
    rfl

theorem runBridge_concat {items : List (BridgeItem T U)} {evs : List (List (WireBridgeEvent T U))}
    {s'' : BridgeState T} (hrun : runBridge opts s items = .ok (s', evs))
    (hstep : bridgeStep opts s' item = .ok (s'', es)) :
    runBridge opts s (items ++ [item]) = .ok (s'', evs ++ [es]) := by
  induction items generalizing s evs with
  | nil =>
    obtain ⟨rfl, rfl⟩ := Prod.mk.inj (Except.ok.inj hrun)
    rw [List.nil_append, runBridge, hstep]
    rfl
  | cons head items ih =>
    rw [runBridge] at hrun
    cases hhead : bridgeStep opts s head with
    | error err => rw [hhead] at hrun; cases hrun
    | ok out =>
      simp only [hhead, bind, Except.bind] at hrun
      cases htail : runBridge opts out.1 items with
      | error err => rw [htail] at hrun; cases hrun
      | ok rest =>
        simp only [htail] at hrun
        obtain ⟨rfl, rfl⟩ := Prod.mk.inj (Except.ok.inj hrun)
        rw [List.cons_append, runBridge, hhead]
        simp only [bind, Except.bind, ih htail]
        rfl

-- Runs grow at the end: an invariant may speak of the items that led to the state.
/-- What every move keeps, a run from the start keeps. -/
theorem runBridge_induct (hmax : opts.retry.maxAttempts ≤ u32Max)
    (inv : List (BridgeItem T U) → BridgeState T → List (WireBridgeEvent T U) → Prop)
    (hnil : inv [] (BridgeState.initial T) [])
    (hmove : ∀ items item s s' es evs, s.Booked opts → Move opts s item s' es →
      bridgeStep opts s item = .ok (s', es) →
      runBridge opts (BridgeState.initial T) items = .ok (s, evs) →
      runBridge opts (BridgeState.initial T) (items ++ [item]) = .ok (s', evs ++ [es]) →
      inv items s evs.flatten → inv (items ++ [item]) s' (evs.flatten ++ es))
    (items : List (BridgeItem T U)) :
    ∃ s evs, runBridge opts (BridgeState.initial T) items = .ok (s, evs) ∧ s.Booked opts ∧
      inv items s evs.flatten := by
  induction items using List.reverseRecOn with
  | nil => exact ⟨_, [], rfl, booked_initial opts, hnil⟩
  | append_singleton items item ih =>
    obtain ⟨s, evs, hrun, hbooked, hinv⟩ := ih
    obtain ⟨s', es, hstep, hmov⟩ := bridge_moves hmax hbooked item
    have hconcat := runBridge_concat hrun hstep
    refine ⟨s', evs ++ [es], hconcat, hmov.booked hbooked, ?_⟩
    rw [List.flatten_concat]
    exact hmove items item s s' es evs hbooked hmov hstep hrun hconcat hinv

end GraphRefly.Bridge
