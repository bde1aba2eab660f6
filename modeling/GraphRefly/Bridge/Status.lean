import GraphRefly.Bridge.Accounts
import GraphRefly.Bridge.Moves
import Mathlib.Order.Interval.Finset.Nat

/-!
# The Status of a Bridge

The status node of a bridge sees its events only, and counts from them what the
bridge holds: how many envelopes wait for a receipt, where the peer is and which
number comes next. `Mirrors` says that it counts right.

The numbers always agree, with one exception. A retried close is an event of the
same kind as its first attempt, and the projection takes it for the end of the
session: it sets the count of pending envelopes to zero, while the close waits
for its receipt as before.

## Main definitions

* `WireBridgeStatus`, `initialStatus`, `reduceStatus`: The projection.
* `Leaves`: A number that left the pending map, and not because of a close.
* `Mirrors`: The status after some items is that of the bridge.
* `BridgeState.resendsClose`: An item that makes the bridge repeat a close.

## Theorems

* `Move.positions`, `Move.settled`: Cursor, next number and settled numbers after an item.
* `Move.counted`: The pending count after an item that repeats no close.
* `status_mirrors_iff`: The status is right in a run exactly without such items.
-/

namespace GraphRefly.Bridge

open List

variable {T U : Type}

inductive WireBridgeStatusState
  | idle
  | started
  | «open»
  | waiting
  | closed
  | errored
  | exhausted
  deriving DecidableEq

structure WireBridgeStatus where
  sessionId : String
  state : WireBridgeStatusState
  cursor : Nat
  nextSeq : Nat
  pending : Nat
  attempts : Nat
  acked : Nat
  nacked : Nat
  errors : Nat
  lastSeq : Option Nat
  lastDelayMs : Option Nat
  deriving DecidableEq

def initialStatus (sessionId : String) : WireBridgeStatus where
  sessionId := sessionId
  state := .idle
  cursor := 0
  nextSeq := 1
  pending := 0
  attempts := 0
  acked := 0
  nacked := 0
  errors := 0
  lastSeq := none
  lastDelayMs := none

/-- One more, below the largest `u64`. -/
def oneMore (n : Nat) : Nat := saturatingAdd u64Max n 1

/-- What one event does to the status. -/
def reduceStatus (current : WireBridgeStatus) : WireBridgeEvent T U → WireBridgeStatus
  | .outbound envelope =>
    { current with
      state :=
        match envelope.envelopeType with
        | .start => .started
        | .close => .closed
        | .data | .ack | .nack | .status | .error => .open
      nextSeq := max current.nextSeq (oneMore envelope.metadata.seq)
      pending :=
        if envelope.envelopeType = .close then if envelope.metadata.attempt = 1 then 1 else 0
        else if shouldTrackAck envelope.envelopeType = true ∧ envelope.metadata.attempt = 1 then
          oneMore current.pending
        else current.pending
      attempts :=
        if shouldTrackAck envelope.envelopeType = true then oneMore current.attempts
        else current.attempts
      lastSeq := some envelope.metadata.seq }
  | .ack _ envelope outbound =>
    { current with
      state := if outbound.envelopeType = .close then .closed else .open
      pending := current.pending - 1
      acked := oneMore current.acked
      lastSeq := some envelope.metadata.seq }
  | .nack _ envelope _ _ =>
    { current with
      state := .errored
      pending := current.pending - 1
      nacked := oneMore current.nacked
      errors := oneMore current.errors
      lastSeq := some envelope.metadata.seq }
  | .retry seq _ delayMs _ =>
    { current with state := .waiting, lastSeq := some seq, lastDelayMs := some delayMs }
  | .exhausted seq _ _ =>
    { current with
      state := .exhausted
      pending := current.pending - 1
      errors := oneMore current.errors
      lastSeq := some seq }
  | .cursor cursor => { current with cursor }
  | .outOfOrder seq _ =>
    { current with state := .errored, errors := oneMore current.errors, lastSeq := some seq }
  | .sessionMismatch _ _ | .lateReceipt _ _ | .invalid _ =>
    { current with state := .errored, errors := oneMore current.errors }
  | .inbound envelope =>
    match envelope.envelopeType with
    | .error =>
      { current with
        state := .errored
        errors := oneMore current.errors
        lastSeq := some envelope.metadata.seq }
    | .close => { current with state := .closed, lastSeq := some envelope.metadata.seq }
    | .start | .data | .ack | .nack | .status => current
  | .timeout _ _ | .duplicate _ _ => current

/-- The status after some events. -/
def statusAfter (opts : WireBridgeOptions) (events : List (WireBridgeEvent T U)) :
    WireBridgeStatus :=
  events.foldl reduceStatus (initialStatus opts.sessionId)

/-- Whether an event says that a number was given up. -/
def WireBridgeEvent.isExhausted : WireBridgeEvent T U → Bool
  | .exhausted _ _ _ => true
  | _ => false

/-- Whether an item is a close of the owner, which forgets what is pending. -/
def BridgeItem.isClose : BridgeItem T U → Bool
  | .command _ cmd => cmd.isClose
  | .ingress _ => false

/-- A number that an item takes from the pending map, other than by a close. -/
def LeavesAt (item : BridgeItem T U) (s s' : BridgeState T) (k : Nat) : Prop :=
  item.isClose = false ∧ (s.pending k).isSome = true ∧ s'.pending k = none

/-- A number that some items took from the pending map, other than by a close. -/
def Leaves (opts : WireBridgeOptions) (items : List (BridgeItem T U)) (k : Nat) : Prop :=
  ∃ before item, before ++ [item] <+: items ∧
    ∃ s evs s' evs', runBridge opts (BridgeState.initial T) before = .ok (s, evs) ∧
      runBridge opts (BridgeState.initial T) (before ++ [item]) = .ok (s', evs') ∧
      LeavesAt item s s' k

/-- After some items that left a state and these events, the status is that of
    the state, and its receipts and the exhausted numbers are those that left. -/
structure Mirrors (opts : WireBridgeOptions) (items : List (BridgeItem T U)) (s : BridgeState T)
    (events : List (WireBridgeEvent T U)) : Prop where
  cursor : (statusAfter opts events).cursor = s.cursor
  nextSeq : (statusAfter opts events).nextSeq = s.nextSeq
  pending : ∃ keys : Finset Nat, (∀ k, k ∈ keys ↔ (s.pending k).isSome = true) ∧
    (statusAfter opts events).pending = keys.card
  settled : ∃ left : Finset Nat, (∀ k, k ∈ left ↔ Leaves opts items k) ∧
    (statusAfter opts events).acked + (statusAfter opts events).nacked +
      events.countP (·.isExhausted) = left.card

/-- Whether an item makes a bridge send a pending close again. -/
def BridgeState.resendsClose (opts : WireBridgeOptions) (s : BridgeState T) :
    BridgeItem T U → Bool
  | .command _ (.ackTimeout seq attempt observedAtMs) =>
    s.retransmits opts seq attempt observedAtMs &&
      (s.pending seq).any fun p => decide (p.envelope.envelopeType = .close)
  | _ => false

variable {opts : WireBridgeOptions} {s s' : BridgeState T} {item : BridgeItem T U}
  {es : List (WireBridgeEvent T U)}

/-! ### Events that count nothing -/

/-- The part of a status that is compared with the bridge. -/
def WireBridgeStatus.counts (st : WireBridgeStatus) : Nat × Nat × Nat × Nat × Nat :=
  (st.cursor, st.nextSeq, st.pending, st.acked, st.nacked)

/-- An event that only touches the state, the errors and what came last. -/
def WireBridgeEvent.quiet : WireBridgeEvent T U → Bool
  | .outbound _ | .ack _ _ _ | .nack _ _ _ _ | .exhausted _ _ _ | .cursor _ => false
  | .inbound _ | .timeout _ _ | .retry _ _ _ _ | .duplicate _ _ | .outOfOrder _ _
  | .sessionMismatch _ _ | .lateReceipt _ _ | .invalid _ => true

variable {ev : WireBridgeEvent T U}

theorem reduceStatus_quiet (st : WireBridgeStatus)
    (h : ev.quiet = true) : (reduceStatus st ev).counts = st.counts := by
  cases ev with
  | inbound envelope =>
    simp only [reduceStatus]
    cases envelope.envelopeType <;> rfl
  | timeout | retry | duplicate | outOfOrder | sessionMismatch | lateReceipt | invalid => rfl
  | outbound | ack | nack | exhausted | cursor => cases h

theorem foldl_quiet (st : WireBridgeStatus) (h : ∀ ev ∈ es, ev.quiet = true) :
    (es.foldl reduceStatus st).counts = st.counts ∧ es.countP (·.isExhausted) = 0 := by
  induction es generalizing st with
  | nil => exact ⟨rfl, rfl⟩
  | cons ev es ih =>
    have hev := h ev mem_cons_self
    obtain ⟨hcounts, hnone⟩ := ih (reduceStatus st ev) fun e he => h e (mem_cons_of_mem _ he)
    refine ⟨hcounts.trans (reduceStatus_quiet st hev), ?_⟩
    have hnot : ¬ ev.isExhausted = true := by
      cases ev with
      | exhausted => cases hev
      | _ => exact Bool.false_ne_true
    rw [countP_cons_of_neg hnot]
    exact hnone

theorem WireBridgeEvent.quiet_of_reports (h : ev.reports = true) :
    ev.quiet = true := by
  cases ev <;> first | rfl | cases h

theorem quiet_accepted (envelope : WireBridgeEnvelope U) {receipts : List (WireBridgeEvent T U)}
    (h : receipts = [] ∨ ∃ receipt k, receipts = [.lateReceipt receipt k] ∧ s.pending k = none) :
    ∀ ev ∈ (.inbound envelope :: receipts : List (WireBridgeEvent T U)), ev.quiet = true := by
  rcases h with rfl | ⟨receipt, k, rfl, -⟩ <;> simp [WireBridgeEvent.quiet]

/-! ### What one item counts -/

/-- The numbers a bridge has in its pending map. -/
def BridgeState.Keys (s : BridgeState T) (keys : Finset Nat) : Prop :=
  ∀ k, k ∈ keys ↔ (s.pending k).isSome = true

theorem oneMore_of_lt {n : Nat} (h : n < u64Max) : oneMore n = n + 1 := by
  unfold oneMore saturatingAdd
  omega

variable {keys : Finset Nat}

theorem BridgeState.Keys.card_le (h : s.Keys keys) (hs : s.Booked opts) :
    keys.card ≤ s.nextSeq := by
  have hsub : keys ⊆ Finset.range s.nextSeq := by
    intro k hk
    obtain ⟨p, hp⟩ := Option.isSome_iff_exists.mp ((h k).mp hk)
    exact Finset.mem_range.mpr (hs.below k p hp)
  have hcard := Finset.card_le_card hsub
  rwa [Finset.card_range] at hcard

variable {k : Nat} {p : PendingEnvelope T}

theorem BridgeState.Keys.write (h : s.Keys keys) (hp : s.pending k = some p)
    (q : PendingEnvelope T) :
    (s.setPending k (some q)).Keys keys := by
  intro j
  by_cases hj : j = k
  · subst hj
    rw [BridgeState.setPending_self, h j, hp]
    simp
  · rw [BridgeState.setPending_of_ne s _ hj, h j]

theorem BridgeState.Keys.erase (h : s.Keys keys) (k : Nat) :
    (s.setPending k none).Keys (keys.erase k) := by
  intro j
  by_cases hj : j = k
  · subst hj
    rw [BridgeState.setPending_self]
    simp
  · rw [BridgeState.setPending_of_ne s _ hj, ← h j, Finset.mem_erase]
    exact ⟨fun hmem => hmem.2, fun hmem => ⟨hj, hmem⟩⟩

theorem BridgeState.Keys.card_erase (h : s.Keys keys) (hp : s.pending k = some p) :
    (keys.erase k).card = keys.card - 1 :=
  Finset.card_erase_of_mem ((h k).mpr (by rw [hp]; rfl))

variable {e : WireBridgeEnvelope T}

theorem BridgeState.keys_close (htype : e.envelopeType = .close) : (s.sent e).Keys {s.nextSeq} := by
  intro k
  unfold BridgeState.sent
  rw [htype]
  by_cases hk : k = s.nextSeq <;> simp [hk, shouldTrackAck]

theorem BridgeState.Keys.sent (h : s.Keys keys) (htype : e.envelopeType ≠ .close) : (s.sent e).Keys
      (if shouldTrackAck e.envelopeType = true then insert s.nextSeq keys else keys) := by
  intro k
  unfold BridgeState.sent
  cases htrack : shouldTrackAck e.envelopeType with
  | false => simp [htype, h k]
  | true => by_cases hk : k = s.nextSeq <;> simp [htype, hk, h k]

theorem BridgeState.Keys.fresh (h : s.Keys keys) (hs : s.Booked opts) :
    s.nextSeq ∉ keys := by
  intro hmem
  obtain ⟨p, hp⟩ := Option.isSome_iff_exists.mp ((h _).mp hmem)
  exact absurd (hs.below _ p hp) (Nat.lt_irrefl _)

variable {seq : Nat}

variable {now attempt : Nat} {observedAtMs : Option Nat}

theorem retransmits_iff
    (hstep : bridgeStep opts s (.command now (.ackTimeout seq attempt observedAtMs)) =
      .ok (s', es)) :
    s.retransmits opts seq attempt observedAtMs = true ↔ outbounds es ≠ [] := by
  obtain ⟨-, hquiet, hsent⟩ := processAckTimeoutCommand_sent hstep
  constructor
  · intro h
    obtain ⟨p, before, state, -, -, -, rfl⟩ := hsent h
    simp [outbounds, WireBridgeEvent.outbound?]
  · intro h
    by_contra hne
    exact h (hquiet (Bool.eq_false_iff.mpr hne))

theorem not_close_of_resends
    (hstep : bridgeStep opts s (.command now (.ackTimeout seq attempt observedAtMs)) =
      .ok (s', es)) (hsent : outbounds es ≠ []) (hp : s.pending seq = some p)
    (hno : s.resendsClose opts
      (.command now (.ackTimeout seq attempt observedAtMs) : BridgeItem T U) = false) :
    p.envelope.envelopeType ≠ .close := by
  intro hclose
  simp only [BridgeState.resendsClose] at hno
  rw [(retransmits_iff hstep).mpr hsent, hp] at hno
  simp [hclose] at hno

theorem reduceStatus_resent (st : WireBridgeStatus) (hs : s.Booked opts)
    (hp : s.pending seq = some p)
    (he : Resent opts seq p e) (htype : p.envelope.envelopeType ≠ .close) :
    (reduceStatus st (.outbound e : WireBridgeEvent T U)).pending = st.pending := by
  have hattempt := he.attempt
  have hfirst := (hs.sound seq p hp).valid.attempt
  have hnot : ¬ e.metadata.attempt = 1 := by omega
  simp only [reduceStatus, he.envelopeType, htype, hnot, if_false, and_false]

variable {st : WireBridgeStatus}

/-- The pending count is kept by every item that does not repeat a close. -/
theorem Move.counted (h : Move opts s item s' es) (hs : s.Booked opts)
    (hstep : bridgeStep opts s item = .ok (s', es)) (hno : s.resendsClose opts item = false)
    (hkeys : s.Keys keys) (hst : st.pending = keys.card) :
    ∃ keys', s'.Keys keys' ∧ (es.foldl reduceStatus st).pending = keys'.card := by
  cases h with
  | report _ hreport =>
    have hquiet := fun ev hev => WireBridgeEvent.quiet_of_reports (hreport ev hev)
    have hcounts := (foldl_quiet st hquiet).1
    exact ⟨keys, hkeys, (congrArg (·.2.2.1) hcounts).trans hst⟩
  | @fresh now cmd e he =>
    have hattempt := he.attempt
    by_cases htype : e.envelopeType = .close
    · refine ⟨{s.nextSeq}, BridgeState.keys_close htype, ?_⟩
      simp [reduceStatus, htype, hattempt]
    · refine ⟨_, hkeys.sent htype, ?_⟩
      have hroom : keys.card < u64Max := by
        have := hkeys.card_le hs
        have := he.room
        omega
      cases htrack : shouldTrackAck e.envelopeType with
      | false => simp [reduceStatus, htype, htrack, hst]
      | true =>
        simp only [foldl_cons, foldl_nil, reduceStatus, htype, htrack, hattempt,
          if_false, and_self, if_true, hst]
        rw [oneMore_of_lt hroom, Finset.card_insert_of_notMem (hkeys.fresh hs)]
  | wait hp => exact ⟨keys, hkeys.write hp _, hst⟩
  | again hp hattempt hnew hwait he =>
    have htype := not_close_of_resends hstep (by simp
      [outbounds, WireBridgeEvent.outbound?]) hp hno
    exact ⟨keys, hkeys.write hp _, (reduceStatus_resent (U := U) _ hs hp he htype).trans hst⟩
  | resend hp hattempt hreported hdue he =>
    have htype := not_close_of_resends hstep (by simp
      [outbounds, WireBridgeEvent.outbound?]) hp hno
    exact ⟨keys, hkeys.write hp _, (reduceStatus_resent (U := U) _ hs hp he htype).trans hst⟩
  | exhaust hp =>
    refine ⟨_, hkeys.erase _, ?_⟩
    rw [hkeys.card_erase hp, ← hst]
    rfl
  | @accept envelope receipts hnext hreceipts =>
    refine ⟨keys, hkeys, ?_⟩
    have hquiet := quiet_accepted envelope hreceipts
    have hcounts := (foldl_quiet (reduceStatus st
      (.cursor envelope.metadata.seq : WireBridgeEvent T U)) hquiet).1
    exact (congrArg (·.2.2.1) hcounts).trans hst
  | @settle envelope k p ev hnext hp hev =>
    have hkeys' : (s.accept envelope).Keys keys := hkeys
    refine ⟨_, hkeys'.erase k, ?_⟩
    rw [hkeys.card_erase hp, ← hst]
    have hquiet : (.inbound envelope : WireBridgeEvent T U).quiet = true := rfl
    have hinbound := reduceStatus_quiet (reduceStatus st
      (.cursor envelope.metadata.seq : WireBridgeEvent T U)) hquiet
    have hpending := congrArg (·.2.2.1) hinbound
    rcases hev with rfl | ⟨error, rfl⟩ <;> exact congrArg (· - 1) hpending

/-- The cursor and the next number are kept by every item. -/
theorem Move.positions (h : Move opts s item s' es) (hs : s.Booked opts)
    (hcursor : st.cursor = s.cursor) (hnext : st.nextSeq = s.nextSeq) :
    (es.foldl reduceStatus st).cursor = s'.cursor ∧
      (es.foldl reduceStatus st).nextSeq = s'.nextSeq := by
  -- A number that was given out is below the next one.
  have hold : ∀ {seq : Nat} {p : PendingEnvelope T} {e : WireBridgeEnvelope T},
      s.pending seq = some p → Resent opts seq p e →
        max st.nextSeq (oneMore e.metadata.seq) = s.nextSeq := by
    intro seq p e hp he
    have hbelow := hs.below seq p hp
    have hseq := he.seq
    unfold oneMore saturatingAdd
    omega
  cases h with
  | report _ hreport =>
    have hquiet := fun ev hev => WireBridgeEvent.quiet_of_reports (hreport ev hev)
    have hcounts := (foldl_quiet st hquiet).1
    exact ⟨(congrArg (·.1) hcounts).trans hcursor, (congrArg (·.2.1) hcounts).trans hnext⟩
  | @fresh now cmd e he =>
    refine ⟨hcursor, ?_⟩
    have hseq := he.seq
    have hroom := he.room
    have hone := oneMore_of_lt hroom
    simp only [foldl_cons, foldl_nil, reduceStatus, BridgeState.sent, hseq, hone]
    omega
  | wait => exact ⟨hcursor, hnext⟩
  | again hp hattempt hnew hwait he => exact ⟨hcursor, hold hp he⟩
  | resend hp hattempt hreported hdue he => exact ⟨hcursor, hold hp he⟩
  | exhaust => exact ⟨hcursor, hnext⟩
  | @accept envelope receipts _ hreceipts =>
    have hquiet := quiet_accepted envelope hreceipts
    have hcounts := (foldl_quiet (reduceStatus st
      (.cursor envelope.metadata.seq : WireBridgeEvent T U)) hquiet).1
    exact ⟨congrArg (·.1) hcounts, (congrArg (·.2.1) hcounts).trans hnext⟩
  | @settle envelope k p ev _ hp hev =>
    have hquiet : (.inbound envelope : WireBridgeEvent T U).quiet = true := rfl
    have hinbound := reduceStatus_quiet (reduceStatus st
      (.cursor envelope.metadata.seq : WireBridgeEvent T U)) hquiet
    have hcursor' := congrArg (·.1) hinbound
    have hnext' := (congrArg (·.2.1) hinbound).trans hnext
    rcases hev with rfl | ⟨error, rfl⟩ <;> exact ⟨hcursor', hnext'⟩

theorem leavesAt_of_keeps (h : ∀ k, s'.pending k = none → (s.pending k).isSome = true →
    item.isClose = true) (k : Nat) : ¬ LeavesAt item s s' k := by
  rintro ⟨hclose, hpending, hgone⟩
  rw [h k hgone hpending] at hclose
  cases hclose

theorem setPending_keeps (q : PendingEnvelope T) (k : Nat) :
    ¬ LeavesAt item s (s.setPending seq (some q)) k := by
  refine leavesAt_of_keeps (fun j hgone hpending => ?_) k
  obtain ⟨p, hp⟩ := Option.isSome_iff_exists.mp hpending
  cases (BridgeState.setPending_lost hp hgone).2

theorem setPending_takes (hp : s.pending seq = some p) (hitem : item.isClose = false) (k : Nat) :
    LeavesAt item s (s.setPending seq none) k ↔ k = seq := by
  constructor
  · rintro ⟨-, hpending, hgone⟩
    obtain ⟨q, hq⟩ := Option.isSome_iff_exists.mp hpending
    exact (BridgeState.setPending_lost hq hgone).1
  · rintro rfl
    exact ⟨hitem, by rw [hp]; rfl, BridgeState.setPending_self s k none⟩

/-- The events count one more receipt or exhausted number for each number that
    an item takes, and at most one is taken. -/
theorem Move.settled (h : Move opts s item s' es) (st : WireBridgeStatus)
    (hacked : st.acked < u64Max) (hnacked : st.nacked < u64Max) :
    ((∀ k, ¬ LeavesAt item s s' k) ∧
      (es.foldl reduceStatus st).acked + (es.foldl reduceStatus st).nacked +
        es.countP (·.isExhausted) = st.acked + st.nacked) ∨
    ∃ seq, (∀ k, LeavesAt item s s' k ↔ k = seq) ∧
      (es.foldl reduceStatus st).acked + (es.foldl reduceStatus st).nacked +
        es.countP (·.isExhausted) = st.acked + st.nacked + 1 := by
  cases h with
  | report _ hreport =>
    have hquiet := fun ev hev => WireBridgeEvent.quiet_of_reports (hreport ev hev)
    obtain ⟨hcounts, hnone⟩ := foldl_quiet st hquiet
    have hacked' := congrArg (·.2.2.2.1) hcounts
    have hnacked' := congrArg (·.2.2.2.2) hcounts
    simp only [WireBridgeStatus.counts] at hacked' hnacked'
    refine .inl ⟨leavesAt_of_keeps fun k hgone hpending => ?_, by omega⟩
    rw [hgone] at hpending
    cases hpending
  | @fresh now cmd e he hclose =>
    refine .inl ⟨leavesAt_of_keeps fun k hgone hpending => ?_, rfl⟩
    -- Only a close empties slots that were in use.
    by_contra hcmd
    have htype : e.envelopeType ≠ .close := fun htype => hcmd (hclose.mp htype)
    simp only [BridgeState.sent, htype, if_false] at hgone
    split_ifs at hgone
    rw [hgone] at hpending
    cases hpending
  | wait => exact .inl ⟨setPending_keeps _, rfl⟩
  | again => exact .inl ⟨setPending_keeps _, rfl⟩
  | resend => exact .inl ⟨setPending_keeps _, rfl⟩
  | exhaust hp => exact .inr ⟨_, setPending_takes hp rfl, rfl⟩
  | @accept envelope receipts _ hreceipts =>
    have hquiet := quiet_accepted envelope hreceipts
    obtain ⟨hcounts, hnone⟩ := foldl_quiet (reduceStatus st
      (.cursor envelope.metadata.seq : WireBridgeEvent T U)) hquiet
    have hacked' := congrArg (·.2.2.2.1) hcounts
    have hnacked' := congrArg (·.2.2.2.2) hcounts
    refine .inl ⟨leavesAt_of_keeps fun k hgone hpending => ?_, ?_⟩
    · have hgone' : s.pending k = none := hgone
      rw [hgone'] at hpending
      cases hpending
    · simp only [WireBridgeStatus.counts, reduceStatus] at hacked' hnacked'
      rw [countP_cons_of_neg (by simp [WireBridgeEvent.isExhausted]), hnone]
      simp only [foldl_cons, reduceStatus] at hacked' hnacked' ⊢
      omega
  | @settle envelope k p ev _ hp hev =>
    have hquiet : (.inbound envelope : WireBridgeEvent T U).quiet = true := rfl
    have hinbound := reduceStatus_quiet (reduceStatus st
      (.cursor envelope.metadata.seq : WireBridgeEvent T U)) hquiet
    have hacked' := congrArg (·.2.2.2.1) hinbound
    have hnacked' := congrArg (·.2.2.2.2) hinbound
    simp only [WireBridgeStatus.counts] at hacked' hnacked'
    refine .inr ⟨k, setPending_takes (s := s.accept envelope) hp rfl, ?_⟩
    have hone := oneMore_of_lt hacked
    have hone' := oneMore_of_lt hnacked
    rcases hev with rfl | ⟨error, rfl⟩
    · change oneMore (reduceStatus (reduceStatus st _) _).acked +
        (reduceStatus (reduceStatus st _) _).nacked + 0 = _
      rw [hacked', hnacked']
      change oneMore st.acked + st.nacked + 0 = _
      omega
    · change (reduceStatus (reduceStatus st _) _).acked +
        oneMore (reduceStatus (reduceStatus st _) _).nacked + 0 = _
      rw [hacked', hnacked']
      change st.acked + oneMore st.nacked + 0 = _
      omega

theorem Move.nextSeq_le (h : Move opts s item s' es) : s.nextSeq ≤ s'.nextSeq := by
  cases h with
  | fresh => exact Nat.le_succ _
  | _ => exact Nat.le_refl _

theorem Move.gone (h : Move opts s item s' es) (hk : k < s.nextSeq)
    (hgone : s.pending k = none) : s'.pending k = none := by
  have hwrite : ∀ {seq : Nat} {p : PendingEnvelope T} (q : PendingEnvelope T),
      s.pending seq = some p → (s.setPending seq (some q)).pending k = none := by
    intro seq p q hp
    have hne : k ≠ seq := by
      rintro rfl
      rw [hgone] at hp
      cases hp
    exact (BridgeState.setPending_of_ne s _ hne).trans hgone
  have herase : ∀ seq, (s.setPending seq none).pending k = none := by
    intro seq
    by_cases hne : k = seq
    · subst hne
      exact BridgeState.setPending_self s k none
    · exact (BridgeState.setPending_of_ne s _ hne).trans hgone
  cases h with
  | report => exact hgone
  | @fresh now cmd e he =>
    have hne : ¬ k = s.nextSeq := by omega
    simp only [BridgeState.sent, hne, and_false, if_false, hgone, ite_self]
  | wait hp => exact hwrite _ hp
  | again hp => exact hwrite _ hp
  | resend hp => exact hwrite _ hp
  | exhaust => exact herase _
  | accept => exact hgone
  | settle => exact herase _

/-! ### Runs -/

variable {items : List (BridgeItem T U)} {evs evs' : List (List (WireBridgeEvent T U))}

theorem leaves_concat (hrun : runBridge opts (BridgeState.initial T) items = .ok (s, evs))
    (hrun' : runBridge opts (BridgeState.initial T) (items ++ [item]) = .ok (s', evs')) (k : Nat) :
    Leaves opts (items ++ [item]) k ↔ Leaves opts items k ∨ LeavesAt item s s' k := by
  constructor
  · rintro ⟨before, last, hinit, s₁, evs₁, s₂, evs₂, hbefore, hafter, hleaves⟩
    rcases prefix_concat_iff.mp hinit with heq | hinit
    · -- It left with the last item.
      obtain ⟨rfl, hlast⟩ := append_inj' heq rfl
      obtain rfl := (List.cons.inj hlast).1
      obtain ⟨rfl, -⟩ := Prod.mk.inj (Except.ok.inj (hrun.symm.trans hbefore))
      obtain ⟨rfl, -⟩ := Prod.mk.inj (Except.ok.inj (hrun'.symm.trans hafter))
      exact .inr hleaves
    · exact .inl ⟨before, last, hinit, s₁, evs₁, s₂, evs₂, hbefore, hafter, hleaves⟩
  · rintro (⟨before, last, hinit, h⟩ | hleaves)
    · exact ⟨before, last, hinit.trans (prefix_append items [item]), h⟩
    · exact ⟨items, item, prefix_refl _, s, evs, s', evs', hrun, hrun', hleaves⟩

/-- The part of the status that is right after every run. -/
structure Reflects (opts : WireBridgeOptions) (items : List (BridgeItem T U)) (s : BridgeState T)
    (events : List (WireBridgeEvent T U)) : Prop where
  cursor : (statusAfter opts events).cursor = s.cursor
  nextSeq : (statusAfter opts events).nextSeq = s.nextSeq
  settled : ∃ left : Finset Nat, (∀ k, k ∈ left ↔ Leaves opts items k) ∧
    (∀ k ∈ left, k ≠ 0 ∧ k < s.nextSeq ∧ s.pending k = none) ∧
    (statusAfter opts events).acked + (statusAfter opts events).nacked +
      events.countP (·.isExhausted) = left.card

theorem statusAfter_append (events es : List (WireBridgeEvent T U)) :
    statusAfter opts (events ++ es) = es.foldl reduceStatus (statusAfter opts events) :=
  foldl_append

theorem Reflects.concat (ht : Reflects opts items s evs.flatten)
    (hmove : Move opts s item s' es) (hs : s.Booked opts)
    (hrun : runBridge opts (BridgeState.initial T) items = .ok (s, evs))
    (hrun' : runBridge opts (BridgeState.initial T) (items ++ [item]) = .ok (s', evs')) :
    Reflects opts (items ++ [item]) s' (evs.flatten ++ es) := by
  obtain ⟨left, hleft, hgone, hcount⟩ := ht.settled
  have hroom : left.card < u64Max := by
    have hsub : left ⊆ Finset.Ico 1 s.nextSeq := by
      intro k hk
      have := hgone k hk
      exact Finset.mem_Ico.mpr (by omega)
    have hcard := Finset.card_le_card hsub
    rw [Nat.card_Ico] at hcard
    have := hs.room
    have : 0 < u64Max := by decide
    omega
  obtain ⟨hcursor, hnext⟩ := hmove.positions hs ht.cursor ht.nextSeq
  rw [← statusAfter_append] at hcursor hnext
  refine ⟨hcursor, hnext, ?_⟩
  have hkept : ∀ k ∈ left, k ≠ 0 ∧ k < s'.nextSeq ∧ s'.pending k = none := fun k hk =>
    ⟨(hgone k hk).1, Nat.lt_of_lt_of_le (hgone k hk).2.1 hmove.nextSeq_le,
      hmove.gone (hgone k hk).2.1 (hgone k hk).2.2⟩
  rw [statusAfter_append, countP_append]
  rcases hmove.settled (statusAfter opts evs.flatten) (by omega) (by omega) with
    ⟨hnone, hsum⟩ | ⟨seq, hseq, hsum⟩
  · refine ⟨left, fun k => ?_, hkept, by omega⟩
    rw [leaves_concat hrun hrun' k, hleft k]
    exact ⟨.inl, fun h => h.resolve_right (hnone k)⟩
  · obtain ⟨-, hpending, hempty⟩ := (hseq seq).mpr rfl
    obtain ⟨p, hp⟩ := Option.isSome_iff_exists.mp hpending
    have hnew : seq ∉ left := by
      intro hmem
      rw [(hgone seq hmem).2.2] at hp
      cases hp
    refine ⟨insert seq left, fun k => ?_, fun k hk => ?_, ?_⟩
    · rw [leaves_concat hrun hrun' k, hseq k, Finset.mem_insert, hleft k]
      exact Or.comm
    · rcases Finset.mem_insert.mp hk with rfl | hk
      · have hsound := hs.sound k p hp
        have hnumber := hsound.valid.seq
        rw [hsound.number] at hnumber
        exact ⟨hnumber, Nat.lt_of_lt_of_le (hs.below k p hp) hmove.nextSeq_le, hempty⟩
      · exact hkept k hk
    · rw [Finset.card_insert_of_notMem hnew]
      omega

/-- No item of a run makes the bridge repeat a close. -/
def RepeatsNoClose (opts : WireBridgeOptions) (items : List (BridgeItem T U)) : Prop :=
  ∀ before item, before ++ [item] <+: items → ∀ (s : BridgeState T) evs,
    runBridge opts (BridgeState.initial T) before = .ok (s, evs) →
      s.resendsClose opts item = false

theorem run_reflects (hmax : opts.retry.maxAttempts ≤ u32Max) (items : List (BridgeItem T U)) :
    ∃ s evs, runBridge opts (BridgeState.initial T) items = .ok (s, evs) ∧ s.Booked opts ∧
      Reflects opts items s evs.flatten ∧
      (RepeatsNoClose opts items → ∃ keys, s.Keys keys ∧
        (statusAfter opts evs.flatten).pending = keys.card) := by
  refine runBridge_induct hmax (fun items s events => Reflects opts items s events ∧
    (RepeatsNoClose opts items → ∃ keys, s.Keys keys ∧
      (statusAfter opts events).pending = keys.card)) ?_ ?_ items
  · refine ⟨⟨rfl, rfl, ∅, fun k => ?_, by simp, rfl⟩, fun _ => ⟨∅, fun k => ?_, rfl⟩⟩
    · refine ⟨fun h => absurd h (Finset.notMem_empty k), ?_⟩
      rintro ⟨before, item, hinit, -⟩
      have := hinit.length_le
      simp at this
    · simp [BridgeState.initial]
  · intro items item s s' es evs hs hmove hstep hrun hrun' hbefore
    rcases hbefore with ⟨hreflects, hcounted⟩
    refine ⟨hreflects.concat hmove hs hrun hrun', fun hno => ?_⟩
    obtain ⟨keys, hkeys, hpending⟩ := hcounted fun before last hinit =>
      hno before last (hinit.trans (prefix_append items [item]))
    have hquiet := hno items item (prefix_refl _) s evs hrun
    rw [statusAfter_append]
    exact hmove.counted hs hstep hquiet hkeys hpending

-- The close is sent last, so the projection ends with an empty pending count.
/-- An item that repeats a close sets the pending count to zero, and leaves the
    close pending. -/
theorem resendsClose_counted (hs : s.Booked opts) (hmove : Move opts s item s' es)
    (hstep : bridgeStep opts s item = .ok (s', es)) (h : s.resendsClose opts item = true)
    (st : WireBridgeStatus) :
    (es.foldl reduceStatus st).pending = 0 ∧ ∃ k, (s'.pending k).isSome = true := by
  cases item with
  | ingress ingress => cases h
  | command now cmd =>
    cases cmd with
    | start | send | ack | nack | close => cases h
    | ackTimeout seq attempt observedAtMs =>
      simp only [BridgeState.resendsClose, Bool.and_eq_true] at h
      obtain ⟨p, before, state, hp, hfirst, -, hes⟩ :=
        (processAckTimeoutCommand_sent hstep).2.2 h.1
      have htype : p.envelope.envelopeType = .close := by
        have hany := h.2
        rw [hp] at hany
        exact of_decide_eq_true hany
      constructor
      · have hnot : ¬ saturatingAdd u32Max p.envelope.metadata.attempt 1 = 1 := by
          have : 1 < u32Max := by decide
          unfold saturatingAdd
          omega
        rw [hes, foldl_append, foldl_cons, foldl_nil]
        simp only [reduceStatus, WireBridgeEnvelopeInput.envelope, retryInput, htype, if_true,
          hnot, if_false]
      · refine ⟨seq, ?_⟩
        have hsent : outbounds es ≠ [] := by
          rw [hes]
          simp [outbounds, WireBridgeEvent.outbound?]
        cases hmove with
        | report _ hreport => rw [hp]; rfl
        | @fresh _ _ e he =>
          -- The repeated envelope has a number that was given out.
          have hes' : [] ++ [.outbound e] = before ++ [.outbound _] := hes
          obtain ⟨-, heq⟩ := append_inj' hes' rfl
          have he' := WireBridgeEvent.outbound.inj (List.cons.inj heq).1
          have hseq := he.seq
          rw [he'] at hseq
          have hnumber := (hs.sound seq p hp).number
          have hbelow := hs.below seq p hp
          simp only [WireBridgeEnvelopeInput.envelope, retryInput] at hseq
          omega
        | wait => rw [BridgeState.setPending_self]; rfl
        | again => rw [BridgeState.setPending_self]; rfl
        | resend => rw [BridgeState.setPending_self]; rfl
        | exhaust => exact absurd rfl hsent

/-- The status of a bridge mirrors it after every item of a run if and only if no
    item of the run makes it send a pending close again. -/
theorem status_mirrors_iff (opts : WireBridgeOptions) (hmax : opts.retry.maxAttempts ≤ u32Max)
    (items : List (BridgeItem T U)) :
    (∀ done, done <+: items → ∃ s evs,
      runBridge opts (BridgeState.initial T) done = .ok (s, evs) ∧
        Mirrors opts done s evs.flatten) ↔ RepeatsNoClose opts items := by
  constructor
  · intro hmirrors before item hinit s evs hrun
    by_contra hresends
    rw [Bool.not_eq_false] at hresends
    obtain ⟨s₀, evs₀, hrun₀, hs, -⟩ :=
      @run_reflects T U opts hmax before
    obtain ⟨rfl, rfl⟩ := Prod.mk.inj (Except.ok.inj (hrun.symm.trans hrun₀))
    obtain ⟨s', es, hstep, hmove⟩ := bridge_moves hmax hs item
    obtain ⟨hzero, k, hk⟩ := resendsClose_counted hs hmove hstep hresends
      (statusAfter opts evs.flatten)
    obtain ⟨s₁, evs₁, hrun₁, hmirror⟩ := hmirrors _ hinit
    have hconcat := runBridge_concat hrun hstep
    obtain ⟨rfl, rfl⟩ := Prod.mk.inj (Except.ok.inj (hconcat.symm.trans hrun₁))
    obtain ⟨keys, hkeys, hcard⟩ := hmirror.pending
    rw [flatten_concat, statusAfter_append, hzero] at hcard
    have hempty := Finset.card_eq_zero.mp hcard.symm
    have hmem := (hkeys k).mpr hk
    rw [hempty] at hmem
    exact Finset.notMem_empty k hmem
  · intro hno done hinit
    obtain ⟨s, evs, hrun, -, hreflects, hcounted⟩ :=
      @run_reflects T U opts hmax done
    have hpending := hcounted fun before item h => hno before item (h.trans hinit)
    obtain ⟨left, hleft, -, hcount⟩ := hreflects.settled
    exact ⟨s, evs, hrun, hreflects.cursor, hreflects.nextSeq, hpending, left, hleft, hcount⟩

/-- A close whose timeout is announced and answered at once with a second attempt. -/
def closeTwice : List (BridgeItem Nat Nat) :=
  [.command 0 (.close none none), .command 1 (.ackTimeout 1 1 none)]

theorem status_loses_close :
    ¬ ∀ (opts : WireBridgeOptions) (items : List (BridgeItem Nat Nat)),
      ∀ done, done <+: items → ∃ s evs,
        runBridge opts (BridgeState.initial Nat) done = .ok (s, evs) ∧
          Mirrors opts done s evs.flatten := by
  intro h
  obtain ⟨s, evs, hrun, hmirror⟩ := h twoAttempts closeTwice _ (prefix_refl _)
  obtain ⟨keys, hkeys, hcard⟩ := hmirror.pending
  have hclosed : (runBridge twoAttempts (BridgeState.initial Nat) closeTwice).toOption.map
      (fun out => ((statusAfter twoAttempts out.2.flatten).pending, (out.1.pending 1).isSome)) =
        some (0, true) := by
    decide +kernel
  rw [hrun] at hclosed
  obtain ⟨hzero, hsome⟩ := Prod.mk.inj (Option.some.inj hclosed)
  rw [hzero] at hcard
  have hmem := (hkeys 1).mpr hsome
  rw [Finset.card_eq_zero.mp hcard.symm] at hmem
  exact Finset.notMem_empty 1 hmem

/-- A payload and a close, both sent once. -/
def closeOnce : List (BridgeItem Nat Nat) :=
  [.command 0 (.send 7 none none), .command 1 (.close none none)]

theorem status_mirrors_closeOnce :
    ∃ s evs, runBridge twoAttempts (BridgeState.initial Nat) closeOnce = .ok (s, evs) ∧
      Mirrors twoAttempts closeOnce s evs.flatten := by
  refine (status_mirrors_iff twoAttempts (by decide) closeOnce).mpr ?_ _ (prefix_refl _)
  intro before item hinit s evs hrun
  have hmem := hinit.subset (mem_append_right before mem_cons_self)
  simp only [closeOnce, mem_cons, not_mem_nil, or_false] at hmem
  rcases hmem with rfl | rfl <;> rfl

end GraphRefly.Bridge
