import GraphRefly.Bridge.Delivery

/-!
# Holes In The Sequence

The receiver takes only the successor of its cursor, so an envelope that is
lost for good blocks every later one. What the sender can still do about a
number it has used is send the pending copy again, and this module says which
numbers have one.

Four things take a number out of the sender's hands. A receipt is numbered like
any other envelope but is never tracked. A `Close` empties the pending map
before it takes its own number. An answer of the peer settles the number it
names, whether or not the peer has accepted it. And a number that ran out of
attempts is reported as exhausted. Every other number is with the receiver or
can be sent again.

## Main definitions

* `Session.Held`: Every number is with the receiver, pending or let go.

## Theorems

* `BridgeState.retransmits_of_pending`: A timeout sends a pending envelope again.
* `Session.no_hole_unless_released`: A number that is not let go is not lost.
* `Session.receipt_leaves_hole`: A lost receipt blocks the session.
-/

namespace GraphRefly.Bridge

variable {T U : Type}

/-- A timeout without an observed time sends a pending envelope again, unless
    it is out of attempts. -/
theorem BridgeState.retransmits_of_pending {opts : WireBridgeOptions} {s : BridgeState T}
    (hs : s.Sound opts) {seq : Nat} {p : PendingEnvelope T} (hp : s.pending seq = some p)
    (hattempt : p.envelope.metadata.attempt < opts.retry.maxAttempts) (now : Nat) :
    ∃ s' es e, processCommand (U := U) opts now s
        (.ackTimeout seq p.envelope.metadata.attempt none) = .ok (s', es) ∧
      outbounds es = [e] ∧ e.metadata.seq = seq ∧ e.message = p.envelope.message := by
  have hsound := hs seq p hp
  have hseq : seq ≠ 0 := hsound.number ▸ hsound.valid.seq
  have hzero := hsound.valid.attempt
  show ∃ s' es e, processAckTimeoutCommand opts now s seq p.envelope.metadata.attempt none =
    .ok (s', es) ∧ _
  unfold processAckTimeoutCommand
  simp only [hseq, hzero, if_false, hp, ne_eq, not_true_eq_false]
  cases hreported : p.timeoutReportedAttempt with
  | some a =>
    -- Reported before: without an observed time nothing waits.
    obtain rfl := hsound.current a hreported
    obtain ⟨e, he, _, _, hnumber, hmessage, _⟩ := emitRetryOutbound_eq (U := U) now hs hp hattempt
    refine ⟨s.setPending seq (some ⟨e, none, none⟩), [.outbound e], e, ?_, rfl, hnumber, hmessage⟩
    have hwaits : p.waits none = false := by
      unfold PendingEnvelope.waits
      split <;> simp_all
    simpa [hwaits] using he
  | none =>
    have hshould : opts.retry.shouldRetry p.envelope.metadata.attempt = true :=
      decide_eq_true hattempt
    simp only [reduceCtorEq, if_false, hshould, Bool.true_eq_false]
    generalize (opts.retry.nextDelayMs (saturatingAdd u32Max
      p.envelope.metadata.attempt 1)).getD 0
      = delayMs
    have hdue : (p.report p.envelope.metadata.attempt delayMs none).retryDueAtMs = none := by
      simp [PendingEnvelope.report, hsound.due hreported]
    have hreportedSound : (p.report p.envelope.metadata.attempt delayMs none).Sound opts seq := by
      refine ⟨hsound.number, hsound.valid, hsound.session, ?_, ?_, ?_⟩
      · exact fun a ha => Option.some.inj ha ▸ hattempt
      · exact fun a ha => (Option.some.inj ha).symm
      · exact fun _ => hdue
    obtain ⟨e, he, _, _, hnumber, hmessage, _⟩ :=
      emitRetryOutbound_eq (U := U) now
        (hs.setPending seq _ fun _ h => Option.some.inj h ▸ hreportedSound)
        (BridgeState.setPending_self s seq _) hattempt
    rw [BridgeState.setPending_setPending] at he
    refine ⟨s.setPending seq (some ⟨e, none, none⟩),
      [.timeout seq p.envelope.metadata.attempt, .retry seq
      (saturatingAdd u32Max p.envelope.metadata.attempt 1) delayMs (timeoutError opts seq),
      .outbound e], e, ?_, rfl, hnumber, hmessage⟩
    have hsent : emitRetryOutbound (U := U) opts now
        (s.setPending seq (some (p.report p.envelope.metadata.attempt delayMs none)))
        p.envelope = .ok (s.setPending seq (some ⟨e, none, none⟩), [.outbound e]) := he
    rw [hdue, if_neg (by simp), hsent]
    rfl

namespace Session

variable {P : Setup} {c c' : Session T U} {a : Action T U}
  {ok : Session T U → Action T U → Prop}

/-- What happened to a number the left endpoint has used. -/
def Kept (c : Session T U) (e : WireBridgeEnvelope T) : Prop :=
  e.metadata.seq ≤ c.right.state.cursor ∨
    c.left.state.pending e.metadata.seq ≠ none ∨
    e.envelopeType.isReceipt = true ∨
    (∃ e' ∈ outbounds c.left.events, e'.envelopeType = .close ∧ e.metadata.seq < e'.metadata.seq) ∨
    (∃ ev ∈ c.left.events, ev.answers e.metadata.seq = true) ∨
    ∃ ev ∈ c.left.events, ev.exhausts e.metadata.seq = true

/-- Every number is with the receiver, pending or let go. -/
def Held (c : Session T U) : Prop :=
  ∀ e ∈ outbounds c.left.events, c.Kept e

/-- What is kept stays kept when the left endpoint moves on, as long as a slot
    that it empties is accounted for. -/
theorem Kept.left {e : WireBridgeEnvelope T} {s' : BridgeState T}
    {es : List (WireBridgeEvent T U)} (h : c.Kept e)
    (hlost : ∀ p, c.left.state.pending e.metadata.seq = some p →
      s'.pending e.metadata.seq = none →
      (∃ e' ∈ outbounds es, e'.envelopeType = .close ∧ e.metadata.seq < e'.metadata.seq) ∨
        (∃ ev ∈ es, ev.answers e.metadata.seq = true) ∨
        ∃ ev ∈ es, ev.exhausts e.metadata.seq = true) :
    Kept { c with left := ⟨s', c.left.events ++ es⟩ } e := by
  unfold Kept at h ⊢
  simp only [outbounds_append, List.mem_append]
  rcases h with h | h | h | ⟨f, hf, hclose⟩ | ⟨ev, hev, hanswers⟩ | ⟨ev, hev, hexhausts⟩
  · exact Or.inl h
  · obtain ⟨p, hp⟩ := Option.ne_none_iff_exists'.mp h
    by_cases hnone : s'.pending e.metadata.seq = none
    · rcases hlost p hp hnone with ⟨f, hf, hclose⟩ | ⟨ev, hev, hanswers⟩ | ⟨ev, hev, hexhausts⟩
      · exact Or.inr (Or.inr (Or.inr (Or.inl ⟨f, Or.inr hf, hclose⟩)))
      · exact Or.inr (Or.inr (Or.inr (Or.inr (Or.inl ⟨ev, Or.inr hev, hanswers⟩))))
      · exact Or.inr (Or.inr (Or.inr (Or.inr (Or.inr ⟨ev, Or.inr hev, hexhausts⟩))))
    · exact Or.inr (Or.inl hnone)
  · exact Or.inr (Or.inr (Or.inl h))
  · exact Or.inr (Or.inr (Or.inr (Or.inl ⟨f, Or.inl hf, hclose⟩)))
  · exact Or.inr (Or.inr (Or.inr (Or.inr (Or.inl ⟨ev, Or.inl hev, hanswers⟩))))
  · exact Or.inr (Or.inr (Or.inr (Or.inr (Or.inr ⟨ev, Or.inl hev, hexhausts⟩))))

theorem Kept.right {e : WireBridgeEnvelope T} {x : Endpoint U T} (h : c.Kept e)
    (hcursor : c.right.state.cursor ≤ x.state.cursor) : Kept { c with right := x } e := by
  rcases h with h | h
  · exact Or.inl (Nat.le_trans h hcursor)
  · exact Or.inr h

theorem held_step (hflow : Flow P c) (hacted : Acted P c a c') (h : Held c) : Held c' := by
  have hcursor := (cursor_step hacted).2
  cases hacted with
  | commandLeft hdone =>
    intro e he
    simp only [outbounds_append, List.mem_append] at he
    cases hdone.step with
    | silent sent nextSeq kept lost =>
      simp only [sent, List.not_mem_nil, or_false] at he
      exact (h e he).left fun p hp hnone => Or.inr (Or.inr (lost _ p hp hnone))
    | fresh f sent nextSeq valid session seq stamp kept tracked lost =>
      simp only [sent, List.mem_singleton] at he
      rcases he with he | rfl
      · have hlt := hflow.numbered e he
        refine (h e he).left fun p hp hnone => Or.inl ⟨f, by simp [sent], lost _ p hp hnone, ?_⟩
        omega
      · -- The new number is pending unless it is a receipt.
        by_cases hreceipt : e.envelopeType.isReceipt = true
        · exact Or.inr (Or.inr (Or.inl hreceipt))
        · refine Or.inr (Or.inl ?_)
          rw [seq]
          exact tracked (by simpa using hreceipt)
    | retry seq p f asked pending sent nextSeq valid session number message stamp after =>
      simp only [sent, List.mem_singleton] at he
      rcases he with he | rfl
      · refine (h e he).left fun q hq hnone => ?_
        rw [after] at hnone
        exact absurd (BridgeState.setPending_lost hq hnone).2 (by simp)
      · refine Or.inr (Or.inl ?_)
        rw [number, after, BridgeState.setPending_self]
        simp
  | commandRight hdone => exact fun e he => (h e he).right hcursor
  | deliverLeft hmem hsent hdone =>
    intro e he
    simp only [outbounds_append, hsent, List.append_nil] at he
    refine (h e he).left fun p hp hnone => ?_
    cases hdone with
    | refused same _ _ =>
      rw [same, hp] at hnone
      exact absurd hnone (by simp)
    | accepted _ _ _ _ _ _ _ lost _ => exact Or.inr (Or.inl (lost _ p hp hnone))
  | deliverRight hmem hsent hdone => exact fun e he => (h e he).right hcursor

/-- In every reachable session a number the left endpoint has emitted and not
    reported as exhausted is with the receiver or still pending, and then a
    timeout sends its message again while attempts are left, unless it was a
    receipt, a later `Close` was emitted, or the peer answered for it. -/
theorem no_hole_unless_released {P : Setup} {c : Session T U}
    (h : Reachable P (fun _ _ => True) c) :
    ∀ e ∈ outbounds c.left.events,
      (∀ ev ∈ c.left.events, ev.exhausts e.metadata.seq = false) →
      e.metadata.seq ≤ c.right.state.cursor ∨
      (∃ p, c.left.state.pending e.metadata.seq = some p ∧ p.envelope.message = e.message ∧
        (p.envelope.metadata.attempt < P.leftRetry.maxAttempts → ∀ now, ∃ s' es f,
          processCommand (U := U) P.leftOpts now c.left.state
            (.ackTimeout e.metadata.seq p.envelope.metadata.attempt none) = .ok (s', es) ∧
          outbounds es = [f] ∧ f.metadata.seq = e.metadata.seq ∧ f.message = e.message)) ∨
      e.envelopeType.isReceipt = true ∨
      (∃ e' ∈ outbounds c.left.events,
        e'.envelopeType = .close ∧ e.metadata.seq < e'.metadata.seq) ∨
      ∃ ev ∈ c.left.events, ev.answers e.metadata.seq = true := by
  intro e he hexhausted
  have hflow := h.flow
  have hkeep : ∀ (x : Session T U) a y, x.Sound P → True → Acted P x a y →
      (Flow P x ∧ Held x) → Flow P y ∧ Held y :=
    fun _ _ _ hs _ hacted hinv => ⟨flow_step hs hacted hinv.1, held_step hinv.1 hacted hinv.2⟩
  have hinit : Held (initial T U) := by simp [Held, initial, Endpoint.initial, outbounds]
  obtain ⟨hsound, -, hheld⟩ := h.invariant ⟨initial_flow P, hinit⟩ hkeep
  rcases hheld e he with hcursor | hpending | hrest
  · exact Or.inl hcursor
  · obtain ⟨p, hp⟩ := Option.ne_none_iff_exists'.mp hpending
    have hmessage : p.envelope.message = e.message :=
      hflow.message _ (hflow.pending _ p hp) e he (hsound.left _ p hp).number
    refine Or.inr (Or.inl ⟨p, hp, hmessage, fun hattempt now => ?_⟩)
    obtain ⟨s', es, f, hcommand, hsent, hseq, hsame⟩ :=
      BridgeState.retransmits_of_pending (U := U) hsound.left hp hattempt now
    exact ⟨s', es, f, hcommand, hsent, hseq, hsame.trans hmessage⟩
  · rcases hrest with hreceipt | hclose | hanswered | ⟨ev, hev, hexhausts⟩
    · exact Or.inr (Or.inr (Or.inl hreceipt))
    · exact Or.inr (Or.inr (Or.inr (Or.inl hclose)))
    · exact Or.inr (Or.inr (Or.inr (Or.inr hanswered)))
    · exact absurd hexhausts (by simp [hexhausted ev hev])

/-- The right endpoint sends, the left one acknowledges, and the
    acknowledgement is lost. -/
def lostReceipt : List (Action Nat Nat) :=
  [.commandRight 5 (.send 7 none none), .deliverLeft 0, .commandLeft 6 (.ack 1 none none)]

theorem no_hole_unless_released_lostReceipt :
    ∃ c, runChecked pairSetup (fun _ _ => True) lostReceipt (initial Nat Nat) = some c ∧
      ∀ e ∈ outbounds c.left.events,
        (∀ ev ∈ c.left.events, ev.exhausts e.metadata.seq = false) →
        e.metadata.seq ≤ c.right.state.cursor ∨
        (∃ p, c.left.state.pending e.metadata.seq = some p ∧ p.envelope.message = e.message) ∨
        e.envelopeType.isReceipt = true ∨
        (∃ e' ∈ outbounds c.left.events,
          e'.envelopeType = .close ∧ e.metadata.seq < e'.metadata.seq) ∨
        ∃ ev ∈ c.left.events, ev.answers e.metadata.seq = true := by
  have hsome : (runChecked pairSetup (fun _ _ => True) lostReceipt (initial Nat Nat)).isSome
    = true := by
    decide +kernel
  obtain ⟨c, hrun⟩ := Option.isSome_iff_exists.mp hsome
  refine ⟨c, hrun, fun e he hexhausted => ?_⟩
  rcases no_hole_unless_released (Reachable.of_runChecked hrun) e he
    hexhausted with hcursor | ⟨p, hp, hmessage, _⟩ | hrest
  · exact Or.inl hcursor
  · exact Or.inr (Or.inl ⟨p, hp, hmessage⟩)
  · exact Or.inr (Or.inr hrest)

/-- A number the sender has used, with the receiver or in the pending map, or
    given up in an event: the statement that fails. -/
theorem receipt_leaves_hole :
    ¬ ∀ (P : Setup) (c : Session Nat Nat), Reachable P (fun _ _ => True) c →
      ∀ e ∈ outbounds c.left.events,
        (∀ ev ∈ c.left.events, ev.exhausts e.metadata.seq = false) →
        e.metadata.seq ≤ c.right.state.cursor ∨ c.left.state.pending e.metadata.seq ≠ none := by
  intro hclaim
  have hrun : (runChecked pairSetup (fun _ _ => True) lostReceipt (initial Nat Nat)).map (fun c =>
      ((outbounds c.left.events).map (·.metadata.seq), c.right.state.cursor,
        (c.left.state.pending 1).isSome, c.left.events.any (WireBridgeEvent.exhausts 1))) =
      some ([1], 0, false, false) := by
    decide +kernel
  obtain ⟨c, hc, heq⟩ := Option.map_eq_some_iff.mp hrun
  simp only [Prod.mk.injEq] at heq
  obtain ⟨hsent, hcursor, hpending, hexhausted⟩ := heq
  obtain ⟨e, he, hseq⟩ := List.mem_map.mp (hsent ▸ List.mem_singleton_self 1)
  rcases hclaim pairSetup c (Reachable.of_runChecked hc) e he
    (by rw [hseq]; simpa using hexhausted) with h | h
  · omega
  · rw [hseq] at h
    exact h (by simpa using hpending)

end Session

end GraphRefly.Bridge
