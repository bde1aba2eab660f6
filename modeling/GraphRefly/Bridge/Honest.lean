import GraphRefly.Bridge.Delivery

/-!
# Complaints About An Honest Peer

Every envelope carries the sender's cursor as it was when that attempt was
built, and the receiver refuses the next envelope in sequence when its cursor
is below that of the one before. A first attempt is built in the order of the
numbers, so first attempts never go back. A retry puts a fresh cursor on an old
number: when the sender has accepted something in between, the retried envelope
carries a larger cursor than a later one that is still on its way, and the
receiver reports that later one as invalid.

The steps that lead there are named by `InOrder`: an endpoint sends a number
again that its peer has not accepted, although the number after it has gone out
with a smaller cursor than the retry will carry. Runs without such a step never
produce a complaint.

## Main definitions

* `Session.InOrder`: The actions that keep the cursors in the order of the numbers.
* `Session.Stamps`: The cursors on the envelopes of one direction are in order.

## Theorems

* `Session.stamps_step`: Every action that is in order keeps them in order.
* `Session.honest_peer_accepted`: Runs in order never complain about the peer.
* `Session.retry_regresses_cursor`: Other runs can.
-/

namespace GraphRefly.Bridge

namespace Session

variable {T U : Type} {P : Setup} {c c' : Session T U} {a : Action T U}

/-- A retry of a number the right endpoint has not accepted leaves no smaller
    cursor on the number after it. -/
def RetryInOrder (P : Setup) (c : Session T U) (seq attempt : Nat) (observedAtMs : Option Nat) :
    Prop :=
  c.left.state.retransmits P.leftOpts seq attempt observedAtMs = true →
    c.right.state.cursor < seq →
    ∀ e ∈ outbounds c.left.events, e.metadata.seq = seq + 1 →
      c.left.state.cursor ≤ e.metadata.cursor

/-- The actions that keep the cursors in the order of the numbers: all but
    some retries. -/
def InOrder (P : Setup) (c : Session T U) : Action T U → Prop
  | .commandLeft _ (.ackTimeout seq attempt observedAtMs) =>
    RetryInOrder P c seq attempt observedAtMs
  | .commandRight _ (.ackTimeout seq attempt observedAtMs) =>
    RetryInOrder P.swap c.swap seq attempt observedAtMs
  | _ => True

theorem InOrder.swap (h : InOrder P c a) : InOrder P.swap c.swap a.swap := by
  cases a with
  | commandLeft now cmd =>
    cases cmd <;> first | exact trivial | exact h
  | commandRight now cmd =>
    cases cmd <;> first | exact trivial | exact h
  | deliverLeft index => exact trivial
  | deliverRight index => exact trivial

/-- The cursors on the envelopes from left to right are in the order of the
    numbers, as far as the receiver has not accepted them. -/
structure Stamps (c : Session T U) : Prop where
  below : ∀ e ∈ outbounds c.left.events, e.metadata.cursor ≤ c.left.state.cursor
  ordered : ∀ e ∈ outbounds c.left.events, ∀ e' ∈ outbounds c.left.events,
    c.right.state.cursor < e.metadata.seq → e'.metadata.seq = e.metadata.seq + 1 →
      e.metadata.cursor ≤ e'.metadata.cursor
  remoteBelow : c.right.state.remoteCursor ≤ c.left.state.cursor
  /-- The number the receiver waits for carries no smaller cursor than the last
      one it accepted. -/
  next : ∀ e ∈ outbounds c.left.events, e.metadata.seq = c.right.state.cursor + 1 →
    c.right.state.remoteCursor ≤ e.metadata.cursor

theorem initial_stamps : Stamps (initial T U) where
  below := by simp [initial, Endpoint.initial, outbounds]
  ordered := by simp [initial, Endpoint.initial, outbounds]
  remoteBelow := Nat.le_refl 0
  next := by simp [initial, Endpoint.initial, outbounds]

theorem Stamps.emit {e : WireBridgeEnvelope T} {s' : BridgeState T}
    {es : List (WireBridgeEvent T U)} (h : Stamps c) (hsent : outbounds es = [e])
    (hcursor : s'.cursor = c.left.state.cursor) (hstamp : e.metadata.cursor = c.left.state.cursor)
    (hlater : c.right.state.cursor < e.metadata.seq → ∀ f ∈ outbounds c.left.events,
      f.metadata.seq = e.metadata.seq + 1 → c.left.state.cursor ≤ f.metadata.cursor) :
    Stamps { c with left := ⟨s', c.left.events ++ es⟩ } := by
  refine ⟨?_, ?_, ?_, ?_⟩ <;>
    simp only [outbounds_append, hsent, List.mem_append, List.mem_singleton, hcursor]
  · rintro f (hf | rfl)
    · exact h.below f hf
    · exact Nat.le_of_eq hstamp
  · rintro f (hf | rfl) g (hg | rfl) hpast hseq
    · exact h.ordered f hf g hg hpast hseq
    · rw [hstamp]
      exact h.below f hf
    · rw [hstamp]
      exact hlater hpast g hg hseq
    · exact Nat.le_refl _
  · exact h.remoteBelow
  · rintro f (hf | rfl) hseq
    · exact h.next f hf hseq
    · rw [hstamp]
      exact h.remoteBelow

theorem stamps_step (hflow : Flow P c) (hin : InOrder P c a) (hacted : Acted P c a c')
    (h : Stamps c) : Stamps c' := by
  cases hacted with
  | commandLeft hdone =>
    cases hdone.step with
    | silent sent nextSeq kept lost =>
      refine ⟨?_, ?_, ?_, ?_⟩ <;>
        simp only [outbounds_append, sent, List.append_nil, hdone.cursor]
      · exact h.below
      · exact h.ordered
      · exact h.remoteBelow
      · exact h.next
    | fresh e sent nextSeq valid session seq stamp kept tracked lost =>
      refine h.emit sent hdone.cursor stamp fun _ f hf hseq => ?_
      have := hflow.numbered f hf
      omega
    | retry seq p e asked pending sent nextSeq valid session number message stamp after =>
      obtain ⟨attempt, observedAtMs, rfl, hasked⟩ := asked
      refine h.emit sent hdone.cursor stamp fun hpast f hf hseq => ?_
      rw [number] at hpast hseq
      exact hin hasked hpast f hf hseq
  | commandRight hdone =>
    refine ⟨h.below, ?_, ?_, ?_⟩ <;> simp only [hdone.cursor, hdone.remoteCursor]
    · exact h.ordered
    · exact h.remoteBelow
    · exact h.next
  | deliverLeft hmem hsent hdone =>
    cases hdone with
    | refused same _ _ =>
      refine ⟨?_, ?_, ?_, ?_⟩ <;> simp only [outbounds_append, hsent, List.append_nil, same]
      · exact h.below
      · exact h.ordered
      · exact h.remoteBelow
      · exact h.next
    | accepted _ _ cursor _ _ _ _ _ _ =>
      refine ⟨?_, ?_, ?_, ?_⟩ <;> simp only [outbounds_append, hsent, List.append_nil, cursor]
      · exact fun e he => Nat.le_succ_of_le (h.below e he)
      · exact h.ordered
      · exact Nat.le_succ_of_le h.remoteBelow
      · exact h.next
  | deliverRight hmem hsent hdone =>
    cases hdone with
    | refused same _ _ =>
      refine ⟨h.below, ?_, ?_, ?_⟩ <;> simp only [same]
      · exact h.ordered
      · exact h.remoteBelow
      · exact h.next
    | accepted next _ cursor remoteCursor _ _ _ _ _ =>
      refine ⟨h.below, ?_, ?_, ?_⟩ <;> simp only [cursor, remoteCursor]
      · intro e he e' he' hpast hseq
        exact h.ordered e he e' he' (by omega) hseq
      · exact h.below _ hmem
      · -- The envelope just accepted and the one after it are in order.
        intro e he hseq
        exact h.ordered _ hmem e he (by omega) (by omega)

theorem Reachable.stamps (h : Reachable P (InOrder P) c) : Stamps c := by
  have hkeep : ∀ (x : Session T U) a y, x.Sound P → InOrder P x a → Acted P x a y →
      (Flow P x ∧ Stamps x) → Flow P y ∧ Stamps y :=
    fun _ _ _ hs hin hacted hinv =>
      ⟨flow_step hs hacted hinv.1, stamps_step hinv.1 hin hacted hinv.2⟩
  exact (h.invariant ⟨initial_flow P, initial_stamps⟩ hkeep).2.2

theorem Stamps.calm (hflow : Flow P c) (h : Stamps c) :
    ∀ e ∈ outbounds c.left.events, ∃ s' es,
      processInbound P.sessionId c.right.state (.envelope e) = .ok (s', es) ∧
        ∀ ev ∈ es, ev.complains = false := by
  intro e he
  obtain ⟨s', es, heq, _, hstep⟩ := inbound_cases P.sessionId c.right.state e
  refine ⟨s', es, heq, fun ev hev => ?_⟩
  cases hstep with
  | refused same _ complaint =>
    by_contra hcomplains
    obtain ⟨hvalid, hsession⟩ := hflow.valid e he
    rcases complaint ⟨ev, hev, by simpa using hcomplains⟩ with h₁ | h₁ | ⟨hseq, hback⟩
    · exact h₁ hvalid
    · exact h₁ hsession
    · have := h.next e he hseq
      omega
  | accepted _ _ _ _ _ _ _ _ calm => exact calm ev hev

/-- In a run whose retries are in order, neither endpoint ever reports an
    envelope its peer has emitted as invalid or as foreign. -/
theorem honest_peer_accepted {P : Setup} {c : Session T U} (h : Reachable P (InOrder P) c) :
    (∀ e ∈ outbounds c.left.events, ∃ s' es,
      processInbound P.sessionId c.right.state (.envelope e) = .ok (s', es) ∧
        ∀ ev ∈ es, ev.complains = false) ∧
    ∀ e ∈ outbounds c.right.events, ∃ s' es,
      processInbound P.sessionId c.left.state (.envelope e) = .ok (s', es) ∧
        ∀ ev ∈ es, ev.complains = false := by
  have hswap : Reachable P.swap (InOrder P.swap) c.swap := h.swap fun _ _ hin => hin.swap
  exact ⟨h.stamps.calm h.flow, hswap.stamps.calm hswap.flow⟩

instance (P : Setup) (c : Session T U) (seq attempt : Nat) (observedAtMs : Option Nat) :
    Decidable (RetryInOrder P c seq attempt observedAtMs) :=
  inferInstanceAs (Decidable (_ → _ → ∀ e ∈ outbounds c.left.events, _ → _))

instance (P : Setup) (c : Session T U) (a : Action T U) : Decidable (InOrder P c a) :=
  match a with
  | .commandLeft _ (.ackTimeout seq attempt observedAtMs) =>
    inferInstanceAs (Decidable (RetryInOrder P c seq attempt observedAtMs))
  | .commandRight _ (.ackTimeout seq attempt observedAtMs) =>
    inferInstanceAs (Decidable (RetryInOrder P.swap c.swap seq attempt observedAtMs))
  | .commandLeft _ (.start _ _) | .commandLeft _ (.send _ _ _) | .commandLeft _ (.ack _ _ _)
  | .commandLeft _ (.nack _ _ _ _) | .commandLeft _ (.close _ _) => inferInstanceAs (Decidable True)
  | .commandRight _ (.start _ _) | .commandRight _ (.send _ _ _) | .commandRight _ (.ack _ _ _)
  | .commandRight _ (.nack _ _ _ _) | .commandRight _ (.close _ _) =>
    inferInstanceAs (Decidable True)
  | .deliverLeft _ | .deliverRight _ => inferInstanceAs (Decidable True)

/-- Two envelopes are sent, the second is sent again after a timeout, and the
    right endpoint's own envelope is accepted. -/
def retriedSecond : List (Action Nat Nat) :=
  [.commandLeft 1 (.send 7 none none), .commandRight 2 (.send 9 none none),
    .commandLeft 3 (.send 8 none none), .deliverLeft 0,
    .commandLeft 4 (.ackTimeout 2 1 none), .deliverRight 0]

theorem honest_peer_accepted_retriedSecond :
    ∃ c, runChecked pairSetup (InOrder pairSetup) retriedSecond (initial Nat Nat) = some c ∧
      (outbounds c.left.events).map (·.metadata.cursor) = [0, 0, 1] ∧
      ∀ e ∈ outbounds c.left.events, ∃ s' es,
        processInbound pairSetup.sessionId c.right.state (.envelope e) = .ok (s', es) ∧
          ∀ ev ∈ es, ev.complains = false := by
  have hrun : (runChecked pairSetup (InOrder pairSetup) retriedSecond (initial Nat Nat)).map
      (fun c => (outbounds c.left.events).map (·.metadata.cursor)) = some [0, 0, 1] := by
    decide +kernel
  obtain ⟨c, hc, hcursors⟩ := Option.map_eq_some_iff.mp hrun
  exact ⟨c, hc, hcursors, (honest_peer_accepted (Reachable.of_runChecked hc)).1⟩

/-- A command whose key, if it names one, is not empty, and whose receipt, if
    it is one, is for a positive number. -/
def wellFormed : WireBridgeCommand T → Bool
  | .start key _ | .send _ key _ | .close _ key => decide (key ≠ some "")
  | .ack ackForSeq key _ | .nack ackForSeq _ key _ => decide (ackForSeq ≠ 0 ∧ key ≠ some "")
  | .ackTimeout seq attempt _ => decide (seq ≠ 0 ∧ attempt ≠ 0)

/-- Deliveries, and well-formed commands while numbers are left. -/
def WellFormed (c : Session T U) : Action T U → Prop
  | .commandLeft _ cmd => wellFormed cmd = true ∧ c.left.state.nextSeq < u64Max
  | .commandRight _ cmd => wellFormed cmd = true ∧ c.right.state.nextSeq < u64Max
  | _ => True

instance (c : Session T U) (a : Action T U) : Decidable (WellFormed c a) :=
  match a with
  | .commandLeft _ _ => inferInstanceAs (Decidable (_ ∧ _))
  | .commandRight _ _ => inferInstanceAs (Decidable (_ ∧ _))
  | .deliverLeft _ => inferInstanceAs (Decidable True)
  | .deliverRight _ => inferInstanceAs (Decidable True)

/-- The left endpoint sends twice and accepts one envelope before its first
    timeout. The retry of the first number then overtakes the second number. -/
def overtakenSecond : List (Action Nat Nat) :=
  [.commandLeft 1 (.send 7 none none), .commandLeft 2 (.send 8 none none),
    .commandRight 3 (.send 9 none none), .deliverLeft 0,
    .commandLeft 4 (.ackTimeout 1 1 none), .deliverRight 2]

/-- An endpoint reports an envelope of its honest peer as invalid: the second
    number, when the retry of the first has arrived. -/
theorem retry_regresses_cursor :
    ¬ ∀ (P : Setup) (c : Session Nat Nat), Reachable P WellFormed c →
      ∀ e ∈ outbounds c.left.events, ∀ s' es,
        processInbound P.sessionId c.right.state (.envelope e) = .ok (s', es) →
          ∀ ev ∈ es, ev.complains = false := by
  intro hclaim
  have hrun : (runChecked pairSetup WellFormed overtakenSecond (initial Nat Nat)).map
      (fun c => (outbounds c.left.events).any fun e =>
        match processInbound pairSetup.sessionId c.right.state (.envelope e) with
        | .ok (_, es) => es.any WireBridgeEvent.complains
        | .error _ => false) = some true := by
    decide +kernel
  obtain ⟨c, hc, hany⟩ := Option.map_eq_some_iff.mp hrun
  obtain ⟨e, he, hcomplaint⟩ := List.any_eq_true.mp hany
  have hreach : Reachable pairSetup WellFormed c := Reachable.of_runChecked hc
  cases hin : processInbound pairSetup.sessionId c.right.state (.envelope e) with
  | error panic => simp [hin] at hcomplaint
  | ok result =>
    obtain ⟨s', es⟩ := result
    simp only [hin] at hcomplaint
    obtain ⟨ev, hev, hcomplains⟩ := List.any_eq_true.mp hcomplaint
    have hcalm := hclaim pairSetup c hreach e he s' es hin ev hev
    rw [hcomplains] at hcalm
    exact absurd hcalm (by simp)

end Session

end GraphRefly.Bridge
