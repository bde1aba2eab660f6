import GraphRefly.Bridge.Moves
import Mathlib.Data.List.Range

/-!
# The Life of a Sequence Number

What a bridge says about one of its envelopes, from its first attempt to its
end. `SeqStep` is the life of a number as an automaton over the events: it is
unsent, then it waits for its receipt, its timeout is announced, it is sent
again, and at last it is settled. A close forgets what is pending, and then the
number stays where it is.

Whatever comes to the bridge, the events of every number are a word of this
automaton (`Moves.seqRun`), because the automaton and the pending map stay in
step. The statements about attempts, receipts and exhaustion are read off its
words. What they do not say is how long a retry waits: `HoldsBack` follows one
announced retry until it is sent.

## Main definitions

* `SeqPhase`, `SeqStep`: The life of a sequence number.
* `Agrees`: The phase of a number is that of its pending envelope.
* `HoldsBack`: An announced attempt is not sent before its due time.

## Theorems

* `Move.seqRun`: Every item moves every number through its life.
* `Move.holdsBack`: A retry that is known to be due later is not sent by it.
* `bridge_retry_lifecycle`: Attempts, delays, exhaustion and settlement.
-/

namespace GraphRefly.Bridge

open List

variable {T U : Type}

/-- Whether an event is about the fate of a sequence number. -/
def WireBridgeEvent.concerns (k : Nat) : WireBridgeEvent T U → Bool
  | .outbound envelope => decide (envelope.metadata.seq = k)
  | .timeout seq _ => decide (seq = k)
  | .retry seq _ _ _ => decide (seq = k)
  | .exhausted seq _ _ => decide (seq = k)
  | .ack ackForSeq _ _ => decide (ackForSeq = k)
  | .nack ackForSeq _ _ _ => decide (ackForSeq = k)
  | _ => false

/-- Whether an event settles a sequence number: a receipt, or giving up. -/
def WireBridgeEvent.settles (k : Nat) (ev : WireBridgeEvent T U) : Bool :=
  ev.answers k || ev.exhausts k

/-- The attempts of a sequence number, in order. -/
def outboundsOf (k : Nat) (es : List (WireBridgeEvent T U)) : List (WireBridgeEnvelope T) :=
  (outbounds es).filter fun e => decide (e.metadata.seq = k)

/-! ### The automaton -/

/-- Where a sequence number is in its life. -/
inductive SeqPhase (T : Type)
  | unsent
  | waiting (e : WireBridgeEnvelope T)
  | timedOut (e : WireBridgeEnvelope T)
  | settled

/-- What an event does to a sequence number. -/
inductive SeqStep (max k : Nat) : SeqPhase T → WireBridgeEvent T U → SeqPhase T → Prop
  | other {phase ev} (h : ev.concerns k = false) : SeqStep max k phase ev phase
  | sent {e} (hseq : e.metadata.seq = k) (hattempt : e.metadata.attempt = 1) (hlimit : 1 ≤ max) :
      SeqStep max k .unsent (.outbound e) (.waiting e)
  | resent {e₀ e} (hseq : e.metadata.seq = k)
      (hattempt : e.metadata.attempt = e₀.metadata.attempt + 1)
      (hlimit : e.metadata.attempt ≤ max) (hmessage : e.message = e₀.message) :
      SeqStep max k (.timedOut e₀) (.outbound e) (.waiting e)
  | timeout {e attempt} (h : e.metadata.attempt = attempt) :
      SeqStep max k (.waiting e) (.timeout k attempt) (.timedOut e)
  | retry {e attempt delayMs error} (h : attempt = e.metadata.attempt + 1) :
      SeqStep max k (.timedOut e) (.retry k attempt delayMs error) (.timedOut e)
  | exhausted {e attempt error} (h : e.metadata.attempt = attempt) (hlast : attempt = max) :
      SeqStep max k (.timedOut e) (.exhausted k attempt error) .settled
  | receipt {phase e ev} (hphase : phase = .waiting e ∨ phase = .timedOut e)
      (hev : ev.answers k = true) : SeqStep max k phase ev .settled

/-- What some events do to a sequence number. -/
def SeqRun (max k : Nat) : List (WireBridgeEvent T U) → SeqPhase T → SeqPhase T → Prop
  | [], a, b => a = b
  | ev :: es, a, b => ∃ c, SeqStep max k a ev c ∧ SeqRun max k es c b

variable {max k : Nat} {es fs : List (WireBridgeEvent T U)} {a b c : SeqPhase T}

theorem seqRun_append : SeqRun max k (es ++ fs) a c ↔ ∃ b, SeqRun max k es a b ∧
    SeqRun max k fs b c := by
  induction es generalizing a with
  | nil => exact ⟨fun h => ⟨a, rfl, h⟩, fun ⟨b, hab, h⟩ => hab ▸ h⟩
  | cons ev es ih =>
    constructor
    · rintro ⟨d, hd, h⟩
      obtain ⟨b, hb, h⟩ := ih.mp h
      exact ⟨b, ⟨d, hd, hb⟩, h⟩
    · rintro ⟨b, ⟨d, hd, hb⟩, h⟩
      exact ⟨d, hd, ih.mpr ⟨b, hb, h⟩⟩

theorem seqRun_other (h : ∀ ev ∈ es, ev.concerns k = false) : SeqRun max k es a a := by
  induction es with
  | nil => rfl
  | cons ev es ih =>
    exact ⟨a, .other (h ev mem_cons_self), ih fun e he => h e (mem_cons_of_mem _ he)⟩

theorem seqRun_singleton {ev : WireBridgeEvent T U} (h : SeqStep max k a ev b) :
    SeqRun max k [ev] a b := ⟨b, h, rfl⟩

-- The words of the automaton from here on: each lemma is an induction on the events,
-- with one case for every step of the automaton.
theorem SeqRun.settled (h : SeqRun max k es .settled b) : ∀ ev ∈ es, ev.concerns k = false := by
  induction es with
  | nil => exact fun ev hev => absurd hev not_mem_nil
  | cons ev es ih =>
    obtain ⟨c, hstep, h⟩ := h
    cases hstep with
    | other hev =>
      intro e he
      rcases mem_cons.mp he with rfl | he
      · exact hev
      · exact ih h e he
    | receipt hphase => rcases hphase with hphase | hphase <;> cases hphase

theorem outboundsOf_cons (ev : WireBridgeEvent T U) (h : ev.concerns k = false) :
    outboundsOf k (ev :: es) = outboundsOf k es := by
  unfold outboundsOf outbounds
  cases ev with
  | outbound e =>
    have hne : ¬ e.metadata.seq = k := of_decide_eq_false h
    simp [WireBridgeEvent.outbound?, hne]
  | _ => rfl

variable {e : WireBridgeEnvelope T}

theorem outboundsOf_ne (h : e.metadata.seq ≠ k) :
    outboundsOf k (.outbound e :: es : List (WireBridgeEvent T U)) = outboundsOf k es :=
  outboundsOf_cons _ (decide_eq_false h)

theorem outboundsOf_outbound (h : e.metadata.seq = k) :
    outboundsOf k (.outbound e :: es : List (WireBridgeEvent T U)) = e :: outboundsOf k es := by
  simp [outboundsOf, outbounds, WireBridgeEvent.outbound?, h]

theorem outboundsOf_quiet (h : ∀ ev ∈ es, ev.concerns k = false) : outboundsOf k es = [] := by
  induction es with
  | nil => rfl
  | cons ev es ih =>
    rw [outboundsOf_cons ev (h ev mem_cons_self)]
    exact ih fun e he => h e (mem_cons_of_mem _ he)

/-- What follows an attempt: the next ones, of the same message and below the limit. -/
structure Continues (max : Nat) (e₀ : WireBridgeEnvelope T) (es : List (WireBridgeEnvelope T)) :
    Prop where
  attempts : ∃ n, es.map (·.metadata.attempt) = List.range' (e₀.metadata.attempt + 1) n
  limit : ∀ e ∈ es, e.metadata.attempt ≤ max
  message : ∀ e ∈ es, e.message = e₀.message

theorem continues_nil (e₀ : WireBridgeEnvelope T) : Continues max e₀ [] :=
  ⟨⟨0, rfl⟩, fun _ he => absurd he not_mem_nil, fun _ he => absurd he not_mem_nil⟩

variable {e₀ : WireBridgeEnvelope T}

theorem Continues.cons {es : List (WireBridgeEnvelope T)}
    (h : Continues max e es) (hattempt : e.metadata.attempt = e₀.metadata.attempt + 1)
    (hlimit : e.metadata.attempt ≤ max) (hmessage : e.message = e₀.message) :
    Continues max e₀ (e :: es) := by
  obtain ⟨n, hn⟩ := h.attempts
  refine ⟨⟨n + 1, ?_⟩, ?_, ?_⟩
  · rw [map_cons, hn, hattempt, List.range'_succ]
  · intro e' he'
    rcases mem_cons.mp he' with rfl | he'
    · exact hlimit
    · exact h.limit e' he'
  · intro e' he'
    rcases mem_cons.mp he' with rfl | he'
    · exact hmessage
    · rw [h.message e' he', hmessage]

theorem SeqRun.continues (h : SeqRun max k es a b)
    (ha : a = .waiting e₀ ∨ a = .timedOut e₀) : Continues max e₀ (outboundsOf k es) := by
  induction es generalizing a e₀ with
  | nil => exact continues_nil e₀
  | cons ev es ih =>
    obtain ⟨c, hstep, h⟩ := h
    cases hstep with
    | other hev =>
      rw [outboundsOf_cons ev hev]
      exact ih h ha
    | sent => rcases ha with ha | ha <;> cases ha
    | resent hseq hattempt hlimit hmessage =>
      rcases ha with ha | ha <;> cases ha
      rw [outboundsOf_outbound hseq]
      exact (ih h (.inl rfl)).cons hattempt hlimit hmessage
    | timeout hattempt =>
      rcases ha with ha | ha <;> cases ha
      exact ih h (.inr rfl)
    | retry => exact ih h ha
    | exhausted =>
      have hquiet := outboundsOf_quiet h.settled
      exact hquiet ▸ continues_nil e₀
    | receipt hphase hev =>
      have hquiet := outboundsOf_quiet h.settled
      cases ev <;> first | exact hquiet ▸ continues_nil e₀ | cases hev

/-- All attempts of a number: from the first, in order, of one message, below the limit. -/
theorem SeqRun.attempts (h : SeqRun max k es .unsent b) :
    (∃ n ≤ max, (outboundsOf k es).map (·.metadata.attempt) = List.range' 1 n) ∧
      ∀ e ∈ outboundsOf k es, ∀ e' ∈ outboundsOf k es, e.message = e'.message := by
  induction es with
  | nil => exact ⟨⟨0, Nat.zero_le _, rfl⟩, fun e he => absurd he not_mem_nil⟩
  | cons ev es ih =>
    obtain ⟨c, hstep, h⟩ := h
    cases hstep with
    | other hev =>
      rw [outboundsOf_cons ev hev]
      exact ih h
    | @sent e hseq hattempt hlimit =>
      have hrest := h.continues (.inl rfl)
      rw [outboundsOf_outbound hseq]
      obtain ⟨n, hn⟩ := hrest.attempts
      rw [hattempt] at hn
      have hall : ∀ e' ∈ e :: outboundsOf k es, e'.message = e.message := by
        intro e' he'
        rcases mem_cons.mp he' with rfl | he'
        · rfl
        · exact hrest.message e' he'
      refine ⟨⟨n + 1, ?_, ?_⟩, fun e₁ h₁ e₂ h₂ => (hall e₁ h₁).trans (hall e₂ h₂).symm⟩
      · -- The last attempt is below the limit.
        cases n with
        | zero => exact hlimit
        | succ n =>
          have hlast : n + 2 ∈ (outboundsOf k es).map (·.metadata.attempt) := by
            rw [hn, mem_range'_1]
            omega
          obtain ⟨e', he', hattempt'⟩ := mem_map.mp hlast
          have := hrest.limit e' he'
          omega
      · rw [map_cons, hattempt, hn, List.range'_succ]
    | receipt hphase => rcases hphase with hphase | hphase <;> cases hphase

theorem SeqRun.timeout_mem (h : SeqRun max k es a (.timedOut e)) :
    a = .timedOut e ∨ .timeout k e.metadata.attempt ∈ es := by
  induction es generalizing a with
  | nil => exact .inl h
  | cons ev es ih =>
    obtain ⟨c, hstep, h⟩ := h
    rcases ih h with rfl | hmem
    · cases hstep with
      | other => exact .inl rfl
      | timeout hattempt => exact .inr (hattempt ▸ mem_cons_self)
      | retry => exact .inl rfl
    · exact .inr (mem_cons_of_mem _ hmem)

theorem SeqRun.outbound_mem (h : SeqRun max k es a b) (hb : b = .waiting e ∨ b = .timedOut e) :
    (a = .waiting e ∨ a = .timedOut e) ∨ e ∈ outboundsOf k es := by
  induction es generalizing a with
  | nil => exact .inl (h ▸ hb)
  | cons ev es ih =>
    obtain ⟨c, hstep, h⟩ := h
    rcases ih h with hc | hmem
    · cases hstep with
      | other => exact .inl hc
      | sent hseq =>
        rcases hc with hc | hc <;> cases hc
        rw [outboundsOf_outbound hseq]
        exact .inr mem_cons_self
      | resent hseq =>
        rcases hc with hc | hc <;> cases hc
        rw [outboundsOf_outbound hseq]
        exact .inr mem_cons_self
      | timeout =>
        rcases hc with hc | hc <;> cases hc
        exact .inl (.inl rfl)
      | retry =>
        rcases hc with hc | hc <;> cases hc
        exact .inl (.inr rfl)
      | exhausted => rcases hc with hc | hc <;> cases hc
      | receipt => rcases hc with hc | hc <;> cases hc
    · refine .inr ?_
      by_cases hev : ev.concerns k = true
      · cases ev with
        | outbound e' =>
          rw [outboundsOf_outbound (of_decide_eq_true hev)]
          exact mem_cons_of_mem _ hmem
        | _ => exact hmem
      · rw [outboundsOf_cons ev (by simpa using hev)]
        exact hmem

/-! ### The bridge follows the automaton -/

/-- The phase of a number is that of its pending envelope, and a number that was
    not given out yet is unsent. -/
structure Agrees (s : BridgeState T) (k : Nat) (phase : SeqPhase T) : Prop where
  unsent : s.nextSeq ≤ k → phase = .unsent
  waiting : ∀ p, s.pending k = some p → p.timeoutReportedAttempt = none →
    phase = .waiting p.envelope
  timedOut : ∀ p a, s.pending k = some p → p.timeoutReportedAttempt = some a →
    phase = .timedOut p.envelope

variable {opts : WireBridgeOptions} {s s' : BridgeState T} {item : BridgeItem T U}

variable {phase : SeqPhase T}

/-- Nothing about a number happened, and its slot is as it was or empty. -/
theorem Agrees.other (h : Agrees s k phase) (hnext : s'.nextSeq ≤ k → s.nextSeq ≤ k)
    (hslot : s'.pending k = s.pending k ∨ s'.pending k = none) : Agrees s' k phase := by
  refine ⟨fun hk => h.unsent (hnext hk), ?_, ?_⟩
  · intro p hp
    rcases hslot with hslot | hslot
    · exact h.waiting p (hslot ▸ hp)
    · rw [hslot] at hp
      cases hp
  · intro p a hp
    rcases hslot with hslot | hslot
    · exact h.timedOut p a (hslot ▸ hp)
    · rw [hslot] at hp
      cases hp

variable {q : Option (PendingEnvelope T)}

theorem agrees_written (hk : k < s.nextSeq)
    (hwaiting : ∀ p, q = some p → p.timeoutReportedAttempt = none → phase = .waiting p.envelope)
    (htimedOut : ∀ p a, q = some p → p.timeoutReportedAttempt = some a →
      phase = .timedOut p.envelope) : Agrees (s.setPending k q) k phase := by
  have hslot := BridgeState.setPending_self s k q
  refine ⟨fun hle => absurd hk (Nat.not_lt.mpr hle), ?_, ?_⟩
  · exact fun p hp => hwaiting p (hslot.symm.trans hp)
  · exact fun p a hp => htimedOut p a (hslot.symm.trans hp)

variable {seq : Nat}

theorem Agrees.setPending_ne (h : Agrees s k phase)
    (hne : k ≠ seq) (q : Option (PendingEnvelope T)) : Agrees (s.setPending seq q) k phase :=
  h.other (fun hk => hk) (.inl (BridgeState.setPending_of_ne s q hne))

/-- Every item moves every number through its life. -/
theorem Move.seqRun (h : Move opts s item s' es) (hs : s.Booked opts) (ha : Agrees s k phase) :
    ∃ phase', SeqRun opts.retry.maxAttempts k es phase phase' ∧ Agrees s' k phase' := by
  cases h with
  | report _ hreport =>
    refine ⟨phase, seqRun_other fun ev hev => ?_, ha⟩
    have := hreport ev hev
    cases ev <;> first | rfl | cases this
  | @fresh now cmd e he =>
    have hseq := he.seq
    by_cases hk : k = s.nextSeq
    · -- The number is given out.
      rw [ha.unsent (Nat.le_of_eq hk.symm)]
      refine ⟨.waiting e, seqRun_singleton (.sent (hseq.trans hk.symm) he.attempt he.limit), ?_⟩
      refine ⟨fun hle => ?_, ?_, ?_⟩
      · simp only [BridgeState.sent] at hle
        omega
      · intro p hp hnew
        simp only [BridgeState.sent] at hp
        split_ifs at hp with hnew' hclose
        · rw [← Option.some.inj hp]
        · exact absurd (hs.below k p hp) (by omega)
      · intro p a hp hreported
        simp only [BridgeState.sent] at hp
        split_ifs at hp with hnew' hclose
        · rw [← Option.some.inj hp] at hreported
          cases hreported
        · exact absurd (hs.below k p hp) (by omega)
    · refine ⟨phase, seqRun_other fun ev hev => ?_, ha.other (fun hle => ?_) ?_⟩
      · rw [mem_singleton.mp hev]
        exact decide_eq_false (by omega)
      · simp only [BridgeState.sent] at hle
        omega
      · simp only [BridgeState.sent, hk, and_false, if_false]
        by_cases hclose : e.envelopeType = .close
        · exact .inr (if_pos hclose)
        · exact .inl (if_neg hclose)
  | @wait now seq attempt observedAtMs p due hp hattempt hnew =>
    by_cases hk : k = seq
    · subst hk
      rw [ha.waiting p hp hnew]
      refine ⟨.timedOut p.envelope, ⟨_, .timeout hattempt, _, .retry (by rw [hattempt]), rfl⟩,
        agrees_written (hs.below k p hp) ?_ ?_⟩
      · intro q hq hnone
        rw [← Option.some.inj hq] at hnone
        cases hnone
      · intro q a hq _
        rw [← Option.some.inj hq]
    · refine ⟨phase, seqRun_other fun ev hev => ?_, ha.setPending_ne hk _⟩
      simp only [mem_cons, not_mem_nil, or_false] at hev
      rcases hev with rfl | rfl <;> exact decide_eq_false (Ne.symm hk)
  | @again now seq attempt observedAtMs p e hp hattempt hnew hwait he =>
    by_cases hk : k = seq
    · subst hk
      rw [ha.waiting p hp hnew]
      refine ⟨.waiting e, ⟨_, .timeout hattempt, _, .retry (by rw [hattempt]), _,
        .resent he.seq he.attempt he.limit he.message, rfl⟩,
        agrees_written (hs.below k p hp) ?_ ?_⟩
      · intro q hq _
        rw [← Option.some.inj hq]
      · intro q a hq hreported
        rw [← Option.some.inj hq] at hreported
        cases hreported
    · refine ⟨phase, seqRun_other fun ev hev => ?_, ha.setPending_ne hk _⟩
      simp only [mem_cons, not_mem_nil, or_false] at hev
      have hseq := he.seq
      rcases hev with rfl | rfl | rfl <;> exact decide_eq_false (by omega)
  | @resend now seq attempt observedAtMs p e hp hattempt hreported hdue he =>
    by_cases hk : k = seq
    · subst hk
      rw [ha.timedOut p attempt hp hreported]
      refine ⟨.waiting e, seqRun_singleton (.resent he.seq he.attempt he.limit he.message),
        agrees_written (hs.below k p hp) ?_ ?_⟩
      · intro q hq _
        rw [← Option.some.inj hq]
      · intro q a hq hreported
        rw [← Option.some.inj hq] at hreported
        cases hreported
    · refine ⟨phase, seqRun_other fun ev hev => ?_, ha.setPending_ne hk _⟩
      have hseq := he.seq
      rw [mem_singleton.mp hev]
      exact decide_eq_false (by omega)
  | @exhaust now seq attempt observedAtMs p hp hattempt hnew hlast =>
    by_cases hk : k = seq
    · subst hk
      rw [ha.waiting p hp hnew]
      refine ⟨.settled, ⟨_, .timeout hattempt, _, .exhausted hattempt hlast, rfl⟩,
        agrees_written (hs.below k p hp) ?_ ?_⟩
      · exact fun q hq => by cases hq
      · exact fun q a hq => by cases hq
    · refine ⟨phase, seqRun_other fun ev hev => ?_, ha.setPending_ne hk _⟩
      simp only [mem_cons, not_mem_nil, or_false] at hev
      rcases hev with rfl | rfl <;> exact decide_eq_false (Ne.symm hk)
  | accept hnext hreceipts =>
    refine ⟨phase, seqRun_other fun ev hev => ?_, ha.other (fun hk => hk) (.inl rfl)⟩
    rcases hreceipts with rfl | ⟨receipt, j, rfl, -⟩ <;>
      simp only [mem_cons, not_mem_nil, or_false] at hev
    · rcases hev with rfl | rfl <;> rfl
    · rcases hev with rfl | rfl | rfl <;> rfl
  | @settle envelope j p ev hnext hp hev =>
    have hnext' : (s.accept envelope).nextSeq = s.nextSeq := rfl
    by_cases hk : k = j
    · subst hk
      have hanswers : ev.answers k = true := by
        rcases hev with rfl | ⟨error, rfl⟩ <;> exact decide_eq_true rfl
      have hphase : phase = .waiting p.envelope ∨ phase = .timedOut p.envelope := by
        cases hreported : p.timeoutReportedAttempt with
        | none => exact .inl (ha.waiting p hp hreported)
        | some a => exact .inr (ha.timedOut p a hp hreported)
      refine ⟨.settled, ⟨_, .other rfl, _, .other rfl, _, .receipt hphase hanswers, rfl⟩,
        agrees_written (by rw [hnext']; exact hs.below k p hp) ?_ ?_⟩
      · exact fun q hq => by cases hq
      · exact fun q a hq => by cases hq
    · have haccept : Agrees (s.accept envelope) k phase := ha.other (fun hk => hk) (.inl rfl)
      refine ⟨phase, seqRun_other fun e he => ?_, haccept.setPending_ne hk _⟩
      simp only [mem_cons, not_mem_nil, or_false] at he
      rcases he with rfl | rfl | rfl
      · rfl
      · rfl
      · rcases hev with rfl | ⟨error, rfl⟩ <;> exact decide_eq_false (Ne.symm hk)

variable {items : List (BridgeItem T U)} {evs : List (List (WireBridgeEvent T U))}

/-- The events of every number are a word of the automaton. -/
theorem Moves.seqRun (h : Moves opts s items s' evs) (hs : s.Booked opts) (ha : Agrees s k phase) :
    ∃ phase', SeqRun opts.retry.maxAttempts k evs.flatten phase phase' ∧ Agrees s' k phase' := by
  induction h generalizing phase with
  | nil => exact ⟨phase, rfl, ha⟩
  | cons move rest ih =>
    obtain ⟨b, hb, hagrees⟩ := move.seqRun hs ha
    obtain ⟨c, hc, hagrees⟩ := ih (move.booked hs) hagrees
    exact ⟨c, seqRun_append.mpr ⟨b, hb, hc⟩, hagrees⟩

theorem agrees_initial (k : Nat) : Agrees (BridgeState.initial T) k .unsent where
  unsent := fun _ => rfl
  waiting := fun p hp => by cases hp
  timedOut := fun p a hp => by cases hp

/-! ### How long a retry waits -/

/-- An announced attempt of a number is not sent before its due time: it was sent,
    or its envelope waits for it, or the number is gone. -/
structure HoldsBack (s : BridgeState T) (k attempt due : Nat) : Prop where
  given : k < s.nextSeq
  waits : ∀ p, s.pending k = some p → attempt ≤ p.envelope.metadata.attempt ∨
    p.envelope.metadata.attempt + 1 = attempt ∧
      p.timeoutReportedAttempt = some p.envelope.metadata.attempt ∧ p.retryDueAtMs = some due

/-- The item is a timeout that was not observed before a time. -/
def BridgeItem.NotBefore (due : Nat) (item : BridgeItem T U) : Prop :=
  ∀ now seq attempt observed, item = .command now (.ackTimeout seq attempt (some observed)) →
    due ≤ observed

variable {attempt due : Nat}

theorem HoldsBack.setPending_ne (h : HoldsBack s k attempt due)
    (hne : k ≠ seq) (q : Option (PendingEnvelope T)) :
    HoldsBack (s.setPending seq q) k attempt due :=
  ⟨h.given, fun p hp => h.waits p ((BridgeState.setPending_of_ne s q hne).symm.trans hp)⟩

/-- A slot that was written with a later attempt, or emptied, holds nothing back. -/
theorem holdsBack_written
    (hk : k < s.nextSeq) (hq : ∀ p, q = some p → attempt ≤ p.envelope.metadata.attempt) :
    HoldsBack (s.setPending k q) k attempt due :=
  ⟨hk, fun p hp => .inl (hq p ((BridgeState.setPending_self s k q).symm.trans hp))⟩

/-- A retry that is known to be due later is not sent by an item. -/
theorem Move.holdsBack (h : Move opts s item s' es) (hb : HoldsBack s k attempt due) :
    (∀ e ∈ outboundsOf k es, e.metadata.attempt = attempt → item.NotBefore due) ∧
      HoldsBack s' k attempt due := by
  cases h with
  | report _ hreport =>
    refine ⟨fun e he => ?_, hb⟩
    rw [outboundsOf_quiet fun ev hev => ?_] at he
    · exact absurd he not_mem_nil
    · have := hreport ev hev
      cases ev <;> first | rfl | cases this
  | @fresh now cmd e he =>
    have hseq := he.seq
    have hgiven := hb.given
    refine ⟨fun e' he' => ?_, ⟨by simp only [BridgeState.sent]; omega, fun p hp => ?_⟩⟩
    · rw [outboundsOf_ne (by omega)] at he'
      exact absurd he' not_mem_nil
    · have hne : ¬ k = s.nextSeq := by omega
      simp only [BridgeState.sent, hne, and_false, if_false] at hp
      split_ifs at hp
      exact hb.waits p hp
  | @wait now seq attempt' observedAtMs p due' hp hattempt hnew =>
    refine ⟨fun e he => absurd he not_mem_nil, ?_⟩
    by_cases hk : k = seq
    · subst hk
      refine holdsBack_written hb.given fun q hq => ?_
      rw [← Option.some.inj hq]
      rcases hb.waits p hp with hle | ⟨-, hreported, -⟩
      · exact hle
      · rw [hnew] at hreported
        cases hreported
    · exact hb.setPending_ne hk _
  | @again now seq attempt' observedAtMs p e hp hattempt hnew hwait he =>
    have hnext := he.attempt
    by_cases hk : k = seq
    · subst hk
      have hle : attempt ≤ p.envelope.metadata.attempt := by
        rcases hb.waits p hp with hle | ⟨-, hreported, -⟩
        · exact hle
        · rw [hnew] at hreported
          cases hreported
      refine ⟨fun e' he' hattempt' => ?_, holdsBack_written hb.given fun q hq => ?_⟩
      · -- What is sent is a later attempt.
        simp only [outboundsOf, outbounds, WireBridgeEvent.outbound?, filterMap_cons,
          filterMap_nil, mem_filter, mem_singleton] at he'
        rw [he'.1] at hattempt'
        omega
      · rw [← Option.some.inj hq]
        simp only
        omega
    · have hseq := he.seq
      refine ⟨fun e' he' => ?_, hb.setPending_ne hk _⟩
      rw [outboundsOf_quiet fun ev hev => ?_] at he'
      · exact absurd he' not_mem_nil
      · simp only [mem_cons, not_mem_nil, or_false] at hev
        rcases hev with rfl | rfl | rfl <;> exact decide_eq_false (by omega)
  | @resend now seq attempt' observedAtMs p e hp hattempt hreported hdue he =>
    have hnext := he.attempt
    have hseq := he.seq
    by_cases hk : k = seq
    · subst hk
      refine ⟨fun e' he' hattempt' => ?_, holdsBack_written hb.given fun q hq => ?_⟩
      · simp only [outboundsOf, outbounds, WireBridgeEvent.outbound?, filterMap_cons,
          filterMap_nil, mem_filter, mem_singleton] at he'
        rw [he'.1] at hattempt'
        rcases hb.waits p hp with hle | ⟨-, -, hwaits⟩
        · omega
        · -- The envelope waits for its due time, and the timeout was let through.
          intro now' seq' attempt'' observed hitem
          obtain ⟨-, hitem⟩ := BridgeItem.command.inj hitem
          obtain ⟨-, -, hobserved⟩ := WireBridgeCommand.ackTimeout.inj hitem
          unfold PendingEnvelope.waits at hdue
          rw [hobserved, hwaits] at hdue
          exact Nat.le_of_not_lt (of_decide_eq_false hdue)
      · rw [← Option.some.inj hq]
        simp only
        rcases hb.waits p hp with hle | ⟨hle, -, -⟩ <;> omega
    · refine ⟨fun e' he' => ?_, hb.setPending_ne hk _⟩
      rw [outboundsOf_ne (by omega)] at he'
      exact absurd he' not_mem_nil
  | @exhaust now seq attempt' observedAtMs p hp hattempt hnew hlast =>
    refine ⟨fun e he => absurd he not_mem_nil, ?_⟩
    by_cases hk : k = seq
    · subst hk
      exact holdsBack_written hb.given fun q hq => by cases hq
    · exact hb.setPending_ne hk _
  | accept hnext hreceipts =>
    refine ⟨fun e he => ?_, ⟨hb.given, hb.waits⟩⟩
    rcases hreceipts with rfl | ⟨receipt, j, rfl, -⟩ <;> exact absurd he not_mem_nil
  | @settle envelope j p ev hnext hp hev =>
    have haccept : HoldsBack (s.accept envelope) k attempt due := ⟨hb.given, hb.waits⟩
    refine ⟨fun e he => ?_, ?_⟩
    · rcases hev with rfl | ⟨error, rfl⟩ <;> exact absurd he not_mem_nil
    · by_cases hk : k = j
      · subst hk
        exact holdsBack_written haccept.given fun q hq => by cases hq
      · exact haccept.setPending_ne hk _

variable {now observed delayMs : Nat} {error : String}

/-- An announcement of a retry holds the attempt back, from the announcing item on. -/
theorem Move.announces (h : Move opts s item s' es) (hs : s.Booked opts) {a : Nat}
    (hitem : item = .command now (.ackTimeout k a (some observed)))
    (hretry : .retry k attempt delayMs error ∈ es) :
    (∀ e ∈ outboundsOf k es, e.metadata.attempt = attempt → delayMs = 0) ∧
      HoldsBack s' k attempt (saturatingAdd u64Max observed delayMs) := by
  cases h with
  | report _ hreport => cases hreport _ hretry
  | fresh => simp at hretry
  | @wait now' seq attempt' observedAtMs p due hp hattempt hnew hretry' hobserved hdelay =>
    obtain ⟨-, hcmd⟩ := BridgeItem.command.inj hitem
    obtain ⟨rfl, rfl, rfl⟩ := WireBridgeCommand.ackTimeout.inj hcmd
    simp only [mem_cons, reduceCtorEq, WireBridgeEvent.retry.injEq, not_mem_nil,
      or_false, false_or] at hretry
    obtain ⟨-, rfl, rfl, -⟩ := hretry
    refine ⟨fun e he => absurd he not_mem_nil, ⟨hs.below _ p hp, fun q hq => .inr ?_⟩⟩
    obtain rfl := Option.some.inj ((BridgeState.setPending_self s _ _).symm.trans hq)
    exact ⟨by rw [hattempt], by rw [hattempt], by rw [← hobserved]; rfl⟩
  | @again now' seq attempt' observedAtMs p e hp hattempt hnew hwait he =>
    obtain ⟨-, hcmd⟩ := BridgeItem.command.inj hitem
    obtain ⟨rfl, rfl, rfl⟩ := WireBridgeCommand.ackTimeout.inj hcmd
    simp only [mem_cons, reduceCtorEq, WireBridgeEvent.retry.injEq, not_mem_nil,
      or_false, false_or] at hretry
    obtain ⟨-, rfl, rfl, -⟩ := hretry
    refine ⟨fun e' _ _ => ?_, holdsBack_written (hs.below _ p hp) fun q hq => ?_⟩
    · -- A retry with a delay would have waited for the due time that is known.
      by_contra hpos
      cases hwait (by omega)
    · rw [← Option.some.inj hq, he.attempt, hattempt]
  | resend => simp at hretry
  | exhaust => simp at hretry
  | accept hnext hreceipts =>
    rcases hreceipts with rfl | ⟨receipt, j, rfl, -⟩ <;> simp at hretry
  | settle hnext hp hev =>
    rcases hev with rfl | ⟨error, rfl⟩ <;> simp at hretry

variable {i : Nat}

theorem Moves.get
    (h : Moves opts s items s' evs) (hs : s.Booked opts) (hi : items[i]? = some item) :
    ∃ s₁ s₂ es, evs[i]? = some es ∧ s₁.Booked opts ∧ Move opts s₁ item s₂ es ∧
      Moves opts s₂ (items.drop (i + 1)) s' (evs.drop (i + 1)) := by
  induction h generalizing i with
  | nil => cases hi
  | @cons s s₁ s'' item' es items evs move rest ih =>
    cases i with
    | zero =>
      obtain rfl := Option.some.inj hi
      exact ⟨s, s₁, es, rfl, hs, move, rest⟩
    | succ i => exact ih (move.booked hs) hi

variable {j : Nat}

theorem Moves.holdsBack (h : Moves opts s items s' evs) (hb : HoldsBack s k attempt due)
    (hj : items[j]? = some item) (hes : evs[j]? = some es) :
    ∀ e ∈ outboundsOf k es, e.metadata.attempt = attempt → item.NotBefore due := by
  induction h generalizing j with
  | nil => cases hj
  | cons move rest ih =>
    obtain ⟨hnow, hb'⟩ := move.holdsBack hb
    cases j with
    | zero =>
      obtain rfl := Option.some.inj hj
      obtain rfl := Option.some.inj hes
      exact hnow
    | succ j => exact ih hb' hj hes

/-- An attempt whose retry was announced with a known due time is not sent by a
    timeout that was observed earlier. -/
theorem Moves.not_before (h : Moves opts s items s' evs) (hs : s.Booked opts)
    {a : Nat} {es' : List (WireBridgeEvent T U)}
    (hij : i ≤ j) (hi : items[i]? = some (.command now (.ackTimeout k a (some observed))))
    (hes : evs[i]? = some es) (hretry : .retry k attempt delayMs error ∈ es)
    (hj : items[j]? = some item) (hes' : evs[j]? = some es') :
    ∀ e ∈ outboundsOf k es', e.metadata.attempt = attempt →
      item.NotBefore (saturatingAdd u64Max observed delayMs) := by
  obtain ⟨s₁, s₂, es₁, hes₁, hs₁, hmove, hrest⟩ := h.get hs hi
  obtain rfl := Option.some.inj (hes.symm.trans hes₁)
  obtain ⟨hnow, hb⟩ := hmove.announces hs₁ rfl hretry
  by_cases heq : i = j
  · -- The announcing item itself sends only what has no delay.
    subst heq
    obtain rfl := Option.some.inj (hes.symm.trans hes')
    intro e he hattempt now' seq attempt' observed' hitem
    rw [hi, Option.some.injEq] at hj
    rw [hitem] at hj
    obtain ⟨-, hcmd⟩ := BridgeItem.command.inj hj
    obtain ⟨-, -, hobserved⟩ := WireBridgeCommand.ackTimeout.inj hcmd
    rw [hnow e he hattempt, ← Option.some.inj hobserved]
    exact Nat.min_le_left _ _
  · have hj' : (items.drop (i + 1))[j - (i + 1)]? = some item := by
      rw [List.getElem?_drop, ← hj]
      congr 1
      omega
    have hes'' : (evs.drop (i + 1))[j - (i + 1)]? = some es' := by
      rw [List.getElem?_drop, ← hes']
      congr 1
      omega
    exact hrest.holdsBack hb hj' hes''

/-- The events of a run of one bridge. The attempts of a number are the first, the
    second and so on, of one message and within the limit. An attempt whose retry
    was announced with a known due time is not sent by a timeout that was observed
    earlier. A number is given up only when its last attempt has timed out. Once a
    number was acknowledged, refused or given up, nothing more is said about it. -/
theorem bridge_retry_lifecycle (opts : WireBridgeOptions)
    (hmax : opts.retry.maxAttempts ≤ u32Max) (items : List (BridgeItem T U)) :
    ∃ s evs, runBridge opts (BridgeState.initial T) items = .ok (s, evs) ∧
      (∀ k, (∃ n ≤ opts.retry.maxAttempts,
          (outboundsOf k evs.flatten).map (·.metadata.attempt) = List.range' 1 n) ∧
        ∀ e ∈ outboundsOf k evs.flatten, ∀ e' ∈ outboundsOf k evs.flatten,
          e.message = e'.message) ∧
      (∀ (k i j now a observed attempt delayMs : Nat) (error : String) (item : BridgeItem T U)
          (es es' : List (WireBridgeEvent T U)), i ≤ j →
        items[i]? = some (.command now (.ackTimeout k a (some observed))) → evs[i]? = some es →
        .retry k attempt delayMs error ∈ es → items[j]? = some item → evs[j]? = some es' →
        ∀ e ∈ outboundsOf k es', e.metadata.attempt = attempt →
          item.NotBefore (saturatingAdd u64Max observed delayMs)) ∧
      (∀ (k attempt : Nat) (error : String) (earlier later : List (WireBridgeEvent T U)),
        evs.flatten = earlier ++ .exhausted k attempt error :: later →
        attempt = opts.retry.maxAttempts ∧ .timeout k attempt ∈ earlier ∧
          ∃ e ∈ outboundsOf k earlier, e.metadata.attempt = attempt) ∧
      (∀ (k : Nat) (ev : WireBridgeEvent T U) (earlier later : List (WireBridgeEvent T U)),
        evs.flatten = earlier ++ ev :: later → ev.settles k = true →
          ∀ ev' ∈ later, ev'.concerns k = false) := by
  have hs := booked_initial (T := T) opts
  obtain ⟨s, evs, hrun, hmoves, -⟩ := runBridge_moves hmax hs items
  refine ⟨s, evs, hrun, fun k => ?_, ?_, ?_, ?_⟩
  · obtain ⟨phase, hword, -⟩ := hmoves.seqRun hs (agrees_initial k)
    exact hword.attempts
  · intro k i j now a observed attempt delayMs error item es es' hij hi hes hretry hj hes'
    exact hmoves.not_before hs hij hi hes hretry hj hes'
  · intro k attempt error earlier later heq
    obtain ⟨phase, hword, -⟩ := hmoves.seqRun hs (agrees_initial k)
    rw [heq] at hword
    obtain ⟨a, hearlier, b, hstep, -⟩ := seqRun_append.mp hword
    cases hstep with
    | other hev => simp [WireBridgeEvent.concerns] at hev
    | @exhausted e _ _ hattempt hlast =>
      refine ⟨hlast, ?_, e, ?_, hattempt⟩
      · rcases hearlier.timeout_mem with hphase | hmem
        · cases hphase
        · exact hattempt ▸ hmem
      · rcases hearlier.outbound_mem (.inr rfl) with hphase | hmem
        · rcases hphase with hphase | hphase <;> cases hphase
        · exact hmem
    | receipt _ hev => cases hev
  · intro k ev earlier later heq hsettles
    obtain ⟨phase, hword, -⟩ := hmoves.seqRun hs (agrees_initial k)
    rw [heq] at hword
    obtain ⟨a, -, b, hstep, hlater⟩ := seqRun_append.mp hword
    have hsettled : b = .settled := by
      cases hstep with
      | other hev =>
        cases ev <;> simp_all [WireBridgeEvent.settles, WireBridgeEvent.answers,
          WireBridgeEvent.exhausts, WireBridgeEvent.concerns]
      | exhausted => rfl
      | receipt => rfl
      | sent | resent | timeout | retry => cases hsettles
    exact (hsettled ▸ hlater).settled

/-- Three attempts with a second between them. -/
def slowRetries : WireBridgeOptions := ⟨"session", ⟨3, .constant 1000⟩⟩

/-- One payload whose first attempt times out at time five. -/
def timedOutItems : List (BridgeItem Nat Nat) :=
  [.command 0 (.send 7 none none), .command 5 (.ackTimeout 1 1 (some 5)),
    .command 6 (.ackTimeout 1 1 (some 6)), .command 2000 (.ackTimeout 1 1 (some 2000))]

theorem bridge_retry_lifecycle_timedOut :
    ∃ s evs, runBridge slowRetries (BridgeState.initial Nat) timedOutItems = .ok (s, evs) ∧
      ∃ n ≤ 3, (outboundsOf 1 evs.flatten).map (·.metadata.attempt) = List.range' 1 n := by
  obtain ⟨s, evs, hrun, hattempts, -⟩ :=
    bridge_retry_lifecycle slowRetries (by decide) timedOutItems
  exact ⟨s, evs, hrun, (hattempts 1).1⟩

end GraphRefly.Bridge
