import GraphRefly.Bridge.Session

/-!
# Delivery Is An Exact Prefix

What one endpoint has accepted is a prefix of what the other has numbered. The
receiver takes only the successor of its cursor, so the numbers it accepts are
`1, 2, ..., cursor` in this order whatever the channel does. That each of them
carries the message first emitted under its number is a property of the sender:
a number is given to one envelope, and every later attempt is built from the
pending copy, which changes the attempt, the cursor and the time but not the
message.

The invariant `Flow` speaks about one direction, from the left endpoint to the
right one. The other direction is the same statement about the swapped session.

## Main definitions

* `Session.Flow`: The invariant of one direction.
* `Session.Delivered`: What the receiver has, compared with what was sent.

## Theorems

* `Session.flow_step`: Every action keeps the invariant.
* `Session.delivery_exact_prefix`: Every reachable session has delivered an exact prefix.
-/

namespace GraphRefly.Bridge

open List

namespace Session

variable {T U : Type} {P : Setup} {c c' : Session T U} {a : Action T U}
  {ok : Session T U → Action T U → Prop}

/-- The invariant of the direction from left to right. -/
structure Flow (P : Setup) (c : Session T U) : Prop where
  /-- Numbers are given out below the next one. -/
  numbered : ∀ e ∈ outbounds c.left.events, e.metadata.seq < c.left.state.nextSeq
  valid : ∀ e ∈ outbounds c.left.events, e.Valid ∧ e.sessionId = P.sessionId
  /-- A pending envelope is the last attempt that was emitted. -/
  pending : ∀ k p, c.left.state.pending k = some p → p.envelope ∈ outbounds c.left.events
  /-- All attempts of one number carry one message. -/
  message : ∀ e ∈ outbounds c.left.events, ∀ e' ∈ outbounds c.left.events,
    e.metadata.seq = e'.metadata.seq → e.message = e'.message
  accepted : ∀ e ∈ inbounds c.right.events, e ∈ outbounds c.left.events
  /-- The accepted numbers are the first ones, in order and without repetition. -/
  prefixed : (inbounds c.right.events).map (·.metadata.seq) = List.range' 1 c.right.state.cursor

theorem initial_flow (P : Setup) : Flow P (initial T U) where
  numbered := by simp [initial, Endpoint.initial, outbounds]
  valid := by simp [initial, Endpoint.initial, outbounds]
  pending := by simp [initial, Endpoint.initial, BridgeState.initial]
  message := by simp [initial, Endpoint.initial, outbounds]
  accepted := by simp [initial, Endpoint.initial, inbounds]
  prefixed := by simp [initial, Endpoint.initial, BridgeState.initial, inbounds]

theorem Flow.command {cmd : WireBridgeCommand T} {s' : BridgeState T}
    {es : List (WireBridgeEvent T U)} (h : Flow P c) (hsound : c.left.state.Sound P.leftOpts)
    (hdone : Commanded P.leftOpts cmd c.left.state s' es) :
    Flow P { c with left := ⟨s', c.left.events ++ es⟩ } := by
  cases hdone.step with
  | silent sent nextSeq kept lost =>
    refine ⟨?_, ?_, ?_, ?_, ?_, h.prefixed⟩ <;>
      simp only [outbounds_append, sent, append_nil, nextSeq]
    · exact h.numbered
    · exact h.valid
    · intro k p' hp'
      obtain ⟨p, hp, heq⟩ := kept k p' hp'
      rw [← heq]
      exact h.pending k p hp
    · exact h.message
    · exact h.accepted
  | fresh e sent nextSeq valid session seq stamp kept tracked lost =>
    have hold : ∀ f ∈ outbounds c.left.events, f.metadata.seq ≠ e.metadata.seq := by
      intro f hf
      have := h.numbered f hf
      omega
    refine ⟨?_, ?_, ?_, ?_, ?_, h.prefixed⟩ <;>
      simp only [outbounds_append, sent, mem_append, mem_singleton, nextSeq]
    · rintro f (hf | rfl)
      · have := h.numbered f hf
        omega
      · omega
    · rintro f (hf | rfl)
      · exact h.valid f hf
      · exact ⟨valid, session⟩
    · intro k p hp
      rcases kept k p hp with hp | ⟨_, rfl⟩
      · exact Or.inl (h.pending k p hp)
      · exact Or.inr rfl
    · -- A fresh number was on no envelope before.
      rintro f (hf | rfl) g (hg | rfl) hseq
      · exact h.message f hf g hg hseq
      · exact absurd hseq (hold f hf)
      · exact absurd hseq.symm (hold g hg)
      · rfl
    · exact fun f hf => Or.inl (h.accepted f hf)
  | retry seq p e asked pending sent nextSeq valid session number message stamp after =>
    have hp := h.pending seq p pending
    have hnumber : p.envelope.metadata.seq = e.metadata.seq :=
      (hsound seq p pending).number.trans number.symm
    refine ⟨?_, ?_, ?_, ?_, ?_, h.prefixed⟩ <;>
      simp only [outbounds_append, sent, mem_append, mem_singleton, nextSeq]
    · rintro f (hf | rfl)
      · exact h.numbered f hf
      · rw [← hnumber]
        exact h.numbered p.envelope hp
    · rintro f (hf | rfl)
      · exact h.valid f hf
      · exact ⟨valid, session⟩
    · intro k q hq
      rw [after] at hq
      rcases BridgeState.setPending_cases hq with ⟨_, hslot⟩ | ⟨_, hold⟩
      · exact Or.inr (by rw [← Option.some.inj hslot])
      · exact Or.inl (h.pending k q hold)
    · -- The new attempt carries the message of the pending one.
      rintro f (hf | rfl) g (hg | rfl) hseq
      · exact h.message f hf g hg hseq
      · rw [message]
        exact h.message f hf p.envelope hp (hseq.trans hnumber.symm)
      · rw [message]
        exact h.message p.envelope hp g hg (hnumber.trans hseq)
      · rfl
    · exact fun f hf => Or.inl (h.accepted f hf)

theorem Flow.deliver {envelope : WireBridgeEnvelope T} {s' : BridgeState U}
    {es : List (WireBridgeEvent U T)} (h : Flow P c) (hmem : envelope ∈ outbounds c.left.events)
    (hdone : InboundStep P.sessionId envelope c.right.state s' es) :
    Flow P { c with right := ⟨s', c.right.events ++ es⟩ } := by
  cases hdone with
  | refused same turnedAway _ =>
    refine ⟨h.numbered, h.valid, h.pending, h.message, ?_, ?_⟩ <;>
      simp only [inbounds_append, turnedAway, append_nil, same]
    · exact h.accepted
    · exact h.prefixed
  | accepted next _ cursor _ _ taken _ _ _ =>
    refine ⟨h.numbered, h.valid, h.pending, h.message, ?_, ?_⟩ <;>
      simp only [inbounds_append, taken]
    · intro e he
      rcases mem_append.mp he with he | he
      · exact h.accepted e he
      · rw [mem_singleton.mp he]
        exact hmem
    · rw [map_append, h.prefixed, cursor, List.range'_concat]
      simp [next, Nat.add_comm]

theorem flow_step (hs : c.Sound P) (hacted : Acted P c a c') (h : Flow P c) : Flow P c' := by
  cases hacted with
  | commandLeft hdone => exact h.command hs.left hdone
  | commandRight hdone =>
    refine ⟨h.numbered, h.valid, h.pending, h.message, ?_, ?_⟩ <;>
      simp only [inbounds_append, hdone.accepted, append_nil, hdone.cursor]
    · exact h.accepted
    · exact h.prefixed
  | deliverLeft hmem hsent hdone =>
    cases hdone with
    | refused same _ _ =>
      refine ⟨?_, ?_, ?_, ?_, ?_, h.prefixed⟩ <;>
        simp only [outbounds_append, hsent, append_nil, same]
      · exact h.numbered
      · exact h.valid
      · exact h.pending
      · exact h.message
      · exact h.accepted
    | accepted _ _ _ _ nextSeq _ kept _ _ =>
      refine ⟨?_, ?_, ?_, ?_, ?_, h.prefixed⟩ <;>
        simp only [outbounds_append, hsent, append_nil, nextSeq]
      · exact h.numbered
      · exact h.valid
      · exact fun k p hp => h.pending k p (kept k p hp)
      · exact h.message
      · exact h.accepted
  | deliverRight hmem _ hdone => exact h.deliver hmem hdone

theorem Reachable.flow (h : Reachable P ok c) : Flow P c :=
  (h.invariant (initial_flow P) fun _ _ _ hs _ hacted hinv => flow_step hs hacted hinv).2

/-- What the right endpoint has accepted, compared with what the left one emitted. -/
structure Delivered (c : Session T U) : Prop where
  /-- The accepted numbers are `1, ..., cursor`, in order and each once. -/
  seqs : (inbounds c.right.events).map (·.metadata.seq) = List.range' 1 c.right.state.cursor
  /-- An accepted envelope has the message first emitted under its number. -/
  first : ∀ e ∈ inbounds c.right.events, ∃ e₀,
    (outbounds c.left.events).find? (fun f => f.metadata.seq = e.metadata.seq) = some e₀ ∧
      e.envelopeType = e₀.envelopeType ∧ e.payload = e₀.payload ∧
      e.metadata.idempotencyKey = e₀.metadata.idempotencyKey ∧
      e.metadata.requestId = e₀.metadata.requestId ∧
      e.metadata.ackForSeq = e₀.metadata.ackForSeq
  /-- The cursor does not exceed the largest emitted number. -/
  bound : c.right.state.cursor = 0 ∨
    ∃ e ∈ outbounds c.left.events, c.right.state.cursor ≤ e.metadata.seq

theorem Flow.delivered (h : Flow P c) : c.Delivered where
  seqs := h.prefixed
  first := by
    intro e he
    have hmem := h.accepted e he
    have hfind : ((outbounds c.left.events).find?
        (fun f => f.metadata.seq = e.metadata.seq)).isSome = true :=
      List.find?_isSome.mpr ⟨e, hmem, by simp⟩
    obtain ⟨e₀, he₀⟩ := Option.isSome_iff_exists.mp hfind
    have hseq : e₀.metadata.seq = e.metadata.seq := by simpa using List.find?_some he₀
    have hmessage := h.message e hmem e₀ (mem_of_find?_eq_some he₀) hseq.symm
    simp only [WireBridgeEnvelope.message, Prod.mk.injEq] at hmessage
    exact ⟨e₀, he₀, hmessage⟩
  bound := by
    rcases Nat.eq_zero_or_pos c.right.state.cursor with hzero | hpos
    · exact Or.inl hzero
    · -- The last accepted number is on an envelope that was emitted.
      have hlast : c.right.state.cursor ∈ List.range' 1 c.right.state.cursor :=
        mem_range'_1.mpr ⟨hpos, by omega⟩
      rw [← h.prefixed] at hlast
      obtain ⟨e, he, hseq⟩ := mem_map.mp hlast
      exact Or.inr ⟨e, h.accepted e he, Nat.le_of_eq hseq.symm⟩

theorem cursor_step (hacted : Acted P c a c') :
    c.left.state.cursor ≤ c'.left.state.cursor ∧ c.right.state.cursor ≤ c'.right.state.cursor := by
  cases hacted with
  | commandLeft hdone => exact ⟨Nat.le_of_eq hdone.cursor.symm, Nat.le_refl _⟩
  | commandRight hdone => exact ⟨Nat.le_refl _, Nat.le_of_eq hdone.cursor.symm⟩
  | deliverLeft _ _ hdone =>
    cases hdone with
    | refused same _ _ => exact ⟨Nat.le_of_eq (by rw [same]), Nat.le_refl _⟩
    | accepted _ _ cursor _ _ _ _ _ _ => exact ⟨by simp only [cursor]; omega, Nat.le_refl _⟩
  | deliverRight _ _ hdone =>
    cases hdone with
    | refused same _ _ => exact ⟨Nat.le_refl _, Nat.le_of_eq (by rw [same])⟩
    | accepted _ _ cursor _ _ _ _ _ _ => exact ⟨Nat.le_refl _, by simp only [cursor]; omega⟩

/-- In every reachable session each endpoint has accepted exactly the envelopes
    `1, ..., cursor` of its peer, each with the message first emitted under its
    number, and from there on the cursors never go back. -/
theorem delivery_exact_prefix {P : Setup} {c : Session T U}
    (h : Reachable P (fun _ _ => True) c) :
    c.Delivered ∧ c.swap.Delivered ∧
      ∀ c', Runs P (fun _ _ => True) c c' →
        c.left.state.cursor ≤ c'.left.state.cursor ∧
          c.right.state.cursor ≤ c'.right.state.cursor := by
  have hswap : Reachable P.swap (fun _ _ => True) c.swap := h.swap fun _ _ h => h
  refine ⟨h.flow.delivered, hswap.flow.delivered, ?_⟩
  intro c' hrun
  have hsound : c.Sound P := (h.invariant trivial fun _ _ _ _ _ _ _ => trivial).1
  have hkeep : ∀ (x : Session T U) a y, x.Sound P → True → Acted P x a y →
      (c.left.state.cursor ≤ x.left.state.cursor ∧ c.right.state.cursor ≤ x.right.state.cursor) →
      c.left.state.cursor ≤ y.left.state.cursor ∧ c.right.state.cursor ≤ y.right.state.cursor := by
    intro x a y _ _ hacted hx
    have hy := cursor_step hacted
    exact ⟨Nat.le_trans hx.1 hy.1, Nat.le_trans hx.2 hy.2⟩
  exact (Runs.invariant hsound hkeep hrun ⟨Nat.le_refl _, Nat.le_refl _⟩).2

/-- Two endpoints that may send everything twice. -/
def pairSetup : Setup := ⟨"session-a", ⟨2, .none⟩, ⟨2, .none⟩⟩

/-- The left endpoint sends, the right one acknowledges, both are delivered. -/
def exchange : List (Action Nat Nat) :=
  [.commandLeft 5 (.send 7 none none), .deliverRight 0, .commandRight 6 (.ack 1 none none),
    .deliverLeft 0]

theorem delivery_exact_prefix_exchange :
    ∃ c, runChecked pairSetup (fun _ _ => True) exchange (initial Nat Nat) = some c ∧
      c.right.state.cursor = 1 ∧ c.left.state.cursor = 1 ∧ c.Delivered ∧ c.swap.Delivered := by
  have hcursors : (runChecked pairSetup (fun _ _ => True) exchange (initial Nat Nat)).map
      (fun c => (c.right.state.cursor, c.left.state.cursor)) = some (1, 1) := by
    decide +kernel
  obtain ⟨c, hrun, heq⟩ := Option.map_eq_some_iff.mp hcursors
  have h := delivery_exact_prefix (Reachable.of_runChecked hrun)
  exact ⟨c, hrun, (Prod.mk.inj heq).1, (Prod.mk.inj heq).2, h.1, h.2.1⟩

end Session

end GraphRefly.Bridge
