import GraphRefly.Safety.Plain

/-!
# Terminal Is Forever

A node that has terminated emits nothing more: `down` asks once, at its entry,
whether the node is terminal. What a wave of the node had still to say when the
node terminated from within that wave is not asked again. A subscriber that
completes the node while it is being told DATA leaves the rest of the
subscribers to be told COMPLETE first and the DATA afterwards.

So a node keeps silent after its terminal message provided that, at the moment
it terminates, nothing it said earlier is still under way on the stack.

## Main definitions

* `Message.isSpoken`: The messages a terminated node must not deliver.
* `Frame.speaksFor`: A frame that will speak for a node without asking again.
* `Config.TerminatesLast`: The condition on the state before a step.
* `Config.closedIds`: The subscriptions told, or being told, a terminal message.
* `Config.TermInv`: Terminated nodes have nothing left to say.
* `Config.Muted`, `Config.Hushed`, `Config.Mute`: What a step does that delivers nothing itself.

## Theorems

* `step_termInv`: A step that meets the condition preserves the invariant.
* `terminal_forever`: Runs that meet the condition stay silent.
* `data_after_complete`: A run that does not.
-/

namespace GraphRefly

open List

variable {V S : Type}

/-- The messages a terminated node must not deliver. -/
def Message.isSpoken : Message V → Bool
  | .dirty => true
  | .data _ => true
  | .resolved => true
  | .invalidate => true
  | .complete => true
  | .error _ => true
  | _ => false

/-- A spoken message that is not terminal. -/
def Message.isPassing (m : Message V) : Bool :=
  m.isSpoken && !m.isTerminal

/-- The frame will speak for the node, or change its value, without asking
    whether it has terminated. -/
def Frame.speaksFor (f : Frame V) (n : NodeId) : Bool :=
  match f with
  | .emit m msg subs => m == n && msg.isSpoken && !subs.isEmpty
  | .emitToSubs m msg => m == n && msg.isSpoken
  | .emitDirtyOnce m => m == n
  | .markDirty m => m == n
  | .invalidate m => m == n
  | .settleRewire m => m == n
  | .deliveryScope m msgs => m == n && msgs.any (·.isPassing)
  | .downLoop m msgs => m == n && msgs.any (·.isPassing)
  | _ => false

/-- The messages a frame has still to emit stand in tier order, and only the
    message loop emits a terminal one. -/
def Frame.Sorted : Frame V → Prop
  | .emitToSubs _ m => m.isTerminal = false
  | .deliveryScope _ msgs => msgs.Pairwise fun a b => a.tier.asU8 ≤ b.tier.asU8
  | .downLoop _ msgs => msgs.Pairwise fun a b => a.tier.asU8 ≤ b.tier.asU8
  | _ => True

/-- The subscriptions a frame is about to tell a terminal message of `n`. -/
def Frame.closing (n : NodeId) : Frame V → List Nat
  | .emit m msg subs => if m = n ∧ msg.isTerminal = true then subs.map (·.id) else []
  | _ => []

/-- The subscription an event told a terminal message of `n`. -/
def Event.closedId (n : NodeId) : Event V → Option Nat
  | .delivered m id _ msg => if m = n ∧ msg.isTerminal = true then some id else none
  | _ => none

/-- No spoken message follows a terminal one on the same subscription. -/
def Event.SilentAfter (newer older : Event V) : Prop :=
  ∀ n id s m s' m', older = .delivered n id s m → newer = .delivered n id s' m' →
    m.isTerminal = true → m'.isSpoken = false

/-- A frame that never speaks for a node without asking `down` first. -/
def Frame.isMute : Frame V → Bool
  | .emit _ _ _ => false
  | .emitToSubs _ _ => false
  | .emitDirtyOnce _ => false
  | .markDirty _ => false
  | .deliveryScope _ _ => false
  | .downLoop _ _ => false
  | .invalidate _ => false
  | .settleRewire _ => false
  | _ => true

/-- The frames whose step is mute. -/
def Frame.entersMute : Frame V → Bool
  | .externalRewire _ _ => true
  | .rewireInner _ _ _ _ => true
  | .rewireApply _ _ _ => true
  | .rewireRemove _ _ _ _ _ _ => true
  | .rewireAssign _ _ _ _ _ => true
  | .drainBoundary => true
  | .drainLoop _ _ => true
  | .taskCatch _ => true
  | .activateIfNeeded _ => true
  | .subscribeDep _ _ _ => true
  | .rollbackDone _ _ => true
  | f => f.entersSilent

variable {f : Frame V}

theorem Frame.isMute_of_isSilent (h : f.isSilent = true) : f.isMute = true := by
  cases f <;> first | rfl | cases h

theorem Frame.speaksFor_of_isMute (h : f.isMute = true) (n : NodeId) :
    f.speaksFor n = false := by
  cases f <;> first | rfl | cases h

theorem Event.closedId_of_not_isDelivery {e : Event V} (h : e.isDelivery = false) (n : NodeId) :
    e.closedId n = none := by
  cases e <;> first | rfl | cases h

section

variable (x : Node V S)

/-- A terminated node takes nothing in; it relays TEARDOWN. -/
theorem Node.receive_of_terminal (h : x.value.terminal = true) (d : Nat) (b : Bool)
    (i : Nat) (m : Message V) :
    x.receive d b i m = (x, {}) ∨
      x.receive d b i m = (x, { emitTeardownSubscribers := true }) := by
  unfold Node.receive
  rw [if_pos h]
  cases m with
  | teardown => exact Or.inr rfl
  | _ => exact Or.inl rfl

/-- A message that does not terminate the node keeps its ports. -/
theorem Node.collectDown_ports (m : Message V)
    (hm : m.isTerminal = true → x.value.terminal = true) : (x.collectDown m).1.ports = x.ports := by
  unfold Node.collectDown
  cases m with
  | dirty | invalidate => dsimp only; split_ifs <;> rfl
  | complete | error _ =>
    dsimp only
    rw [if_pos (hm rfl)]
  | _ => rfl

/-- A terminated node has no message left that changes its value. -/
theorem Node.collectDown_value (m : Message V) (h : x.value.terminal = true)
    (hp : m.isPassing = false) : (x.collectDown m).1.value = x.value := by
  unfold Node.collectDown
  cases m with
  | complete | error _ =>
    dsimp only
    rw [if_pos h]
  | dirty | data _ | resolved | invalidate => cases hp
  | _ => rfl

/-- A second terminal message is not emitted. -/
theorem Node.collectDown_emit (m : Message V)
    (hm : m.isTerminal = true → x.value.terminal = true) (he : (x.collectDown m).2 = .emit) :
    m.isTerminal = false := by
  cases m with
  | complete | error _ =>
    unfold Node.collectDown at he
    dsimp only at he
    rw [if_pos (hm rfl)] at he
    cases he
  | _ => rfl

/-- A terminal message of a node that has not terminated. -/
theorem Node.collectDown_terminal (m : Message V) (hm : m.isTerminal = true)
    (hx : x.value.terminal = false) :
    (x.collectDown m).2 = .emit ∧ (x.collectDown m).1.value.terminal = true ∧
      (x.collectDown m).1.live = x.live ∧ (x.collectDown m).1.aux.subscribers = x.aux.subscribers ∧
      (x.collectDown m).1.aux.nextSubId = x.aux.nextSubId := by
  unfold Node.collectDown
  cases m with
  | complete | error _ =>
    simp only [hx, Bool.false_eq_true, ↓reduceIte, true_and]
    exact ⟨rfl, rfl⟩
  | _ => cases hm

end

namespace Config

/-- The condition on the state before a step. When a message terminates a
    node, no frame below has something left to say for it. -/
def TerminatesLast (c : Config V S) : Prop :=
  match c.mode, c.stack with
  | .running, .downLoop n (m :: _) :: rest =>
    m.isTerminal = true → (c.nodes n).value.terminal = false →
      ∀ f ∈ rest, f.speaksFor n = false
  | _, _ => True

/-- The condition as a check. -/
def checksLast (c : Config V S) : Bool :=
  match c.mode, c.stack with
  | .running, .downLoop n (m :: _) :: rest =>
    decide (m.isTerminal = true → (c.nodes n).value.terminal = false →
      ∀ f ∈ rest, f.speaksFor n = false)
  | _, _ => true

theorem checksLast_iff (c : Config V S) : c.checksLast = true ↔ c.TerminatesLast := by
  unfold checksLast TerminatesLast
  split
  · exact decide_eq_true_iff
  · exact iff_of_true rfl trivial

instance (c : Config V S) : Decidable c.TerminatesLast :=
  decidable_of_iff (c.checksLast = true) c.checksLast_iff

/-- The subscriptions of `n` that were told a terminal message. -/
def toldIds (c : Config V S) (n : NodeId) : List Nat :=
  c.log.filterMap (Event.closedId n)

/-- The subscriptions of `n` that were told a terminal message or are about to
    be. -/
def closedIds (c : Config V S) (n : NodeId) : List Nat :=
  c.stack.flatMap (Frame.closing n) ++ c.toldIds n

/-- Terminated nodes have nothing left to say to the subscriptions that were
    told so. A subscription made afterwards gets a fresh id and its handshake. -/
structure TermInv (c : Config V S) : Prop where
  fresh : ∀ n, c.size ≤ n → (c.nodes n).live = false ∧ (c.nodes n).aux.subscribers = [] ∧
    (c.nodes n).aux.nextSubId = 0 ∧ c.closedIds n = []
  subsNodup : ∀ n, ((c.nodes n).aux.subscribers.map (·.id)).Nodup
  subsLt : ∀ n, ∀ e ∈ (c.nodes n).aux.subscribers, e.id < (c.nodes n).aux.nextSubId
  emitsLt : ∀ n m subs, .emit n m subs ∈ c.stack → ∀ e ∈ subs, e.id < (c.nodes n).aux.nextSubId
  closedLt : ∀ n, ∀ id ∈ c.closedIds n, id < (c.nodes n).aux.nextSubId
  closedNodup : ∀ n, (c.closedIds n).Nodup
  unclosed : ∀ n, (c.nodes n).value.terminal = false → c.closedIds n = []
  quiet : ∀ n, (c.nodes n).value.terminal = true → ∀ f ∈ c.stack, f.speaksFor n = true →
    ∃ m subs, f = .emit n m subs ∧ (m.isTerminal = true ∨ ∀ e ∈ subs, e.id ∉ c.closedIds n)
  sorted : ∀ f ∈ c.stack, f.Sorted
  silent : c.log.Pairwise Event.SilentAfter

/-- A node that is terminal keeps its value unless it is deactivated. -/
structure KeepsValue (c c' : Config V S) : Prop where
  size : c.size ≤ c'.size
  value : ∃ es, c'.log = es ++ c.log ∧ ∀ n, n < c.size → (c.nodes n).value.terminal = true →
    (c'.nodes n).value = (c.nodes n).value ∨ .deactivated n ∈ es

variable {c' : Config V S}

/-- The values stay, whatever happens to the stack. -/
theorem KeepsValue.of_value {c : Config V S} (es : List (Event V)) (hs : c.size ≤ c'.size)
    (hl : c'.log = es ++ c.log)
    (hv : ∀ n, n < c.size → (c.nodes n).value.terminal = true →
      (c'.nodes n).value = (c.nodes n).value) : KeepsValue c c' :=
  ⟨hs, es, hl, fun n hn ht => Or.inl (hv n hn ht)⟩

/-! ### Steps that deliver nothing themselves -/

/-- A new frame: it speaks only for nodes that have not terminated, emits
    nothing terminal, and keeps its messages in tier order. -/
structure FrameOk (c : Config V S) (f : Frame V) : Prop where
  speaks : ∀ n, f.speaksFor n = true → (c.nodes n).value.terminal = false
  emits : ∀ n m subs, f = .emit n m subs →
    m.isTerminal = false ∧ ∀ e ∈ subs, e ∈ (c.nodes n).aux.subscribers
  sorted : f.Sorted

/-- What a step does that delivers nothing itself. -/
structure Muted (c c' : Config V S) : Prop where
  size : c'.size = c.size
  live : ∀ n, (c'.nodes n).live = true → (c.nodes n).live = true
  subs : ∀ n, (c'.nodes n).aux.subscribers.Sublist (c.nodes n).aux.subscribers
  next : ∀ n, (c'.nodes n).aux.nextSubId = (c.nodes n).aux.nextSubId
  terminal : ∀ n, (c'.nodes n).value.terminal = (c.nodes n).value.terminal
  log : ∃ es, c'.log = es ++ c.log ∧ ∀ e ∈ es, e.isDelivery = false
  stack : ∃ fs, c'.stack = fs ++ c.stack ∧ ∀ f ∈ fs, c.FrameOk f

/-- A muted step that leaves the value of terminated nodes alone. -/
structure Hushed (c c' : Config V S) : Prop extends Muted c c' where
  value : ∀ n, (c.nodes n).value.terminal = true → (c'.nodes n).value = (c.nodes n).value

variable {f : Frame V}

theorem frameOk_of_isMute (c : Config V S) (h : f.isMute = true) :
    c.FrameOk f where
  speaks := by
    intro n hn
    rw [Frame.speaksFor_of_isMute h] at hn
    cases hn
  emits := by
    intro n m subs hf
    subst hf
    cases h
  sorted := by
    cases f <;> trivial

theorem Muted.toldIds {c : Config V S} (h : Muted c c') (n : NodeId) :
    c'.toldIds n = c.toldIds n := by
  rcases h.log with ⟨es, hes, he⟩
  have hnil : es.filterMap (Event.closedId n) = [] := by
    rw [filterMap_eq_nil_iff]
    intro e hm
    exact Event.closedId_of_not_isDelivery (he e hm) n
  rw [Config.toldIds, hes, filterMap_append, hnil, nil_append, Config.toldIds]

theorem FrameOk.closing {c : Config V S} (h : c.FrameOk f) (n : NodeId) :
    f.closing n = [] := by
  cases f with
  | emit m msg subs =>
    have hm := (h.emits m msg subs rfl).1
    simp only [Frame.closing, hm, Bool.false_eq_true, and_false, ↓reduceIte]
  | _ => rfl

theorem Muted.closedIds {c : Config V S} (h : Muted c c') (n : NodeId) :
    c'.closedIds n = c.closedIds n := by
  rcases h.stack with ⟨fs, hfs, hf⟩
  have hnil : fs.flatMap (Frame.closing n) = [] := by
    rw [flatMap_eq_nil_iff]
    intro f hm
    exact (hf f hm).closing n
  rw [Config.closedIds, Config.closedIds, h.toldIds, hfs, flatMap_append, hnil,
    nil_append]

theorem Muted.silent {c : Config V S} (h : Muted c c')
    (hs : c.log.Pairwise Event.SilentAfter) : c'.log.Pairwise Event.SilentAfter := by
  rcases h.log with ⟨es, hes, he⟩
  have hnot : ∀ e ∈ es, ∀ n id s m, e ≠ .delivered n id s m := by
    intro e hm n id s m heq
    have := he e hm
    rw [heq] at this
    cases this
  rw [hes, pairwise_append]
  refine ⟨?_, hs, ?_⟩
  · refine pairwise_of_forall_mem_list ?_
    intro e hm e' hm' n id s m s' m' _ hnew
    exact absurd hnew (hnot e hm n id s' m')
  · intro e hm e' _ n id s m s' m' _ hnew
    exact absurd hnew (hnot e hm n id s' m')

/-- What happened before to the stack does not matter, nor what was
    recorded. -/
theorem Hushed.keepsValue_of {c c₁ : Config V S} (h : Hushed c₁ c') (es : List (Event V))
    (hn : c₁.nodes = c.nodes) (hs : c₁.size = c.size) (hl : c₁.log = es ++ c.log) :
    KeepsValue c c' := by
  rcases h.log with ⟨es', hes', _⟩
  refine KeepsValue.of_value (es' ++ es) (Nat.le_of_eq (by rw [h.size, hs])) ?_ ?_
  · rw [hes', hl, append_assoc]
  · intro n _ ht
    rw [← hn] at ht ⊢
    exact h.value n ht

theorem Hushed.keepsValue {c : Config V S} (h : Hushed c c') : KeepsValue c c' :=
  h.keepsValue_of [] rfl rfl rfl

/-- A step that delivers nothing itself preserves the invariant. -/
theorem TermInv.muted {c : Config V S} (hinv : c.TermInv) (h : Muted c c') :
    c'.TermInv where
  fresh := by
    intro n hn
    rw [h.size] at hn
    have hfr := hinv.fresh n hn
    rw [h.next, h.closedIds]
    refine ⟨?_, ?_, hfr.2.2⟩
    · by_contra hl
      rw [Bool.not_eq_false] at hl
      rw [h.live n hl] at hfr
      cases hfr.1
    · have := h.subs n
      rw [hfr.2.1] at this
      exact sublist_nil.mp this
  subsNodup := fun n => (hinv.subsNodup n).sublist ((h.subs n).map _)
  subsLt := by
    intro n e he
    rw [h.next]
    exact hinv.subsLt n e ((h.subs n).subset he)
  emitsLt := by
    intro n m subs hmem e he
    rw [h.next]
    rcases h.stack with ⟨fs, hfs, hf⟩
    rw [hfs] at hmem
    rcases mem_append.mp hmem with hmem | hmem
    · exact hinv.subsLt n e (((hf _ hmem).emits n m subs rfl).2 e he)
    · exact hinv.emitsLt n m subs hmem e he
  closedLt := fun n => by
    rw [h.closedIds, h.next]
    exact hinv.closedLt n
  closedNodup := fun n => by
    rw [h.closedIds]
    exact hinv.closedNodup n
  unclosed := fun n hn => by
    rw [h.closedIds]
    exact hinv.unclosed n (by rwa [h.terminal] at hn)
  quiet := by
    intro n hn f hmem hsp
    rw [h.terminal] at hn
    rcases h.stack with ⟨fs, hfs, hf⟩
    rw [hfs] at hmem
    rcases mem_append.mp hmem with hmem | hmem
    · rw [(hf f hmem).speaks n hsp] at hn
      cases hn
    · simp only [h.closedIds]
      exact hinv.quiet n hn f hmem hsp
  sorted := by
    intro f hmem
    rcases h.stack with ⟨fs, hfs, hf⟩
    rw [hfs] at hmem
    rcases mem_append.mp hmem with hmem | hmem
    · exact (hf f hmem).sorted
    · exact hinv.sorted f hmem
  silent := h.silent hinv.silent

variable {rest : List (Frame V)}

/-- Dropping a frame, as every step does first, keeps the invariant: fewer
    frames speak and fewer subscriptions are about to be closed. -/
theorem TermInv.popTo {c : Config V S} (hinv : c.TermInv)
    (hs : c.stack = f :: rest) : (c.popTo rest).TermInv := by
  have hmem : ∀ g ∈ rest, g ∈ c.stack := by
    intro g hg
    rw [hs]
    exact mem_cons_of_mem f hg
  have hsub : ∀ n, ((c.popTo rest).closedIds n).Sublist (c.closedIds n) := by
    intro n
    unfold closedIds
    rw [hs, flatMap_cons, append_assoc]
    exact sublist_append_right _ _
  have hnil : ∀ n, c.closedIds n = [] → (c.popTo rest).closedIds n = [] := by
    intro n hn
    have := hsub n
    rw [hn] at this
    exact sublist_nil.mp this
  refine ⟨?_, hinv.subsNodup, hinv.subsLt, ?_, ?_, ?_, ?_, ?_, ?_, hinv.silent⟩
  · intro n hn
    have hfr := hinv.fresh n hn
    exact ⟨hfr.1, hfr.2.1, hfr.2.2.1, hnil n hfr.2.2.2⟩
  · intro n m subs hg
    exact hinv.emitsLt n m subs (hmem _ hg)
  · intro n id hid
    exact hinv.closedLt n id ((hsub n).subset hid)
  · intro n
    exact (hinv.closedNodup n).sublist (hsub n)
  · intro n hn
    exact hnil n (hinv.unclosed n hn)
  · intro n hn g hg hsp
    rcases hinv.quiet n hn g (hmem g hg) hsp with ⟨m, subs, heq, hcase⟩
    refine ⟨m, subs, heq, hcase.imp_right ?_⟩
    intro hno e he hid
    exact hno e he ((hsub n).subset hid)
  · intro g hg
    exact hinv.sorted g (hmem g hg)

variable {n : NodeId}

/-- A frame on the stack that speaks for a node and is no emission proves that
    the node has not terminated. -/
theorem TermInv.not_terminal {c : Config V S} (hinv : c.TermInv)
    (hf : f ∈ c.stack) (hsp : f.speaksFor n = true)
    (hne : ∀ m subs, f ≠ .emit n m subs) : (c.nodes n).value.terminal = false := by
  by_contra hn
  rw [Bool.not_eq_false] at hn
  rcases hinv.quiet n hn f hf hsp with ⟨m, subs, heq, _⟩
  exact hne m subs heq

/-! ### Functions that only start deliveries -/

/-- Values and subscribers stay, nothing is delivered and only mute frames are
    pushed. -/
structure Mute (c c' : Config V S) : Prop where
  size : c'.size = c.size
  nodes : ∀ n, (c'.nodes n).live = (c.nodes n).live ∧
    (c'.nodes n).value = (c.nodes n).value ∧
    (c'.nodes n).aux.subscribers = (c.nodes n).aux.subscribers ∧
    (c'.nodes n).aux.nextSubId = (c.nodes n).aux.nextSubId
  log : ∃ es, c'.log = es ++ c.log ∧ ∀ e ∈ es, e.isDelivery = false
  stack : ∃ fs, c'.stack = fs ++ c.stack ∧ ∀ f ∈ fs, f.isMute = true

theorem Mute.hushed {c : Config V S} (h : Mute c c') : Hushed c c' where
  size := h.size
  live := fun n hl => by rwa [(h.nodes n).1] at hl
  subs := fun n => by rw [(h.nodes n).2.2.1]
  next := fun n => (h.nodes n).2.2.2
  terminal := fun n => by rw [(h.nodes n).2.1]
  log := h.log
  stack := by
    rcases h.stack with ⟨fs, hfs, hf⟩
    exact ⟨fs, hfs, fun f hm => frameOk_of_isMute c (hf f hm)⟩
  value := fun n _ => (h.nodes n).2.1

theorem Footprint.mute {frames : Frame V → Bool} {c : Config V S}
    (h : Footprint Node.face frames Event.isSilent c c')
    (hframes : ∀ f, frames f = true → f.isMute = true) : Mute c c' where
  size := h.size
  nodes := fun n => by
    have hface := h.nodes n
    exact ⟨congrArg (·.1.2) hface, congrArg (·.2.1) hface, congrArg (·.2.2.1) hface,
      congrArg (·.2.2.2) hface⟩
  log := by
    rcases h.log with ⟨es, hes, he⟩
    refine ⟨es, hes, ?_⟩
    intro e hm
    have := he e hm
    rw [Event.isSilent, Bool.and_eq_true, Bool.not_eq_true', Bool.not_eq_true'] at this
    exact this.2
  stack := by
    rcases h.stack with ⟨fs, hfs, hf⟩
    exact ⟨fs, hfs, fun f hm => hframes f (hf f hm)⟩

theorem Silent.mute {c : Config V S} (h : Silent c c') : Mute c c' :=
  Footprint.mute h fun _ => Frame.isMute_of_isSilent

theorem Silent.hushed {c : Config V S} (h : Silent c c') : Hushed c c' :=
  h.mute.hushed

namespace Hushed

variable (c : Config V S)

theorem refl : Hushed c c :=
  Silent.hushed (Footprint.refl c)

/-- One slot changes, keeping its liveness, subscribers and terminal flag, and
    its value once it is terminal; then frames are pushed. -/
theorem setNode_push (n : NodeId) (x : Node V S) (fs : List (Frame V))
    (hl : x.live = (c.nodes n).live) (hs : x.aux.subscribers = (c.nodes n).aux.subscribers)
    (hi : x.aux.nextSubId = (c.nodes n).aux.nextSubId)
    (ht : x.value.terminal = (c.nodes n).value.terminal)
    (hv : (c.nodes n).value.terminal = true → x.value = (c.nodes n).value)
    (hf : ∀ f ∈ fs, c.FrameOk f) : Hushed c ((c.setNode n x).push fs) := by
  have hpick : ∀ {τ : Type} (g : Node V S → τ), g x = g (c.nodes n) →
      ∀ m, g (((c.setNode n x).push fs).nodes m) = g (c.nodes m) := by
    intro τ g hg m
    by_cases hm : m = n
    · subst hm
      simp only [Config.push, Config.setNode, Function.update_self, hg]
    · simp only [Config.push, Config.setNode, Function.update_of_ne hm]
  refine ⟨⟨rfl, fun m hm => ?_, fun m => ?_, hpick (·.aux.nextSubId) hi,
    hpick (·.value.terminal) ht, ⟨[], rfl, fun _ he => absurd he not_mem_nil⟩,
    ⟨fs, rfl, hf⟩⟩, ?_⟩
  · rw [← hpick Node.live hl m]
    exact hm
  · rw [hpick (·.aux.subscribers) hs m]
  intro m hm
  by_cases hmn : m = n
  · subst hmn
    simp only [Config.push, Config.setNode, Function.update_self, hv hm]
  · simp only [Config.push, Config.setNode, Function.update_of_ne hmn]

theorem push (fs : List (Frame V)) (hf : ∀ f ∈ fs, c.FrameOk f) : Hushed c (c.push fs) :=
  ⟨⟨rfl, fun _ h => h, fun _ => List.Sublist.refl _, fun _ => rfl, fun _ => rfl,
    ⟨[], rfl, fun _ he => absurd he not_mem_nil⟩, ⟨fs, rfl, hf⟩⟩, fun _ _ => rfl⟩

theorem trans {c c'' : Config V S} (h : Hushed c c') (h' : Hushed c' c'') : Hushed c c'' where
  size := h'.size.trans h.size
  live := fun n hn => h.live n (h'.live n hn)
  subs := fun n => (h'.subs n).trans (h.subs n)
  next := fun n => (h'.next n).trans (h.next n)
  terminal := fun n => (h'.terminal n).trans (h.terminal n)
  value := fun n hn => (h'.value n (by rw [h.terminal, hn])).trans (h.value n hn)
  log := by
    rcases h.log with ⟨es, hes, he⟩
    rcases h'.log with ⟨es', hes', he'⟩
    refine ⟨es' ++ es, by rw [hes', hes, append_assoc], ?_⟩
    intro e hm
    rcases mem_append.mp hm with hm | hm
    · exact he' e hm
    · exact he e hm
  stack := by
    rcases h.stack with ⟨fs, hfs, hf⟩
    rcases h'.stack with ⟨fs', hfs', hf'⟩
    refine ⟨fs' ++ fs, by rw [hfs', hfs, append_assoc], ?_⟩
    intro f hm
    rcases mem_append.mp hm with hm | hm
    · have hok := hf' f hm
      refine ⟨fun n hn => by rw [← h.terminal]; exact hok.speaks n hn, ?_, hok.sorted⟩
      intro n m subs heq
      refine ⟨(hok.emits n m subs heq).1, ?_⟩
      intro e he
      exact (h.subs n).subset ((hok.emits n m subs heq).2 e he)
    · exact hf f hm

end Hushed

variable {m : Message V} {subs : List SubscriberEntry}

/-- An emission to subscribers of a node that has not terminated. -/
theorem frameOk_emit {c : Config V S} (hm : m.isTerminal = false)
    (hn : m.isSpoken = true → (c.nodes n).value.terminal = false)
    (hs : ∀ e ∈ subs, e ∈ (c.nodes n).aux.subscribers) : c.FrameOk (.emit n m subs) where
  speaks := by
    intro k hk
    simp only [Frame.speaksFor, Bool.and_eq_true, beq_iff_eq] at hk
    rw [← hk.1.1]
    exact hn hk.1.2
  emits := by
    intro k m' subs' heq
    cases heq
    exact ⟨hm, hs⟩
  sorted := trivial

/-- A frame that speaks for one node only, which has not terminated. -/
theorem frameOk_of_node {c : Config V S}
    (hn : (c.nodes n).value.terminal = false) (hsp : ∀ k, f.speaksFor k = true → k = n)
    (hne : ∀ k m subs, f ≠ .emit k m subs) (hs : f.Sorted) : c.FrameOk f where
  speaks := by
    intro k hk
    rw [hsp k hk]
    exact hn
  emits := fun k m subs heq => absurd heq (hne k m subs)
  sorted := hs

theorem frameOk_emitToSubs {c : Config V S} (hm : m.isTerminal = false)
    (hn : m.isSpoken = true → (c.nodes n).value.terminal = false) :
    c.FrameOk (.emitToSubs n m) where
  speaks := by
    intro k hk
    simp only [Frame.speaksFor, Bool.and_eq_true, beq_iff_eq] at hk
    rw [← hk.1]
    exact hn hk.2
  emits := fun k m subs heq => by cases heq
  sorted := hm

theorem frameOk_hook (c : Config V S) (h : HookId) :
    c.FrameOk (.user (.hook h) 0) :=
  frameOk_of_isMute c rfl

namespace Hushed

variable {c : Config V S}

section

variable (n : NodeId)

theorem emitToSubs (m : Message V) (hm : m.isTerminal = false)
    (hn : m.isSpoken = true → (c.nodes n).value.terminal = false) :
    Hushed c (c.emitToSubs n m) := by
  refine push c _ ?_
  intro f hf
  rw [mem_singleton.mp hf]
  exact frameOk_emit hm hn (fun e he => he)

/-- A node that has not terminated is marked dirty and its subscribers told. -/
theorem dirtied (hn : (c.nodes n).value.terminal = false)
    (subs : List SubscriberEntry) (hs : ∀ e ∈ subs, e ∈ (c.nodes n).aux.subscribers) :
    Hushed c ((c.setNode n { c.nodes n with
      wave := { (c.nodes n).wave with emittedDirtyThisWave := true }
      value := { (c.nodes n).value with status := .dirty } }).push [.emit n .dirty subs]) := by
  refine setNode_push c n _ _ rfl rfl rfl rfl ?_ ?_
  · intro ht
    rw [hn] at ht
    cases ht
  · intro f hf
    rw [mem_singleton.mp hf]
    exact frameOk_emit rfl (fun _ => hn) hs

theorem emitDirtyOnce (hn : (c.nodes n).value.terminal = false) :
    Hushed c (c.emitDirtyOnce n) := by
  unfold Config.emitDirtyOnce
  dsimp only
  split_ifs
  · exact refl c
  · exact dirtied n hn _ (fun e he => he)

theorem markDirty (hn : (c.nodes n).value.terminal = false) :
    Hushed c (c.markDirty n) := by
  unfold Config.markDirty
  dsimp only
  split_ifs
  · refine setNode_push c n _ [] rfl rfl rfl rfl ?_ (fun f hf => absurd hf not_mem_nil)
    intro ht
    rw [hn] at ht
    cases ht
  · exact dirtied n hn _ (fun e he => he)

/-- The emission of a wave in tier order by a node that has not terminated. -/
theorem downEmit (inside : Bool) (wave : Wave V) (hn : (c.nodes n).value.terminal = false)
    (hs : wave.Pairwise fun a b => a.tier.asU8 ≤ b.tier.asU8) :
    Hushed c (c.downEmit n inside wave) := by
  have hscope : c.FrameOk (.deliveryScope n wave) := by
    refine frameOk_of_node hn ?_ (fun k m subs heq => by cases heq) hs
    intro k hk
    simp only [Frame.speaksFor, Bool.and_eq_true, beq_iff_eq] at hk
    exact hk.1.symm
  have hdirty : c.FrameOk (.emitDirtyOnce n : Frame V) := by
    refine frameOk_of_node hn ?_ (fun k m subs heq => by cases heq) trivial
    intro k hk
    simp only [Frame.speaksFor, beq_iff_eq] at hk
    exact hk.symm
  have hend : c.FrameOk (.downEnd n inside : Frame V) := frameOk_of_isMute c rfl
  unfold Config.downEmit
  dsimp only
  split_ifs
  · exact Silent.hushed ((Footprint.refl c).panic _)
  · refine push c _ ?_
    intro f hf
    simp only [cons_append, nil_append, mem_cons, not_mem_nil, or_false] at hf
    rcases hf with rfl | rfl | rfl
    · exact hdirty
    · exact hscope
    · exact hend
  · refine push c _ ?_
    intro f hf
    simp only [nil_append, mem_cons, not_mem_nil, or_false] at hf
    rcases hf with rfl | rfl
    · exact hscope
    · exact hend

theorem downUnbatched (inside : Bool) (wave : Wave V) (hn : (c.nodes n).value.terminal = false)
    (hs : wave.Pairwise fun a b => a.tier.asU8 ≤ b.tier.asU8) :
    Hushed c (c.downUnbatched n inside wave) := by
  have hrest : (wave.filter (!·.tier.isPauseBuffered)).Pairwise
      fun a b => a.tier.asU8 ≤ b.tier.asU8 := hs.sublist filter_sublist
  unfold Config.downUnbatched
  dsimp only
  split_ifs
  · exact refl c
  · exact setNode_push c n _ [] rfl rfl rfl rfl (fun _ => rfl)
      (fun f hf => absurd hf not_mem_nil)
  · exact downEmit n inside _ hn hrest
  · refine trans ?_ (downEmit n inside _ ?_ hrest)
    · exact setNode_push c n _ [] rfl rfl rfl rfl (fun _ => rfl)
        (fun f hf => absurd hf not_mem_nil)
    · simp only [Config.setNode, Function.update_self, hn]
  · exact downEmit n inside wave hn hs

theorem down (msgs : Wave V) : Hushed c (c.down n msgs) := by
  have hreg : Silent c (c.waveRegister n) := (Inert.waveRegister c n).silent
  have hsorted := collapse_sort_sorted msgs
  cases hn : (c.nodes n).value.terminal with
  | true =>
    have hsame : c.down n msgs = c := by
      simp only [Config.down, hn, ↓reduceIte]
    rw [hsame]
    exact refl c
  | false =>
    have hn1 : ((c.waveRegister n).nodes n).value.terminal = false := by
      rw [hreg.hushed.terminal, hn]
    unfold Config.down
    dsimp only
    split_ifs
    · exact refl c
    · -- The held slice waits in the batch; only the announcing DIRTY goes out.
      have hd : Silent c ((c.waveRegister n).deferToBatch n ((collapseInvalidate
          (sortByTier msgs)).filter (·.tier.isBatchDeferred))) :=
        hreg.trans (Inert.deferToBatch _ n _).silent
      refine hd.hushed.trans (push _ _ ?_)
      intro f hf
      simp only [mem_cons, not_mem_nil, or_false] at hf
      rcases hf with rfl | rfl
      · refine frameOk_of_node (n := n) ?_ ?_ (fun k m subs heq => by cases heq) trivial
        · rw [hd.hushed.terminal, hn]
        · intro k hk
          simp only [Frame.speaksFor, beq_iff_eq] at hk
          exact hk.symm
      · exact frameOk_of_isMute _ rfl
    · exact hreg.hushed
    · exact hreg.hushed.trans
        (downUnbatched n _ _ hn1 (hsorted.sublist filter_sublist))
    · exact hreg.hushed.trans (downUnbatched n _ _ hn1 hsorted)

theorem deliveryScope (msgs : Wave V)
    (hn : msgs.any (·.isPassing) = true → (c.nodes n).value.terminal = false)
    (hs : msgs.Pairwise fun a b => a.tier.asU8 ≤ b.tier.asU8) :
    Hushed c (c.deliveryScope n msgs) := by
  have hid : Silent c { c with
      currentDeliveryId := c.nextDeliveryId
      nextDeliveryId := max 1 ((c.nextDeliveryId + 1) % 2 ^ 64)
      depth := c.depth + 1 } := Footprint.of_eq rfl rfl rfl rfl rfl rfl rfl rfl
  refine hid.hushed.trans (push _ _ ?_)
  intro f hf
  simp only [mem_cons, not_mem_nil, or_false] at hf
  rcases hf with rfl | rfl
  · refine ⟨?_, fun k m subs heq => by (cases heq), hs⟩
    intro k hk
    simp only [Frame.speaksFor, Bool.and_eq_true, beq_iff_eq] at hk
    rw [← hk.1]
    exact hn hk.2
  · exact frameOk_of_isMute _ rfl

theorem invalidate (hn : (c.nodes n).value.terminal = false) :
    Hushed c (c.invalidate n) := by
  unfold Config.invalidate
  dsimp only
  split_ifs
  · refine setNode_push c n _ _ rfl rfl rfl rfl ?_ ?_
    · intro ht
      rw [hn] at ht
      cases ht
    · intro f hf
      rcases mem_append.mp hf with hf | hf
      · rcases mem_map.mp hf with ⟨h, _, rfl⟩
        exact frameOk_hook c h
      · rw [mem_singleton.mp hf]
        exact frameOk_emitToSubs rfl (fun _ => hn)
  · exact refl c

/-- The frames of a receive action on a node that has not terminated. -/
theorem frameOk_receive (a : ReceiveAction V) (n : NodeId)
    (hn : (c.nodes n).value.terminal = false) : ∀ f ∈ a.frames n, c.FrameOk f := by
  intro f hf
  rcases mem_frames a n f hf with rfl | rfl | rfl | rfl | rfl | rfl | rfl | rfl | ⟨msgs, _, rfl⟩ |
    rfl | rfl
  · exact frameOk_emitToSubs rfl (fun _ => hn)
  · exact frameOk_emitToSubs rfl (fun _ => hn)
  · exact frameOk_of_isMute c rfl
  · refine frameOk_of_node hn ?_ (fun k m subs heq => by cases heq) trivial
    intro k hk
    simp only [Frame.speaksFor, beq_iff_eq] at hk
    exact hk.symm
  all_goals exact frameOk_of_isMute c rfl

theorem receiveFromDep (i : Nat) (m : Message V) :
    Hushed c (c.receiveFromDep n i m) := by
  have hreg : Silent c (c.waveRegister n) := (Inert.waveRegister c n).silent
  unfold Config.receiveFromDep
  dsimp only
  split_ifs
  · exact hreg.hushed.trans (Silent.hushed ((Footprint.refl _).panic _))
  · refine hreg.hushed.trans ?_
    have hports := ((c.waveRegister n).nodes n).receive_ports
      (c.waveRegister n).currentDeliveryId (c.waveRegister n).deliveryInFlight i m
    refine setNode_push _ n _ _ (congrArg (·.1.2) hports) (congrArg (·.2.1) hports)
      (congrArg (·.2.2.1) hports) (congrArg (·.2.2.2) hports) ?_ ?_
    · intro ht
      rcases Node.receive_of_terminal _ ht _ _ i m with h | h <;> rw [h]
    · cases ht : ((c.waveRegister n).nodes n).value.terminal with
      | false => exact frameOk_receive _ n ht
      | true =>
        intro f hf
        rcases Node.receive_of_terminal _ ht _ _ i m with h | h <;> rw [h] at hf
        · simp [ReceiveAction.frames] at hf
        · rw [show f = .emitToSubs n .teardown by simpa [ReceiveAction.frames] using hf]
          refine frameOk_emitToSubs rfl ?_
          intro hsp
          cases hsp
  · exact refl c

theorem settleRewire (hn : (c.nodes n).value.terminal = false) :
    Hushed c (c.settleRewire n) := by
  unfold Config.settleRewire
  dsimp only
  split_ifs
  · exact setNode_push c n _ [] rfl rfl rfl rfl (fun _ => rfl)
      (fun f hf => absurd hf not_mem_nil)
  · exact refl c
  · refine push c _ ?_
    intro f hf
    rw [mem_singleton.mp hf]
    exact frameOk_of_isMute c rfl
  · refine push c _ ?_
    intro f hf
    simp only [mem_cons, not_mem_nil, or_false] at hf
    rcases hf with rfl | rfl
    · refine frameOk_of_node hn ?_ (fun k m subs heq => by cases heq) trivial
      intro k hk
      simp only [Frame.speaksFor, beq_iff_eq] at hk
      exact hk.symm
    · exact frameOk_of_isMute c rfl
  · exact refl c

theorem rewireFinish (newDeps : List NodeId) (removedDirty : Bool) :
    Hushed c (c.rewireFinish n newDeps removedDirty) := by
  cases hn : (c.nodes n).value.terminal with
  | true =>
    have hsame : c.rewireFinish n newDeps removedDirty = c := by
      simp only [Config.rewireFinish, hn, ↓reduceIte]
    rw [hsame]
    exact refl c
  | false =>
    have hnone : ∀ f ∈ ([] : List (Frame V)), c.FrameOk f :=
      fun f hf => absurd hf not_mem_nil
    have hnot : ∀ {p : Prop}, (c.nodes n).value.terminal = true → p := by
      intro p ht
      rw [hn] at ht
      cases ht
    unfold Config.rewireFinish
    dsimp only
    split_ifs
    · exact refl c
    · refine setNode_push c n _ _ rfl rfl rfl rfl (fun _ => rfl) ?_
      intro f hf
      rw [mem_singleton.mp hf]
      refine frameOk_of_node hn ?_ (fun k m subs heq => by cases heq) trivial
      intro k hk
      simp only [Frame.speaksFor, beq_iff_eq] at hk
      exact hk.symm
    · refine setNode_push c n _ _ rfl rfl rfl rfl (fun _ => rfl) ?_
      intro f hf
      rw [mem_singleton.mp hf]
      exact frameOk_of_isMute c rfl
    · exact setNode_push c n _ [] rfl rfl rfl rfl hnot hnone
    · exact setNode_push c n _ [] rfl rfl rfl rfl hnot hnone
    · exact setNode_push c n _ [] rfl rfl rfl rfl (fun _ => rfl) hnone

end

end Hushed

namespace Mute

variable {c : Config V S}

variable {c' : Config V S}

/-- The slots are untouched. -/
theorem same (fs : List (Frame V)) (es : List (Event V))
    (hsize : c'.size = c.size) (hnodes : c'.nodes = c.nodes)
    (hlog : c'.log = es ++ c.log) (hes : ∀ e ∈ es, e.isDelivery = false)
    (hstack : c'.stack = fs ++ c.stack) (hfs : ∀ f ∈ fs, f.isMute = true) : Mute c c' :=
  ⟨hsize, fun n => by rw [hnodes]; exact ⟨rfl, rfl, rfl, rfl⟩, ⟨es, hlog, hes⟩, fs, hstack, hfs⟩

theorem refl (c : Config V S) : Mute c c :=
  Silent.mute (Footprint.refl c)

theorem trans {c'' : Config V S} (h : Mute c c') (h' : Mute c' c'') : Mute c c'' where
  size := h'.size.trans h.size
  nodes := fun n =>
    ⟨(h'.nodes n).1.trans (h.nodes n).1, (h'.nodes n).2.1.trans (h.nodes n).2.1,
      (h'.nodes n).2.2.1.trans (h.nodes n).2.2.1, (h'.nodes n).2.2.2.trans (h.nodes n).2.2.2⟩
  log := by
    rcases h.log with ⟨es, hes, he⟩
    rcases h'.log with ⟨es', hes', he'⟩
    refine ⟨es' ++ es, by rw [hes', hes, append_assoc], ?_⟩
    exact fun e hm => (mem_append.mp hm).elim (he' e) (he e)
  stack := by
    rcases h.stack with ⟨fs, hfs, hf⟩
    rcases h'.stack with ⟨fs', hfs', hf'⟩
    refine ⟨fs' ++ fs, by rw [hfs', hfs, append_assoc], ?_⟩
    exact fun f hm => (mem_append.mp hm).elim (hf' f) (hf f)

section

variable (n : NodeId)

theorem deferBoundary (kind : TaskKind V) (token : Option Nat) :
    Mute c (c.deferBoundary n kind token) := by
  refine (Inert.registerBoundaryRoot c).silent.mute.trans ?_
  exact same [] [.enqueued c.registerBoundaryRoot.nextSeq n] rfl rfl rfl
    (by simp [Event.isDelivery])
    rfl (by simp)

theorem externalRewire (req : RewireRequest) :
    Mute c (c.externalRewire n req) := by
  unfold Config.externalRewire
  split
  · exact deferBoundary n _ _
  · exact same _ [] rfl rfl rfl (by simp) rfl (by simp [Frame.isMute])

theorem withWaveOwner (body : List (Frame V)) (hbody : ∀ f ∈ body, f.isMute = true) :
    Mute c (c.withWaveOwner n body) := by
  unfold Config.withWaveOwner
  split_ifs
  · exact same body [] rfl rfl rfl (by simp) rfl hbody
  · refine same (body ++ [.waveExit n]) [] rfl rfl rfl (by simp) rfl ?_
    intro f hf
    rcases mem_append.mp hf with hf | hf
    · exact hbody f hf
    · rw [mem_singleton.mp hf]
      rfl

theorem rewireInner (newDeps : List NodeId) (f : FnId) (allow : Bool) :
    Mute c (c.rewireInner n newDeps f allow) := by
  unfold Config.rewireInner
  dsimp only
  split
  · exact deferBoundary n _ _
  · split
    · exact Silent.mute ((Footprint.refl c).panic _)
    · exact withWaveOwner n _ (by simp [Frame.isMute])

/-- One slot changes outside its value and subscribers. -/
theorem setNode_mute (c : Config V S) (n : NodeId) (x : Node V S) (boxes : BoxId → Option Nat)
    (fs : List (Frame V)) (hl : x.live = (c.nodes n).live) (hv : x.value = (c.nodes n).value)
    (ha : x.aux = (c.nodes n).aux) (hfs : ∀ f ∈ fs, f.isMute = true) :
    Mute c (({ c.setNode n x with boxes := boxes } : Config V S).push fs) := by
  refine ⟨rfl, ?_, ⟨[], rfl, by simp⟩, ⟨fs, rfl, hfs⟩⟩
  intro m
  by_cases hm : m = n
  · subst hm
    simp only [Config.push, Config.setNode, Function.update_self, hl, hv, ha, and_self]
  · simp only [Config.push, Config.setNode, Function.update_of_ne hm, and_self]

theorem rewireApply (newDeps : List NodeId) (f : FnId) :
    Mute c (c.rewireApply n newDeps f) := by
  unfold Config.rewireApply
  dsimp only
  split_ifs
  · exact setNode_mute c n _ c.boxes [] rfl rfl rfl (by simp)
  · exact setNode_mute c n _ c.boxes _ rfl rfl rfl (by simp [Frame.isMute])

theorem rewireRemove (oldDeps newDeps : List NodeId) (activated : Bool)
    (removed : List Nat) (removedDirty : Bool) :
    Mute c (c.rewireRemove n oldDeps newDeps activated removed removedDirty) := by
  cases removed with
  | nil => exact same _ [] rfl rfl rfl (by simp) rfl (by simp [Frame.isMute])
  | cons i rest =>
    refine setNode_mute c n _ _ _ rfl rfl rfl ?_
    intro f hf
    rcases mem_append.mp hf with hf | hf
    · split at hf
      · rw [mem_singleton.mp hf]
        rfl
      · exact absurd hf not_mem_nil
    · rw [mem_singleton.mp hf]
      rfl

theorem rewireAssign (oldDeps newDeps : List NodeId) (activated removedDirty : Bool) :
    Mute c (c.rewireAssign n oldDeps newDeps activated removedDirty) := by
  refine setNode_mute c n _ _ _ rfl rfl rfl ?_
  intro f hf
  rcases mem_append.mp hf with hf | hf
  · split at hf
    · rcases mem_map.mp hf with ⟨p, _, rfl⟩
      rfl
    · exact absurd hf not_mem_nil
  · simp only [mem_cons, not_mem_nil, or_false] at hf
    rcases hf with rfl | rfl <;> rfl

end

theorem drainFinish (escaped : Option Payload) : Mute c (c.drainFinish escaped) := by
  unfold Config.drainFinish
  dsimp only
  split <;> exact same [] [] rfl rfl rfl (by simp) rfl (by simp)

theorem drainBoundary (c : Config V S) : Mute c c.drainBoundary := by
  unfold Config.drainBoundary
  split_ifs
  · exact refl c
  · exact same [.drainLoop 0 none] [] rfl rfl rfl (by simp) rfl (by simp [Frame.isMute])

theorem taskFrames_isMute (c : Config V S) (t : BoundaryTask V) :
    ∀ f ∈ c.taskFrames t, f.isMute = true := by
  intro f hf
  cases taskFrames_forms hf <;> rfl

theorem drainLoop (blocked : Nat) (escaped : Option Payload) :
    Mute c (c.drainLoop blocked escaped) := by
  unfold Config.drainLoop
  split
  · exact drainFinish escaped
  · rename_i t ts _
    dsimp only
    split_ifs
    · exact same [.drainLoop 0 escaped] [] rfl rfl rfl (by simp) rfl
        (by simp [Frame.isMute])
    · refine Mute.trans ?_ (drainFinish escaped)
      exact same [] [] rfl rfl rfl (by simp) rfl (by simp)
    · exact same [.drainLoop (blocked + 1) escaped] [] rfl rfl rfl (by simp) rfl
        (by simp [Frame.isMute])
    · refine same _ [.applied t.seq t.target] rfl rfl rfl
        (by simp [Event.isDelivery]) rfl ?_
      intro f hf
      rcases mem_append.mp hf with hf | hf
      · exact taskFrames_isMute _ t f hf
      · rw [mem_singleton.mp hf]
        rfl

theorem closeUncommitted (roots : Bool) : Mute c (c.closeUncommitted roots) := by
  unfold Config.closeUncommitted
  dsimp only
  split_ifs <;> exact same [] [] rfl rfl rfl (by simp) rfl (by simp)

theorem rollbackDone (roots : Bool) (payload : Option Payload) :
    Mute c (c.rollbackDone roots payload) := by
  refine (closeUncommitted roots).trans ?_
  unfold Config.rollbackDone
  dsimp only
  split
  · exact same [] [] rfl rfl rfl (by simp) rfl (by simp)
  · exact refl _

/-- The user operations that neither allocate nor drop a node. -/
theorem perform (cb : Callback V) (o : UserOp V S) (hnew : ∀ spec, o ≠ .newNode spec)
    (hdrop : ∀ n, o ≠ .drop n) : Mute c (c.perform cb o) := by
  cases perform_cases c cb o with
  | inert h => exact h.silent.mute
  | created spec ho _ => exact absurd ho (hnew spec)
  | dropped n ho _ => exact absurd ho (hdrop n)
  | rewired n req _ _ h =>
    rw [h]
    exact same [.externalRewire n req] [] rfl rfl rfl (by simp) rfl (by simp [Frame.isMute])
  | deferred n kind _ h =>
    rw [h]
    exact deferBoundary n kind _

end Mute

theorem enter_mute (env : Env V S) (c : Config V S) (f : Frame V) (h : f.entersMute = true) :
    Mute c (c.enter env f) := by
  cases hsil : f.entersSilent with
  | true => exact (enter_silent env c f hsil).mute
  | false =>
    cases f with
    | externalRewire n req => exact .externalRewire n req
    | rewireInner n newDeps f allow => exact .rewireInner n newDeps f allow
    | rewireApply n newDeps f => exact .rewireApply n newDeps f
    | rewireRemove n oldDeps newDeps act removed dirty =>
      exact .rewireRemove n oldDeps newDeps act removed dirty
    | rewireAssign n oldDeps newDeps act dirty => exact .rewireAssign n oldDeps newDeps act dirty
    | drainBoundary => exact .drainBoundary c
    | drainLoop blocked escaped => exact .drainLoop blocked escaped
    | taskCatch escaped =>
      exact .same [.drainLoop 0 escaped] [] rfl rfl rfl (by simp) rfl (by simp [Frame.isMute])
    | activateIfNeeded n =>
      refine (Silent.activateIfNeeded_footprint c n).mute ?_
      intro g hg
      cases g <;> first | rfl | cases hg
    | subscribeDep n i d =>
      exact .same [_, _] [] rfl rfl rfl (by simp) rfl (by simp [Frame.isMute])
    | rollbackDone roots payload => exact .rollbackDone roots payload
    | _ => cases hsil.symm.trans h

/-- A payload that passes a frame pushes mute frames only. -/
theorem unwind_mute (env : Env V S) (c : Config V S) (p : Payload) (f : Frame V) :
    Mute c (c.unwind env p f) := by
  rcases unwind_cases env c p f with h | ⟨rfl, n, rfl⟩ | ⟨escaped, rfl⟩ | ⟨roots, h⟩
  · exact h.mute
  · -- A host abort leaves the wave: its nodes are reset and the queue cleared.
    refine ⟨rfl, ?_, ⟨[], rfl, by simp⟩, ⟨[], rfl, by simp⟩⟩
    intro m
    simp only [unwind, waveCaught, resetTouched, Config.throw]
    split_ifs <;> exact ⟨rfl, rfl, rfl, rfl⟩
  · simp only [unwind]
    split
    · exact .same [] [] rfl rfl rfl (by simp) rfl (by simp)
    · exact .same [_] [] rfl rfl rfl (by simp) rfl (by simp [Frame.isMute])
  · rw [h]
    exact .closeUncommitted roots

namespace Hushed

variable {c : Config V S}

/-- A turn of the message loop that does not terminate the node. -/
theorem downLoop (n : NodeId) (m : Message V) (msgs : Wave V)
    (hm : m.isTerminal = true → (c.nodes n).value.terminal = true)
    (hp : m.isPassing = true → (c.nodes n).value.terminal = false)
    (hloop : c.FrameOk (.downLoop n msgs)) : Hushed c (c.downLoop n (m :: msgs)) := by
  have hports := (c.nodes n).collectDown_ports m hm
  have hvalue : (c.nodes n).value.terminal = true →
      ((c.nodes n).collectDown m).1.value = (c.nodes n).value := by
    intro ht
    refine (c.nodes n).collectDown_value m ht ?_
    cases hpass : m.isPassing with
    | false => rfl
    | true =>
      rw [hp hpass] at ht
      cases ht
  have hpush : ∀ fs : List (Frame V), (∀ f ∈ fs, c.FrameOk f) →
      Hushed c ((c.setNode n ((c.nodes n).collectDown m).1).push fs) :=
    fun fs hfs => setNode_push c n _ fs (congrArg (·.1.2) hports) (congrArg (·.2.1) hports)
      (congrArg (·.2.2.1) hports) (congrArg (·.2.2.2) hports) hvalue hfs
  unfold Config.downLoop
  dsimp only
  split
  · refine hpush _ ?_
    intro f hf
    rw [mem_singleton.mp hf]
    exact hloop
  · rename_i he
    have hnt := (c.nodes n).collectDown_emit m hm he
    refine hpush _ ?_
    intro f hf
    simp only [mem_cons, not_mem_nil, or_false] at hf
    rcases hf with rfl | rfl
    · refine frameOk_emit hnt ?_ ?_
      · intro hsp
        exact hp (by rw [Message.isPassing, hsp, hnt]; rfl)
      · intro e he
        have hsubs : ((c.nodes n).collectDown m).1.aux.subscribers =
            (c.nodes n).aux.subscribers := congrArg (·.2.1) hports
        rwa [hsubs] at he
    · exact hloop
  · rename_i hooks he
    have hinv : m.isPassing = true := by
      unfold Node.collectDown at he
      cases m with
      | dirty | complete | error _ => dsimp only at he; split_ifs at he
      | invalidate => rfl
      | _ => cases he
    refine hpush _ ?_
    intro f hf
    rcases mem_append.mp hf with hf | hf
    · rcases mem_map.mp hf with ⟨h, _, rfl⟩
      exact frameOk_hook c h
    · simp only [mem_cons, not_mem_nil, or_false] at hf
      rcases hf with rfl | rfl
      · exact frameOk_emitToSubs rfl (fun _ => hp hinv)
      · exact hloop

/-- Detaching only shortens a subscriber list. -/
theorem unsubscribe (n : NodeId) (id : Nat) : Hushed c (c.unsubscribe n id) := by
  have hkeep : ∀ fs : List (Frame V), (∀ f ∈ fs, f.isMute = true) →
      Hushed c ((c.setNode n { c.nodes n with aux := { (c.nodes n).aux with
        subscribers := (c.nodes n).aux.subscribers.filter (·.id ≠ id) } }).push fs) := by
    intro fs hfs
    refine ⟨⟨rfl, ?_, ?_, ?_, ?_, ⟨[], rfl, by simp⟩,
      ⟨fs, rfl, fun f hf => frameOk_of_isMute c (hfs f hf)⟩⟩, ?_⟩
    all_goals
      intro m
      by_cases hm : m = n
      · subst hm
        simp [Config.push, Config.setNode]
      · simp [Config.push, Config.setNode, Function.update_of_ne hm]
  unfold Config.unsubscribe
  dsimp only
  split_ifs
  · exact hkeep [.deactivate n] (by simp [Frame.isMute])
  · exact hkeep [] (by simp)
  · exact refl c

theorem unsubFrames_isMute (x : Node V S) : ∀ f ∈ unsubFrames x, f.isMute = true := by
  intro f hf
  exact Frame.isMute_of_isSilent (Silent.unsubFrames x f hf)

theorem hookFrames_isMute (hooks : List HookId) :
    ∀ f ∈ (hookFrames hooks : List (Frame V)), f.isMute = true := by
  intro f hf
  exact Frame.isMute_of_isSilent (Silent.hookFrames hooks f hf)

theorem dropNode (n : NodeId) (onStack : Bool) : Hushed c (c.dropNode n onStack) := by
  unfold Config.dropNode
  dsimp only
  split_ifs
  · refine ⟨⟨rfl, ?_, ?_, ?_, ?_, ⟨[], rfl, by simp⟩, ⟨_, rfl, ?_⟩⟩, ?_⟩
    case refine_5 =>
      intro f hf
      refine frameOk_of_isMute c ?_
      rcases mem_append.mp hf with hf | hf
      · exact unsubFrames_isMute _ f hf
      · exact hookFrames_isMute _ f hf
    all_goals
      intro m
      by_cases hm : m = n
      · subst hm
        simp [Config.push, Config.setNode]
      · simp [Config.push, Config.setNode, Function.update_of_ne hm]
  · exact refl c

end Hushed

/-- Deactivation may clear the cache of a terminated node, and says so. -/
theorem deactivate_muted (c : Config V S) (n : NodeId) : Muted c (c.deactivate n) := by
  have hflag : (c.nodes n).deactivated.value.terminal = (c.nodes n).value.terminal := by
    unfold Node.deactivated
    dsimp only
    split_ifs <;> rfl
  have hnode : ∀ m, ((c.deactivate n).nodes m).live = (c.nodes m).live ∧
      ((c.deactivate n).nodes m).aux.subscribers = (c.nodes m).aux.subscribers ∧
      ((c.deactivate n).nodes m).aux.nextSubId = (c.nodes m).aux.nextSubId ∧
      ((c.deactivate n).nodes m).value.terminal = (c.nodes m).value.terminal := by
    intro m
    by_cases hm : m = n
    · subst hm
      simp only [Config.deactivate, Config.push, Config.record, Config.setNode,
        Function.update_self, hflag, and_true]
      exact ⟨rfl, rfl, rfl⟩
    · simp only [Config.deactivate, Config.push, Config.record, Config.setNode,
        Function.update_of_ne hm, and_self]
  refine ⟨rfl, fun m hm => by rwa [(hnode m).1] at hm, fun m => by rw [(hnode m).2.1],
    fun m => (hnode m).2.2.1, fun m => (hnode m).2.2.2,
    ⟨[.deactivated n], rfl, by simp [Event.isDelivery]⟩, ⟨_, rfl, ?_⟩⟩
  intro f hf
  refine frameOk_of_isMute c ?_
  rcases mem_append.mp hf with hf | hf
  · exact Hushed.unsubFrames_isMute _ f hf
  · exact Hushed.hookFrames_isMute _ f hf

theorem deactivate_keepsValue (c : Config V S) (n : NodeId) : KeepsValue c (c.deactivate n) := by
  refine ⟨Nat.le_refl _, [.deactivated n], rfl, ?_⟩
  intro m _ _
  by_cases hm : m = n
  · subst hm
    exact Or.inr mem_cons_self
  · refine Or.inl ?_
    simp only [Config.deactivate, Config.push, Config.record, Config.setNode,
      Function.update_of_ne hm]

/-! ### Deliveries, terminations and new subscriptions -/

variable {entry : SubscriberEntry}

/-- The next subscription is told: what was about to be closed is now closed.
    The nodes are untouched. -/
theorem TermInv.told {c : Config V S} (hinv : c.TermInv)
    (hs : c.stack = .emit n m (entry :: subs) :: rest) :
    (((c.popTo rest).push [.emit n m subs]).record
      (.delivered n entry.id entry.sink m)).TermInv := by
  set c' := ((c.popTo rest).push [.emit n m subs]).record (.delivered n entry.id entry.sink m)
    with hc'
  have htop : .emit n m (entry :: subs) ∈ c.stack := by
    rw [hs]
    exact mem_cons_self
  have hperm : ∀ k, (c'.closedIds k).Perm (c.closedIds k) := by
    intro k
    have hstack : c'.stack = .emit n m subs :: rest := rfl
    have hlog : c'.log = .delivered n entry.id entry.sink m :: c.log := rfl
    simp only [closedIds, toldIds, hs, hstack, hlog, flatMap_cons, filterMap_cons,
      Frame.closing, Event.closedId]
    split_ifs with hk
    · simp only [map_cons, append_assoc, cons_append]
      rw [← append_assoc, ← append_assoc]
      exact perm_middle
    · exact List.Perm.refl _
  have hmem : ∀ k id, id ∈ c'.closedIds k ↔ id ∈ c.closedIds k := fun k id => (hperm k).mem_iff
  have hnil : ∀ k, c.closedIds k = [] → c'.closedIds k = [] := by
    intro k hk
    have := hperm k
    rw [hk] at this
    exact this.eq_nil
  have hframe : ∀ f ∈ c'.stack, f = .emit n m subs ∨ f ∈ c.stack := by
    intro f hf
    rcases mem_cons.mp hf with rfl | hf
    · exact Or.inl rfl
    · rw [hs]
      exact Or.inr (mem_cons_of_mem _ hf)
  refine ⟨?_, hinv.subsNodup, hinv.subsLt, ?_, ?_, ?_, ?_, ?_, ?_, ?_⟩
  · intro k hk
    have hfr := hinv.fresh k hk
    exact ⟨hfr.1, hfr.2.1, hfr.2.2.1, hnil k hfr.2.2.2⟩
  · intro k m' subs' hf e he
    rcases hframe _ hf with heq | hf
    · cases heq
      exact hinv.emitsLt n m (entry :: subs) htop e (mem_cons_of_mem _ he)
    · exact hinv.emitsLt k m' subs' hf e he
  · intro k id hid
    exact hinv.closedLt k id ((hmem k id).mp hid)
  · intro k
    exact (hperm k).nodup_iff.mpr (hinv.closedNodup k)
  · intro k hk
    exact hnil k (hinv.unclosed k hk)
  · intro k hk f hf hsp
    simp only [hmem]
    rcases hframe f hf with rfl | hf
    · simp only [Frame.speaksFor, Bool.and_eq_true, beq_iff_eq] at hsp
      have hkn : n = k := hsp.1.1
      subst hkn
      have hsp' : (Frame.emit n m (entry :: subs)).speaksFor n = true := by
        simp [Frame.speaksFor, hsp.1.2]
      rcases hinv.quiet n hk _ htop hsp' with ⟨m', subs', heq, hcase⟩
      cases heq
      exact ⟨m, subs, rfl, hcase.imp_right fun h e he => h e (mem_cons_of_mem _ he)⟩
    · exact hinv.quiet k hk f hf hsp
  · intro f hf
    rcases hframe f hf with rfl | hf
    · exact trivial
    · exact hinv.sorted f hf
  · -- Whoever is told now was not told a terminal message before.
    refine pairwise_cons.mpr ⟨?_, hinv.silent⟩
    intro e he k id s m₀ s' m' hold hnew hterm
    cases hnew
    have htold : entry.id ∈ c.toldIds n := by
      refine mem_filterMap.mpr ⟨e, he, ?_⟩
      rw [hold]
      simp only [Event.closedId, hterm, and_self, ↓reduceIte]
    have hclosed : entry.id ∈ c.closedIds n := mem_append_right _ htold
    by_contra hsp
    rw [Bool.not_eq_false] at hsp
    cases hn : (c.nodes n).value.terminal with
    | false =>
      rw [hinv.unclosed n hn] at hclosed
      exact absurd hclosed not_mem_nil
    | true =>
      have hsp' : (Frame.emit n m (entry :: subs)).speaksFor n = true := by
        simp [Frame.speaksFor, hsp]
      rcases hinv.quiet n hn _ htop hsp' with ⟨m', subs', heq, hcase⟩
      cases heq
      rcases hcase with hmt | hno
      · have hnodup := hinv.closedNodup n
        unfold closedIds at hnodup
        rw [hs] at hnodup
        simp only [flatMap_cons, Frame.closing, hmt, and_self, ↓reduceIte, map_cons,
          cons_append, nodup_cons, mem_append] at hnodup
        exact hnodup.1 (Or.inr htold)
      · exact hno entry mem_cons_self hclosed

theorem emit_termInv {c : Config V S} (hinv : c.TermInv) (hs : c.stack = .emit n m subs :: rest) :
    ((c.popTo rest).emit n m subs).TermInv ∧ KeepsValue c ((c.popTo rest).emit n m subs) := by
  cases subs with
  | nil => exact ⟨hinv.popTo hs, .of_value [] (Nat.le_refl _) rfl fun _ _ _ => rfl⟩
  | cons entry subs =>
    have htold := hinv.told hs
    -- The delivery itself: user code takes over, or the consumer takes it in.
    have hush : Hushed (((c.popTo rest).push [.emit n m subs]).record
        (.delivered n entry.id entry.sink m)) ((c.popTo rest).emit n m (entry :: subs)) := by
      unfold Config.emit Config.deliver
      dsimp only
      split
      · exact Silent.hushed ((Footprint.refl _).push (all_eq_true.mp rfl))
      · split
        · exact Hushed.receiveFromDep _ _ _
        · exact Hushed.refl _
    exact ⟨htold.muted hush.toMuted, hush.keepsValue_of [.delivered n entry.id entry.sink m]
      rfl rfl rfl⟩

variable {msgs : Wave V}

/-- A terminal message of a node that nothing on the stack speaks for. -/
theorem TermInv.terminated {c : Config V S} (hinv : c.TermInv) (x : Node V S)
    (hm : m.isTerminal = true)
    (hn : (c.nodes n).value.terminal = false) (hx : x.value.terminal = true)
    (hlive : x.live = (c.nodes n).live) (hsubs : x.aux.subscribers = (c.nodes n).aux.subscribers)
    (hnext : x.aux.nextSubId = (c.nodes n).aux.nextSubId)
    (hquiet : ∀ f ∈ c.stack, f.speaksFor n = false) (hpass : msgs.any (·.isPassing) = false)
    (hsorted : msgs.Pairwise fun a b => a.tier.asU8 ≤ b.tier.asU8) :
    ((c.setNode n x).push [.emit n m x.aux.subscribers, .downLoop n msgs]).TermInv := by
  set c' := (c.setNode n x).push [.emit n m x.aux.subscribers, .downLoop n msgs] with hc'
  have hself : c'.nodes n = x := Function.update_self _ _ _
  have hother : ∀ k, k ≠ n → c'.nodes k = c.nodes k := fun k hk => Function.update_of_ne hk _ _
  have hpick : ∀ k, (c'.nodes k).live = (c.nodes k).live ∧
      (c'.nodes k).aux.subscribers = (c.nodes k).aux.subscribers ∧
      (c'.nodes k).aux.nextSubId = (c.nodes k).aux.nextSubId := by
    intro k
    by_cases hk : k = n
    · subst hk
      rw [hself]
      exact ⟨hlive, hsubs, hnext⟩
    · rw [hother k hk]
      exact ⟨rfl, rfl, rfl⟩
  have hstack : c'.stack = .emit n m x.aux.subscribers :: .downLoop n msgs :: c.stack := rfl
  have hids : c'.closedIds n = (c.nodes n).aux.subscribers.map (·.id) := by
    have hnil := hinv.unclosed n hn
    have hrest : c'.closedIds n = x.aux.subscribers.map (·.id) ++ c.closedIds n := by
      simp only [closedIds, toldIds, hstack, flatMap_cons, Frame.closing, hm, and_self,
        ↓reduceIte, nil_append, append_assoc]
      rfl
    rw [hrest, hnil, append_nil, hsubs]
  have hidsOther : ∀ k, k ≠ n → c'.closedIds k = c.closedIds k := by
    intro k hk
    simp only [closedIds, toldIds, hstack, flatMap_cons, Frame.closing, Ne.symm hk,
      false_and, ↓reduceIte, nil_append]
    rfl
  have hframe : ∀ f ∈ c'.stack,
      f = .emit n m x.aux.subscribers ∨ f = .downLoop n msgs ∨ f ∈ c.stack := by
    intro f hf
    rw [hstack, mem_cons, mem_cons] at hf
    exact hf
  refine ⟨?_, ?_, ?_, ?_, ?_, ?_, ?_, ?_, ?_, hinv.silent⟩
  · intro k hk
    have hfr := hinv.fresh k hk
    rw [(hpick k).1, (hpick k).2.1, (hpick k).2.2]
    refine ⟨hfr.1, hfr.2.1, hfr.2.2.1, ?_⟩
    by_cases hkn : k = n
    · subst hkn
      rw [hids, hfr.2.1, map_nil]
    · rw [hidsOther k hkn]
      exact hfr.2.2.2
  · intro k
    rw [(hpick k).2.1]
    exact hinv.subsNodup k
  · intro k e he
    rw [(hpick k).2.1] at he
    rw [(hpick k).2.2]
    exact hinv.subsLt k e he
  · intro k m' subs' hf e he
    rw [(hpick k).2.2]
    rcases hframe _ hf with heq | heq | hf
    · cases heq
      rw [hsubs] at he
      exact hinv.subsLt n e he
    · cases heq
    · exact hinv.emitsLt k m' subs' hf e he
  · intro k id hid
    rw [(hpick k).2.2]
    by_cases hkn : k = n
    · subst hkn
      rw [hids] at hid
      rcases mem_map.mp hid with ⟨e, he, rfl⟩
      exact hinv.subsLt k e he
    · rw [hidsOther k hkn] at hid
      exact hinv.closedLt k id hid
  · intro k
    by_cases hkn : k = n
    · subst hkn
      rw [hids]
      exact hinv.subsNodup k
    · rw [hidsOther k hkn]
      exact hinv.closedNodup k
  · intro k hk
    by_cases hkn : k = n
    · subst hkn
      rw [hself, hx] at hk
      cases hk
    · rw [hidsOther k hkn]
      exact hinv.unclosed k (by rwa [hother k hkn] at hk)
  · intro k hk f hf hsp
    by_cases hkn : k = n
    · subst hkn
      rcases hframe f hf with rfl | rfl | hf
      · exact ⟨m, _, rfl, Or.inl hm⟩
      · simp only [Frame.speaksFor, hpass, Bool.and_false, Bool.false_eq_true] at hsp
      · rw [hquiet f hf] at hsp
        cases hsp
    · rw [hother k hkn] at hk
      simp only [hidsOther k hkn]
      rcases hframe f hf with rfl | rfl | hf
      · simp [Frame.speaksFor, Ne.symm hkn] at hsp
      · simp [Frame.speaksFor, Ne.symm hkn] at hsp
      · exact hinv.quiet k hk f hf hsp
  · intro f hf
    rcases hframe f hf with rfl | rfl | hf
    · exact trivial
    · exact hsorted
    · exact hinv.sorted f hf

/-- After a terminal message a wave in tier order has nothing passing left. -/
theorem no_passing_after_terminal (hm : m.isTerminal = true)
    (hs : (m :: msgs).Pairwise fun a b => a.tier.asU8 ≤ b.tier.asU8) :
    msgs.any (·.isPassing) = false := by
  rw [any_eq_false]
  intro m' hmem
  have hle := (pairwise_cons.mp hs).1 m' hmem
  have htier : m.tier.asU8 = 5 := by
    cases m <;> first | rfl | cases hm
  rw [htier] at hle
  cases m' with
  | dirty | data _ | resolved | invalidate => simp [Message.tier, Tier.asU8] at hle
  | _ => exact Bool.false_ne_true

theorem downLoop_termInv {c : Config V S} (hinv : c.TermInv)
    (hs : c.stack = .downLoop n msgs :: rest)
    (hmode : c.mode = .running) (hguard : c.TerminatesLast) :
    ((c.popTo rest).downLoop n msgs).TermInv ∧ KeepsValue c ((c.popTo rest).downLoop n msgs) := by
  have hpop := hinv.popTo hs
  have htop : .downLoop n msgs ∈ c.stack := by
    rw [hs]
    exact mem_cons_self
  have hsorted : msgs.Pairwise fun a b => a.tier.asU8 ≤ b.tier.asU8 := hinv.sorted _ htop
  cases msgs with
  | nil => exact ⟨hpop, .of_value [] (Nat.le_refl _) rfl fun _ _ _ => rfl⟩
  | cons m msgs =>
    have htail := (pairwise_cons.mp hsorted).2
    have hn : m.isPassing = true ∨ msgs.any (·.isPassing) = true →
        (c.nodes n).value.terminal = false := by
      intro hp
      refine hinv.not_terminal htop ?_ (fun m subs heq => by cases heq)
      simpa [Frame.speaksFor] using hp
    have hloop : (c.popTo rest).FrameOk (.downLoop n msgs) := by
      refine ⟨?_, fun k m subs heq => by (cases heq), htail⟩
      intro k hk
      simp only [Frame.speaksFor, Bool.and_eq_true, beq_iff_eq] at hk
      rw [← hk.1]
      exact hn (Or.inr hk.2)
    cases hterm : m.isTerminal && !(c.nodes n).value.terminal with
    | false =>
      have hush : Hushed (c.popTo rest) ((c.popTo rest).downLoop n (m :: msgs)) := by
        refine Hushed.downLoop n m msgs ?_ (fun hp => hn (Or.inl hp)) hloop
        intro hm
        rw [hm, Bool.true_and, Bool.not_eq_false'] at hterm
        exact hterm
      exact ⟨hpop.muted hush.toMuted, hush.keepsValue_of [] rfl rfl rfl⟩
    | true =>
      rw [Bool.and_eq_true, Bool.not_eq_true'] at hterm
      have hquiet : ∀ f ∈ rest, f.speaksFor n = false := by
        unfold TerminatesLast at hguard
        rw [hmode, hs] at hguard
        exact hguard hterm.1 hterm.2
      have hcollect := (c.nodes n).collectDown_terminal m hterm.1 hterm.2
      have heq : (c.popTo rest).downLoop n (m :: msgs) =
          ((c.popTo rest).setNode n ((c.nodes n).collectDown m).1).push
            [.emit n m ((c.nodes n).collectDown m).1.aux.subscribers, .downLoop n msgs] := by
        have h2 : (((c.popTo rest).nodes n).collectDown m).2 = .emit := hcollect.1
        unfold Config.downLoop
        simp only [h2]
        rfl
      rw [heq]
      refine ⟨hpop.terminated _ hterm.1 hterm.2 hcollect.2.1 hcollect.2.2.1 hcollect.2.2.2.1
        hcollect.2.2.2.2 hquiet (no_passing_after_terminal hterm.1 hsorted) htail,
        .of_value [] (Nat.le_refl _) rfl ?_⟩
      intro k _ hk
      refine congrArg Node.value ?_
      have hkn : k ≠ n := by
        rintro rfl
        rw [hterm.2] at hk
        cases hk
      exact Function.update_of_ne hkn _ _

/-- What a new subscription is told, it is told on its own fresh id. -/
theorem mem_handshake {x : Node V S}
    (hf : f ∈ handshake x n entry) : ∃ m, f = .emit n m [entry] ∧ m.isTerminal = false := by
  unfold handshake at hf
  split_ifs at hf
  · exact absurd hf not_mem_nil
  · split at hf
    · rw [mem_singleton.mp hf]
      exact ⟨_, rfl, rfl⟩
    · rw [mem_singleton.mp hf]
      exact ⟨_, rfl, rfl⟩
  · split at hf
    · rw [mem_singleton.mp hf]
      exact ⟨_, rfl, rfl⟩
    · exact absurd hf not_mem_nil

theorem subscribe_termInv {c : Config V S} (hinv : c.TermInv) (n : NodeId) (sink : Sink) :
    (c.subscribe n sink).TermInv ∧ KeepsValue c (c.subscribe n sink) := by
  cases hl : (c.nodes n).live with
  | false =>
    have hpanic : c.subscribe n sink =
        c.panic "Core points at a stale or freed GraphCore slot" := by
      simp only [Config.subscribe, hl, Bool.false_eq_true, ↓reduceIte]
    rw [hpanic]
    have hush : Hushed c (c.panic "Core points at a stale or freed GraphCore slot") :=
      Silent.hushed ((Footprint.refl c).panic _)
    exact ⟨hinv.muted hush.toMuted, hush.keepsValue⟩
  | true =>
    set x := c.nodes n with hx
    set entry : SubscriberEntry := ⟨x.aux.nextSubId, sink⟩ with hentry
    set fs : List (Frame V) :=
      [.emit n .start [entry]] ++ handshake x n entry ++ [.activateIfNeeded n] with hfs
    have heq : c.subscribe n sink = (c.setNode n { x with aux := { x.aux with
        nextSubId := x.aux.nextSubId + 1
        subscribers := x.aux.subscribers ++ [entry] } }).push fs := by
      unfold Config.subscribe
      dsimp only
      rw [if_pos hl]
    rw [heq]
    set c' := (c.setNode n { x with aux := { x.aux with
        nextSubId := x.aux.nextSubId + 1
        subscribers := x.aux.subscribers ++ [entry] } }).push fs with hc'
    have hself : c'.nodes n = { x with aux := { x.aux with
        nextSubId := x.aux.nextSubId + 1
        subscribers := x.aux.subscribers ++ [entry] } } := Function.update_self _ _ _
    have hother : ∀ k, k ≠ n → c'.nodes k = c.nodes k :=
      fun k hk => Function.update_of_ne hk _ _
    have hvalue : ∀ k, (c'.nodes k).value = (c.nodes k).value := by
      intro k
      by_cases hk : k = n
      · subst hk
        rw [hself]
      · rw [hother k hk]
    have hnext : ∀ k, (c.nodes k).aux.nextSubId ≤ (c'.nodes k).aux.nextSubId := by
      intro k
      by_cases hk : k = n
      · subst hk
        exact Nat.le_trans (Nat.le_succ _) (Nat.le_of_eq (congrArg (·.aux.nextSubId) hself.symm))
      · exact Nat.le_of_eq (congrArg (·.aux.nextSubId) (hother k hk).symm)
    have hnew : ∀ f ∈ fs, (∃ m, f = .emit n m [entry] ∧ m.isTerminal = false) ∨
        f = .activateIfNeeded n := by
      intro f hf
      rw [hfs, mem_append, mem_append, mem_singleton, mem_singleton] at hf
      rcases hf with (rfl | hf) | rfl
      · exact Or.inl ⟨_, rfl, rfl⟩
      · exact Or.inl (mem_handshake hf)
      · exact Or.inr rfl
    have hids : ∀ k, c'.closedIds k = c.closedIds k := by
      intro k
      have hnil : fs.flatMap (Frame.closing k) = [] := by
        rw [flatMap_eq_nil_iff]
        intro f hf
        rcases hnew f hf with ⟨m, rfl, hm⟩ | rfl
        · simp only [Frame.closing, hm, Bool.false_eq_true, and_false, ↓reduceIte]
        · rfl
      have hstack : c'.stack = fs ++ c.stack := rfl
      rw [closedIds, hstack, flatMap_append, hnil, nil_append]
      rfl
    refine ⟨⟨?_, ?_, ?_, ?_, ?_, ?_, ?_, ?_, ?_, hinv.silent⟩,
      .of_value [] (Nat.le_refl _) rfl fun k _ _ => hvalue k⟩
    · intro k hk
      have hfr := hinv.fresh k hk
      have hkn : k ≠ n := by
        rintro rfl
        rw [← hx, hl] at hfr
        cases hfr.1
      rw [hother k hkn, hids]
      exact hfr
    · intro k
      by_cases hk : k = n
      · subst hk
        rw [hself]
        simp only [map_append, map_cons, map_nil]
        rw [nodup_append]
        refine ⟨hinv.subsNodup k, nodup_singleton _, ?_⟩
        intro a ha b hb
        rcases mem_map.mp ha with ⟨e, he, rfl⟩
        rw [mem_singleton.mp hb]
        exact Nat.ne_of_lt (hinv.subsLt k e he)
      · rw [hother k hk]
        exact hinv.subsNodup k
    · intro k e he
      by_cases hk : k = n
      · subst hk
        rw [hself] at he ⊢
        rcases mem_append.mp he with he | he
        · exact Nat.lt_succ_of_lt (hinv.subsLt k e he)
        · rw [mem_singleton.mp he]
          exact Nat.lt_succ_self _
      · rw [hother k hk] at he ⊢
        exact hinv.subsLt k e he
    · intro k m subs hf e he
      rcases mem_append.mp hf with hf | hf
      · rcases hnew _ hf with ⟨m', heq', _⟩ | heq'
        · cases heq'
          rw [mem_singleton.mp he, hself]
          exact Nat.lt_succ_self _
        · cases heq'
      · exact Nat.lt_of_lt_of_le (hinv.emitsLt k m subs hf e he) (hnext k)
    · intro k id hid
      rw [hids] at hid
      exact Nat.lt_of_lt_of_le (hinv.closedLt k id hid) (hnext k)
    · intro k
      rw [hids]
      exact hinv.closedNodup k
    · intro k hk
      rw [hids]
      exact hinv.unclosed k (by rwa [hvalue] at hk)
    · intro k hk f hf hsp
      rw [hvalue] at hk
      simp only [hids]
      rcases mem_append.mp hf with hf | hf
      · rcases hnew f hf with ⟨m, rfl, _⟩ | rfl
        · -- The new subscription was told nothing terminal yet.
          simp only [Frame.speaksFor, Bool.and_eq_true, beq_iff_eq] at hsp
          have hnk : n = k := hsp.1.1
          subst hnk
          refine ⟨m, [entry], rfl, Or.inr ?_⟩
          intro e he hid
          rw [mem_singleton.mp he] at hid
          exact absurd (hinv.closedLt n _ hid) (Nat.lt_irrefl _)
        · cases hsp
      · exact hinv.quiet k hk f hf hsp
    · intro f hf
      rcases mem_append.mp hf with hf | hf
      · rcases hnew f hf with ⟨m, rfl, _⟩ | rfl <;> trivial
      · exact hinv.sorted f hf

/-- A new node has no subscriptions and is told of by no frame. -/
theorem newNode_termInv {c : Config V S} (hinv : c.TermInv) (spec : NodeSpec V) :
    (c.newNode spec).TermInv ∧ KeepsValue c (c.newNode spec) := by
  have hrefl : ∀ msg, (c.panic msg).TermInv ∧ KeepsValue c (c.panic msg) := by
    intro msg
    have hush : Hushed c (c.panic msg) := Silent.hushed ((Footprint.refl c).panic _)
    exact ⟨hinv.muted hush.toMuted, hush.keepsValue⟩
  unfold Config.newNode
  split_ifs
  · exact hrefl _
  · set c' : Config V S := { c.setNode c.size (freshNode spec) with size := c.size + 1 } with hc'
    have hself : c'.nodes c.size = freshNode spec := Function.update_self _ _ _
    have hother : ∀ k, k ≠ c.size → c'.nodes k = c.nodes k :=
      fun k hk => Function.update_of_ne hk _ _
    have hfr := hinv.fresh c.size (Nat.le_refl _)
    have hids : ∀ k, c'.closedIds k = c.closedIds k := fun _ => rfl
    have hnext : ∀ k, (c'.nodes k).aux.nextSubId = (c.nodes k).aux.nextSubId := by
      intro k
      by_cases hk : k = c.size
      · subst hk
        rw [hself, hfr.2.2.1]
        rfl
      · rw [hother k hk]
    have hsubs : ∀ k, (c'.nodes k).aux.subscribers = (c.nodes k).aux.subscribers := by
      intro k
      by_cases hk : k = c.size
      · subst hk
        rw [hself, hfr.2.1]
        rfl
      · rw [hother k hk]
    have hopen : (freshNode spec : Node V S).value.terminal = false := by
      unfold freshNode
      dsimp only
      split <;> rfl
    refine ⟨⟨?_, ?_, ?_, ?_, ?_, ?_, ?_, ?_, ?_, hinv.silent⟩,
      .of_value [] (Nat.le_succ _) rfl ?_⟩
    · intro k hk
      have hk' : c.size + 1 ≤ k := hk
      rw [hother k (by omega)]
      exact hinv.fresh k (by omega)
    · intro k
      rw [hsubs]
      exact hinv.subsNodup k
    · intro k
      rw [hsubs, hnext]
      exact hinv.subsLt k
    · intro k m subs hf
      rw [hnext]
      exact hinv.emitsLt k m subs hf
    · intro k
      rw [hids, hnext]
      exact hinv.closedLt k
    · intro k
      rw [hids]
      exact hinv.closedNodup k
    · intro k hk
      rw [hids]
      by_cases hks : k = c.size
      · rw [hks]
        exact hfr.2.2.2
      · exact hinv.unclosed k (by rwa [hother k hks] at hk)
    · intro k hk
      by_cases hks : k = c.size
      · rw [hks, hself, hopen] at hk
        cases hk
      · rw [hother k hks] at hk
        exact hinv.quiet k hk
    · exact hinv.sorted
    · intro k hk _
      rw [hother k (by omega)]
  · exact ⟨hinv, (Hushed.refl c).keepsValue⟩

/-! ### Steps and runs -/

theorem perform_termInv {c : Config V S} (hinv : c.TermInv) (cb : Callback V) (o : UserOp V S) :
    (c.perform cb o).TermInv ∧ KeepsValue c (c.perform cb o) := by
  have hush : ∀ c' : Config V S, Hushed c c' → c'.TermInv ∧ KeepsValue c c' :=
    fun c' h => ⟨hinv.muted h.toMuted, h.keepsValue⟩
  by_cases hnew : ∃ spec, o = .newNode spec
  · rcases hnew with ⟨spec, rfl⟩
    exact newNode_termInv hinv spec
  by_cases hdrop : ∃ n, o = .drop n
  · rcases hdrop with ⟨n, rfl⟩
    exact hush _ (Hushed.dropNode n _)
  · exact hush _ (Mute.perform cb o (not_exists.mp hnew) (not_exists.mp hdrop)).hushed

theorem stepUser_termInv (env : Env V S) {c : Config V S} (hinv : c.TermInv) (cb : Callback V)
    (i : Nat) : (c.stepUser env cb i).TermInv ∧ KeepsValue c (c.stepUser env cb i) := by
  unfold stepUser
  split
  · exact ⟨hinv, (Hushed.refl c).keepsValue⟩
  · rename_i p _
    have hush : Hushed c (c.throw p) := Silent.hushed ((Footprint.refl c).throw p)
    exact ⟨hinv.muted hush.toMuted, hush.keepsValue⟩
  · rename_i o _
    have hush : Hushed c (c.push [.user cb (i + 1)]) :=
      Silent.hushed ((Footprint.refl c).push (all_eq_true.mp rfl))
    have hop := perform_termInv (hinv.muted hush.toMuted) cb o
    exact ⟨hop.1, hop.2.size, hop.2.value⟩

theorem enter_termInv (env : Env V S) {c : Config V S} (hinv : c.TermInv)
    (hs : c.stack = f :: rest) (hmode : c.mode = .running)
    (hguard : c.TerminatesLast) :
    ((c.popTo rest).enter env f).TermInv ∧ KeepsValue c ((c.popTo rest).enter env f) := by
  have hpop := hinv.popTo hs
  have hush : ∀ c' : Config V S, Hushed (c.popTo rest) c' → c'.TermInv ∧ KeepsValue c c' :=
    fun c' h => ⟨hpop.muted h.toMuted, h.keepsValue_of [] rfl rfl rfl⟩
  have htop : f ∈ c.stack := by
    rw [hs]
    exact mem_cons_self
  -- A frame that speaks for its node shows that the node is still open.
  have hopen : ∀ n, f.speaksFor n = true → (∀ m subs, f ≠ .emit n m subs) →
      ((c.popTo rest).nodes n).value.terminal = false := fun n => hinv.not_terminal htop
  cases hmute : f.entersMute with
  | true => exact hush _ (enter_mute env _ f hmute).hushed
  | false =>
    cases f with
    | user cb i =>
      have h := stepUser_termInv env hpop cb i
      exact ⟨h.1, h.2.size, h.2.value⟩
    | emit n m subs => exact emit_termInv hinv hs
    | emitToSubs n m =>
      refine hush _ (Hushed.emitToSubs n m (hinv.sorted _ htop) ?_)
      intro hsp
      exact hopen n (by simp [Frame.speaksFor, hsp]) (by simp)
    | emitDirtyOnce n =>
      exact hush _ (Hushed.emitDirtyOnce n (hopen n (by simp [Frame.speaksFor]) (by simp)))
    | markDirty n =>
      exact hush _ (Hushed.markDirty n (hopen n (by simp [Frame.speaksFor]) (by simp)))
    | down n msgs => exact hush _ (Hushed.down n msgs)
    | deliveryScope n msgs =>
      refine hush _ (Hushed.deliveryScope n msgs ?_ (hinv.sorted _ htop))
      intro hp
      exact hopen n (by simp [Frame.speaksFor, hp]) (by simp)
    | downLoop n msgs => exact downLoop_termInv hinv hs hmode hguard
    | invalidate n =>
      exact hush _ (Hushed.invalidate n (hopen n (by simp [Frame.speaksFor]) (by simp)))
    | subscribe n sink =>
      have h := subscribe_termInv hpop n sink
      exact ⟨h.1, h.2.size, h.2.value⟩
    | unsubscribe n id => exact hush _ (Hushed.unsubscribe n id)
    | deactivate n =>
      have h := deactivate_keepsValue (c.popTo rest) n
      exact ⟨hpop.muted (deactivate_muted _ n), h.size, h.value⟩
    | rewireFinish n newDeps dirty => exact hush _ (Hushed.rewireFinish n newDeps dirty)
    | settleRewire n =>
      exact hush _ (Hushed.settleRewire n (hopen n (by simp [Frame.speaksFor]) (by simp)))
    | _ => cases hmute

/-- A step that meets the condition preserves the invariant, and a terminated
    node keeps its value. -/
theorem step_termInv {c : Config V S} (hstep : Step c c') (hguard : c.TerminatesLast)
    (hinv : c.TermInv) : c'.TermInv ∧ KeepsValue c c' := by
  rcases hstep with ⟨env, hstep⟩
  rcases step_cases hstep with ⟨f, rest, hs, ⟨hmode, rfl⟩ | ⟨p, hmode, rfl⟩⟩
  · exact enter_termInv env hinv hs hmode hguard
  · have h := (unwind_mute env (c.popTo rest) p f).hushed
    exact ⟨(hinv.popTo hs).muted h.toMuted, h.keepsValue_of [] rfl rfl rfl⟩

theorem initial_termInv : (initial : Config V S).TermInv where
  fresh := fun _ _ => ⟨rfl, rfl, rfl, rfl⟩
  subsNodup := fun _ => nodup_nil
  subsLt := fun _ e he => absurd he not_mem_nil
  emitsLt := by
    intro n m subs hf
    cases mem_singleton.mp hf
  closedLt := fun _ id hid => absurd hid not_mem_nil
  closedNodup := fun _ => nodup_nil
  unclosed := fun _ _ => rfl
  quiet := fun _ hn => by cases hn
  sorted := by
    intro f hf
    rw [mem_singleton.mp hf]
    trivial
  silent := List.Pairwise.nil

theorem guardedReach_termInv {c : Config V S} (hrun : GuardedReach TerminatesLast c c')
    (hinv : c.TermInv) : c'.TermInv := by
  refine hrun.invariant ?_ hinv
  intro a b hstep hguard ha
  exact (step_termInv hstep hguard ha).1

/-- The value of a terminated node survives a run in which the node is not
    deactivated. -/
theorem guardedReach_keepsValue {c : Config V S} (hrun : GuardedReach TerminatesLast c c')
    (hinv : c.TermInv) : KeepsValue c c' := by
  induction hrun with
  | refl => exact (Hushed.refl c).keepsValue
  | @tail a b hprev hlast ih =>
    have hstep := (step_termInv hlast.1 hlast.2 (guardedReach_termInv hprev hinv)).2
    rcases ih.value with ⟨es, hes, hval⟩
    rcases hstep.value with ⟨es', hes', hval'⟩
    refine ⟨Nat.le_trans ih.size hstep.size, es' ++ es, by rw [hes', hes, append_assoc], ?_⟩
    intro n hn ht
    rcases hval n hn ht with heq | hd
    · rcases hval' n (Nat.lt_of_lt_of_le hn ih.size) (by rw [heq]; exact ht) with heq' | hd'
      · exact Or.inl (heq'.trans heq)
      · exact Or.inr (mem_append_left _ hd')
    · exact Or.inr (mem_append_right _ hd)

/-- The node has delivered COMPLETE or ERROR. -/
def HasTerminated (c : Config V S) (n : NodeId) : Prop :=
  ∃ id s m, .delivered n id s m ∈ c.log ∧ m.isTerminal = true

/-- In a run that meets the condition nothing but TEARDOWN follows a terminal
    message on a subscription, and the value of the node that delivered it
    stays what it is until the node is deactivated. -/
theorem terminal_forever (c : Config V S) (hrun : GuardedReach TerminatesLast initial c) :
    c.log.Pairwise Event.SilentAfter ∧
      ∀ c', GuardedReach TerminatesLast c c' → ∀ n, c.HasTerminated n →
        ∃ es, c'.log = es ++ c.log ∧
          (.deactivated n ∉ es → (c'.nodes n).value.cache = (c.nodes n).value.cache ∧
            (c'.nodes n).value.status = (c.nodes n).value.status) := by
  have hinv := guardedReach_termInv hrun initial_termInv
  refine ⟨hinv.silent, ?_⟩
  rintro c' hnext n ⟨id, s, m, hmem, hm⟩
  have hclosed : id ∈ c.closedIds n := by
    refine mem_append_right _ (mem_filterMap.mpr ⟨_, hmem, ?_⟩)
    simp only [Event.closedId, hm, and_self, ↓reduceIte]
  have hsize : n < c.size := by
    by_contra hn
    rw [(hinv.fresh n (Nat.le_of_not_lt hn)).2.2.2] at hclosed
    exact absurd hclosed not_mem_nil
  have hterm : (c.nodes n).value.terminal = true := by
    by_contra hn
    rw [hinv.unclosed n (Bool.not_eq_true _ ▸ hn)] at hclosed
    exact absurd hclosed not_mem_nil
  rcases (guardedReach_keepsValue hnext hinv).value with ⟨es, hes, hval⟩
  refine ⟨es, hes, ?_⟩
  intro hd
  have heq := (hval n hsize hterm).resolve_right hd
  rw [heq]
  exact ⟨rfl, rfl⟩

/-- A source with two sinks is written, completed, and written again. -/
def completeThenData : Env Nat Unit := Env.scripted fun cb => match cb with
  | .main => [.newNode { initial := some 1 }, .subscribe 0 0, .subscribe 0 1,
      .down 0 [.data 2], .down 0 [.complete], .down 0 [.data 3]]
  | _ => []

theorem terminal_forever_completeThenData :
    (initial.run completeThenData 200).stack = [] ∧
      (initial.run completeThenData 200).HasTerminated 0 ∧
      (initial.run completeThenData 200).log.Pairwise Event.SilentAfter := by
  have hrun : GuardedReach TerminatesLast initial (initial.run completeThenData 200) :=
    guardedReach_run completeThenData 200 initial (by decide +kernel)
  refine ⟨by decide +kernel, ⟨1, .external 1, .complete, by decide +kernel, rfl⟩, ?_⟩
  exact (terminal_forever _ hrun).1

/-- A source with two sinks; the first completes the source on DATA 2. -/
def completeInSink : Env Nat Unit := Env.scripted fun cb => match cb with
  | .main => [.newNode { initial := some 1 }, .subscribe 0 0, .subscribe 0 1, .down 0 [.data 2]]
  | .sink 0 (.data 2) => [.down 0 [.complete]]
  | _ => []

-- The second sink stands in the snapshot of the DATA emission when the inner
-- call delivers COMPLETE to both.
theorem data_after_complete :
    ¬ (initial.run completeInSink 200).log.Pairwise Event.SilentAfter := by
  intro h
  have hsub : [.delivered 0 1 (.external 1) (.data 2),
    .delivered 0 1 (.external 1) .complete].Sublist
      (initial.run completeInSink 200).log := by decide +kernel
  have hpair := (pairwise_cons.mp (h.sublist hsub)).1 _ mem_cons_self
  cases hpair 0 1 (.external 1) .complete (.external 1) (.data 2) rfl rfl rfl

end Config

end GraphRefly
