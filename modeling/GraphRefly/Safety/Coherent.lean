import GraphRefly.Safety.Slots
import GraphRefly.Safety.Terminal
import GraphRefly.Rewire.Index

/-!
# Coherence of a Node's Value

A node describes its value in four fields: the cache, whether there is data,
the status, and whether the node has terminated. They are written one by one.
The first two always agree, and a settled status always comes with data.

The terminal flag and the status can drift apart in two ways. What a wave of a
node had still to say when the node terminated from within that wave is written
over the terminal status. And a compute node that loses its last subscriber is
reset to `sentinel`, but stays terminated.

## Main definitions

* `NodeValueState.Coherent`: The four fields agree.
* `Config.KeepsTerminal`: The condition on the state before a step.
* `Frame.overwrites`: A frame that writes a value without asking `down` first.
* `Config.Opened`: Such a frame is on top, for a node that has not terminated.

## Theorems

* `step_opened`: Every step preserves the second invariant.
* `slot_coherent`: What one step does to a coherent value.
* `value_coherent`: Runs that meet the condition keep every value coherent.
* `sentinel_after_complete`: A run that does not.
-/

namespace GraphRefly

open List

variable {V S : Type}

/-- The four fields of a node's value agree. -/
structure NodeValueState.Coherent (v : NodeValueState V) : Prop where
  data : v.hasData = true ↔ v.cache.isSome = true
  settled : v.status = .settled ∨ v.status = .resolved → v.hasData = true
  terminal : v.terminal = true ↔ v.status = .completed ∨ v.status = .errored

namespace NodeValueState.Coherent

variable {v : NodeValueState V}

theorem dirtied (h : v.Coherent) (ht : v.terminal = false) :
    NodeValueState.Coherent { v with status := .dirty } where
  data := h.data
  settled := by simp
  terminal := by simp [ht]

/-- An open node may drop its data. -/
theorem dropped (ht : v.terminal = false) :
    NodeValueState.Coherent (V := V)
      { v with cache := none, hasData := false, status := .sentinel } where
  data := by simp
  settled := by simp
  terminal := by simp [ht]

/-- An open node may be told that nothing changed. -/
theorem resolved (h : v.Coherent) (ht : v.terminal = false) :
    NodeValueState.Coherent
      { v with status := if v.hasData then .resolved else .sentinel } where
  data := h.data
  settled := by by_cases hd : v.hasData <;> simp [hd]
  terminal := by by_cases hd : v.hasData <;> simp [hd, ht]

/-- An open node may fall back to the status its data stands for. -/
theorem settledBack (h : v.Coherent) (ht : v.terminal = false) :
    NodeValueState.Coherent
      { v with status := if v.hasData then .settled else .sentinel } where
  data := h.data
  settled := by by_cases hd : v.hasData <;> simp [hd]
  terminal := by by_cases hd : v.hasData <;> simp [hd, ht]

end NodeValueState.Coherent

/-! ### Single nodes -/

namespace Node

variable (x : Node V S)

/-- The message leaves the value of a terminated node alone. -/
def ignores (x : Node V S) : Message V → Bool
  | .dirty => x.wave.emittedDirtyThisWave
  | .invalidate => !x.value.hasData
  | .data _ => false
  | .resolved => false
  | _ => true

theorem setMaybeRunAction_value (b : Bool) (a : ReceiveAction V) :
    (x.setMaybeRunAction b a).1.value = x.value := by
  unfold setMaybeRunAction
  split_ifs
  · rfl
  · exact congrArg (·.1.2.1) x.decideMaybeRun_guise

theorem settleReceived_value (b : Bool) : (x.settleReceived b).1.value = x.value := by
  have hnote : x.noteSkippedWave.value = x.value := by
    unfold noteSkippedWave
    split_ifs <;> rfl
  unfold settleReceived
  dsimp only
  split_ifs
  · exact (x.noteSkippedWave.setMaybeRunAction_value b _).trans hnote
  · exact hnote

theorem receiveTerminal_value (b : Bool) (i : Nat) (t : DepTerminal) :
    (x.receiveTerminal b i t).1.value = x.value := by
  unfold receiveTerminal
  dsimp only
  split
  · rfl
  · split_ifs
    · exact setMaybeRunAction_value { x with dep := _ } b _
    · rfl
    · rfl

/-- A dep message leaves the value alone or makes it stale. -/
theorem receive_value (d : Nat) (b : Bool) (i : Nat) (m : Message V) :
    (x.receive d b i m).1.value = x.value ∨
      x.value.terminal = false ∧
        (x.receive d b i m).1.value = { x.value with status := .dirty } := by
  cases ht : x.value.terminal with
  | true =>
    rcases x.receive_of_terminal ht d b i m with h | h <;> rw [h] <;> exact Or.inl rfl
  | false =>
    unfold receive
    rw [if_neg (by rw [ht]; exact Bool.false_ne_true)]
    cases m with
    | dirty =>
      unfold receiveDirty
      dsimp only
      split_ifs
      · exact Or.inl rfl
      · exact Or.inl rfl
      · exact Or.inr ⟨rfl, rfl⟩
    | data v =>
      unfold receiveData
      dsimp only
      split_ifs
      · exact Or.inl rfl
      · exact Or.inl (settleReceived_value { x with dep := _ } b)
    | resolved => exact Or.inl (settleReceived_value { x with dep := _ } b)
    | complete => exact Or.inl (x.receiveTerminal_value b i .complete)
    | error e => exact Or.inl (x.receiveTerminal_value b i (.error e))
    | _ => exact Or.inl rfl

/-- One outgoing message of an open node. -/
theorem collectDown_coherent {x : Node V S} (h : x.value.Coherent)
    (ht : x.value.terminal = false) (m : Message V) :
    (x.collectDown m).1.value.Coherent := by
  cases m with
  | dirty =>
    simp only [collectDown]
    split_ifs
    · exact h
    · exact h.dirtied ht
  | data v =>
    refine ⟨?_, ?_, ?_⟩
    · exact ⟨fun _ => rfl, fun _ => rfl⟩
    · exact fun _ => rfl
    · simp [collectDown, ht]
  | resolved => exact h.resolved ht
  | invalidate =>
    simp only [collectDown]
    split_ifs
    · exact NodeValueState.Coherent.dropped ht
    · exact h
  | complete | error _ =>
    simp only [collectDown, ht, Bool.false_eq_true, ↓reduceIte]
    exact ⟨h.data, by simp, by simp⟩
  | _ => exact h

/-- A message that a terminated node ignores leaves its value alone. -/
theorem collectDown_ignored {x : Node V S} {m : Message V} (ht : x.value.terminal = true)
    (hm : x.ignores m = true) : (x.collectDown m).1.value = x.value := by
  cases m with
  | dirty =>
    simp only [ignores] at hm
    simp only [collectDown, hm, ↓reduceIte]
  | data v => cases hm
  | resolved => cases hm
  | invalidate =>
    simp only [ignores, Bool.not_eq_true'] at hm
    simp only [collectDown, hm, Bool.false_eq_true, ↓reduceIte]
  | complete | error _ => simp only [collectDown, ht, ↓reduceIte]
  | _ => rfl

/-- A message that a terminated node does not ignore writes over its status. -/
theorem collectDown_incoherent {x : Node V S} {m : Message V} (ht : x.value.terminal = true)
    (hm : x.ignores m = false) : ¬ (x.collectDown m).1.value.Coherent := by
  intro h
  have hterm := h.terminal
  cases m with
  | dirty =>
    simp only [ignores] at hm
    simp [collectDown, hm, ht] at hterm
  | data v => simp [collectDown, ht] at hterm
  | resolved =>
    by_cases hd : x.value.hasData <;> simp [collectDown, ht, hd] at hterm
  | invalidate =>
    simp only [ignores, Bool.not_eq_false'] at hm
    simp [collectDown, hm, ht, invalidated] at hterm
  | _ => cases hm

end Node

/-! ### Frames that write without asking -/

/-- The node whose value the frame writes without asking whether it has
    terminated. -/
def Frame.overwrites : Frame V → Option NodeId
  | .emitDirtyOnce n => some n
  | .markDirty n => some n
  | .invalidate n => some n
  | .settleRewire n => some n
  | _ => none

theorem Frame.overwrites_of_isMute {f : Frame V} (h : f.isMute = true) : f.overwrites = none := by
  cases f <;> first | rfl | cases h

section

variable (x : Node V S) (b : Bool)

theorem Node.setMaybeRunAction_invalidates (a : ReceiveAction V) :
    (x.setMaybeRunAction b a).2.doInvalidate = a.doInvalidate := by
  unfold setMaybeRunAction
  split_ifs <;> rfl

theorem Node.settleReceived_invalidates : (x.settleReceived b).2.doInvalidate = false := by
  unfold settleReceived
  dsimp only
  split_ifs
  · exact Node.setMaybeRunAction_invalidates _ b _
  · rfl

theorem Node.receiveTerminal_invalidates (i : Nat) (t : DepTerminal) :
    (x.receiveTerminal b i t).2.doInvalidate = false := by
  unfold receiveTerminal
  dsimp only
  split
  · rfl
  · split_ifs
    · exact Node.setMaybeRunAction_invalidates _ b _
    · rfl
    · rfl

end

/-- An invalidation comes with no message to the subscribers. -/
theorem Node.receive_invalidates (x : Node V S) (d : Nat) (b : Bool) (i : Nat) (m : Message V) :
    (x.receive d b i m).2.doInvalidate = false ∨
      (x.receive d b i m).2.emitTeardownSubscribers = false ∧
        (x.receive d b i m).2.emitDirty = false := by
  unfold receive
  split_ifs
  · cases m <;> exact Or.inl rfl
  · cases m with
    | invalidate => exact Or.inr ⟨rfl, rfl⟩
    | dirty =>
      unfold receiveDirty
      dsimp only
      split_ifs <;> exact Or.inl rfl
    | data v =>
      unfold receiveData
      dsimp only
      split_ifs
      · exact Or.inl rfl
      · exact Or.inl (Node.settleReceived_invalidates _ b)
    | resolved => exact Or.inl (Node.settleReceived_invalidates _ b)
    | complete => exact Or.inl (x.receiveTerminal_invalidates b i .complete)
    | error e => exact Or.inl (x.receiveTerminal_invalidates b i (.error e))
    | _ => exact Or.inl rfl

/-- Without an invalidation no frame of a receive action writes the node's
    value. -/
theorem ReceiveAction.frames_overwrites (a : ReceiveAction V) (n : NodeId)
    (h : a.doInvalidate = false) : ∀ f ∈ a.frames n, f.overwrites = none := by
  intro f hf
  have hne : f ≠ .invalidate n := by
    rintro rfl
    rw [ReceiveAction.frames, h] at hf
    simp only [Bool.false_eq_true, ↓reduceIte, append_nil, mem_append] at hf
    grind
  rcases mem_frames a n f hf with rfl | rfl | rfl | rfl | rfl | rfl | rfl | rfl |
    ⟨msgs, _, rfl⟩ | rfl | rfl
  all_goals first
    | rfl
    | exact absurd rfl hne

/-- Only the first frame of a receive action writes the node's value. -/
theorem ReceiveAction.frames_tail (a : ReceiveAction V) (n : NodeId)
    (h : a.doInvalidate = false ∨ a.emitTeardownSubscribers = false ∧ a.emitDirty = false) :
    ∀ f ∈ (a.frames n).tail, f.overwrites = none := by
  intro f hf
  cases hinv : a.doInvalidate with
  | false => exact a.frames_overwrites n hinv f (mem_of_mem_tail hf)
  | true =>
    -- The invalidation stands first; what follows is the action without it.
    rw [hinv, Bool.true_eq_false, false_or] at h
    have htail : (a.frames n).tail =
        ReceiveAction.frames { a with doInvalidate := false } n := by
      simp only [ReceiveAction.frames, h.1, h.2, hinv, Bool.false_eq_true, ↓reduceIte,
        nil_append, cons_append, tail_cons]
    rw [htail] at hf
    exact ReceiveAction.frames_overwrites _ n rfl f hf

namespace Config

/-- Of the frames a step pushes at most the first one writes a value, and that
    for a node that has not terminated. -/
def Leads (c c' : Config V S) : Prop :=
  ∃ fs, c'.stack = fs ++ c.stack ∧ (∀ f ∈ fs.tail, f.overwrites = none) ∧
    ∀ f n, fs.head? = some f → f.overwrites = some n → (c'.nodes n).value.terminal = false

namespace Leads

variable {c c₁ c' : Config V S}

/-- None of the pushed frames writes a value. -/
theorem of_frames (fs : List (Frame V)) (hs : c'.stack = fs ++ c.stack)
    (hf : ∀ f ∈ fs, f.overwrites = none) : Leads c c' := by
  refine ⟨fs, hs, fun f hm => hf f (mem_of_mem_tail hm), ?_⟩
  intro f n hhead hw
  rw [hf f (mem_of_mem_head? hhead)] at hw
  cases hw

theorem same (hs : c'.stack = c.stack) : Leads c c' :=
  of_frames [] hs (fun _ hf => absurd hf not_mem_nil)

/-- The first pushed frame writes the value of an open node. -/
theorem of_head (n : NodeId) (f : Frame V) (fs : List (Frame V))
    (hs : c'.stack = f :: fs ++ c.stack) (hf : ∀ g ∈ fs, g.overwrites = none)
    (hw : f.overwrites = some n) (hn : (c'.nodes n).value.terminal = false) : Leads c c' := by
  refine ⟨f :: fs, hs, hf, ?_⟩
  intro g k hhead hg
  rw [List.head?_cons, Option.some.injEq] at hhead
  rw [← hhead, hw, Option.some.injEq] at hg
  rw [← hg]
  exact hn

/-- Below the frames of the second part stand some that write nothing. -/
theorem above (h : Leads c₁ c') (gs : List (Frame V)) (hs : c₁.stack = gs ++ c.stack)
    (hg : ∀ g ∈ gs, g.overwrites = none) : Leads c c' := by
  rcases h with ⟨fs, hfs, htail, hhead⟩
  refine ⟨fs ++ gs, by rw [hfs, hs, append_assoc], ?_, ?_⟩
  · cases fs with
    | nil => exact fun f hf => hg f (mem_of_mem_tail hf)
    | cons f fs =>
      intro g hm
      rcases mem_append.mp hm with hm | hm
      · exact htail g hm
      · exact hg g hm
  · intro f n hf hw
    cases fs with
    | nil =>
      rw [hg f (mem_of_mem_head? hf)] at hw
      cases hw
    | cons g fs => exact hhead f n hf hw

/-- The first part leaves the stack alone. -/
theorem after (h : Leads c₁ c') (hs : c₁.stack = c.stack) : Leads c c' :=
  h.above [] hs (fun _ hf => absurd hf not_mem_nil)

theorem of_mute (h : Mute c c') : Leads c c' := by
  rcases h.stack with ⟨fs, hfs, hf⟩
  exact of_frames fs hfs fun f hm => Frame.overwrites_of_isMute (hf f hm)

/-! #### Messages and emissions -/

theorem waveRegister_stack (c : Config V S) (n : NodeId) :
    (c.waveRegister n).stack = c.stack := by
  unfold Config.waveRegister
  split
  · split_ifs <;> rfl
  · rfl

variable (c)

section

variable (n : NodeId)

theorem receiveFromDep (i : Nat) (m : Message V) :
    Leads c (c.receiveFromDep n i m) := by
  have hstack := waveRegister_stack c n
  unfold Config.receiveFromDep
  dsimp only
  split_ifs
  · exact same hstack
  · have hinv := ((c.waveRegister n).nodes n).receive_invalidates
      (c.waveRegister n).currentDeliveryId (c.waveRegister n).deliveryInFlight i m
    have hports := ((c.waveRegister n).nodes n).receive_ports
      (c.waveRegister n).currentDeliveryId (c.waveRegister n).deliveryInFlight i m
    refine ⟨_, by simp only [Config.push, Config.setNode, hstack],
      ReceiveAction.frames_tail _ n hinv, ?_⟩
    intro f k hf hw
    have hmem := mem_of_mem_head? hf
    -- A terminated node leaves at most a relayed TEARDOWN.
    cases ht : ((c.waveRegister n).nodes n).value.terminal with
    | true =>
      rcases Node.receive_of_terminal _ ht _ _ i m with h | h <;> rw [h] at hmem
      all_goals
        rw [ReceiveAction.frames_overwrites _ n rfl f hmem] at hw
        cases hw
    | false =>
      have hk : k = n := by
        rcases mem_frames _ n f hmem with rfl | rfl | rfl | rfl | rfl | rfl | rfl | rfl |
          ⟨msgs, _, rfl⟩ | rfl | rfl
        all_goals cases hw
        rfl
      subst hk
      simp only [Config.push, Config.setNode, Function.update_self]
      exact (congrArg (·.2.2.2) hports).trans ht
  · exact same rfl

theorem emit (m : Message V) (subs : List SubscriberEntry) :
    Leads c (c.emit n m subs) := by
  cases subs with
  | nil => exact same rfl
  | cons e rest =>
    have hbelow : ∀ g ∈ [(.emit n m rest : Frame V)], g.overwrites = none := by
      simp [Frame.overwrites]
    simp only [Config.emit, deliver]
    split
    · rename_i s _
      refine of_frames [.user (.sink s m) 0, .emit n m rest] rfl ?_
      simp [Frame.overwrites]
    · split
      · exact (receiveFromDep _ _ _ m).above [.emit n m rest] rfl hbelow
      · exact of_frames [.emit n m rest] rfl hbelow

theorem emitDirtyOnce : Leads c (c.emitDirtyOnce n) := by
  unfold Config.emitDirtyOnce
  dsimp only
  split_ifs
  · exact same rfl
  · exact of_frames [.emit n .dirty (c.nodes n).aux.subscribers] rfl (by simp [Frame.overwrites])

theorem markDirty : Leads c (c.markDirty n) := by
  unfold Config.markDirty
  dsimp only
  split_ifs
  · exact same rfl
  · exact of_frames [.emit n .dirty (c.nodes n).aux.subscribers] rfl (by simp [Frame.overwrites])

theorem downEmit (inside : Bool) (wave : Wave V)
    (hn : (c.nodes n).value.terminal = false) : Leads c (c.downEmit n inside wave) := by
  unfold Config.downEmit
  dsimp only
  split_ifs
  · exact same rfl
  · exact of_head n (.emitDirtyOnce n) [.deliveryScope n wave, .downEnd n inside] rfl
      (by simp [Frame.overwrites]) rfl hn
  · exact of_frames [.deliveryScope n wave, .downEnd n inside] rfl (by simp [Frame.overwrites])

theorem downUnbatched (inside : Bool) (wave : Wave V)
    (hn : (c.nodes n).value.terminal = false) : Leads c (c.downUnbatched n inside wave) := by
  unfold Config.downUnbatched
  dsimp only
  split_ifs
  · exact same rfl
  · exact same rfl
  · exact downEmit c n inside _ hn
  · refine (downEmit _ n inside _ ?_).after rfl
    simp only [Config.setNode, Function.update_self, hn]
  · exact downEmit c n inside wave hn

theorem down (msgs : Wave V) : Leads c (c.down n msgs) := by
  have hstack := waveRegister_stack c n
  cases hn : (c.nodes n).value.terminal with
  | true =>
    have hsame : c.down n msgs = c := by
      simp only [Config.down, hn, ↓reduceIte]
    rw [hsame]
    exact same rfl
  | false =>
    have hreg := (Inert.waveRegister c n).silent.hushed
    have hn1 : ((c.waveRegister n).nodes n).value.terminal = false := by
      rw [hreg.terminal, hn]
    unfold Config.down
    dsimp only
    split_ifs
    · exact same rfl
    · have hd := hreg.trans (Inert.deferToBatch (c.waveRegister n) n
        ((collapseInvalidate (sortByTier msgs)).filter (·.tier.isBatchDeferred))).silent.hushed
      refine (of_head n (.emitDirtyOnce n) [.batchDirtyOwed n] rfl
        (by simp [Frame.overwrites]) rfl ?_ : Leads _ _).after ?_
      · exact (hd.terminal n).trans hn
      · unfold Config.deferToBatch
        split <;> exact hstack
    · exact same hstack
    · exact (downUnbatched _ n _ _ hn1).after hstack
    · exact (downUnbatched _ n _ _ hn1).after hstack

theorem downLoop (msgs : Wave V) : Leads c (c.downLoop n msgs) := by
  cases msgs with
  | nil => exact same rfl
  | cons m rest =>
    simp only [Config.downLoop]
    split
    · exact of_frames [.downLoop n rest] rfl (by simp [Frame.overwrites])
    · exact of_frames [.emit n m _, .downLoop n rest] rfl (by simp [Frame.overwrites])
    · rename_i hooks _
      refine of_frames (hookFrames hooks ++ [.emitToSubs n .invalidate, .downLoop n rest]) rfl ?_
      intro f hf
      rcases mem_append.mp hf with hf | hf
      · exact Frame.overwrites_of_isMute (Hushed.hookFrames_isMute _ f hf)
      · simp only [mem_cons, not_mem_nil, or_false] at hf
        rcases hf with rfl | rfl <;> rfl

theorem invalidate : Leads c (c.invalidate n) := by
  unfold Config.invalidate
  dsimp only
  split_ifs
  · refine of_frames (hookFrames (c.nodes n).aux.onInvalidate ++ [.emitToSubs n .invalidate]) rfl ?_
    intro f hf
    rcases mem_append.mp hf with hf | hf
    · exact Frame.overwrites_of_isMute (Hushed.hookFrames_isMute _ f hf)
    · rw [mem_singleton.mp hf]
      rfl
  · exact same rfl

end

/-! #### Subscriptions and rewires -/

theorem subscribe (n : NodeId) (sink : Sink) : Leads c (c.subscribe n sink) := by
  unfold Config.subscribe
  dsimp only
  split_ifs
  · refine of_frames _ rfl ?_
    intro f hf
    simp only [handshake, mem_append, mem_singleton] at hf
    grind [Frame.overwrites]
  · exact same rfl

theorem unsubscribe (n : NodeId) (id : Nat) : Leads c (c.unsubscribe n id) := by
  unfold Config.unsubscribe
  dsimp only
  split_ifs
  · exact of_frames [.deactivate n] rfl (by simp [Frame.overwrites])
  · exact same rfl
  · exact same rfl

/-- Detaching from the deps and firing the hooks writes no value. -/
theorem cleanup_overwrites (x : Node V S) :
    ∀ f ∈ unsubFrames x ++ hookFrames x.aux.onDeactivation, f.overwrites = none := by
  intro f hf
  rcases mem_append.mp hf with hf | hf
  · exact Frame.overwrites_of_isMute (Hushed.unsubFrames_isMute x f hf)
  · exact Frame.overwrites_of_isMute (Hushed.hookFrames_isMute _ f hf)

theorem rewireFinish (n : NodeId) (newDeps : List NodeId) (removedDirty : Bool) :
    Leads c (c.rewireFinish n newDeps removedDirty) := by
  unfold Config.rewireFinish
  dsimp only
  by_cases hterm : (c.nodes n).value.terminal = true
  · rw [if_pos hterm]
    exact same rfl
  · rw [if_neg hterm]
    rw [Bool.not_eq_true] at hterm
    have hn : ∀ x : Node V S, x.value = (c.nodes n).value →
        ((c.setNode n x).nodes n).value.terminal = false := by
      intro x hx
      simp only [Config.setNode, Function.update_self, hx, hterm]
    split_ifs
    · exact of_head n (.settleRewire n) [] rfl (by simp) rfl (hn _ rfl)
    · exact of_frames [.down n [.resolved]] rfl (by simp [Frame.overwrites])
    · exact same rfl
    · exact same rfl
    · exact same rfl

theorem settleRewire (n : NodeId) (hn : (c.nodes n).value.terminal = false) :
    Leads c (c.settleRewire n) := by
  unfold Config.settleRewire
  dsimp only
  split_ifs
  · exact same rfl
  · exact same rfl
  · exact of_frames [.passthroughEmit n] rfl (by simp [Frame.overwrites])
  · exact of_head n (.markDirty n) [.runWave n] rfl (by simp [Frame.overwrites]) rfl hn
  · exact same rfl

/-! #### User code -/

theorem perform (cb : Callback V) (o : UserOp V S) : Leads c (c.perform cb o) := by
  by_cases hnew : ∃ spec, o = .newNode spec
  · rcases hnew with ⟨spec, rfl⟩
    simp only [Config.perform, Config.newNode]
    split_ifs <;> exact same rfl
  by_cases hdrop : ∃ n, o = .drop n
  · rcases hdrop with ⟨n, rfl⟩
    simp only [Config.perform, Config.dropNode]
    split_ifs
    · exact of_frames _ rfl (cleanup_overwrites _)
    · exact same rfl
  · exact of_mute (Mute.perform cb o (not_exists.mp hnew) (not_exists.mp hdrop))

theorem stepUser (env : Env V S) (cb : Callback V) (i : Nat) :
    Leads c (c.stepUser env cb i) := by
  unfold Config.stepUser
  split
  · exact same rfl
  · exact same rfl
  · exact (perform _ cb _).above [.user cb (i + 1)] rfl (by simp [Frame.overwrites])

end Leads

/-! ### The second invariant -/

/-- A frame that writes a value without asking stands on top of the stack, and
    its node has not terminated. -/
structure Opened (c : Config V S) : Prop where
  below : ∀ f ∈ c.stack.tail, f.overwrites = none
  top : ∀ f n, c.stack.head? = some f → f.overwrites = some n →
    (c.nodes n).value.terminal = false

variable {c c' : Config V S}

theorem Leads.opened (h : Leads c c') (hrest : ∀ f ∈ c.stack, f.overwrites = none) : c'.Opened := by
  have habove : Leads ({ c with stack := [] } : Config V S) c' :=
    h.above c.stack (append_nil _).symm hrest
  rcases habove with ⟨fs, hfs, htail, hhead⟩
  have hempty : ({ c with stack := [] } : Config V S).stack = [] := rfl
  rw [hempty, append_nil] at hfs
  exact ⟨by rwa [hfs], by rwa [hfs]⟩

theorem enter_leads (env : Env V S) (c : Config V S) (f : Frame V)
    (hopen : ∀ n, f.overwrites = some n → (c.nodes n).value.terminal = false) :
    Leads c (c.enter env f) := by
  cases hmute : f.entersMute with
  | true => exact Leads.of_mute (enter_mute env c f hmute)
  | false =>
    cases f with
    | user cb i => exact Leads.stepUser c env cb i
    | emit n m subs => exact Leads.emit c n m subs
    | emitToSubs n m => exact Leads.of_frames [.emit n m _] rfl (by simp [Frame.overwrites])
    | emitDirtyOnce n => exact Leads.emitDirtyOnce c n
    | markDirty n => exact Leads.markDirty c n
    | down n msgs => exact Leads.down c n msgs
    | deliveryScope n msgs =>
      refine Leads.of_frames [.downLoop n msgs, .deliveryGuard c.currentDeliveryId] rfl ?_
      simp [Frame.overwrites]
    | downLoop n msgs => exact Leads.downLoop c n msgs
    | invalidate n => exact Leads.invalidate c n
    | subscribe n sink => exact Leads.subscribe c n sink
    | unsubscribe n id => exact Leads.unsubscribe c n id
    | deactivate n => exact Leads.of_frames _ rfl (Leads.cleanup_overwrites _)
    | rewireFinish n newDeps dirty => exact Leads.rewireFinish c n newDeps dirty
    | settleRewire n => exact Leads.settleRewire c n (hopen n rfl)
    | _ => cases hmute

/-- Every step preserves the second invariant. -/
theorem step_opened (hstep : Step c c') (hinv : c.Opened) : c'.Opened := by
  rcases hstep with ⟨env, hstep⟩
  rcases step_cases hstep with ⟨f, rest, hs, ⟨_, rfl⟩ | ⟨p, _, rfl⟩⟩
  · have hrest : ∀ g ∈ (c.popTo rest).stack, g.overwrites = none := by
      have := hinv.below
      rwa [hs] at this
    refine (enter_leads env (c.popTo rest) f ?_).opened hrest
    intro n hw
    exact hinv.top f n (by rw [hs]; rfl) hw
  · have hrest : ∀ g ∈ (c.popTo rest).stack, g.overwrites = none := by
      have := hinv.below
      rwa [hs] at this
    exact (Leads.of_mute (unwind_mute env (c.popTo rest) p f)).opened hrest

variable {n : NodeId}

theorem Opened.entering (hinv : c.Opened) {f : Frame V} (hf : c.Entering f)
    (hw : f.overwrites = some n) : (c.nodes n).value.terminal = false := by
  rcases hf with ⟨_, rest, hs⟩
  exact hinv.top f n (by rw [hs]; rfl) hw

/-! ### Coherence -/

/-- The condition on the state before a step. A message of an emission under
    way does not change the value of a node that has terminated, and a
    terminated node is only deactivated if it is a state node. -/
def KeepsTerminal (c : Config V S) : Prop :=
  match c.mode, c.stack with
  | .running, .downLoop n (m :: _) :: _ =>
    (c.nodes n).value.terminal = true → (c.nodes n).ignores m = true
  | .running, .deactivate n :: _ =>
    (c.nodes n).value.terminal = true → (c.nodes n).handle = none ∧ (c.nodes n).deps = []
  | _, _ => True

/-- The condition as a check. -/
def checksTerminal (c : Config V S) : Bool :=
  match c.mode, c.stack with
  | .running, .downLoop n (m :: _) :: _ =>
    decide ((c.nodes n).value.terminal = true → (c.nodes n).ignores m = true)
  | .running, .deactivate n :: _ =>
    decide ((c.nodes n).value.terminal = true →
      (c.nodes n).handle = none ∧ (c.nodes n).deps = [])
  | _, _ => true

theorem checksTerminal_iff (c : Config V S) : c.checksTerminal = true ↔ c.KeepsTerminal := by
  unfold checksTerminal KeepsTerminal
  split
  · exact decide_eq_true_iff
  · exact decide_eq_true_iff
  · exact iff_of_true rfl trivial

instance (c : Config V S) : Decidable c.KeepsTerminal :=
  decidable_of_iff (c.checksTerminal = true) c.checksTerminal_iff

/-- What one step does to a coherent value. -/
theorem slot_coherent (hguard : c.KeepsTerminal) (hopen : c.Opened)
    (hc : (c.nodes n).value.Coherent) {y : Node V S} {s : Nat} (h : SlotStep c n y s) :
    y.value.Coherent ∧
      (n < c.size → (c.nodes n).value.terminal = true → y.value = (c.nodes n).value) := by
  have hsame : y.value = (c.nodes n).value → y.value.Coherent ∧
      (n < c.size → (c.nodes n).value.terminal = true → y.value = (c.nodes n).value) := by
    intro heq
    rw [heq]
    exact ⟨hc, fun _ _ => rfl⟩
  -- A value that is only written while the node is open.
  have hwhen : (c.nodes n).value.terminal = false → y.value.Coherent → y.value.Coherent ∧
      (n < c.size → (c.nodes n).value.terminal = true → y.value = (c.nodes n).value) := by
    intro ht hy
    refine ⟨hy, ?_⟩
    intro _ htrue
    rw [ht] at htrue
    cases htrue
  cases h with
  | idle h => exact hsame (Node.value_of_kernel h)
  | received _ _ _ _ d b i m _ _ _ _ h =>
    rcases (c.nodes n).receive_value d b i m with hv | ⟨ht, hv⟩
    · exact hsame (by rw [h, hv])
    · exact hwhen ht (by rw [h, hv]; exact hc.dirtied ht)
  | relayed _ v h => exact hsame (by rw [h])
  | started _ h => exact hsame (by rw [h]; rfl)
  | rolled keep h => exact hsame (by rw [h]; rfl)
  | reset h => exact hsame (by rw [h]; rfl)
  | dirtied hf h =>
    have ht : (c.nodes n).value.terminal = false := by
      rcases hf with hf | hf
      · exact hopen.entering hf rfl
      · exact hopen.entering hf rfl
    refine hwhen ht ?_
    rw [Node.value_of_kernel h]
    exact hc.dirtied ht
  | told m rest hf h =>
    rcases hf with ⟨hmode, below, hs⟩
    simp only [KeepsTerminal, hmode, hs] at hguard
    cases ht : (c.nodes n).value.terminal with
    | false =>
      rw [ht] at hwhen
      exact ht ▸ hwhen rfl (by rw [h]; exact Node.collectDown_coherent hc ht m)
    | true =>
      rw [ht] at hsame
      refine hsame ?_
      rw [h]
      exact Node.collectDown_ignored ht (hguard ht)
  | invalidated hf h =>
    have ht := hopen.entering hf rfl
    refine hwhen ht ?_
    rw [h]
    exact NodeValueState.Coherent.dropped ht
  | deactivated hf h =>
    rcases hf with ⟨hmode, below, hs⟩
    simp only [KeepsTerminal, hmode, hs] at hguard
    by_cases hcompute : (c.nodes n).handle.isSome = true ∨ ¬ (c.nodes n).deps.isEmpty = true
    · have ht : (c.nodes n).value.terminal = false := by
        by_contra ht
        rcases hguard (Bool.not_eq_false _ ▸ ht) with ⟨hh, hd⟩
        simp [hh, hd] at hcompute
      refine hwhen ht ?_
      rw [h]
      simp only [Node.deactivated, hcompute, ↓reduceIte]
      exact NodeValueState.Coherent.dropped ht
    · exact hsame (by simp only [h, Node.deactivated, hcompute, ↓reduceIte])
  | activated _ _ h => exact hsame (by rw [h])
  | linked _ _ _ _ _ _ h => exact hsame (by rw [h])
  | created spec hn _ h =>
    refine ⟨?_, fun hlt => absurd hn (Nat.ne_of_lt hlt)⟩
    rw [h]
    cases hi : spec.initial with
    | none => simp only [freshNode, hi]; exact ⟨by simp, by simp, by simp⟩
    | some v => simp only [freshNode, hi]; exact ⟨by simp, by simp, by simp⟩
  | dropped _ h => exact hsame ((Node.value_of_kernel h).trans rfl)
  | swapped _ _ _ h => exact hsame ((Node.value_of_kernel h).trans rfl)
  | removed _ _ _ _ _ _ _ h => exact hsame (by rw [h])
  | assigned _ _ _ _ _ h => exact hsame (by rw [h])
  | finished _ _ _ ht status hs h =>
    refine hwhen ht ?_
    rw [Node.value_of_kernel h]
    rcases hs with rfl | rfl
    · exact hc
    · exact hc.settledBack ht
  | guarded _ _ h => exact hsame ((Node.value_of_kernel h).trans rfl)

/-- Every value is coherent. -/
def AllCoherent (c : Config V S) : Prop :=
  ∀ n, (c.nodes n).value.Coherent

theorem step_coherent (hstep : Step c c') (hguard : c.KeepsTerminal)
    (hopen : c.Opened) (hc : c.AllCoherent) : c'.AllCoherent :=
  fun n => (slot_coherent hguard hopen (hc n) (step_slot hstep n)).1

/-- A step that does not meet the condition writes over a terminal status. -/
theorem step_incoherent (hstep : Step c c') (hguard : ¬ c.KeepsTerminal) :
    ¬ c'.AllCoherent := by
  rcases hstep with ⟨env, hstep⟩
  rcases step_cases hstep with ⟨f, rest, hs, ⟨hmode, rfl⟩ | ⟨p, hmode, rfl⟩⟩
  · intro hc
    cases f with
    | downLoop n msgs =>
      cases msgs with
      | nil => simp [KeepsTerminal, hmode, hs] at hguard
      | cons m msgs =>
        simp only [KeepsTerminal, hmode, hs, not_forall] at hguard
        rcases hguard with ⟨ht, hm⟩
        refine Node.collectDown_incoherent ht (Bool.not_eq_true _ ▸ hm) ?_
        have hn := hc n
        simp only [enter, downLoop] at hn
        split at hn
        all_goals
          simp only [push, setNode, Function.update_self, popTo] at hn
          exact hn
    | deactivate n =>
      simp only [KeepsTerminal, hmode, hs, not_forall, not_and] at hguard
      rcases hguard with ⟨ht, hm⟩
      have hcompute : (c.nodes n).handle.isSome = true ∨ ¬ (c.nodes n).deps.isEmpty = true := by
        by_cases hh : (c.nodes n).handle = none
        · exact Or.inr (by rw [List.isEmpty_iff]; exact hm hh)
        · exact Or.inl (Option.isSome_iff_ne_none.mpr hh)
      have hn := (hc n).terminal
      simp only [enter, deactivate, push, record, setNode, popTo, Function.update_self,
        Node.deactivated, hcompute, ↓reduceIte, ht] at hn
      simp at hn
    | _ => exact hguard (by simp [KeepsTerminal, hmode, hs])
  · exact absurd (by simp [KeepsTerminal, hmode]) hguard

theorem initial_opened : (initial : Config V S).Opened where
  below := fun _ hf => absurd hf not_mem_nil
  top := by
    intro f n hf hw
    cases hf
    cases hw

theorem initial_coherent : (initial : Config V S).AllCoherent :=
  fun _ => ⟨by simp [initial], by simp [initial], by simp [initial]⟩

theorem guardedReach_coherent (hrun : GuardedReach KeepsTerminal c c')
    (h : c.Opened ∧ c.AllCoherent) : c'.Opened ∧ c'.AllCoherent := by
  have hkeep : ∀ a b : Config V S, Step a b → a.KeepsTerminal → a.Opened ∧ a.AllCoherent →
      b.Opened ∧ b.AllCoherent := fun a b hstep hguard ha =>
    ⟨step_opened hstep ha.1, step_coherent hstep hguard ha.1 ha.2⟩
  exact Transition.GuardedReach.invariant hkeep hrun h

/-- The value of a terminated node stays what it is. -/
theorem guardedReach_terminal_value
    (hrun : GuardedReach KeepsTerminal c c') (h : c.Opened ∧ c.AllCoherent)
    (hn : n < c.size) (ht : (c.nodes n).value.terminal = true) :
    n < c'.size ∧ (c'.nodes n).value = (c.nodes n).value := by
  induction hrun with
  | refl => exact ⟨hn, rfl⟩
  | @tail a b hprev hlast ih =>
    have ha := guardedReach_coherent hprev h
    have hval := (slot_coherent hlast.2 ha.1 (ha.2 n) (step_slot hlast.1 n)).2 ih.1
      (by rw [ih.2]; exact ht)
    exact ⟨step_size hlast.1 ih.1, hval.trans ih.2⟩

/-- In a run that meets the condition every value is coherent, and a node that
    has terminated never reports another status. The first step that does not
    meet the condition leaves an incoherent value. -/
theorem value_coherent (c : Config V S) (hrun : GuardedReach KeepsTerminal initial c) :
    c.AllCoherent ∧
      (∀ c', Step c c' → (c'.AllCoherent ↔ c.KeepsTerminal)) ∧
      ∀ c', GuardedReach KeepsTerminal c c' → ∀ n, n < c.size →
        (c.nodes n).value.status = .completed ∨ (c.nodes n).value.status = .errored →
        (c'.nodes n).value = (c.nodes n).value := by
  have hinv := guardedReach_coherent hrun ⟨initial_opened, initial_coherent⟩
  refine ⟨hinv.2, ?_, ?_⟩
  · intro c' hstep
    constructor
    · intro hc
      by_contra hguard
      exact step_incoherent hstep hguard hc
    · exact fun hguard => step_coherent hstep hguard hinv.1 hinv.2
  · intro c' hnext n hn hs
    exact (guardedReach_terminal_value hnext hinv hn ((hinv.2 n).terminal.mpr hs)).2

theorem value_coherent_completeThenData :
    (initial.run completeThenData 200).AllCoherent ∧
      ((initial.run completeThenData 200).nodes 0).value.status = .completed := by
  have hrun : GuardedReach KeepsTerminal initial (initial.run completeThenData 200) :=
    guardedReach_run completeThenData 200 initial (by decide +kernel)
  exact ⟨(value_coherent _ hrun).1, by decide +kernel⟩

/-- A derived node over a source that completes; its only sink then leaves. -/
def leaveAfterComplete : Env Nat Unit := Env.scripted fun cb => match cb with
  | .main => [.newNode { initial := some 1 }, .newNode { deps := [0], handle := some (0, .sync) },
      .subscribe 1 0, .down 0 [.complete], .unsubscribe 1 0]
  | .fn _ _ => [.ctxDown [.data 7]]
  | _ => []

-- The derived node completed with its dep. Its deactivation resets the status
-- and leaves the terminal flag.
theorem sentinel_after_complete :
    ¬ ∀ c, GuardedReach (fun _ => True) (initial : Config Nat Unit) c → c.AllCoherent := by
  intro h
  have hrun : GuardedReach (fun _ => True) initial (initial.run leaveAfterComplete 200) :=
    guardedReach_run leaveAfterComplete 200 initial (fun _ _ => trivial)
  have hterm := (h _ hrun 1).terminal
  have hvalue : ((initial.run leaveAfterComplete 200).nodes 1).value =
      { cache := none, hasData := false, status := .sentinel, terminal := true } := by
    decide +kernel
  rw [hvalue] at hterm
  simp at hterm

end Config

end GraphRefly
