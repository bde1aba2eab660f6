import GraphRefly.Safety.Coherent

/-!
# Emissions Under Way

A wave is emitted by a scope and the loop over its messages. Only `down` opens a scope,
with messages that it was given. No other step puts one on the stack, and but for the
allocation of a node no step changes the size of the arena.

## Main definitions

* `Frame.emission`: The wave a frame has still to emit.
* `Config.Scopeless`, `Config.Opens`: What a step does that opens no scope, and one that does.

## Theorems

* `enter_scopeless`: Most steps open no scope.
* `down_opens`: The scope that `down` opens.
* `step_turn`: What one step does to the waves under way and to the arena.
-/

namespace GraphRefly

open List

variable {V S : Type}

/-- The wave a frame has still to emit. -/
def Frame.emission : Frame V → Option (NodeId × Wave V)
  | .deliveryScope n msgs => some (n, msgs)
  | .downLoop n msgs => some (n, msgs)
  | _ => none

theorem Frame.emission_of_isMute {f : Frame V} (h : f.isMute = true) : f.emission = none := by
  cases f <;> first | rfl | cases h

namespace Config

/-- Enrolling a node in a wave writes nothing else. -/
theorem waveRegister_wave (c : Config V S) (n : NodeId) :
    c.waveRegister n = { c with wave := (c.waveRegister n).wave } := by
  unfold Config.waveRegister
  split
  · split_ifs <;> rfl
  · rfl

/-- No node is allocated, and none of the frames that are pushed emits a wave. -/
structure Scopeless (c c' : Config V S) : Prop where
  size : c'.size = c.size
  stack : ∃ fs, c'.stack = fs ++ c.stack ∧ ∀ f ∈ fs, f.emission = none

namespace Scopeless

variable {c c₁ c' : Config V S}

theorem of_frames (fs : List (Frame V)) (hsize : c'.size = c.size)
    (hstack : c'.stack = fs ++ c.stack) (hf : ∀ f ∈ fs, f.emission = none) : Scopeless c c' :=
  ⟨hsize, fs, hstack, hf⟩

theorem same (hsize : c'.size = c.size) (hstack : c'.stack = c.stack) : Scopeless c c' :=
  of_frames [] hsize hstack fun _ hf => absurd hf not_mem_nil

theorem trans (h : Scopeless c c₁) (h' : Scopeless c₁ c') : Scopeless c c' := by
  obtain ⟨fs, hfs, hf⟩ := h.stack
  obtain ⟨gs, hgs, hg⟩ := h'.stack
  refine ⟨h'.size.trans h.size, gs ++ fs, by rw [hgs, hfs, append_assoc], ?_⟩
  intro f hmem
  rcases mem_append.mp hmem with hmem | hmem
  · exact hg f hmem
  · exact hf f hmem

theorem of_mute (h : Mute c c') : Scopeless c c' := by
  obtain ⟨fs, hfs, hf⟩ := h.stack
  exact of_frames fs h.size hfs fun f hmem => Frame.emission_of_isMute (hf f hmem)

theorem of_silent (h : Silent c c') : Scopeless c c' :=
  of_mute h.mute

variable (c)

theorem push (fs : List (Frame V)) (hf : ∀ f ∈ fs, f.emission = none) : Scopeless c (c.push fs) :=
  of_frames fs rfl rfl hf

/-! #### Messages -/

section

variable (n : NodeId)

theorem receiveFromDep (i : Nat) (m : Message V) :
    Scopeless c (c.receiveFromDep n i m) := by
  have hreg := of_silent (Inert.waveRegister c n).silent
  unfold Config.receiveFromDep
  dsimp only
  split_ifs
  · exact hreg.trans (same rfl rfl)
  · refine hreg.trans (of_frames _ rfl rfl fun f hf => ?_)
    rcases mem_frames _ n f hf with rfl | rfl | rfl | rfl | rfl | rfl | rfl | rfl |
      ⟨msgs, _, rfl⟩ | rfl | rfl
    all_goals rfl
  · exact same rfl rfl

theorem emit (m : Message V) (subs : List SubscriberEntry) :
    Scopeless c (c.emit n m subs) := by
  cases subs with
  | nil => exact same rfl rfl
  | cons e rest =>
    refine trans (push c [.emit n m rest] (by simp [Frame.emission])) ?_
    unfold Config.emit deliver
    dsimp only
    split
    · exact of_frames [.user _ 0] rfl rfl (by simp [Frame.emission])
    · split
      · refine trans ?_ (receiveFromDep _ _ _ m)
        exact same rfl rfl
      · exact same rfl rfl

theorem emitDirtyOnce : Scopeless c (c.emitDirtyOnce n) := by
  unfold Config.emitDirtyOnce
  dsimp only
  split_ifs
  · exact same rfl rfl
  · exact of_frames [.emit n .dirty _] rfl rfl (by simp [Frame.emission])

theorem markDirty : Scopeless c (c.markDirty n) := by
  unfold Config.markDirty
  dsimp only
  split_ifs
  · exact same rfl rfl
  · exact of_frames [.emit n .dirty _] rfl rfl (by simp [Frame.emission])

theorem hookFrames_emission (hooks : List HookId) :
    ∀ f ∈ (hookFrames hooks : List (Frame V)), f.emission = none := fun f hf =>
  Frame.emission_of_isMute (Hushed.hookFrames_isMute _ f hf)

theorem invalidate : Scopeless c (c.invalidate n) := by
  unfold Config.invalidate
  dsimp only
  split_ifs
  · refine of_frames (hookFrames _ ++ [.emitToSubs n .invalidate]) rfl rfl fun f hf => ?_
    rcases mem_append.mp hf with hf | hf
    · exact hookFrames_emission _ f hf
    · rw [mem_singleton.mp hf]
      rfl
  · exact same rfl rfl

end

/-! #### Subscriptions and rewires -/

theorem subscribe (n : NodeId) (sink : Sink) : Scopeless c (c.subscribe n sink) := by
  unfold Config.subscribe
  dsimp only
  split_ifs
  · refine of_frames _ rfl rfl fun f hf => ?_
    simp only [handshake, mem_append, mem_singleton] at hf
    grind [Frame.emission]
  · exact same rfl rfl

theorem unsubscribe (n : NodeId) (id : Nat) : Scopeless c (c.unsubscribe n id) := by
  unfold Config.unsubscribe
  dsimp only
  split_ifs
  · exact of_frames [.deactivate n] rfl rfl (by simp [Frame.emission])
  · exact same rfl rfl
  · exact same rfl rfl

theorem cleanup_emission (x : Node V S) :
    ∀ f ∈ unsubFrames x ++ hookFrames x.aux.onDeactivation, f.emission = none := by
  intro f hf
  rcases mem_append.mp hf with hf | hf
  · exact Frame.emission_of_isMute (Hushed.unsubFrames_isMute x f hf)
  · exact hookFrames_emission _ f hf

theorem rewireFinish (n : NodeId) (newDeps : List NodeId) (removedDirty : Bool) :
    Scopeless c (c.rewireFinish n newDeps removedDirty) := by
  unfold Config.rewireFinish
  dsimp only
  split_ifs
  · exact same rfl rfl
  · exact of_frames [.settleRewire n] rfl rfl (by simp [Frame.emission])
  · exact of_frames [.down n [.resolved]] rfl rfl (by simp [Frame.emission])
  · exact same rfl rfl
  · exact same rfl rfl
  · exact same rfl rfl

theorem settleRewire (n : NodeId) : Scopeless c (c.settleRewire n) := by
  unfold Config.settleRewire
  dsimp only
  split_ifs
  · exact same rfl rfl
  · exact same rfl rfl
  · exact of_frames [.passthroughEmit n] rfl rfl (by simp [Frame.emission])
  · exact of_frames [.markDirty n, .runWave n] rfl rfl (by simp [Frame.emission])
  · exact same rfl rfl

/-! #### User code -/

theorem perform (cb : Callback V) (o : UserOp V S) (hnew : ∀ spec, o ≠ .newNode spec) :
    Scopeless c (c.perform cb o) := by
  by_cases hdrop : ∃ n, o = .drop n
  · obtain ⟨n, rfl⟩ := hdrop
    simp only [Config.perform, Config.dropNode]
    split_ifs
    · exact of_frames _ rfl rfl (cleanup_emission _)
    · exact same rfl rfl
  · exact of_mute (Mute.perform cb o hnew (not_exists.mp hdrop))

/-- The allocation of a node pushes nothing. -/
theorem newNode_stack (spec : NodeSpec V) : (c.newNode spec).stack = c.stack := by
  unfold Config.newNode
  split_ifs <;> rfl

end Scopeless

/-- The frame is not a user's that performs the allocation of a node. -/
def AllocatesNot (env : Env V S) (c : Config V S) (f : Frame V) : Prop :=
  ∀ cb i spec, f = .user cb i → env.act cb c i ≠ .op (.newNode spec)

-- The cases are those of the source functions, one at a time. What is left of the stack
-- below is never touched.
theorem enter_scopeless (env : Env V S) (c : Config V S) (f : Frame V) (hf : f.emission = none)
    (hdown : ∀ n msgs, f ≠ .down n msgs) (hnew : AllocatesNot env c f) :
    Scopeless c (c.enter env f) := by
  cases hmute : f.entersMute with
  | true => exact Scopeless.of_mute (enter_mute env c f hmute)
  | false =>
    cases f with
    | user cb i =>
      simp only [enter, stepUser]
      split
      · exact Scopeless.same rfl rfl
      · exact Scopeless.same rfl rfl
      · rename_i o hact
        refine (Scopeless.push c [.user cb (i + 1)] (by simp [Frame.emission])).trans ?_
        refine Scopeless.perform _ cb o fun spec hspec => hnew cb i spec rfl ?_
        rw [hact, hspec]
    | emit n m subs => exact Scopeless.emit c n m subs
    | emitToSubs n m => exact Scopeless.of_frames [.emit n m _] rfl rfl (by simp [Frame.emission])
    | emitDirtyOnce n => exact Scopeless.emitDirtyOnce c n
    | markDirty n => exact Scopeless.markDirty c n
    | down n msgs => exact absurd rfl (hdown n msgs)
    | deliveryScope n msgs => cases hf
    | downLoop n msgs => cases hf
    | invalidate n => exact Scopeless.invalidate c n
    | subscribe n sink => exact Scopeless.subscribe c n sink
    | unsubscribe n id => exact Scopeless.unsubscribe c n id
    | deactivate n => exact Scopeless.of_frames _ rfl rfl (Scopeless.cleanup_emission _)
    | rewireFinish n newDeps dirty => exact Scopeless.rewireFinish c n newDeps dirty
    | settleRewire n => exact Scopeless.settleRewire c n
    | _ => cases hmute

/-! ### Where waves come from -/

/-- What `down` does: no node is allocated, and a scope that it opens has messages it was
    given. -/
structure Opens (n : NodeId) (msgs : Wave V) (c c' : Config V S) : Prop where
  size : c'.size = c.size
  stack : ∃ fs, c'.stack = fs ++ c.stack ∧
    ∀ f ∈ fs, ∀ m wave, f.emission = some (m, wave) → m = n ∧ wave ⊆ msgs

namespace Opens

variable {c c₁ c' : Config V S} {n : NodeId} {msgs : Wave V}

theorem of_scopeless (h : Scopeless c c') : Opens n msgs c c' := by
  obtain ⟨fs, hfs, hf⟩ := h.stack
  refine ⟨h.size, fs, hfs, fun f hmem m wave he => ?_⟩
  rw [hf f hmem] at he
  cases he

theorem after (h : Scopeless c c₁) (h' : Opens n msgs c₁ c') : Opens n msgs c c' := by
  obtain ⟨fs, hfs, hf⟩ := h.stack
  obtain ⟨gs, hgs, hg⟩ := h'.stack
  refine ⟨h'.size.trans h.size, gs ++ fs, by rw [hgs, hfs, append_assoc], ?_⟩
  intro f hmem m wave he
  rcases mem_append.mp hmem with hmem | hmem
  · exact hg f hmem m wave he
  · rw [hf f hmem] at he
    cases he

theorem downEmit (c : Config V S) (inside : Bool) {wave : Wave V} (hwave : wave ⊆ msgs) :
    Opens n msgs c (c.downEmit n inside wave) := by
  unfold Config.downEmit
  dsimp only
  split_ifs
  · exact of_scopeless (Scopeless.same rfl rfl)
  · refine ⟨rfl, [.emitDirtyOnce n, .deliveryScope n wave, .downEnd n inside], rfl, ?_⟩
    simp only [mem_cons, not_mem_nil, or_false]
    rintro f (rfl | rfl | rfl) m other he
    · cases he
    · obtain ⟨rfl, rfl⟩ := Prod.mk.inj (Option.some.inj he)
      exact ⟨rfl, hwave⟩
    · cases he
  · refine ⟨rfl, [.deliveryScope n wave, .downEnd n inside], rfl, ?_⟩
    simp only [mem_cons, not_mem_nil, or_false]
    rintro f (rfl | rfl) m other he
    · obtain ⟨rfl, rfl⟩ := Prod.mk.inj (Option.some.inj he)
      exact ⟨rfl, hwave⟩
    · cases he

theorem downUnbatched (c : Config V S) (inside : Bool) {wave : Wave V} (hwave : wave ⊆ msgs) :
    Opens n msgs c (c.downUnbatched n inside wave) := by
  have hrest : wave.filter (!·.tier.isPauseBuffered) ⊆ msgs := fun m hm =>
    hwave (mem_of_mem_filter hm)
  unfold Config.downUnbatched
  dsimp only
  split_ifs
  · exact of_scopeless (Scopeless.same rfl rfl)
  · exact of_scopeless (Scopeless.same rfl rfl)
  · exact downEmit c inside hrest
  · refine after ?_ (downEmit _ inside hrest)
    exact Scopeless.same rfl rfl
  · exact downEmit c inside hwave

end Opens

section

variable (c : Config V S) (n : NodeId) (msgs : Wave V)

theorem down_opens :
    Opens n msgs c (c.down n msgs) := by
  have hreg := Scopeless.of_silent (Inert.waveRegister c n).silent
  have hsorted : collapseInvalidate (sortByTier msgs) ⊆ msgs := by
    intro m hm
    exact (mem_sortByTier msgs m).mp ((collapseInvalidate_sublist _).subset hm)
  have hrest : (collapseInvalidate (sortByTier msgs)).filter (!·.tier.isBatchDeferred) ⊆ msgs :=
    fun m hm => hsorted (mem_of_mem_filter hm)
  unfold Config.down
  dsimp only
  split_ifs
  · exact .of_scopeless (Scopeless.same rfl rfl)
  · refine .of_scopeless (hreg.trans (Scopeless.trans
      (Scopeless.of_silent (Inert.deferToBatch _ n _).silent)
      (Scopeless.push _ [.emitDirtyOnce n, .batchDirtyOwed n] (by simp [Frame.emission]))))
  · exact .of_scopeless hreg
  · exact .after hreg (.downUnbatched _ _ hrest)
  · exact .after hreg (.downUnbatched _ _ hsorted)

theorem deliveryScope_opens :
    Opens n msgs c (c.deliveryScope n msgs) := by
  refine ⟨rfl, [.downLoop n msgs, .deliveryGuard c.currentDeliveryId], rfl, ?_⟩
  simp only [mem_cons, not_mem_nil, or_false]
  rintro f (rfl | rfl) m wave he
  · obtain ⟨rfl, rfl⟩ := Prod.mk.inj (Option.some.inj he)
    exact ⟨rfl, List.Subset.refl _⟩
  · cases he

theorem downLoop_opens :
    Opens n msgs c (c.downLoop n msgs) := by
  cases msgs with
  | nil => exact .of_scopeless (Scopeless.same rfl rfl)
  | cons m rest =>
    -- Whatever is pushed for the message, the loop goes on with the rest.
    have hloop : ∀ (c' : Config V S) (fs : List (Frame V)), c'.size = c.size →
        c'.stack = (fs ++ [.downLoop n rest]) ++ c.stack → (∀ f ∈ fs, f.emission = none) →
          Opens n (m :: rest) c c' := by
      intro c' fs hsize hstack hfs
      refine ⟨hsize, _, hstack, fun f hmem k wave he => ?_⟩
      rcases mem_append.mp hmem with hmem | hmem
      · rw [hfs f hmem] at he
        cases he
      · rw [mem_singleton.mp hmem] at he
        obtain ⟨rfl, rfl⟩ := Prod.mk.inj (Option.some.inj he)
        exact ⟨rfl, subset_cons_self _ _⟩
    simp only [Config.downLoop]
    split
    · exact hloop _ [] rfl rfl (by simp)
    · exact hloop _ [.emit n m _] rfl rfl (by simp [Frame.emission])
    · rename_i hooks _
      refine hloop _ (hookFrames hooks ++ [.emitToSubs n .invalidate]) rfl ?_ fun f hf => ?_
      · simp [Config.push, Config.setNode, hookFrames]
      · rcases mem_append.mp hf with hf | hf
        · exact Scopeless.hookFrames_emission _ f hf
        · rw [mem_singleton.mp hf]
          rfl

end

/-- What one step does: it opens no scope, or it allocates a node, or it opens one with
    messages of the wave it has on top. -/
inductive Turn (env : Env V S) (c c' : Config V S) : Prop
  | scopeless (rest : List (Frame V)) (hrest : rest ⊆ c.stack) (h : Scopeless (c.popTo rest) c')
  | created (cb : Callback V) (i : Nat) (spec : NodeSpec V) (rest : List (Frame V))
      (hmode : c.mode = .running) (hs : c.stack = .user cb i :: rest)
      (hact : env.act cb (c.popTo rest) i = .op (.newNode spec))
      (h : c' = ((c.popTo rest).push [.user cb (i + 1)]).newNode spec)
  | asked (n : NodeId) (msgs : Wave V) (rest : List (Frame V)) (hmode : c.mode = .running)
      (hs : c.stack = .down n msgs :: rest) (h : c' = (c.popTo rest).down n msgs)
  | goesOn (f : Frame V) (n : NodeId) (msgs : Wave V) (rest : List (Frame V))
      (hmode : c.mode = .running) (hs : c.stack = f :: rest) (hf : f.emission = some (n, msgs))
      (h : Opens n msgs (c.popTo rest) c')

theorem step_turn {env : Env V S} {c c' : Config V S} (hstep : c.step env = some c') :
    Turn env c c' := by
  obtain ⟨f, rest, hs, ⟨hmode, rfl⟩ | ⟨p, hmode, rfl⟩⟩ := step_cases hstep
  · have hrest : rest ⊆ c.stack := by
      rw [hs]
      exact subset_cons_self _ _
    by_cases hdown : ∃ n msgs, f = .down n msgs
    · obtain ⟨n, msgs, rfl⟩ := hdown
      exact .asked n msgs rest hmode hs rfl
    cases he : f.emission with
    | some wave =>
      obtain ⟨n, msgs⟩ := wave
      refine .goesOn f n msgs rest hmode hs he ?_
      cases f <;> try cases he
      · exact deliveryScope_opens _ n msgs
      · exact downLoop_opens _ n msgs
    | none =>
      by_cases hnew : AllocatesNot env (c.popTo rest) f
      · exact .scopeless rest hrest (enter_scopeless env _ f he
          (fun n msgs h => hdown ⟨n, msgs, h⟩) hnew)
      · simp only [AllocatesNot, not_forall, not_not] at hnew
        obtain ⟨cb, i, spec, rfl, hact⟩ := hnew
        refine .created cb i spec rest hmode hs hact ?_
        simp only [enter, stepUser, hact]
        rfl
  · refine .scopeless rest ?_ (Scopeless.of_mute (unwind_mute env _ p f))
    rw [hs]
    exact subset_cons_self _ _

end Config

end GraphRefly
