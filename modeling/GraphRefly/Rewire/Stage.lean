import GraphRefly.Rewire.Index
import GraphRefly.Safety.Slots

/-!
# The Stages of a Rewire

A rewire runs in stages, one frame each: the mutation starts, the removed deps
are drained one by one, the arrays are rebuilt, the mutation ends. User code
runs between the stages, and it may do anything but rewire the same node.

The frames on the stack and the mutation flag of the node say the same thing. At
most one stage of a node is under way, the flag is set while it is, and below it
stand only the guards that clear the flag.

## Main definitions

* `Frame.isStage`, `Frame.rewiringNode`: The frames of a rewire.
* `Frame.isInstant`: The stages that are entered as soon as they are pushed.
* `Config.StageStep`: What one step does to the frames of rewires.
* `Stage`, `Config.stages`: The stages of one node on the stack.
* `Config.Staged`: The stack and the mutation flags agree.

## Theorems

* `step_stage`: Every step does one of the listed things.
* `step_staged`: Every step preserves the invariant.
-/

namespace GraphRefly

open List

variable {V S : Type}

/-- A stage of a rewire, from the start of the mutation to its guard. -/
def Frame.isStage : Frame V → Bool
  | .rewireApply _ _ _ => true
  | .rewireRemove _ _ _ _ _ _ => true
  | .rewireAssign _ _ _ _ _ => true
  | .rewireFinish _ _ _ => true
  | .depMutationGuard _ => true
  | _ => false

/-- The node a frame rewires. -/
def Frame.rewiringNode : Frame V → Option NodeId
  | .externalRewire n _ => some n
  | .rewireInner n _ _ _ => some n
  | .rewireApply n _ _ => some n
  | .rewireRemove n _ _ _ _ _ => some n
  | .rewireAssign n _ _ _ _ => some n
  | .rewireFinish n _ _ => some n
  | .depMutationGuard n => some n
  | _ => none

/-- A stage that is entered as soon as it is pushed. -/
def Frame.isInstant : Frame V → Bool
  | .rewireApply _ _ _ => true
  | .rewireAssign _ _ _ _ _ => true
  | _ => false

/-- A stage that works on the removed deps. -/
def Frame.isDraining : Frame V → Bool
  | .rewireRemove _ _ _ _ _ _ => true
  | .rewireAssign _ _ _ _ _ => true
  | _ => false

variable {f : Frame V}

theorem Frame.isStage_of_isPlain (h : f.isPlain = true) : f.isStage = false := by
  cases f <;> first | rfl | cases h

theorem Frame.rewiringNode_of_isPlain (h : f.isPlain = true) :
    f.rewiringNode = none := by
  cases f <;> first | rfl | cases h

theorem Frame.isStage_of_isInstant (h : f.isInstant = true) : f.isStage = true := by
  cases f <;> first | rfl | cases h

namespace Config

/-! ### What one step pushes -/

/-- The frame belongs to no stage; if it starts a rewire, its node is live or a
    frame of `c` already rewired it. -/
def Unstaged (c : Config V S) (f : Frame V) : Prop :=
  f.isStage = false ∧ ∀ n, f.rewiringNode = some n →
    (c.nodes n).live = true ∨ ∃ g ∈ c.stack, g.rewiringNode = some n

/-- What one step does to the frames of rewires. -/
inductive StageStep (c c' : Config V S) : Prop
  | outside (f : Frame V) (rest fs : List (Frame V)) (hs : c.stack = f :: rest)
      (hd : c.mode = .running → f.isDraining = false) (hs' : c'.stack = fs ++ rest)
        (hf : ∀ g ∈ fs, c.Unstaged g)
  | checked (n : NodeId) (newDeps : List NodeId) (f : FnId) (allow : Bool)
      (rest fs : List (Frame V)) (hs : c.stack = .rewireInner n newDeps f allow :: rest)
      (hmode : c'.mode = .running) (hflag : (c.nodes n).wave.inDepMutation = false)
      (hn : c'.nodes = c.nodes)
      (hs' : c'.stack = .rewireApply n (dedupCores newDeps) f :: fs ++ rest)
      (hf : ∀ g ∈ fs, c.Unstaged g)
  | applied (n : NodeId) (newDeps : List NodeId) (f : FnId) (rest : List (Frame V))
      (hs : c.stack = .rewireApply n newDeps f :: rest) (hdeps : (c.nodes n).deps ≠ newDeps)
      (hn : c'.nodes = Function.update c.nodes n { swapFnPreservingPool (c.nodes n) f with
        wave := { (c.nodes n).wave with inDepMutation := true, rewireRunPending := false } })
      (hb : c'.boxes = c.boxes)
      (hs' : c'.stack = .rewireRemove n (c.nodes n).deps newDeps (c.nodes n).aux.activated
        (removedIdxs (c.nodes n).deps newDeps) false :: .depMutationGuard n :: rest)
  | drained (n : NodeId) (oldDeps newDeps : List NodeId) (activated dirty : Bool)
      (rest : List (Frame V)) (hmode : c'.mode = .running)
      (hs : c.stack = .rewireRemove n oldDeps newDeps activated [] dirty :: rest)
      (hn : c'.nodes = c.nodes) (hb : c'.boxes = c.boxes)
      (hs' : c'.stack = .rewireAssign n oldDeps newDeps activated dirty :: rest)
  | draining (n : NodeId) (oldDeps newDeps : List NodeId) (activated dirty : Bool) (i : Nat)
      (removed : List Nat) (rest fs : List (Frame V))
      (hs : c.stack = .rewireRemove n oldDeps newDeps activated (i :: removed) dirty :: rest)
      (hn : c'.nodes = Function.update c.nodes n { c.nodes n with
        dep := if (c.nodes n).dep.dirty.getD i false then
          { (c.nodes n).dep with pending := (c.nodes n).dep.pending - 1 } else (c.nodes n).dep
        unsubs := (c.nodes n).unsubs.set i none })
      (hb : c'.boxes = match (c.nodes n).idxBoxes.getD i none with
        | some b => Function.update c.boxes b none
        | none => c.boxes)
      (hfs : fs = match (c.nodes n).unsubs.getD i none with
        | some u => [.unsubscribe u.1 u.2]
        | none => [])
      (hs' : c'.stack = fs ++ .rewireRemove n oldDeps newDeps activated removed
        (dirty || (c.nodes n).dep.dirty.getD i false) :: rest)
  | assigned (n : NodeId) (oldDeps newDeps : List NodeId) (activated dirty : Bool)
      (rest fs : List (Frame V))
      (hs : c.stack = .rewireAssign n oldDeps newDeps activated dirty :: rest)
      (hn : c'.nodes = Function.update c.nodes n { c.nodes n with
        deps := newDeps
        dep := (c.nodes n).dep.rewired (newToOld oldDeps newDeps)
        unsubs := (newToOld oldDeps newDeps).map fun o =>
          o.elim none fun i => (c.nodes n).unsubs.getD i none
        idxBoxes := (newToOld oldDeps newDeps).map fun o =>
          o.elim none fun i => (c.nodes n).idxBoxes.getD i none
        restoredHandshake := List.replicate newDeps.length false })
      (hb : c'.boxes = rerouteBoxes c.boxes (c.nodes n).idxBoxes
        ((newToOld oldDeps newDeps).mapIdx fun j o => (j, o)))
      (hfs : fs = (if activated then
        (addedDeps oldDeps newDeps).map (fun p => .subscribeDep n p.1 p.2) else []) ++
          [.notifyTopology n oldDeps newDeps])
      (hs' : c'.stack = fs ++ .rewireFinish n newDeps dirty :: rest)

variable {f : Frame V}

theorem unstaged_of_not_rewiring (c : Config V S) (h : f.isStage = false)
    (hn : f.rewiringNode = none) : c.Unstaged f := by
  refine ⟨h, ?_⟩
  intro n hf
  rw [hn] at hf
  cases hf

theorem unstaged_of_isPlain (c : Config V S) (h : f.isPlain = true) :
    c.Unstaged f := by
  refine ⟨Frame.isStage_of_isPlain h, ?_⟩
  intro n hn
  rw [Frame.rewiringNode_of_isPlain h] at hn
  cases hn

namespace StageStep

variable {c c' : Config V S} {f : Frame V} {rest : List (Frame V)}

/-- The step pops a frame and pushes some that belong to no stage. -/
theorem of_frames (hs : c.stack = f :: rest) (hd : c.mode = .running → f.isDraining = false)
    (fs : List (Frame V)) (hs' : c'.stack = fs ++ (c.popTo rest).stack)
    (hf : ∀ g ∈ fs, c.Unstaged g) : StageStep c c' :=
  .outside f rest fs hs hd hs' hf

theorem of_same (hs : c.stack = f :: rest) (hd : c.mode = .running → f.isDraining = false)
    (hs' : c'.stack = (c.popTo rest).stack) : StageStep c c' :=
  .outside f rest [] hs hd hs' (fun _ hg => absurd hg not_mem_nil)

theorem of_plain (hs : c.stack = f :: rest) (hd : c.mode = .running → f.isDraining = false)
    (h : Plain (c.popTo rest) c') : StageStep c c' := by
  rcases h.stack with ⟨fs, hs', hf⟩
  exact of_frames hs hd fs hs' fun g hg => unstaged_of_isPlain c (hf g hg)

theorem deferBoundary_stack (c : Config V S) (n : NodeId) (kind : TaskKind V)
    (token : Option Nat) : (c.deferBoundary n kind token).stack = c.stack := by
  have hreg : c.registerBoundaryRoot.stack = c.stack := by
    unfold registerBoundaryRoot
    split <;> rfl
  exact hreg

theorem drainFinish_stack (c : Config V S) (escaped : Option Payload) :
    (c.drainFinish escaped).stack = c.stack := by
  unfold Config.drainFinish
  cases escaped <;> rfl

theorem closeUncommitted_stack (c : Config V S) (roots : Bool) :
    (c.closeUncommitted roots).stack = c.stack := by
  unfold Config.closeUncommitted
  dsimp only
  split_ifs <;> rfl

/-- Operations of user code start no stage. -/
theorem perform (c : Config V S) (cb : Callback V) (o : UserOp V S) :
    ∃ fs, (c.perform cb o).stack = fs ++ c.stack ∧ ∀ g ∈ fs, c.Unstaged g := by
  have hnone : ∀ c' : Config V S, c'.stack = c.stack →
      ∃ fs, c'.stack = fs ++ c.stack ∧ ∀ g ∈ fs, c.Unstaged g :=
    fun c' hs => ⟨[], hs, fun _ hg => absurd hg not_mem_nil⟩
  cases perform_cases c cb o with
  | inert h =>
    rcases h.plain.stack with ⟨fs, hs, hf⟩
    exact ⟨fs, hs, fun g hg => unstaged_of_isPlain c (hf g hg)⟩
  | created spec _ h =>
    rw [h]
    unfold newNode
    split_ifs <;> exact hnone _ rfl
  | dropped n _ h =>
    rw [h]
    unfold dropNode
    dsimp only
    split_ifs
    · refine ⟨_, rfl, ?_⟩
      intro g hg
      refine unstaged_of_isPlain c (Frame.isPlain_of_isSilent g ?_)
      rcases mem_append.mp hg with hg | hg
      · exact Silent.unsubFrames _ g hg
      · exact Silent.hookFrames _ g hg
    · exact hnone _ rfl
  | rewired n req hl _ h =>
    rw [h]
    refine ⟨[.externalRewire n req], rfl, ?_⟩
    intro g hg
    rw [mem_singleton.mp hg]
    refine ⟨rfl, ?_⟩
    intro k hk
    cases hk
    rw [isLive, Bool.and_eq_true] at hl
    exact Or.inl hl.2
  | deferred n kind _ h =>
    rw [h]
    exact hnone _ (deferBoundary_stack c n kind _)

theorem stepUser (env : Env V S) {cb : Callback V} {i : Nat}
    (hs : c.stack = .user cb i :: rest) : StageStep c ((c.popTo rest).stepUser env cb i) := by
  unfold Config.stepUser
  split
  · exact of_same hs (fun _ => rfl) rfl
  · exact of_same hs (fun _ => rfl) rfl
  · rename_i o _
    rcases perform ((c.popTo rest).push [.user cb (i + 1)]) cb o with ⟨fs, hs', hf⟩
    refine of_frames hs (fun _ => rfl) (fs ++ [.user cb (i + 1)])
      (by rw [hs', append_assoc]; rfl) ?_
    intro g hg
    rcases mem_append.mp hg with hg | hg
    · refine ⟨(hf g hg).1, ?_⟩
      intro n hn
      refine ((hf g hg).2 n hn).imp_right ?_
      rintro ⟨k, hk, hkn⟩
      rcases mem_append.mp hk with hk | hk
      · rw [mem_singleton.mp hk] at hkn
        cases hkn
      · exact ⟨k, by rw [hs]; exact mem_cons_of_mem _ hk, hkn⟩
    · rw [mem_singleton.mp hg]
      exact unstaged_of_isPlain c rfl

/-- The frames of a task rewire its target at most. -/
theorem taskFrames_unstaged (c : Config V S) (t : BoundaryTask V)
    (hl : (c.nodes t.target).live = true) : ∀ g ∈ c.taskFrames t, c.Unstaged g := by
  intro g hg
  cases taskFrames_forms hg with
  | inner req allow hreq =>
    refine ⟨rfl, fun n hn => ?_⟩
    cases hn
    exact Or.inl hl
  | catches => exact unstaged_of_isPlain c rfl
  | up msgs towardDep => exact unstaged_of_isPlain c rfl
  | down msgs => exact unstaged_of_isPlain c rfl

theorem drainLoop {blocked : Nat} {escaped : Option Payload}
    (hs : c.stack = .drainLoop blocked escaped :: rest) :
    StageStep c ((c.popTo rest).drainLoop blocked escaped) := by
  have hloop : ∀ (c' : Config V S) (k : Nat), c'.stack = rest →
      StageStep c (c'.push [.drainLoop k escaped]) := by
    intro c' k hst
    refine of_frames hs (fun _ => rfl) [.drainLoop k escaped] (by rw [push, hst]; rfl) ?_
    intro g hg
    rw [mem_singleton.mp hg]
    refine ⟨rfl, ?_⟩
    intro n hn
    cases hn
  unfold Config.drainLoop
  split
  · exact of_same hs (fun _ => rfl) (drainFinish_stack _ escaped)
  · rename_i t ts _
    dsimp only
    split_ifs with hdrop
    · exact hloop _ 0 rfl
    · exact of_same hs (fun _ => rfl) (drainFinish_stack _ escaped)
    · exact hloop _ _ rfl
    · have hl : (c.nodes t.target).live = true := by
        rw [Bool.or_eq_true, not_or, Bool.not_eq_true', Bool.not_eq_true', Bool.not_eq_false,
          Bool.not_eq_false] at hdrop
        exact hdrop.2
      refine of_frames hs (fun _ => rfl) (c.taskFrames t ++ [.taskCatch escaped]) rfl ?_
      intro g hg
      rcases mem_append.mp hg with hg | hg
      · exact taskFrames_unstaged c t hl g hg
      · rw [mem_singleton.mp hg]
        exact unstaged_of_isPlain c rfl

/-! #### The stages -/

variable {n : NodeId}

theorem externalRewire {req : RewireRequest} (hs : c.stack = .externalRewire n req :: rest) :
    StageStep c ((c.popTo rest).externalRewire n req) := by
  unfold Config.externalRewire
  split
  · exact of_same hs (fun _ => rfl) (deferBoundary_stack _ _ _ _)
  · refine of_frames hs (fun _ => rfl) [.rewireInner n _ _ false] rfl ?_
    intro g hg
    rw [mem_singleton.mp hg]
    refine ⟨rfl, ?_⟩
    intro k hk
    cases hk
    refine Or.inr ⟨.externalRewire n req, ?_, rfl⟩
    rw [hs]
    exact mem_cons_self

variable {newDeps : List NodeId}

theorem rewireInner {f : FnId} {allow : Bool}
    (hs : c.stack = .rewireInner n newDeps f allow :: rest) (hmode : c.mode = .running) :
    StageStep c ((c.popTo rest).rewireInner n newDeps f allow) := by
  unfold Config.rewireInner
  dsimp only
  split
  · exact of_same hs (fun _ => rfl) (deferBoundary_stack _ _ _ _)
  · split
    · exact of_same hs (fun _ => rfl) rfl
    · rename_i hok
      -- The checks passed, so no mutation of this node is under way.
      have hflag : (c.nodes n).wave.inDepMutation = false := by
        by_contra hflag
        rw [Bool.not_eq_false] at hflag
        simp only [rewireReject, popTo, hflag, ↓reduceIte] at hok
        split_ifs at hok
      unfold Config.withWaveOwner
      split_ifs
      · exact .checked n newDeps f allow rest [] hs hmode hflag rfl rfl
          (fun _ hg => absurd hg not_mem_nil)
      · refine .checked n newDeps f allow rest [.waveExit n] hs hmode hflag rfl rfl ?_
        intro g hg
        rw [mem_singleton.mp hg]
        exact unstaged_of_isPlain c rfl

theorem rewireApply {f : FnId} (hs : c.stack = .rewireApply n newDeps f :: rest) :
    StageStep c ((c.popTo rest).rewireApply n newDeps f) := by
  unfold Config.rewireApply
  dsimp only
  split_ifs with hsame
  · exact of_same hs (fun _ => rfl) rfl
  · exact .applied n newDeps f rest hs hsame rfl rfl rfl

variable {oldDeps : List NodeId} {activated dirty : Bool}

theorem rewireRemove {removed : List Nat}
    (hs : c.stack = .rewireRemove n oldDeps newDeps activated removed dirty :: rest)
    (hmode : c.mode = .running) :
    StageStep c ((c.popTo rest).rewireRemove n oldDeps newDeps activated removed dirty) := by
  cases removed with
  | nil => exact .drained n oldDeps newDeps activated dirty rest hmode hs rfl rfl rfl
  | cons i removed =>
    refine .draining n oldDeps newDeps activated dirty i removed rest _ hs rfl rfl rfl ?_
    simp only [Config.rewireRemove, push, append_assoc]
    rfl

theorem rewireAssign (hs : c.stack = .rewireAssign n oldDeps newDeps activated dirty :: rest) :
    StageStep c ((c.popTo rest).rewireAssign n oldDeps newDeps activated dirty) := by
  refine .assigned n oldDeps newDeps activated dirty rest _ hs rfl rfl rfl ?_
  simp only [Config.rewireAssign, push, append_assoc]
  rfl

end StageStep

variable {c : Config V S}

variable {rest : List (Frame V)}

theorem enter_stage (env : Env V S) (hs : c.stack = f :: rest) (hmode : c.mode = .running) :
    StageStep c ((c.popTo rest).enter env f) := by
  have hdrain : ∀ escaped, ∀ g ∈ [(.drainLoop 0 escaped : Frame V)], c.Unstaged g := by
    intro escaped g hg
    rw [mem_singleton.mp hg]
    refine ⟨rfl, ?_⟩
    intro n hn
    cases hn
  cases hp : f.entersPlain with
  | true =>
    refine .of_plain hs ?_ (enter_plain env _ f hp)
    intro _
    cases f <;> first | rfl | cases hp
  | false =>
    cases f with
    | user cb i => exact .stepUser env hs
    | drainBoundary =>
      simp only [enter, drainBoundary]
      split_ifs
      · exact .of_same hs (fun _ => rfl) rfl
      · exact .of_frames hs (fun _ => rfl) [.drainLoop 0 none] rfl (hdrain none)
    | drainLoop blocked escaped => exact .drainLoop hs
    | taskCatch escaped =>
      exact .of_frames hs (fun _ => rfl) [.drainLoop 0 escaped] rfl (hdrain escaped)
    | rollbackDone roots payload =>
      refine .of_same hs (fun _ => rfl) ?_
      simp only [enter, rollbackDone]
      cases payload with
      | none => exact StageStep.closeUncommitted_stack _ roots
      | some p => exact StageStep.closeUncommitted_stack _ roots
    | externalRewire n req => exact .externalRewire hs
    | rewireInner n deps fn allow => exact .rewireInner hs hmode
    | rewireApply n deps fn => exact .rewireApply hs
    | rewireRemove n old new act removed dirty => exact .rewireRemove hs hmode
    | rewireAssign n old new act dirty => exact .rewireAssign hs
    | activateIfNeeded n =>
      rcases (Silent.activateIfNeeded_footprint (c.popTo rest) n).stack with ⟨fs, hst, hfs⟩
      refine .of_frames hs (fun _ => rfl) fs hst ?_
      intro g hg
      cases g <;> first | exact unstaged_of_not_rewiring c rfl rfl | cases hfs _ hg
    | subscribeDep n i d =>
      refine .of_frames hs (fun _ => rfl) [_, _] rfl ?_
      intro g hg
      rcases mem_cons.mp hg with rfl | hg
      · exact unstaged_of_isPlain c rfl
      · rw [mem_singleton.mp hg]
        exact unstaged_of_not_rewiring c rfl rfl
    | _ => cases hp

theorem unwind_stage (env : Env V S)
    (hs : c.stack = f :: rest) {p : Payload} (hmode : c.mode = .unwinding p) :
    StageStep c ((c.popTo rest).unwind env p f) := by
  have hd : ∀ g : Frame V, c.mode = .running → g.isDraining = false := by
    intro g hrun
    rw [hmode] at hrun
    cases hrun
  rcases unwind_cases env (c.popTo rest) p f with h | ⟨rfl, n, rfl⟩ | ⟨escaped, rfl⟩ | ⟨roots, h⟩
  · exact .of_plain hs (hd _) h.plain
  · exact .of_same hs (hd _) rfl
  · simp only [unwind]
    split
    · exact .of_same hs (hd _) rfl
    · refine .of_frames hs (hd _) [_] rfl ?_
      intro g hg
      rw [mem_singleton.mp hg]
      refine ⟨rfl, ?_⟩
      intro n hn
      cases hn
  · rw [h]
    exact .of_same hs (hd _) (StageStep.closeUncommitted_stack _ roots)

/-- Every step does one of the listed things to the frames of rewires. -/
theorem step_stage {c' : Config V S} (hstep : Step c c') : StageStep c c' := by
  rcases hstep with ⟨env, hstep⟩
  rcases step_cases hstep with ⟨f, rest, hs, ⟨hmode, rfl⟩ | ⟨p, hmode, rfl⟩⟩
  · exact enter_stage env hs hmode
  · exact unwind_stage env hs hmode

end Config

/-! ### What a step does to a slot's dep list and mutation flag -/

namespace Node

variable (x : Node V S)

theorem setMaybeRunAction_inDepMutation (b : Bool) (a : ReceiveAction V) :
    (x.setMaybeRunAction b a).1.wave.inDepMutation = x.wave.inDepMutation := by
  unfold setMaybeRunAction
  split_ifs
  · rfl
  · exact Node.inDepMutation_of_kernel (congrArg Prod.snd x.decideMaybeRun_guise)

theorem settleReceived_inDepMutation (b : Bool) :
    (x.settleReceived b).1.wave.inDepMutation = x.wave.inDepMutation := by
  have hnote : x.noteSkippedWave.wave = x.wave := by
    unfold noteSkippedWave
    split_ifs <;> rfl
  unfold settleReceived
  dsimp only
  split_ifs
  · exact (x.noteSkippedWave.setMaybeRunAction_inDepMutation b _).trans (congrArg _ hnote)
  · exact congrArg _ hnote

theorem receiveTerminal_inDepMutation (b : Bool) (i : Nat) (t : DepTerminal) :
    (x.receiveTerminal b i t).1.wave.inDepMutation = x.wave.inDepMutation := by
  unfold receiveTerminal
  dsimp only
  split
  · rfl
  · split_ifs
    · exact setMaybeRunAction_inDepMutation { x with dep := _ } b _
    · rfl
    · rfl

/-- Receiving a dep message leaves the mutation flag alone. -/
theorem receive_inDepMutation (d : Nat) (b : Bool) (i : Nat) (m : Message V) :
    (x.receive d b i m).1.wave.inDepMutation = x.wave.inDepMutation := by
  unfold receive
  split_ifs
  · cases m <;> rfl
  · cases m with
    | dirty =>
      simp only [receiveDirty]
      split_ifs <;> rfl
    | data v =>
      simp only [receiveData]
      split_ifs
      · rfl
      · exact settleReceived_inDepMutation { x with dep := _ } b
    | resolved => exact settleReceived_inDepMutation { x with dep := _ } b
    | complete => exact x.receiveTerminal_inDepMutation b i .complete
    | error e => exact x.receiveTerminal_inDepMutation b i (.error e)
    | _ => rfl

theorem collectDown_inDepMutation (m : Message V) :
    (x.collectDown m).1.wave.inDepMutation = x.wave.inDepMutation := by
  cases m with
  | dirty | invalidate | complete | error _ =>
    simp only [collectDown]
    split_ifs <;> rfl
  | _ => rfl

end Node

namespace Config

variable {c : Config V S} {n : NodeId} {y : Node V S} {s : Nat}

/-- The mutation flag of a slot and its dep list change only where a rewire of
    the node starts, assigns or ends, or where the node is made. -/
theorem SlotStep.mutation (h : SlotStep c n y s) :
    (y.wave.inDepMutation = (c.nodes n).wave.inDepMutation ∧ y.deps = (c.nodes n).deps) ∨
      n = c.size ∨
      (∃ f rest, c.stack = f :: rest ∧ f.isStage = true ∧ f.rewiringNode = some n) := by
  have hstage : ∀ f : Frame V, c.Entering f → f.isStage = true → f.rewiringNode = some n →
      ∃ f rest, c.stack = f :: rest ∧ f.isStage = true ∧ f.rewiringNode = some n := by
    rintro f ⟨_, rest, hs⟩ hstage hn
    exact ⟨f, rest, hs, hstage, hn⟩
  cases h with
  | idle h => exact Or.inl ⟨Node.inDepMutation_of_kernel h, Node.deps_of_kernel h⟩
  | received _ _ _ _ d b i m _ _ _ _ h =>
    rw [h]
    exact Or.inl ⟨Node.receive_inDepMutation _ d b i m,
      congrArg (·.1.1) ((c.nodes n).receive_ports d b i m)⟩
  | relayed _ _ h => exact Or.inl (by rw [h]; exact ⟨rfl, rfl⟩)
  | started _ h => exact Or.inl (by rw [h]; exact ⟨rfl, rfl⟩)
  | rolled keep h =>
    refine Or.inl ?_
    rw [h]
    unfold Node.runRolled
    split_ifs <;> exact ⟨rfl, rfl⟩
  | reset h => exact Or.inl (by rw [h]; exact ⟨rfl, rfl⟩)
  | dirtied _ h =>
    exact Or.inl ⟨(Node.inDepMutation_of_kernel h).trans rfl, (Node.deps_of_kernel h).trans rfl⟩
  | told m _ _ h =>
    rw [h]
    exact Or.inl ⟨Node.collectDown_inDepMutation _ m,
      congrArg (·.1) ((c.nodes n).collectDown_edges m)⟩
  | invalidated _ h => exact Or.inl (by rw [h]; exact ⟨rfl, rfl⟩)
  | deactivated _ h => exact Or.inl (by rw [h]; exact ⟨rfl, rfl⟩)
  | activated _ _ h => exact Or.inl (by rw [h]; exact ⟨rfl, rfl⟩)
  | linked _ _ _ _ _ _ h => exact Or.inl (by rw [h]; exact ⟨rfl, rfl⟩)
  | created _ hn _ _ => exact Or.inr (Or.inl hn)
  | dropped _ h =>
    exact Or.inl ⟨(Node.inDepMutation_of_kernel h).trans rfl, (Node.deps_of_kernel h).trans rfl⟩
  | swapped _ _ hf _ => exact Or.inr (Or.inr (hstage _ hf rfl rfl))
  | removed _ _ _ _ _ _ hf _ => exact Or.inr (Or.inr (hstage _ hf rfl rfl))
  | assigned _ _ _ _ hf _ => exact Or.inr (Or.inr (hstage _ hf rfl rfl))
  | finished _ _ hf _ _ _ _ => exact Or.inr (Or.inr (hstage _ hf rfl rfl))
  | guarded rest hs _ => exact Or.inr (Or.inr ⟨_, rest, hs, rfl, rfl⟩)

/-- Only a new node comes to life. -/
theorem SlotStep.live (h : SlotStep c n y s) (hy : y.live = true) :
    (c.nodes n).live = true ∨ n < s := by
  cases h with
  | idle h => exact Or.inl (by rw [← hy, Node.live_of_kernel h])
  | received _ _ _ _ d b i m _ _ _ _ h =>
    refine Or.inl ?_
    rw [← hy, h]
    exact (congrArg (·.1.2) ((c.nodes n).receive_ports d b i m)).symm
  | relayed _ _ h => exact Or.inl (by rw [← hy, h])
  | started _ h => exact Or.inl (by rw [← hy, h]; rfl)
  | rolled keep h => exact Or.inl (by rw [← hy, h]; rfl)
  | reset h => exact Or.inl (by rw [← hy, h]; rfl)
  | dirtied _ h => exact Or.inl (by rw [← hy, Node.live_of_kernel h])
  | told m _ _ h =>
    refine Or.inl ?_
    rw [← hy, h]
    exact (congrArg (·.2) ((c.nodes n).collectDown_edges m)).symm
  | invalidated _ h => exact Or.inl (by rw [← hy, h]; rfl)
  | deactivated _ h => exact Or.inl (by rw [← hy, h]; rfl)
  | activated _ _ h => exact Or.inl (by rw [← hy, h])
  | linked _ _ _ _ _ _ h => exact Or.inl (by rw [← hy, h])
  | created _ hn hs _ =>
    refine Or.inr ?_
    rw [hn, hs]
    exact Nat.lt_succ_self _
  | dropped _ h =>
    rw [Node.live_of_kernel h] at hy
    cases hy
  | swapped _ _ _ h => exact Or.inl (by rw [← hy, Node.live_of_kernel h])
  | removed _ _ _ _ _ _ _ h => exact Or.inl (by rw [← hy, h])
  | assigned _ _ _ _ _ h => exact Or.inl (by rw [← hy, h])
  | finished _ _ _ _ _ _ h => exact Or.inl (by rw [← hy, Node.live_of_kernel h])
  | guarded _ _ h => exact Or.inl (by rw [← hy, Node.live_of_kernel h])

end Config

/-! ### The stages of one node -/

/-- A stage of a rewire of one node. -/
inductive Stage
  | remove (oldDeps newDeps : List NodeId) (activated : Bool) (removed : List Nat) (dirty : Bool)
  | assign (oldDeps newDeps : List NodeId) (activated dirty : Bool)
  | finish (newDeps : List NodeId) (dirty : Bool)
  | guard
  deriving DecidableEq

/-- The stage of a rewire of `n` that a frame stands for. -/
def Frame.stage (n : NodeId) : Frame V → Option Stage
  | .rewireRemove m oldDeps newDeps activated removed dirty =>
    if m = n then some (.remove oldDeps newDeps activated removed dirty) else none
  | .rewireAssign m oldDeps newDeps activated dirty =>
    if m = n then some (.assign oldDeps newDeps activated dirty) else none
  | .rewireFinish m newDeps dirty => if m = n then some (.finish newDeps dirty) else none
  | .depMutationGuard m => if m = n then some .guard else none
  | _ => none

theorem Frame.stage_of_not_isStage (h : f.isStage = false) (n : NodeId) :
    f.stage n = none := by
  cases f <;> first | rfl | cases h

theorem Frame.stage_of_ne {n : NodeId} (h : f.rewiringNode ≠ some n) :
    f.stage n = none := by
  cases f with
  | rewireRemove m _ _ _ _ _ | rewireAssign m _ _ _ _ | rewireFinish m _ _
  | depMutationGuard m => exact if_neg fun hm => h (congrArg some hm)
  | _ => rfl

/-- What a stage knows of the dep list of its node. -/
def Stage.Fits (deps : List NodeId) : Stage → Prop
  | .remove oldDeps newDeps _ removed _ =>
    deps = oldDeps ∧ newDeps.Nodup ∧ ∃ done, Config.removedIdxs oldDeps newDeps = done ++ removed
  | .assign oldDeps newDeps _ _ => deps = oldDeps ∧ newDeps.Nodup
  | .finish newDeps _ => deps = newDeps
  | .guard => True

namespace Config

/-- The stages of `n` on the stack, the innermost first. -/
def stages (c : Config V S) (n : NodeId) : List Stage :=
  c.stack.filterMap (Frame.stage n)

/-- At most the first stage of `n` is more than a guard; while it is, the
    mutation flag is set. -/
structure StagesOk (c : Config V S) (n : NodeId) : Prop where
  guards : ∀ st ∈ (c.stages n).tail, st = .guard
  flagged : ∀ st, (c.stages n).head? = some st → st ≠ .guard →
    (c.nodes n).wave.inDepMutation = true ∧ st.Fits (c.nodes n).deps

/-- The stack and the mutation flags agree. -/
structure Staged (c : Config V S) : Prop where
  fresh : ∀ n, c.size ≤ n → (c.nodes n).live = false
  bound : ∀ f ∈ c.stack, ∀ n, f.rewiringNode = some n → n < c.size
  instant : ∀ f ∈ c.stack.tail, f.isInstant = false
  running : ∀ f, c.stack.head? = some f → f.isInstant = true → c.mode = .running
  checked : ∀ n newDeps f, c.stack.head? = some (.rewireApply n newDeps f) →
    (c.nodes n).wave.inDepMutation = false ∧ newDeps.Nodup
  stages : ∀ n, c.StagesOk n

variable {c : Config V S} {n : NodeId}

/-- All stages of `n` are guards. -/
theorem StagesOk.of_guards (h : ∀ st ∈ c.stages n, st = .guard) :
    c.StagesOk n where
  guards := fun st hst => h st (mem_of_mem_tail hst)
  flagged := fun st hhead hne => absurd (h st (mem_of_mem_head? hhead)) hne

theorem StagesOk.guards_of_idle (h : c.StagesOk n)
    (hflag : (c.nodes n).wave.inDepMutation = false) : ∀ st ∈ c.stages n, st = .guard := by
  intro st hst
  cases hs : c.stages n with
  | nil =>
    rw [hs] at hst
    exact absurd hst not_mem_nil
  | cons t below =>
    have hguards := h.guards
    rw [hs] at hst hguards
    rcases mem_cons.mp hst with rfl | hmem
    · by_contra hne
      have := (h.flagged st (by rw [hs]; rfl) hne).1
      rw [hflag] at this
      cases this
    · exact hguards st hmem

variable {c' : Config V S}

/-- The same stages, flag and deps. -/
theorem StagesOk.congr (h : c.StagesOk n) (hs : c'.stages n = c.stages n)
    (hflag : (c'.nodes n).wave.inDepMutation = (c.nodes n).wave.inDepMutation)
    (hdeps : (c'.nodes n).deps = (c.nodes n).deps) : c'.StagesOk n where
  guards := by
    rw [hs]
    exact h.guards
  flagged := by
    rw [hs, hflag, hdeps]
    exact h.flagged

/-- Frames outside of all stages add nothing. -/
theorem stages_of_unstaged {fs gs : List (Frame V)}
    (hs : c'.stack = fs ++ gs) (hf : ∀ g ∈ fs, g.isStage = false) (n : NodeId) :
    c'.stages n = gs.filterMap (Frame.stage n) := by
  have hnil : fs.filterMap (Frame.stage n) = [] := by
    rw [filterMap_eq_nil_iff]
    exact fun g hg => Frame.stage_of_not_isStage (hf g hg) n
  rw [Config.stages, hs, filterMap_append, hnil, nil_append]

variable {f : Frame V} {rest : List (Frame V)}

/-- The stages of `n` after the top frame, which is no stage of `n`. -/
theorem stages_pop (hs : c.stack = f :: rest) (hf : f.stage n = none) :
    rest.filterMap (Frame.stage n) = c.stages n := by
  rw [Config.stages, hs, filterMap_cons_none hf]

variable {st : Stage}

/-- The stages of `n` when the top frame is one. -/
theorem stages_cons (hs : c.stack = f :: rest) (hf : f.stage n = some st) :
    c.stages n = st :: rest.filterMap (Frame.stage n) := by
  rw [Config.stages, hs, filterMap_cons_some hf]

/-- Below the top stage of `n` there are only guards. -/
theorem StagesOk.guards_below (h : c.StagesOk n) (hs : c.stack = f :: rest)
    (hf : f.stage n = some st) :
    ∀ t ∈ rest.filterMap (Frame.stage n), t = .guard := by
  have := h.guards
  rw [stages_cons hs hf] at this
  exact this

/-- An unstaged frame is not entered at once. -/
theorem Unstaged.not_instant (h : c.Unstaged f) :
    f.isInstant = false := by
  by_contra hf
  rw [Bool.not_eq_false] at hf
  have := Frame.isStage_of_isInstant hf
  rw [h.1] at this
  cases this

theorem Staged.unstaged_bound (h : c.Staged) (hf : c.Unstaged f) (hn : f.rewiringNode = some n) :
    n < c.size := by
  rcases hf.2 n hn with hlive | ⟨g, hg, hgn⟩
  · by_contra hge
    rw [h.fresh n (Nat.le_of_not_lt hge)] at hlive
    cases hlive
  · exact h.bound g hg n hgn

/-- Every frame of a rewire that a step leaves names a node of the arena. -/
theorem StageStep.bound (hstep : StageStep c c') (h : c.Staged) :
    ∀ g ∈ c'.stack, ∀ n, g.rewiringNode = some n → n < c.size := by
  have hbelow : ∀ {f : Frame V} {rest : List (Frame V)}, c.stack = f :: rest →
      ∀ g ∈ rest, ∀ n, g.rewiringNode = some n → n < c.size := by
    intro f rest hs g hg
    exact h.bound g (by rw [hs]; exact mem_cons_of_mem _ hg)
  have htop : ∀ {f : Frame V} {rest : List (Frame V)}, c.stack = f :: rest →
      ∀ n, f.rewiringNode = some n → n < c.size := by
    intro f rest hs
    exact h.bound f (by rw [hs]; exact mem_cons_self)
  intro g hg n hn
  cases hstep with
  | outside f rest fs hs hd hs' hf =>
    rw [hs'] at hg
    rcases mem_append.mp hg with hg | hg
    · exact h.unstaged_bound (hf g hg) hn
    · exact hbelow hs g hg n hn
  | checked m newDeps f allow rest fs hs hmode hflag hnodes hs' hf =>
    rw [hs'] at hg
    rcases mem_append.mp hg with hg | hg
    · rcases mem_cons.mp hg with rfl | hg
      · exact htop hs n hn
      · exact h.unstaged_bound (hf g hg) hn
    · exact hbelow hs g hg n hn
  | applied m newDeps f rest hs hdeps hnodes hb hs' =>
    rw [hs'] at hg
    rcases mem_cons.mp hg with rfl | hg
    · exact htop hs n hn
    · rcases mem_cons.mp hg with rfl | hg
      · exact htop hs n hn
      · exact hbelow hs g hg n hn
  | drained m old new act dirty rest hmode hs hnodes hb hs' =>
    rw [hs'] at hg
    rcases mem_cons.mp hg with rfl | hg
    · exact htop hs n hn
    · exact hbelow hs g hg n hn
  | draining m old new act dirty i removed rest fs hs hnodes hb hfs hs' =>
    rw [hs'] at hg
    rcases mem_append.mp hg with hg | hg
    · rw [hfs] at hg
      split at hg
      · rw [mem_singleton.mp hg] at hn
        cases hn
      · exact absurd hg not_mem_nil
    · rcases mem_cons.mp hg with rfl | hg
      · exact htop hs n hn
      · exact hbelow hs g hg n hn
  | assigned m old new act dirty rest fs hs hnodes hb hfs hs' =>
    rw [hs'] at hg
    rcases mem_append.mp hg with hg | hg
    · rw [hfs] at hg
      rcases mem_append.mp hg with hg | hg
      · split at hg
        · rcases mem_map.mp hg with ⟨p, _, rfl⟩
          cases hn
        · exact absurd hg not_mem_nil
      · rw [mem_singleton.mp hg] at hn
        cases hn
    · rcases mem_cons.mp hg with rfl | hg
      · exact htop hs n hn
      · exact hbelow hs g hg n hn

/-- What the stages push besides the next one belongs to no stage. -/
theorem StageStep.draining_unstaged (c : Config V S) (u : Option (NodeId × Nat)) :
    ∀ g ∈ (match u with
      | some u => [(.unsubscribe u.1 u.2 : Frame V)]
      | none => []), c.Unstaged g := by
  intro g hg
  split at hg
  · rw [mem_singleton.mp hg]
    exact unstaged_of_isPlain c rfl
  · exact absurd hg not_mem_nil

theorem StageStep.assigned_unstaged (c : Config V S) (n : NodeId) (oldDeps newDeps : List NodeId)
    (activated : Bool) :
    ∀ g ∈ (if activated then (addedDeps oldDeps newDeps).map
      (fun p => (.subscribeDep n p.1 p.2 : Frame V)) else []) ++
        [.notifyTopology n oldDeps newDeps], c.Unstaged g := by
  intro g hg
  rcases mem_append.mp hg with hg | hg
  · split at hg
    · rcases mem_map.mp hg with ⟨p, _, rfl⟩
      exact unstaged_of_not_rewiring c rfl rfl
    · exact absurd hg not_mem_nil
  · rw [mem_singleton.mp hg]
    exact unstaged_of_isPlain c rfl

/-- Only the top frame may be one that is entered at once, and then the machine
    is running. -/
theorem StageStep.instant (hstep : StageStep c c') (h : c.Staged) :
    (∀ g ∈ c'.stack.tail, g.isInstant = false) ∧
      ∀ g, c'.stack.head? = some g → g.isInstant = true → c'.mode = .running := by
  have hbelow : ∀ {f : Frame V} {rest : List (Frame V)}, c.stack = f :: rest →
      ∀ g ∈ rest, g.isInstant = false := by
    intro f rest hs
    have := h.instant
    rwa [hs] at this
  -- With no such frame on the stack there is nothing to show.
  have hnone : (∀ g ∈ c'.stack, g.isInstant = false) →
      (∀ g ∈ c'.stack.tail, g.isInstant = false) ∧
        ∀ g, c'.stack.head? = some g → g.isInstant = true → c'.mode = .running := by
    intro hall
    refine ⟨fun g hg => hall g (mem_of_mem_tail hg), ?_⟩
    intro g hhead hg
    rw [hall g (mem_of_mem_head? hhead)] at hg
    cases hg
  cases hstep with
  | outside f rest fs hs hd hs' hf =>
    refine hnone ?_
    rw [hs']
    intro g hg
    rcases mem_append.mp hg with hg | hg
    · exact (hf g hg).not_instant
    · exact hbelow hs g hg
  | checked m newDeps f allow rest fs hs hmode hflag hnodes hs' hf =>
    refine ⟨?_, fun _ _ _ => hmode⟩
    rw [hs']
    intro g hg
    rcases mem_append.mp hg with hg | hg
    · exact (hf g hg).not_instant
    · exact hbelow hs g hg
  | applied m newDeps f rest hs hdeps hnodes hb hs' =>
    refine hnone ?_
    rw [hs']
    intro g hg
    rcases mem_cons.mp hg with rfl | hg
    · rfl
    · rcases mem_cons.mp hg with rfl | hg
      · rfl
      · exact hbelow hs g hg
  | drained m old new act dirty rest hmode hs hnodes hb hs' =>
    refine ⟨?_, fun _ _ _ => hmode⟩
    rw [hs']
    exact hbelow hs
  | draining m old new act dirty i removed rest fs hs hnodes hb hfs hs' =>
    refine hnone ?_
    rw [hs', hfs]
    intro g hg
    rcases mem_append.mp hg with hg | hg
    · exact (draining_unstaged c _ g hg).not_instant
    · rcases mem_cons.mp hg with rfl | hg
      · rfl
      · exact hbelow hs g hg
  | assigned m old new act dirty rest fs hs hnodes hb hfs hs' =>
    refine hnone ?_
    rw [hs', hfs]
    intro g hg
    rcases mem_append.mp hg with hg | hg
    · exact (assigned_unstaged c m old new act g hg).not_instant
    · rcases mem_cons.mp hg with rfl | hg
      · rfl
      · exact hbelow hs g hg

/-- A rewire whose mutation is about to start was checked just before. -/
theorem StageStep.checks (hstep : StageStep c c') (h : c.Staged) :
    ∀ n newDeps f, c'.stack.head? = some (.rewireApply n newDeps f) →
      (c'.nodes n).wave.inDepMutation = false ∧ newDeps.Nodup := by
  intro n newDeps f hhead
  have hbelow : ∀ {g : Frame V} {rest : List (Frame V)}, c.stack = g :: rest →
      (.rewireApply n newDeps f : Frame V) ∉ rest := by
    intro g rest hs hmem
    have := h.instant
    rw [hs] at this
    cases this _ hmem
  cases hstep with
  | outside g rest fs hs hd hs' hf =>
    have hmem := mem_of_mem_head? hhead
    rw [hs'] at hmem
    rcases mem_append.mp hmem with hmem | hmem
    · cases (hf _ hmem).not_instant
    · exact absurd hmem (hbelow hs)
  | checked m nd g allow rest fs hs hmode hflag hnodes hs' hf =>
    rw [hs', cons_append, List.head?_cons] at hhead
    cases hhead
    rw [hnodes]
    refine ⟨hflag, ?_⟩
    rw [dedupCores_eq]
    exact FirstSeen.nodup_firstSeen nd
  | applied m nd g rest hs hdeps hnodes hb hs' =>
    rw [hs', List.head?_cons] at hhead
    cases hhead
  | drained m old new act dirty rest hmode hs hnodes hb hs' =>
    rw [hs', List.head?_cons] at hhead
    cases hhead
  | draining m old new act dirty i removed rest fs hs hnodes hb hfs hs' =>
    have hmem := mem_of_mem_head? hhead
    rw [hs', hfs] at hmem
    rcases mem_append.mp hmem with hmem | hmem
    · cases (draining_unstaged c _ _ hmem).not_instant
    · rcases mem_cons.mp hmem with heq | hmem
      · cases heq
      · exact absurd hmem (hbelow hs)
  | assigned m old new act dirty rest fs hs hnodes hb hfs hs' =>
    have hmem := mem_of_mem_head? hhead
    rw [hs', hfs] at hmem
    rcases mem_append.mp hmem with hmem | hmem
    · cases (assigned_unstaged c m old new act _ hmem).not_instant
    · rcases mem_cons.mp hmem with heq | hmem
      · cases heq
      · exact absurd hmem (hbelow hs)

/-- The stages of every node after one step. -/
theorem StageStep.stages (hstep : StageStep c c') (h : c.Staged)
    (hslot : ∀ n, SlotStep c n (c'.nodes n) c'.size) (n : NodeId) : c'.StagesOk n := by
  cases hstep with
  | outside f rest fs hs hd hs' hf =>
    have hstages := stages_of_unstaged hs' (fun g hg => (hf g hg).1) n
    cases hst : f.stage n with
    | some st =>
      refine .of_guards ?_
      rw [hstages]
      exact (h.stages n).guards_below hs hst
    | none =>
      have hsame : c'.stages n = c.stages n := by rw [hstages, stages_pop hs hst]
      rcases (hslot n).mutation with ⟨hflag, hdeps⟩ | hsize | ⟨g, rest', hg, hstage, hn⟩
      · exact (h.stages n).congr hsame hflag hdeps
      · -- No frame rewires a node that is not there yet.
        refine .of_guards ?_
        intro st hmem
        rw [hsame] at hmem
        rcases mem_filterMap.mp hmem with ⟨k, hk, hkst⟩
        have hkn : k.rewiringNode = some n := by
          by_contra hne
          rw [Frame.stage_of_ne hne] at hkst
          cases hkst
        exact absurd hsize (Nat.ne_of_lt (h.bound k hk n hkn))
      · -- The top frame starts a mutation that changes no dep.
        rw [hs] at hg
        cases hg
        refine .of_guards ?_
        rw [hsame]
        refine (h.stages n).guards_of_idle ?_
        cases f with
        | rewireApply m newDeps fn =>
          cases hn
          exact (h.checked n newDeps fn (by rw [hs]; rfl)).1
        | rewireRemove m _ _ _ _ _ | rewireAssign m _ _ _ _ | rewireFinish m _ _
        | depMutationGuard m =>
          cases hn
          rw [Frame.stage, if_pos rfl] at hst
          cases hst
        | _ => cases hstage
  | checked m newDeps f allow rest fs hs hmode hflag hnodes hs' hf =>
    refine (h.stages n).congr ?_ (by rw [hnodes]) (by rw [hnodes])
    have hall : ∀ g ∈ (.rewireApply m (dedupCores newDeps) f :: fs : List (Frame V)),
        g.stage n = none := by
      intro g hg
      rcases mem_cons.mp hg with rfl | hg
      · rfl
      · exact Frame.stage_of_not_isStage (hf g hg).1 n
    rw [← stages_pop hs rfl, Config.stages, hs', filterMap_append,
      filterMap_eq_nil_iff.mpr hall, nil_append]
  | applied m newDeps f rest hs hdeps hnodes hb hs' =>
    have hcheck := h.checked m newDeps f (by rw [hs]; rfl)
    by_cases hm : m = n
    · subst hm
      have hguards := (h.stages m).guards_of_idle hcheck.1
      rw [← stages_pop hs rfl] at hguards
      have hstages : c'.stages m = .remove (c.nodes m).deps newDeps (c.nodes m).aux.activated
          (removedIdxs (c.nodes m).deps newDeps) false :: .guard ::
            rest.filterMap (Frame.stage m) := by
        rw [Config.stages, hs']
        simp only [filterMap_cons, Frame.stage, ↓reduceIte]
      refine ⟨?_, ?_⟩
      · rw [hstages]
        intro st hst
        rcases mem_cons.mp hst with rfl | hst
        · rfl
        · exact hguards st hst
      · rw [hstages, hnodes, Function.update_self]
        intro st hst _
        cases hst
        exact ⟨rfl, rfl, hcheck.2, [], rfl⟩
    · refine (h.stages n).congr ?_ ?_ ?_
      · rw [← stages_pop hs rfl, Config.stages, hs']
        simp only [filterMap_cons, Frame.stage, if_neg hm]
      · rw [hnodes, Function.update_of_ne (Ne.symm hm)]
      · rw [hnodes, Function.update_of_ne (Ne.symm hm)]
  | drained m old new act dirty rest hmode hs hnodes hb hs' =>
    by_cases hm : m = n
    · subst hm
      have htop : (.rewireRemove m old new act [] dirty : Frame V).stage m =
          some (.remove old new act [] dirty) := by rw [Frame.stage, if_pos rfl]
      have hflag := (h.stages m).flagged _ (by rw [stages_cons hs htop]; rfl) (by simp)
      have hstages : c'.stages m = .assign old new act dirty ::
          rest.filterMap (Frame.stage m) := by
        rw [Config.stages, hs']
        simp only [filterMap_cons, Frame.stage, ↓reduceIte]
      refine ⟨?_, ?_⟩
      · rw [hstages]
        exact (h.stages m).guards_below hs htop
      · rw [hstages, hnodes]
        intro st hst _
        cases hst
        exact ⟨hflag.1, hflag.2.1, hflag.2.2.1⟩
    · refine (h.stages n).congr ?_ (by rw [hnodes]) (by rw [hnodes])
      rw [Config.stages, Config.stages, hs, hs']
      simp only [filterMap_cons, Frame.stage, if_neg hm]
  | draining m old new act dirty i removed rest fs hs hnodes hb hfs hs' =>
    have hfsnone : ∀ g ∈ fs, g.isStage = false := by
      rw [hfs]
      exact fun g hg => (draining_unstaged c _ g hg).1
    have hstages := stages_of_unstaged hs' hfsnone n
    by_cases hm : m = n
    · subst hm
      have htop : (.rewireRemove m old new act (i :: removed) dirty : Frame V).stage m =
          some (.remove old new act (i :: removed) dirty) := by rw [Frame.stage, if_pos rfl]
      have hflag := (h.stages m).flagged _ (by rw [stages_cons hs htop]; rfl) (by simp)
      simp only [filterMap_cons, Frame.stage, ↓reduceIte] at hstages
      refine ⟨?_, ?_⟩
      · rw [hstages]
        exact (h.stages m).guards_below hs htop
      · rw [hstages, hnodes, Function.update_self]
        intro st hst _
        cases hst
        rcases hflag.2.2.2 with ⟨done, hdone⟩
        exact ⟨hflag.1, hflag.2.1, hflag.2.2.1, done ++ [i],
          by rw [hdone, append_assoc]; rfl⟩
    · refine (h.stages n).congr ?_ ?_ ?_
      · rw [hstages, Config.stages, hs]
        simp only [filterMap_cons, Frame.stage, if_neg hm]
      · rw [hnodes, Function.update_of_ne (Ne.symm hm)]
      · rw [hnodes, Function.update_of_ne (Ne.symm hm)]
  | assigned m old new act dirty rest fs hs hnodes hb hfs hs' =>
    have hfsnone : ∀ g ∈ fs, g.isStage = false := by
      rw [hfs]
      exact fun g hg => (assigned_unstaged c m old new act g hg).1
    have hstages := stages_of_unstaged hs' hfsnone n
    by_cases hm : m = n
    · subst hm
      have htop : (.rewireAssign m old new act dirty : Frame V).stage m =
          some (.assign old new act dirty) := by rw [Frame.stage, if_pos rfl]
      have hflag := (h.stages m).flagged _ (by rw [stages_cons hs htop]; rfl) (by simp)
      simp only [filterMap_cons, Frame.stage, ↓reduceIte] at hstages
      refine ⟨?_, ?_⟩
      · rw [hstages]
        exact (h.stages m).guards_below hs htop
      · rw [hstages, hnodes, Function.update_self]
        intro st hst _
        cases hst
        exact ⟨hflag.1, rfl⟩
    · refine (h.stages n).congr ?_ ?_ ?_
      · rw [hstages, Config.stages, hs]
        simp only [filterMap_cons, Frame.stage, if_neg hm]
      · rw [hnodes, Function.update_of_ne (Ne.symm hm)]
      · rw [hnodes, Function.update_of_ne (Ne.symm hm)]

/-- Every step preserves the agreement of the stack and the mutation flags. -/
theorem step_staged (hstep : Step c c') (h : c.Staged) : c'.Staged where
  fresh := by
    intro n hn
    by_contra hlive
    rw [Bool.not_eq_false] at hlive
    rcases (step_slot hstep n).live hlive with hl | hlt
    · have hlt : n < c.size := by
        by_contra hge
        rw [h.fresh n (Nat.le_of_not_lt hge)] at hl
        cases hl
      exact absurd (step_size hstep hlt) (Nat.not_lt_of_le hn)
    · exact absurd hlt (Nat.not_lt_of_le hn)
  bound := fun g hg n hn => step_size hstep ((step_stage hstep).bound h g hg n hn)
  instant := ((step_stage hstep).instant h).1
  running := ((step_stage hstep).instant h).2
  checked := (step_stage hstep).checks h
  stages := (step_stage hstep).stages h (step_slot hstep)

theorem initial_staged : (initial : Config V S).Staged where
  fresh := fun _ _ => rfl
  bound := by
    intro f hf n hn
    rw [mem_singleton.mp hf] at hn
    cases hn
  instant := fun _ hf => absurd hf not_mem_nil
  running := by
    intro f hf hi
    cases hf
    cases hi
  checked := by
    intro n newDeps f hf
    cases hf
  stages := by
    intro n
    refine .of_guards ?_
    intro st hst
    cases hst

end Config

end GraphRefly
