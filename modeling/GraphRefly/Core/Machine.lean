import GraphRefly.Core.Boundary
import GraphRefly.Lib.Transition

/-!
# The Machine

One step pops the top frame. Running, it enters the function the frame names;
unwinding, it lets the frame act as a drop guard or a catch point. Steps are
deterministic given the environment.

## Main definitions

* `resetTouched`: The recovery of every node an aborted wave touched.
* `stepUser`: User code performs its next operation.
* `enter`: One frame, running.
* `unwind`: One frame, unwinding.
* `step`: One step.
* `run`: A number of steps.
* `step_cases`: What a step does.
* `initial`: The empty arena.
* `Step`, `GuardedReach`, `Reaches`: Reachability by steps.
* `Env.scripted`: User code that plays fixed scripts.
-/

namespace GraphRefly

variable {V S : Type}

namespace Config

section

variable (c : Config V S)

/-- Recover the wave flags of every node in the list that is still live. -/
def resetTouched (touched : List NodeId) : Config V S :=
  { c with nodes := fun n =>
      if n ∈ touched ∧ (c.nodes n).live then (c.nodes n).resetWaveFlags else c.nodes n }

/-- The node an aborted wave is blamed on: the innermost one whose fn ran, if
    it took part and is alive, else the wave owner. -/
def blamedNode (owner : NodeId) : NodeId :=
  match c.wave with
  | some w =>
    match w.blamed with
    | some n => if n ∈ w.touched ∧ (c.nodes n).live then n else owner
    | none => owner
  | none => owner

/-- The nodes the wave in flight touched. -/
def touchedNodes : List NodeId :=
  match c.wave with
  | some w => w.touched
  | none => []

/-- The end of a wave: drain the boundary unless a batch holds it. -/
def waveTail : Config V S :=
  if c.boundaryDrainsBlocked then c else c.push [.drainBoundary]

/-- The wave owner catches a panic: recover the touched nodes, drop the
    deferred actions, and turn an ordinary failure into ERROR on the blamed
    node. A host abort clears the boundary queue and continues. -/
def waveCaught (owner : NodeId) (p : Payload) : Config V S :=
  let blamed := c.blamedNode owner
  let c1 := { c.resetTouched c.touchedNodes with deferred := [], wave := none }
  match p with
  | .hostAbort => ({ c1 with boundary := [] } : Config V S).throw p
  | .ordinary _ =>
    ({ c1 with mode := .running } : Config V S).push
      [.down blamed [.error p.toError], .recoveryCatch owner]

/-- The recovery emission is over. -/
def recovered : Config V S :=
  ({ c with mode := .running, deferred := [] } : Config V S).waveTail

/-- User code performs its next operation, returns, or panics. -/
def stepUser (env : Env V S) (c : Config V S) (cb : Callback V) (i : Nat) : Config V S :=
  match env.act cb c i with
  | .ret => c
  | .panic p => c.throw p
  | .op o => (c.push [.user cb (i + 1)]).perform cb o

/-- Enter the function the top frame names; the frame itself is popped. -/
def enter (env : Env V S) (c : Config V S) : Frame V → Config V S
  | .user cb i => c.stepUser env cb i
  | .waveExit _ => ({ c with wave := none } : Config V S).waveTail
  | .recoveryCatch _ => c.recovered
  | .emit n m subs => c.emit n m subs
  | .emitToSubs n m => c.emitToSubs n m
  | .emitDirtyOnce n => c.emitDirtyOnce n
  | .markDirty n => c.markDirty n
  | .down n msgs => c.down n msgs
  | .ownedDown n msgs => c.withWaveOwner n [.down n msgs]
  | .deliveryScope n msgs => c.deliveryScope n msgs
  | .downLoop n msgs => c.downLoop n msgs
  | .deliveryGuard prevId => c.deliveryGuard prevId
  | .downEnd n inside => c.downEnd n inside
  | .batchDirtyOwed n => c.setBatchDirtyOwed n true
  | .drainDeferredRuns => c.drainDeferredRuns
  | .applyDeferred actions => c.applyDeferred actions
  | .clearUndirty n hadData => c.clearUndirty n hadData
  | .deferRun n => c.deferAction ⟨.run, n⟩
  | .maybeRun n => c.maybeRun n
  | .tryRun n => c.tryRun n
  | .passthroughEmit n => c.passthroughEmit n
  | .runWave n => c.runWave n
  | .waveGuard n => c.waveGuard n
  | .runUndirty n isAsync => c.runUndirty n isAsync
  | .runRoll n undirty => c.runRoll n undirty
  | .settleAfterAbsorbedTerminal n => c.settleAfterAbsorbedTerminal n
  | .settleOwed n => c.settleOwed n
  | .invalidate n => c.invalidate n
  | .up n msgs towardDep => c.up n msgs towardDep
  | .ownedUp n msgs towardDep => c.withWaveOwner n [.up n msgs towardDep]
  | .upMsg n m towardDep => c.upMsg n m towardDep
  | .upRouteEnd => c.upRouteEnd
  | .pauseRelease n lock => c.pauseRelease n lock
  | .onResume n => c.onResume n
  | .resumeFire n => c.resumeFire n
  | .fireOwedDemandIfReady n => c.fireOwedDemandIfReady n
  | .pullDelivery n => c.pullDelivery n
  | .firePullDemand n => c.firePullDemand n
  | .subscribe n sink => c.subscribe n sink
  | .activateIfNeeded n => c.activateIfNeeded n
  | .activateRun n => c.activateRun n
  | .subscribeDep n idx dep => c.subscribeDep n idx dep
  | .depSubscribed n idx dep id box => c.depSubscribed n idx dep id box
  | .subscribeCatch _ _ => c
  | .unsubscribe n id => c.unsubscribe n id
  | .deactivate n => c.deactivate n
  | .swallow => c
  | .resumeUnwind p => c.throw p
  | .externalRewire n req => c.externalRewire n req
  | .rewireInner n newDeps f allow => c.rewireInner n newDeps f allow
  | .rewireApply n newDeps f => c.rewireApply n newDeps f
  | .rewireRemove n oldDeps newDeps act removed dirty =>
    c.rewireRemove n oldDeps newDeps act removed dirty
  | .rewireAssign n oldDeps newDeps act dirty => c.rewireAssign n oldDeps newDeps act dirty
  | .notifyTopology n oldDeps newDeps => c.notifyTopology n oldDeps newDeps
  | .rewireFinish n newDeps dirty => c.rewireFinish n newDeps dirty
  | .depMutationGuard n => c.depMutationGuard n
  | .settleRewire n => c.settleRewire n
  | .rewireNextCatch _ => c
  | .drainBoundary => c.drainBoundary
  | .drainLoop blocked escaped => c.drainLoop blocked escaped
  | .taskCatch escaped => c.push [.drainLoop 0 escaped]
  | .batchFinish => c.batchFinish none
  | .commitTargets targets => c.commitTargets targets
  | .commitDone roots => c.commitDone roots
  | .rollbackTargets targets => c.rollbackTargets targets
  | .rollbackDone roots payload => c.rollbackDone roots payload

/-- A panic passes the top frame: guards act, catch points stop it. -/
def unwind (env : Env V S) (c : Config V S) (p : Payload) : Frame V → Config V S
  | .user cb i =>
    if env.catches cb c then ({ c with mode := .running } : Config V S).push [.user cb i]
    else c
  | .waveExit owner => c.waveCaught owner p
  | .recoveryCatch _ => c.recovered
  | .deliveryGuard prevId => c.leaveDelivery prevId
  | .waveGuard n => c.waveGuard n
  | .depMutationGuard n => c.depMutationGuard n
  | .pullDelivery n => c.pullDelivery n
  | .upRouteEnd => c.upRouteEnd
  | .depSubscribed n _ dep id _ =>
    if (c.nodes n).wave.inDepMutation then
      ({ c with mode := .running } : Config V S).push
        [.unsubscribe dep id, .swallow, .resumeUnwind p]
    else c
  | .subscribeCatch n id =>
    match p with
    | .hostAbort =>
      ({ c with mode := .running } : Config V S).push [.unsubscribe n id, .resumeUnwind p]
    | .ordinary _ => c
  | .swallow => { c with mode := .running }
  | .rewireNextCatch n =>
    match p with
    | .hostAbort => c
    | .ordinary _ =>
      ({ c with mode := .running } : Config V S).push [.ownedDown n [.error p.toError]]
  | .taskCatch escaped =>
    match p with
    | .hostAbort => { c with boundary := [], drainingBoundary := false }
    | .ordinary _ =>
      ({ c with mode := .running } : Config V S).push
        [.drainLoop 0 (some (escaped.getD p))]
  | .batchFinish => ({ c with mode := .running } : Config V S).batchFinish (some p)
  | .commitDone roots => c.closeUncommitted roots
  | .rollbackDone roots _ => c.closeUncommitted roots
  | _ => c

/-- The configuration with the rest of the stack. -/
def popTo (rest : List (Frame V)) : Config V S :=
  { c with stack := rest }

end

/-- One step of the machine; none when the stack is empty. -/
def step (env : Env V S) (c : Config V S) : Option (Config V S) :=
  match c.stack with
  | [] => none
  | f :: rest =>
    match c.mode with
    | .running => some ((c.popTo rest).enter env f)
    | .unwinding p => some ((c.popTo rest).unwind env p f)

/-- What a step does: it enters the top frame, or unwinds it. -/
theorem step_cases {env : Env V S} {c c' : Config V S} (h : c.step env = some c') :
    ∃ f rest, c.stack = f :: rest ∧
      ((c.mode = .running ∧ c' = (c.popTo rest).enter env f) ∨
        ∃ p, c.mode = .unwinding p ∧ c' = (c.popTo rest).unwind env p f) := by
  unfold step at h
  split at h
  · cases h
  · rename_i f rest hs
    refine ⟨f, rest, hs, ?_⟩
    split at h
    · rename_i hm
      exact Or.inl ⟨hm, (Option.some.inj h).symm⟩
    · rename_i p hm
      exact Or.inr ⟨p, hm, (Option.some.inj h).symm⟩

/-- At most `k` steps. -/
def run (env : Env V S) : Nat → Config V S → Config V S
  | 0, c => c
  | k + 1, c => match c.step env with
    | none => c
    | some c' => run env k c'

/-- The empty arena, with user code about to start. -/
def initial : Config V S :=
  { stack := [.user .main 0] }

/-- One step under some user code. A run of such steps lets the user code
    behave differently every time it is asked. -/
def Step (c c' : Config V S) : Prop :=
  ∃ env : Env V S, c.step env = some c'

/-- Reachability by steps whose states all meet a guard. -/
abbrev GuardedReach (guard : Config V S → Prop) : Config V S → Config V S → Prop :=
  Transition.GuardedReach Step guard

/-- Reachability under fixed user code. -/
abbrev Reaches (env : Env V S) : Config V S → Config V S → Prop :=
  Relation.ReflTransGen fun c c' => c.step env = some c'

theorem guardedReach_run {guard : Config V S → Prop} (env : Env V S) (k : Nat)
    (c : Config V S) (h : ∀ j < k, guard (c.run env j)) :
    GuardedReach guard c (c.run env k) := by
  have hsucc : ∀ (k : Nat) (c : Config V S),
      c.run env (k + 1) = (c.step env).elim c (fun c' => c'.run env k) := by
    intro k c
    rw [run]
    cases c.step env <;> rfl
  have hnext : ∀ a b : Config V S, a.step env = some b → Step a b := fun a b hn => ⟨env, hn⟩
  exact Transition.GuardedReach.of_iterate hnext (fun k c => c.run env k)
    (fun _ => rfl) hsucc k c h

end Config

/-- User code that performs a fixed list of operations in each callback and
    never panics. -/
def Env.scripted (script : Callback V → List (UserOp V S)) : Env V S where
  act cb _ i := match (script cb)[i]? with
    | some o => .op o
    | none => .ret
  catches _ _ := false

end GraphRefly
