import GraphRefly.Core.Topology

/-!
# Upstream Control, Batches and the Committed Boundary

Control that travels upstream (PAUSE, RESUME, PULL, INVALIDATE), the pull
demand state machine, batches with their commit and rollback, the queue of
deferred requests that is drained once a wave has committed, and the user
operations that start all of this.

## Main definitions

* `up`, `upMsg`, `forwardUp`: Upstream routing.
* `pauseAcquire`, `pauseRelease`, `onResume`, `resumeFire`: Pause locks.
* `onDemand`, `fireOwedDemandIfReady`, `firePullDemand`: Pull demands.
* `drainBoundary`, `drainLoop`, `taskFrames`: The committed-boundary queue.
* `openBatch`, `batchFinish`, `commitTargets`, `rollbackTargets`: Batches.
* `Frame.node?`, `Frame.holds`: The node a frame works on, and those it keeps alive.
* `perform`: One user operation.
-/

namespace GraphRefly

variable {V S : Type}

/-- The kinds that wait while their target is paused. -/
def TaskKind.waitsForResume : TaskKind V → Bool
  | .rewire _ => true
  | .up _ _ => true
  | _ => false

namespace Config

/-! ### Upstream routing -/

section

variable (c : Config V S) (n : NodeId)

/-- Route messages upstream; only control kinds may travel that way. -/
def up (c : Config V S) (n : NodeId) (msgs : Wave V) (towardDep : Option Nat) : Config V S :=
  if msgs.all (·.isUpAllowed) then
    ({ c with routes := [] :: c.routes } : Config V S).push
      (msgs.map (fun m => .upMsg n m towardDep) ++ [.upRouteEnd])
  else c.panic "ctx.up: down-only kind; up carries control tiers only (R-ctx-up)"

/-- Forward a control message toward one dep, or toward all of them. -/
def forwardUp (m : Message V) (towardDep : Option Nat) :
    Config V S :=
  let deps := (c.nodes n).deps
  match towardDep with
  | some i =>
    match deps[i]? with
    | some d => c.push [.upMsg d m none]
    | none => c
  | none => c.push (deps.map fun d => .upMsg d m none)

/-- Acquire a lock; a repeat of the same id is idempotent. -/
def pauseAcquire (lock : LockId) : Config V S :=
  let x := c.nodes n
  if lock ∈ x.aux.pauseLockset then c
  else c.setNode n { x with aux := { x.aux with
    pauseLockset := x.aux.pauseLockset ++ [lock] } }

/-- Accept a demand unless one is being served. The latest demand wins while
    it is owed. -/
def onDemand (d : PullDemand V) : Config V S :=
  let x := c.nodes n
  if x.config.pullId.isNone || x.aux.inDeliverDemand then c
  else
    ((c.setNode n { x with aux := { x.aux with pullDemandOwed := some d } }).record
      (.demandAccepted n d)).push [.fireOwedDemandIfReady n]

/-- A PULL reached its holder; within one route it counts once. -/
def pullAtHolder (d : PullDemand V) : Config V S :=
  match c.routes with
  | [] => c
  | route :: rest =>
    if (d.pullId, n) ∈ route then c
    else ({ c with routes := (route ++ [(d.pullId, n)]) :: rest } : Config V S).onDemand n d

/-- One upstream message at one node: act on it here or forward it. A depless
    source honors INVALIDATE and drops DIRTY and TEARDOWN. -/
def upMsg (m : Message V) (towardDep : Option Nat) :
    Config V S :=
  let x := c.nodes n
  if x.live then
    match m with
    | .pause lock => c.pauseAcquire n lock
    | .resume lock =>
      if lock ∈ x.aux.pauseLockset then c.push [.pauseRelease n lock]
      else c.forwardUp n m towardDep
    | .pull d =>
      if x.config.pullId = some d.pullId then c.pullAtHolder n d
      else c.forwardUp n m towardDep
    | .invalidate =>
      if x.deps.isEmpty then c.push [.down n [.invalidate]] else c.forwardUp n m towardDep
    | _ => if x.deps.isEmpty then c else c.forwardUp n m towardDep
  else c

end

/-- The route of one `up` call is over. -/
def upRouteEnd (c : Config V S) : Config V S :=
  { c with routes := c.routes.tail }

/-! ### Pause and pull -/

section

variable (c : Config V S) (n : NodeId)

/-- Release a held lock; releasing the last one resumes a push node. -/
def pauseRelease (lock : LockId) : Config V S :=
  let x := c.nodes n
  if lock ∈ x.aux.pauseLockset then
    let left := x.aux.pauseLockset.filter (· ≠ lock)
    let c1 := c.setNode n { x with aux := { x.aux with pauseLockset := left } }
    if left.isEmpty then
      let c2 := c1.registerBoundaryRoot
      if x.config.pullId.isNone then c2.push [.onResume n, .fireOwedDemandIfReady n]
      else c2.push [.fireOwedDemandIfReady n]
    else c1.push [.fireOwedDemandIfReady n]
  else c

/-- Replay the buffered slices, then fire a skipped dep wave once. A node that
    terminated while paused discards both. -/
def onResume : Config V S :=
  let x := c.nodes n
  if x.value.terminal then c.setNode n { x with aux := Node.sealPull x.aux }
  else
    (c.setNode n { x with aux := { x.aux with pauseBuffer := [] } }).push
      (x.aux.pauseBuffer.map (fun w => .down n w) ++ [.resumeFire n])

/-- Default mode: a dep wave skipped while paused fires the fn once now. -/
def resumeFire : Config V S :=
  let x := c.nodes n
  let c1 := c.setNode n { x with aux := { x.aux with pausedDepWaveOccurred := false } }
  if x.aux.pausedDepWaveOccurred then c1.push [.tryRun n] else c1

/-- Serve the owed demand when it can be delivered. -/
def fireOwedDemandIfReady : Config V S :=
  let x := c.nodes n
  if x.aux.inDeliverDemand || !x.canFireDemand then c
  else
    match x.aux.pullDemandOwed with
    | none => c
    | some d =>
      ((c.setNode n { x with aux := { x.aux with
        pullDemandOwed := none
        activePull := some d
        inDeliverDemand := true } }).record (.served n d)).push
        [.firePullDemand n, .pullDelivery n]

/-- The serving is over. -/
def pullDelivery : Config V S :=
  let x := c.nodes n
  if x.live then
    c.setNode n { x with aux := { x.aux with
      activePull := none
      inDeliverDemand := false
      pullDirtyOwed := false } }
  else c

/-- Serve a demand: replay what was buffered, else run the fn. -/
def firePullDemand : Config V S :=
  let x := c.nodes n
  let x1 := { x with aux := { x.aux with pauseBuffer := [] } }
  match x.aux.pauseBuffer with
  | w :: ws =>
    let waves := if x.config.pausable = .true then [(w :: ws).getLastD w] else w :: ws
    (c.setNode n x1).push (waves.map fun w => .down n w)
  | [] =>
    let armed := { x1 with
      aux := { x1.aux with pullDirtyOwed := true }
      wave := { x1.wave with emittedDirtyThisWave := false } }
    if x.aux.pausedDepWaveOccurred then
      if x.dep.pending ≠ 0 ∨ (x.handle.isSome ∧ ¬ x.gateOpen) then c.setNode n x1
      else
        (c.setNode n { armed with aux := { armed.aux with
          pausedDepWaveOccurred := false } }).push [.tryRun n]
    else if x.handle.isSome then (c.setNode n armed).push [.tryRun n]
    else c.setNode n x1

end

/-! ### The committed boundary -/

section

variable (c : Config V S)

/-- The frames that apply a task to its live target. A removal of a dep that
    is already gone does nothing. -/
def taskFrames (t : BoundaryTask V) : List (Frame V) :=
  match t.kind with
  | .rewire req =>
    let deps := (c.nodes t.target).deps
    match req with
    | .remove dep _ =>
      if dep ∈ deps then
        [.rewireInner t.target (req.projectDeps deps) req.newFn true,
          .rewireNextCatch t.target]
      else []
    | _ =>
      [.rewireInner t.target (req.projectDeps deps) req.newFn true,
        .rewireNextCatch t.target]
  | .externalRewire req =>
    [.rewireInner t.target (req.projectDeps (c.nodes t.target).deps) req.newFn false]
  | .up msgs towardDep => [.ownedUp t.target msgs towardDep]
  | .down msgs => [.ownedDown t.target msgs]

/-- Leave the drain, re-raising the first escaped panic. -/
def drainFinish (escaped : Option Payload) : Config V S :=
  let c1 := { c with drainingBoundary := false }
  match escaped with
  | some p => c1.throw p
  | none => c1

/-- Drain the queue unless a drain is already running. -/
def drainBoundary : Config V S :=
  if c.drainingBoundary || c.boundary.isEmpty then c
  else ({ c with drainingBoundary := true } : Config V S).push [.drainLoop 0 none]

/-- One turn of the drain: pop the head; drop it when it is not committed or
    its target is gone; put it back when it waits for a paused target; apply
    it otherwise. The drain ends when the queue is empty or every entry left
    was put back in a row. -/
def drainLoop (c : Config V S) (blocked : Nat) (escaped : Option Payload) : Config V S :=
  match c.boundary with
  | [] => c.drainFinish escaped
  | t :: ts =>
    let c1 := { c with boundary := ts }
    let x := c.nodes t.target
    if !c.tokenSet t.token || !x.live then c1.push [.drainLoop 0 escaped]
    else if t.kind.waitsForResume && x.isPaused then
      let c2 := { c with boundary := ts ++ [t] }
      if blocked + 1 ≥ c2.boundary.length then c2.drainFinish escaped
      else c2.push [.drainLoop (blocked + 1) escaped]
    else (c1.record (.applied t.seq t.target)).push (c1.taskFrames t ++ [.taskCatch escaped])

/-- Keep only the tasks whose batch committed. -/
def clearDeferredBoundary : Config V S :=
  { c with boundary := c.boundary.filter fun t => c.tokenSet t.token }

end

/-! ### Batches -/

section

variable (c : Config V S)

/-- Open a batch, or join the open one. -/
def openBatch (b : Nat) : Config V S :=
  if c.batch.isSome then c.push [.user (.batchBody b) 0]
  else
    ({ c with batch := some { id := c.nextBatch }, nextBatch := c.nextBatch + 1 } :
      Config V S).push [.user (.batchBody b) 0, .batchFinish]

/-- Request the rollback of the open batch. -/
def rollback : Config V S :=
  match c.batch with
  | some b => { c with batch := some { b with rolledBack := true } }
  | none => c

/-- The body is over: stop collecting and commit or roll back. -/
def batchFinish (payload : Option Payload) : Config V S :=
  match c.batch with
  | none => c
  | some b =>
    let roots := b.boundaryRoot || !b.deferred.isEmpty
    let c1 := { c with batch := some { b with
      collecting := false
      deferred := []
      boundaryRoot := false } }
    if b.rolledBack || payload.isSome then
      c1.push [.rollbackTargets (b.deferred.map (·.1)), .rollbackDone roots payload]
    else c1.push [.commitTargets b.deferred, .commitDone roots]

/-- Replay the held slices target by target. -/
def commitTargets (c : Config V S) : List (NodeId × Wave V) → Config V S
  | [] => c
  | (n, wave) :: rest =>
    if (c.nodes n).live then
      (c.setBatchDirtyOwed n false).push [.ownedDown n wave, .commitTargets rest]
    else c.push [.commitTargets rest]

/-- Whether the ending batch has boundary work, late registrations included. -/
def batchRoots (roots : Bool) : Bool :=
  roots || match c.batch with
    | some b => b.boundaryRoot
    | none => false

/-- The commit succeeded: flip the token, close the batch, and drain. -/
def commitDone (roots : Bool) : Config V S :=
  let c1 := { c with
    committed := (match c.batch with
      | some b => [b.id]
      | none => []) ++ c.committed
    batch := none }
  if c.batchRoots roots then c1.push [.drainBoundary] else c1

/-- Close the batch without committing: its queued tasks are dropped. -/
def closeUncommitted (roots : Bool) : Config V S :=
  let c1 := { c with batch := none }
  if c.batchRoots roots then c1.clearDeferredBoundary else c1

/-- Balance the DIRTY of each target with one RESOLVED. -/
def rollbackTargets (c : Config V S) : List NodeId → Config V S
  | [] => c
  | n :: rest =>
    let x := c.nodes n
    if x.live && x.wave.batchDirtyOwed then
      (c.setBatchDirtyOwed n false).push [.ownedDown n [.resolved], .rollbackTargets rest]
    else c.push [.rollbackTargets rest]

/-- The rollback is over; a panic of the body continues. -/
def rollbackDone (roots : Bool) (payload : Option Payload) : Config V S :=
  let c1 := c.closeUncommitted roots
  match payload with
  | some p => c1.throw p
  | none => c1

end

end Config

/-- The node a frame works on. -/
def Frame.node? : Frame V → Option NodeId
  | .user (.fn _ ctx) _ => some ctx.node
  | .user _ _ => none
  | .waveExit n | .recoveryCatch n | .emit n _ _ | .emitToSubs n _ | .emitDirtyOnce n => some n
  | .markDirty n | .down n _ | .ownedDown n _ | .deliveryScope n _ | .downLoop n _ => some n
  | .deliveryGuard _ => none
  | .downEnd n _ | .batchDirtyOwed n => some n
  | .drainDeferredRuns => none
  | .applyDeferred _ => none
  | .clearUndirty n _ | .deferRun n | .maybeRun n | .tryRun n | .passthroughEmit n => some n
  | .runWave n | .waveGuard n | .runUndirty n _ | .runRoll n _ => some n
  | .settleAfterAbsorbedTerminal n | .settleOwed n | .invalidate n => some n
  | .up n _ _ | .ownedUp n _ _ | .upMsg n _ _ => some n
  | .upRouteEnd => none
  | .pauseRelease n _ | .onResume n | .resumeFire n | .fireOwedDemandIfReady n => some n
  | .pullDelivery n | .firePullDemand n | .subscribe n _ | .activateIfNeeded n => some n
  | .activateRun n | .subscribeDep n _ _ | .depSubscribed n _ _ _ _ => some n
  | .subscribeCatch n _ | .unsubscribe n _ | .deactivate n => some n
  | .swallow | .resumeUnwind _ => none
  | .externalRewire n _ | .rewireInner n _ _ _ | .rewireApply n _ _ => some n
  | .rewireRemove n _ _ _ _ _ | .rewireAssign n _ _ _ _ | .notifyTopology n _ _ => some n
  | .rewireFinish n _ _ | .depMutationGuard n | .settleRewire n | .rewireNextCatch n => some n
  | .drainBoundary | .drainLoop _ _ | .taskCatch _ | .batchFinish => none
  | .commitTargets _ | .commitDone _ | .rollbackTargets _ | .rollbackDone _ _ => none

/-- The dep handles a frame keeps alive. -/
def Frame.depHandles : Frame V → List NodeId
  | .subscribeDep _ _ dep | .depSubscribed _ _ dep _ _ => [dep]
  | .externalRewire _ req => req.handles
  | .rewireInner _ newDeps _ _ | .rewireApply _ newDeps _ | .rewireFinish _ newDeps _ => newDeps
  | .rewireRemove _ oldDeps newDeps _ _ _ | .rewireAssign _ oldDeps newDeps _ _ =>
    oldDeps ++ newDeps
  | .notifyTopology _ oldDeps newDeps => oldDeps ++ newDeps
  | _ => []

/-- A frame keeps the node alive. -/
def Frame.holds (f : Frame V) (n : NodeId) : Bool :=
  f.node? == some n || f.depHandles.contains n

namespace Config

section

variable (c : Config V S) (n : NodeId)

/-- The operations of a node fn on its own node. A request names its deps by
    live handles. -/
def performCtx : UserOp V S → Config V S
  | .ctxDown msgs => c.push [.down n msgs]
  | .ctxUp msgs towardDep => c.push [.up n msgs towardDep]
  | .ctxRewireNext req =>
    if req.handles.all c.isLive then c.deferBoundary n (.rewire req) c.activeToken else c
  | .ctxUpNext msgs towardDep => c.deferBoundary n (.up msgs towardDep) c.activeToken
  | .ctxStateSet s =>
    let x := c.nodes n
    c.setNode n { x with aux := { x.aux with state := some s } }
  | .ctxStatePersist on =>
    let x := c.nodes n
    c.setNode n { x with aux := { x.aux with statePersist := on } }
  | .ctxOnDeactivation h =>
    let x := c.nodes n
    c.setNode n { x with aux := { x.aux with onDeactivation := x.aux.onDeactivation ++ [h] } }
  | .ctxOnInvalidate h =>
    let x := c.nodes n
    c.setNode n { x with aux := { x.aux with onInvalidate := x.aux.onInvalidate ++ [h] } }
  | _ => c

/-- The public operations on a live node. -/
def performOn : UserOp V S → Config V S
  | .down _ msgs => c.withWaveOwner n [.down n msgs]
  | .up _ msgs towardDep => c.withWaveOwner n [.up n msgs towardDep]
  | .subscribe _ s =>
    if (c.nodes n).value.terminal then
      c.panic ("subscribe: node is terminal and non-resubscribable — the stream is " ++
        "permanently over (R-terminal / D17)")
    else
      (c.push [.subscribeCatch n (c.nodes n).aux.nextSubId]).withWaveOwner n
        [.subscribe n (.external s)]
  | .unsubscribe _ id => c.push [.unsubscribe n id]
  | .rewire _ req => if req.handles.all c.isLive then c.push [.externalRewire n req] else c
  | .requestDownNext _ msgs => c.deferBoundary n (.down msgs) c.activeToken
  | .setTopologyObserver _ h =>
    let x := c.nodes n
    c.setNode n { x with topologyObserver := some h }
  | _ => c

/-- A public operation is guarded by the liveness of its node. -/
def performLive (o : UserOp V S) : Config V S :=
  if c.isLive n then c.performOn n o else c

end

/-- One operation of the callback `cb`. The source's handles keep their node
    alive, so an operation on a dead node cannot be expressed. -/
def perform (c : Config V S) (cb : Callback V) (o : UserOp V S) : Config V S :=
  match o with
  | .newNode spec => c.newNode spec
  | .drop n => c.dropNode n (c.stack.any (·.holds n))
  | .batch b => c.openBatch b
  | .rollback => c.rollback
  | .down n _ | .up n _ _ | .subscribe n _ | .unsubscribe n _ | .rewire n _ => c.performLive n o
  | .requestDownNext n _ | .setTopologyObserver n _ => c.performLive n o
  | _ =>
    match cb with
    | .fn _ ctx => c.performCtx ctx.node o
    | _ => c

end Config

end GraphRefly
