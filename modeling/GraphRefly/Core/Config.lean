import GraphRefly.Core.Node
import Mathlib.Algebra.GroupWithZero.Nat

/-!
# Engine Configurations

The whole state of the engine at one moment: the arena, the thread-local wave,
delivery and batch state, the committed-boundary queue, and the control stack.

The source is a set of functions that call each other and call out to user
code (subscriber sinks, node fns, cleanup hooks), which may call back in at
any point. A control stack makes those points explicit. Each entry is a
`Frame`: a source function about to be entered, or the rest of one that has
called out and will resume. What user code does is not modelled at all; it is
asked for one operation at a time from an environment that sees the whole
configuration, so every statement about all environments is a statement about
all user code.

A panic switches the configuration to unwinding. Frames are then popped one by
one: drop guards still act, catch points stop it, everything else is
discarded.

The log records what an observer of the run can see: deliveries to
subscriptions, fn invocations, demands, boundary tasks. No engine operation
reads it.

## Main definitions

* `RewireRequest`, `BoundaryTask`: Deferred topology and control requests.
* `WaveScope`, `ActiveBatch`: The wave in flight and the open batch.
* `Callback`, `UserOp`, `UserAct`, `Env`: The user-code interface.
* `MaybeRunDecision`, `ReceiveAction`: What a dep message asks of a node.
* `Frame`: The control stack's alphabet.
* `Event`: The observable events.
* `Config`: An engine configuration, with its update helpers.
-/

namespace GraphRefly

/-- A panic payload: an ordinary value-level failure with its message, or a
    host-boundary abort. -/
inductive Payload
  | ordinary (msg : String)
  | hostAbort
  deriving DecidableEq

/-- The untyped error a caught panic becomes. -/
def Payload.toError : Payload → String
  | .ordinary msg => msg
  | .hostAbort => "node fn panicked"

/-- A rewire request: add a dep, remove a dep identity, or replace the whole
    dep list; each swaps the fn as well. -/
inductive RewireRequest
  | add (dep : NodeId) (f : FnId)
  | remove (dep : NodeId) (f : FnId)
  | set (deps : List NodeId) (f : FnId)
  deriving DecidableEq

namespace RewireRequest

/-- The dep list a request makes of the current one. -/
def projectDeps (current : List NodeId) : RewireRequest → List NodeId
  | set deps _ => deps
  | add dep _ => if dep ∈ current then current else current ++ [dep]
  | remove dep _ => current.filter (· ≠ dep)

/-- The dep handles a request keeps alive; a removal only names an identity. -/
def handles : RewireRequest → List NodeId
  | set deps _ => deps
  | add dep _ => [dep]
  | remove _ _ => []

/-- The fn a request installs. -/
def newFn : RewireRequest → FnId
  | set _ f => f
  | add _ f => f
  | remove _ f => f

end RewireRequest

/-- What a boundary task does when it is applied. -/
inductive TaskKind (V : Type)
  | rewire (req : RewireRequest)
  | externalRewire (req : RewireRequest)
  | up (msgs : Wave V) (towardDep : Option Nat)
  | down (msgs : Wave V)
  deriving DecidableEq

/-- The dep handles a task keeps alive; its target it does not. -/
def TaskKind.handles {V : Type} : TaskKind V → List NodeId
  | .rewire req => req.handles
  | .externalRewire req => req.handles
  | _ => []

/-- One entry of the committed-boundary queue. The commit token is the open
    batch it was queued under, if any; the serial number is its position in
    the order of all requests ever queued. -/
structure BoundaryTask (V : Type) where
  seq : Nat
  target : NodeId
  kind : TaskKind V
  token : Option Nat
  deriving DecidableEq

/-- What is deferred to the end of a delivery. -/
inductive DeferredDeliveryKind
  | run
  | absorbedSettle
  deriving DecidableEq

/-- A deferred delivery action. -/
structure DeferredDeliveryAction where
  kind : DeferredDeliveryKind
  target : NodeId
  deriving DecidableEq

/-- The wave in flight: every node that took part, and the innermost node
    whose fn ran. -/
structure WaveScope where
  touched : List NodeId := []
  blamed : Option NodeId := none
  deriving DecidableEq

/-- The open batch: the settle slice held for each target in first-write
    order, and whether a boundary root was registered. -/
structure ActiveBatch (V : Type) where
  id : Nat
  deferred : List (NodeId × Wave V) := []
  boundaryRoot : Bool := false
  rolledBack : Bool := false
  collecting : Bool := true
  deriving DecidableEq

/-- The argument of a node fn. -/
structure Ctx (V : Type) where
  node : NodeId
  deps : List (DepRecord V)
  pull : Option (PullDemand V)
  deriving DecidableEq

/-- A point where the engine hands control to user code. -/
inductive Callback (V : Type)
  | main
  | fn (f : FnId) (ctx : Ctx V)
  | sink (s : SinkId) (m : Message V)
  | hook (h : HookId)
  | batchBody (b : Nat)
  | observer (h : HookId) (oldDeps newDeps : List NodeId)
  deriving DecidableEq

/-- Construction parameters of a node. -/
structure NodeSpec (V : Type) where
  deps : List NodeId := []
  handle : Option (FnId × PoolKind) := none
  initial : Option V := none
  config : NodeConfig := {}
  deriving DecidableEq

/-- One operation user code can perform. The `ctx` forms are only available to
    a node fn and act on the node it runs for; the others are the public
    surface, whose mutating entries own a wave. -/
inductive UserOp (V S : Type)
  | newNode (spec : NodeSpec V)
  | drop (n : NodeId)
  | down (n : NodeId) (msgs : Wave V)
  | up (n : NodeId) (msgs : Wave V) (towardDep : Option Nat)
  | subscribe (n : NodeId) (s : SinkId)
  | unsubscribe (n : NodeId) (id : Nat)
  | rewire (n : NodeId) (req : RewireRequest)
  | requestDownNext (n : NodeId) (msgs : Wave V)
  | batch (b : Nat)
  | rollback
  | setTopologyObserver (n : NodeId) (h : HookId)
  | ctxDown (msgs : Wave V)
  | ctxUp (msgs : Wave V) (towardDep : Option Nat)
  | ctxRewireNext (req : RewireRequest)
  | ctxUpNext (msgs : Wave V) (towardDep : Option Nat)
  | ctxStateSet (s : S)
  | ctxStatePersist (on : Bool)
  | ctxOnDeactivation (h : HookId)
  | ctxOnInvalidate (h : HookId)

/-- What user code does next: return, panic, or perform an operation. -/
inductive UserAct (V S : Type)
  | ret
  | panic (p : Payload)
  | op (o : UserOp V S)

/-- The outcome of the run decision. -/
inductive MaybeRunDecision
  | skip
  | passthrough
  | run
  deriving DecidableEq

/-- The parts of `InWaveDepReceiveAction`: what receiving one dep message asks
    the node to do, applied in the order of the fields. -/
structure ReceiveAction (V : Type) where
  emitTeardownSubscribers : Bool := false
  emitDirty : Bool := false
  doInvalidate : Bool := false
  invalidateAsInvalidateMsg : Bool := false
  hadNodeDataBeforeInvalidate : Bool := false
  clearUndirtyAfterInvalidate : Bool := false
  deferMaybeRun : Bool := false
  maybeRunDecision : MaybeRunDecision := .skip
  downMsgs : Option (Wave V) := none
  doSettleAfterAbsorbedTerminal : Bool := false
  fireDemand : Bool := false

/-- A control stack entry: a source function about to be entered, or the rest
    of one that called out. -/
inductive Frame (V : Type)
  | user (cb : Callback V) (i : Nat)
  | waveExit (owner : NodeId)
  | recoveryCatch (owner : NodeId)
  | emit (n : NodeId) (m : Message V) (subs : List SubscriberEntry)
  | emitToSubs (n : NodeId) (m : Message V)
  | emitDirtyOnce (n : NodeId)
  | markDirty (n : NodeId)
  | down (n : NodeId) (msgs : Wave V)
  | ownedDown (n : NodeId) (msgs : Wave V)
  | deliveryScope (n : NodeId) (msgs : Wave V)
  | downLoop (n : NodeId) (msgs : Wave V)
  | deliveryGuard (prevId : Nat)
  | downEnd (n : NodeId) (inside : Bool)
  | batchDirtyOwed (n : NodeId)
  | drainDeferredRuns
  | applyDeferred (actions : List DeferredDeliveryAction)
  | clearUndirty (n : NodeId) (hadData : Bool)
  | deferRun (n : NodeId)
  | maybeRun (n : NodeId)
  | tryRun (n : NodeId)
  | passthroughEmit (n : NodeId)
  | runWave (n : NodeId)
  | waveGuard (n : NodeId)
  | runUndirty (n : NodeId) (isAsync : Bool)
  | runRoll (n : NodeId) (undirty : Bool)
  | settleAfterAbsorbedTerminal (n : NodeId)
  | settleOwed (n : NodeId)
  | invalidate (n : NodeId)
  | up (n : NodeId) (msgs : Wave V) (towardDep : Option Nat)
  | ownedUp (n : NodeId) (msgs : Wave V) (towardDep : Option Nat)
  | upMsg (n : NodeId) (m : Message V) (towardDep : Option Nat)
  | upRouteEnd
  | pauseRelease (n : NodeId) (lock : LockId)
  | onResume (n : NodeId)
  | resumeFire (n : NodeId)
  | fireOwedDemandIfReady (n : NodeId)
  | pullDelivery (n : NodeId)
  | firePullDemand (n : NodeId)
  | subscribe (n : NodeId) (sink : Sink)
  | activateIfNeeded (n : NodeId)
  | activateRun (n : NodeId)
  | subscribeDep (n : NodeId) (idx : Nat) (dep : NodeId)
  | depSubscribed (n : NodeId) (idx : Nat) (dep : NodeId) (id : Nat) (box : BoxId)
  | subscribeCatch (n : NodeId) (id : Nat)
  | unsubscribe (n : NodeId) (id : Nat)
  | deactivate (n : NodeId)
  | swallow
  | resumeUnwind (p : Payload)
  | externalRewire (n : NodeId) (req : RewireRequest)
  | rewireInner (n : NodeId) (newDeps : List NodeId) (f : FnId) (allowTerminalOwner : Bool)
  | rewireApply (n : NodeId) (newDeps : List NodeId) (f : FnId)
  | rewireRemove (n : NodeId) (oldDeps newDeps : List NodeId) (activated : Bool)
      (removed : List Nat) (removedDirty : Bool)
  | rewireAssign (n : NodeId) (oldDeps newDeps : List NodeId) (activated : Bool)
      (removedDirty : Bool)
  | notifyTopology (n : NodeId) (oldDeps newDeps : List NodeId)
  | rewireFinish (n : NodeId) (newDeps : List NodeId) (removedDirty : Bool)
  | depMutationGuard (n : NodeId)
  | settleRewire (n : NodeId)
  | rewireNextCatch (n : NodeId)
  | drainBoundary
  | drainLoop (blocked : Nat) (escaped : Option Payload)
  | taskCatch (escaped : Option Payload)
  | batchFinish
  | commitTargets (targets : List (NodeId × Wave V))
  | commitDone (roots : Bool)
  | rollbackTargets (targets : List NodeId)
  | rollbackDone (roots : Bool) (payload : Option Payload)

/-- What an observer of a run can see. A run is seen with the argument of the
    fn and the pause locks its node holds. -/
inductive Event (V : Type)
  | delivered (n : NodeId) (sub : Nat) (sink : Sink) (m : Message V)
  | ran (n : NodeId) (ctx : Ctx V) (locks : List LockId)
  | demandAccepted (n : NodeId) (d : PullDemand V)
  | served (n : NodeId) (d : PullDemand V)
  | enqueued (seq : Nat) (target : NodeId)
  | applied (seq : Nat) (target : NodeId)
  | deactivated (n : NodeId)
  | panicked (n : NodeId)
  deriving DecidableEq

/-- A delivery. -/
def Event.isDelivery {V : Type} : Event V → Bool
  | .delivered _ _ _ _ => true
  | _ => false

/-- Running, or unwinding with a payload. -/
inductive Mode
  | running
  | unwinding (p : Payload)
  deriving DecidableEq

/-- An engine configuration. -/
structure Config (V S : Type) where
  nodes : NodeId → Node V S := fun _ => {}
  size : Nat := 0
  boxes : BoxId → Option Nat := fun _ => none
  nextBox : Nat := 0
  wave : Option WaveScope := none
  depth : Nat := 0
  nextDeliveryId : Nat := 1
  currentDeliveryId : Nat := 0
  deferred : List DeferredDeliveryAction := []
  batch : Option (ActiveBatch V) := none
  nextBatch : Nat := 0
  committed : List Nat := []
  boundary : List (BoundaryTask V) := []
  nextSeq : Nat := 0
  drainingBoundary : Bool := false
  routes : List (List (LockId × NodeId)) := []
  mode : Mode := .running
  stack : List (Frame V) := []
  log : List (Event V) := []

/-- User code: what each callback does next, given the whole configuration and
    how many operations this invocation already performed, and whether it
    catches a panic that unwinds into it. -/
structure Env (V S : Type) where
  act : Callback V → Config V S → Nat → UserAct V S
  catches : Callback V → Config V S → Bool

namespace Config

variable {V S : Type}

section

variable (c : Config V S)

/-- Push frames, the first on top. -/
def push (fs : List (Frame V)) : Config V S :=
  { c with stack := fs ++ c.stack }

/-- Replace the slot of `n`. -/
def setNode (n : NodeId) (x : Node V S) : Config V S :=
  { c with nodes := Function.update c.nodes n x }

/-- Record an event; the newest is at the head. -/
def record (e : Event V) : Config V S :=
  { c with log := e :: c.log }

/-- Start unwinding. -/
def throw (p : Payload) : Config V S :=
  { c with mode := .unwinding p }

/-- Panic with a message. -/
def panic (msg : String) : Config V S :=
  c.throw (.ordinary msg)

/-- A wave is in flight on this thread. -/
def waveInFlight : Bool :=
  c.wave.isSome

/-- A downstream delivery is in flight. -/
def deliveryInFlight : Bool :=
  0 < c.depth

/-- An open batch is still collecting. -/
def collectingBatch : Bool :=
  match c.batch with
  | some b => b.collecting
  | none => false

/-- Boundary drains wait for the open batch to end. -/
def boundaryDrainsBlocked : Bool :=
  c.batch.isSome

/-- Enroll a node in the wave's touched set; nothing without a wave. -/
def waveRegister (n : NodeId) : Config V S :=
  match c.wave with
  | some w => if n ∈ w.touched then c
      else { c with wave := some { w with touched := w.touched ++ [n] } }
  | none => c

/-- Record the node whose fn is about to run. -/
def waveSetBlamed (n : NodeId) : Config V S :=
  match c.wave with
  | some w => { c with wave := some { w with blamed := some n } }
  | none => c

/-- Defer an action to the end of the delivery, once per node and kind. -/
def deferAction (a : DeferredDeliveryAction) : Config V S :=
  if a ∈ c.deferred then c else { c with deferred := c.deferred ++ [a] }

/-- The commit token is set: the task was queued outside a batch, or its batch
    committed. -/
def tokenSet (token : Option Nat) : Bool :=
  match token with
  | some b => b ∈ c.committed
  | none => true

/-- The open batch's commit token for tasks queued now. -/
def activeToken : Option Nat :=
  c.batch.map (·.id)

/-- Remember that the open batch has boundary work to drain. -/
def registerBoundaryRoot : Config V S :=
  match c.batch with
  | some b => { c with batch := some { b with boundaryRoot := true } }
  | none => c

/-- Queue a boundary task. -/
def deferBoundary (target : NodeId) (kind : TaskKind V) (token : Option Nat) :
    Config V S :=
  let c1 := c.registerBoundaryRoot
  { c1 with
    boundary := c1.boundary ++ [⟨c1.nextSeq, target, kind, token⟩]
    nextSeq := c1.nextSeq + 1
    log := .enqueued c1.nextSeq target :: c1.log }

end

end Config

end GraphRefly
