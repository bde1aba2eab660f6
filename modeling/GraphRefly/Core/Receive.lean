import GraphRefly.Core.Config

/-!
# Node Transitions

The state changes of a single node that the engine makes under one borrow of
the arena, before it calls out: receiving a dep message, deciding whether to
run, collecting what one outgoing message does, and the lifecycle resets. Each
is a function of the node slot alone, with the delivery state as arguments.

## Main definitions

* `Node.decideMaybeRun`: Whether a settled dep wave runs the fn now.
* `Node.receive`: One dep message, and what it asks the node to do.
* `DownAction`, `Node.collectDown`: One outgoing message.
* `Node.shouldBufferOnPause`, `Node.canFireDemand`: Pause and pull predicates.
* `Node.resetWaveFlags`, `Node.deactivated`, `Node.invalidated`: Resets.
* `Node.runStarted`, `Node.runRolled`: The two ends of a fn run.
-/

namespace GraphRefly

namespace Node

variable {V S : Type}

section

variable (x : Node V S)

/-- Whether a settled dep wave runs the fn now. Mid-rewire the run is left to
    the atomic settle; a paused or quiet default-mode node remembers that it
    skipped a wave. -/
def decideMaybeRun : Node V S × MaybeRunDecision :=
  if x.wave.inDepMutation then
    ({ x with wave := { x.wave with rewireRunPending := true } }, .skip)
  else if x.config.pausable = .true ∧ (x.isPaused ∨ x.pullQuiet) then
    ({ x with aux := { x.aux with pausedDepWaveOccurred := true } }, .skip)
  else if x.dep.pending > 0 then (x, .skip)
  else if x.handle.isNone then (x, .passthrough)
  else if ¬ x.gateOpen then (x, .skip)
  else (x, .run)

/-- `set_maybe_run_action`: inside a delivery the decision is deferred to its
    end, otherwise it is taken at once. -/
def setMaybeRunAction (inFlight : Bool) (a : ReceiveAction V) :
    Node V S × ReceiveAction V :=
  if inFlight then (x, { a with deferMaybeRun := true })
  else
    let r := x.decideMaybeRun
    (r.1, { a with maybeRunDecision := r.2 })

/-- A default-mode node that is paused or quiet remembers a wave it did not
    finish receiving. -/
def noteSkippedWave : Node V S :=
  if x.dep.pending ≠ 0 ∧ x.config.pausable = .true ∧ ¬ x.wave.inDepMutation ∧
      (x.isPaused ∨ x.pullQuiet) then
    { x with aux := { x.aux with pausedDepWaveOccurred := true } }
  else x

/-- The common tail of DATA and RESOLVED: once no dep is pending, decide the
    run and retry an owed demand. -/
def settleReceived (inFlight : Bool) : Node V S × ReceiveAction V :=
  let x1 := x.noteSkippedWave
  if x1.dep.pending = 0 then x1.setMaybeRunAction inFlight { fireDemand := true }
  else (x1, {})

/-- DIRTY from dep `i`: count it, and pass it on once per wave unless quiet. -/
def receiveDirty (i : Nat) : Node V S × ReceiveAction V :=
  if x.dep.dirty.getD i false then (x, {})
  else
    let x1 := { x with dep := { x.dep with
      dirty := x.dep.dirty.set i true
      pending := x.dep.pending + 1
      tier := x.dep.tier.set i 2 } }
    if x1.pullQuiet ∨ x1.wave.emittedDirtyThisWave then (x1, {})
    else
      ({ x1 with
        wave := { x1.wave with emittedDirtyThisWave := true }
        value := { x1.value with status := .dirty } }, { emitDirty := true })

/-- DATA from dep `i`. -/
def receiveData (deliveryId : Nat) (inFlight : Bool) (i : Nat) (v : V) :
    Node V S × ReceiveAction V :=
  if x.restoredHandshake.getD i false then
    ({ x with dep := { x.dep with
      prev := x.dep.prev.set i (some v)
      hasData := x.dep.hasData.set i true
      tier := x.dep.tier.set i 3
      batch := x.dep.batch.set i none } }, {})
  else
    let d := { x.dep with
      batch := x.dep.batch.set i (some ((x.dep.batch.getD i none).getD [] ++ [v])) }
    let d1 := d.recordWaveData deliveryId i v
    let d2 := { d1 with hasData := d1.hasData.set i true, tier := d1.tier.set i 3 }
    let x1 := { x with dep := d2.undirty i }
    x1.settleReceived inFlight

/-- RESOLVED from dep `i`. -/
def receiveResolved (deliveryId : Nat) (inFlight : Bool) (i : Nat) :
    Node V S × ReceiveAction V :=
  let d := x.dep.recordResolvedWave deliveryId i
  let d1 := { d with tier := d.tier.set i 3 }
  let x1 := { x with dep := d1.undirty i }
  x1.settleReceived inFlight

/-- INVALIDATE from dep `i`: forget its value, invalidate this node, and settle
    a DIRTY that now has no wave left to settle it. -/
def receiveInvalidate (deliveryId : Nat) (i : Nat) :
    Node V S × ReceiveAction V :=
  let d := { x.dep with
    prev := x.dep.prev.set i none
    hasData := x.dep.hasData.set i false
    batch := x.dep.batch.set i none }
  let hadCurrentProjection := d.batchWaveId.getD i none == some deliveryId
  let d1 := d.recordWaveSentinel deliveryId i
  let d2 := if !hadCurrentProjection && !d1.hasRunTriggeringProjection then
    d1.clearWaveProjection i else d1
  let d3 := d2.undirty i
  let clear := x.aux.pausedDepWaveOccurred && d3.batch.all (·.isNone)
  let x1 := { x with
    dep := d3
    aux := { x.aux with
      pausedDepWaveOccurred := if clear then false else x.aux.pausedDepWaveOccurred } }
  let hadData := x1.value.hasData
  let undirtyNoSettle := x1.dep.pending == 0 && x1.wave.emittedDirtyThisWave
  let paused := x1.isPaused || x1.pullQuiet
  (x1, {
    doInvalidate := true
    invalidateAsInvalidateMsg := paused && x1.config.pausable == .resumeAll && hadData
    hadNodeDataBeforeInvalidate := hadData
    clearUndirtyAfterInvalidate := undirtyNoSettle && hadData
    downMsgs := if undirtyNoSettle && !hadData then some [.resolved] else none
    fireDemand := true })

/-- COMPLETE or ERROR from dep `i`: auto-error, real input, auto-complete, or
    an absorbed terminal, in this order. -/
def receiveTerminal (inFlight : Bool) (i : Nat) (t : DepTerminal) :
    Node V S × ReceiveAction V :=
  let d := { x.dep with
    terminal := x.dep.terminal.set i (some t)
    terminalWave := x.dep.terminalWave.set i (some t) }
  let x1 := { x with dep := d.undirty i }
  let allDepsTerminal := !x1.deps.isEmpty && x1.dep.terminal.all (·.isSome)
  match t, x1.config.errorWhenDepsError with
  | .error e, true => (x1, { downMsgs := some [.error e], fireDemand := true })
  | _, _ =>
    if x1.config.terminalAsRealInput then
      x1.setMaybeRunAction inFlight { fireDemand := true }
    else if x1.config.completeWhenDepsComplete ∧ allDepsTerminal then
      (x1, { downMsgs := some [.complete], fireDemand := true })
    else (x1, { doSettleAfterAbsorbedTerminal := true, fireDemand := true })

/-- Taking the message in reads the per-dep arrays. A terminated node and the
    messages that are only relayed or ignored do not. -/
def readsDep (m : Message V) : Bool :=
  !x.value.terminal && match m with
    | .invalidate | .dirty | .data _ | .resolved | .complete | .error _ => true
    | _ => false

/-- The per-dep arrays have an entry `i`. -/
def hasDepIndex (i : Nat) : Bool :=
  i < x.dep.dirty.length

/-- `collect_receive_from_dep_action`: one message from dep `i`. A terminated
    node only relays TEARDOWN. -/
def receive (deliveryId : Nat) (inFlight : Bool) (i : Nat) (m : Message V) :
    Node V S × ReceiveAction V :=
  if x.value.terminal then
    match m with
    | .teardown => (x, { emitTeardownSubscribers := true })
    | _ => (x, {})
  else
    match m with
    | .invalidate => x.receiveInvalidate deliveryId i
    | .dirty => x.receiveDirty i
    | .data v => x.receiveData deliveryId inFlight i v
    | .resolved => x.receiveResolved deliveryId inFlight i
    | .complete => x.receiveTerminal inFlight i .complete
    | .error e => x.receiveTerminal inFlight i (.error e)
    | .teardown => (x, { downMsgs := some [.complete, .teardown] })
    | _ => (x, {})

end

end Node

/-- What one outgoing message does after the node's own state changed. -/
inductive DownAction
  | nothing
  | emit
  | invalidate (hooks : List HookId)
  deriving DecidableEq

namespace Node

variable {V S : Type}

/-- The aux reset a terminal performs. -/
def sealPull (a : NodeAux V S) : NodeAux V S :=
  { a with
    pullDemandOwed := none
    activePull := none
    inDeliverDemand := false
    pullDirtyOwed := false
    pausedDepWaveOccurred := false
    pauseBuffer := [] }

section

variable (x : Node V S)

/-- Drop the cached value. -/
def invalidated : Node V S :=
  { x with value := { x.value with cache := none, hasData := false, status := .sentinel } }

/-- `collect_down_action`: the node's own side of one outgoing message. -/
def collectDown (m : Message V) : Node V S × DownAction :=
  match m with
  | .dirty =>
    if x.wave.emittedDirtyThisWave then (x, .nothing)
    else
      ({ x with
        wave := { x.wave with emittedDirtyThisWave := true }
        value := { x.value with status := .dirty } }, .emit)
  | .data v =>
    ({ x with
      value := { x.value with cache := some v, hasData := true, status := .settled }
      wave := { x.wave with emittedTier3ThisWave := true } }, .emit)
  | .resolved =>
    ({ x with
      value := { x.value with status := if x.value.hasData then .resolved else .sentinel }
      wave := { x.wave with emittedTier3ThisWave := true } }, .emit)
  | .invalidate =>
    if x.value.hasData then (x.invalidated, .invalidate x.aux.onInvalidate)
    else (x, .nothing)
  | .complete =>
    if x.value.terminal then (x, .nothing)
    else
      ({ x with
        value := { x.value with terminal := true, status := .completed }
        aux := sealPull x.aux }, .emit)
  | .error _ =>
    if x.value.terminal then (x, .nothing)
    else
      ({ x with
        value := { x.value with terminal := true, status := .errored }
        aux := sealPull x.aux }, .emit)
  | .teardown => (x, .emit)
  | _ => (x, .nothing)

/-- Should an outgoing settle slice be deferred into the pause buffer? -/
def shouldBufferOnPause : Bool :=
  match x.config.pausable with
  | .false => false
  | .resumeAll => x.isPaused || x.pullQuiet
  | .true =>
    (x.isPaused || x.pullQuiet) &&
      ((x.pullQuiet && !x.wave.insideRunWave && x.deps.isEmpty) ||
        (!x.wave.insideRunWave && x.isAsync && !x.deps.isEmpty))

/-- A PULL demand can be delivered now. -/
def canFireDemand : Bool :=
  x.config.pullId.isSome && !x.value.terminal && x.dep.pending == 0 && !x.isPaused &&
    (x.handle.isNone || x.gateOpen)

/-- The recovery reset of an aborted wave. -/
def resetWaveFlags : Node V S :=
  { x with
    wave := { x.wave with
      insideRunWave := false
      emittedDirtyThisWave := false
      emittedTier3ThisWave := false }
    dep := x.dep.resetWave x.deps.length }

/-- The fresh-lifecycle reset of the last unsubscribe. A compute node loses
    its cache, a depless state node keeps it. -/
def deactivated : Node V S :=
  { x with
    value := if x.handle.isSome ∨ ¬ x.deps.isEmpty then
      { x.value with cache := none, hasData := false, status := .sentinel } else x.value
    dep := x.dep.wiped x.deps.length
    unsubs := []
    idxBoxes := []
    restoredHandshake := x.restoredHandshake.map fun _ => false
    hasCalledFnOnce := false
    wave := { x.wave with emittedDirtyThisWave := false }
    aux := { x.aux with
      activated := false
      onDeactivation := []
      onInvalidate := []
      pauseLockset := []
      pullDemandOwed := none
      activePull := none
      inDeliverDemand := false
      pullDirtyOwed := false
      pausedDepWaveOccurred := false
      pauseBuffer := []
      state := if x.aux.statePersist then x.aux.state else none } }

/-- The node while its fn runs: the dep snapshot is taken out and the cleanup
    hooks of the previous run are dropped. -/
def runStarted : Node V S :=
  { x with
    dep := x.dep.taken x.deps.length
    hasCalledFnOnce := true
    wave := { x.wave with insideRunWave := true, emittedTier3ThisWave := false }
    aux := { x.aux with onInvalidate := [], onDeactivation := [] } }

/-- The dep snapshots a run hands to its fn. -/
def depRecords : List (DepRecord V) :=
  (List.range x.deps.length).map x.dep.record

/-- The node after its fn ran: the wave's batch is committed, and the wave
    flags are cleared unless a deferred settle still needs them. -/
def runRolled (keep : Bool) : Node V S :=
  { x with
    dep := x.dep.rolled
    wave := if keep then x.wave else
      { x.wave with emittedDirtyThisWave := false, emittedTier3ThisWave := false } }

end

end Node

end GraphRefly
