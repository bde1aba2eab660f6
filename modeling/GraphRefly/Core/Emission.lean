import GraphRefly.Core.Receive
import GraphRefly.Core.Reach

/-!
# Waves, Emission and Runs

One definition per engine function: what it does up to the point where it
calls out, and the frames it leaves for what comes after. The configuration a
definition receives has the function's own frame already popped.

The order of the frames is the order of the calls in the source. Where the
source takes a snapshot before calling (the subscriber list of an emission,
the deferred actions of a drain), the frame carries the snapshot.

## Main definitions

* `ReceiveAction.frames`: Applying a receive action.
* `withWaveOwner`, `receiveFromDep`, `deliver`, `emit`: Waves and delivery.
* `emitDirtyOnce`, `markDirty`: Phase one of the two-phase wave.
* `down`, `downUnbatched`, `downEmit`, `downLoop`: Downstream emission.
* `deliveryScope`, `deliveryGuard`: The delivery scope around an emission.
* `drainDeferredRuns`, `applyDeferred`, `maybeRun`, `tryRun`: Deferred runs.
* `runWave`, `runUndirty`, `runRoll`: One fn run.
* `settleAfterAbsorbedTerminal`, `invalidate`: Settles without a run.
-/

namespace GraphRefly

variable {V S : Type}

/-- The frames that apply a receive action, in field order. -/
def ReceiveAction.frames (a : ReceiveAction V) (n : NodeId) : List (Frame V) :=
  (if a.emitTeardownSubscribers then [Frame.emitToSubs n .teardown] else []) ++
  (if a.emitDirty then [Frame.emitToSubs n .dirty] else []) ++
  (if a.doInvalidate then
    [if a.invalidateAsInvalidateMsg && a.hadNodeDataBeforeInvalidate then Frame.down n [.invalidate]
      else Frame.invalidate n] else []) ++
  (if a.clearUndirtyAfterInvalidate then
    [Frame.clearUndirty n a.hadNodeDataBeforeInvalidate] else []) ++
  (if a.deferMaybeRun then [Frame.deferRun n] else []) ++
  (match a.maybeRunDecision with
    | .skip => []
    | .passthrough => [Frame.passthroughEmit n]
    | .run => [Frame.runWave n]) ++
  (match a.downMsgs with
    | some msgs => [Frame.down n msgs]
    | none => []) ++
  (if a.doSettleAfterAbsorbedTerminal then [Frame.settleAfterAbsorbedTerminal n] else []) ++
  (if a.fireDemand then [Frame.fireOwedDemandIfReady n] else [])

namespace Config

/-! ### Waves and delivery -/

section

variable (c : Config V S)

/-- Run `body` as a wave: the outermost caller installs a scope and the catch
    point that ends it. -/
def withWaveOwner (owner : NodeId) (body : List (Frame V)) : Config V S :=
  if c.waveInFlight then c.push body
  else ({ c with wave := some {} } : Config V S).push (body ++ [.waveExit owner])

/-- A dep callback: enroll in the wave, take the message in, and leave the
    resulting actions to be applied. An index past the per-dep arrays panics
    before anything is written. -/
def receiveFromDep (n : NodeId) (i : Nat) (m : Message V) : Config V S :=
  if (c.nodes n).live then
    let c1 := c.waveRegister n
    if (c1.nodes n).readsDep m && !((c1.nodes n).hasDepIndex i) then c1.panic "index out of bounds"
    else
      let r := (c1.nodes n).receive c1.currentDeliveryId c1.deliveryInFlight i m
      (c1.setNode n r.1).push (r.2.frames n)
  else c

/-- Deliver one message to one subscription. A removed dep's callback drops
    it. -/
def deliver (n : NodeId) (entry : SubscriberEntry) (m : Message V) :
    Config V S :=
  let c1 := c.record (.delivered n entry.id entry.sink m)
  match entry.sink with
  | .external s => c1.push [.user (.sink s m) 0]
  | .dep consumer box =>
    match c1.boxes box with
    | some i => c1.receiveFromDep consumer i m
    | none => c1

/-- Deliver to a snapshot, one subscription at a time. -/
def emit (c : Config V S) (n : NodeId) (m : Message V) : List SubscriberEntry → Config V S
  | [] => c
  | entry :: rest => (c.push [.emit n m rest]).deliver n entry m

/-- Deliver to the current subscribers. -/
def emitToSubs (n : NodeId) (m : Message V) : Config V S :=
  c.push [.emit n m (c.nodes n).aux.subscribers]

/-- Mark the wave's DIRTY as emitted. -/
def setEmittedDirty (n : NodeId) (b : Bool) : Config V S :=
  let x := c.nodes n
  c.setNode n { x with wave := { x.wave with emittedDirtyThisWave := b } }

/-- Emit DIRTY unless this wave already did. -/
def emitDirtyOnce (n : NodeId) : Config V S :=
  let x := c.nodes n
  if x.wave.emittedDirtyThisWave then c
  else
    (c.setNode n { x with
      wave := { x.wave with emittedDirtyThisWave := true }
      value := { x.value with status := .dirty } }).push
      [.emit n .dirty x.aux.subscribers]

/-- Mark the node stale, emitting DIRTY unless this wave already did. -/
def markDirty (n : NodeId) : Config V S :=
  let x := c.nodes n
  let c1 := c.setNode n { x with
    wave := { x.wave with emittedDirtyThisWave := true }
    value := { x.value with status := .dirty } }
  if x.wave.emittedDirtyThisWave then c1 else c1.push [.emit n .dirty x.aux.subscribers]

end

/-! ### Downstream emission -/

section

variable (c : Config V S) (n : NodeId)

/-- Hold a settle slice in the open batch, replacing an earlier one of the
    same target in place. -/
def deferToBatch (wave : Wave V) : Config V S :=
  match c.batch with
  | some b =>
    let held := if b.deferred.any (·.1 == n) then
        b.deferred.map fun e => if e.1 = n then (n, wave) else e
      else b.deferred ++ [(n, wave)]
    { c with batch := some { b with deferred := held } }
  | none => c

/-- The emission proper: tier-3 exclusivity, the leading DIRTY, the delivery
    scope over the sorted messages, and the flag reset of an outside emit. -/
def downEmit (inside : Bool) (sorted : Wave V) : Config V S :=
  let hasData := sorted.any (·.isData)
  let hasResolved := sorted.any (·.isResolved)
  if hasData && hasResolved then
    c.panic "down: a wave cannot mix DATA and RESOLVED (tier-3 exclusivity, R-resolved-undirty / D49)"
  else
    let owed := (c.nodes n).aux.pullDirtyOwed
    let lead := if (hasData || hasResolved) && (!inside || owed) then [.emitDirtyOnce n] else []
    c.push (lead ++ [.deliveryScope n sorted, .downEnd n inside])

/-- Past the batch: a paused node holds back its settle slice. -/
def downUnbatched (inside : Bool) (sorted : Wave V) :
    Config V S :=
  let x := c.nodes n
  if x.shouldBufferOnPause then
    let buffered := sorted.filter (·.tier.isPauseBuffered)
    let rest := sorted.filter (!·.tier.isPauseBuffered)
    let c1 := if buffered.isEmpty then c else
      c.setNode n { x with
        wave := { x.wave with emittedTier3ThisWave := true }
        aux := { x.aux with pauseBuffer := x.aux.pauseBuffer ++ [buffered] } }
    if rest.isEmpty then c1 else c1.downEmit n inside rest
  else c.downEmit n inside sorted

/-- Emit a wave toward sinks. A terminated node emits nothing; inside an open
    batch the tiers from value up are held and only DIRTY goes out. -/
def down (msgs : Wave V) : Config V S :=
  let x := c.nodes n
  if x.value.terminal then c
  else
    let inside := x.wave.insideRunWave
    let c1 := c.waveRegister n
    let sorted := collapseInvalidate (sortByTier msgs)
    if !inside && c1.collectingBatch then
      let held := sorted.filter (·.tier.isBatchDeferred)
      let rest := sorted.filter (!·.tier.isBatchDeferred)
      if !held.isEmpty && x.live then
        (c1.deferToBatch n held).push [.emitDirtyOnce n, .batchDirtyOwed n]
      else if rest.isEmpty then c1
      else c1.downUnbatched n inside rest
    else c1.downUnbatched n inside sorted

/-- Enter a delivery scope: a fresh delivery id, one level deeper. -/
def deliveryScope (msgs : Wave V) : Config V S :=
  let prevId := c.currentDeliveryId
  ({ c with
    currentDeliveryId := c.nextDeliveryId
    nextDeliveryId := max 1 ((c.nextDeliveryId + 1) % 2 ^ 64)
    depth := c.depth + 1 } : Config V S).push [.downLoop n msgs, .deliveryGuard prevId]

/-- The per-message loop of an emission. -/
def downLoop (c : Config V S) (n : NodeId) : Wave V → Config V S
  | [] => c
  | m :: rest =>
    let r := (c.nodes n).collectDown m
    let c1 := c.setNode n r.1
    match r.2 with
    | .nothing => c1.push [.downLoop n rest]
    | .emit => c1.push [.emit n m r.1.aux.subscribers, .downLoop n rest]
    | .invalidate hooks =>
      c1.push (hooks.map (fun h => .user (.hook h) 0) ++
        [.emitToSubs n .invalidate, .downLoop n rest])

/-- Leave a delivery scope without draining, as an unwind does. -/
def leaveDelivery (c : Config V S) (prevId : Nat) : Config V S :=
  { c with currentDeliveryId := prevId, depth := c.depth - 1 }

/-- Leave a delivery scope; the outermost one drains what was deferred. -/
def deliveryGuard (c : Config V S) (prevId : Nat) : Config V S :=
  if c.depth = 1 then (c.leaveDelivery prevId).push [.drainDeferredRuns]
  else c.leaveDelivery prevId

/-- An outside emit ends its wave. -/
def downEnd (inside : Bool) : Config V S :=
  if inside then c
  else
    let x := c.nodes n
    c.setNode n { x with wave := { x.wave with
      emittedDirtyThisWave := false
      emittedTier3ThisWave := false } }

/-- The batch owes this node's DIRTY a settle. -/
def setBatchDirtyOwed (b : Bool) : Config V S :=
  let x := c.nodes n
  c.setNode n { x with wave := { x.wave with batchDirtyOwed := b } }

end

/-! ### Deferred runs -/

section

variable (c : Config V S)

/-- Take the deferred actions and apply them, runs before settles, until none
    is left. -/
def drainDeferredRuns (c : Config V S) : Config V S :=
  if c.deferred.isEmpty then c
  else
    let runs := c.deferred.filter (·.kind = .run)
    let settles := c.deferred.filter (·.kind = .absorbedSettle)
    ({ c with deferred := [] } : Config V S).push
      [.applyDeferred (runs ++ settles), .drainDeferredRuns]

/-- Apply deferred actions; a dead or terminated target is skipped. -/
def applyDeferred (c : Config V S) : List DeferredDeliveryAction → Config V S
  | [] => c
  | a :: rest =>
    let x := c.nodes a.target
    if x.live && !x.value.terminal then
      match a.kind with
      | .run => c.push [.maybeRun a.target, .applyDeferred rest]
      | .absorbedSettle => c.push [.settleAfterAbsorbedTerminal a.target, .applyDeferred rest]
    else c.push [.applyDeferred rest]

/-- Decide and run, or defer the decision to the end of the delivery. -/
def maybeRun (n : NodeId) : Config V S :=
  if c.deliveryInFlight then c.deferAction ⟨.run, n⟩
  else
    let r := (c.nodes n).decideMaybeRun
    let c1 := c.setNode n r.1
    match r.2 with
    | .skip => c1
    | .passthrough => c1.push [.passthroughEmit n]
    | .run => c1.push [.runWave n]

/-- Run unless a dep is pending or the first-run gate holds. -/
def tryRun (n : NodeId) : Config V S :=
  let x := c.nodes n
  if x.dep.pending > 0 then c
  else if x.handle.isNone then c.push [.passthroughEmit n]
  else if x.gateOpen then c.push [.runWave n]
  else c

/-- Single-dep wire: relay dep 0's latest DATA downstream. -/
def passthroughEmit (n : NodeId) : Config V S :=
  let x := c.nodes n
  let v := (x.dep.batch.getD 0 none).bind List.getLast?
  let d := { x.dep with
    prev := if v.isSome then x.dep.prev.set 0 v else x.dep.prev
    batch := x.dep.batch.set 0 none }
  let c1 := c.setNode n { x with dep := d.clearWaveProjection 0 }
  match v with
  | some v => c1.push [.down n [.data v]]
  | none => c1

/-- Run the fn: take the dep snapshot, blame the node, and hand over. A node
    whose fn is already on the stack is a feedback cycle. -/
def runWave (n : NodeId) : Config V S :=
  let c1 := c.waveRegister n
  let x := c1.nodes n
  if x.wave.insideRunWave then
    c1.panic
      "synchronous feedback cycle: node fn re-entered its own wave (R-reentrancy / D37)"
  else
    match x.handle with
    | none => c1.panic "run_wave ⇒ handle present"
    | some (f, _) =>
      let ctx : Ctx V := ⟨n, x.depRecords, x.aux.activePull⟩
      (((c1.setNode n x.runStarted).waveSetBlamed n).record
        (.ran n ctx x.aux.pauseLockset)).push
        [.user (.fn f ctx) 0, .waveGuard n, .runUndirty n x.isAsync]

/-- The run is over: the guard clears the re-entrancy flag. -/
def waveGuard (n : NodeId) : Config V S :=
  let x := c.nodes n
  if x.live then c.setNode n { x with wave := { x.wave with insideRunWave := false } } else c

/-- A run that was announced by DIRTY but settled nothing owes one RESOLVED. -/
def runUndirty (n : NodeId) (isAsync : Bool) : Config V S :=
  let x := c.nodes n
  let undirty := x.wave.emittedDirtyThisWave && !x.wave.emittedTier3ThisWave &&
    !x.value.terminal && !isAsync
  if undirty then c.push [.down n [.resolved], .runRoll n true] else c.push [.runRoll n false]

/-- Roll the wave-local dep state forward. -/
def runRoll (n : NodeId) (undirty : Bool) : Config V S :=
  let x := c.nodes n
  c.setNode n
    (x.runRolled (undirty && (x.wave.batchDirtyOwed || x.wave.emittedTier3ThisWave)))

/-- Settle a node whose dirtied dep was released by an absorbed terminal. -/
def settleAfterAbsorbedTerminal (n : NodeId) : Config V S :=
  if c.deliveryInFlight then c.deferAction ⟨.absorbedSettle, n⟩
  else
    let x := c.nodes n
    if x.dep.pending = 0 ∧ x.wave.emittedDirtyThisWave then
      if x.dep.sawData then c.push [.maybeRun n, .settleOwed n] else c.push [.settleOwed n]
    else c

/-- Balance a DIRTY that is still owed with one undirty RESOLVED. -/
def settleOwed (n : NodeId) : Config V S :=
  if (c.nodes n).wave.emittedDirtyThisWave then c.push [.down n [.resolved]] else c

/-- After an invalidation settled this node's DIRTY. -/
def clearUndirty (n : NodeId) (hadData : Bool) : Config V S :=
  if hadData then c.setEmittedDirty n false else c.push [.down n [.resolved]]

end

/-- Clear the cache, flush the hooks, broadcast INVALIDATE; nothing when
    nothing is cached. -/
def invalidate (c : Config V S) (n : NodeId) : Config V S :=
  let x := c.nodes n
  if x.value.hasData then
    (c.setNode n x.invalidated).push
      (x.aux.onInvalidate.map (fun h => .user (.hook h) 0) ++ [.emitToSubs n .invalidate])
  else c

end Config

end GraphRefly
