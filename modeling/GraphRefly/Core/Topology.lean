import GraphRefly.Core.Emission

/-!
# Subscription, Activation and Rewiring

The lifecycle of nodes and edges. A first subscriber activates a node, which
subscribes it to its deps in order; the last unsubscribe deactivates it. A
rewire swaps the fn, drains the removed deps, rebuilds the per-dep arrays and
subscribes the added deps, all under one mutation flag, and ends in at most one
atomic settle.

The source has a fast path for a full replacement of the same arity. It does
what the general path does when no dep is kept, so only the general path is
here.

## Main definitions

* `handshake`, `subscribe`, `activateIfNeeded`, `subscribeDep`, `depSubscribed`: Attaching.
* `unsubscribe`, `deactivate`: Detaching.
* `freshNode`, `newNode`, `dropNode`: Allocation and release.
* `rewireReject`, `rewireInner`: The checks of a rewire.
* `newToOld`, `removedIdxs`: Matching the new deps against the old ones.
* `rewireApply`, `rewireRemove`, `rewireAssign`, `rewireFinish`: The mutation.
* `settleRewire`: The atomic settle.
-/

namespace GraphRefly

variable {V S : Type}

namespace Config

/-! ### Attaching and detaching -/

/-- What a new subscription is told of the node's state. -/
def handshake (x : Node V S) (n : NodeId) (entry : SubscriberEntry) : List (Frame V) :=
  if x.config.pullId.isSome then []
  else match x.value.hasData, x.value.cache with
    | true, some v => [.emit n (.data v) [entry]]
    | _, _ => if x.value.status = .dirty then [.emit n .dirty [entry]] else []

section

variable (c : Config V S) (n : NodeId)

/-- Register a sink, push START and the cached state, and activate on the
    first subscriber. -/
def subscribe (sink : Sink) : Config V S :=
  let x := c.nodes n
  if x.live then
    let entry : SubscriberEntry := ⟨x.aux.nextSubId, sink⟩
    (c.setNode n { x with aux := { x.aux with
      nextSubId := x.aux.nextSubId + 1
      subscribers := x.aux.subscribers ++ [entry] } }).push
      ([.emit n .start [entry]] ++ handshake x n entry ++ [.activateIfNeeded n])
  else c.panic "Core points at a stale or freed GraphCore slot"

/-- Activate: subscribe to every dep in order, then run a depless producer. -/
def activateIfNeeded : Config V S :=
  let x := c.nodes n
  if x.aux.activated then c
  else
    (c.setNode n { x with
      aux := { x.aux with activated := true }
      unsubs := List.replicate x.deps.length none
      idxBoxes := List.replicate x.deps.length none }).push
      (x.deps.mapIdx (fun i d => .subscribeDep n i d) ++ [.activateRun n])

/-- A depless producer runs once on activation. -/
def activateRun : Config V S :=
  let x := c.nodes n
  if x.deps.isEmpty && x.handle.isSome && !x.hasCalledFnOnce then c.push [.runWave n] else c

/-- Subscribe to one dep through a fresh index box. -/
def subscribeDep (idx : Nat) (dep : NodeId) : Config V S :=
  let box := c.nextBox
  let id := (c.nodes dep).aux.nextSubId
  ({ c with
    boxes := Function.update c.boxes box (some idx)
    nextBox := box + 1 } : Config V S).push
    [.subscribe dep (.dep n box), .depSubscribed n idx dep id box]

/-- The dep is subscribed: keep its unsubscriber and index box. -/
def depSubscribed (idx : Nat) (dep : NodeId) (id : Nat) (box : BoxId) : Config V S :=
  let x := c.nodes n
  if idx < x.unsubs.length ∧ idx < x.idxBoxes.length ∧ idx < x.restoredHandshake.length then
    c.setNode n { x with
      unsubs := x.unsubs.set idx (some (dep, id))
      idxBoxes := x.idxBoxes.set idx (some box)
      restoredHandshake := x.restoredHandshake.set idx false }
  else c.panic "index out of bounds"

/-- Detach a subscription; the last one deactivates the node. -/
def unsubscribe (id : Nat) : Config V S :=
  let x := c.nodes n
  if x.live then
    let kept := x.aux.subscribers.filter (·.id ≠ id)
    let c1 := c.setNode n { x with aux := { x.aux with subscribers := kept } }
    if kept.length < x.aux.subscribers.length ∧ kept.isEmpty then c1.push [.deactivate n]
    else c1
  else c

/-- The unsubscribe calls of the deps still attached. -/
def unsubFrames (x : Node V S) : List (Frame V) :=
  x.unsubs.filterMap fun u => u.map fun u => .unsubscribe u.1 u.2

/-- Run a list of cleanup hooks. -/
def hookFrames (hooks : List HookId) : List (Frame V) :=
  hooks.map fun h => .user (.hook h) 0

/-- Deactivate: reset the slot, then detach from the deps and fire the
    hooks. -/
def deactivate : Config V S :=
  let x := c.nodes n
  ((c.setNode n x.deactivated).record (.deactivated n)).push
    (unsubFrames x ++ hookFrames x.aux.onDeactivation)

/-- The slot of a new node. Only the fn-bearing constructors configure pull
    mode. -/
def freshNode (spec : NodeSpec V) : Node V S where
  live := true
  deps := spec.deps
  handle := spec.handle
  config := { spec.config with
    pullId := if spec.handle.isSome then spec.config.pullId else none }
  value := match spec.initial with
    | some v => { cache := some v, hasData := true, status := .settled }
    | none => {}
  dep := DepState.new spec.deps.length
  unsubs := List.replicate spec.deps.length none
  idxBoxes := List.replicate spec.deps.length none
  restoredHandshake := List.replicate spec.deps.length false

/-- Construct a node over live deps, which only the fn-bearing constructors
    take. -/
def newNode (c : Config V S) (spec : NodeSpec V) : Config V S :=
  if spec.handle.isSome && spec.config.pullId.isSome && spec.config.pausable == .false then
    c.panic "pullId + pausable:false is invalid (R-pull / R-pause-modes)"
  else if spec.deps.all c.isLive && (spec.handle.isSome || spec.deps.isEmpty) then
    { c.setNode c.size (freshNode spec) with size := c.size + 1 }
  else c

/-- No handle keeps the slot: it is nobody's dep, took part in no wave or
    batch in flight, and neither a queued request nor a frame holds it. -/
def unreferenced (onStack : Bool) : Bool :=
  (List.range c.size).all (fun m => !(c.nodes m).live || !((c.nodes m).deps.contains n)) &&
    (match c.wave with
      | some w => !w.touched.contains n
      | none => true) &&
    (match c.batch with
      | some b => !b.deferred.any (·.1 == n)
      | none => true) &&
    !(c.boundary.any fun t => t.kind.handles.contains n) &&
    !onStack

/-- Release a slot nobody references: detach from its deps and fire the
    hooks. -/
def dropNode (onStack : Bool) : Config V S :=
  let x := c.nodes n
  if x.live && c.unreferenced n onStack then
    (c.setNode n { x with live := false, unsubs := [], aux :=
      { x.aux with onDeactivation := [] } }).push
      (unsubFrames x ++ hookFrames x.aux.onDeactivation)
  else c

end

/-! ### Rewiring -/

section

variable (c : Config V S) (n : NodeId)

/-- The open batch holds an uncommitted slice of this target. -/
def committedAfterBatch : Option Nat :=
  match c.batch with
  | some b => if b.collecting && b.deferred.any (·.1 == n) then some b.id else none
  | none => none

/-- The first reason to reject a rewire, if any. -/
def rewireReject (newDeps : List NodeId) (allowTerminalOwner : Bool) : Option String :=
  let x := c.nodes n
  if !allowTerminalOwner && x.value.terminal then
    some "rewire: node is terminal (completed/errored) — cannot rewire (R-rewire / D42)"
  else if x.wave.insideRunWave then
    some ("rewire: mid-fn topology mutation — a fn mutating its own deps mid-wave is the " ++
      "feedback cycle (R-rewire / D37)")
  else if x.wave.inDepMutation then
    some ("rewire: reentrant dep mutation — another replace_deps/subscribe_dep/" ++
      "unsubscribe_dep is in flight (R-rewire)")
  else if n ∈ newDeps then some "rewire: self-dependency rejected (R-rewire / D42)"
  else (newDeps.filter (· ∉ x.deps)).findSome? fun d =>
    if c.reachableUpstream d n then
      some ("rewire: would create a cycle — dep already transitively depends on this node " ++
        "(R-rewire / D42)")
    else if (c.nodes d).value.terminal then
      some ("rewire: cannot add a non-resubscribable terminal dep — would wedge " ++
        "(R-rewire / D42)")
    else none

/-- The checks of a rewire, then the mutation as a wave of its own. -/
def rewireInner (newDeps : List NodeId) (f : FnId) (allowTerminalOwner : Bool) : Config V S :=
  let deps := dedupCores newDeps
  match if allowTerminalOwner then none else c.committedAfterBatch n with
  | some b => c.deferBoundary n (.externalRewire (.set deps f)) (some b)
  | none =>
    match c.rewireReject n deps allowTerminalOwner with
    | some msg => c.panic msg
    | none => c.withWaveOwner n [.rewireApply n deps f]

/-- A rewire from outside: held back while the open batch has a slice of the
    target. -/
def externalRewire (c : Config V S) (n : NodeId) (req : RewireRequest) : Config V S :=
  match c.committedAfterBatch n with
  | some b => c.deferBoundary n (.externalRewire req) (some b)
  | none => c.push [.rewireInner n (req.projectDeps (c.nodes n).deps) req.newFn false]

/-- For each new position, the old position whose record it keeps: the first
    one of the same dep. -/
def newToOld (oldDeps newDeps : List NodeId) : List (Option Nat) :=
  newDeps.map fun d => oldDeps.findIdx? (· == d)

/-- The old positions no new position keeps. -/
def removedIdxs (oldDeps newDeps : List NodeId) : List Nat :=
  (List.range oldDeps.length).filter fun i => some i ∉ newToOld oldDeps newDeps

/-- The added deps with their new positions. -/
def addedDeps (oldDeps newDeps : List NodeId) : List (Nat × NodeId) :=
  (newDeps.mapIdx fun j d => (j, d)).filter fun p => p.2 ∉ oldDeps

/-- Swap the fn, keeping the pool. -/
def swapFnPreservingPool (x : Node V S) (f : FnId) : Node V S :=
  { x with handle := some (f, match x.handle with
    | some (_, pool) => pool
    | none => .sync) }

/-- Enter the mutation. With unchanged deps only the fn is swapped. -/
def rewireApply (newDeps : List NodeId) (f : FnId) :
    Config V S :=
  let x := c.nodes n
  let x1 := swapFnPreservingPool x f
  if x.deps = newDeps then
    c.setNode n { x1 with wave := { x1.wave with
      inDepMutation := false
      rewireRunPending := false } }
  else
    (c.setNode n { x1 with wave := { x1.wave with
      inDepMutation := true
      rewireRunPending := false } }).push
      [.rewireRemove n x.deps newDeps x.aux.activated (removedIdxs x.deps newDeps) false,
        .depMutationGuard n]

/-- Drain one removed dep: drop its dirty contribution, detach its box, and
    unsubscribe the edge. -/
def rewireRemove (c : Config V S) (n : NodeId) (oldDeps newDeps : List NodeId)
    (activated : Bool) (removed : List Nat) (removedDirty : Bool) : Config V S :=
  match removed with
  | [] => c.push [.rewireAssign n oldDeps newDeps activated removedDirty]
  | i :: rest =>
    let x := c.nodes n
    let wasDirty := x.dep.dirty.getD i false
    let boxes := match x.idxBoxes.getD i none with
      | some b => Function.update c.boxes b none
      | none => c.boxes
    let detach : List (Frame V) := match x.unsubs.getD i none with
      | some u => [.unsubscribe u.1 u.2]
      | none => []
    let c1 := c.setNode n { x with
      dep := if wasDirty then { x.dep with pending := x.dep.pending - 1 } else x.dep
      unsubs := x.unsubs.set i none }
    ({ c1 with boxes := boxes } : Config V S).push
      (detach ++ [.rewireRemove n oldDeps newDeps activated rest (removedDirty || wasDirty)])

/-- Move the index boxes of kept deps to their new positions. -/
def rerouteBoxes (boxes : BoxId → Option Nat) (idxBoxes : List (Option BoxId)) :
    List (Nat × Option Nat) → BoxId → Option Nat
  | [] => boxes
  | (j, o) :: rest =>
    match o.bind (fun i => idxBoxes.getD i none) with
    | some b => rerouteBoxes (Function.update boxes b (some j)) idxBoxes rest
    | none => rerouteBoxes boxes idxBoxes rest

/-- Rebuild the per-dep arrays in the new order and subscribe the added
    deps. -/
def rewireAssign (oldDeps newDeps : List NodeId) (activated removedDirty : Bool) : Config V S :=
  let x := c.nodes n
  let kept := newToOld oldDeps newDeps
  let c1 := c.setNode n { x with
    deps := newDeps
    dep := x.dep.rewired kept
    unsubs := kept.map fun o => o.elim none fun i => x.unsubs.getD i none
    idxBoxes := kept.map fun o => o.elim none fun i => x.idxBoxes.getD i none
    restoredHandshake := List.replicate newDeps.length false }
  let added : List (Frame V) := if activated then
    (addedDeps oldDeps newDeps).map (fun p => .subscribeDep n p.1 p.2) else []
  ({ c1 with boxes :=
      rerouteBoxes c.boxes x.idxBoxes (kept.mapIdx fun j o => (j, o)) } : Config V S).push
    (added ++ [.notifyTopology n oldDeps newDeps, .rewireFinish n newDeps removedDirty])

/-- Tell the graph layer that the deps changed. -/
def notifyTopology (oldDeps newDeps : List NodeId) :
    Config V S :=
  match (c.nodes n).topologyObserver with
  | some h => c.push [.user (.observer h oldDeps newDeps) 0]
  | none => c

/-- Leave the mutation: a terminal owner settles nothing; otherwise settle if
    an added dep delivered or the sole dirty dep was removed. -/
def rewireFinish (newDeps : List NodeId) (removedDirty : Bool) :
    Config V S :=
  let x := c.nodes n
  if x.value.terminal then c
  else
    let settle := removedDirty && x.dep.pending == 0 && x.value.status == .dirty
    let runPending := x.wave.rewireRunPending || (settle && !newDeps.isEmpty)
    let x1 := { x with wave := { x.wave with
      inDepMutation := false
      rewireRunPending := false } }
    if runPending then (c.setNode n x1).push [.settleRewire n]
    else if settle && newDeps.isEmpty then
      if x1.wave.emittedDirtyThisWave then (c.setNode n x1).push [.down n [.resolved]]
      else c.setNode n { x1 with value := { x1.value with
        status := if x1.value.hasData then .settled else .sentinel } }
    else c.setNode n x1

/-- The mutation flag is cleared on every exit. -/
def depMutationGuard : Config V S :=
  let x := c.nodes n
  if x.live then c.setNode n { x with wave := { x.wave with inDepMutation := false } } else c

/-- The atomic settle of a rewire: the injected DIRTY, then the run. -/
def settleRewire : Config V S :=
  let x := c.nodes n
  if x.config.pausable = .true ∧ x.isPaused then
    c.setNode n { x with aux := { x.aux with pausedDepWaveOccurred := true } }
  else if x.dep.pending > 0 then c
  else if x.handle.isNone then c.push [.passthroughEmit n]
  else if x.gateOpen then c.push [.markDirty n, .runWave n]
  else c

end

end Config

end GraphRefly
