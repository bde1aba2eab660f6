import GraphRefly.Core.Protocol

/-!
# Node Slots

The state the arena keeps for one node, grouped as the source groups it: the
value the node holds, the transient wave flags, the per-dep bookkeeping with
its parallel arrays, the options fixed at construction, and the sidecars
(subscribers, pause lockset, pull demand).

A node is named by a serial number that is never reused. The source recycles
slots but tags every key with a generation, so a stale key never matches the
slot's next occupant; a fresh number per allocation is the same thing.

The parallel arrays are lists. Reading past the end yields the value the array
is initialised with and writing past the end does nothing, where the source
would panic. A dep callback, whose index box may be stale, checks its index
first; the other operations only use indices of the dep list.

## Main definitions

* `Status`, `Pausable`, `PoolKind`: The enumerations of the node surface.
* `DepState`: Per-dependency wave bookkeeping, with its recording methods.
* `NodeWaveState`, `NodeValueState`, `NodeConfig`, `NodeAux`: Slot groups.
* `Node`: One node slot.
* `Node.allDepsSettled`, `Node.isPaused`, `Node.pullQuiet`: Node predicates.
* `DepState.rewired`: The arrays rebuilt for a new dep list.
-/

namespace GraphRefly

/-- The serial number of a node in the arena. -/
abbrev NodeId := Nat

/-- The dispatcher handle of a registered node fn. -/
abbrev FnId := Nat

/-- An external subscriber sink. -/
abbrev SinkId := Nat

/-- A cleanup hook registered by a node fn. -/
abbrev HookId := Nat

/-- The shared index cell a dep callback reads its position from. -/
abbrev BoxId := Nat

/-- Node lifecycle status. -/
inductive Status
  | sentinel
  | pending
  | dirty
  | settled
  | resolved
  | completed
  | errored
  deriving DecidableEq

/-- PAUSE/RESUME backpressure mode. -/
inductive Pausable
  | true
  | resumeAll
  | false
  deriving DecidableEq

/-- Pool kind label. -/
inductive PoolKind
  | sync
  | async
  deriving DecidableEq

/-- A dep's terminal state, as the fn reads it. -/
inductive DepTerminal
  | complete
  | error (msg : String)
  deriving DecidableEq

/-- One raw ctx wave-data projection item. -/
inductive WaveData (V : Type)
  | data (v : V)
  | sentinel
  deriving DecidableEq

/-- Whether a projection item carries a value. -/
def WaveData.isData {V : Type} : WaveData V → Bool
  | .data _ => true
  | .sentinel => false

/-- Per-dependency snapshot handed to a fn invocation. -/
structure DepRecord (V : Type) where
  waveData : List (List (WaveData V))
  prevData : Option V
  latest : Option V
  terminal : Option DepTerminal
  deriving DecidableEq

/-- Per-dependency wave bookkeeping for one node slot. -/
structure DepState (V : Type) where
  batch : List (Option (List V))
  batchWaves : List (List (List (WaveData V)))
  batchWaveId : List (Option Nat)
  prev : List (Option V)
  hasData : List Bool
  dirty : List Bool
  tier : List Nat
  pending : Int
  terminal : List (Option DepTerminal)
  terminalWave : List (Option DepTerminal)

namespace DepState

variable {V : Type}

/-- Fresh bookkeeping for `n` deps. -/
def new (n : Nat) : DepState V where
  batch := List.replicate n none
  batchWaves := List.replicate n []
  batchWaveId := List.replicate n none
  prev := List.replicate n none
  hasData := List.replicate n false
  dirty := List.replicate n false
  tier := List.replicate n 0
  pending := 0
  terminal := List.replicate n none
  terminalWave := List.replicate n none

section

variable (d : DepState V)

/-- Every dep has delivered, or its terminal counts as an input. -/
def allSettled (terminalAsRealInput : Bool) : Bool :=
  (List.range d.hasData.length).all fun i =>
    d.hasData.getD i false || (terminalAsRealInput && (d.terminal.getD i none).isSome)

/-- Append to the current delivery's projection of dep `i`, opening a new one
    when the delivery changed. -/
def recordInWave (deliveryId i : Nat) (items : List (WaveData V)) :
    DepState V :=
  let waves := d.batchWaves.getD i []
  if d.batchWaveId.getD i none = some deliveryId then
    { d with
      batchWaves := d.batchWaves.set i (waves.dropLast ++ [waves.getLastD [] ++ items]) }
  else
    { d with
      batchWaves := d.batchWaves.set i (waves ++ [items])
      batchWaveId := d.batchWaveId.set i (some deliveryId) }

/-- Record a DATA payload in the wave projection. -/
def recordWaveData (deliveryId i : Nat) (v : V) : DepState V :=
  d.recordInWave deliveryId i [.data v]

/-- Record an INVALIDATE marker in the wave projection. -/
def recordWaveSentinel (deliveryId i : Nat) : DepState V :=
  d.recordInWave deliveryId i [.sentinel]

/-- Open a wave projection without a payload. -/
def recordResolvedWave (deliveryId i : Nat) : DepState V :=
  d.recordInWave deliveryId i []

/-- Some recorded projection is a RESOLVED wave or carries DATA. -/
def hasRunTriggeringProjection : Bool :=
  d.batchWaves.any fun depWaves => depWaves.any fun wave => wave.isEmpty || wave.any (·.isData)

/-- Forget the wave projection of dep `i`. -/
def clearWaveProjection (i : Nat) : DepState V :=
  { d with batchWaves := d.batchWaves.set i [], batchWaveId := d.batchWaveId.set i none }

/-- Release dep `i`'s dirty contribution, if it has one. -/
def undirty (i : Nat) : DepState V :=
  if d.dirty.getD i false then
    { d with dirty := d.dirty.set i false, pending := d.pending - 1 }
  else d

/-- The latest DATA of dep `i`: the last of this wave's batch, else the last
    committed value. -/
def latest (i : Nat) : Option V :=
  ((d.batch.getD i none).bind List.getLast?).or (d.prev.getD i none)

/-- Some dep delivered DATA this wave. -/
def sawData : Bool :=
  d.batch.any fun b => match b with
    | some vs => !vs.isEmpty
    | none => false

/-- The snapshot of dep `i` a fn invocation sees. -/
def record (i : Nat) : DepRecord V where
  waveData := d.batchWaves.getD i []
  prevData := d.prev.getD i none
  latest := d.latest i
  terminal := d.terminalWave.getD i none

/-- The bookkeeping once a fn invocation has taken its snapshot: projections
    and wave terminals are moved out for the first `n` deps. -/
def taken (n : Nat) : DepState V :=
  { d with
    batchWaves := d.batchWaves.mapIdx fun i w => if i < n then [] else w
    batchWaveId := d.batchWaveId.mapIdx fun i w => if i < n then none else w
    terminalWave := d.terminalWave.mapIdx fun i t => if i < n then none else t }

/-- Roll the wave forward: the batch's last value becomes the committed one. -/
def rolled : DepState V :=
  { d with
    prev := d.prev.mapIdx fun i p => ((d.batch.getD i none).bind List.getLast?).or p
    batch := d.batch.map fun _ => none }

/-- The wave-transient part cleared for the first `n` deps, as the aborted
    wave recovery does it. Terminals are a persisted fact and stay. -/
def resetWave (n : Nat) : DepState V :=
  { d with
    pending := 0
    batch := d.batch.mapIdx fun i b => if i < n then none else b
    batchWaves := d.batchWaves.mapIdx fun i w => if i < n then [] else w
    batchWaveId := d.batchWaveId.mapIdx fun i w => if i < n then none else w
    terminalWave := d.terminalWave.mapIdx fun i t => if i < n then none else t
    dirty := d.dirty.mapIdx fun i b => if i < n then false else b }

/-- Everything but the array lengths cleared for the first `n` deps, as
    deactivation does it. -/
def wiped (n : Nat) : DepState V where
  batch := d.batch.mapIdx fun i b => if i < n then none else b
  batchWaves := d.batchWaves.mapIdx fun i w => if i < n then [] else w
  batchWaveId := d.batchWaveId.mapIdx fun i w => if i < n then none else w
  prev := d.prev.mapIdx fun i p => if i < n then none else p
  hasData := d.hasData.mapIdx fun i b => if i < n then false else b
  dirty := d.dirty.mapIdx fun i b => if i < n then false else b
  tier := d.tier.mapIdx fun i t => if i < n then 0 else t
  pending := 0
  terminal := d.terminal.mapIdx fun i t => if i < n then none else t
  terminalWave := d.terminalWave.mapIdx fun i t => if i < n then none else t

/-- The arrays rebuilt for a new dep list: position `j` carries the record of
    the old position `newToOld j`, or starts fresh. -/
def rewired (newToOld : List (Option Nat)) : DepState V where
  batch := newToOld.map fun o => o.elim none fun i => d.batch.getD i none
  batchWaves := newToOld.map fun o => o.elim [] fun i => d.batchWaves.getD i []
  batchWaveId := newToOld.map fun o => o.elim none fun i => d.batchWaveId.getD i none
  prev := newToOld.map fun o => o.elim none fun i => d.prev.getD i none
  hasData := newToOld.map fun o => o.elim false fun i => d.hasData.getD i false
  dirty := newToOld.map fun o => o.elim false fun i => d.dirty.getD i false
  tier := newToOld.map fun o => o.elim 0 fun i => d.tier.getD i 0
  pending := d.pending
  terminal := newToOld.map fun o => o.elim none fun i => d.terminal.getD i none
  terminalWave := newToOld.map fun o => o.elim none fun i => d.terminalWave.getD i none

end

end DepState

/-- Per-node transient wave and mutation flags. -/
structure NodeWaveState where
  emittedDirtyThisWave : Bool := false
  emittedTier3ThisWave : Bool := false
  insideRunWave : Bool := false
  inDepMutation : Bool := false
  rewireRunPending : Bool := false
  batchDirtyOwed : Bool := false
  deriving DecidableEq

/-- The value a node holds. -/
structure NodeValueState (V : Type) where
  cache : Option V := none
  hasData : Bool := false
  status : Status := .sentinel
  terminal : Bool := false
  deriving DecidableEq

/-- Construction-time configuration. -/
structure NodeConfig where
  pausable : Pausable := .true
  isPartial : Bool := false
  pullId : Option LockId := none
  completeWhenDepsComplete : Bool := true
  errorWhenDepsError : Bool := true
  terminalAsRealInput : Bool := false
  deriving DecidableEq

/-- Where a subscription delivers: to an external sink, or to the dep callback
    of a consumer node, which finds its position through an index box. -/
inductive Sink
  | external (s : SinkId)
  | dep (consumer : NodeId) (box : BoxId)
  deriving DecidableEq

/-- One entry of a node's subscriber list. -/
structure SubscriberEntry where
  id : Nat
  sink : Sink
  deriving DecidableEq

/-- Node-local sidecars that are not per-dep wave bookkeeping. -/
structure NodeAux (V S : Type) where
  subscribers : List SubscriberEntry := []
  nextSubId : Nat := 0
  activated : Bool := false
  state : Option S := none
  statePersist : Bool := false
  onDeactivation : List HookId := []
  onInvalidate : List HookId := []
  pullDemandOwed : Option (PullDemand V) := none
  activePull : Option (PullDemand V) := none
  inDeliverDemand : Bool := false
  pullDirtyOwed : Bool := false
  pauseLockset : List LockId := []
  pausedDepWaveOccurred : Bool := false
  pauseBuffer : List (Wave V) := []

/-- One node slot. The dispatcher handle is a fn with its pool; an
    unsubscriber is the dep it detaches from and the subscription's id. -/
structure Node (V S : Type) where
  live : Bool := false
  deps : List NodeId := []
  topologyObserver : Option HookId := none
  handle : Option (FnId × PoolKind) := none
  config : NodeConfig := {}
  hasCalledFnOnce : Bool := false
  value : NodeValueState V := {}
  wave : NodeWaveState := {}
  dep : DepState V := DepState.new 0
  unsubs : List (Option (NodeId × Nat)) := []
  idxBoxes : List (Option BoxId) := []
  restoredHandshake : List Bool := []
  aux : NodeAux V S := {}

namespace Node

variable {V S : Type}

section

variable (x : Node V S)

/-- Every dep has settled, under the node's terminal policy. -/
def allDepsSettled : Bool :=
  x.dep.allSettled x.config.terminalAsRealInput

/-- Paused iff the lockset is non-empty. -/
def isPaused : Bool :=
  !x.aux.pauseLockset.isEmpty

/-- A pull node that is not serving a demand. -/
def pullQuiet : Bool :=
  x.config.pullId.isSome && x.aux.activePull.isNone

/-- The node's fn runs on the async pool. -/
def isAsync : Bool :=
  match x.handle with
  | some (_, .async) => true
  | _ => false

/-- The first-run gate is open: the fn ran before, the node is partial, or
    every dep has settled. -/
def gateOpen : Bool :=
  x.hasCalledFnOnce || x.config.isPartial || x.allDepsSettled

end

end Node

end GraphRefly
