import GraphRefly.Core.Machine

/-!
# Restoring a Node's Runtime

A checkpoint restores a node in place: the value, the fn flag and the ctx state
are overwritten, the wave and pull state starts over, and a node that was active
subscribes to its deps again. The per-dep arrays are sized by the list of
unsubscribers, not by the dep list.

## Main definitions

* `NodeRestoreRuntime`: What a checkpoint holds of a node.
* `Node.restored`: The slot of a restored node.
* `Config.restoreRuntime`: The restore, as user code calls it.
* `Config.RuntimeStep`: A step of the machine, or a restore.
-/

namespace GraphRefly

variable {V S : Type}

/-- What a checkpoint holds of a node. -/
structure NodeRestoreRuntime (V S : Type) where
  cache : Option V
  hasData : Bool
  status : Status
  terminal : Bool
  activated : Bool
  hasCalledFnOnce : Bool
  ctxState : Option S
  ctxStatePersist : Bool

/-- The slot of a restored node. -/
def Node.restored (x : Node V S) (r : NodeRestoreRuntime V S) : Node V S :=
  { x with
    value := { cache := r.cache, hasData := r.hasData, status := r.status, terminal := r.terminal }
    wave := {}
    dep := DepState.new x.unsubs.length
    restoredHandshake := List.replicate x.unsubs.length (r.hasData || r.hasCalledFnOnce)
    hasCalledFnOnce := r.hasCalledFnOnce
    aux := { x.aux with
      activated := r.activated
      state := r.ctxState
      statePersist := r.ctxStatePersist
      onDeactivation := []
      onInvalidate := []
      pullDemandOwed := none
      activePull := none
      inDeliverDemand := false
      pullDirtyOwed := false
      pauseLockset := []
      pausedDepWaveOccurred := false
      pauseBuffer := [] } }

namespace Config

/-- Restore a node; one that was active subscribes to its deps again. -/
def restoreRuntime (c : Config V S) (n : NodeId) (r : NodeRestoreRuntime V S) : Config V S :=
  (c.setNode n ((c.nodes n).restored r)).push
    (if r.activated then (c.nodes n).deps.mapIdx (fun i d => .subscribeDep n i d) else [])

/-- User code is about to act. -/
def Calling (c : Config V S) : Prop :=
  c.mode = .running ∧ ∃ cb i rest, c.stack = .user cb i :: rest

/-- A step of the machine, or user code restores a node. -/
inductive RuntimeStep (c c' : Config V S) : Prop
  | step (h : Step c c')
  | restore (n : NodeId) (r : NodeRestoreRuntime V S) (hcall : c.Calling)
      (hlive : (c.nodes n).live = true) (h : c' = c.restoreRuntime n r)

end Config

end GraphRefly
