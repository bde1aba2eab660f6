import GraphRefly.Bridge.Endpoint
import GraphRefly.Bridge.Protobuf
import GraphRefly.Lib.SortedMap
import Mathlib.Data.Finset.Card
import Mathlib.Data.String.Basic

/-!
# Wire Edge Groups

A group of edges crosses a bridge together. The outbound side waits until it holds a
value of every edge and then sends one cohort under one cause: a DIRTY frame of every
edge, then a DATA frame of every edge. The gate of the inbound side collects the
frames of one cause at a time and releases its values once all are there.

The gate is given whatever arrives at the bridge. It has its own idea of what a
duplicate is, and it fails a whole cause when it meets one: a cause that failed or was
released is remembered for a while and nothing more is taken for it.

## Main definitions

* `wireEdgeGroupEvents`: What the outbound side makes of new values.
* `wireEdgeGroupFrameEvent`: What the inbound side makes of what arrives.
* `WireEdgeGroupGateState`, `gateEvent`: The gate.
-/

namespace GraphRefly.Bridge

open GraphRefly.Lib

inductive WireBridgeProtobufDataBody
  | value (value : Bytes)
  | wireEdge (frame : CanonicalWireEdgeFrame)
  deriving DecidableEq

inductive WireEdgeGroupIssueCode
  | missingSnapshot
  | unknownEdge
  | duplicateDirty
  | duplicateData
  | dataBeforeDirty
  | competingCause
  | malformedFrame
  | incompleteCause
  deriving DecidableEq

structure WireEdgeGroupIssue where
  code : WireEdgeGroupIssueCode
  message : String
  edgeId : Option String
  causeId : Option String
  activeCauseId : Option String
  deriving DecidableEq

inductive WireEdgeGroupEvent
  | outbound (command : WireBridgeCommand WireBridgeProtobufDataBody)
  | frame (frame : CanonicalWireEdgeFrame)
  | issue (issue : WireEdgeGroupIssue)
  | bridgeEnd
  deriving DecidableEq

inductive WireEdgeGroupGate
  | issue (issue : WireEdgeGroupIssue)
  | progress (causeId : String) (dirty data : Nat)
  | release (causeId : String) (count : Nat)
  deriving DecidableEq

structure WireEdgeGroupReleaseCohort where
  causeId : String
  values : SortedMap String Bytes

/-! ### The outbound side -/

section Outbound

variable {V : Type} [DecidableEq V]

/-- A value that waits for the rest of its cohort, with the version of its node. -/
structure WireEdgeGroupPendingOutbound (V : Type) where
  value : Bytes
  version : Option V

structure WireEdgeGroupOutState (V : Type) where
  nextCause : Nat
  emittedOnce : Bool
  pending : SortedMap String (WireEdgeGroupPendingOutbound V)
  lastEmittedVersions : SortedMap String (Option V)

def WireEdgeGroupOutState.initial (V : Type) : WireEdgeGroupOutState V where
  nextCause := 1
  emittedOnce := false
  pending := .empty
  lastEmittedVersions := .empty

/-- An item of a wave: bytes, a value of another type, or the sentinel. -/
inductive EdgeItem
  | bytes (value : Bytes)
  | foreign
  | sentinel

/-- What one outbound edge brings in a run: its items and the version its node has. -/
structure EdgeBatch (V : Type) where
  edgeId : String
  version : Option V
  items : List EdgeItem

def shouldAdmitOutboundData (state : WireEdgeGroupOutState V) (edgeId : String)
    (version : Option V) : Bool :=
  if state.emittedOnce = false then true
  else if version = none then false
  else if (state.pending.lookup edgeId).any fun pending => pending.version = version then false
  else (state.lastEmittedVersions.lookup edgeId).all fun last => last ≠ version

/-- The state, whether there is something to send, and the events so far. -/
abbrev OutboundLoop (V : Type) := WireEdgeGroupOutState V × Bool × List WireEdgeGroupEvent

def outboundItem (name : String) (batch : EdgeBatch V) (acc : OutboundLoop V)
    (item : EdgeItem) : OutboundLoop V :=
  let (state, triggered, events) := acc
  match item with
  | .bytes value =>
    if shouldAdmitOutboundData state batch.edgeId batch.version then
      ({ state with pending := state.pending.insert batch.edgeId ⟨value, batch.version⟩ },
        true, events)
    else acc
  | .foreign =>
    ({ state with pending := state.pending.erase batch.edgeId }, triggered,
      events ++ [.issue
        { code := .malformedFrame
          message := name ++ ": outbound edge " ++ batch.edgeId ++ " must emit Vec<u8> bytes"
          edgeId := some batch.edgeId
          causeId := none
          activeCauseId := none }])
  | .sentinel => ({ state with pending := state.pending.erase batch.edgeId }, true, events)

def wireEdgeGroupSend (frame : CanonicalWireEdgeFrame) :
    WireBridgeCommand WireBridgeProtobufDataBody :=
  .send (.wireEdge frame) none none

/-- The key of a cause. -/
def causeKey (name : String) (cause : Nat) : String :=
  Json.compoundTupleKey "wire-edge-group-cause" [name, toString cause]

/-- A cohort: a cause and the bytes of every edge. -/
structure Cohort where
  causeId : String
  values : List (String × Bytes)
  deriving DecidableEq

def Cohort.dirtyFrame (cohort : Cohort) (v : String × Bytes) : CanonicalWireEdgeFrame :=
  { kind := .dirty, edgeId := v.1, causeId := cohort.causeId, value := none }

def Cohort.dataFrame (cohort : Cohort) (v : String × Bytes) : CanonicalWireEdgeFrame :=
  { kind := .data, edgeId := v.1, causeId := cohort.causeId, value := some v.2 }

/-- The frames of a cohort, in the order in which they are sent. -/
def Cohort.frames (cohort : Cohort) : List CanonicalWireEdgeFrame :=
  cohort.values.map cohort.dirtyFrame ++ cohort.values.map cohort.dataFrame

/-- Send a cohort if a value of every edge is there. -/
def emitWireEdgeGroupOutbound (name : String) (edges : List String)
    (state : WireEdgeGroupOutState V) :
    WireEdgeGroupOutState V × List WireEdgeGroupEvent × Option Cohort :=
  let missing := edges.filter fun edgeId => (state.pending.lookup edgeId).isNone
  if missing ≠ [] then
    (state, missing.map fun edgeId => .issue
      { code := .missingSnapshot
        message := name ++ ": missing outbound snapshot for edge " ++ edgeId
        edgeId := some edgeId
        causeId := none
        activeCauseId := none }, none)
  else
    let pending := edges.filterMap fun edgeId =>
      (state.pending.lookup edgeId).map fun pending => (edgeId, pending)
    let cohort : Cohort :=
      { causeId := causeKey name state.nextCause
        values := pending.map fun v => (v.1, v.2.value) }
    ({ nextCause := saturatingAdd u64Max state.nextCause 1
       emittedOnce := true
       pending := .empty
       lastEmittedVersions := .ofList (pending.map fun v => (v.1, v.2.version)) },
      cohort.frames.map fun frame => .outbound (wireEdgeGroupSend frame), some cohort)

/-- What the outbound side makes of a run: its events, and the cohort it sends, if any. -/
def wireEdgeGroupEvents (name : String) (edges : List String) (state : WireEdgeGroupOutState V)
    (batches : List (EdgeBatch V)) :
    WireEdgeGroupOutState V × List WireEdgeGroupEvent × Option Cohort :=
  let (state, triggered, events) :=
    batches.foldl (fun acc batch => batch.items.foldl (outboundItem name batch) acc)
      (state, false, [])
  if triggered then
    let (state, sent, cohort) := emitWireEdgeGroupOutbound name edges state
    (state, events ++ sent, cohort)
  else (state, events, none)

end Outbound

/-! ### What arrives -/

def validateWireEdgeGroupFrame (name : String) (frame : CanonicalWireEdgeFrame) :
    Option WireEdgeGroupIssue :=
  if frame.edgeId = "" then
    some ⟨.malformedFrame, name ++ ": wire-edge frame edge_id must be non-empty",
      none, some frame.causeId, none⟩
  else if frame.causeId = "" then
    some ⟨.malformedFrame, name ++ ": wire-edge frame cause_id must be non-empty",
      some frame.edgeId, none, none⟩
  else
    match frame.kind, frame.value with
    | .dirty, some _ =>
      some ⟨.malformedFrame, name ++ ": DIRTY wire-edge frame must not carry value bytes",
        some frame.edgeId, some frame.causeId, none⟩
    | .data, none =>
      some ⟨.malformedFrame, name ++ ": DATA wire-edge frame requires value bytes",
        some frame.edgeId, some frame.causeId, none⟩
    | _, _ => none

/-- An issue about no edge and no cause. -/
def malformedIngress (message : String) : WireEdgeGroupEvent :=
  .issue ⟨.malformedFrame, message, none, none, none⟩

def wireEdgeGroupFrameEvent (name sessionId : String) :
    WireBridgeIngress WireBridgeProtobufDataBody → Option WireEdgeGroupEvent
  | .invalid error =>
    some (malformedIngress (name ++ ": bridge invalid wire-edge ingress: " ++ error))
  | .envelope envelope =>
    match validateInboundEnvelope envelope with
    | .error error =>
      some (malformedIngress (name ++ ": bridge invalid wire-edge envelope: " ++
        error.toString))
    | .ok () =>
      if envelope.sessionId ≠ sessionId then
        some (malformedIngress (name ++ ": bridge session " ++ envelope.sessionId ++
          " did not match expected " ++ sessionId))
      else
        match envelope.envelopeType with
        | .close | .error => some .bridgeEnd
        | .data =>
          match envelope.payload with
          | some (.data (.wireEdge frame)) =>
            match validateWireEdgeGroupFrame name frame with
            | none => some (.frame frame)
            | some issue => some (.issue issue)
          | some (.data (.value _)) => none
          | _ => some (malformedIngress (name ++
            ": wire-edge payload must be a wire_edge frame"))
        | .start | .ack | .nack | .status => none

/-! ### The gate -/

def wireEdgeGroupCauseTombstoneLimit : Nat := 1024

/-- Causes that are remembered, up to a limit, the oldest of them forgotten first. The
    set and the queue hold the same causes. -/
structure WireEdgeGroupCauseTombstones where
  seen : Finset String
  order : List String
  nodup : order.Nodup
  seen_eq : seen = order.toFinset

namespace WireEdgeGroupCauseTombstones

def default : WireEdgeGroupCauseTombstones := ⟨∅, [], List.nodup_nil, rfl⟩

theorem forget_eq {order : List String} (h : order.Nodup) (excess : Nat) :
    order.toFinset \ (order.take excess).toFinset = (order.drop excess).toFinset := by
  have hsplit := List.take_append_drop excess order
  have hdisjoint : List.Disjoint (order.take excess) (order.drop excess) := by
    rw [← hsplit] at h
    exact List.disjoint_of_nodup_append h
  ext id
  simp only [Finset.mem_sdiff, List.mem_toFinset]
  constructor
  · rintro ⟨hmem, hnot⟩
    rw [← hsplit] at hmem
    exact (List.mem_append.mp hmem).resolve_left hnot
  · intro hmem
    exact ⟨List.mem_of_mem_drop hmem, fun htake => hdisjoint htake hmem⟩

def insert (tombstones : WireEdgeGroupCauseTombstones) (causeId : String) :
    WireEdgeGroupCauseTombstones :=
  if h : causeId ∈ tombstones.seen then tombstones
  else
    let order := tombstones.order ++ [causeId]
    let excess := order.length - wireEdgeGroupCauseTombstoneLimit
    have hnew : order.Nodup := by
      have hnot : causeId ∉ tombstones.order := by
        rwa [tombstones.seen_eq, List.mem_toFinset] at h
      exact tombstones.nodup.append (List.nodup_singleton _) (by simpa using hnot)
    { seen := Insert.insert causeId tombstones.seen \ (order.take excess).toFinset
      order := order.drop excess
      nodup := hnew.sublist (List.drop_sublist _ _)
      seen_eq := by
        rw [← forget_eq hnew, tombstones.seen_eq]
        congr 1
        ext id
        simp [order, or_comm] }

theorem mem_insert_self (tombstones : WireEdgeGroupCauseTombstones) (causeId : String) :
    causeId ∈ (tombstones.insert causeId).seen := by
  by_cases h : causeId ∈ tombstones.seen
  · rw [insert, dif_pos h]
    exact h
  · rw [seen_eq, insert, dif_neg h, List.mem_toFinset]
    have hexcess : (tombstones.order ++ [causeId]).length - wireEdgeGroupCauseTombstoneLimit ≤
        tombstones.order.length := by
      simp only [List.length_append, List.length_singleton, wireEdgeGroupCauseTombstoneLimit]
      omega
    simp only [List.drop_append_of_le_length hexcess]
    simp

theorem mem_insert {tombstones : WireEdgeGroupCauseTombstones} {causeId id : String}
    (h : id ∈ (tombstones.insert causeId).seen) : id = causeId ∨ id ∈ tombstones.seen := by
  by_cases hin : causeId ∈ tombstones.seen
  · rw [insert, dif_pos hin] at h
    exact Or.inr h
  · rw [insert, dif_neg hin] at h
    exact Finset.mem_insert.mp (Finset.mem_sdiff.mp h).1

end WireEdgeGroupCauseTombstones

structure WireEdgeGroupGateState where
  activeCauseId : Option String
  dirty : Finset String
  data : SortedMap String Bytes
  failed : WireEdgeGroupCauseTombstones
  released : WireEdgeGroupCauseTombstones

namespace WireEdgeGroupGateState

def default : WireEdgeGroupGateState where
  activeCauseId := none
  dirty := ∅
  data := .empty
  failed := .default
  released := .default

def reset (state : WireEdgeGroupGateState) : WireEdgeGroupGateState :=
  { state with activeCauseId := none, dirty := ∅, data := .empty }

def fail (state : WireEdgeGroupGateState) (causeId : String) : WireEdgeGroupGateState :=
  { state with failed := state.failed.insert causeId }.reset

/-- What the gate says, and what it releases. -/
inductive Output
  | gate (event : WireEdgeGroupGate)
  | cohort (cohort : WireEdgeGroupReleaseCohort)

/-- An issue of the gate. -/
def issue (code : WireEdgeGroupIssueCode) (message : String)
    (edgeId causeId activeCauseId : Option String) : Output :=
  .gate (.issue ⟨code, message, edgeId, causeId, activeCauseId⟩)

section

variable (name : String)

/-- A cause that arrives while another one is collected fails both. -/
def competingCause (name : String) (state : WireEdgeGroupGateState) (edgeId : Option String)
    (causeId activeCauseId : String) : WireEdgeGroupGateState × List Output :=
  let failed := state.fail activeCauseId
  ({ failed with failed := failed.failed.insert causeId },
    [issue .competingCause
        (name ++ ": competing cause " ++ causeId ++ " arrived while " ++ activeCauseId ++
          " is active") edgeId (some causeId) (some activeCauseId),
      issue .incompleteCause
        (name ++ ": active cause " ++ activeCauseId ++ " is incomplete")
        none (some activeCauseId) none])

/-- An issue about a cause fails that cause. -/
def failIssueCause (state : WireEdgeGroupGateState)
    (about : WireEdgeGroupIssue) : WireEdgeGroupGateState × List Output :=
  match about.causeId with
  | none => (state, [])
  | some causeId =>
    match state.activeCauseId with
    | some activeCauseId =>
      if activeCauseId ≠ causeId then
        state.competingCause name about.edgeId causeId activeCauseId
      else (state.fail causeId, [])
    | none => ({ state with failed := state.failed.insert causeId }, [])

def progress (state : WireEdgeGroupGateState) (causeId : String) : Output :=
  .gate (.progress causeId state.dirty.card state.data.length)

/-- A frame of a cause that was released before. -/
def replayedCause (frame : CanonicalWireEdgeFrame) : Output :=
  issue (match frame.kind with | .dirty => .duplicateDirty | .data => .duplicateData)
    (name ++ ": cause " ++ frame.causeId ++ " was already released")
    (some frame.edgeId) (some frame.causeId) none

/-- Fail the cause of a frame and say why. -/
def refuse (state : WireEdgeGroupGateState) (frame : CanonicalWireEdgeFrame)
    (code : WireEdgeGroupIssueCode) (message : String) : WireEdgeGroupGateState × List Output :=
  (state.fail frame.causeId,
    [issue code message (some frame.edgeId) (some frame.causeId) none])

/-- A DIRTY frame of an expected edge. -/
def dirtyFrame (state : WireEdgeGroupGateState)
    (frame : CanonicalWireEdgeFrame) : WireEdgeGroupGateState × List Output :=
  let active := { state with activeCauseId := state.activeCauseId.or (some frame.causeId) }
  if frame.edgeId ∈ active.dirty then
    active.refuse frame .duplicateDirty (name ++ ": duplicate DIRTY for edge " ++ frame.edgeId)
  else
    let state := { active with dirty := Insert.insert frame.edgeId active.dirty }
    (state, [state.progress frame.causeId])

/-- A DATA frame of an expected edge. The last one releases the cohort. -/
def dataFrame (expectedIds : List String) (state : WireEdgeGroupGateState)
    (frame : CanonicalWireEdgeFrame) : WireEdgeGroupGateState × List Output :=
  if state.activeCauseId = none then
    state.refuse frame .dataBeforeDirty
      (name ++ ": DATA for edge " ++ frame.edgeId ++ " arrived without an active cause")
  else if frame.edgeId ∉ state.dirty then
    state.refuse frame .dataBeforeDirty
      (name ++ ": DATA for edge " ++ frame.edgeId ++ " arrived before DIRTY")
  else if (state.data.lookup frame.edgeId).isSome then
    state.refuse frame .duplicateData (name ++ ": duplicate DATA for edge " ++ frame.edgeId)
  else
    let data := state.data.insert frame.edgeId (frame.value.getD [])
    if state.dirty.card = expectedIds.length ∧ state.data.length + 1 = expectedIds.length then
      let values : SortedMap String Bytes := .ofList (expectedIds.filterMap fun edgeId =>
        (data.lookup edgeId).map fun value => (edgeId, value))
      ({ state with released := state.released.insert frame.causeId }.reset,
        [.gate (.release frame.causeId values.length), .cohort ⟨frame.causeId, values⟩])
    else
      let state := { state with data }
      (state, [state.progress frame.causeId])

/-- The gate over a frame. -/
def reduceFrame (expectedIds : List String) (state : WireEdgeGroupGateState)
    (frame : CanonicalWireEdgeFrame) : WireEdgeGroupGateState × List Output :=
  if frame.causeId ∈ state.failed.seen then
    (state, [issue .incompleteCause
      (name ++ ": cause " ++ frame.causeId ++ " was already failed closed")
      (some frame.edgeId) (some frame.causeId) none])
  else if frame.causeId ∈ state.released.seen then (state, [replayedCause name frame])
  else
    match state.activeCauseId.filter fun active => active ≠ frame.causeId with
    | some activeCauseId =>
      state.competingCause name (some frame.edgeId) frame.causeId activeCauseId
    | none =>
      if frame.edgeId ∉ expectedIds then
        state.refuse frame .unknownEdge (name ++ ": unknown edge " ++ frame.edgeId)
      else
        match frame.kind with
        | .dirty => state.dirtyFrame name frame
        | .data => state.dataFrame name expectedIds frame

/-- The gate over an event of its group. -/
def gateEvent (expectedIds : List String) (state : WireEdgeGroupGateState) :
    WireEdgeGroupEvent → WireEdgeGroupGateState × List Output
  | .issue about =>
    let (state, outputs) := state.failIssueCause name about
    (state, .gate (.issue about) :: outputs)
  | .outbound _ => (state, [])
  | .bridgeEnd =>
    match state.activeCauseId with
    | none => (state, [])
    | some causeId =>
      (state.fail causeId,
        [issue .incompleteCause
          (name ++ ": cause " ++ causeId ++ " ended before all expected edge frames arrived")
          none (some causeId) none])
  | .frame frame => state.reduceFrame name expectedIds frame

end

end WireEdgeGroupGateState

end GraphRefly.Bridge
