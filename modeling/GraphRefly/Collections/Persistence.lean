import GraphRefly.Collections.Restore

/-!
# Persisted Collections

A persistence follows the deltas of a live collection. It keeps a mirror of the
rows and, with a change log, a queue of change frames; nothing is written until
`flush` or `snapshot` is called, apart from the snapshot it takes when it is
attached. Its flags are sticky: once it is disposed or has failed it ignores
further deltas.

Storage is a snapshot and an append log. Every operation on it either takes
effect, fails without effect, or does not happen because the process is gone; a
script says which, one outcome for each operation in turn. A crash takes the live
collection and its persistences with it and leaves the storage.

A world also remembers two things for its specification: what the live collection
has held since a `flush` or a `snapshot` last returned `Ok`, and whether one did.
A persistence remembers whether it has ignored a delta after failing.

## Main definitions

* `Disk`, `Setup`: The storage, and how it is addressed.
* `Persistence`: The state of one persistence.
* `drainPendingChanges`, `writeSnapshot`: The writes.
* `Persistence.flush`, `Persistence.snapshot`, `Persistence.onDelta`: Its calls.
* `World.step`: What a caller or a crash can do.
-/

namespace GraphRefly.Collections

open GraphRefly.Json GraphRefly.Storage GraphRefly.Lib

variable {F : Type} [Float64 F]

/-! ### Storage -/

/-- The snapshot under the collection's key, and the values of its change log. -/
structure Disk (F : Type) where
  snapshot : Option (SnapshotFrame F)
  log : List (ChangeFrame F)

/-- How a collection's storage is addressed, and whether it has a change log. -/
structure Setup (F : Type) where
  storagePrefix : Option String
  snapshotKey : Option String
  key : String
  resolved : resolveCollectionSnapshotKey (F := F) ⟨storagePrefix, snapshotKey, none⟩ = .ok key
  changeLog : Bool
  logPrefix : String

/-- How the next storage operation goes. -/
inductive Outcome
  | ok
  | fail (message : String)
  | crash

/-- How a call ends. -/
inductive Ended
  | ok
  | error (e : StorageError)
  | crash
  deriving DecidableEq

/-- The outcome of one operation; past the end of a script everything works. -/
def nextOutcome : List Outcome → Outcome × List Outcome
  | [] => (.ok, [])
  | outcome :: faults => (outcome, faults)

/-- Load a collection from its storage. -/
def Disk.load (C : Collection F) (setup : Setup F) (disk : Disk F) :
    Except StorageError (RestoreState C.Row) :=
  C.load (fun k => .ok (if k = setup.key then disk.snapshot else none))
    ⟨setup.storagePrefix, setup.snapshotKey,
      if setup.changeLog then
        some fun after =>
          .ok ((logEntries setup.logPrefix disk.log).filter fun e => isAfter after e.seq)
      else none⟩

/-! ### One persistence -/

structure Persistence (C : Collection F) where
  snapshotEveryChanges : Option Nat
  disposed : Bool
  errored : Bool
  cursor : Option Nat
  /-- The mirror of the rows. -/
  snapshotState : List C.Row
  pendingChanges : List (ChangeFrame F)
  snapshotDirty : Bool
  cadenceSnapshotDue : Bool
  changesSinceSnapshot : Nat
  /-- Whether a delta was ignored after a failure. -/
  missed : Bool

/-- How a call ends, and what it leaves. -/
structure Written (C : Collection F) where
  ended : Ended
  persistence : Persistence C
  disk : Disk F
  faults : List Outcome

variable {C : Collection F}

/-- Append the pending frames one by one. -/
def drainLog (logPrefix : String) (p : Persistence C) :
    List (ChangeFrame F) → Option Nat → Disk F → List Outcome → Written C
  | [], cursor, disk, faults =>
    ⟨.ok, { p with pendingChanges := [], cursor := cursor }, disk, faults⟩
  | frame :: rest, cursor, disk, faults =>
    match nextOutcome faults with
    | (.crash, faults) =>
      ⟨.crash, { p with pendingChanges := frame :: rest, cursor := cursor }, disk, faults⟩
    | (.fail message, faults) =>
      ⟨.error (.backend message), { p with pendingChanges := frame :: rest, cursor := cursor },
        disk, faults⟩
    | (.ok, faults) =>
      if u64Max < disk.log.length then
        ⟨.error (outOfRange logPrefix),
          { p with pendingChanges := frame :: rest, cursor := cursor }, disk, faults⟩
      else
        drainLog logPrefix p rest (some disk.log.length)
          { disk with log := disk.log ++ [frame] } faults

def drainPendingChanges (setup : Setup F) (p : Persistence C) (disk : Disk F)
    (faults : List Outcome) : Written C :=
  if setup.changeLog then drainLog setup.logPrefix p p.pendingChanges p.cursor disk faults
  else ⟨.ok, { p with pendingChanges := [] }, disk, faults⟩

/-- The frame of the mirror at the cursor. -/
def Persistence.mirrorFrame (p : Persistence C) : Except StorageError (SnapshotFrame F) := do
  reactiveCollectionSnapshotFrame C.kind (← cursorOf p.cursor) (toValue p.snapshotState)

/-- Write the frame of the mirror. The flags of a failed persistence stay. -/
def writeFrame (p : Persistence C) (disk : Disk F) (faults : List Outcome) : Written C :=
  match p.mirrorFrame with
  | .error e => ⟨.error e, p, disk, faults⟩
  | .ok frame =>
    match nextOutcome faults with
    | (.crash, faults) => ⟨.crash, p, disk, faults⟩
    | (.fail message, faults) => ⟨.error (.backend message), p, disk, faults⟩
    | (.ok, faults) =>
      ⟨.ok, if p.errored then p else
          { p with snapshotDirty := false, cadenceSnapshotDue := false },
        { disk with snapshot := some frame }, faults⟩

/-- Drain the pending changes, then write a snapshot. -/
def writeSnapshot (setup : Setup F) (p : Persistence C) (disk : Disk F)
    (faults : List Outcome) : Written C :=
  let drained := drainPendingChanges setup p disk faults
  match drained.ended with
  | .ok => writeFrame drained.persistence drained.disk drained.faults
  | _ => drained

/-- A call that fails leaves the persistence failed. -/
def recordPersistenceError (w : Written C) : Written C :=
  match w.ended with
  | .error _ => { w with persistence := { w.persistence with errored := true } }
  | _ => w

namespace Persistence

def flush (setup : Setup F) (p : Persistence C) (disk : Disk F) (faults : List Outcome) :
    Written C :=
  if p.disposed then ⟨.ok, p, disk, faults⟩
  else if p.errored then
    ⟨.error (.backend "reactiveCollection persistence is errored; inspect error fact"), p, disk,
      faults⟩
  else
    let writesSnapshot := (!setup.changeLog && p.snapshotDirty) || p.cadenceSnapshotDue
    recordPersistenceError
      (if writesSnapshot then writeSnapshot setup p disk faults
        else drainPendingChanges setup p disk faults)

def snapshot (setup : Setup F) (p : Persistence C) (disk : Disk F) (faults : List Outcome) :
    Written C :=
  if p.disposed then
    ⟨.error (.backend "reactiveCollection persistence is disposed"), p, disk, faults⟩
  else recordPersistenceError (writeSnapshot setup p disk faults)

/-- Whether the next change completes a cadence. -/
def reachesCadence (p : Persistence C) : Bool :=
  p.snapshotEveryChanges.any fun every => decide (every ≤ p.changesSinceSnapshot + 1)

/-- One more change since the last cadence. -/
def countChange (p : Persistence C) : Persistence C :=
  { p with
    changesSinceSnapshot := if p.reachesCadence then 0 else p.changesSinceSnapshot + 1
    cadenceSnapshotDue := p.cadenceSnapshotDue || p.reachesCadence }

section CountChange

variable (p : Persistence C)

@[simp] theorem countChange_disposed : p.countChange.disposed = p.disposed := rfl

@[simp] theorem countChange_errored : p.countChange.errored = p.errored := rfl

@[simp] theorem countChange_cursor : p.countChange.cursor = p.cursor := rfl

@[simp] theorem countChange_snapshotState : p.countChange.snapshotState = p.snapshotState := rfl

@[simp] theorem countChange_pendingChanges :
    p.countChange.pendingChanges = p.pendingChanges := rfl

@[simp] theorem countChange_snapshotDirty : p.countChange.snapshotDirty = p.snapshotDirty := rfl

@[simp] theorem countChange_missed : p.countChange.missed = p.missed := rfl

end CountChange

/-- Follow a delta. -/
def onDelta (setup : Setup F) (change : C.Change) (p : Persistence C) : Persistence C :=
  if p.disposed then p
  else if p.errored then { p with missed := true }
  else
    match C.mirror p.snapshotState change with
    | .error _ => { p with errored := true, missed := true }
    | .ok rows =>
      match C.changeFrame change with
      | .error _ => { p with snapshotState := rows, errored := true }
      | .ok frame =>
        countChange (if setup.changeLog then
            { p with snapshotState := rows, pendingChanges := p.pendingChanges ++ [frame] }
          else { p with snapshotState := rows, snapshotDirty := true })

def dispose (p : Persistence C) : Persistence C :=
  { p with disposed := true, pendingChanges := [], cadenceSnapshotDue := false }

end Persistence

/-- Attach a persistence to rows, with the snapshot it takes at once. A cadence
    of zero is refused. -/
def persistCollection (setup : Setup F) (rows : List C.Row) (initialCursor : Option Nat)
    (every : Option Nat) (disk : Disk F) (faults : List Outcome) :
    Except StorageError (Written C) :=
  if every = some 0 then
    backendError "persistReactiveCollection: snapshot_every_changes must be positive"
  else
    .ok (recordPersistenceError (writeSnapshot setup
      { snapshotEveryChanges := every, disposed := false, errored := false,
        cursor := initialCursor, snapshotState := rows, pendingChanges := [],
        snapshotDirty := false, cadenceSnapshotDue := false, changesSinceSnapshot := 0,
        missed := false } disk faults))

/-! ### Restoring a live collection -/

section Restore

variable {T K S V : Type} [LinearOrder K]

def restoreReactiveList (maxSize : Option ℕ+) (rows : List T) : Except StorageError (List T) :=
  .ok (trimHeadOverflow rows maxSize).2

def restoreReactiveLog (maxSize : Option ℕ+) (rows : List T) : Except StorageError (List T) :=
  .ok (trimHeadOverflow rows maxSize).2

section

variable (checkpointJson : K → Except String (Value F))

/-- The bytes of a key as a checkpoint writes it, which only some types allow. -/
def restoreJsonIdentity (k : K) :
    Except StorageError ByteArray := do
  let json ← (checkpointJson k).mapError .backend
  (strictCanonicalJsonBytes json).mapError fun e =>
    .backend ("restore_reactive_*: " ++ codecErrorText e)

/-- Check that no two keys have the same checkpoint form. -/
def assertUniqueRestoreKeys (checkpointJson : K → Except String (Value F))
    (duplicate : Nat → String) : Nat → List ByteArray → List K → Except StorageError Unit
  | _, _, [] => .ok ()
  | index, seen, k :: ks => do
      let id ← restoreJsonIdentity checkpointJson k
      if seen.any (fun existing => decide (existing = id)) then backendError (duplicate index)
      else assertUniqueRestoreKeys checkpointJson duplicate (index + 1) (seen ++ [id]) ks

def restoreReactiveMap (rows : List (K × V)) :
    Except StorageError (SortedMap K V) := do
  assertUniqueRestoreKeys checkpointJson
    (fun index => s!"restore_reactive_map: entry {index} duplicates an earlier strict-JSON key")
    0 [] (rows.map (·.1))
  return SortedMap.ofList rows

def restoreReactiveIndex
    (rows : List (IndexRow K S V)) : Except StorageError (SortedMap K (S × V)) := do
  assertUniqueRestoreKeys checkpointJson
    (fun index =>
      s!"restore_reactive_index: row {index} duplicates an earlier strict-JSON primary")
    0 [] (rows.map (·.primary))
  return SortedMap.ofList (rows.map fun row => (row.primary, row.secondary, row.value))

end

end Restore

/-! ### The world -/

/-- A live collection, its persistences and the storage. -/
structure World (C : Collection F) where
  /-- The content of the live collection; none after a crash. -/
  live : Option C.Content
  persistences : List (Persistence C)
  disk : Disk F
  /-- What the live collection has held since the last `Ok`. -/
  moments : List C.Content
  /-- Whether there was an `Ok`. -/
  okSeen : Bool

/-- What a caller or a crash can do. -/
inductive Step (C : Collection F)
  | mutate (op : C.Op)
  | flush (i : Nat) (faults : List Outcome)
  | snapshot (i : Nat) (faults : List Outcome)
  | dispose (i : Nat)
  /-- `persist_reactive_*` on the live collection. -/
  | persist (every : Option Nat) (faults : List Outcome)
  /-- `open_persistent_reactive_*`, whose reads may fail. -/
  | openPersistent (initial : List C.Row) (every : Option Nat) (readError : Option StorageError)
      (faults : List Outcome)
  | crash

namespace World

/-- A live collection over empty storage. -/
def start (c : C.Content) : World C := ⟨some c, [], ⟨none, []⟩, [c], false⟩

/-- The process is gone. -/
def crash (w : World C) (disk : Disk F) : World C :=
  { w with live := none, persistences := [], disk := disk }

section

variable (setup : Setup F)

/-- The live collection makes a version, and its persistences follow the delta. -/
def deliver (w : World C) (version : C.Change × C.Content) : World C :=
  { w with
    live := some version.2
    persistences := w.persistences.map (Persistence.onDelta setup version.1)
    moments := w.moments ++ [version.2] }

/-- A call on the persistence at a position. An `Ok` of one that is not disposed
    starts the moments anew. -/
def onPersistence (w : World C) (i : Nat) (call : Persistence C → Written C) : World C × Ended :=
  match w.persistences[i]? with
  | none => (w, .ok)
  | some p =>
    let r := call p
    match r.ended with
    | .crash => (w.crash r.disk, .crash)
    | .error e => ({ w with persistences := w.persistences.set i r.persistence,
                            disk := r.disk }, .error e)
    | .ok =>
      let w' := { w with persistences := w.persistences.set i r.persistence, disk := r.disk }
      if p.disposed then (w', .ok)
      else ({ w' with moments := w.live.toList, okSeen := true }, .ok)

/-- Attach a new persistence to the live collection. -/
def attach (w : World C) (c : C.Content) (initialCursor every : Option Nat)
    (faults : List Outcome) : World C × Ended :=
  match persistCollection setup (C.toRows c) initialCursor every w.disk faults with
  | .error e => (w, .error e)
  | .ok r =>
    match r.ended with
    | .crash => (w.crash r.disk, .crash)
    | _ => ({ w with persistences := w.persistences ++ [r.persistence], disk := r.disk }, .ok)

/-- The rows a collection is opened with. -/
def openedRows (initial : List C.Row) (restored : RestoreState C.Row) : List C.Row :=
  if restored.snapshotFound = false ∧ restored.changesApplied = 0 then initial else restored.state

/-- Load the storage into a new live collection and attach to it at the loaded
    cursor. The earlier collection and its persistences are dropped. -/
def openPersistent (restore : List C.Row → Except StorageError C.Content)
    (w : World C) (initial : List C.Row) (every : Option Nat) (readError : Option StorageError)
    (faults : List Outcome) : World C × Ended :=
  let closed := w.crash w.disk
  match readError with
  | some e => (closed, .error e)
  | none =>
    match w.disk.load C setup with
    | .error e => (closed, .error e)
    | .ok restored =>
      match restore (openedRows initial restored) with
      | .error e => (closed, .error e)
      | .ok c =>
        match attach setup { closed with live := some c, moments := w.moments ++ [c] } c
            restored.cursor every faults with
        | (_, .error e) => (closed, .error e)
        | opened => opened

/-- One step, and how its call ends. -/
def step (restore : List C.Row → Except StorageError C.Content) (w : World C) :
    Step C → World C × Ended
  | .mutate op =>
    match w.live with
    | none => (w, .ok)
    | some c => ((C.call c op).foldl (deliver setup) w, .ok)
  | .flush i faults => w.onPersistence i fun p => p.flush setup w.disk faults
  | .snapshot i faults => w.onPersistence i fun p => p.snapshot setup w.disk faults
  | .dispose i => ({ w with persistences := w.persistences.modify i Persistence.dispose }, .ok)
  | .persist every faults =>
    match w.live with
    | none => (w, .ok)
    | some c => w.attach setup c none every faults
  | .openPersistent initial every readError faults =>
    w.openPersistent setup restore initial every readError faults
  | .crash => (w.crash w.disk, .crash)

end

end World

end GraphRefly.Collections
