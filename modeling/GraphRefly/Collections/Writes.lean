import GraphRefly.Collections.Persistence

/-!
# The Writes of a Persistence

What draining the queue, writing a snapshot, `flush` and `snapshot` do to a
persistence and to the storage, however the operations of the storage go. Each
appends a front of the queue to the change log and may then write the snapshot of
the mirror behind all of it.

## Main definitions

* `Advance`: What a write did.

## Theorems

* `drainLog_eq`: Draining appends a front of the queue.
* `Persistence.flush_advance`, `Persistence.snapshot_advance`: The calls.
-/

namespace GraphRefly.Collections

open GraphRefly.Json GraphRefly.Storage GraphRefly.Lib

variable {F : Type} [Float64 F] {C : Collection F} {setup : Setup F}

/-- What a call does to its persistence and the storage: it appends the front of
    the queue, and may write the snapshot of the mirror behind all of it. -/
structure Advance (p : Persistence C) (disk : Disk F) (r : Written C) (j : Nat) (wrote : Bool) :
    Prop where
  le : j ≤ p.pendingChanges.length
  log : r.disk.log = disk.log ++ p.pendingChanges.take j
  pending : r.persistence.pendingChanges = p.pendingChanges.drop j
  cursor : r.persistence.cursor = lastSeq r.disk.log.length
  mirror : r.persistence.snapshotState = p.snapshotState
  disposed : r.persistence.disposed = p.disposed
  missed : r.persistence.missed = p.missed
  errored : r.persistence.errored = false → p.errored = false
  kept : wrote = false → r.disk.snapshot = disk.snapshot ∧
    r.persistence.snapshotDirty = p.snapshotDirty
  snapshot : wrote = true → j = p.pendingChanges.length ∧ ∃ frame, r.disk.snapshot = some frame ∧
    reactiveCollectionSnapshotFrame C.kind ((r.disk.log.length : Int) - 1)
      (toValue p.snapshotState) = .ok frame

variable {p : Persistence C} {disk : Disk F} {r : Written C} {j : Nat}

/-- The log after a call holds the entries before it and the appended ones. -/
theorem Advance.length {wrote : Bool}
    (h : Advance p disk r j wrote) : r.disk.log.length = disk.log.length + j := by
  rw [h.log, List.length_append, List.length_take_of_le h.le]

/-- Draining appends a front of the queue, all of it when it ends with `Ok`. -/
theorem drainLog_eq (logPrefix : String) (p : Persistence C) (frames : List (ChangeFrame F))
    (disk : Disk F) (faults : List Outcome) : ∃ j ≤ frames.length,
    (drainLog logPrefix p frames (lastSeq disk.log.length) disk faults).persistence =
        { p with pendingChanges := frames.drop j, cursor := lastSeq (disk.log.length + j) } ∧
      (drainLog logPrefix p frames (lastSeq disk.log.length) disk faults).disk =
        { disk with log := disk.log ++ frames.take j } ∧
      ((drainLog logPrefix p frames (lastSeq disk.log.length) disk faults).ended = .ok →
        j = frames.length) := by
  induction frames generalizing disk faults with
  | nil => exact ⟨0, by simp, rfl, by simp [drainLog], fun _ => rfl⟩
  | cons frame rest ih =>
    -- A call that stops here leaves the queue as it is.
    have hstop (ended : Ended) (hne : ended ≠ .ok) : ∃ j ≤ (frame :: rest).length,
          ({ p with pendingChanges := frame :: rest, cursor := lastSeq disk.log.length } :
              Persistence C) =
            { p with
              pendingChanges := (frame :: rest).drop j
              cursor := lastSeq (disk.log.length + j) } ∧
          disk = { disk with log := disk.log ++ (frame :: rest).take j } ∧
          (ended = .ok → j = (frame :: rest).length) :=
      ⟨0, by simp, rfl, by simp, fun h => absurd h hne⟩
    rcases hnext : nextOutcome faults with ⟨outcome, faults'⟩
    cases outcome with
    | crash =>
      simp only [drainLog, hnext]
      exact hstop .crash (by simp)
    | fail message =>
      simp only [drainLog, hnext]
      exact hstop (.error (.backend message)) (by simp)
    | ok =>
      by_cases hmax : u64Max < disk.log.length
      · simp only [drainLog, hnext, if_pos hmax]
        exact hstop (.error (outOfRange logPrefix)) (by simp)
      · simp only [drainLog, hnext, if_neg hmax]
        -- The frame is in the log, at the sequence that becomes the cursor.
        obtain ⟨j, hj, hp, hdisk, hok⟩ := ih { disk with log := disk.log ++ [frame] } faults'
        simp only [List.length_append, List.length_singleton, lastSeq] at hp hdisk hok
        refine ⟨j + 1, by simpa using hj, ?_, ?_, ?_⟩
        · rw [hp, Nat.add_assoc, Nat.add_comm 1 j]
          rfl
        · rw [hdisk]
          simp
        · intro hended
          rw [hok hended]
          rfl

/-- Draining as an advance. Without a change log there is nothing queued. -/
theorem drainPendingChanges_advance (hcursor : p.cursor = lastSeq disk.log.length)
    (hnolog : setup.changeLog = false → p.pendingChanges = []) (faults : List Outcome) :
    ∃ j, Advance p disk (drainPendingChanges setup p disk faults) j false ∧
      ((drainPendingChanges setup p disk faults).ended = .ok → j = p.pendingChanges.length) := by
  unfold drainPendingChanges
  cases hlog : setup.changeLog with
  | true =>
    simp only [if_true, hcursor]
    obtain ⟨j, hj, hp, hdisk, hok⟩ :=
      drainLog_eq setup.logPrefix p p.pendingChanges disk faults
    refine ⟨j, ?_, hok⟩
    constructor
    case le => exact hj
    case log => rw [hdisk]
    case cursor => rw [hp, hdisk, List.length_append, List.length_take_of_le hj]
    case kept => exact fun _ => by rw [hp, hdisk]; exact ⟨rfl, rfl⟩
    case snapshot => simp
    all_goals rw [hp]
    exact id
  | false =>
    have hnil := hnolog hlog
    refine ⟨0, ?_, fun _ => by rw [hnil]; rfl⟩
    constructor <;> simp [hnil, hcursor]

theorem Advance.writeFrame {d : Written C}
    (h : Advance p disk d j false) (hall : j = p.pendingChanges.length)
    (hmax : d.disk.log.length ≤ 2 ^ 63) :
    ∃ wrote, Advance p disk (writeFrame d.persistence d.disk d.faults) j wrote ∧
      ((writeFrame d.persistence d.disk d.faults).ended = .ok → wrote = true) := by
  have hframe : d.persistence.mirrorFrame = reactiveCollectionSnapshotFrame C.kind
      ((d.disk.log.length : Int) - 1) (toValue p.snapshotState) := by
    rw [Persistence.mirrorFrame, h.cursor, cursorOf_lastSeq hmax, h.mirror]
    rfl
  -- A call that stops before the write leaves what draining left.
  have hstop (ended : Ended) (hne : ended ≠ .ok) (faults : List Outcome) :
      ∃ wrote, Advance p disk ⟨ended, d.persistence, d.disk, faults⟩ j wrote ∧
        (ended = .ok → wrote = true) :=
    ⟨false, ⟨h.le, h.log, h.pending, h.cursor, h.mirror, h.disposed, h.missed, h.errored, h.kept,
      by simp⟩, fun hok => absurd hok hne⟩
  unfold Collections.writeFrame
  cases hmirror : d.persistence.mirrorFrame with
  | error e => exact hstop (.error e) (by simp) d.faults
  | ok frame =>
    rcases nextOutcome d.faults with ⟨outcome, faults⟩
    cases outcome with
    | crash => exact hstop .crash (by simp) faults
    | fail message => exact hstop (.error (.backend message)) (by simp) faults
    | ok =>
      have hwritten : j = p.pendingChanges.length ∧ ∃ f, some frame = some f ∧
          reactiveCollectionSnapshotFrame C.kind ((d.disk.log.length : Int) - 1)
            (toValue p.snapshotState) = .ok f :=
        ⟨hall, frame, rfl, hframe ▸ hmirror⟩
      refine ⟨true, ?_, fun _ => rfl⟩
      -- The flags change unless the persistence has failed; nothing else does.
      cases herrored : d.persistence.errored with
      | true =>
        exact ⟨h.le, h.log, h.pending, h.cursor, h.mirror, h.disposed, h.missed, h.errored,
          by simp, fun _ => hwritten⟩
      | false =>
        exact ⟨h.le, h.log, h.pending, h.cursor, h.mirror, h.disposed, h.missed,
          fun _ => h.errored herrored, by simp, fun _ => hwritten⟩

theorem writeSnapshot_advance (setup : Setup F) (hcursor : p.cursor = lastSeq disk.log.length)
    (hnolog : setup.changeLog = false → p.pendingChanges = [])
    (hmax : disk.log.length + p.pendingChanges.length ≤ 2 ^ 63) (faults : List Outcome) :
    ∃ j wrote, Advance p disk (writeSnapshot setup p disk faults) j wrote ∧
      ((writeSnapshot setup p disk faults).ended = .ok → wrote = true) := by
  obtain ⟨j, hdrain, hall⟩ := drainPendingChanges_advance hcursor hnolog faults
  cases hended : (drainPendingChanges setup p disk faults).ended with
  | ok =>
    have hle := hdrain.le
    simp only [writeSnapshot, hended]
    exact ⟨j, hdrain.writeFrame (hall hended) (by rw [hdrain.length]; omega)⟩
  | error e =>
    simp only [writeSnapshot, hended]
    exact ⟨j, false, hdrain, by simp⟩
  | crash =>
    simp only [writeSnapshot, hended]
    exact ⟨j, false, hdrain, by simp⟩

theorem Advance.record {wrote : Bool}
    (h : Advance p disk r j wrote) : Advance p disk (recordPersistenceError r) j wrote := by
  unfold recordPersistenceError
  cases r.ended with
  | ok => exact h
  | crash => exact h
  | error e =>
    exact ⟨h.le, h.log, h.pending, h.cursor, h.mirror, h.disposed, h.missed, by simp, h.kept,
      h.snapshot⟩

@[simp] theorem recordPersistenceError_ended (r : Written C) :
    (recordPersistenceError r).ended = r.ended := by
  obtain ⟨ended, p, disk, faults⟩ := r
  cases ended <;> rfl

theorem recordPersistenceError_errored {e : StorageError} (h : r.ended = .error e) :
    (recordPersistenceError r).persistence.errored = true := by
  rw [recordPersistenceError, h]

/-- A `snapshot`. -/
theorem Persistence.snapshot_advance
    (hdisposed : p.disposed = false) (hcursor : p.cursor = lastSeq disk.log.length)
    (hnolog : setup.changeLog = false → p.pendingChanges = [])
    (hmax : disk.log.length + p.pendingChanges.length ≤ 2 ^ 63) (faults : List Outcome) :
    ∃ j wrote, Advance p disk (p.snapshot setup disk faults) j wrote ∧
      ((p.snapshot setup disk faults).ended = .ok → wrote = true) := by
  obtain ⟨j, wrote, h, hwrote⟩ := writeSnapshot_advance setup hcursor hnolog hmax faults
  refine ⟨j, wrote, ?_, ?_⟩ <;> simp only [Persistence.snapshot, hdisposed, Bool.false_eq_true,
    if_false, recordPersistenceError_ended]
  · exact h.record
  · exact hwrote

/-- A `flush`. It may leave the snapshot as it is, when there is a change log or
    nothing changed. -/
theorem Persistence.flush_advance (hdisposed : p.disposed = false) (herrored : p.errored = false)
    (hcursor : p.cursor = lastSeq disk.log.length)
    (hnolog : setup.changeLog = false → p.pendingChanges = [])
    (hmax : disk.log.length + p.pendingChanges.length ≤ 2 ^ 63) (faults : List Outcome) :
    ∃ j wrote, Advance p disk (p.flush setup disk faults) j wrote ∧
      ((p.flush setup disk faults).ended = .ok → wrote = true ∨
        (j = p.pendingChanges.length ∧ (setup.changeLog = true ∨ p.snapshotDirty = false))) := by
  simp only [Persistence.flush, hdisposed, herrored, Bool.false_eq_true, if_false]
  by_cases hwrites : ((!setup.changeLog && p.snapshotDirty) || p.cadenceSnapshotDue) = true
  · rw [if_pos hwrites, recordPersistenceError_ended]
    obtain ⟨j, wrote, h, hwrote⟩ := writeSnapshot_advance setup hcursor hnolog hmax faults
    exact ⟨j, wrote, h.record, fun hok => Or.inl (hwrote hok)⟩
  · rw [if_neg hwrites, recordPersistenceError_ended]
    obtain ⟨j, h, hall⟩ := drainPendingChanges_advance hcursor hnolog faults
    refine ⟨j, false, h.record, fun hok => Or.inr ⟨hall hok, ?_⟩⟩
    cases hlog : setup.changeLog with
    | true => exact Or.inl rfl
    | false =>
      refine Or.inr ?_
      by_contra hdirty
      exact hwrites (by simp [hlog, hdirty])

end GraphRefly.Collections
