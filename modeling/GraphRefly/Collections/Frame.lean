import GraphRefly.Collections.Fold
import GraphRefly.Storage.LogRead

/-!
# Stored Collections

The frames that a collection is stored in and how it is loaded from them. A
snapshot frame holds all rows and the number of the last change they include; a
change frame holds one delta. Loading takes the snapshot and applies the changes
after it, which must follow each other without a gap.

The snapshot store and the change log are given by what loading asks of them:
the frame under a key, and the entries after a number.

## Main definitions

* `SnapshotFrame`, `ChangeFrame`: The frames.
* `reactiveCollectionSnapshotFrame`, `reactiveCollectionChangeFrame`: Frames that
  pass their own checks.
* `loadCollectionSnapshot`, `foldCollectionChanges`, `restoreState`: The parts of
  loading.
* `loadReactiveState`: Loading a collection of any kind.

## Theorems

* `foldEntries_eq`: Folding entries without a gap.
* `loadReactiveState_eq`: What loading returns.
-/

namespace GraphRefly.Collections

open List GraphRefly.Json GraphRefly.Storage

variable {F ρ : Type}

inductive ReactiveCollectionKind
  | reactiveList
  | reactiveLog
  | reactiveMap
  | reactiveIndex
  deriving DecidableEq

namespace ReactiveCollectionKind

/-- The name of a kind in a frame. -/
def name : ReactiveCollectionKind → String
  | reactiveList => "reactiveList"
  | reactiveLog => "reactiveLog"
  | reactiveMap => "reactiveMap"
  | reactiveIndex => "reactiveIndex"

/-- The name of a kind in an error. -/
def debug : ReactiveCollectionKind → String
  | reactiveList => "ReactiveList"
  | reactiveLog => "ReactiveLog"
  | reactiveMap => "ReactiveMap"
  | reactiveIndex => "ReactiveIndex"

end ReactiveCollectionKind

/-! ### Frames -/

def reactiveCollectionSnapshotFormat : String := "graphrefly.reactive-collection.snapshot.v1"

def reactiveCollectionChangeFormat : String := "graphrefly.reactive-collection.change.v1"

def reactiveCollectionFrameVersion : Nat := 1

structure SnapshotFrame (F : Type) where
  format : String
  version : Nat
  kind : ReactiveCollectionKind
  changeCursor : Int
  snapshot : Value F

structure ChangeFrame (F : Type) where
  format : String
  version : Nat
  kind : ReactiveCollectionKind
  change : Value F

def SnapshotFrame.toValue (frame : SnapshotFrame F) : Value F :=
  .object [("format", .string frame.format), ("version", .number (.int frame.version)),
    ("kind", .string frame.kind.name), ("changeCursor", .number (.int frame.changeCursor)),
    ("snapshot", frame.snapshot)]

def ChangeFrame.toValue (frame : ChangeFrame F) : Value F :=
  .object [("format", .string frame.format), ("version", .number (.int frame.version)),
    ("kind", .string frame.kind.name), ("change", frame.change)]

/-- A value must have a strict form. -/
def assertStrict [Float64 F] (v : Value F) : Except StorageError Unit :=
  match strictCanonicalJsonBytes v with
  | .ok _ => .ok ()
  | .error e => backendError (codecErrorText e)

def assertReactiveCollectionSnapshotFrame [Float64 F] (frame : SnapshotFrame F) :
    Except StorageError Unit :=
  if frame.format ≠ reactiveCollectionSnapshotFormat then
    backendError s!"reactiveCollection snapshot frame: unsupported format {frame.format}"
  else if frame.version ≠ reactiveCollectionFrameVersion then
    backendError s!"reactiveCollection snapshot frame: unsupported version {frame.version}"
  else if frame.changeCursor < -1 then
    backendError
      "reactiveCollection snapshot frame: changeCursor must be -1 or a non-negative integer"
  else assertStrict frame.toValue

def assertReactiveCollectionChangeFrame [Float64 F] (frame : ChangeFrame F) :
    Except StorageError Unit :=
  if frame.format ≠ reactiveCollectionChangeFormat then
    backendError s!"reactiveCollection change frame: unsupported format {frame.format}"
  else if frame.version ≠ reactiveCollectionFrameVersion then
    backendError s!"reactiveCollection change frame: unsupported version {frame.version}"
  else assertStrict frame.toValue

def reactiveCollectionSnapshotFrame [Float64 F] (kind : ReactiveCollectionKind)
    (changeCursor : Int) (snapshot : Value F) : Except StorageError (SnapshotFrame F) := do
  let frame := ⟨reactiveCollectionSnapshotFormat, reactiveCollectionFrameVersion, kind,
    changeCursor, snapshot⟩
  assertReactiveCollectionSnapshotFrame frame
  return frame

def reactiveCollectionChangeFrame [Float64 F] (kind : ReactiveCollectionKind) (change : Value F) :
    Except StorageError (ChangeFrame F) := do
  let frame := ⟨reactiveCollectionChangeFormat, reactiveCollectionFrameVersion, kind, change⟩
  assertReactiveCollectionChangeFrame frame
  return frame

/-! ### Loading -/

/-- The sequence number of a change as a cursor. -/
def seqToSnapshotCursor (seq : Nat) : Except StorageError Int :=
  if seq < 2 ^ 63 then .ok seq else backendError "reactiveCollection cursor exceeds i64 range"

/-- The cursor of a change that need not exist. -/
def cursorOf : Option Nat → Except StorageError Int
  | none => .ok (-1)
  | some seq => seqToSnapshotCursor seq

def serdeError (message : String) : StorageError :=
  .backend ("reactiveCollection JSON error: " ++ message)

/-- Where a collection is loaded from. -/
structure LoadOptions (F : Type) where
  storagePrefix : Option String
  snapshotKey : Option String
  /-- The entries of the change log after a number. -/
  changeLog : Option (Option Nat → Except StorageError (List (AppendLogEntry (ChangeFrame F))))

def reactiveCollectionSnapshotKey (pre : String) : Except StorageError String :=
  if pre.isEmpty then
    backendError "reactive_collection_snapshot_key: storage_prefix must be non-empty"
  else .ok (pre ++ "/snapshot")

def resolveCollectionSnapshotKey (options : LoadOptions F) : Except StorageError String :=
  match options.snapshotKey with
  | some key =>
    if key.isEmpty then backendError "reactiveCollection load: snapshot_key must be non-empty"
    else .ok key
  | none =>
    match options.storagePrefix with
    | none => backendError "reactiveCollection load: storage_prefix or snapshot_key is required"
    | some pre => reactiveCollectionSnapshotKey pre

/-- The stored rows, if any, and the number of the last change they include. -/
def loadCollectionSnapshot [Float64 F] [Serde F ρ]
    (snapshotStore : String → Except StorageError (Option (SnapshotFrame F)))
    (options : LoadOptions F) (kind : ReactiveCollectionKind) :
    Except StorageError (Option (List ρ) × Option Nat × Bool) := do
  let key ← resolveCollectionSnapshotKey options
  match ← snapshotStore key with
  | none => return (none, none, false)
  | some frame =>
    assertReactiveCollectionSnapshotFrame frame
    if frame.kind ≠ kind then
      backendError s!"reactiveCollection snapshot frame: expected {kind.debug}, got {frame.kind.debug}"
    else
      let state : List ρ ← (fromValue frame.snapshot).mapError serdeError
      return (some state,
        if frame.changeCursor < 0 then none else some frame.changeCursor.toNat, true)

/-- Apply the changes of entries that must be numbered from `expected` on. -/
def foldEntries [Float64 F] (kind : ReactiveCollectionKind)
    (fold : List ρ → Value F → Except StorageError (List ρ)) :
    List (AppendLogEntry (ChangeFrame F)) → Nat → Option Nat → List ρ →
      Except StorageError (List ρ × Option Nat)
  | [], _, cursor, state => .ok (state, cursor)
  | entry :: entries, expected, _, state => do
      if entry.seq ≠ expected then
        backendError s!"reactiveCollection load: non-contiguous change log sequence, expected {expected}, got {entry.seq}"
      else
        assertReactiveCollectionChangeFrame entry.value
        if entry.value.kind ≠ kind then
          backendError s!"reactiveCollection change frame: expected {kind.debug}, got {entry.value.kind.debug}"
        else
          let next ← fold state entry.value.change
          if expected = u64Max then
            backendError "reactiveCollection load: change log sequence overflow"
          else foldEntries kind fold entries (expected + 1) (some entry.seq) next

/-- What folding a change log yields. -/
structure FoldedCollectionState (ρ : Type) where
  state : List ρ
  cursor : Option Nat
  snapshotCursor : Int
  changesApplied : Nat

/-- Apply the changes of the log after a number. -/
def foldCollectionChanges [Float64 F] (state : List ρ) (cursor : Option Nat)
    (changeLog : Option (Option Nat → Except StorageError (List (AppendLogEntry (ChangeFrame F)))))
    (kind : ReactiveCollectionKind) (fold : List ρ → Value F → Except StorageError (List ρ)) :
    Except StorageError (FoldedCollectionState ρ) := do
  let snapshotCursor ← cursorOf cursor
  match changeLog with
  | none => return ⟨state, cursor, snapshotCursor, 0⟩
  | some read =>
    let entries ← read cursor
    let expected := cursor.elim 0 fun seq => min (seq + 1) u64Max
    let (folded, last) ← foldEntries kind fold entries expected cursor state
    return ⟨folded, last, snapshotCursor, entries.length⟩

inductive RestoreSource
  | empty
  | changes
  | snapshot
  | snapshotAndChanges
  deriving DecidableEq

/-- A loaded collection. -/
structure RestoreState (ρ : Type) where
  kind : ReactiveCollectionKind
  state : List ρ
  source : RestoreSource
  snapshotCursor : Int
  changesCursor : Int
  cursor : Option Nat
  snapshotFound : Bool
  changesApplied : Nat

def restoreState (kind : ReactiveCollectionKind) (snapshotFound : Bool)
    (folded : FoldedCollectionState ρ) : Except StorageError (RestoreState ρ) := do
  let changesCursor ← cursorOf folded.cursor
  let source := match snapshotFound, decide (0 < folded.changesApplied) with
    | false, false => RestoreSource.empty
    | false, true => .changes
    | true, false => .snapshot
    | true, true => .snapshotAndChanges
  return ⟨kind, folded.state, source, folded.snapshotCursor, changesCursor, folded.cursor,
    snapshotFound, folded.changesApplied⟩

/-- Load a collection: `assertUnique` checks the rows before and after the
    changes, under a label. -/
def loadReactiveState [Float64 F] [Serde F ρ] (kind : ReactiveCollectionKind)
    (fold : List ρ → Value F → Except StorageError (List ρ))
    (assertUnique : String → List ρ → Except StorageError Unit)
    (snapshotStore : String → Except StorageError (Option (SnapshotFrame F)))
    (options : LoadOptions F) : Except StorageError (RestoreState ρ) := do
  let (snapshot, cursor, snapshotFound) ← loadCollectionSnapshot snapshotStore options kind
  let state := snapshot.getD []
  assertUnique (kind.name ++ " snapshot") state
  let folded ← foldCollectionChanges state cursor options.changeLog kind fold
  assertUnique (kind.name ++ " restore") folded.state
  restoreState kind snapshotFound folded

/-! ### What loading returns -/

/-- The number of the last of `n` changes. -/
def lastSeq : Nat → Option Nat
  | 0 => none
  | n + 1 => some n

variable {n : Nat}

theorem lastSeq_inj {m : Nat} (h : lastSeq m = lastSeq n) : m = n := by
  cases m <;> cases n <;> simp_all [lastSeq]

/-- Entries numbered from `n` on. -/
def entriesFrom {V : Type} (pre : String) (n : Nat) (vs : List V) : List (AppendLogEntry V) :=
  (vs.zipIdx n).map fun p => ⟨appendLogKey pre p.2, p.2, p.1⟩

theorem isAfter_lastSeq (k seq : Nat) : isAfter (lastSeq k) seq = decide (k ≤ seq) := by
  cases k with
  | zero => simp [lastSeq, isAfter]
  | succ k => simp [lastSeq, isAfter, Nat.succ_le_iff]

theorem filter_entriesFrom {V : Type} (pre : String) (vs : List V) (n k : Nat) (h : n ≤ k) :
    (entriesFrom pre n vs).filter (fun e => isAfter (lastSeq k) e.seq) =
      entriesFrom pre k (vs.drop (k - n)) := by
  induction vs generalizing n with
  | nil => simp [entriesFrom]
  | cons v vs ih =>
    rw [entriesFrom, zipIdx_cons, map_cons]
    by_cases hn : n = k
    · -- From the number on everything is kept.
      subst hn
      rw [filter_eq_self.mpr, Nat.sub_self, drop_zero]
      · rfl
      · intro e he
        rw [isAfter_lastSeq, decide_eq_true_eq]
        rcases mem_cons.mp he with rfl | he
        · exact Nat.le_refl n
        · obtain ⟨p, hp, rfl⟩ := mem_map.mp he
          have := (mem_zipIdx hp).1
          simp only
          omega
    · have hlt : ¬ k ≤ n := by omega
      have hdrop : k - n = (k - (n + 1)) + 1 := by omega
      rw [filter_cons_of_neg (by simp [isAfter_lastSeq, hlt]), hdrop, drop_succ_cons]
      exact ih (n + 1) (by omega)

theorem logEntries_eq {V : Type} (pre : String) (vs : List V) :
    logEntries pre vs = entriesFrom pre 0 vs := rfl

theorem cursorOf_lastSeq (h : n ≤ 2 ^ 63) : cursorOf (lastSeq n) =
    .ok ((n : Int) - 1) := by
  cases n with
  | zero => rfl
  | succ n =>
    rw [lastSeq, cursorOf, seqToSnapshotCursor, if_pos (by omega)]
    simp

/-- A frame that a load accepts for a kind. -/
structure ChangeFrame.Valid [Float64 F] (kind : ReactiveCollectionKind) (frame : ChangeFrame F) :
    Prop where
  accepted : assertReactiveCollectionChangeFrame frame = .ok ()
  kind_eq : frame.kind = kind

/-- Apply the changes of frames in order. -/
def foldFrames (fold : List ρ → Value F → Except StorageError (List ρ)) (state : List ρ)
    (frames : List (ChangeFrame F)) : Except StorageError (List ρ) :=
  frames.foldlM (fun st frame => fold st frame.change) state

variable {kind : ReactiveCollectionKind} {fold : List ρ → Value F → Except StorageError (List ρ)}

variable {frames : List (ChangeFrame F)} {state state' : List ρ}

/-- Folding entries without a gap applies their changes and moves the cursor. -/
theorem foldEntries_eq [Float64 F] (pre : String) (hvalid : ∀ frame ∈ frames, frame.Valid kind)
    (hn : n + frames.length ≤ u64Max) (hfold : foldFrames fold state frames = .ok state') :
    foldEntries kind fold (entriesFrom pre n frames) n (lastSeq n) state =
      .ok (state', lastSeq (n + frames.length)) := by
  induction frames generalizing n state with
  | nil =>
    obtain rfl : state = state' := by simpa [foldFrames, pure, Except.pure] using hfold
    rfl
  | cons frame frames ih =>
    rw [foldFrames, foldlM_cons] at hfold
    rw [length_cons] at hn
    cases hstep : fold state frame.change with
    | error e => simp [hstep, bind, Except.bind] at hfold
    | ok next =>
      rw [hstep] at hfold
      obtain ⟨haccepted, hkind⟩ := hvalid frame mem_cons_self
      have hrest := ih (fun f hf => hvalid f (mem_cons_of_mem _ hf)) (n := n + 1)
        (by omega) hfold
      rw [entriesFrom, zipIdx_cons, map_cons, foldEntries]
      simp only [ne_eq, not_true_eq_false, if_false, haccepted, hkind, hstep, bind, Except.bind,
        if_neg (show ¬ n = u64Max by omega)]
      rw [length_cons, show n + (frames.length + 1) = n + 1 + frames.length by omega,
        ← hrest]
      rfl

variable {k : Nat}

theorem foldCollectionChanges_eq [Float64 F] {pre : String}
    {read : Option Nat → Except StorageError (List (AppendLogEntry (ChangeFrame F)))}
    (hk : k ≤ frames.length)
    (hlen : frames.length ≤ 2 ^ 63)
    (hread : read (lastSeq k) =
      .ok ((logEntries pre frames).filter fun e => isAfter (lastSeq k) e.seq))
    (hvalid : ∀ frame ∈ frames, frame.Valid kind)
    (hfold : foldFrames fold state (frames.drop k) = .ok state') :
    foldCollectionChanges state (lastSeq k) (some read) kind fold =
      .ok ⟨state', lastSeq frames.length, (k : Int) - 1, frames.length - k⟩ := by
  rw [logEntries_eq, filter_entriesFrom pre frames 0 k (Nat.zero_le k), Nat.sub_zero] at hread
  have hexpected : ((lastSeq k).elim 0 fun seq => min (seq + 1) u64Max) = k := by
    cases k with
    | zero => rfl
    | succ k =>
      simp only [lastSeq, Option.elim_some, u64Max]
      omega
  have hentries := foldEntries_eq pre
    (fun frame hframe => hvalid frame (mem_of_mem_drop hframe))
    (n := k) (by rw [length_drop, u64Max]; omega) hfold
  rw [length_drop, Nat.add_sub_of_le hk] at hentries
  rw [foldCollectionChanges, cursorOf_lastSeq (by omega)]
  simp only [bind, Except.bind, hread, hexpected, hentries, pure, Except.pure]
  simp [entriesFrom]

variable {frame : SnapshotFrame F}

theorem reactiveCollectionSnapshotFrame_eq_ok [Float64 F] {changeCursor : Int} {snapshot : Value F}
    (h : reactiveCollectionSnapshotFrame kind changeCursor snapshot = .ok frame) :
    assertReactiveCollectionSnapshotFrame frame = .ok () ∧ frame.kind = kind ∧
      frame.changeCursor = changeCursor ∧ frame.snapshot = snapshot := by
  rw [reactiveCollectionSnapshotFrame] at h
  cases hassert : assertReactiveCollectionSnapshotFrame (F := F)
      ⟨reactiveCollectionSnapshotFormat, reactiveCollectionFrameVersion, kind, changeCursor,
        snapshot⟩ with
  | error e => simp [hassert, bind, Except.bind] at h
  | ok _ =>
    simp only [hassert, bind, Except.bind, pure, Except.pure, Except.ok.injEq] at h
    subst h
    exact ⟨hassert, rfl, rfl, rfl⟩

theorem reactiveCollectionChangeFrame_eq_ok [Float64 F] {change : Value F} {frame : ChangeFrame F}
    (h : reactiveCollectionChangeFrame kind change = .ok frame) :
    frame.Valid kind ∧ frame.change = change := by
  rw [reactiveCollectionChangeFrame] at h
  cases hassert : assertReactiveCollectionChangeFrame (F := F)
      ⟨reactiveCollectionChangeFormat, reactiveCollectionFrameVersion, kind, change⟩ with
  | error e => simp [hassert, bind, Except.bind] at h
  | ok _ =>
    simp only [hassert, bind, Except.bind, pure, Except.pure, Except.ok.injEq] at h
    subst h
    exact ⟨⟨hassert, rfl⟩, rfl⟩

variable {key : String}

theorem loadCollectionSnapshot_eq [Float64 F] [Serde F ρ] [LawfulSerde F ρ]
    (snapshotStore : String → Except StorageError (Option (SnapshotFrame F)))
    (options : LoadOptions F) (hkey : resolveCollectionSnapshotKey options = .ok key)
    (hstore : snapshotStore key = .ok (some frame)) {rows : List ρ}
    (hframe : reactiveCollectionSnapshotFrame kind ((k : Int) - 1) (toValue rows) = .ok frame) :
    loadCollectionSnapshot snapshotStore options kind = .ok (some rows, lastSeq k, true) := by
  obtain ⟨haccepted, hkind, hcursor, hrows⟩ := reactiveCollectionSnapshotFrame_eq_ok hframe
  have hlast : (if frame.changeCursor < 0 then none else some frame.changeCursor.toNat) =
      lastSeq k := by
    rw [hcursor]
    cases k with
    | zero => rfl
    | succ k =>
      rw [if_neg (by omega), lastSeq]
      congr 1
      omega
  rw [loadCollectionSnapshot, hkey]
  simp only [bind, Except.bind, hstore, haccepted, hkind, ne_eq, not_true_eq_false, if_false, hrows,
    LawfulSerde.fromValue_toValue, Except.mapError, pure, Except.pure, hlast]

variable {snapshotStore : String → Except StorageError (Option (SnapshotFrame F))}
  {options : LoadOptions F}

theorem loadCollectionSnapshot_none [Float64 F] [Serde F ρ]
    (hkey : resolveCollectionSnapshotKey options = .ok key)
      (hstore : snapshotStore key = .ok none) :
    loadCollectionSnapshot (ρ := ρ) snapshotStore options kind = .ok (none, none, false) := by
  rw [loadCollectionSnapshot, hkey]
  simp [bind, Except.bind, hstore, pure, Except.pure]

/-- Loading returns the folded rows and their cursor. -/
theorem loadReactiveState_eq [Float64 F] [Serde F ρ]
    {assertUnique : String → List ρ → Except StorageError Unit} {snapshot : Option (List ρ)}
    {cursor : Option Nat} {found : Bool}
    (hsnapshot : loadCollectionSnapshot snapshotStore options kind =
      .ok (snapshot, cursor, found))
    (hbefore : assertUnique (kind.name ++ " snapshot") (snapshot.getD []) = .ok ())
    {folded : FoldedCollectionState ρ}
    (hfold : foldCollectionChanges (snapshot.getD []) cursor options.changeLog kind fold =
      .ok folded)
    (hafter : assertUnique (kind.name ++ " restore") folded.state = .ok ()) {last : Int}
    (hlast : cursorOf folded.cursor = .ok last) :
    ∃ restored, loadReactiveState kind fold assertUnique snapshotStore options = .ok restored ∧
      restored.state = folded.state ∧ restored.cursor = folded.cursor ∧
      restored.snapshotFound = found ∧ restored.changesApplied = folded.changesApplied := by
  rw [loadReactiveState, hsnapshot]
  simp only [bind, Except.bind, hbefore, hfold, hafter, restoreState, hlast, pure, Except.pure]
  exact ⟨_, rfl, rfl, rfl, rfl, rfl⟩

end GraphRefly.Collections
