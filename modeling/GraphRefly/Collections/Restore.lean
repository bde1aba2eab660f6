import GraphRefly.Collections.Kind

/-!
# Restoring a Collection

A collection is stored as a snapshot of some moment and a log of all its changes,
and loading brings back its last content. The snapshot may be taken at any point
of the run: the changes it includes are skipped, and the rest is applied to it.

The proof has one idea. Every version of the backend is announced by one delta,
and rows that represent a content follow its delta to the next version; so
folding the log replays the versions one by one, from whichever the snapshot
holds.

## Main definitions

* `Collection.deltas`, `Collection.contentAfter`: What a run of mutations emits
  and where it ends.
* `appendAll`: Append values one after another.
* `Restores`: A stored run loads as the content at its end.

## Theorems

* `load_eq`: Loading a snapshot and the changes after it.
* `restored_collection_is_live`: Every stored run restores.
-/

namespace GraphRefly.Collections

open GraphRefly.Json GraphRefly.Storage GraphRefly.Lib

variable {F : Type} [Float64 F]

namespace Collection

variable (C : Collection F)

/-- The deltas that mutations emit, in order. -/
def deltas (c : C.Content) (ops : List C.Op) : List C.Change := (C.calls c ops).map (·.1)

/-- The content after mutations. -/
def contentAfter (c : C.Content) (ops : List C.Op) : C.Content := Backend.final c (C.calls c ops)

/-- The frame of a change. -/
def changeFrame (change : C.Change) : Except StorageError (ChangeFrame F) :=
  reactiveCollectionChangeFrame C.kind (toValue change)

/-- The frame of a content that includes the first `n` changes. -/
def snapshotFrame (n : Nat) (c : C.Content) : Except StorageError (SnapshotFrame F) :=
  reactiveCollectionSnapshotFrame C.kind ((n : Int) - 1) (toValue (C.toRows c))

variable {C}

theorem mapM_changeFrame {changes : List C.Change} {frames : List (ChangeFrame F)}
    (h : changes.mapM C.changeFrame = .ok frames) :
    (∀ frame ∈ frames, frame.Valid C.kind) ∧ frames.length = changes.length ∧
      ∀ n state, foldFrames C.foldChange state (frames.drop n) =
        (changes.drop n).foldlM C.fold state := by
  induction changes generalizing frames with
  | nil =>
    obtain rfl : frames = [] := by simpa [pure, Except.pure] using h.symm
    exact ⟨by simp, rfl, fun n state => by simp [foldFrames]⟩
  | cons change changes ih =>
    rw [List.mapM_cons] at h
    cases hframe : C.changeFrame change with
    | error e => simp [hframe, bind, Except.bind] at h
    | ok frame =>
      cases hrest : changes.mapM C.changeFrame with
      | error e => simp [hframe, hrest, bind, Except.bind] at h
      | ok rest =>
        obtain rfl : frame :: rest = frames := by
          simpa [hframe, hrest, bind, Except.bind, pure, Except.pure] using h
        obtain ⟨hvalid, hchange⟩ := reactiveCollectionChangeFrame_eq_ok hframe
        obtain ⟨hvalids, hlen, hfold⟩ := ih hrest
        refine ⟨?_, by simp [hlen], ?_⟩
        · intro f hf
          rcases List.mem_cons.mp hf with rfl | hf
          · exact hvalid
          · exact hvalids f hf
        · intro n state
          cases n with
          | succ n => exact hfold n state
          | zero =>
            rw [List.drop_zero, List.drop_zero, foldFrames, List.foldlM_cons,
              List.foldlM_cons, hchange, foldChange_toValue]
            cases C.fold state change with
            | error e => rfl
            | ok next => simpa [foldFrames, bind, Except.bind] using hfold 0 next

end Collection

/-- Loading a snapshot that includes the first `k` changes of a log brings back
    the rows that the other changes lead to. -/
theorem load_eq {C : Collection F}
    (snapshotStore : String → Except StorageError (Option (SnapshotFrame F)))
    (options : LoadOptions F) {key pre : String}
    (hkey : resolveCollectionSnapshotKey options = .ok key) {frame : SnapshotFrame F}
    (hstore : snapshotStore key = .ok (some frame)) {k : Nat} {rows rows' : List C.Row}
    (hframe : reactiveCollectionSnapshotFrame C.kind ((k : Int) - 1) (toValue rows) = .ok frame)
    {read : Option Nat → Except StorageError (List (AppendLogEntry (ChangeFrame F)))}
    (hlog : options.changeLog = some read) {frames : List (ChangeFrame F)}
    (hread : read (lastSeq k) =
      .ok ((logEntries pre frames).filter fun e => isAfter (lastSeq k) e.seq))
    (hvalid : ∀ f ∈ frames, f.Valid C.kind) (hk : k ≤ frames.length)
    (hlen : frames.length ≤ 2 ^ 63)
    (hfold : foldFrames C.foldChange rows (frames.drop k) = .ok rows') {c c' : C.Content}
    (hrows : C.Represents rows c) (hrows' : C.Represents rows' c') :
    ∃ restored, C.load snapshotStore options = .ok restored ∧ restored.state = rows' ∧
      restored.cursor = lastSeq frames.length := by
  have hfolded := foldCollectionChanges_eq hk hlen hread hvalid hfold
  rw [← hlog] at hfolded
  obtain ⟨restored, hload, hstate, hcursor, -⟩ := loadReactiveState_eq
    (loadCollectionSnapshot_eq snapshotStore options hkey hstore hframe)
      (C.unique_of_represents _ _ c hrows) hfolded
    (C.unique_of_represents _ _ c' hrows') (cursorOf_lastSeq hlen)
  exact ⟨restored, hload, hstate, hcursor⟩

/-! ### A stored run -/

/-- Append values one after another. -/
def appendAll {σ V : Type} (kv : KvStorageTier σ V) (pre : String) (s : σ) (values : List V) :
    Except StorageError σ :=
  values.foldlM (fun s value => (AppendLogStorage.append kv pre s value).map (·.2)) s

theorem appendAll_holds {σ V : Type} {kv : KvStorageTier σ V} {pre : String} {s : σ}
    {held : List V} (h : Holds kv pre s held) (values : List V)
    (hlen : held.length + values.length ≤ u64Max) :
    ∃ s', appendAll kv pre s values = .ok s' ∧ Holds kv pre s' (held ++ values) := by
  induction values generalizing s held with
  | nil => exact ⟨s, rfl, by rwa [List.append_nil]⟩
  | cons value values ih =>
    rw [List.length_cons] at hlen
    obtain ⟨happend, hholds⟩ := h.append (by omega) value
    obtain ⟨s', hall, hholds'⟩ := ih hholds (by simp; omega)
    refine ⟨s', ?_, by simpa using hholds'⟩
    rw [appendAll, List.foldlM_cons, happend]
    exact hall

/-- However a run is split, a snapshot at the split and a log of all the deltas
    load as the content at the end. The frames are those that the program
    accepts, and the last change has a number that a cursor can hold. -/
def Restores (C : Collection F) : Prop :=
  ∀ (σ τ : Type) (snapshots : KvStorageTier σ (SnapshotFrame F))
    (log : KvStorageTier τ (ChangeFrame F)) (store : σ) (entries : τ)
    (storagePrefix snapshotKey : Option String) (key logPrefix : String)
    (c : C.Content) (before after : List C.Op) (frame : SnapshotFrame F)
    (frames : List (ChangeFrame F)),
    resolveCollectionSnapshotKey (F := F) ⟨storagePrefix, snapshotKey, none⟩ = .ok key →
    (∀ k, startsWith k (logHead logPrefix) = true → log.get entries k = none) →
    C.snapshotFrame (C.deltas c before).length (C.contentAfter c before) = .ok frame →
    (C.deltas c (before ++ after)).mapM C.changeFrame = .ok frames →
    frames.length ≤ 2 ^ 63 →
    ∃ entries' restored, appendAll log logPrefix entries frames = .ok entries' ∧
      C.load (fun k => .ok (snapshots.get (snapshots.set store key frame) k))
        ⟨storagePrefix, snapshotKey,
          some fun seq => readAppendLogEntries log logPrefix entries' seq none⟩ = .ok restored ∧
      C.Represents restored.state (C.contentAfter c (before ++ after)) ∧
      restored.cursor = lastSeq (C.deltas c (before ++ after)).length

theorem Collection.restores (C : Collection F) : Restores C := by
  intro σ τ snapshots log store entries storagePrefix snapshotKey key logPrefix c before after
    frame frames hkey hfresh hframe hframes hlen
  obtain ⟨hvalid, hcount, hfolds⟩ := Collection.mapM_changeFrame hframes
  obtain ⟨entries', happend, hholds⟩ := appendAll_holds (holds_nil hfresh) frames
    (by simp only [List.length_nil, u64Max]; omega)
  rw [List.nil_append] at hholds
  -- The run after the split starts from the content of the snapshot.
  have hsplit : C.deltas c (before ++ after) =
      C.deltas c before ++ C.deltas (C.contentAfter c before) after := by
    rw [Collection.deltas, Backend.final_calls_append, List.map_append]
    rfl
  have hend : C.contentAfter c (before ++ after) =
      C.contentAfter (C.contentAfter c before) after := by
    rw [Collection.contentAfter, Backend.final_calls_append, Backend.final_append]
    rfl
  have hrep := C.represents_toRows (C.contentAfter c before)
  obtain ⟨rows', hfold, hrep'⟩ :=
    (follows_calls C.fold_follows (C.contentAfter c before) after).foldlM hrep
  have hdrop := hfolds (C.deltas c before).length (C.toRows (C.contentAfter c before))
  rw [hsplit, List.drop_left] at hdrop
  obtain ⟨restored, hload, hstate, hcursor⟩ := load_eq (C := C)
    (fun k => .ok (snapshots.get (snapshots.set store key frame) k))
    ⟨storagePrefix, snapshotKey,
      some fun seq => readAppendLogEntries log logPrefix entries' seq none⟩
    hkey (by rw [snapshots.get_set, if_pos rfl]) hframe rfl (hholds.read _) hvalid
    (by rw [hcount, hsplit, List.length_append]; omega) hlen (hdrop.trans hfold) hrep hrep'
  refine ⟨entries', restored, happend, hload, ?_, by rw [hcursor, hcount]⟩
  rw [hstate, hend]
  exact hrep'

/-- Restoring reproduces a list and a log, as the same vector, and a map and an
    index, as the same rows. -/
theorem restored_collection_is_live {T K S V : Type} [LinearOrder K] [LinearOrder S] [Serde F T]
    [Serde F K] [Serde F S] [Serde F V] [StrictJson F T] [StrictJson F K] [StrictJson F S]
    [StrictJson F V] (maxSize : Option ℕ+) :
    Restores (reactiveList F T maxSize) ∧ Restores (reactiveLog F T maxSize) ∧
      Restores (reactiveMap F K V) ∧ Restores (reactiveIndex F K S V) :=
  ⟨Collection.restores _, Collection.restores _, Collection.restores _, Collection.restores _⟩

/-- A list of at most two booleans. -/
abbrev pairOfFlags : Collection Empty := reactiveList Empty Bool (some 2)

/-- An append, an insert that trims, and a pop. -/
theorem restored_collection_is_live_pair :
    ∃ frame frames entries, ∃ restored : RestoreState Bool,
      pairOfFlags.snapshotFrame 2 [true, false] = .ok frame ∧
      (pairOfFlags.deltas [] [.append true, .append false, .insert 0 true, .pop none]).mapM
        pairOfFlags.changeFrame = .ok frames ∧
      appendAll (MemoryStore.tier (ChangeFrame Empty)) "flags/changes"
        (MemoryStore.empty _) frames =
        .ok entries ∧
      pairOfFlags.load
        (fun k => .ok ((MemoryStore.tier _).get
          ((MemoryStore.tier _).set (MemoryStore.empty _) "flags/snapshot" frame) k))
        ⟨some "flags", none, some fun seq =>
          readAppendLogEntries (MemoryStore.tier _) "flags/changes" entries seq none⟩ =
        .ok restored ∧
      restored.state = [true] ∧ restored.cursor = some 4 := by
  obtain ⟨entries, restored, happend, hload, hstate, hcursor⟩ :=
    (restored_collection_is_live (F := Empty) (T := Bool) (K := Bool) (S := Bool) (V := Bool)
      (some 2)).1 _ _ (MemoryStore.tier _) (MemoryStore.tier _) (MemoryStore.empty _)
      (MemoryStore.empty _) (some "flags") none "flags/snapshot" "flags/changes" []
      [.append true, .append false] [.insert 0 true, .pop none] _ _ rfl (fun _ _ => rfl) rfl rfl
      (by decide)
  exact ⟨_, _, entries, restored, rfl, rfl, happend, hload, hstate, hcursor⟩

end GraphRefly.Collections
