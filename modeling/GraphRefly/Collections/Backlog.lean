import GraphRefly.Collections.Persistence

/-!
# Storage with a Backlog

What the storage of a collection loads as, and what is still to be written behind
it. The backlog holds the frames of the versions since the stored content. Moving
its front into the change log, a frame at a time, moves the stored content along,
so a failure or a crash in between leaves the content of an earlier version. A
snapshot of the rows at the end of the log replaces the stored content.

## Main definitions

* `Stored`: The content the storage leads to.
* `Backed`: A backlog behind it.

## Theorems

* `Stored.advance`: Frames move from the backlog into the log.
* `Stored.write`: A snapshot is written at the end of the log.
* `Stored.load`: A stored content is loaded.
-/

namespace GraphRefly.Collections

open GraphRefly.Json GraphRefly.Storage GraphRefly.Lib

variable {F : Type} [Float64 F] {C : Collection F} {setup : Setup F}

/-- Frames with the contents they lead to. -/
abbrev Backlog (C : Collection F) : Type := List (ChangeFrame F × C.Content)

/-- The storage holds a snapshot and changes that lead to a content. -/
structure Stored (C : Collection F) (disk : Disk F) (c : C.Content) : Prop where
  valid : ∀ frame ∈ disk.log, frame.Valid C.kind
  leads : ∃ frame k rows rows' c₀, disk.snapshot = some frame ∧ k ≤ disk.log.length ∧
    reactiveCollectionSnapshotFrame C.kind ((k : Int) - 1) (toValue rows) = .ok frame ∧
    C.Represents rows c₀ ∧ foldFrames C.foldChange rows (disk.log.drop k) = .ok rows' ∧
    C.Represents rows' c

/-- The frames lead from a content through the others. -/
def Backed (C : Collection F) : C.Content → Backlog C → Prop
  | _, [] => True
  | c, (frame, c') :: backlog => frame.Valid C.kind ∧
      (∀ rows, C.Represents rows c → ∃ rows', C.foldChange rows frame.change = .ok rows' ∧
        C.Represents rows' c') ∧ Backed C c' backlog

/-- The content at the end of a backlog. -/
def lastContent (c : C.Content) (backlog : Backlog C) : C.Content :=
  backlog.foldl (fun _ e => e.2) c

theorem lastContent_append (c : C.Content) (xs ys : Backlog C) :
    lastContent c (xs ++ ys) = lastContent (lastContent c xs) ys := by
  rw [lastContent, List.foldl_append]
  rfl

variable {c : C.Content} {backlog : Backlog C}

theorem lastContent_mem {moments : List C.Content}
    (hc : c ∈ moments) (hmems : ∀ e ∈ backlog, e.2 ∈ moments) :
    lastContent c backlog ∈ moments := by
  induction backlog generalizing c with
  | nil => exact hc
  | cons e backlog ih =>
    exact ih (hmems e List.mem_cons_self) fun e he => hmems e (List.mem_cons_of_mem _ he)

theorem Backed.concat {c' : C.Content} {frame : ChangeFrame F}
    (h : Backed C c backlog) (hvalid : frame.Valid C.kind)
    (hfold : ∀ rows, C.Represents rows (lastContent c backlog) →
      ∃ rows', C.foldChange rows frame.change = .ok rows' ∧ C.Represents rows' c') :
    Backed C c (backlog ++ [(frame, c')]) := by
  induction backlog generalizing c with
  | nil => exact ⟨hvalid, hfold, trivial⟩
  | cons e backlog ih => exact ⟨h.1, h.2.1, ih h.2.2 hfold⟩

variable {disk : Disk F}

/-- Moving the front of the backlog into the log moves the stored content along. -/
theorem Stored.advance (hstored : Stored C disk c) (hbacked : Backed C c backlog) (j : Nat) :
    Stored C { disk with log := disk.log ++ (backlog.take j).map (·.1) }
        (lastContent c (backlog.take j)) ∧
      Backed C (lastContent c (backlog.take j)) (backlog.drop j) := by
  induction j generalizing disk c backlog with
  | zero => simpa using ⟨hstored, hbacked⟩
  | succ j ih =>
    cases backlog with
    | nil => simpa using ⟨hstored, hbacked⟩
    | cons e backlog =>
      obtain ⟨frame, c'⟩ := e
      obtain ⟨hvalid, hfold, hrest⟩ := hbacked
      obtain ⟨hvalids, snap, k, rows, rows', c₀, hsnap, hk, hframe, hrep₀, hlog,
        hrep⟩ := hstored
      obtain ⟨next, hnext, hrepnext⟩ := hfold rows' hrep
      have hone : Stored C { disk with log := disk.log ++ [frame] } c' := by
        refine ⟨?_, snap, k, rows, next, c₀, hsnap, ?_, hframe, hrep₀, ?_, hrepnext⟩
        · intro f hf
          rcases List.mem_append.mp hf with hf | hf
          · exact hvalids f hf
          · rw [List.mem_singleton.mp hf]
            exact hvalid
        · rw [List.length_append]
          omega
        · -- The new frame is folded after the ones that were there.
          rw [List.drop_append_of_le_length hk, foldFrames, List.foldlM_append]
          rw [foldFrames] at hlog
          simp [hlog, bind, Except.bind, hnext, pure, Except.pure]
      have := ih hone hrest
      simpa [lastContent] using this

/-- A snapshot of rows at the end of the log is what the storage loads as. -/
theorem Stored.write (hvalid : ∀ frame ∈ disk.log, frame.Valid C.kind)
    {rows : List C.Row} (hrep : C.Represents rows c) {frame : SnapshotFrame F}
    (hframe : reactiveCollectionSnapshotFrame C.kind ((disk.log.length : Int) - 1)
      (toValue rows) = .ok frame) :
    Stored C { disk with snapshot := some frame } c := by
  refine ⟨hvalid, frame, disk.log.length, rows, rows, c, rfl, Nat.le_refl _, hframe, hrep, ?_, hrep⟩
  rw [List.drop_length]
  rfl

/-- A stored content is loaded. -/
theorem Stored.load (h : Stored C disk c)
    (hnolog : setup.changeLog = false → disk.log = []) (hlen : disk.log.length ≤ 2 ^ 63) :
    ∃ restored, disk.load C setup = .ok restored ∧ C.Represents restored.state c ∧
      restored.cursor = lastSeq disk.log.length := by
  obtain ⟨hvalid, frame, k, rows, rows', c₀, hsnap, hk, hframe, hrep₀, hfold, hrep⟩ := h
  cases hlog : setup.changeLog with
  | true =>
    obtain ⟨restored, hload, hstate, hcursor⟩ := load_eq (C := C)
      (fun key => .ok (if key = setup.key then disk.snapshot else none))
      ⟨setup.storagePrefix, setup.snapshotKey, some fun after =>
        .ok ((logEntries setup.logPrefix disk.log).filter fun e => isAfter after e.seq)⟩
      setup.resolved (by rw [if_pos rfl, hsnap]) hframe rfl rfl hvalid hk hlen hfold hrep₀ hrep
    refine ⟨restored, ?_, hstate ▸ hrep, hcursor⟩
    rw [Disk.load, hlog]
    exact hload
  | false =>
    -- Without a log the snapshot is all there is.
    have hnil := hnolog hlog
    obtain rfl : k = 0 := by simpa [hnil] using hk
    obtain rfl : rows = rows' := by simpa [hnil, foldFrames, pure, Except.pure] using hfold
    have hfolded : foldCollectionChanges rows (lastSeq 0) none C.kind C.foldChange =
        .ok ⟨rows, lastSeq 0, -1, 0⟩ := rfl
    obtain ⟨restored, hload, hstate, hcursor, -⟩ := loadReactiveState_eq
      (loadCollectionSnapshot_eq
        (fun key => .ok (if key = setup.key then disk.snapshot else none))
        ⟨setup.storagePrefix, setup.snapshotKey, none⟩ setup.resolved
        (by rw [if_pos rfl, hsnap]) hframe)
      (C.unique_of_represents _ _ c₀ hrep₀) hfolded (C.unique_of_represents _ _ c hrep) rfl
    refine ⟨restored, ?_, by rw [hstate]; exact hrep, by rw [hcursor, hnil]; rfl⟩
    rw [Disk.load, hlog]
    exact hload

theorem load_empty (C : Collection F) (setup : Setup F) :
    ∃ restored, (⟨none, []⟩ : Disk F).load C setup = .ok restored ∧ restored.state = [] ∧
      restored.cursor = none ∧ restored.snapshotFound = false := by
  have hsnapshot : loadCollectionSnapshot (ρ := C.Row)
      (fun key => .ok (if key = setup.key then (⟨none, []⟩ : Disk F).snapshot else none))
      ⟨setup.storagePrefix, setup.snapshotKey, if setup.changeLog then
        some fun after => .ok ((logEntries setup.logPrefix (⟨none, []⟩ : Disk F).log).filter
          fun e => isAfter after e.seq) else none⟩ C.kind = .ok (none, none, false) :=
    loadCollectionSnapshot_none setup.resolved (by rw [if_pos rfl])
  have hfold : ∃ n, foldCollectionChanges ((none : Option (List C.Row)).getD []) none
      (if setup.changeLog then
        some fun after => .ok ((logEntries setup.logPrefix (⟨none, []⟩ : Disk F).log).filter
          fun e => isAfter after e.seq) else none) C.kind C.foldChange =
      .ok ⟨[], none, -1, n⟩ := by
    cases setup.changeLog <;> exact ⟨0, rfl⟩
  obtain ⟨n, hfold⟩ := hfold
  obtain ⟨restored, hload, hstate, hcursor, hfound, -⟩ := loadReactiveState_eq
    hsnapshot (C.unique_nil _) hfold (C.unique_nil _) rfl
  exact ⟨restored, hload, hstate, hcursor, hfound⟩

end GraphRefly.Collections
