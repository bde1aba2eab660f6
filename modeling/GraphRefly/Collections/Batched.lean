import GraphRefly.Collections.Restore
import GraphRefly.Wave.Batch

/-!
# Deltas Across Batches

What a subscriber of a collection's delta node sees when mutations are grouped in
batches. A mutation changes the backend at once. Its deltas go through the delta
node: outside a batch each one is delivered, inside a batch the node's slice is
held until the body returns, and a later slice replaces an earlier one. A commit
delivers the slice that is left and a rollback delivers none, but neither touches
the backend.

So a delta is lost when a batch emits two of them, which one append to a full
list does, and when a batch that emitted one is rolled back. Those are the only
ways: while every committed batch emits at most one delta and every rolled-back
batch none, the delivered deltas always lead to the current content.

## Main definitions

* `Act`: A mutation, or a batch of mutations and how it ends.
* `collectBatch`: What an open batch holds for the delta node.
* `Session`: The content and the deltas delivered so far.
* `Session.Faithful`: The delivered deltas lead to the content.
* `Whole`: No batch of a run emits more than it delivers.

## Theorems

* `collectBatch_eq`: Only the last delta is held.
* `deltas_lossless`: Whole runs lose nothing.
-/

namespace GraphRefly.Collections

open GraphRefly.Json GraphRefly.Storage

variable {F : Type} [Float64 F]

/-- How a batch ends. -/
inductive Finish
  | commit
  | rollback
  deriving DecidableEq

/-- One thing a caller does. A nested batch belongs to the outer one. -/
inductive Act (C : Collection F)
  | call (op : C.Op)
  | batch (ops : List C.Op) (finish : Finish)

/-- The content, and the deltas delivered to a subscriber. -/
structure Session (C : Collection F) where
  content : C.Content
  delivered : List C.Change

/-- The slices that a batch holds after its body made versions. -/
def collectBatch {C : Collection F} (delta : NodeId) (versions : List (C.Change × C.Content)) :
    List (NodeId × Wave C.Change) :=
  versions.foldl (fun held version => hold held delta [.data version.1]) []

/-- The values in a slice. -/
def dataOf {V : Type} (wave : Wave V) : List V :=
  wave.filterMap fun
    | .data v => some v
    | _ => none

/-- What the end of a batch delivers from the delta node. -/
def finishBatch {C : Collection F} (delta : NodeId) (held : List (NodeId × Wave C.Change)) :
    Finish → List C.Change
  | .commit => held.flatMap fun e => if e.1 = delta then dataOf e.2 else []
  | .rollback => []

namespace Session

variable {C : Collection F}

def step (delta : NodeId) (s : Session C) : Act C → Session C
  | .call op =>
    { content := Backend.final s.content (C.call s.content op)
      delivered := s.delivered ++ (C.call s.content op).map (·.1) }
  | .batch ops finish =>
    { content := Backend.final s.content (C.calls s.content ops)
      delivered := s.delivered ++
        finishBatch delta (collectBatch delta (C.calls s.content ops)) finish }

def run (delta : NodeId) (s : Session C) (acts : List (Act C)) : Session C :=
  acts.foldl (step delta) s

/-- The delivered deltas, applied in order to the content `c`, lead to the current
    content. -/
def Faithful (c : C.Content) (s : Session C) : Prop :=
  ∃ rows, s.delivered.foldlM C.fold (C.toRows c) = .ok rows ∧ C.Represents rows s.content

end Session

/-- Every committed batch of a run emits at most one delta, and every rolled-back
    batch none. -/
def Whole (C : Collection F) : C.Content → List (Act C) → Prop
  | _, [] => True
  | c, .call op :: acts => Whole C (Backend.final c (C.call c op)) acts
  | c, .batch ops finish :: acts =>
    (C.calls c ops).length ≤ (if finish = .commit then 1 else 0) ∧
      Whole C (Backend.final c (C.calls c ops)) acts

variable {C : Collection F}

/-- Only the last delta is held. -/
theorem collectBatch_eq (delta : NodeId)
    (versions : List (C.Change × C.Content)) (change : C.Change) (c : C.Content) :
    collectBatch delta (versions ++ [(change, c)]) = [(delta, [.data change])] := by
  -- Every slice so far is the delta node's, and there is at most one.
  have hheld : ∀ versions : List (C.Change × C.Content),
      collectBatch delta versions = [] ∨ ∃ w, collectBatch delta versions = [(delta, w)] := by
    intro versions
    induction versions using List.reverseRecOn with
    | nil => exact Or.inl rfl
    | append_singleton versions version ih =>
      right
      rw [collectBatch, List.foldl_append]
      change ∃ w, hold (collectBatch delta versions) delta [.data version.1] = [(delta, w)]
      rcases ih with hnil | ⟨w, hw⟩
      · exact ⟨_, by rw [hnil]; rfl⟩
      · exact ⟨[.data version.1], by simp [hw, hold]⟩
  rw [collectBatch, List.foldl_append]
  change hold (collectBatch delta versions) delta [.data change] = _
  rcases hheld versions with hnil | ⟨w, hw⟩
  · rw [hnil]
    rfl
  · simp [hw, hold]

variable {versions : List (C.Change × C.Content)}

theorem finishBatch_eq (delta : NodeId) {finish : Finish}
    (h : versions.length ≤ if finish = .commit then 1 else 0) :
    finishBatch delta (collectBatch delta versions) finish = versions.map (·.1) := by
  cases versions with
  | nil => cases finish <;> rfl
  | cons version versions =>
    cases finish with
    | rollback => simp at h
    | commit =>
      obtain rfl : versions = [] := by simpa using h
      rw [show [version] = [] ++ [(version.1, version.2)] from rfl, collectBatch_eq]
      simp [finishBatch, dataOf]

variable {c : C.Content} {s : Session C}

theorem Session.Faithful.deliver (h : s.Faithful c)
    (hfollows : Follows C.fold C.Represents s.content versions) :
    Session.Faithful c
      ⟨Backend.final s.content versions, s.delivered ++ versions.map (·.1)⟩ := by
  obtain ⟨rows, hfold, hrep⟩ := h
  obtain ⟨rows', hfold', hrep'⟩ := hfollows.foldlM hrep
  refine ⟨rows', ?_, hrep'⟩
  rw [List.foldlM_append, hfold]
  exact hfold'

variable {acts : List (Act C)}

theorem Session.Faithful.run (delta : NodeId) (h : s.Faithful c) (hwhole : Whole C s.content acts) :
    (s.run delta acts).Faithful c := by
  induction acts generalizing s with
  | nil => exact h
  | cons act acts ih =>
    cases act with
    | call op => exact ih (h.deliver (C.fold_follows s.content op)) hwhole
    | batch ops finish =>
      have hstep : s.step delta (.batch ops finish) =
          ⟨Backend.final s.content (C.calls s.content ops),
            s.delivered ++ (C.calls s.content ops).map (·.1)⟩ := by
        rw [Session.step, finishBatch_eq delta hwhole.1]
      have hnext := h.deliver (follows_calls C.fold_follows s.content ops)
      rw [← hstep] at hnext
      refine ih hnext ?_
      rw [hstep]
      exact hwhole.2

theorem Whole.take (h : Whole C c acts) (n : Nat) : Whole C c (acts.take n) := by
  induction acts generalizing c n with
  | nil => simpa using h
  | cons act acts ih =>
    cases n with
    | zero => trivial
    | succ n =>
      cases act with
      | call op => exact ih h n
      | batch ops finish => exact ⟨h.1, ih h.2 n⟩

/-- After every act of a run, the deltas delivered so far lead from the content at
    the start to the current one. -/
def Lossless (C : Collection F) (c : C.Content) (acts : List (Act C)) : Prop :=
  ∀ delta n, (Session.run delta ⟨c, []⟩ (acts.take n)).Faithful c

theorem Whole.lossless (h : Whole C c acts) : Lossless C c acts := by
  intro delta n
  have hstart : Session.Faithful c ⟨c, []⟩ := ⟨C.toRows c, rfl, C.represents_toRows c⟩
  exact hstart.run delta (h.take n)

/-- Whole runs of a list, a log, a map and an index lose nothing. -/
theorem deltas_lossless {T K S V : Type} [LinearOrder K] [LinearOrder S] [Serde F T]
    [Serde F K] [Serde F S] [Serde F V] [StrictJson F T] [StrictJson F K] [StrictJson F S]
    [StrictJson F V] (maxSize : Option ℕ+) :
    (∀ c acts, Whole (reactiveList F T maxSize) c acts →
      Lossless (reactiveList F T maxSize) c acts) ∧
    (∀ c acts, Whole (reactiveLog F T maxSize) c acts →
      Lossless (reactiveLog F T maxSize) c acts) ∧
    (∀ c acts, Whole (reactiveMap F K V) c acts → Lossless (reactiveMap F K V) c acts) ∧
    (∀ c acts, Whole (reactiveIndex F K S V) c acts → Lossless (reactiveIndex F K S V) c acts) :=
  ⟨fun _ _ => Whole.lossless, fun _ _ => Whole.lossless, fun _ _ => Whole.lossless,
    fun _ _ => Whole.lossless⟩

/-- An append in a committed batch, and an insert outside one that trims. -/
theorem deltas_lossless_pair :
    Whole pairOfFlags [] [.batch [.append true] .commit, .call (.append false),
        .call (.insert 0 true)] ∧
      Lossless pairOfFlags [] [.batch [.append true] .commit, .call (.append false),
        .call (.insert 0 true)] := by
  have hwhole : Whole pairOfFlags [] [.batch [.append true] .commit, .call (.append false),
      .call (.insert 0 true)] := ⟨Nat.le_refl 1, trivial⟩
  exact ⟨hwhole, (deltas_lossless (F := Empty) (T := Bool) (K := Bool) (S := Bool) (V := Bool)
    (some 2)).1 _ _ hwhole⟩

/-- Two appends in one committed batch: the first delta is never delivered. -/
theorem batched_appends_lose_a_delta :
    ¬ Lossless (reactiveList Empty Bool none) []
      [.batch [.append true, .append false] .commit] := by
  intro h
  obtain ⟨rows, hfold, hrep⟩ := h 0 1
  have hrows : [false] = rows := Except.ok.inj hfold
  have hcontent : rows = [true, false] := hrep
  have hlength := congrArg List.length (hrows.trans hcontent)
  exact absurd hlength (by decide)

end GraphRefly.Collections
