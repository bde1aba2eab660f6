import GraphRefly.Core.Restore
import GraphRefly.Rewire.Matching
import GraphRefly.Rewire.Stage
import GraphRefly.Safety.Terminal
import GraphRefly.Wave.Network
import Mathlib.Data.Finset.Card

/-!
# The Per-Dep Bookkeeping

A node keeps eleven arrays with one entry for each dep, and a counter of the
deps that are dirty. While a rewire drains the removed deps, the counter has
already given up those that are drained and were dirty; their marks stay until
the arrays are rebuilt.

So the counter and the marks agree again after the rewire, provided that no
panic leaves the draining half done with a given-up mark still set, that no dep
message reaches a mark that was given up, and that a node is only restored while
it has its unsubscribers.

## Main definitions

* `DepState.Sized`, `Node.Booked`: The arrays fit, and the counter counts.
* `DepState.owing`: The dirty deps the counter stands for.
* `Config.drainedOf`: The deps of a node that a rewire has drained.
* `Node.togglesDirty`: The messages that change a dirty mark.
* `Config.KeepsCount`, `Config.CountedStep`: The condition on a step.

## Theorems

* `receive_owing`: A dep message keeps the counter.
* `card_owing_rewired`: Rebuilding the arrays keeps the counter.
* `dep_bookkeeping`: Runs that meet the condition keep the books.
* `dirty_without_pending`: A run that does not.
-/

namespace GraphRefly

open List

variable {V S : Type}

/-! ### The arrays -/

namespace DepState

/-- Every array has `k` entries. -/
structure Sized (d : DepState V) (k : Nat) : Prop where
  batch : d.batch.length = k
  batchWaves : d.batchWaves.length = k
  batchWaveId : d.batchWaveId.length = k
  prev : d.prev.length = k
  hasData : d.hasData.length = k
  dirty : d.dirty.length = k
  tier : d.tier.length = k
  terminal : d.terminal.length = k
  terminalWave : d.terminalWave.length = k

variable {d : DepState V} {k : Nat}

theorem sized_new (k : Nat) : (new k : DepState V).Sized k := by
  constructor <;> exact length_replicate

theorem Sized.recordInWave (h : d.Sized k) (deliveryId i : Nat) (items : List (WaveData V)) :
    (d.recordInWave deliveryId i items).Sized k := by
  unfold DepState.recordInWave
  dsimp only
  split_ifs
  · exact { h with batchWaves := by rw [length_set, h.batchWaves] }
  · exact { h with
      batchWaves := by rw [length_set, h.batchWaves]
      batchWaveId := by rw [length_set, h.batchWaveId] }

theorem Sized.clearWaveProjection (h : d.Sized k) (i : Nat) :
    (d.clearWaveProjection i).Sized k :=
  { h with
    batchWaves := by rw [DepState.clearWaveProjection, length_set, h.batchWaves]
    batchWaveId := by rw [DepState.clearWaveProjection, length_set, h.batchWaveId] }

theorem Sized.undirty (h : d.Sized k) (i : Nat) : (d.undirty i).Sized k := by
  unfold DepState.undirty
  split_ifs
  · exact { h with dirty := by rw [length_set, h.dirty] }
  · exact h

theorem Sized.taken (h : d.Sized k) (n : Nat) : (d.taken n).Sized k :=
  { h with
    batchWaves := by rw [DepState.taken, length_mapIdx, h.batchWaves]
    batchWaveId := by rw [DepState.taken, length_mapIdx, h.batchWaveId]
    terminalWave := by rw [DepState.taken, length_mapIdx, h.terminalWave] }

theorem Sized.rolled (h : d.Sized k) : d.rolled.Sized k :=
  { h with
    prev := by rw [DepState.rolled, length_mapIdx, h.prev]
    batch := by rw [DepState.rolled, length_map, h.batch] }

theorem Sized.resetWave (h : d.Sized k) (n : Nat) : (d.resetWave n).Sized k :=
  { h with
    batch := by rw [DepState.resetWave, length_mapIdx, h.batch]
    batchWaves := by rw [DepState.resetWave, length_mapIdx, h.batchWaves]
    batchWaveId := by rw [DepState.resetWave, length_mapIdx, h.batchWaveId]
    terminalWave := by rw [DepState.resetWave, length_mapIdx, h.terminalWave]
    dirty := by rw [DepState.resetWave, length_mapIdx, h.dirty] }

theorem Sized.wiped (h : d.Sized k) (n : Nat) : (d.wiped n).Sized k where
  batch := by rw [DepState.wiped, length_mapIdx, h.batch]
  batchWaves := by rw [DepState.wiped, length_mapIdx, h.batchWaves]
  batchWaveId := by rw [DepState.wiped, length_mapIdx, h.batchWaveId]
  prev := by rw [DepState.wiped, length_mapIdx, h.prev]
  hasData := by rw [DepState.wiped, length_mapIdx, h.hasData]
  dirty := by rw [DepState.wiped, length_mapIdx, h.dirty]
  tier := by rw [DepState.wiped, length_mapIdx, h.tier]
  terminal := by rw [DepState.wiped, length_mapIdx, h.terminal]
  terminalWave := by rw [DepState.wiped, length_mapIdx, h.terminalWave]

theorem sized_rewired (d : DepState V) (kept : List (Option Nat)) :
    (d.rewired kept).Sized kept.length := by
  constructor <;> exact length_map _

end DepState

namespace Node

variable {x : Node V S}

section

variable (x : Node V S) (b : Bool)

theorem setMaybeRunAction_dep (a : ReceiveAction V) : (x.setMaybeRunAction b a).1.dep = x.dep := by
  unfold setMaybeRunAction
  split_ifs
  · rfl
  · exact Node.dep_of_kernel (congrArg Prod.snd x.decideMaybeRun_guise)

theorem settleReceived_dep : (x.settleReceived b).1.dep = x.dep := by
  have hnote : x.noteSkippedWave.dep = x.dep := by
    unfold noteSkippedWave
    split_ifs <;> rfl
  unfold settleReceived
  dsimp only
  split_ifs
  · exact (x.noteSkippedWave.setMaybeRunAction_dep b _).trans hnote
  · exact hnote

/-- The bookkeeping a terminal message leaves. -/
theorem receiveTerminal_dep (i : Nat) (t : DepTerminal) :
    (x.receiveTerminal b i t).1.dep = ({ x.dep with
      terminal := x.dep.terminal.set i (some t)
      terminalWave := x.dep.terminalWave.set i (some t) } : DepState V).undirty i := by
  unfold receiveTerminal
  dsimp only
  split
  · rfl
  · split_ifs
    · exact setMaybeRunAction_dep { x with dep := _ } b _
    · rfl
    · rfl

end

/-- Receiving a dep message keeps the sizes. -/
theorem receive_sized {k : Nat} (h : x.dep.Sized k) (d : Nat) (b : Bool) (i : Nat)
    (m : Message V) : (x.receive d b i m).1.dep.Sized k := by
  have hterm : ∀ t, ((x.receiveTerminal b i t).1.dep).Sized k := by
    intro t
    rw [receiveTerminal_dep]
    refine DepState.Sized.undirty ?_ i
    exact { h with
      terminal := by rw [length_set, h.terminal]
      terminalWave := by rw [length_set, h.terminalWave] }
  unfold receive
  split_ifs
  · cases m <;> exact h
  · cases m with
    | dirty =>
      simp only [receiveDirty]
      split_ifs
      · exact h
      all_goals exact { h with
        dirty := by rw [length_set, h.dirty]
        tier := by rw [length_set, h.tier] }
    | data v =>
      simp only [receiveData]
      split_ifs
      · exact { h with
          prev := by rw [length_set, h.prev]
          hasData := by rw [length_set, h.hasData]
          tier := by rw [length_set, h.tier]
          batch := by rw [length_set, h.batch] }
      · rw [settleReceived_dep]
        refine DepState.Sized.undirty ?_ i
        have hbatch : DepState.Sized { x.dep with
            batch := x.dep.batch.set i (some ((x.dep.batch.getD i none).getD [] ++ [v])) } k :=
          { h with batch := by rw [length_set, h.batch] }
        have hrec := hbatch.recordInWave d i [.data v]
        exact { hrec with
          hasData := by rw [length_set]; exact hrec.hasData
          tier := by rw [length_set]; exact hrec.tier }
    | resolved =>
      simp only [receiveResolved]
      rw [settleReceived_dep]
      refine DepState.Sized.undirty ?_ i
      have hrec := h.recordInWave d i []
      exact { hrec with tier := by rw [length_set]; exact hrec.tier }
    | invalidate =>
      simp only [receiveInvalidate]
      refine DepState.Sized.undirty ?_ i
      have hforget : DepState.Sized { x.dep with
          prev := x.dep.prev.set i none
          hasData := x.dep.hasData.set i false
          batch := x.dep.batch.set i none } k :=
        { h with
          prev := by rw [length_set, h.prev]
          hasData := by rw [length_set, h.hasData]
          batch := by rw [length_set, h.batch] }
      have hrec := hforget.recordInWave d i [.sentinel]
      split_ifs
      · exact hrec.clearWaveProjection i
      · exact hrec
    | complete => exact hterm .complete
    | error e => exact hterm (.error e)
    | _ => exact h

end Node

/-! ### The counter -/

namespace DepState

variable {d d' : DepState V} {i j : Nat} {done : List Nat}

/-- The dirty deps the counter stands for when those in `done` were given up. -/
def owing (d : DepState V) (done : List Nat) : Finset Nat :=
  (Finset.range d.dirty.length).filter fun i => d.dirtyAt i = true ∧ i ∉ done

theorem dirtyAt_lt_length (h : d.dirtyAt i = true) : i < d.dirty.length := by
  by_contra hi
  rw [dirtyAt, getD_eq_default _ _ (by omega)] at h
  cases h

theorem mem_owing : i ∈ d.owing done ↔ d.dirtyAt i = true ∧ i ∉ done := by
  rw [owing, Finset.mem_filter, Finset.mem_range]
  exact ⟨fun h => h.2, fun h => ⟨dirtyAt_lt_length h.1, h⟩⟩

theorem owing_congr (h : d'.dirty = d.dirty) : d'.owing done = d.owing done := by
  unfold owing dirtyAt
  rw [h]

theorem owing_eq_empty (h : ∀ i, d.dirtyAt i = false) : d.owing done = ∅ := by
  refine Finset.eq_empty_of_forall_notMem ?_
  intro i hi
  rw [mem_owing, h i] at hi
  cases hi.1

/-- A dep that was not given up becomes dirty. -/
theorem card_owing_mark (hi : i < d.dirty.length) (hd : d.dirtyAt i = false) (hdone : i ∉ done)
    (h : d'.dirty = d.dirty.set i true) : (d'.owing done).card = (d.owing done).card + 1 := by
  have hnot : i ∉ d.owing done := by
    rw [mem_owing, hd]
    exact fun h => Bool.false_ne_true h.1
  rw [← Finset.card_insert_of_notMem hnot]
  congr 1
  ext j
  have hset : d'.dirtyAt j = if j = i then true else d.dirtyAt j := by
    rw [← dirtyAt_set (d := d) true hi]
    unfold dirtyAt
    rw [h]
  rw [Finset.mem_insert, mem_owing, mem_owing, hset]
  by_cases hj : j = i
  · subst hj
    simp [hdone]
  · simp [hj]

/-- A dirty dep that was not given up settles. -/
theorem card_owing_clear (hd : d.dirtyAt i = true) (hdone : i ∉ done)
    (h : d'.dirty = d.dirty.set i false) : (d.owing done).card = (d'.owing done).card + 1 := by
  have hmem : i ∈ d.owing done := mem_owing.mpr ⟨hd, hdone⟩
  rw [← Finset.card_erase_add_one hmem]
  congr 2
  ext j
  have hset : d'.dirtyAt j = if j = i then false else d.dirtyAt j := by
    rw [← dirtyAt_set (d := d) false (dirtyAt_lt_length hd)]
    unfold dirtyAt
    rw [h]
  rw [Finset.mem_erase, mem_owing, mem_owing, hset]
  by_cases hj : j = i
  · simp [hj]
  · simp [hj]

theorem card_owing_concat (hi : i ∉ done) :
    ((d.owing (done ++ [i])).card : Int) =
      (d.owing done).card - if d.dirtyAt i = true then 1 else 0 := by
  have hset : d.owing (done ++ [i]) = (d.owing done).erase i := by
    ext j
    rw [Finset.mem_erase, mem_owing, mem_owing, mem_append, mem_singleton, not_or]
    tauto
  rw [hset]
  split_ifs with hd
  · have hmem : i ∈ d.owing done := mem_owing.mpr ⟨hd, hi⟩
    have := Finset.card_erase_add_one hmem
    omega
  · rw [Finset.erase_eq_of_notMem]
    · omega
    · rw [mem_owing]
      exact fun h => hd h.1

/-- Deps that are not dirty need not be given up. -/
theorem owing_of_clean (h : ∀ i ∈ done, d.dirtyAt i = false) : d.owing done = d.owing [] := by
  ext j
  rw [mem_owing, mem_owing]
  constructor
  · exact fun hj => ⟨hj.1, not_mem_nil⟩
  · intro hj
    refine ⟨hj.1, ?_⟩
    intro hmem
    rw [h j hmem] at hj
    cases hj.1

end DepState

namespace Node

/-- The message changes the dirty mark of dep `i` of a node that takes it in. -/
def togglesMark (x : Node V S) (i : Nat) : Message V → Bool
  | .dirty => !x.dep.dirtyAt i
  | .data _ => x.dep.dirtyAt i && !x.restoredHandshake.getD i false
  | .resolved => x.dep.dirtyAt i
  | .invalidate => x.dep.dirtyAt i
  | .complete => x.dep.dirtyAt i
  | .error _ => x.dep.dirtyAt i
  | _ => false

/-- The message changes the dirty mark of dep `i`. A terminated node takes
    nothing in. -/
def togglesDirty (x : Node V S) (i : Nat) (m : Message V) : Bool :=
  !x.value.terminal && x.togglesMark i m

/-- What a dep message does to the marks and the counter: nothing, one mark
    more, or one mark less. -/
structure Counts (x y : Node V S) (i : Nat) (toggles : Bool) : Prop where
  keeps : toggles = false → y.dep.dirty = x.dep.dirty ∧ y.dep.pending = x.dep.pending
  marks : toggles = true → x.dep.dirtyAt i = false →
    y.dep.dirty = x.dep.dirty.set i true ∧ y.dep.pending = x.dep.pending + 1
  clears : toggles = true → x.dep.dirtyAt i = true →
    y.dep.dirty = x.dep.dirty.set i false ∧ y.dep.pending = x.dep.pending - 1

variable {x : Node V S}

/-- A node that forgets the mark of dep `i`, if there is one. -/
theorem Counts.of_undirty {y : Node V S} {i : Nat} (d : DepState V)
    (hd : d.dirty = x.dep.dirty) (hp : d.pending = x.dep.pending) (hy : y.dep = d.undirty i) :
    Counts x y i (x.dep.dirtyAt i) := by
  have hat : d.dirty.getD i false = x.dep.dirtyAt i := by rw [hd, DepState.dirtyAt]
  refine ⟨?_, ?_, ?_⟩
  · intro hno
    rw [hy, DepState.undirty, hat, hno, if_neg Bool.false_ne_true]
    exact ⟨hd, hp⟩
  · intro hyes hno
    rw [hyes] at hno
    cases hno
  · intro hyes _
    rw [hy, DepState.undirty, hat, hyes, if_pos rfl, ← hd, ← hp]
    exact ⟨rfl, rfl⟩

theorem Counts.of_same {y : Node V S} {i : Nat} (hd : y.dep.dirty = x.dep.dirty)
    (hp : y.dep.pending = x.dep.pending) : Counts x y i false :=
  ⟨fun _ => ⟨hd, hp⟩, fun h => (by cases h), fun h => (by cases h)⟩

theorem recordInWave_counts (d : DepState V) (deliveryId i : Nat) (items : List (WaveData V)) :
    (d.recordInWave deliveryId i items).dirty = d.dirty ∧
      (d.recordInWave deliveryId i items).pending = d.pending := by
  unfold DepState.recordInWave
  dsimp only
  split_ifs <;> exact ⟨rfl, rfl⟩

/-- A dep message changes the marks and the counter together. -/
theorem receive_counts (x : Node V S) (d : Nat) (b : Bool) (i : Nat) (m : Message V) :
    Counts x (x.receive d b i m).1 i (x.togglesDirty i m) := by
  cases ht : x.value.terminal with
  | true =>
    have htog : x.togglesDirty i m = false := by
      rw [togglesDirty, ht, Bool.not_true, Bool.false_and]
    rw [htog]
    rcases x.receive_of_terminal ht d b i m with h | h <;> rw [h] <;> exact .of_same rfl rfl
  | false =>
    have htog : x.togglesDirty i m = x.togglesMark i m := by
      rw [togglesDirty, ht, Bool.not_false, Bool.true_and]
    have hterm : ∀ t, Counts x (x.receiveTerminal b i t).1 i (x.dep.dirtyAt i) := by
      intro t
      refine .of_undirty _ ?_ ?_ (receiveTerminal_dep x b i t)
      · rfl
      · rfl
    rw [htog]
    unfold receive
    rw [if_neg (by rw [ht]; exact Bool.false_ne_true)]
    cases m with
    | dirty =>
      simp only [receiveDirty, togglesMark]
      split_ifs with hd
      · rw [DepState.dirtyAt, hd]
        exact .of_same rfl rfl
      all_goals
        rw [DepState.dirtyAt, Bool.eq_false_iff.mpr hd]
        refine ⟨fun h => (by cases h), fun _ _ => ⟨rfl, rfl⟩, ?_⟩
        intro _ hyes
        exact absurd hyes hd
    | data v =>
      simp only [receiveData, togglesMark]
      split_ifs with hr
      · rw [hr, Bool.not_true, Bool.and_false]
        exact .of_same rfl rfl
      · rw [Bool.eq_false_iff.mpr hr, Bool.not_false, Bool.and_true]
        have hrec := recordInWave_counts { x.dep with
          batch := x.dep.batch.set i (some ((x.dep.batch.getD i none).getD [] ++ [v])) }
          d i [.data v]
        refine .of_undirty _ ?_ ?_ (settleReceived_dep _ b)
        · exact hrec.1
        · exact hrec.2
    | resolved =>
      have hrec := recordInWave_counts x.dep d i []
      refine .of_undirty _ ?_ ?_ (settleReceived_dep _ b)
      · exact hrec.1
      · exact hrec.2
    | invalidate =>
      have hrec := recordInWave_counts { x.dep with
        prev := x.dep.prev.set i none
        hasData := x.dep.hasData.set i false
        batch := x.dep.batch.set i none } d i [.sentinel]
      simp only [receiveInvalidate, togglesMark]
      split_ifs
      all_goals
        refine .of_undirty _ ?_ ?_ rfl
        · exact hrec.1
        · exact hrec.2
    | complete => exact hterm .complete
    | error e => exact hterm (.error e)
    | _ => exact .of_same rfl rfl

/-- A dep message keeps the counter when it does not change a mark that was
    given up. -/
theorem receive_owing {done : List Nat} (d : Nat) (b : Bool) (i : Nat)
    (m : Message V) (hi : x.readsDep m = true → x.hasDepIndex i = true)
    (hdone : x.togglesDirty i m = true → i ∉ done) (h : x.dep.pending = (x.dep.owing done).card) :
    (x.receive d b i m).1.dep.pending = ((x.receive d b i m).1.dep.owing done).card := by
  have hcounts := x.receive_counts d b i m
  cases ht : x.togglesDirty i m with
  | false =>
    have hsame := hcounts.keeps ht
    rw [hsame.2, h, DepState.owing_congr hsame.1]
  | true =>
    have hnot := hdone ht
    cases hd : x.dep.dirtyAt i with
    | false =>
      have hmark := hcounts.marks ht hd
      have hlt : i < x.dep.dirty.length := by
        have hread : x.readsDep m = true := by
          rw [togglesDirty, Bool.and_eq_true] at ht
          cases m <;> first
            | exact (Bool.and_true _).trans ht.1
            | exact absurd ht.2 Bool.false_ne_true
        simpa [hasDepIndex] using hi hread
      rw [hmark.2, h, DepState.card_owing_mark hlt hd hnot hmark.1]
      push_cast
      rfl
    | true =>
      have hclear := hcounts.clears ht hd
      have hcard := DepState.card_owing_clear hd hnot hclear.1
      rw [hclear.2, h]
      omega

end Node

namespace DepState

open Config

/-- A position of the rebuilt arrays is dirty iff it keeps one that was. -/
theorem dirtyAt_rewired (d : DepState V) (oldDeps newDeps : List NodeId) (j : Nat) :
    (d.rewired (newToOld oldDeps newDeps)).dirtyAt j = true ↔
      ∃ i, Keeps oldDeps newDeps j i ∧ d.dirtyAt i = true := by
  unfold dirtyAt rewired Keeps
  rw [getD_eq_getElem?_getD, List.getElem?_map]
  cases h : (newToOld oldDeps newDeps)[j]? with
  | none => simp
  | some o =>
    cases o with
    | none => simp
    | some i => simp

/-- The counter stands for the kept deps, so rebuilding the arrays keeps it. -/
theorem card_owing_rewired (d : DepState V) {oldDeps newDeps : List NodeId}
    (hnew : newDeps.Nodup) (hlen : d.dirty.length = oldDeps.length) :
    ((d.rewired (newToOld oldDeps newDeps)).owing []).card =
      (d.owing (removedIdxs oldDeps newDeps)).card := by
  refine Finset.card_bij (fun j _ => ((newToOld oldDeps newDeps)[j]?.join).getD 0) ?_ ?_ ?_
  · -- A dirty new position keeps a dirty old one, which is not removed.
    intro j hj
    rcases (dirtyAt_rewired d oldDeps newDeps j).mp (mem_owing.mp hj).1 with ⟨i, hk, hd⟩
    have hval : ((newToOld oldDeps newDeps)[j]?.join).getD 0 = i := by
      rw [Keeps] at hk
      rw [hk]
      rfl
    rw [hval, mem_owing]
    refine ⟨hd, ?_⟩
    intro hmem
    exact (mem_removedIdxs_iff.mp hmem).2 j hk
  · intro j hj j' hj' heq
    rcases (dirtyAt_rewired d oldDeps newDeps j).mp (mem_owing.mp hj).1 with ⟨i, hk, _⟩
    rcases (dirtyAt_rewired d oldDeps newDeps j').mp (mem_owing.mp hj').1 with ⟨i', hk', _⟩
    have hii : i = i' := by
      unfold Keeps at hk hk'
      rw [hk, hk'] at heq
      exact heq
    subst hii
    exact keeps_injective hnew hk hk'
  · intro i hi
    rcases mem_owing.mp hi with ⟨hd, hnot⟩
    have hlt : i < oldDeps.length := hlen ▸ dirtyAt_lt_length hd
    have hkept : ∃ j, Keeps oldDeps newDeps j i := by
      by_contra hno
      exact hnot (mem_removedIdxs_iff.mpr ⟨hlt, fun j hj => hno ⟨j, hj⟩⟩)
    rcases hkept with ⟨j, hk⟩
    refine ⟨j, mem_owing.mpr ⟨?_, not_mem_nil⟩, ?_⟩
    · exact (dirtyAt_rewired d oldDeps newDeps j).mpr ⟨i, hk, hd⟩
    · rw [Keeps] at hk
      rw [hk]
      rfl

/-- The reset of the wave-transient part forgets every mark. -/
theorem dirtyAt_mapIdx_false {d' : DepState V} {d : DepState V} {k : Nat}
    (h : d'.dirty = d.dirty.mapIdx fun i b => if i < k then false else b)
    (hk : d.dirty.length = k) (i : Nat) : d'.dirtyAt i = false := by
  rw [dirtyAt, h, getD_eq_getElem?_getD, List.getElem?_mapIdx]
  by_cases hi : i < d.dirty.length
  · rw [List.getElem?_eq_getElem hi, Option.map_some, Option.getD_some, if_pos (hk ▸ hi)]
  · rw [List.getElem?_eq_none (by omega)]
    rfl

end DepState

/-! ### The books of a node -/

/-- The per-dep arrays fit the dep list, and the counter counts the dirty
    deps. -/
structure Node.Booked (x : Node V S) : Prop where
  sized : x.dep.Sized x.deps.length
  handshake : x.restoredHandshake.length = x.deps.length
  active : x.aux.activated = true →
    x.unsubs.length = x.deps.length ∧ x.idxBoxes.length = x.deps.length
  pending : x.dep.pending = (x.dep.owing []).card

/-- The sizes alone. They fit at any time, also while a rewire is under way. -/
structure Node.Fitted (x : Node V S) : Prop where
  sized : x.dep.Sized x.deps.length
  handshake : x.restoredHandshake.length = x.deps.length
  boxes : x.live = true → x.unsubs.length = x.idxBoxes.length
  active : x.live = true → x.aux.activated = true → x.unsubs.length = x.deps.length

theorem Node.Fitted.of_kernel {x y : Node V S} (h : x.Fitted) (hy : y.kernel = x.kernel) :
    y.Fitted where
  sized := by
    rw [Node.dep_of_kernel hy, Node.deps_of_kernel hy]
    exact h.sized
  handshake := by
    rw [Node.restoredHandshake_of_kernel hy, Node.deps_of_kernel hy]
    exact h.handshake
  boxes := by
    rw [Node.live_of_kernel hy, Node.unsubs_of_kernel hy, Node.idxBoxes_of_kernel hy]
    exact h.boxes
  active := by
    rw [Node.live_of_kernel hy, Node.activated_of_kernel hy, Node.unsubs_of_kernel hy,
      Node.deps_of_kernel hy]
    exact h.active

namespace Node

/-- Everything of a slot that the sizes do not depend on may change. -/
theorem Fitted.of_dep {x y : Node V S} (h : x.Fitted) (hdep : y.dep.Sized x.deps.length)
    (hdeps : y.deps = x.deps) (hr : y.restoredHandshake = x.restoredHandshake)
    (hlive : y.live = x.live) (hu : y.unsubs = x.unsubs) (hb : y.idxBoxes = x.idxBoxes)
    (ha : y.aux.activated = x.aux.activated) : y.Fitted where
  sized := by
    rw [hdeps]
    exact hdep
  handshake := by
    rw [hr, hdeps]
    exact h.handshake
  boxes := by
    rw [hlive, hu, hb]
    exact h.boxes
  active := by
    rw [hlive, ha, hu, hdeps]
    exact h.active

/-- What no dep message changes besides the ports. -/
theorem receive_edges (x : Node V S) (d : Nat) (b : Bool) (i : Nat) (m : Message V) :
    (x.receive d b i m).1.restoredHandshake = x.restoredHandshake ∧
      (x.receive d b i m).1.unsubs = x.unsubs ∧
      (x.receive d b i m).1.idxBoxes = x.idxBoxes ∧
      (x.receive d b i m).1.aux.activated = x.aux.activated := by
  have hmaybe : ∀ (y : Node V S) (a : ReceiveAction V),
      (y.setMaybeRunAction b a).1.restoredHandshake = y.restoredHandshake ∧
        (y.setMaybeRunAction b a).1.unsubs = y.unsubs ∧
        (y.setMaybeRunAction b a).1.idxBoxes = y.idxBoxes ∧
        (y.setMaybeRunAction b a).1.aux.activated = y.aux.activated := by
    intro y a
    unfold setMaybeRunAction
    split_ifs
    · exact ⟨rfl, rfl, rfl, rfl⟩
    · have h := congrArg Prod.snd y.decideMaybeRun_guise
      exact ⟨Node.restoredHandshake_of_kernel h, Node.unsubs_of_kernel h,
        Node.idxBoxes_of_kernel h, Node.activated_of_kernel h⟩
  have hsettle : ∀ y : Node V S,
      (y.settleReceived b).1.restoredHandshake = y.restoredHandshake ∧
        (y.settleReceived b).1.unsubs = y.unsubs ∧
        (y.settleReceived b).1.idxBoxes = y.idxBoxes ∧
        (y.settleReceived b).1.aux.activated = y.aux.activated := by
    intro y
    have hnote : y.noteSkippedWave.restoredHandshake = y.restoredHandshake ∧
        y.noteSkippedWave.unsubs = y.unsubs ∧ y.noteSkippedWave.idxBoxes = y.idxBoxes ∧
        y.noteSkippedWave.aux.activated = y.aux.activated := by
      unfold noteSkippedWave
      split_ifs <;> exact ⟨rfl, rfl, rfl, rfl⟩
    unfold settleReceived
    dsimp only
    split_ifs
    · have h := hmaybe y.noteSkippedWave { fireDemand := true }
      exact ⟨h.1.trans hnote.1, h.2.1.trans hnote.2.1, h.2.2.1.trans hnote.2.2.1,
        h.2.2.2.trans hnote.2.2.2⟩
    · exact hnote
  have hterm : ∀ t, (x.receiveTerminal b i t).1.restoredHandshake = x.restoredHandshake ∧
      (x.receiveTerminal b i t).1.unsubs = x.unsubs ∧
      (x.receiveTerminal b i t).1.idxBoxes = x.idxBoxes ∧
      (x.receiveTerminal b i t).1.aux.activated = x.aux.activated := by
    intro t
    unfold receiveTerminal
    dsimp only
    split
    · exact ⟨rfl, rfl, rfl, rfl⟩
    · split_ifs
      · exact hmaybe { x with dep := _ } _
      · exact ⟨rfl, rfl, rfl, rfl⟩
      · exact ⟨rfl, rfl, rfl, rfl⟩
  unfold receive
  split_ifs
  · cases m <;> exact ⟨rfl, rfl, rfl, rfl⟩
  · cases m with
    | dirty =>
      simp only [receiveDirty]
      split_ifs <;> exact ⟨rfl, rfl, rfl, rfl⟩
    | data v =>
      simp only [receiveData]
      split_ifs
      · exact ⟨rfl, rfl, rfl, rfl⟩
      · exact hsettle { x with dep := _ }
    | resolved => exact hsettle { x with dep := _ }
    | complete => exact hterm .complete
    | error e => exact hterm (.error e)
    | _ => exact ⟨rfl, rfl, rfl, rfl⟩

theorem collectDown_dep (x : Node V S) (m : Message V) :
    (x.collectDown m).1.kernel = ({ x with value := (x.collectDown m).1.value }).kernel := by
  cases m with
  | dirty | invalidate | complete | error _ =>
    simp only [collectDown]
    split_ifs <;> rfl
  | _ => rfl

end Node

namespace Config

/-- The sizes of a slot fit after every step. -/
theorem SlotStep.fitted {c : Config V S} {n : NodeId} {y : Node V S} {s : Nat}
    (h : SlotStep c n y s) (hx : (c.nodes n).Fitted) : y.Fitted := by
  cases h with
  | idle h => exact hx.of_kernel h
  | received _ _ _ _ d b i m _ _ _ _ h =>
    rw [h]
    have hports := (c.nodes n).receive_ports d b i m
    have hedges := (c.nodes n).receive_edges d b i m
    exact hx.of_dep (Node.receive_sized hx.sized d b i m) (congrArg (·.1.1) hports) hedges.1
      (congrArg (·.1.2) hports) hedges.2.1 hedges.2.2.1 hedges.2.2.2
  | relayed _ v h =>
    rw [h]
    refine hx.of_dep (DepState.Sized.clearWaveProjection ?_ 0) rfl rfl rfl rfl rfl rfl
    refine { hx.sized with batch := ?_, prev := ?_ }
    · exact length_set.trans hx.sized.batch
    · dsimp only
      split_ifs
      · rw [length_set, hx.sized.prev]
      · exact hx.sized.prev
  | started _ h =>
    rw [h]
    exact hx.of_dep (hx.sized.taken _) rfl rfl rfl rfl rfl rfl
  | rolled keep h =>
    rw [h]
    exact hx.of_dep hx.sized.rolled rfl rfl rfl rfl rfl rfl
  | reset h =>
    rw [h]
    exact hx.of_dep (hx.sized.resetWave _) rfl rfl rfl rfl rfl rfl
  | dirtied _ h =>
    have hv : ({ c.nodes n with value := { (c.nodes n).value with status := .dirty } } :
        Node V S).Fitted := hx.of_dep hx.sized rfl rfl rfl rfl rfl rfl
    exact hv.of_kernel h
  | told m _ _ h =>
    have hv : ({ c.nodes n with value := ((c.nodes n).collectDown m).1.value } :
        Node V S).Fitted := hx.of_dep hx.sized rfl rfl rfl rfl rfl rfl
    rw [h]
    exact hv.of_kernel ((c.nodes n).collectDown_dep m)
  | invalidated _ h =>
    rw [h]
    exact hx.of_dep hx.sized rfl rfl rfl rfl rfl rfl
  | deactivated _ h =>
    rw [h]
    refine ⟨hx.sized.wiped _, ?_, fun _ => rfl, fun _ ha => ?_⟩
    · exact (length_map _).trans hx.handshake
    · cases ha
  | activated _ _ h =>
    rw [h]
    refine ⟨hx.sized, hx.handshake, fun _ => ?_, fun _ _ => length_replicate⟩
    exact length_replicate.trans length_replicate.symm
  | linked i d id box _ _ h =>
    rw [h]
    refine ⟨hx.sized, ?_, ?_, ?_⟩
    · rw [length_set, hx.handshake]
    · intro hl
      rw [length_set, length_set]
      exact hx.boxes hl
    · intro hl ha
      rw [length_set]
      exact hx.active hl ha
  | created spec _ _ h =>
    rw [h]
    refine ⟨DepState.sized_new _, length_replicate, fun _ => ?_, fun _ ha => ?_⟩
    · exact length_replicate.trans length_replicate.symm
    · cases ha
  | dropped _ h =>
    have hv : ({ c.nodes n with live := false, unsubs := [] } : Node V S).Fitted :=
      ⟨hx.sized, hx.handshake, fun hl => (by cases hl), fun hl => (by cases hl)⟩
    exact hv.of_kernel h
  | swapped newDeps f _ h =>
    have hv : ({ c.nodes n with wave := { (c.nodes n).wave with
        inDepMutation := !decide ((c.nodes n).deps = newDeps) } } : Node V S).Fitted :=
      hx.of_dep hx.sized rfl rfl rfl rfl rfl rfl
    exact hv.of_kernel h
  | removed _ _ _ _ i _ _ h =>
    rw [h]
    refine ⟨?_, hx.handshake, ?_, ?_⟩
    · dsimp only
      split_ifs
      · exact { hx.sized with }
      · exact hx.sized
    · intro hl
      rw [length_set]
      exact hx.boxes hl
    · intro hl ha
      rw [length_set]
      exact hx.active hl ha
  | assigned oldDeps newDeps _ _ _ h =>
    rw [h]
    have hlen := length_newToOld oldDeps newDeps
    refine ⟨?_, length_replicate, fun _ => ?_, fun _ _ => ?_⟩
    · have hsized := (c.nodes n).dep.sized_rewired (newToOld oldDeps newDeps)
      rwa [hlen] at hsized
    · exact (length_map _).trans (length_map _).symm
    · exact (length_map _).trans hlen
  | finished _ _ _ _ status _ h =>
    have hv : ({ c.nodes n with
        wave := { (c.nodes n).wave with inDepMutation := false }
        value := { (c.nodes n).value with status := status } } : Node V S).Fitted :=
      hx.of_dep hx.sized rfl rfl rfl rfl rfl rfl
    exact hv.of_kernel h
  | guarded _ _ h =>
    have hv : ({ c.nodes n with wave := { (c.nodes n).wave with inDepMutation := false } } :
        Node V S).Fitted := hx.of_dep hx.sized rfl rfl rfl rfl rfl rfl
    exact hv.of_kernel h

end Config

/-! ### The counter along a run -/

/-- The deps a stage of a rewire has drained. -/
def Stage.drained : Stage → List Nat
  | .remove oldDeps newDeps _ removed _ =>
    (Config.removedIdxs oldDeps newDeps).filter (· ∉ removed)
  | .assign oldDeps newDeps _ _ => Config.removedIdxs oldDeps newDeps
  | _ => []

namespace Config

section

variable (c : Config V S)

/-- The deps of `n` that the rewire under way has drained. -/
def drainedOf (n : NodeId) : List Nat :=
  ((c.stages n).head?.map Stage.drained).getD []

/-- The condition on the state before a step. No dep message changes the mark of
    a dep that the rewire under way has drained, and no panic leaves the
    draining while a drained dep is still marked dirty. -/
def KeepsCount : Prop :=
  match c.mode, c.stack with
  | .running, .emit _ m (e :: _) :: _ =>
    match e.sink with
    | .dep n box =>
      match c.boxes box with
      | some i => (c.nodes n).togglesDirty i m = true → i ∉ c.drainedOf n
      | none => True
    | .external _ => True
  | .unwinding _, .rewireRemove n oldDeps newDeps _ removed _ :: _ =>
    ∀ i ∈ removedIdxs oldDeps newDeps, i ∉ removed → (c.nodes n).dep.dirtyAt i = false
  | _, _ => True

/-- The condition as a check. -/
def checksCount : Bool :=
  match c.mode, c.stack with
  | .running, .emit _ m (e :: _) :: _ =>
    match e.sink with
    | .dep n box =>
      match c.boxes box with
      | some i => !(c.nodes n).togglesDirty i m || decide (i ∉ c.drainedOf n)
      | none => true
    | .external _ => true
  | .unwinding _, .rewireRemove n oldDeps newDeps _ removed _ :: _ =>
    decide (∀ i ∈ removedIdxs oldDeps newDeps, i ∉ removed → (c.nodes n).dep.dirtyAt i = false)
  | _, _ => true

theorem checksCount_iff : c.checksCount = true ↔ c.KeepsCount := by
  unfold checksCount KeepsCount
  split
  · split
    · split
      · rw [Bool.or_eq_true, Bool.not_eq_true', decide_eq_true_eq]
        constructor
        · intro h htoggles
          rcases h with h | h
          · exact absurd htoggles (by simp [h])
          · exact h
        · intro h
          rw [or_iff_not_imp_left]
          exact fun htoggles => h (Bool.eq_true_of_not_eq_false htoggles)
      · exact iff_of_true rfl trivial
    · exact iff_of_true rfl trivial
  · exact decide_eq_true_iff
  · exact iff_of_true rfl trivial

end

instance (c : Config V S) : Decidable c.KeepsCount :=
  decidable_of_iff (c.checksCount = true) c.checksCount_iff

/-- The counter stands for the dirty deps that were not drained. -/
def CountOk (c : Config V S) (n : NodeId) : Prop :=
  (c.nodes n).dep.pending = ((c.nodes n).dep.owing (c.drainedOf n)).card

variable {c c' : Config V S} {n : NodeId}

/-- The same marks, counter and drained deps. -/
theorem CountOk.congr (h : c.CountOk n)
    (hd : c'.drainedOf n = c.drainedOf n) (hdep : (c'.nodes n).dep = (c.nodes n).dep) :
    c'.CountOk n := by
  unfold CountOk
  rw [hd, hdep]
  exact h

theorem drainedOf_congr (h : c'.stages n = c.stages n) :
    c'.drainedOf n = c.drainedOf n := by
  unfold drainedOf
  rw [h]

theorem drainedOf_of_guards (h : ∀ st ∈ c.stages n, st = .guard) :
    c.drainedOf n = [] := by
  unfold drainedOf
  cases hs : c.stages n with
  | nil => rfl
  | cons st below =>
    rw [h st (by rw [hs]; exact mem_cons_self)]
    rfl

/-- A step that is no stage of draining keeps the counter of a slot. -/
theorem SlotStep.counted {y : Node V S} {s : Nat} {done : List Nat}
    (h : SlotStep c n y s) (hfit : (c.nodes n).Fitted)
    (hx : (c.nodes n).dep.pending = ((c.nodes n).dep.owing done).card)
    (hremove : ∀ oldDeps newDeps activated removed dirty,
      ¬ c.Entering (.rewireRemove n oldDeps newDeps activated removed dirty))
    (hassign : ∀ oldDeps newDeps activated dirty,
      ¬ c.Entering (.rewireAssign n oldDeps newDeps activated dirty))
    (hmark : ∀ src m e rest box i, c.Entering (.emit src m (e :: rest)) → e.sink = .dep n box →
      c.boxes box = some i → (c.nodes n).togglesDirty i m = true → i ∉ done) :
    y.dep.pending = (y.dep.owing done).card := by
  have hsame : y.dep = (c.nodes n).dep → y.dep.pending = (y.dep.owing done).card := by
    intro heq
    rw [heq]
    exact hx
  have hclean : y.dep.pending = 0 → (∀ i, y.dep.dirtyAt i = false) →
      y.dep.pending = (y.dep.owing done).card := by
    intro hp hd
    rw [hp, DepState.owing_eq_empty hd]
    rfl
  cases h with
  | idle h => exact hsame (Node.dep_of_kernel h)
  | received src e rest box d b i m hf hsink hbox hi h =>
    rw [h]
    exact Node.receive_owing d b i m hi (hmark src m e rest box i hf hsink hbox) hx
  | relayed _ v h =>
    rw [h]
    exact hx
  | started _ h =>
    rw [h]
    exact hx
  | rolled keep h =>
    rw [h]
    exact hx
  | reset h =>
    rw [h] at hclean ⊢
    exact hclean rfl (DepState.dirtyAt_mapIdx_false rfl hfit.sized.dirty)
  | dirtied _ h => exact hsame ((Node.dep_of_kernel h).trans rfl)
  | told m _ _ h =>
    refine hsame ?_
    rw [h]
    exact (Node.dep_of_kernel ((c.nodes n).collectDown_dep m)).trans rfl
  | invalidated _ h => exact hsame (by rw [h]; rfl)
  | deactivated _ h =>
    rw [h] at hclean ⊢
    exact hclean rfl (DepState.dirtyAt_mapIdx_false rfl hfit.sized.dirty)
  | activated _ _ h => exact hsame (by rw [h])
  | linked _ _ _ _ _ _ h => exact hsame (by rw [h])
  | created spec _ _ h =>
    rw [h] at hclean ⊢
    refine hclean rfl ?_
    intro i
    simp [freshNode, DepState.new, DepState.dirtyAt, getD_eq_getElem?_getD,
      List.getElem?_replicate]
    split_ifs <;> rfl
  | dropped _ h => exact hsame ((Node.dep_of_kernel h).trans rfl)
  | swapped _ _ _ h => exact hsame ((Node.dep_of_kernel h).trans rfl)
  | removed _ _ _ _ _ _ hf _ => exact absurd hf (hremove _ _ _ _ _)
  | assigned _ _ _ _ hf _ => exact absurd hf (hassign _ _ _ _)
  | finished _ _ _ _ _ _ h => exact hsame ((Node.dep_of_kernel h).trans rfl)
  | guarded _ _ h => exact hsame ((Node.dep_of_kernel h).trans rfl)

/-- What the condition says of a dep message. -/
theorem KeepsCount.mark (h : c.KeepsCount) {src : NodeId} {m : Message V}
    {e : SubscriberEntry} {rest : List SubscriberEntry} {box : BoxId} {i : Nat}
    (hf : c.Entering (.emit src m (e :: rest))) (hsink : e.sink = .dep n box)
    (hbox : c.boxes box = some i) (ht : (c.nodes n).togglesDirty i m = true) :
    i ∉ c.drainedOf n := by
  rcases hf with ⟨hmode, below, hs⟩
  simp only [KeepsCount, hmode, hs, hsink, hbox] at h
  exact h ht

/-- The drained deps of a stage that drops one after the other. -/
theorem drained_remove {oldDeps newDeps : List NodeId} {done removed : List Nat}
    (h : removedIdxs oldDeps newDeps = done ++ removed) (act dirty : Bool) :
    (Stage.remove oldDeps newDeps act removed dirty).drained = done := by
  have hnodup := nodup_removedIdxs oldDeps newDeps
  rw [h] at hnodup
  have hdisj := (nodup_append.mp hnodup).2.2
  rw [Stage.drained, h, filter_append]
  have hleft : done.filter (· ∉ removed) = done := by
    rw [filter_eq_self]
    intro i hi
    rw [decide_eq_true_eq]
    exact fun hmem => hdisj i hi i hmem rfl
  have hright : removed.filter (· ∉ removed) = [] := by
    rw [filter_eq_nil_iff]
    intro i hi
    rw [decide_eq_true_eq, not_not]
    exact hi
  rw [hleft, hright, append_nil]

theorem drainedOf_cons {st : Stage} {below : List Stage}
    (h : c.stages n = st :: below) : c.drainedOf n = st.drained := by
  rw [drainedOf, h]
  rfl

theorem StageStep.counted (hstep : StageStep c c') (h : c.Staged)
    (hslot : ∀ n, SlotStep c n (c'.nodes n) c'.size)
    (hguard : c.KeepsCount) (hfit : ∀ n, (c.nodes n).Fitted) (n : NodeId) (hx : c.CountOk n) :
    c'.CountOk n := by
  cases hstep with
  | outside f rest fs hs hd hs' hf =>
    have hstages := stages_of_unstaged hs' (fun g hg => (hf g hg).1) n
    have henter : ∀ g, c.Entering g → g = f := by
      rintro g ⟨_, below, hg⟩
      rw [hs] at hg
      exact (List.cons.inj hg).1.symm
    have hdrains : ∀ g : Frame V, g.isDraining = true → ¬ c.Entering g := by
      intro g hg hent
      have hnot := hd hent.1
      rw [← henter g hent, hg] at hnot
      cases hnot
    have hcount : ∀ done : List Nat,
        (c.nodes n).dep.pending = ((c.nodes n).dep.owing done).card →
        (∀ src m e rest box i, c.Entering (.emit src m (e :: rest)) → e.sink = .dep n box →
          c.boxes box = some i → (c.nodes n).togglesDirty i m = true → i ∉ done) →
        (c'.nodes n).dep.pending = ((c'.nodes n).dep.owing done).card := by
      intro done hx hmark
      exact (hslot n).counted (hfit n) hx (fun _ _ _ _ _ => hdrains _ rfl)
        (fun _ _ _ _ => hdrains _ rfl) hmark
    cases hst : f.stage n with
    | none =>
      have hsame : c'.stages n = c.stages n := by rw [hstages, stages_pop hs hst]
      rw [CountOk, drainedOf_congr hsame]
      exact hcount _ hx fun _ _ _ _ _ _ hf hsink hbox ht => hguard.mark hf hsink hbox ht
    | some st =>
      -- The stage is over; below it stand guards only.
      have hnone : c'.drainedOf n = [] := by
        refine drainedOf_of_guards ?_
        rw [hstages]
        exact (h.stages n).guards_below hs hst
      rw [CountOk, hnone]
      refine hcount [] ?_ (fun _ _ _ _ _ _ _ _ _ _ => not_mem_nil)
      have hdrained := drainedOf_cons (stages_cons hs hst)
      rw [CountOk, hdrained] at hx
      cases f with
      | rewireRemove m oldDeps newDeps act removed dirty =>
        rw [Frame.stage] at hst
        split_ifs at hst with hm
        subst hm
        cases hst
        cases hmode : c.mode with
        | running => cases hd hmode
        | unwinding p =>
          simp only [KeepsCount, hmode, hs] at hguard
          rw [hx, DepState.owing_of_clean]
          intro i hi
          rw [Stage.drained, mem_filter, decide_eq_true_eq] at hi
          exact hguard i hi.1 hi.2
      | rewireAssign m oldDeps newDeps act dirty =>
        have hrun := h.running _ (by rw [hs]; rfl) rfl
        cases hd hrun
      | rewireFinish m newDeps dirty =>
        rw [Frame.stage] at hst
        split_ifs at hst
        cases hst
        exact hx
      | depMutationGuard m =>
        rw [Frame.stage] at hst
        split_ifs at hst
        cases hst
        exact hx
      | _ => cases hst
  | checked m newDeps f allow rest fs hs hmode hflag hnodes hs' hf =>
    refine hx.congr (drainedOf_congr ?_) (by rw [hnodes])
    have hall : ∀ g ∈ (.rewireApply m (dedupCores newDeps) f :: fs : List (Frame V)),
        g.stage n = none := by
      intro g hg
      rcases mem_cons.mp hg with rfl | hg
      · rfl
      · exact Frame.stage_of_not_isStage (hf g hg).1 n
    rw [← stages_pop hs rfl, Config.stages, hs', filterMap_append,
      filterMap_eq_nil_iff.mpr hall, nil_append]
  | applied m newDeps f rest hs hdeps hnodes hb hs' =>
    by_cases hm : m = n
    · subst hm
      have hguards := (h.stages m).guards_of_idle (h.checked m newDeps f (by rw [hs]; rfl)).1
      refine hx.congr ?_ (by rw [hnodes, Function.update_self]; rfl)
      rw [drainedOf_of_guards hguards]
      have hstages : c'.stages m = .remove (c.nodes m).deps newDeps (c.nodes m).aux.activated
          (removedIdxs (c.nodes m).deps newDeps) false :: .guard ::
            rest.filterMap (Frame.stage m) := by
        rw [Config.stages, hs']
        simp only [filterMap_cons, Frame.stage, ↓reduceIte]
      rw [drainedOf_cons hstages]
      exact drained_remove (nil_append _).symm _ _
    · refine hx.congr (drainedOf_congr ?_) (by rw [hnodes, Function.update_of_ne (Ne.symm hm)])
      rw [← stages_pop hs rfl, Config.stages, hs']
      simp only [filterMap_cons, Frame.stage, if_neg hm]
  | drained m old new act dirty rest hmode hs hnodes hb hs' =>
    refine hx.congr ?_ (by rw [hnodes])
    by_cases hm : m = n
    · subst hm
      have hstages : c'.stages m = .assign old new act dirty ::
          rest.filterMap (Frame.stage m) := by
        rw [Config.stages, hs']
        simp only [filterMap_cons, Frame.stage, ↓reduceIte]
      have hbefore : c.stages m = .remove old new act [] dirty ::
          rest.filterMap (Frame.stage m) := by
        rw [Config.stages, hs]
        simp only [filterMap_cons, Frame.stage, ↓reduceIte]
      rw [drainedOf_cons hstages, drainedOf_cons hbefore,
        drained_remove (append_nil _).symm]
      rfl
    · refine drainedOf_congr ?_
      rw [Config.stages, Config.stages, hs, hs']
      simp only [filterMap_cons, Frame.stage, if_neg hm]
  | draining m old new act dirty i removed rest fs hs hnodes hb hfs hs' =>
    have hfsnone : ∀ g ∈ fs, g.isStage = false := by
      rw [hfs]
      exact fun g hg => (draining_unstaged c _ g hg).1
    have hstages := stages_of_unstaged hs' hfsnone n
    by_cases hm : m = n
    · subst hm
      have hbefore : c.stages m = .remove old new act (i :: removed) dirty ::
          rest.filterMap (Frame.stage m) := by
        rw [Config.stages, hs]
        simp only [filterMap_cons, Frame.stage, ↓reduceIte]
      simp only [filterMap_cons, Frame.stage, ↓reduceIte] at hstages
      have hflag := (h.stages m).flagged (.remove old new act (i :: removed) dirty)
        (by rw [hbefore]; rfl) (by simp)
      rcases hflag.2.2.2 with ⟨done, hdone⟩
      have hdone' : removedIdxs old new = (done ++ [i]) ++ removed := by
        rw [hdone, append_assoc]
        rfl
      have hnodup := nodup_removedIdxs old new
      have hnot : i ∉ done := by
        rw [hdone] at hnodup
        exact fun hi => (nodup_append.mp hnodup).2.2 i hi i mem_cons_self rfl
      rw [CountOk, drainedOf_cons hbefore, drained_remove hdone] at hx
      rw [CountOk, drainedOf_cons hstages, drained_remove hdone', hnodes, Function.update_self]
      -- The counter gives up dep `i` iff it is marked.
      have hcard := DepState.card_owing_concat (d := (c.nodes m).dep) hnot
      cases hdirty : (c.nodes m).dep.dirtyAt i with
      | true =>
        have hget : (c.nodes m).dep.dirty.getD i false = true := hdirty
        rw [hdirty, if_pos rfl] at hcard
        rw [hget, if_pos rfl]
        have hless : ∀ p : Int, ({ (c.nodes m).dep with pending := p } : DepState V).owing
            (done ++ [i]) = (c.nodes m).dep.owing (done ++ [i]) :=
          fun _ => DepState.owing_congr rfl
        rw [hless, hcard, ← hx]
      | false =>
        have hget : (c.nodes m).dep.dirty.getD i false = false := hdirty
        rw [hdirty, if_neg Bool.false_ne_true, Int.sub_zero] at hcard
        rw [hget, if_neg Bool.false_ne_true, hcard, ← hx]
    · refine hx.congr (drainedOf_congr ?_) (by rw [hnodes, Function.update_of_ne (Ne.symm hm)])
      rw [hstages, Config.stages, hs]
      simp only [filterMap_cons, Frame.stage, if_neg hm]
  | assigned m old new act dirty rest fs hs hnodes hb hfs hs' =>
    have hfsnone : ∀ g ∈ fs, g.isStage = false := by
      rw [hfs]
      exact fun g hg => (assigned_unstaged c m old new act g hg).1
    have hstages := stages_of_unstaged hs' hfsnone n
    by_cases hm : m = n
    · subst hm
      have hbefore : c.stages m = .assign old new act dirty ::
          rest.filterMap (Frame.stage m) := by
        rw [Config.stages, hs]
        simp only [filterMap_cons, Frame.stage, ↓reduceIte]
      simp only [filterMap_cons, Frame.stage, ↓reduceIte] at hstages
      have hflag := ((h.stages m).flagged _ (by rw [hbefore]; rfl) (by simp)).2
      rw [CountOk, drainedOf_cons hbefore] at hx
      rw [CountOk, drainedOf_cons hstages, hnodes, Function.update_self]
      have hlen : (c.nodes m).dep.dirty.length = old.length := by
        rw [(hfit m).sized.dirty, hflag.1]
      have hcard := DepState.card_owing_rewired (c.nodes m).dep hflag.2 hlen
      exact hx.trans (congrArg _ hcard.symm)
    · refine hx.congr (drainedOf_congr ?_) (by rw [hnodes, Function.update_of_ne (Ne.symm hm)])
      rw [hstages, Config.stages, hs]
      simp only [filterMap_cons, Frame.stage, if_neg hm]

/-! ### Runs -/

/-- The invariant of all books. -/
structure Books (c : Config V S) : Prop where
  staged : c.Staged
  fitted : ∀ n, (c.nodes n).Fitted
  counted : ∀ n, c.CountOk n

theorem step_books (hstep : Step c c') (hguard : c.KeepsCount) (h : c.Books) : c'.Books where
  staged := step_staged hstep h.staged
  fitted := fun n => (step_slot hstep n).fitted (h.fitted n)
  counted := fun n =>
    (step_stage hstep).counted h.staged (step_slot hstep) hguard h.fitted n (h.counted n)

/-- The frames a restore pushes subscribe to deps. -/
theorem restoreRuntime_stack (c : Config V S) (n : NodeId) (r : NodeRestoreRuntime V S) :
    ∃ fs, (c.restoreRuntime n r).stack = fs ++ c.stack ∧
      ∀ g ∈ fs, g.isStage = false ∧ g.rewiringNode = none := by
  refine ⟨_, rfl, ?_⟩
  intro g hg
  split at hg
  · rcases mem_mapIdx.mp hg with ⟨i, hi, rfl⟩
    exact ⟨rfl, rfl⟩
  · exact absurd hg not_mem_nil

theorem restore_staged (h : c.Staged) (n : NodeId) (r : NodeRestoreRuntime V S) (hcall : c.Calling)
    (hidle : (c.nodes n).wave.inDepMutation = false) : (c.restoreRuntime n r).Staged := by
  rcases restoreRuntime_stack c n r with ⟨fs, hs', hf⟩
  rcases hcall with ⟨_, cb, i, rest, hs⟩
  have hother : ∀ k, k ≠ n → (c.restoreRuntime n r).nodes k = c.nodes k := by
    intro k hk
    simp only [restoreRuntime, push, setNode, Function.update_of_ne hk]
  have hself : (c.restoreRuntime n r).nodes n = (c.nodes n).restored r := by
    simp only [restoreRuntime, push, setNode, Function.update_self]
  have hinstant : ∀ g ∈ (c.restoreRuntime n r).stack, g.isInstant = false := by
    rw [hs']
    intro g hg
    rcases mem_append.mp hg with hg | hg
    · exact (unstaged_of_not_rewiring c (hf g hg).1 (hf g hg).2).not_instant
    · have hbelow := h.instant
      rw [hs] at hg hbelow
      rcases mem_cons.mp hg with rfl | hg
      · rfl
      · exact hbelow g hg
  have hstages : ∀ k, (c.restoreRuntime n r).stages k = c.stages k := by
    intro k
    rw [stages_of_unstaged hs' (fun g hg => (hf g hg).1), Config.stages]
  refine ⟨?_, ?_, ?_, ?_, ?_, ?_⟩
  · intro k hk
    by_cases hkn : k = n
    · subst hkn
      rw [hself]
      exact h.fresh k hk
    · rw [hother k hkn]
      exact h.fresh k hk
  · intro g hg k hk
    rw [hs'] at hg
    rcases mem_append.mp hg with hg | hg
    · rw [(hf g hg).2] at hk
      cases hk
    · exact h.bound g hg k hk
  · exact fun g hg => hinstant g (mem_of_mem_tail hg)
  · intro g hhead hg
    rw [hinstant g (mem_of_mem_head? hhead)] at hg
    cases hg
  · intro k newDeps f hhead
    cases hinstant _ (mem_of_mem_head? hhead)
  · intro k
    by_cases hkn : k = n
    · subst hkn
      refine .of_guards ?_
      rw [hstages]
      exact (h.stages k).guards_of_idle hidle
    · exact (h.stages k).congr (hstages k) (by rw [hother k hkn]) (by rw [hother k hkn])

/-- A restore of a node that has its unsubscribers keeps the books. -/
theorem restore_books (h : c.Books) (n : NodeId) (r : NodeRestoreRuntime V S) (hcall : c.Calling)
    (hidle : (c.nodes n).wave.inDepMutation = false)
    (hunsubs : (c.nodes n).unsubs.length = (c.nodes n).deps.length) :
    (c.restoreRuntime n r).Books := by
  rcases restoreRuntime_stack c n r with ⟨fs, hs', hf⟩
  have hother : ∀ k, k ≠ n → (c.restoreRuntime n r).nodes k = c.nodes k := by
    intro k hk
    simp only [restoreRuntime, push, setNode, Function.update_of_ne hk]
  have hself : (c.restoreRuntime n r).nodes n = (c.nodes n).restored r := by
    simp only [restoreRuntime, push, setNode, Function.update_self]
  refine ⟨restore_staged h.staged n r hcall hidle, ?_, ?_⟩
  · intro k
    by_cases hkn : k = n
    · subst hkn
      rw [hself]
      refine ⟨?_, ?_, (h.fitted k).boxes, fun _ _ => hunsubs⟩
      · exact hunsubs ▸ DepState.sized_new _
      · exact length_replicate.trans hunsubs
    · rw [hother k hkn]
      exact h.fitted k
  · intro k
    have hstages : (c.restoreRuntime n r).stages k = c.stages k := by
      rw [stages_of_unstaged hs' (fun g hg => (hf g hg).1), Config.stages]
    by_cases hkn : k = n
    · subst hkn
      rw [CountOk, drainedOf_congr hstages,
        drainedOf_of_guards ((h.staged.stages k).guards_of_idle hidle), hself,
        DepState.owing_eq_empty]
      · rfl
      · intro i
        simp only [Node.restored, DepState.new, DepState.dirtyAt, getD_eq_getElem?_getD,
          List.getElem?_replicate]
        split_ifs <;> rfl
    · exact (h.counted k).congr (drainedOf_congr hstages) (by rw [hother k hkn])

/-- A step that meets the condition: a step of the machine, or a restore of a
    node that is not being rewired and has its unsubscribers. -/
inductive CountedStep (c c' : Config V S) : Prop
  | step (h : Step c c') (hguard : c.KeepsCount)
  | restore (n : NodeId) (r : NodeRestoreRuntime V S) (hcall : c.Calling)
      (hlive : (c.nodes n).live = true) (hidle : (c.nodes n).wave.inDepMutation = false)
      (hunsubs : (c.nodes n).unsubs.length = (c.nodes n).deps.length)
      (h : c' = c.restoreRuntime n r)

theorem countedStep_books (hstep : CountedStep c c') (h : c.Books) :
    c'.Books := by
  cases hstep with
  | step hstep hguard => exact step_books hstep hguard h
  | restore n r hcall _ hidle hunsubs heq =>
    rw [heq]
    exact restore_books h n r hcall hidle hunsubs

theorem initial_books : (initial : Config V S).Books where
  staged := initial_staged
  fitted := fun _ => ⟨DepState.sized_new 0, rfl, fun _ => rfl, fun _ ha => (by cases ha)⟩
  counted := by
    intro n
    rw [CountOk, DepState.owing_eq_empty]
    · rfl
    · intro i
      rfl

theorem countedRun_books (hrun : Relation.ReflTransGen CountedStep initial c) :
    c.Books := by
  induction hrun with
  | refl => exact initial_books
  | tail _ hlast ih => exact countedStep_books hlast ih

/-- In a run whose steps meet the condition, the books of every live node that
    is not being rewired are in order. -/
theorem dep_bookkeeping (c : Config V S) (hrun : Relation.ReflTransGen CountedStep initial c)
    (n : NodeId) (hlive : (c.nodes n).live = true)
    (hidle : (c.nodes n).wave.inDepMutation = false) : (c.nodes n).Booked := by
  have hbooks := countedRun_books hrun
  have hfit := hbooks.fitted n
  have hcount := hbooks.counted n
  rw [CountOk, drainedOf_of_guards ((hbooks.staged.stages n).guards_of_idle hidle)] at hcount
  refine ⟨hfit.sized, hfit.handshake, ?_, hcount⟩
  intro ha
  have hunsubs := hfit.active hlive ha
  exact ⟨hunsubs, (hfit.boxes hlive).symm.trans hunsubs⟩

/-- A node drops one of its two deps while both are dirty. -/
def dirtyRewire : Env Nat Unit := Env.scripted fun cb => match cb with
  | .main => [.newNode { initial := some 1 }, .newNode { initial := some 2 },
      .newNode { deps := [0, 1], handle := some (0, .sync) }, .subscribe 2 0,
      .down 0 [.dirty], .down 1 [.dirty], .rewire 2 (.set [1] 1)]
  | .fn _ _ => [.ctxDown [.data 5]]
  | _ => []

theorem dep_bookkeeping_dirtyRewire :
    ((initial.run dirtyRewire 300).nodes 2).deps = [1] ∧
      ((initial.run dirtyRewire 300).nodes 2).dep.pending = 1 ∧
      ((initial.run dirtyRewire 300).nodes 2).Booked := by
  have hrun : GuardedReach KeepsCount initial (initial.run dirtyRewire 300) :=
    guardedReach_run dirtyRewire 300 initial (by decide +kernel)
  have hcounted : Relation.ReflTransGen CountedStep initial (initial.run dirtyRewire 300) :=
    Relation.ReflTransGen.mono (fun _ _ h => CountedStep.step h.1 h.2) _ _ hrun
  exact ⟨by decide +kernel, by decide +kernel,
    dep_bookkeeping _ hcounted 2 (by decide +kernel) (by decide +kernel)⟩

/-- A dirty dep is dropped, and the cleanup hook its deactivation runs panics.
    The caller of the rewire catches the panic. -/
def panicInRemoval : Env Nat Unit where
  act cb _ i :=
    match cb with
    | .main => match ([.newNode { initial := some 1 },
        .newNode { deps := [0], handle := some (0, .sync) },
        .newNode { deps := [1], handle := some (1, .sync) },
        .subscribe 2 0, .down 0 [.dirty], .rewire 2 (.set [] 1)] : List (UserOp Nat Unit))[i]? with
      | some o => .op o
      | none => .ret
    | .fn 0 _ => match ([.ctxOnDeactivation 0, .ctxDown [.data 5]] : List
      (UserOp Nat Unit))[i]? with
      | some o => .op o
      | none => .ret
    | .hook _ => .panic (.ordinary "user")
    | _ => .ret
  catches cb _ := cb = .main

-- The node keeps its dep and the dirty mark, but the counter has given the mark
-- up already. The guard has cleared the mutation flag.
theorem dirty_without_pending :
    ¬ ∀ c, Relation.ReflTransGen RuntimeStep (initial : Config Nat Unit) c → ∀ n,
      (c.nodes n).live = true → (c.nodes n).wave.inDepMutation = false → (c.nodes n).Booked := by
  intro h
  have hrun : GuardedReach (fun _ => True) initial (initial.run panicInRemoval 300) :=
    guardedReach_run panicInRemoval 300 initial (fun _ _ => trivial)
  have hsteps : Relation.ReflTransGen RuntimeStep initial (initial.run panicInRemoval 300) :=
    Relation.ReflTransGen.mono (fun _ _ h => RuntimeStep.step h.1) _ _ hrun
  have hbooked := h _ hsteps 2 (by decide +kernel) (by decide +kernel)
  have hpending : ((initial.run panicInRemoval 300).nodes 2).dep.pending = 0 := by
    decide +kernel
  have howing : ((initial.run panicInRemoval 300).nodes 2).dep.owing [] = {0} := by
    decide +kernel
  have hcount := hbooked.pending
  rw [hpending, howing] at hcount
  cases hcount

end Config

end GraphRefly
