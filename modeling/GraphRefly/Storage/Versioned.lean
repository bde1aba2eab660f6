import GraphRefly.Lib.Stamp
import GraphRefly.Storage.Kv
import Mathlib.Data.Prod.Lex

/-!
# Versioned Reads of the Memory Tier

The memory tier with its versions. Every write of a key takes the next version
of the store; a deleted key keeps a tombstone with the version of its deletion;
a key that was never touched has version zero. `clear` drops all of it and
starts the versions over, in a new epoch. A versioned read hands out a
generation: the store, the epoch, the key and its version. A conditional write
goes through when the generation is still the one of the key.

The versions restart, so a version alone says nothing. What never comes back is
the pair of the epoch and the version, in this order: `stamp`. An operation that
changes a key's entry moves its stamp up and every other one leaves it.

The stores of one program take their numbers from one counter, which names
temporary files too. The counters are numbers here: the runs are those in which
none of them reaches the end of its `u64`.

## Main definitions

* `KvGeneration`: What a versioned read hands out.
* `MemoryKvInner`: One store.
* `KvWorld`: The stores of a program.
* `KvOp`, `KvWorld.step`: One operation on one of the stores.
* `KvOp.Changes`: The operation changes the entry of a key.
* `KvWorld.Rewritten`: One entry of one store was written, and nothing else.

## Theorems

* `setIfMatch_iff_unchanged`: A conditional write goes through if and only if
  its generation was read from the same key of the same store and the key's
  entry has not changed since.
-/

namespace GraphRefly.Storage

open List

variable {V : Type}

/-- A key's generation token. -/
structure KvGeneration where
  storeId : Nat
  epoch : Nat
  key : String
  version : Nat
  deriving DecidableEq

inductive KvVersionedRead (V : Type)
  | hit (value : V) (generation : KvGeneration)
  | miss (generation : KvGeneration)

def KvVersionedRead.generation : KvVersionedRead V → KvGeneration
  | .hit _ generation => generation
  | .miss generation => generation

/-- One store, with the versions of its deleted keys. -/
structure MemoryKvInner (V : Type) where
  storeId : Nat
  epoch : Nat
  entries : List (String × MemoryEntry V)
  tombstones : List (String × Nat)
  nextVersion : Nat

namespace MemoryKvInner

/-- A store without entries. -/
def new (V : Type) (storeId : Nat) : MemoryKvInner V := ⟨storeId, 0, [], [], 1⟩

section

variable (kv : MemoryKvInner V)

/-- The next version, and the store that has given it away. -/
def bumpVersion : Nat × MemoryKvInner V :=
  (kv.nextVersion, { kv with nextVersion := kv.nextVersion + 1 })

/-- The version of a key: of its entry, of its tombstone, or zero. -/
def currentVersion (key : String) : Nat :=
  match kv.entries.lookup key with
  | some entry => entry.version
  | none => (kv.tombstones.lookup key).getD 0

def generationFor (key : String) : KvGeneration :=
  ⟨kv.storeId, kv.epoch, key, kv.currentVersion key⟩

def clear : MemoryKvInner V :=
  { kv with entries := [], tombstones := [], epoch := kv.epoch + 1, nextVersion := 1 }

def get (key : String) : Option V :=
  (kv.entries.lookup key).map (·.value)

def set (key : String) (value : V) : MemoryKvInner V :=
  let (version, kv) := kv.bumpVersion
  { kv with
    entries := (key, ⟨value, version⟩) :: kv.entries.filter (fun e => e.1 != key)
    tombstones := kv.tombstones.filter (fun t => t.1 != key) }

def putIfAbsent (key : String) (value : V) : Bool × MemoryKvInner V :=
  if (kv.entries.lookup key).isSome then (false, kv) else (true, kv.set key value)

def delete (key : String) : MemoryKvInner V :=
  if (kv.entries.lookup key).isSome then
    let (version, kv) := kv.bumpVersion
    { kv with
      entries := kv.entries.filter (fun e => e.1 != key)
      tombstones := (key, version) :: kv.tombstones.filter (fun t => t.1 != key) }
  else kv

def getVersioned (key : String) : KvVersionedRead V :=
  match kv.entries.lookup key with
  | some entry => .hit entry.value ⟨kv.storeId, kv.epoch, key, entry.version⟩
  | none => .miss (kv.generationFor key)

def setIfMatch (key : String) (value : V) (generation : KvGeneration) :
    Bool × MemoryKvInner V :=
  if generation.storeId ≠ kv.storeId ∨ generation.epoch ≠ kv.epoch ∨ generation.key ≠ key ∨
      generation.version ≠ kv.currentVersion key then (false, kv)
  else (true, kv.set key value)

end

end MemoryKvInner

/-! ### The stores of a program -/

/-- A call of a store. -/
inductive KvCall (V : Type)
  | set (key : String) (value : V)
  | putIfAbsent (key : String) (value : V)
  | delete (key : String)
  | clear
  | getVersioned (key : String)
  | setIfMatch (key : String) (value : V) (generation : KvGeneration)

namespace MemoryKvInner

/-- What a call leaves of the store. -/
def perform (kv : MemoryKvInner V) : KvCall V → MemoryKvInner V
  | .set key value => kv.set key value
  | .putIfAbsent key value => (kv.putIfAbsent key value).2
  | .delete key => kv.delete key
  | .clear => kv.clear
  | .getVersioned _ => kv
  | .setIfMatch key value generation => (kv.setIfMatch key value generation).2

/-- The call changes the entry of a key: a `set`, a `put_if_absent` or a
    `set_if_match` of it that returns `true`, a `delete` of it while it is present,
    or a `clear`. -/
def Touches (kv : MemoryKvInner V) (k : String) : KvCall V → Prop
  | .set key _ => key = k
  | .putIfAbsent key value => key = k ∧ (kv.putIfAbsent key value).1 = true
  | .delete key => key = k ∧ (kv.get key).isSome = true
  | .clear => True
  | .getVersioned _ => False
  | .setIfMatch key value generation => key = k ∧ (kv.setIfMatch key value generation).1 = true

end MemoryKvInner

/-- The stores of a program and the counter their numbers come from. -/
structure KvWorld (V : Type) where
  stores : List (MemoryKvInner V)
  nextStoreId : Nat

/-- What a program does with its stores. A store is named by its position; a
    temporary file takes a number from the counter too. -/
inductive KvOp (V : Type)
  | memoryKv
  | tempFile
  | call (store : Nat) (call : KvCall V)

namespace KvWorld

/-- The program before it makes a store. -/
def start (V : Type) : KvWorld V := ⟨[], 1⟩

/-- One operation. -/
def step (w : KvWorld V) : KvOp V → KvWorld V
  | .memoryKv => ⟨w.stores ++ [MemoryKvInner.new V w.nextStoreId], w.nextStoreId + 1⟩
  | .tempFile => { w with nextStoreId := w.nextStoreId + 1 }
  | .call store call => { w with stores := w.stores.modify store (·.perform call) }

/-- What a program leaves behind. -/
def run (w : KvWorld V) (ops : List (KvOp V)) : KvWorld V := ops.foldl step w

/-- A versioned read of one of the stores. -/
def getVersioned (w : KvWorld V) (store : Nat) (key : String) : Option (KvVersionedRead V) :=
  w.stores[store]?.map (·.getVersioned key)

/-- What a conditional write of one of the stores returns. -/
def setIfMatch (w : KvWorld V) (store : Nat) (key : String) (value : V)
    (generation : KvGeneration) : Option Bool :=
  w.stores[store]?.map fun kv => (kv.setIfMatch key value generation).1

/-- The operation changes the entry of a key of a store. -/
def Changes (i : Nat) (k : String) (w : KvWorld V) : KvOp V → Prop
  | .memoryKv => False
  | .tempFile => False
  | .call store call => store = i ∧ ∃ kv, w.stores[i]? = some kv ∧ kv.Touches k call

/-- No operation of a run changes the entry of a key of a store. -/
def Unchanged (i : Nat) (k : String) : KvWorld V → List (KvOp V) → Prop :=
  Stamp.Quiet step (Changes i k)

/-- The entry of a key of a store was written, and nothing else changed. -/
structure Rewritten (i : Nat) (k : String) (v : V) (w w' : KvWorld V) : Prop where
  counter : w'.nextStoreId = w.nextStoreId
  others : ∀ j, j ≠ i → w'.stores[j]? = w.stores[j]?
  entry : ∃ kv kv', w.stores[i]? = some kv ∧ w'.stores[i]? = some kv' ∧ kv'.get k = some v ∧
    kv'.storeId = kv.storeId ∧ kv'.epoch = kv.epoch ∧
    ∀ key, key ≠ k → kv'.entries.lookup key = kv.entries.lookup key ∧
      kv'.tombstones.lookup key = kv.tombstones.lookup key

end KvWorld

/-! ### Versions of one store -/

namespace MemoryKvInner

theorem lookup_cons_filter {β : Type} (es : List (String × β)) (key k : String) (b : β) :
    ((key, b) :: es.filter (fun e => e.1 != key)).lookup k =
      if k = key then some b else es.lookup k := by
  by_cases hk : k = key
  · subst hk
    simp
  · have hne : (k == key) = false := by simpa using hk
    rw [if_neg hk, lookup_cons, hne]
    exact MemoryKv.lookup_filter_ne es key k hk

theorem lookup_filter_self {β : Type} (es : List (String × β)) (key : String) :
    (es.filter (fun e => e.1 != key)).lookup key = none := by
  rw [lookup_eq_none_iff]
  intro e he
  have hne : e.1 ≠ key := by simpa using (mem_filter.mp he).2
  simpa using hne.symm

section

variable (kv : MemoryKvInner V)

theorem currentVersion_set (key k : String) (v : V) :
    (kv.set key v).currentVersion k = if k = key then kv.nextVersion else kv.currentVersion k := by
  unfold currentVersion set bumpVersion
  simp only [lookup_cons_filter]
  by_cases hk : k = key
  · simp only [hk, if_pos]
  · simp only [hk, if_false, MemoryKv.lookup_filter_ne _ _ _ hk]

theorem currentVersion_delete (key k : String) : (kv.delete key).currentVersion k =
      if k = key ∧ (kv.get key).isSome = true then kv.nextVersion else kv.currentVersion k := by
  unfold delete
  by_cases hs : (kv.entries.lookup key).isSome = true
  · have hget : (kv.get key).isSome = true := by rw [get, Option.isSome_map]; exact hs
    rw [if_pos hs]
    unfold currentVersion bumpVersion
    by_cases hk : k = key
    · subst hk
      simp only [lookup_filter_self, lookup_cons_filter, hget, and_self, if_pos, Option.getD_some]
    · simp only [hk, false_and, if_false, lookup_cons_filter, MemoryKv.lookup_filter_ne _ _ _ hk]
  · have hget : ¬ (kv.get key).isSome = true := by rw [get, Option.isSome_map]; exact hs
    rw [if_neg hs, if_neg fun h => hget h.2]

theorem generation_getVersioned (key : String) :
    (kv.getVersioned key).generation = kv.generationFor key := by
  unfold getVersioned generationFor currentVersion
  cases kv.entries.lookup key <;> rfl

theorem setIfMatch_fst (key : String) (v : V) (g : KvGeneration) :
    (kv.setIfMatch key v g).1 = true ↔ g = kv.generationFor key := by
  unfold setIfMatch
  split_ifs with h
  · refine iff_of_false (by simp) fun heq => ?_
    rw [heq] at h
    simp [generationFor] at h
  · refine iff_of_true rfl ?_
    push Not at h
    obtain ⟨hstore, hepoch, hkey, hversion⟩ := h
    calc g = ⟨g.storeId, g.epoch, g.key, g.version⟩ := rfl
      _ = kv.generationFor key := by rw [hstore, hepoch, hkey, hversion]; rfl

theorem putIfAbsent_snd (key : String) (v : V) :
    (kv.putIfAbsent key v).2 = if (kv.putIfAbsent key v).1 = true then kv.set key v else kv := by
  unfold putIfAbsent
  split_ifs <;> simp_all

theorem setIfMatch_snd (key : String) (v : V) (g : KvGeneration) :
    (kv.setIfMatch key v g).2 = if (kv.setIfMatch key v g).1 = true then kv.set key v else kv := by
  unfold setIfMatch
  split_ifs <;> simp_all

theorem perform_cases (call : KvCall V) : (kv.perform call = kv ∧ ∀ k, ¬ kv.Touches k call) ∨
    (∃ key v, kv.perform call = kv.set key v ∧ ∀ k, kv.Touches k call ↔ key = k) ∨
    (∃ key, call = .delete key ∧ (kv.get key).isSome = true) ∨ call = .clear := by
  cases call with
  | set key v => exact .inr (.inl ⟨key, v, rfl, fun k => Iff.rfl⟩)
  | putIfAbsent key v =>
    by_cases h : (kv.putIfAbsent key v).1 = true
    · refine .inr (.inl ⟨key, v, ?_, fun k => and_iff_left h⟩)
      rw [perform, putIfAbsent_snd, if_pos h]
    · refine .inl ⟨?_, fun k ht => h ht.2⟩
      rw [perform, putIfAbsent_snd, if_neg h]
  | delete key =>
    by_cases h : (kv.get key).isSome = true
    · exact .inr (.inr (.inl ⟨key, rfl, h⟩))
    · refine .inl ⟨?_, fun k ht => h ht.2⟩
      rw [get, Option.isSome_map] at h
      rw [perform, delete, if_neg h]
  | clear => exact .inr (.inr (.inr rfl))
  | getVersioned key => exact .inl ⟨rfl, fun k ht => ht⟩
  | setIfMatch key v g =>
    by_cases h : (kv.setIfMatch key v g).1 = true
    · refine .inr (.inl ⟨key, v, ?_, fun k => and_iff_left h⟩)
      rw [perform, setIfMatch_snd, if_pos h]
    · refine .inl ⟨?_, fun k ht => h ht.2⟩
      rw [perform, setIfMatch_snd, if_neg h]

/-- No key has the next version yet. -/
def Fresh : Prop := ∀ key, kv.currentVersion key < kv.nextVersion

theorem fresh_new (storeId : Nat) : (new V storeId).Fresh := fun _ => Nat.one_pos

theorem nextVersion_set (key : String) (v : V) :
    (kv.set key v).nextVersion = kv.nextVersion + 1 := rfl

end

variable {kv : MemoryKvInner V}

theorem nextVersion_delete {key : String}
    (h : (kv.get key).isSome = true) : (kv.delete key).nextVersion = kv.nextVersion + 1 := by
  rw [get, Option.isSome_map] at h
  rw [delete, if_pos h]
  rfl

theorem Fresh.perform (h : kv.Fresh) (call : KvCall V) : (kv.perform call).Fresh := by
  intro k
  have hk := h k
  rcases perform_cases kv call with ⟨heq, -⟩ | ⟨key, v, heq, -⟩ | ⟨key, rfl, hs⟩ | rfl
  · rw [heq]
    exact hk
  · rw [heq, currentVersion_set, nextVersion_set]
    split_ifs <;> omega
  · rw [MemoryKvInner.perform, currentVersion_delete, nextVersion_delete hs]
    split_ifs <;> omega
  · exact Nat.one_pos

/-- The epoch of a store and the version of a key, in this order. -/
def stamp (k : String) (kv : MemoryKvInner V) : ℕ ×ₗ ℕ := toLex (kv.epoch, kv.currentVersion k)

theorem epoch_delete (kv : MemoryKvInner V) (key : String) : (kv.delete key).epoch = kv.epoch := by
  unfold delete bumpVersion
  split_ifs <;> rfl

variable {k : String} {call : KvCall V}

theorem stamp_same (h : ¬ kv.Touches k call) : (kv.perform call).stamp k = kv.stamp k := by
  rcases perform_cases kv call with ⟨heq, -⟩ | ⟨key, v, heq, ht⟩ | ⟨key, rfl, hs⟩ | rfl
  · rw [heq]
  · have hk : ¬ k = key := fun hk => h ((ht k).mpr hk.symm)
    rw [stamp, heq, currentVersion_set, if_neg hk]
    rfl
  · have hk : ¬ (k = key ∧ (kv.get key).isSome = true) := fun hk => h ⟨hk.1.symm, hk.2⟩
    rw [stamp, MemoryKvInner.perform, currentVersion_delete, if_neg hk, epoch_delete]
    rfl
  · exact absurd trivial h

theorem stamp_up (hf : kv.Fresh)
    (h : kv.Touches k call) : kv.stamp k < (kv.perform call).stamp k := by
  rw [Prod.Lex.lt_iff]
  rcases perform_cases kv call with ⟨-, ht⟩ | ⟨key, v, heq, ht⟩ | ⟨key, rfl, hs⟩ | rfl
  · exact absurd h (ht k)
  · have hk : k = key := ((ht k).mp h).symm
    refine .inr ⟨by rw [heq]; rfl, ?_⟩
    simp only [stamp, heq, currentVersion_set, if_pos hk, ofLex_toLex]
    exact hf k
  · have hk : k = key ∧ (kv.get key).isSome = true := ⟨h.1.symm, hs⟩
    refine .inr ⟨(epoch_delete kv key).symm, ?_⟩
    simp only [stamp, MemoryKvInner.perform, currentVersion_delete, if_pos hk, ofLex_toLex]
    exact hf k
  · -- A clear starts a new epoch, whatever the versions were.
    exact .inl (Nat.lt_succ_self _)

theorem storeId_perform (kv : MemoryKvInner V) (call : KvCall V) :
    (kv.perform call).storeId = kv.storeId := by
  rcases perform_cases kv call with ⟨heq, -⟩ | ⟨key, v, heq, -⟩ | ⟨key, rfl, hs⟩ | rfl
  · rw [heq]
  · rw [heq]
    rfl
  · rw [perform, delete]
    split_ifs <;> rfl
  · rfl

end MemoryKvInner

/-! ### Versions of a program's stores -/

namespace KvWorld

/-- The stores have numbers of their own, below the counter, and no key of them
    has the next version. -/
structure Sound (w : KvWorld V) : Prop where
  below : ∀ kv ∈ w.stores, kv.storeId < w.nextStoreId
  distinct : (w.stores.map (·.storeId)).Nodup
  fresh : ∀ kv ∈ w.stores, kv.Fresh

theorem sound_start : (start V).Sound := ⟨by simp [start], by simp [start], by simp [start]⟩

theorem map_storeId_modify (stores : List (MemoryKvInner V)) (i : Nat) (call : KvCall V) :
    (stores.modify i (·.perform call)).map (·.storeId) = stores.map (·.storeId) := by
  induction stores generalizing i with
  | nil => simp
  | cons kv stores ih =>
    cases i with
    | zero => simp [MemoryKvInner.storeId_perform]
    | succ i => simp [ih]

variable {i : Nat} {kv : MemoryKvInner V}

theorem mem_modify {stores : List (MemoryKvInner V)} {call : KvCall V}
    (h : kv ∈ stores.modify i (·.perform call)) :
    kv ∈ stores ∨ ∃ kv₀ ∈ stores, kv = kv₀.perform call := by
  obtain ⟨j, hj⟩ := mem_iff_getElem?.mp h
  rw [List.getElem?_modify] at hj
  obtain ⟨kv₀, hkv₀, heq⟩ := Option.map_eq_some_iff.mp hj
  have hmem := mem_of_getElem? hkv₀
  by_cases hij : i = j
  · rw [if_pos hij] at heq
    exact .inr ⟨kv₀, hmem, heq.symm⟩
  · rw [if_neg hij] at heq
    exact .inl (heq ▸ hmem)

variable {w : KvWorld V}

theorem Sound.step (h : w.Sound) (op : KvOp V) : (w.step op).Sound := by
  cases op with
  | memoryKv =>
    refine ⟨?_, ?_, ?_⟩
    · intro kv hkv
      rcases mem_append.mp hkv with hkv | hkv
      · exact Nat.lt_succ_of_lt (h.below kv hkv)
      · rw [mem_singleton.mp hkv]
        exact Nat.lt_succ_self _
    · -- The new store's number is the counter, and every other one lies below it.
      simp only [KvWorld.step, map_append, map_cons, map_nil]
      refine nodup_append.mpr ⟨h.distinct, nodup_singleton _, ?_⟩
      intro a ha b hb
      obtain ⟨kv, hkv, rfl⟩ := mem_map.mp ha
      rw [mem_singleton.mp hb]
      exact Nat.ne_of_lt (h.below kv hkv)
    · intro kv hkv
      rcases mem_append.mp hkv with hkv | hkv
      · exact h.fresh kv hkv
      · rw [mem_singleton.mp hkv]
        exact MemoryKvInner.fresh_new _
  | tempFile => exact ⟨fun kv hkv => Nat.lt_succ_of_lt (h.below kv hkv), h.distinct, h.fresh⟩
  | call i call =>
    refine ⟨?_, ?_, ?_⟩
    · intro kv hkv
      rcases mem_modify hkv with hkv | ⟨kv₀, hkv₀, rfl⟩
      · exact h.below kv hkv
      · rw [MemoryKvInner.storeId_perform]
        exact h.below kv₀ hkv₀
    · rw [KvWorld.step, map_storeId_modify]
      exact h.distinct
    · intro kv hkv
      rcases mem_modify hkv with hkv | ⟨kv₀, hkv₀, rfl⟩
      · exact h.fresh kv hkv
      · exact (h.fresh kv₀ hkv₀).perform call

theorem Sound.run (h : w.Sound) (ops : List (KvOp V)) : (w.run ops).Sound := by
  induction ops generalizing w with
  | nil => exact h
  | cons op ops ih => exact ih (h.step op)

theorem getElem?_step_call (w : KvWorld V) (i j : Nat) (call : KvCall V) :
    (w.step (.call i call)).stores[j]? =
      w.stores[j]?.map fun kv => if i = j then kv.perform call else kv := by
  simp only [step, List.getElem?_modify]
  by_cases hij : i = j <;> simp [hij]

theorem getElem?_step (h : w.stores[i]? = some kv) (op : KvOp V) :
    ∃ kv', (w.step op).stores[i]? = some kv' ∧ kv'.storeId = kv.storeId := by
  cases op with
  | memoryKv =>
    refine ⟨kv, ?_, rfl⟩
    rw [step, List.getElem?_append_left (List.getElem?_eq_some_iff.mp h).1, h]
  | tempFile => exact ⟨kv, h, rfl⟩
  | call j call =>
    rw [getElem?_step_call, h]
    by_cases hij : j = i
    · exact ⟨kv.perform call, by simp [hij], MemoryKvInner.storeId_perform kv call⟩
    · exact ⟨kv, by simp [hij], rfl⟩

theorem getElem?_run (h : w.stores[i]? = some kv) (ops : List (KvOp V)) :
    ∃ kv', (w.run ops).stores[i]? = some kv' ∧ kv'.storeId = kv.storeId := by
  induction ops generalizing w kv with
  | nil => exact ⟨kv, h, rfl⟩
  | cons op ops ih =>
    obtain ⟨kv₁, h₁, hid₁⟩ := getElem?_step h op
    obtain ⟨kv₂, h₂, hid₂⟩ := ih h₁
    exact ⟨kv₂, h₂, hid₂.trans hid₁⟩

theorem Sound.eq_of_storeId (h : w.Sound) {j : Nat} {kv' : MemoryKvInner V}
    (hi : w.stores[i]? = some kv) (hj : w.stores[j]? = some kv') (hid : kv.storeId = kv'.storeId) :
    i = j := by
  have hilt : i < (w.stores.map (·.storeId)).length := by
    rw [length_map]
    exact (List.getElem?_eq_some_iff.mp hi).1
  refine (List.getElem?_inj hilt h.distinct).mp ?_
  rw [List.getElem?_map, List.getElem?_map, hi, hj, Option.map_some, Option.map_some, hid]

/-- The stamp of a key of a store. -/
def stamp (i : Nat) (k : String) (w : KvWorld V) : ℕ ×ₗ ℕ :=
  (w.stores[i]?.map (·.stamp k)).getD (toLex (0, 0))

theorem stamped (i : Nat) (k : String) :
    Stamp.Stamped (step (V := V)) (Changes i k) (fun w => w.Sound ∧ i < w.stores.length)
      (stamp i k) where
  kept := by
    intro w op h
    obtain ⟨kv', hkv', -⟩ := getElem?_step (List.getElem?_eq_getElem h.2) op
    exact ⟨h.1.step op, (List.getElem?_eq_some_iff.mp hkv').1⟩
  same := by
    intro w op h hc
    cases op with
    | memoryKv => rw [stamp, step, List.getElem?_append_left h.2, stamp]
    | tempFile => rfl
    | call j call =>
      obtain ⟨kv, hkv⟩ : ∃ kv, w.stores[i]? = some kv := ⟨_, List.getElem?_eq_getElem h.2⟩
      unfold stamp
      rw [getElem?_step_call, hkv]
      by_cases hij : j = i
      · have ht : ¬ kv.Touches k call := fun ht => hc ⟨hij, kv, hkv, ht⟩
        simp only [hij, if_true, Option.map_some, Option.getD_some]
        exact MemoryKvInner.stamp_same ht
      · simp only [hij, if_false, Option.map_some, Option.getD_some]
  up := by
    intro w op h hc
    cases op with
    | memoryKv => exact absurd hc id
    | tempFile => exact absurd hc id
    | call j call =>
      obtain ⟨rfl, kv, hkv, ht⟩ := hc
      unfold stamp
      rw [getElem?_step_call, hkv]
      simp only [if_true, Option.map_some, Option.getD_some]
      exact MemoryKvInner.stamp_up (h.1.fresh kv (mem_of_getElem? hkv)) ht

variable {k : String} {v : V} {g : KvGeneration}

theorem rewritten_setIfMatch (h : w.setIfMatch i k v g = some true) :
    Rewritten i k v w (w.step (.call i (.setIfMatch k v g))) := by
  obtain ⟨kv, hkv, hfst⟩ := Option.map_eq_some_iff.mp h
  have hset : kv.perform (.setIfMatch k v g) = kv.set k v := by
    rw [MemoryKvInner.perform, MemoryKvInner.setIfMatch_snd, if_pos hfst]
  refine ⟨rfl, ?_, kv, kv.set k v, hkv, ?_, ?_, rfl, rfl, ?_⟩
  · intro j hj
    rw [getElem?_step_call]
    simp [Ne.symm hj]
  · rw [getElem?_step_call, hkv]
    simp [hset]
  · simp [MemoryKvInner.get, MemoryKvInner.set, MemoryKvInner.bumpVersion]
  · intro key hkey
    constructor
    · rw [MemoryKvInner.set]
      exact (MemoryKvInner.lookup_cons_filter _ _ _ _).trans (if_neg hkey)
    · exact MemoryKv.lookup_filter_ne _ _ _ hkey

theorem step_setIfMatch_false
    (h : w.setIfMatch i k v g ≠ some true) : w.step (.call i (.setIfMatch k v g)) = w := by
  have hstores : (w.step (.call i (.setIfMatch k v g))).stores = w.stores := by
    refine ext_getElem? fun j => ?_
    rw [getElem?_step_call]
    by_cases hij : i = j
    · subst hij
      cases hkv : w.stores[i]? with
      | none => rfl
      | some kv =>
        have hfst : ¬ (kv.setIfMatch k v g).1 = true := fun hfst => h (by
          rw [KvWorld.setIfMatch, hkv, Option.map_some, hfst])
        simp only [Option.map_some, if_true, MemoryKvInner.perform,
          MemoryKvInner.setIfMatch_snd, if_neg hfst]
    · simp [hij]
  calc w.step (.call i (.setIfMatch k v g))
      = ⟨(w.step (.call i (.setIfMatch k v g))).stores, w.nextStoreId⟩ := rfl
    _ = w := by rw [hstores]

/-- A conditional write goes through if and only if its generation was read from
    the same key of the same store and the key's entry has not changed since. -/
theorem setIfMatch_iff_unchanged (before since : List (KvOp V)) (i j : Nat) (k₀ k : String) (v : V)
    (r : KvVersionedRead V) (hread : ((start V).run before).getVersioned i k₀ = some r) :
    let w := ((start V).run before).run since
    (w.setIfMatch j k v r.generation = some true ↔
      i = j ∧ k₀ = k ∧ Unchanged i k₀ ((start V).run before) since) ∧
    (w.setIfMatch j k v r.generation ≠ some true →
      w.step (.call j (.setIfMatch k v r.generation)) = w) ∧
    (w.setIfMatch j k v r.generation = some true →
      Rewritten j k v w (w.step (.call j (.setIfMatch k v r.generation)))) := by
  intro w
  refine ⟨?_, step_setIfMatch_false, rewritten_setIfMatch⟩
  have hsound := sound_start (V := V).run before
  obtain ⟨kv, hkv, rfl⟩ := Option.map_eq_some_iff.mp hread
  obtain ⟨kv', hkv', hid⟩ := getElem?_run hkv since
  rw [MemoryKvInner.generation_getVersioned]
  -- The stamp says whether the entry has changed since the read.
  have hstamp := (stamped (V := V) i k₀).run_eq_iff_quiet since
    ⟨hsound, (List.getElem?_eq_some_iff.mp hkv).1⟩
  have hstamps : kv'.stamp k₀ = kv.stamp k₀ ↔ Unchanged i k₀ ((start V).run before) since := by
    rw [Unchanged, ← hstamp]
    have hw : (since.foldl step ((start V).run before)).stores[i]? = some kv' := hkv'
    simp only [stamp, hw, hkv, Option.map_some, Option.getD_some]
  constructor
  · intro h
    obtain ⟨kvj, hkvj, hfst⟩ := Option.map_eq_some_iff.mp h
    have hgen := (MemoryKvInner.setIfMatch_fst kvj k v _).mp hfst
    obtain ⟨hstore, hepoch, hkey, hversion⟩ := KvGeneration.mk.inj hgen
    have hij : i = j := (hsound.run since).eq_of_storeId hkv' hkvj (hid.trans hstore)
    subst hij
    subst hkey
    refine ⟨rfl, rfl, hstamps.mp ?_⟩
    rw [hkv'] at hkvj
    rw [Option.some.inj hkvj, MemoryKvInner.stamp, MemoryKvInner.stamp, ← hepoch, ← hversion]
  · rintro ⟨rfl, rfl, hquiet⟩
    have heq := hstamps.mpr hquiet
    have hepoch : kv'.epoch = kv.epoch := congrArg (fun p => (ofLex p).1) heq
    have hversion : kv'.currentVersion k₀ = kv.currentVersion k₀ :=
      congrArg (fun p => (ofLex p).2) heq
    rw [KvWorld.setIfMatch, hkv', Option.map_some, Option.some.injEq,
      MemoryKvInner.setIfMatch_fst, MemoryKvInner.generationFor, MemoryKvInner.generationFor, hid,
      hepoch, hversion]

/-- A key that is deleted and written again is another entry. -/
theorem setIfMatch_iff_unchanged_recreated :
    ((start Nat).run [.memoryKv, .call 0 (.set "k" 7)]).getVersioned 0 "k" =
        some (.hit 7 ⟨1, 0, "k", 1⟩) ∧
      (((start Nat).run [.memoryKv, .call 0 (.set "k" 7)]).run
        [.call 0 (.delete "k"), .call 0 (.set "k" 7)]).setIfMatch 0 "k" 8 ⟨1, 0, "k", 1⟩ ≠
          some true := by
  refine ⟨rfl, fun h => ?_⟩
  have hiff := (setIfMatch_iff_unchanged [.memoryKv, .call 0 (.set "k" 7)]
    [.call 0 (.delete "k"), .call 0 (.set "k" 7)] 0 0 "k" "k" 8 (.hit 7 ⟨1, 0, "k", 1⟩) rfl).1
  -- The delete found the key.
  exact (hiff.mp h).2.2.1 ⟨rfl, _, rfl, rfl, rfl⟩

end KvWorld

end GraphRefly.Storage
