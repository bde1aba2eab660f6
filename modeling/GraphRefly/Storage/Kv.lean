import Mathlib.Data.List.Sort
import Mathlib.Algebra.Group.Nat.Defs

/-!
# Key-Value Tiers

What the storage layer asks of a key-value tier, and the memory tier that meets
it. `AtomicKv` carries the laws of its operations as fields: a listing holds
exactly the present keys under its head, and `putIfAbsent` stores and returns
`true` if and only if the key was absent. Everything proved over an `AtomicKv`
holds for any tier that keeps these laws, whatever it stores the entries in.

The memory tier also counts versions, for the versioned reads of its interface.
Its entries are a hash map in the program; here they are an association list
with distinct keys.

## Main definitions

* `StorageError`: A failed storage operation with its message.
* `AtomicKv`: A tier with the laws of its operations.
* `MemoryKv`: The memory tier.
* `MemoryKv.tier`: The memory tier as an `AtomicKv`.

## Theorems

* `MemoryKv.get_set`: A write changes one key.
* `MemoryKv.mem_list`: A listing holds the present keys under its head.
-/

namespace GraphRefly.Storage

/-- The largest `u64`. -/
def u64Max : Nat := 2 ^ 64 - 1

/-- A failed storage operation. -/
inductive StorageError
  | backend (message : String)
  deriving DecidableEq

/-- Whether a key starts with a head. -/
def startsWith (key head : String) : Bool :=
  head.toList.isPrefixOf key.toList

/-- A key-value tier whose `put_if_absent` is atomic. -/
structure AtomicKv (σ V : Type) where
  get : σ → String → Option V
  list : σ → String → List String
  putIfAbsent : σ → String → V → Bool × σ
  mem_list : ∀ s head key,
    key ∈ list s head ↔ (get s key).isSome = true ∧ startsWith key head = true
  putIfAbsent_present : ∀ s key v, (get s key).isSome = true → putIfAbsent s key v = (false, s)
  putIfAbsent_absent : ∀ s key v, get s key = none →
    (putIfAbsent s key v).1 = true ∧
      ∀ k, get (putIfAbsent s key v).2 k = if k = key then some v else get s k

/-! ### The memory tier -/

structure MemoryEntry (V : Type) where
  value : V
  version : Nat

/-- The memory tier: its entries and the next version. The versions of deleted
    keys are left out, since no operation here deletes. -/
structure MemoryKv (V : Type) where
  entries : List (String × MemoryEntry V)
  nextVersion : Nat

namespace MemoryKv

variable {V : Type}

/-- The tier without entries. -/
def empty (V : Type) : MemoryKv V := ⟨[], 1⟩

section

variable (kv : MemoryKv V)

def get (key : String) : Option V :=
  (kv.entries.lookup key).map (·.value)

/-- Write a key under the next version. -/
def set (key : String) (value : V) : MemoryKv V where
  entries := (key, ⟨value, kv.nextVersion⟩) :: kv.entries.filter (fun e => e.1 != key)
  nextVersion := kv.nextVersion + 1

/-- Write a key unless it is there. -/
def putIfAbsent (key : String) (value : V) : Bool × MemoryKv V :=
  if (kv.entries.lookup key).isSome then (false, kv) else (true, kv.set key value)

/-- The keys under a head, sorted. -/
def list (head : String) : List String :=
  ((kv.entries.map (·.1)).filter (startsWith · head)).mergeSort (fun a b => decide (a ≤ b))

theorem lookup_filter_ne {β : Type} (es : List (String × β)) (key k : String) (hk : k ≠ key) :
    (es.filter (fun e => e.1 != key)).lookup k = es.lookup k := by
  induction es with
  | nil => rfl
  | cons e es ih =>
    obtain ⟨a, v⟩ := e
    by_cases ha : a = key
    · -- A removed entry was not the one looked for.
      subst ha
      have hne : (k == a) = false := by simpa using hk
      simp [List.lookup_cons, hne, ih]
    · simp only [List.filter_cons, bne_iff_ne, ne_eq, ha, not_false_eq_true, if_true,
        List.lookup_cons, ih]

theorem get_set (key k : String) (v : V) :
    (kv.set key v).get k = if k = key then some v else kv.get k := by
  unfold get set
  by_cases hk : k = key
  · subst hk
    simp
  · have hne : (k == key) = false := by simpa using hk
    simp [List.lookup_cons, hne, hk, lookup_filter_ne kv.entries key k hk]

theorem mem_list (head key : String) :
    key ∈ kv.list head ↔ (kv.get key).isSome = true ∧ startsWith key head = true := by
  have hkeys : key ∈ kv.entries.map (·.1) ↔ (kv.entries.lookup key).isSome = true := by
    induction kv.entries with
    | nil => simp
    | cons e es ih =>
      obtain ⟨a, v⟩ := e
      by_cases ha : key = a
      · subst ha
        simp
      · have hne : (key == a) = false := by simpa using ha
        simp only [List.map_cons, List.mem_cons, ha, false_or, List.lookup_cons, hne, ih]
  simp only [list, List.mem_mergeSort, List.mem_filter, hkeys, get, Option.isSome_map]

end

/-- The memory tier keeps the laws. -/
def tier (V : Type) : AtomicKv (MemoryKv V) V where
  get := get
  list := list
  putIfAbsent := putIfAbsent
  mem_list := mem_list
  putIfAbsent_present := by
    intro kv key v h
    rw [get, Option.isSome_map] at h
    exact if_pos h
  putIfAbsent_absent := by
    intro kv key v h
    have habsent : ¬ (kv.entries.lookup key).isSome = true := by
      rw [get, Option.map_eq_none_iff] at h
      simp [h]
    rw [putIfAbsent, if_neg habsent]
    exact ⟨rfl, fun k => get_set kv key k v⟩

end MemoryKv

end GraphRefly.Storage
