import GraphRefly.Storage.AppendLog
import Mathlib.Data.List.Perm.Basic

/-!
# The Append Log

The append log of one writer over a key-value tier. An append numbers its entry
one above the largest number it finds; a read lists the keys, keeps those after
a given number, sorts them by their numbers and fetches the values.

`Stores` says which numbered values the log holds, in the order of their
numbers; a read returns those after a number, whatever order the tier lists its
keys in. `Holds` is the log whose numbers are the positions of its values. An
append to one that holds `vs` leaves one that holds `vs` and the new value.

## Main definitions

* `KvStorageTier`: A tier with the laws of its operations.
* `AppendLogStorage.append`: Append one value.
* `readAppendLogEntries`: Read the entries after a number.
* `Stores`: The numbered values of a log, in order.
* `Holds`: The values of a log without gaps, in order.
* `logEntries`: The entries of a list of values.

## Theorems

* `Stores.read`: A read returns the values after a number in order.
* `Holds.append`: An append extends the log by its value.
* `Holds.read`: A read returns the values in order.
-/

namespace GraphRefly.Storage

open List

variable {σ V : Type}

/-- A key-value tier as a single writer uses it. -/
structure KvStorageTier (σ V : Type) where
  get : σ → String → Option V
  list : σ → String → List String
  set : σ → String → V → σ
  mem_list : ∀ s head key,
    key ∈ list s head ↔ (get s key).isSome = true ∧ startsWith key head = true
  nodup_list : ∀ s head, (list s head).Nodup
  get_set : ∀ s key v k, get (set s key v) k = if k = key then some v else get s k

/-- Append a value under the next number. -/
def AppendLogStorage.append (kv : KvStorageTier σ V) (pre : String) (s : σ) (value : V) :
    Except StorageError (AppendLogEntry V × σ) := do
  let seq ← nextSeqFromKeys pre (kv.list s (logHead pre))
  let key := appendLogKey pre seq
  return (⟨key, seq, value⟩, kv.set s key value)

/-- The value of a listed key. -/
def fetchEntry (kv : KvStorageTier σ V) (s : σ) (k : String × Nat) :
    Except StorageError (AppendLogEntry V) :=
  match kv.get s k.1 with
  | some value => .ok ⟨k.1, k.2, value⟩
  | none => .error (.backend ("append log listed key is missing: " ++ k.1))

/-- Whether a number comes after the one a read starts at. -/
def isAfter (after : Option Nat) (seq : Nat) : Bool := after.all fun a => decide (a < seq)

/-- The entries after a number, in the order of their numbers. -/
def readAppendLogEntries (kv : KvStorageTier σ V) (pre : String) (s : σ) (after : Option Nat)
    (limit : Option Nat) : Except StorageError (List (AppendLogEntry V)) := do
  let keys ← (kv.list s (logHead pre)).mapM fun key =>
    (seqFromKey pre key).map fun seq => (key, seq)
  let sorted := (keys.filter fun k => isAfter after k.2).insertionSort fun a b => a.2 ≤ b.2
  (limit.elim sorted sorted.take).mapM (fetchEntry kv s)

/-! ### The entries of a log -/

/-- The entry of a numbered value. -/
def entryOf (pre : String) (e : Nat × V) : AppendLogEntry V := ⟨appendLogKey pre e.1, e.1, e.2⟩

/-- The key and the number of a numbered value. -/
def keyOf (pre : String) (e : Nat × V) : String × Nat := (appendLogKey pre e.1, e.1)

/-- Under its head the tier holds exactly these numbered values. -/
structure Stores (kv : KvStorageTier σ V) (pre : String) (s : σ) (es : List (Nat × V)) : Prop where
  sorted : es.Pairwise fun a b => a.1 < b.1
  bound : ∀ e ∈ es, e.1 ≤ u64Max
  keys : ∀ key, (kv.get s key).isSome = true → startsWith key (logHead pre) = true →
    ∃ e ∈ es, key = appendLogKey pre e.1
  values : ∀ e ∈ es, kv.get s (appendLogKey pre e.1) = some e.2

section Stores

variable {kv : KvStorageTier σ V} {pre : String} {s : σ} {es : List (Nat × V)}

theorem Stores.mem_list (h : Stores kv pre s es) (key : String) :
    key ∈ kv.list s (logHead pre) ↔ ∃ e ∈ es, key = appendLogKey pre e.1 := by
  rw [kv.mem_list]
  constructor
  · rintro ⟨hsome, hhead⟩
    exact h.keys key hsome hhead
  · rintro ⟨e, he, rfl⟩
    rw [h.values e he]
    exact ⟨rfl, startsWith_appendLogKey pre e.1⟩

theorem mapM_parse {listed : List String}
    (h : ∀ key ∈ listed, ∃ seq ≤ u64Max, key = appendLogKey pre seq) :
    ∃ keys, (listed.mapM fun key => (seqFromKey pre key).map fun seq => (key, seq)) = .ok keys ∧
      keys.map (·.1) = listed ∧ ∀ k ∈ keys, k.2 ≤ u64Max ∧ k.1 = appendLogKey pre k.2 := by
  induction listed with
  | nil => exact ⟨[], rfl, rfl, by simp⟩
  | cons key listed ih =>
    obtain ⟨seq, hle, rfl⟩ := h key mem_cons_self
    obtain ⟨keys, hkeys, hmap, hmem⟩ := ih fun k hk => h k (mem_cons_of_mem _ hk)
    refine ⟨(appendLogKey pre seq, seq) :: keys, ?_, by rw [map_cons, hmap], ?_⟩
    · rw [mapM_cons, seqFromKey_appendLogKey pre hle, hkeys]
      rfl
    · intro k hk
      rcases mem_cons.mp hk with rfl | hk
      · exact ⟨hle, rfl⟩
      · exact hmem k hk

theorem Stores.nodup_keys (h : Stores kv pre s es) : (es.map (keyOf pre)).Nodup := by
  refine List.Pairwise.map _ (fun a b hab heq => ?_) h.sorted
  exact absurd (Prod.mk.inj heq).2 (Nat.ne_of_lt hab)

theorem Stores.keys_perm (h : Stores kv pre s es) :
    ∃ keys, ((kv.list s (logHead pre)).mapM fun key =>
        (seqFromKey pre key).map fun seq => (key, seq)) = .ok keys ∧
      keys.map (·.1) = kv.list s (logHead pre) ∧ keys.Perm (es.map (keyOf pre)) := by
  obtain ⟨keys, hkeys, hmap, hmem⟩ := mapM_parse fun key hkey => by
    obtain ⟨e, he, heq⟩ := (h.mem_list key).mp hkey
    exact ⟨e.1, h.bound e he, heq⟩
  have hnodup : (keys.map (·.1)).Nodup := hmap ▸ kv.nodup_list s (logHead pre)
  refine ⟨keys, hkeys, hmap, (perm_ext_iff_of_nodup hnodup.of_map h.nodup_keys).mpr ?_⟩
  intro k
  constructor
  · intro hk
    -- A key that was read is listed, so it is the key of an entry.
    have hlisted : k.1 ∈ kv.list s (logHead pre) := hmap ▸ mem_map_of_mem hk
    obtain ⟨e, he, heq⟩ := (h.mem_list _).mp hlisted
    obtain ⟨hle, hkey⟩ := hmem k hk
    have hseq : k.2 = e.1 := appendLogKey_inj pre hle (h.bound e he) (hkey.symm.trans heq)
    exact mem_map.mpr ⟨e, he, Prod.ext heq.symm hseq.symm⟩
  · intro hk
    -- The key of an entry is listed, so it was read, and its number is the one it spells.
    obtain ⟨e, he, rfl⟩ := mem_map.mp hk
    have hlisted : appendLogKey pre e.1 ∈ keys.map (·.1) := by
      rw [hmap, h.mem_list]
      exact ⟨e, he, rfl⟩
    obtain ⟨k', hk', hkey⟩ := mem_map.mp hlisted
    obtain ⟨hle, hkey'⟩ := hmem k' hk'
    have hseq : k'.2 = e.1 := appendLogKey_inj pre hle (h.bound e he) (hkey'.symm.trans hkey)
    have heq : k' = keyOf pre e := Prod.ext hkey hseq
    exact heq ▸ hk'

theorem Stores.sort_keys (h : Stores kv pre s es) {keys : List (String × Nat)}
    (hperm : keys.Perm (es.map (keyOf pre))) (after : Option Nat) :
    (keys.filter fun k => isAfter after k.2).insertionSort (fun a b => a.2 ≤ b.2) =
      (es.filter fun e => isAfter after e.1).map (keyOf pre) := by
  have hsorted : ((es.filter fun e => isAfter after e.1).map (keyOf pre)).Pairwise
      fun a b => a.2 ≤ b.2 :=
    List.Pairwise.map _ (fun a b hab => Nat.le_of_lt hab) (h.sorted.filter _)
  have : Std.Total fun a b : String × Nat => a.2 ≤ b.2 := ⟨fun a b => Nat.le_total a.2 b.2⟩
  have : IsTrans (String × Nat) fun a b => a.2 ≤ b.2 := ⟨fun _ _ _ => Nat.le_trans⟩
  have hfilter : (keys.filter fun k => isAfter after k.2).Perm
      ((es.filter fun e => isAfter after e.1).map (keyOf pre)) := by
    have := hperm.filter fun k => isAfter after k.2
    rwa [filter_map] at this
  refine List.Perm.eq_of_pairwise ?_ (pairwise_insertionSort _ _) hsorted
    ((perm_insertionSort _ _).trans hfilter)
  intro a b ha hb hab hba
  have hkey : ∀ k ∈ (es.filter fun e => isAfter after e.1).map (keyOf pre),
      k = (appendLogKey pre k.2, k.2) := by
    intro k hk
    obtain ⟨e, -, rfl⟩ := mem_map.mp hk
    rfl
  have ha' := hfilter.mem_iff.mp ((mem_insertionSort _).mp ha)
  rw [hkey a ha', hkey b hb, Nat.le_antisymm hab hba]

theorem mapM_fetchEntry {ks : List (String × Nat)} {es : List (AppendLogEntry V)}
    (h : List.Forall₂ (fun k e => fetchEntry kv s k = .ok e) ks es) :
    ks.mapM (fetchEntry kv s) = .ok es := by
  induction h with
  | nil => rfl
  | cons hhead _ ih =>
    rw [mapM_cons, hhead, ih]
    rfl

/-- A read returns the values after a number in order, cut to a limit. -/
theorem Stores.read (h : Stores kv pre s es) (after limit : Option Nat) :
    readAppendLogEntries kv pre s after limit =
      .ok ((limit.elim (es.filter fun e => isAfter after e.1)
        (es.filter fun e => isAfter after e.1).take).map (entryOf pre)) := by
  obtain ⟨keys, hkeys, -, hperm⟩ := h.keys_perm
  rw [readAppendLogEntries, hkeys]
  simp only [bind, Except.bind, h.sort_keys hperm after]
  have hcut : limit.elim ((es.filter fun e => isAfter after e.1).map (keyOf pre))
      ((es.filter fun e => isAfter after e.1).map (keyOf pre)).take =
      (limit.elim (es.filter fun e => isAfter after e.1)
        (es.filter fun e => isAfter after e.1).take).map (keyOf pre) := by
    cases limit with
    | none => rfl
    | some n => exact map_take.symm
  rw [hcut]
  refine mapM_fetchEntry ?_
  rw [List.forall₂_map_left_iff, List.forall₂_map_right_iff]
  refine List.forall₂_same.mpr fun e he => ?_
  have hmem : e ∈ es := by
    cases limit with
    | none => exact (mem_filter.mp he).1
    | some n => exact (mem_filter.mp (mem_of_mem_take he)).1
  rw [fetchEntry, keyOf, h.values e hmem]
  rfl

end Stores

/-! ### What a log holds -/

/-- Under its head the tier holds exactly the values of a list, numbered by their
    positions. -/
structure Holds (kv : KvStorageTier σ V) (pre : String) (s : σ) (vs : List V) : Prop where
  size : vs.length ≤ u64Max + 1
  keys : ∀ key, (kv.get s key).isSome = true → startsWith key (logHead pre) = true →
    ∃ seq < vs.length, key = appendLogKey pre seq
  values : ∀ seq (h : seq < vs.length), kv.get s (appendLogKey pre seq) = some (vs[seq])

/-- The entries of a list of values. -/
def logEntries (pre : String) (vs : List V) : List (AppendLogEntry V) :=
  vs.zipIdx.map fun p => ⟨appendLogKey pre p.2, p.2, p.1⟩

variable {kv : KvStorageTier σ V} {pre : String} {s : σ} {vs : List V}

theorem Holds.mem_list (h : Holds kv pre s vs) (key : String) :
    key ∈ kv.list s (logHead pre) ↔ ∃ seq < vs.length, key = appendLogKey pre seq := by
  rw [kv.mem_list]
  constructor
  · rintro ⟨hsome, hhead⟩
    exact h.keys key hsome hhead
  · rintro ⟨seq, hlt, rfl⟩
    rw [h.values seq hlt]
    exact ⟨rfl, startsWith_appendLogKey pre seq⟩

theorem holds_nil (h : ∀ key, startsWith key (logHead pre) = true → kv.get s key = none) :
    Holds kv pre s [] where
  size := Nat.zero_le _
  keys := fun key hsome hhead => by simp [h key hhead] at hsome
  values := fun seq hlt => absurd hlt (Nat.not_lt_zero seq)

/-- An append extends the log by its value. -/
theorem Holds.append (h : Holds kv pre s vs) (hlen : vs.length ≤ u64Max) (v : V) :
    AppendLogStorage.append kv pre s v =
        .ok (⟨appendLogKey pre vs.length, vs.length, v⟩, kv.set s (appendLogKey pre vs.length) v) ∧
      Holds kv pre (kv.set s (appendLogKey pre vs.length) v) (vs ++ [v]) := by
  refine ⟨?_, ?_, ?_, ?_⟩
  · have hnext := nextSeqFromKeys_eq pre h.size h.mem_list
    rw [if_neg (by omega)] at hnext
    simp only [AppendLogStorage.append, hnext]
    rfl
  · rw [length_append, length_singleton]
    omega
  · intro key hsome hhead
    rw [kv.get_set] at hsome
    rw [length_append, length_singleton]
    by_cases hkey : key = appendLogKey pre vs.length
    · exact ⟨vs.length, by omega, hkey⟩
    · rw [if_neg hkey] at hsome
      obtain ⟨seq, hlt, heq⟩ := h.keys key hsome hhead
      exact ⟨seq, by omega, heq⟩
  · intro seq hlt
    rw [length_append, length_singleton] at hlt
    rw [kv.get_set]
    by_cases hseq : seq = vs.length
    · subst hseq
      simp
    · have hlt' : seq < vs.length := by omega
      -- Another position has another key.
      have hkey : appendLogKey pre seq ≠ appendLogKey pre vs.length := fun heq =>
        hseq (appendLogKey_inj pre (by omega) hlen heq)
      rw [if_neg hkey, h.values seq hlt', getElem_append_left hlt']

/-! ### Reading -/

/-- The values of a list with their positions. -/
def numbered (vs : List V) : List (Nat × V) := vs.zipIdx.map fun p => (p.2, p.1)

theorem logEntries_numbered (pre : String) (vs : List V) :
    logEntries pre vs = (numbered vs).map (entryOf pre) := by
  rw [logEntries, numbered, map_map]
  rfl

theorem mem_numbered {e : Nat × V} : e ∈ numbered vs ↔ vs[e.1]? = some e.2 := by
  simp only [numbered, mem_map, mem_zipIdx_iff_getElem?]
  constructor
  · rintro ⟨p, hp, rfl⟩
    exact hp
  · exact fun h => ⟨(e.2, e.1), h, rfl⟩

theorem Holds.stores (h : Holds kv pre s vs) : Stores kv pre s (numbered vs) where
  sorted := by
    refine List.Pairwise.map (R := fun a b => a.2 < b.2) _ (fun _ _ hab => hab) ?_
    rw [pairwise_iff_getElem]
    intro i j hi hj hij
    simpa using hij
  bound := by
    intro e he
    have hlt := (List.getElem?_eq_some_iff.mp (mem_numbered.mp he)).1
    have := h.size
    omega
  keys := by
    intro key hsome hhead
    obtain ⟨seq, hlt, rfl⟩ := h.keys key hsome hhead
    exact ⟨(seq, vs[seq]), mem_numbered.mpr (List.getElem?_eq_getElem hlt), rfl⟩
  values := by
    intro e he
    obtain ⟨hlt, heq⟩ := List.getElem?_eq_some_iff.mp (mem_numbered.mp he)
    rw [h.values e.1 hlt, heq]

/-- A read returns the values in order. -/
theorem Holds.read (h : Holds kv pre s vs) (after : Option Nat) :
    readAppendLogEntries kv pre s after none =
      .ok ((logEntries pre vs).filter fun e => isAfter after e.seq) := by
  rw [h.stores.read after none, logEntries_numbered, filter_map]
  rfl

/-! ### The memory tier -/

/-- The memory tier with its entries under distinct keys. -/
abbrev MemoryStore (V : Type) : Type := { kv : MemoryKv V // (kv.entries.map (·.1)).Nodup }

namespace MemoryStore

/-- The tier without entries. -/
def empty (V : Type) : MemoryStore V := ⟨MemoryKv.empty V, nodup_nil⟩

def set (kv : MemoryStore V) (key : String) (value : V) : MemoryStore V := by
  refine ⟨kv.val.set key value, ?_⟩
  refine nodup_cons.mpr ⟨?_, kv.property.sublist (filter_sublist.map _)⟩
  simp

/-- The memory tier keeps the laws. -/
def tier (V : Type) : KvStorageTier (MemoryStore V) V where
  get := fun kv key => kv.val.get key
  list := fun kv head => kv.val.list head
  set := set
  mem_list := fun kv head key => kv.val.mem_list head key
  nodup_list := fun kv _ =>
    (mergeSort_perm _ _).nodup_iff.mpr (kv.property.sublist filter_sublist)
  get_set := fun kv key v k => kv.val.get_set key k v

end MemoryStore

end GraphRefly.Storage
