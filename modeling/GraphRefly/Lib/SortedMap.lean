import Mathlib.Order.Lattice
import Mathlib.Data.List.Induction
import Mathlib.Data.List.Nodup
import Mathlib.Data.List.Perm.Basic

/-!
# Sorted Maps

Finite maps that iterate in the order of their keys, as a list of entries with
strictly increasing keys. The order is a field of the structure, so every map is
sorted and a key occurs once.

What the maps are used for is comparison with unsorted lists of rows: an insert
is, up to order, the new entry before everything with another key, and an erase
is a filter.

## Main definitions

* `SortedMap`: A map with its entries in key order.
* `SortedMap.insert`, `SortedMap.erase`, `SortedMap.lookup`: The operations.
* `SortedMap.ofList`: A map collected from a list of entries.
* `SortedMap.mapValues`: Every value changed in place.
* `SortedMap.retain`: The entries that pass a test.
* `SortedMap.map`: Every value changed to one of another type.

## Theorems

* `SortedMap.nodup_keys`: A key occurs once.
* `SortedMap.insert_perm`: An insert as a list of rows.
* `SortedMap.lookup_eq_some`: Looking up an entry.
* `SortedMap.lookup_insert`: Looking up after an insert.
* `SortedMap.mem_ofList_iff`, `SortedMap.length_ofList`: A map of entries with different keys.
* `SortedMap.lookup_select`: A map of the entries for some keys.
* `SortedMap.lookup_mapValues`: Looking up after a change in place.
* `SortedMap.lookup_retain`: Looking up among the entries that pass a test.
* `SortedMap.insert_map`: Inserting and changing every value commute.
-/

namespace GraphRefly.Lib

open List

variable {K V : Type} [LinearOrder K]

/-- Put an entry where its key belongs, over an entry with the same key. -/
def insertEntry (k : K) (v : V) : List (K × V) → List (K × V)
  | [] => [(k, v)]
  | e :: es =>
    if k < e.1 then (k, v) :: e :: es
    else if e.1 < k then e :: insertEntry k v es
    else (k, v) :: es

/-- A map with its entries in key order. -/
structure SortedMap (K V : Type) [LinearOrder K] where
  entries : List (K × V)
  sorted : entries.Pairwise fun a b => a.1 < b.1

variable {es : List (K × V)}

theorem mem_insertEntry {k : K} {v : V} {e : K × V}
    (h : e ∈ insertEntry k v es) : e = (k, v) ∨ e ∈ es := by
  induction es with
  | nil => simpa [insertEntry] using h
  | cons d es ih =>
    rw [insertEntry] at h
    split_ifs at h
    · simpa using h
    · rcases mem_cons.mp h with rfl | h
      · exact Or.inr mem_cons_self
      · exact (ih h).imp_right (mem_cons_of_mem d)
    · rcases mem_cons.mp h with rfl | h
      · exact Or.inl rfl
      · exact Or.inr (mem_cons_of_mem d h)

theorem insertEntry_sorted (k : K) (v : V) (h : es.Pairwise fun a b => a.1 < b.1) :
    (insertEntry k v es).Pairwise fun a b => a.1 < b.1 := by
  induction es with
  | nil => simp [insertEntry]
  | cons d es ih =>
    obtain ⟨hd, hes⟩ := pairwise_cons.mp h
    rw [insertEntry]
    split_ifs with hlt hgt
    · refine pairwise_cons.mpr ⟨fun e he => ?_, h⟩
      rcases mem_cons.mp he with rfl | he
      · exact hlt
      · exact hlt.trans (hd e he)
    · refine pairwise_cons.mpr ⟨fun e he => ?_, ih hes⟩
      rcases mem_insertEntry he with rfl | he
      · exact hgt
      · exact hd e he
    · have heq : k = d.1 := le_antisymm (not_lt.mp hgt) (not_lt.mp hlt)
      exact pairwise_cons.mpr ⟨fun e he => heq ▸ hd e he, hes⟩

theorem insertEntry_perm (k : K) (v : V) (h : es.Pairwise fun a b => a.1 < b.1) :
    (insertEntry k v es).Perm ((k, v) :: es.filter fun e => decide (e.1 ≠ k)) := by
  induction es with
  | nil => simp [insertEntry]
  | cons d es ih =>
    obtain ⟨hd, hes⟩ := pairwise_cons.mp h
    -- Above the new key nothing is filtered out.
    have hkeep (hle : k ≤ d.1) : es.filter (fun e => decide (e.1 ≠ k)) = es := by
      refine filter_eq_self.mpr fun e he => ?_
      exact decide_eq_true (hle.trans_lt (hd e he)).ne'
    rw [insertEntry]
    split_ifs with hlt hgt
    · rw [filter_cons_of_pos (by simpa using hlt.ne'), hkeep hlt.le]
    · rw [filter_cons_of_pos (by simpa using hgt.ne)]
      exact ((ih hes).cons d).trans (List.Perm.swap _ _ _)
    · have heq : d.1 = k := le_antisymm (not_lt.mp hlt) (not_lt.mp hgt)
      rw [filter_cons_of_neg (by simpa using heq), hkeep heq.ge]

namespace SortedMap

/-- The map without entries. -/
def empty : SortedMap K V := ⟨[], List.Pairwise.nil⟩

section

variable (m : SortedMap K V) (k : K)

def insert (v : V) : SortedMap K V :=
  ⟨insertEntry k v m.entries, insertEntry_sorted k v m.sorted⟩

def erase : SortedMap K V :=
  ⟨m.entries.filter fun e => decide (e.1 ≠ k), m.sorted.filter _⟩

def lookup : Option V :=
  (m.entries.find? fun e => decide (e.1 = k)).map (·.2)

theorem entries_erase : (m.erase k).entries = m.entries.filter fun e => decide (e.1 ≠ k) := rfl

end

/-- A map collected from entries, where a later entry replaces an earlier one. -/
def ofList (es : List (K × V)) : SortedMap K V :=
  es.foldl (fun m e => m.insert e.1 e.2) empty

/-- The values, in the order of their keys. -/
def values (m : SortedMap K V) : List V := m.entries.map (·.2)

def length (m : SortedMap K V) : Nat := m.entries.length

variable {m : SortedMap K V}

@[ext] theorem ext {n : SortedMap K V} (h : m.entries = n.entries) : m = n := by
  cases m
  cases n
  simpa using h

theorem nodup_keys (m : SortedMap K V) : (m.entries.map (·.1)).Nodup := by
  rw [List.Nodup, pairwise_map]
  exact m.sorted.imp fun hlt => hlt.ne

theorem insert_perm (m : SortedMap K V) (k : K) (v : V) :
    (m.insert k v).entries.Perm ((k, v) :: m.entries.filter fun e => decide (e.1 ≠ k)) :=
  insertEntry_perm k v m.sorted

variable {k : K} {v : V}

theorem lookup_eq_some (h : m.lookup k = some v) : (k, v) ∈ m.entries := by
  rw [lookup, Option.map_eq_some_iff] at h
  obtain ⟨e, he, rfl⟩ := h
  have hk : e.1 = k := by simpa using List.find?_some he
  rw [← hk]
  exact mem_of_find?_eq_some he

theorem lookup_eq_none :
    m.lookup k = none ↔ ∀ e ∈ m.entries, e.1 ≠ k := by
  simp [lookup]

variable {e : K × V}

theorem mem_insert :
    e ∈ (m.insert k v).entries ↔ e = (k, v) ∨ (e ∈ m.entries ∧ e.1 ≠ k) := by
  rw [(m.insert_perm k v).mem_iff, mem_cons, mem_filter, decide_eq_true_iff]

theorem lookup_eq_some_iff :
    m.lookup k = some v ↔ (k, v) ∈ m.entries := by
  refine ⟨lookup_eq_some, fun hmem => ?_⟩
  cases hlook : m.lookup k with
  | none => exact absurd rfl (lookup_eq_none.mp hlook _ hmem)
  | some w =>
    -- Two entries of one key are one entry.
    have hinj := inj_on_of_nodup_map m.nodup_keys
    have heq := hinj (lookup_eq_some hlook) hmem rfl
    rw [Prod.mk.injEq] at heq
    rw [heq.2]

section

variable (m : SortedMap K V)

theorem lookup_insert (k k' : K) (v : V) :
    (m.insert k v).lookup k' = if k' = k then some v else m.lookup k' := by
  refine Option.ext fun w => ?_
  rw [lookup_eq_some_iff, mem_insert, Prod.mk.injEq]
  by_cases heq : k' = k
  · subst heq
    simp [eq_comm]
  · simp [heq, lookup_eq_some_iff]

@[simp] theorem lookup_insert_self (k : K) (v : V) : (m.insert k v).lookup k = some v := by
  rw [lookup_insert, if_pos rfl]

theorem lookup_insert_of_ne {k' : K} (v : V) (h : k' ≠ k) :
    (m.insert k v).lookup k' = m.lookup k' := by
  rw [lookup_insert, if_neg h]

theorem lookup_erase (k k' : K) : (m.erase k).lookup k' = if k' = k then none else m.lookup k' := by
  refine Option.ext fun w => ?_
  rw [lookup_eq_some_iff, entries_erase, mem_filter, decide_eq_true_iff]
  by_cases heq : k' = k
  · simp [heq]
  · simp [heq, lookup_eq_some_iff]

@[simp] theorem lookup_erase_self (k : K) : (m.erase k).lookup k = none := by
  rw [lookup_erase, if_pos rfl]

theorem lookup_erase_of_ne {k' : K} (h : k' ≠ k) : (m.erase k).lookup k' = m.lookup k' := by
  rw [lookup_erase, if_neg h]

end

@[simp] theorem lookup_empty (k : K) : (empty : SortedMap K V).lookup k = none := rfl

variable {es : List (K × V)}

theorem mem_ofList (h : e ∈ (ofList es).entries) : e ∈ es := by
  have hgen (es : List (K × V)) (m : SortedMap K V)
      (h : e ∈ (es.foldl (fun m e => m.insert e.1 e.2) m).entries) : e ∈ es ∨ e ∈ m.entries := by
    induction es generalizing m with
    | nil => exact Or.inr h
    | cons d es ih =>
      rcases ih _ h with hmem | hmem
      · exact Or.inl (mem_cons_of_mem d hmem)
      · rcases mem_insert.mp hmem with rfl | ⟨hmem, _⟩
        · exact Or.inl mem_cons_self
        · exact Or.inr hmem
  exact (hgen es empty h).resolve_right not_mem_nil

theorem ofList_concat (es : List (K × V)) (e : K × V) :
    ofList (es ++ [e]) = (ofList es).insert e.1 e.2 := by
  rw [ofList, foldl_append]
  rfl

theorem mem_ofList_iff (h : (es.map (·.1)).Nodup) :
    e ∈ (ofList es).entries ↔ e ∈ es := by
  refine ⟨mem_ofList, ?_⟩
  induction es using List.reverseRecOn with
  | nil => exact fun hmem => absurd hmem not_mem_nil
  | append_singleton es d ih =>
    rw [map_append] at h
    intro hmem
    rw [ofList_concat, mem_insert]
    rcases mem_append.mp hmem with hold | hnew
    · -- An older entry stands under another key.
      refine Or.inr ⟨ih h.of_append_left hold, fun hkey => ?_⟩
      exact disjoint_of_nodup_append h (mem_map_of_mem hold) (by simp [hkey])
    · exact Or.inl (mem_singleton.mp hnew)

theorem length_ofList (h : (es.map (·.1)).Nodup) : (ofList es).length = es.length := by
  have hperm : (ofList es).entries.Perm es :=
    (perm_ext_iff_of_nodup (ofList es).nodup_keys.of_map h.of_map).mpr
      fun e => mem_ofList_iff h
  exact hperm.length_eq

section

variable (m : SortedMap K V)

theorem lookup_select {keys : List K} (hkeys : keys.Nodup) (k : K) :
    (ofList (keys.filterMap fun k => (m.lookup k).map fun v => (k, v))).lookup k =
      if k ∈ keys then m.lookup k else none := by
  have hread : ((keys.filterMap fun k => (m.lookup k).map fun v => (k, v)).map (·.1)).Nodup := by
    rw [map_filterMap]
    refine hkeys.filterMap ?_
    intro a b c ha hb
    simp only [Option.map_map, Option.mem_def, Option.map_eq_some_iff] at ha hb
    obtain ⟨x, -, hx⟩ := ha
    obtain ⟨y, -, hy⟩ := hb
    exact hx.trans hy.symm
  refine Option.ext fun v => ?_
  rw [lookup_eq_some_iff, mem_ofList_iff hread, mem_filterMap]
  constructor
  · rintro ⟨k', hk', hentry⟩
    obtain ⟨v', hv', heq⟩ := Option.map_eq_some_iff.mp hentry
    obtain ⟨rfl, rfl⟩ := Prod.mk.inj heq
    rw [if_pos hk']
    exact hv'
  · intro h
    by_cases hk : k ∈ keys
    · rw [if_pos hk] at h
      exact ⟨k, hk, by rw [h]; rfl⟩
    · rw [if_neg hk] at h
      cases h

/-- Every value changed to one of another type. -/
def map {W : Type} (m : SortedMap K V) (f : V → W) : SortedMap K W :=
  ⟨m.entries.map fun e => (e.1, f e.2), pairwise_map.mpr m.sorted⟩

theorem lookup_map {W : Type} (m : SortedMap K V) (f : V → W) (k : K) :
    (m.map f).lookup k = (m.lookup k).map f := by
  refine Option.ext fun w => ?_
  rw [lookup_eq_some_iff, map, mem_map, Option.map_eq_some_iff]
  constructor
  · rintro ⟨e, he, heq⟩
    rw [Prod.mk.injEq] at heq
    exact ⟨e.2, lookup_eq_some_iff.mpr (heq.1 ▸ he), heq.2⟩
  · rintro ⟨v, hv, rfl⟩
    exact ⟨(k, v), lookup_eq_some hv, rfl⟩

/-- Every value changed in place, under the key it has. -/
def mapValues (f : V → V) : SortedMap K V :=
  ⟨m.entries.map fun e => (e.1, f e.2), pairwise_map.mpr m.sorted⟩

theorem lookup_mapValues (f : V → V) (k : K) : (m.mapValues f).lookup k = (m.lookup k).map f :=
  lookup_map m f k

/-- The entries that pass a test. -/
def retain (p : K → V → Bool) : SortedMap K V :=
  ⟨m.entries.filter fun e => p e.1 e.2, m.sorted.filter _⟩

theorem lookup_retain (p : K → V → Bool) (k : K) :
    (m.retain p).lookup k = (m.lookup k).filter (p k) := by
  refine Option.ext fun v => ?_
  rw [lookup_eq_some_iff, retain, mem_filter, ← lookup_eq_some_iff, Option.filter_eq_some_iff]

theorem retain_retain (p : K → V → Bool) : (m.retain p).retain p = m.retain p := by
  simp [retain, filter_filter]

end

theorem insertEntry_map {W : Type} (f : V → W) (k : K) (v : V) (es : List (K × V)) :
    insertEntry k (f v) (es.map fun e => (e.1, f e.2)) =
      (insertEntry k v es).map fun e => (e.1, f e.2) := by
  induction es with
  | nil => rfl
  | cons e es ih =>
    rw [map_cons, insertEntry, insertEntry, ih]
    split_ifs <;> rfl

theorem insert_map {W : Type} (m : SortedMap K V) (f : V → W) (k : K) (v : V) :
    (m.map f).insert k (f v) = (m.insert k v).map f := by
  simp only [insert, map, insertEntry_map]

theorem values_map {W : Type} (m : SortedMap K V) (f : V → W) :
    (m.map f).values = m.values.map f := by
  simp [values, map]

end SortedMap

end GraphRefly.Lib
