import GraphRefly.Json.Reader
import Mathlib.Data.List.Perm.Subperm

/-!
# Canonical JSON as an Identity

Canonical text is used as an identity: content keys, version ids and equality
tests hash or compare the bytes and never the values. That is sound when equal
values have equal bytes, whatever order their maps iterate in, and different
values have different bytes.

Both directions go through the value with every object sorted. Two values are
equal exactly when they have the same sorted form, because sorting an object
with distinct keys forgets the order and nothing else. And the canonical text
is the compact text of the sorted form, which can be read back.

## Main definitions

* `JsonValue`: A value whose objects are maps.

## Theorems

* `Value.same_iff_reorder`: Equality of values is equality of the sorted forms.
* `canonical_identity`: Canonical texts and bytes are equal exactly for equal
  values.
* `canonicalTupleKey_injective`: Different tuples have different keys.
-/

namespace GraphRefly.Json

open List

variable {F : Type}

/-- A value as the library holds it: no object has a key twice. -/
abbrev JsonValue (F : Type) : Type := { v : Value F // v.Distinct }

theorem lookup_eq_some_iff_mem {α : Type} {es : List (String × α)} (h : (es.map (·.1)).Nodup)
    {key : String} {a : α} : es.lookup key = some a ↔ (key, a) ∈ es := by
  induction es with
  | nil => simp
  | cons e es ih =>
    obtain ⟨k, b⟩ := e
    rw [map_cons, nodup_cons] at h
    by_cases hk : key = k
    · subst hk
      have hnot : (key, a) ∉ es := fun hmem => h.1 (mem_map.mpr ⟨_, hmem, rfl⟩)
      simp [hnot, eq_comm]
    · have hbeq : (key == k) = false := by simp [hk]
      rw [lookup_cons, hbeq]
      simp [ih h.2, hk]

namespace Value

/-- The sorted form of an entry. -/
def sortedEntry (e : String × Value F) : String × Value F := (e.1, e.2.reorder sortKeys)

theorem keys_map_sortedEntry (es : List (String × Value F)) :
    (es.map sortedEntry).map (·.1) = keys es := by
  rw [map_map]
  rfl

/-- A property of single values that arrays and objects always have is kept by
    rearranging. -/
theorem all_reorder {p : Value F → Prop} (harray : ∀ vs, p (.array vs))
    (hobject : ∀ es, p (.object es)) (v : Value F) : All p (v.reorder sortKeys) ↔ All p v := by
  induction v using Value.induction with
  | null | bool _ | number _ | string _ => rfl
  | array vs ih =>
    rw [reorder_array, all_array, all_array, forall_mem_map]
    simp only [harray, true_and]
    exact forall₂_congr ih
  | object es ih =>
    rw [reorder_object, all_object, all_object]
    simp only [(sortKeys_perm _).mem_iff, hobject, true_and]
    rw [forall_mem_map]
    exact forall₂_congr ih

theorem Integers.reorder {v : Value F} (h : v.Integers) : (v.reorder sortKeys).Integers :=
  (all_reorder (fun _ => trivial) (fun _ => trivial) v).mpr h

theorem sameValues_iff (vs ws : List (Value F))
    (h : ∀ v ∈ vs, ∀ w ∈ ws, Same v w ↔ v.reorder sortKeys = w.reorder sortKeys) :
    SameValues vs ws ↔ vs.map (reorder sortKeys) = ws.map (reorder sortKeys) := by
  induction vs generalizing ws with
  | nil => cases ws <;> simp [SameValues]
  | cons v vs ih =>
    cases ws with
    | nil => simp [SameValues]
    | cons w ws =>
      have hhead := h v mem_cons_self w mem_cons_self
      have htail := ih ws fun v hv w hw =>
        h v (mem_cons_of_mem _ hv) w (mem_cons_of_mem _ hw)
      rw [SameValues, hhead, htail]
      simp

theorem sameEntries_iff_perm (es fs : List (String × Value F)) (hes : (keys es).Nodup)
    (hfs : (keys fs).Nodup)
    (h : ∀ e ∈ es, ∀ f ∈ fs, Same e.2 f.2 ↔ e.2.reorder sortKeys = f.2.reorder sortKeys) :
    es.length = fs.length ∧ SameEntries es fs ↔
      (es.map sortedEntry).Perm (fs.map sortedEntry) := by
  rw [sameEntries_iff]
  constructor
  · rintro ⟨hlen, hfound⟩
    -- Distinct keys make the sorted entries distinct, so inclusion and equal
    -- length give a permutation.
    have hnodup : (es.map sortedEntry).Nodup :=
      List.Nodup.of_map (·.1) (by rw [keys_map_sortedEntry]; exact hes)
    have hsub : es.map sortedEntry ⊆ fs.map sortedEntry := by
      intro x hx
      obtain ⟨e, he, rfl⟩ := mem_map.mp hx
      obtain ⟨w, hw, hsame⟩ := hfound e he
      have hmem := (lookup_eq_some_iff_mem hfs).mp hw
      refine mem_map.mpr ⟨(e.1, w), hmem, ?_⟩
      rw [sortedEntry, sortedEntry, (h e he _ hmem).mp hsame]
    refine (subperm_of_subset hnodup hsub).perm_of_length_le ?_
    rw [length_map, length_map, hlen]
  · intro hperm
    have hlen := hperm.length_eq
    rw [length_map, length_map] at hlen
    refine ⟨hlen, fun e he => ?_⟩
    obtain ⟨f, hf, heq⟩ := mem_map.mp (hperm.mem_iff.mp (mem_map_of_mem he))
    obtain ⟨hkey, hvalue⟩ := Prod.mk.injEq .. ▸ heq
    refine ⟨f.2, (lookup_eq_some_iff_mem hfs).mpr ?_, (h e he f hf).mpr hvalue.symm⟩
    rw [← hkey]
    exact hf

theorem same_iff_reorder {v w : Value F} (hv : v.Distinct) (hw : w.Distinct) :
    Same v w ↔ v.reorder sortKeys = w.reorder sortKeys := by
  induction v using Value.induction generalizing w with
  | null => cases w <;> simp [Same, reorder]
  | bool b => cases w <;> simp [Same, reorder]
  | number n => cases w <;> simp [Same, reorder]
  | string s => cases w <;> simp [Same, reorder]
  | array vs ih =>
    cases w with
    | array ws =>
      have hvs := ((all_array _ _).mp hv).2
      have hws := ((all_array _ _).mp hw).2
      rw [Same, reorder_array, reorder_array,
        sameValues_iff vs ws fun v hmem w hmem' => ih v hmem (hvs v hmem) (hws w hmem')]
      simp
    | null | bool _ | number _ | string _ | object _ => simp [Same, reorder]
  | object es ih =>
    cases w with
    | object fs =>
      have hes := (all_object _ _).mp hv
      have hfs := (all_object _ _).mp hw
      rw [Same, reorder_object, reorder_object, sameEntries_iff_perm es fs hes.1 hfs.1
        fun e he f hf => ih e he (hes.2 e he) (hfs.2 f hf), Value.object.injEq]
      constructor
      · intro hperm
        have hnodup : ((es.map sortedEntry).map (·.1)).Nodup := by
          rw [keys_map_sortedEntry]
          exact hes.1
        exact sortKeys_eq_of_perm hperm hnodup
      · intro heq
        exact (sortKeys_perm _).symm.trans (heq ▸ sortKeys_perm _)
    | null | bool _ | number _ | string _ | array _ => simp [Same, reorder]

end Value

theorem stableJsonString_eq_ok [Float64 F] {v : Value F} {s : String}
    (h : stableJsonString v = .ok s) : s = String.ofList (canonicalJson v) := by
  unfold stableJsonString at h
  cases hv : validateStrictJsonValue v "$" with
  | error e =>
    rw [hv] at h
    cases h
  | ok u =>
    rw [hv] at h
    cases h
    rfl

theorem canonicalJson_eq_iff [Float64 F] {v w : Value F} (hv : v.Distinct) (hw : w.Distinct)
    (hvi : v.Integers) (hwi : w.Integers) : canonicalJson v = canonicalJson w ↔ Value.Same v w := by
  rw [canonicalJson_eq_compact, canonicalJson_eq_compact, Value.same_iff_reorder hv hw]
  exact ⟨compact_injective hvi.reorder hwi.reorder, fun h => by rw [h]⟩

/-- Canonical texts and bytes are equal exactly for equal values: an identity
    built on them neither splits equal values nor merges different ones. -/
theorem canonical_identity [Float64 F] (v w : JsonValue F) (hvi : v.val.Integers)
    (hwi : w.val.Integers) {s t : String} (hs : stableJsonString v.val = .ok s)
    (ht : stableJsonString w.val = .ok t) :
    (s = t ↔ Value.Same v.val w.val) ∧
      (strictCanonicalJsonBytes v.val = strictCanonicalJsonBytes w.val ↔
        Value.Same v.val w.val) := by
  have hst : s = t ↔ Value.Same v.val w.val := by
    rw [stableJsonString_eq_ok hs, stableJsonString_eq_ok ht, String.ofList_inj]
    exact canonicalJson_eq_iff v.property w.property hvi hwi
  refine ⟨hst, ?_⟩
  rw [← hst, strictCanonicalJsonBytes, strictCanonicalJsonBytes, hs, ht]
  simp only [Except.map, Except.ok.injEq]
  exact ⟨fun h => String.toByteArray_inj.mp h, fun h => by rw [h]⟩

/-- Values without floating-point numbers. -/
instance : Float64 Empty where
  display := nofun
  displayInteger := nofun
  isZero := nofun
  isFinite := nofun
  hasNoFraction := nofun
  isSubnormal := nofun
  exceedsSafeInteger := nofun

theorem canonicalTupleKey_eq (parts : List String) :
    canonicalTupleKey parts =
      String.ofList (compact (.array (parts.map .string) : Value Empty)) := by
  rw [canonicalTupleKey, compact, compactValues_eq_map, map_map]
  refine congrArg (fun texts => String.ofList ('[' :: ([','].intercalate texts ++ [']']))) ?_
  refine map_congr_left fun s _ => ?_
  rw [Function.comp_apply, compact]

/-- Different tuples have different keys. -/
theorem canonicalTupleKey_injective {parts others : List String}
    (h : canonicalTupleKey parts = canonicalTupleKey others) : parts = others := by
  have hintegers (ss : List String) : (Value.array (ss.map .string) : Value Empty).Integers := by
    rw [Value.Integers, Value.all_array]
    refine ⟨trivial, fun v hv => ?_⟩
    obtain ⟨s, _, rfl⟩ := mem_map.mp hv
    simp [Value.All]
  rw [canonicalTupleKey_eq, canonicalTupleKey_eq, String.ofList_inj] at h
  have harray := compact_injective (hintegers parts) (hintegers others) h
  rw [Value.array.injEq] at harray
  exact map_injective_iff.mpr (fun _ _ heq => Value.string.inj heq) harray

theorem compoundTupleKey_injective {label : String} {parts others : List String}
    (h : compoundTupleKey label parts = compoundTupleKey label others) : parts = others := by
  rw [compoundTupleKey, compoundTupleKey, String.append_right_inj] at h
  exact canonicalTupleKey_injective h

theorem toString_nat_injective {m n : Nat} (h : toString m = toString n) : m = n := by
  have hdigits : Nat.toDigits 10 m = Nat.toDigits 10 n := by
    rw [← Nat.toList_repr, ← Nat.toList_repr]
    exact congrArg String.toList h
  rw [← Nat.ofDigitChars_ten_toDigits (n := m), hdigits, Nat.ofDigitChars_ten_toDigits]

/-- An object with a key from the end of the basic plane and one beyond it. -/
def planes : JsonValue Empty :=
  ⟨.object [("～", .number (.int 1)), ("𝄞", .null)],
    by simp [Value.Distinct, Value.All, Value.AllEntries, Value.keys]⟩

/-- The same object as another map iterates it. -/
def planesSwapped : JsonValue Empty :=
  ⟨.object [("𝄞", .null), ("～", .number (.int 1))],
    by simp [Value.Distinct, Value.All, Value.AllEntries, Value.keys]⟩

theorem canonical_identity_planes :
    stableJsonString planes.val = .ok "\x7b\"𝄞\":null,\"～\":1\x7d" ∧
      Value.Same planes.val planesSwapped.val := by
  have hs : stableJsonString planes.val = .ok "\x7b\"𝄞\":null,\"～\":1\x7d" := by decide +kernel
  have ht : stableJsonString planesSwapped.val = .ok "\x7b\"𝄞\":null,\"～\":1\x7d" :=
    by decide +kernel
  have hvi : planes.val.Integers := by simp [planes, Value.Integers, Value.All, Value.AllEntries]
  have hwi : planesSwapped.val.Integers := by simp [planesSwapped, Value.Integers, Value.All,
    Value.AllEntries]
  exact ⟨hs, (canonical_identity planes planesSwapped hvi hwi hs ht).1.mp rfl⟩

end GraphRefly.Json
