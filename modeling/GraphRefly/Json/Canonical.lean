import GraphRefly.Json.Value
import Mathlib.Data.List.Lex

/-!
# Canonical JSON

The canonical encoder. A value is first checked, for its depth and for numbers
that another runtime could not hold, and then written without white space and
with the keys of every object sorted by their UTF-16 code units. That order is
not the order of the characters themselves: a character outside the basic plane
is a surrogate pair and sorts below the end of the basic plane.

The text is described once more by `compact`, which writes a value with its
entries in the order they stand in. The encoder writes the compact text of the
value with every object sorted, so whatever is proved about compact texts is
proved about canonical ones.

## Main definitions

* `JsonCodecError`: How encoding or decoding fails.
* `validateStrictJsonValue`: The check before encoding.
* `cmpJsUtf16`: The order of the keys.
* `canonicalJson`: The canonical text of a value.
* `stableJsonString`, `strictCanonicalJsonBytes`: The checked encoders.
* `compact`: The text of a value with its entries as they stand.

## Theorems

* `utf16_injective`: A string is determined by its code units.
* `sortKeys_eq_of_perm`: Sorting forgets the order of an object's entries.
* `canonicalJson_eq_compact`: The canonical text is a compact text.
* `validateInner_eq_ok`: Exactly what the check accepts.
-/

namespace GraphRefly.Json

open List

variable {F : Type}

/-- How encoding or decoding fails. -/
inductive JsonCodecError
  | encode (message : String)
  | decode (message : String)
  | validation (message : String)
  deriving DecidableEq

def JsonCodecError.toString : JsonCodecError → String
  | .encode message => "json encode failed: " ++ message
  | .decode message => "json decode failed: " ++ message
  | .validation message => message

/-- The largest integer that another runtime can hold exactly. -/
def jsMaxSafeInteger : Int := 9007199254740991

/-! ### Numbers -/

/-- An integer in decimal. -/
def decimal (n : Int) : List Char :=
  if n < 0 then '-' :: Nat.toDigits 10 n.natAbs else Nat.toDigits 10 n.natAbs

/-- A number as the library itself prints it. -/
def Number.display [Float64 F] : Number F → List Char
  | .int n => decimal n
  | .float x => (Float64.display x).toList

/-- A number in the canonical text. -/
def canonicalNumberString [Float64 F] : Number F → List Char
  | .int n => decimal n
  | .float x =>
    if Float64.isZero x then ['0']
    else if Float64.isFinite x && Float64.hasNoFraction x && !Float64.exceedsSafeInteger x then
      (Float64.displayInteger x).toList
    else (Float64.display x).toList

/-! ### The check -/

/-- The check of one number. An integer in the safe range is its own nearest
    float, so the questions about floats reject none of them. -/
def validateNumber [Float64 F] (path : String) : Number F → Except JsonCodecError Unit
  | .int n =>
    if n < -jsMaxSafeInteger ∨ jsMaxSafeInteger < n then
      .error (.validation
        s!"strictJsonCodec: JSON integer at {path} is outside the safe integer range")
    else .ok ()
  | .float x =>
    if Float64.display x = "-0.0" ∨ Float64.display x = "-0" then
      .error (.validation
        s!"strictJsonCodec: JSON number at {path} is not strict canonical JSON compatible")
    else if Float64.isSubnormal x then
      .error (.validation
        s!"strictJsonCodec: JSON number at {path} is subnormal and not strict canonical JSON compatible")
    else if Float64.hasNoFraction x && Float64.exceedsSafeInteger x then
      .error (.validation
        s!"strictJsonCodec: JSON integer at {path} is outside the safe integer range")
    else .ok ()

def depthError (path : String) : JsonCodecError :=
  .validation s!"strictJsonCodec: JSON value at {path} exceeds maximum depth 128"

mutual

/-- The check of a value at a path and a depth below the root. -/
def validateInner [Float64 F] : Value F → String → Nat → Except JsonCodecError Unit
  | .object es, path, depth =>
    if 128 < depth then .error (depthError path) else validateEntries es path depth
  | .array vs, path, depth =>
    if 128 < depth then .error (depthError path) else validateValues vs path 0 depth
  | .number n, path, depth =>
    if 128 < depth then .error (depthError path) else validateNumber path n
  | .null, path, depth => if 128 < depth then .error (depthError path) else .ok ()
  | .bool _, path, depth => if 128 < depth then .error (depthError path) else .ok ()
  | .string _, path, depth => if 128 < depth then .error (depthError path) else .ok ()

def validateValues [Float64 F] : List (Value F) → String → Nat → Nat → Except JsonCodecError Unit
  | [], _, _, _ => .ok ()
  | v :: vs, path, index, depth => do
      validateInner v s!"{path}[{index}]" (depth + 1)
      validateValues vs path (index + 1) depth

def validateEntries [Float64 F] :
    List (String × Value F) → String → Nat → Except JsonCodecError Unit
  | [], _, _ => .ok ()
  | (key, v) :: es, path, depth => do
      validateInner v s!"{path}.{key}" (depth + 1)
      validateEntries es path depth

end

def validateStrictJsonValue [Float64 F] (v : Value F) (path : String) : Except
    JsonCodecError Unit :=
  validateInner v path 0

/-! ### The order of the keys -/

/-- The UTF-16 code units of a character. -/
def charUnits (c : Char) : List Nat :=
  if c.toNat < 0x10000 then [c.toNat]
  else [0xD800 + (c.toNat - 0x10000) / 0x400, 0xDC00 + (c.toNat - 0x10000) % 0x400]

/-- The UTF-16 code units of a string. -/
def utf16 (s : String) : List Nat := s.toList.flatMap charUnits

def cmpJsUtf16 (a b : String) : Ordering := compareOfLessAndEq (utf16 a) (utf16 b)

/-- The first entry's key does not come after the second's. -/
def keyLe {α : Type} (a b : String × α) : Prop := (cmpJsUtf16 a.1 b.1).isLE

instance {α : Type} : DecidableRel (@keyLe α) := fun a b =>
  inferInstanceAs (Decidable ((cmpJsUtf16 a.1 b.1).isLE = true))

/-- An object's entries with their keys in order. -/
def sortKeys {α : Type} (entries : List (String × α)) : List (String × α) :=
  entries.insertionSort keyLe

/-! ### The text -/

/-- An object's entry. -/
def entryText (entry : String × List Char) : List Char := quote entry.1 ++ ':' :: entry.2

mutual

/-- The canonical text of a value. -/
def canonicalJson [Float64 F] : Value F → List Char
  | .null => "null".toList
  | .bool true => "true".toList
  | .bool false => "false".toList
  | .number n => canonicalNumberString n
  | .string s => quote s
  | .array vs => '[' :: ([','].intercalate (canonicalValues vs) ++ [']'])
  | .object es =>
    '{' :: ([','].intercalate ((sortKeys (canonicalEntries es)).map entryText) ++ ['}'])

def canonicalValues [Float64 F] : List (Value F) → List (List Char)
  | [] => []
  | v :: vs => canonicalJson v :: canonicalValues vs

def canonicalEntries [Float64 F] : List (String × Value F) → List (String × List Char)
  | [] => []
  | (key, v) :: es => (key, canonicalJson v) :: canonicalEntries es

end

def stableJsonString [Float64 F] (v : Value F) : Except JsonCodecError String := do
  validateStrictJsonValue v "$"
  .ok (String.ofList (canonicalJson v))

def strictCanonicalJsonBytes [Float64 F] (v : Value F) : Except JsonCodecError ByteArray :=
  (stableJsonString v).map String.toUTF8

mutual

/-- The text of a value with the entries of its objects as they stand. -/
def compact [Float64 F] : Value F → List Char
  | .null => "null".toList
  | .bool true => "true".toList
  | .bool false => "false".toList
  | .number n => canonicalNumberString n
  | .string s => quote s
  | .array vs => '[' :: ([','].intercalate (compactValues vs) ++ [']'])
  | .object es => '{' :: ([','].intercalate (compactEntries es) ++ ['}'])

def compactValues [Float64 F] : List (Value F) → List (List Char)
  | [] => []
  | v :: vs => compact v :: compactValues vs

def compactEntries [Float64 F] : List (String × Value F) → List (List Char)
  | [] => []
  | (key, v) :: es => entryText (key, compact v) :: compactEntries es

end

/-! ### Canonical texts are compact texts -/

theorem canonicalValues_eq_map [Float64 F] (vs : List (Value F)) :
    canonicalValues vs = vs.map canonicalJson := by
  induction vs with
  | nil => rfl
  | cons v vs ih => simp [canonicalValues, ih]

theorem canonicalEntries_eq_map [Float64 F] (es : List (String × Value F)) :
    canonicalEntries es = es.map fun e => (e.1, canonicalJson e.2) := by
  induction es with
  | nil => rfl
  | cons e es ih =>
    obtain ⟨key, v⟩ := e
    simp [canonicalEntries, ih]

theorem compactValues_eq_map [Float64 F] (vs : List (Value F)) :
    compactValues vs = vs.map compact := by
  induction vs with
  | nil => rfl
  | cons v vs ih => simp [compactValues, ih]

theorem compactEntries_eq_map [Float64 F] (es : List (String × Value F)) :
    compactEntries es = es.map fun e => entryText (e.1, compact e.2) := by
  induction es with
  | nil => rfl
  | cons e es ih =>
    obtain ⟨key, v⟩ := e
    simp [compactEntries, ih]

theorem sortKeys_map {α β : Type} (f : String × α → β) (es : List (String × α)) :
    sortKeys (es.map fun e => (e.1, f e)) = (sortKeys es).map fun e => (e.1, f e) := by
  refine (map_insertionSort keyLe keyLe _ es ?_).symm
  intro a _ b _
  exact Iff.rfl

/-- The canonical text is the compact text of the value with every object
    sorted. -/
theorem canonicalJson_eq_compact [Float64 F] (v : Value F) :
    canonicalJson v = compact (v.reorder sortKeys) := by
  induction v using Value.induction with
  | null => rfl
  | bool b => cases b <;> rfl
  | number n => rfl
  | string s => rfl
  | array vs ih =>
    have htext : vs.map canonicalJson = vs.map fun v => compact (v.reorder sortKeys) :=
      map_congr_left ih
    rw [Value.reorder_array, canonicalJson, compact, canonicalValues_eq_map, compactValues_eq_map,
      map_map, htext]
    rfl
  | object es ih =>
    have htext : es.map (fun e => (e.1, canonicalJson e.2))
        = es.map fun e => (e.1, compact (e.2.reorder sortKeys)) :=
      map_congr_left fun e he => by rw [ih e he]
    rw [Value.reorder_object, canonicalJson, compact, canonicalEntries_eq_map,
      compactEntries_eq_map, htext,
      sortKeys_map (fun e : String × Value F => compact (e.2.reorder sortKeys)) es,
      sortKeys_map (fun e : String × Value F => e.2.reorder sortKeys) es, map_map,
        map_map]
    rfl

/-! ### Code units order the strings -/

/-- The first code unit tells a pair from a single unit, and the units give the
    character back. -/
theorem charUnits_append_inj {c d : Char} {us ws : List Nat}
    (h : charUnits c ++ us = charUnits d ++ ws) : c = d ∧ us = ws := by
  -- No character is a surrogate, so a single unit is never the start of a pair.
  have hc : c.toNat < 0xD800 ∨ 0xDFFF < c.toNat ∧ c.toNat < 0x110000 := c.valid
  have hd : d.toNat < 0xD800 ∨ 0xDFFF < d.toNat ∧ d.toNat < 0x110000 := d.valid
  unfold charUnits at h
  split_ifs at h with h1 h2 h2
  · simp only [singleton_append, List.cons.injEq] at h
    exact ⟨Char.toNat_inj.mp h.1, h.2⟩
  · simp only [cons_append, nil_append, List.cons.injEq] at h
    omega
  · simp only [cons_append, nil_append, List.cons.injEq] at h
    omega
  · simp only [cons_append, nil_append, List.cons.injEq] at h
    refine ⟨Char.toNat_inj.mp ?_, h.2.2⟩
    omega

theorem charUnits_ne_nil (c : Char) : charUnits c ≠ [] := by
  unfold charUnits
  split_ifs <;> simp

/-- A string is determined by its code units. -/
theorem utf16_injective {s t : String} (h : utf16 s = utf16 t) : s = t := by
  have key : ∀ cs ds : List Char, cs.flatMap charUnits = ds.flatMap charUnits → cs = ds := by
    intro cs
    induction cs with
    | nil =>
      intro ds h
      cases ds with
      | nil => rfl
      | cons d ds => simp [charUnits_ne_nil] at h
    | cons c cs ih =>
      intro ds h
      cases ds with
      | nil => simp [charUnits_ne_nil] at h
      | cons d ds =>
        rw [flatMap_cons, flatMap_cons] at h
        obtain ⟨rfl, htail⟩ := charUnits_append_inj h
        rw [ih ds htail]
  exact String.toList_injective (key _ _ h)

theorem keyLe_iff {α : Type} {a b : String × α} : keyLe a b ↔ utf16 a.1 ≤ utf16 b.1 := by
  unfold keyLe cmpJsUtf16 compareOfLessAndEq
  split_ifs with h1 h2
  · simpa using le_of_lt h1
  · simp [h2]
  · simp only [Ordering.isLE, Bool.false_eq_true, false_iff]
    intro hle
    rcases lt_or_eq_of_le hle with h | h
    · exact h1 h
    · exact h2 h

theorem sortKeys_perm {α : Type} (es : List (String × α)) : (sortKeys es).Perm es :=
  perm_insertionSort _ _

instance {α : Type} : Std.Total (@keyLe α) where
  total a b := by
    rw [keyLe_iff, keyLe_iff]
    exact le_total _ _

instance {α : Type} : IsTrans (String × α) keyLe where
  trans a b c hab hbc := by
    rw [keyLe_iff] at *
    exact le_trans hab hbc

theorem sortKeys_pairwise {α : Type} (es : List (String × α)) :
    (sortKeys es).Pairwise fun a b => utf16 a.1 ≤ utf16 b.1 :=
  (pairwise_insertionSort keyLe es).imp keyLe_iff.mp

theorem sortKeys_sortKeys {α : Type} (es : List (String × α)) :
    sortKeys (sortKeys es) = sortKeys es :=
  (pairwise_insertionSort keyLe es).insertionSort_eq

theorem eq_of_mem_of_key_eq {α : Type} {es : List (String × α)} (hnodup : (es.map (·.1)).Nodup)
    {a b : String × α} (ha : a ∈ es) (hb : b ∈ es) (hkey : a.1 = b.1) : a = b :=
  inj_on_of_nodup_map hnodup ha hb hkey

/-- Sorting forgets the order of an object's entries. -/
theorem sortKeys_eq_of_perm {α : Type} {es fs : List (String × α)} (hperm : es.Perm fs)
    (hnodup : (es.map (·.1)).Nodup) : sortKeys es = sortKeys fs := by
  refine List.Perm.eq_of_pairwise ?_ (sortKeys_pairwise es) (sortKeys_pairwise fs)
    ((sortKeys_perm es).trans (hperm.trans (sortKeys_perm fs).symm))
  intro a b ha hb hab hba
  have hkey := utf16_injective (le_antisymm hab hba)
  exact eq_of_mem_of_key_eq hnodup ((sortKeys_perm es).mem_iff.mp ha)
    (hperm.mem_iff.mpr ((sortKeys_perm fs).mem_iff.mp hb)) hkey

/-! ### What the check accepts -/

/-- A number that the check accepts. -/
def Number.Safe [Float64 F] : Number F → Prop
  | .int n => -jsMaxSafeInteger ≤ n ∧ n ≤ jsMaxSafeInteger
  | .float x => Float64.display x ≠ "-0.0" ∧ Float64.display x ≠ "-0" ∧
    Float64.isSubnormal x = false ∧
      (Float64.hasNoFraction x && Float64.exceedsSafeInteger x) = false

/-- Every number of the value is safe. -/
def Value.Safe [Float64 F] : Value F → Prop :=
  Value.All fun
    | .number n => n.Safe
    | _ => True

theorem validateNumber_eq_ok [Float64 F] (path : String) (n : Number F) :
    validateNumber path n = .ok () ↔ n.Safe := by
  cases n with
  | int n =>
    simp only [validateNumber, Number.Safe]
    split_ifs with h
    · simp only [false_iff]
      omega
    · simp only [true_iff]
      omega
  | float x =>
    simp only [validateNumber, Number.Safe]
    split_ifs with h1 h2 h3
    · simp only [false_iff]
      exact fun h => h1.elim h.1 h.2.1
    · simp [h2]
    · simp [h3]
    · rw [not_or] at h1
      simp only [Bool.not_eq_true] at h2 h3
      simp [h1, h2, h3]

theorem bind_eq_ok_unit {x y : Except JsonCodecError Unit} :
    (x >>= fun _ => y) = .ok () ↔ x = .ok () ∧ y = .ok () := by
  cases x <;> simp [bind, Except.bind]

theorem validateValues_eq_ok [Float64 F] (vs : List (Value F)) (path : String) (depth : Nat)
    (ok : Value F → Prop)
    (h : ∀ v ∈ vs, ∀ path, validateInner v path (depth + 1) = .ok () ↔ ok v) (index : Nat) :
    validateValues vs path index depth = .ok () ↔ ∀ v ∈ vs, ok v := by
  induction vs generalizing index with
  | nil => simp [validateValues]
  | cons v vs ih =>
    rw [forall_mem_cons] at h ⊢
    rw [validateValues, bind_eq_ok_unit, h.1, ih h.2]

theorem validateEntries_eq_ok [Float64 F] (es : List (String × Value F)) (path : String)
    (depth : Nat) (ok : Value F → Prop)
    (h : ∀ e ∈ es, ∀ path, validateInner e.2 path (depth + 1) = .ok () ↔ ok e.2) :
    validateEntries es path depth = .ok () ↔ ∀ e ∈ es, ok e.2 := by
  induction es with
  | nil => simp [validateEntries]
  | cons e es ih =>
    obtain ⟨key, v⟩ := e
    rw [forall_mem_cons] at h ⊢
    rw [validateEntries, bind_eq_ok_unit, h.1, ih h.2]

/-- The check accepts exactly the values with safe numbers that reach at most
    128 levels below the root. -/
theorem validateInner_eq_ok [Float64 F] (v : Value F) (path : String) (depth : Nat) :
    validateInner v path depth = .ok () ↔ depth + v.height ≤ 128 ∧ v.Safe := by
  induction v using Value.induction generalizing path depth with
  | null | bool _ | string _ =>
    simp only [validateInner, Value.height, Value.Safe, Value.All]
    split_ifs with h
    · simp only [false_iff]
      omega
    · simp only [and_true, true_iff]
      omega
  | number n =>
    simp only [validateInner, Value.height, Value.Safe, Value.All]
    split_ifs with h
    · simp only [false_iff]
      omega
    · rw [validateNumber_eq_ok]
      simp only [iff_and_self]
      omega
  | array vs ih =>
    have hvalues := validateValues_eq_ok vs path depth
      (fun v => depth + 1 + v.height ≤ 128 ∧ v.Safe) (fun v hv path => ih v hv path _) 0
    simp only [validateInner, Value.height, Value.Safe, Value.all_array, true_and]
    split_ifs with h
    · simp only [false_iff]
      omega
    · have hheight := @Value.heightValues_le_iff F vs (128 - depth)
      rw [hvalues, forall₂_and, ← Nat.le_sub_iff_add_le' (by omega), hheight]
      exact and_congr_left' (forall₂_congr fun v _ => by omega)
  | object es ih =>
    have hentries := validateEntries_eq_ok es path depth
      (fun v => depth + 1 + v.height ≤ 128 ∧ v.Safe) (fun e he path => ih e he path _)
    simp only [validateInner, Value.height, Value.Safe, Value.all_object, true_and]
    split_ifs with h
    · simp only [false_iff]
      omega
    · have hheight := @Value.heightEntries_le_iff F (128 - depth) es
      rw [hentries, forall₂_and, ← Nat.le_sub_iff_add_le' (by omega), hheight]
      exact and_congr_left' (forall₂_congr fun e _ => by omega)

end GraphRefly.Json
