import GraphRefly.Json.Scanner
import Mathlib

/-!
# Strict JSON Decoding

The decoder checks the text with the scanner, parses it with the JSON library,
encodes the parsed value again and accepts only when that gives the bytes it was
handed. So what it accepts is always canonical. The other direction, that
everything the encoder writes is accepted, has one gap: the encoder's check
allows a value to reach 128 levels below its root, and the library stops
parsing when containers nest 128 deep. Values in between are written and can
never be read back.

## Main definitions

* `strictJsonDecode`: The decoder.
* `readerLibrary`: The library as far as compact texts go.
* `nestedArrays`: Arrays nested inside one another.

## Theorems

* `strict_json_round_trip`: Decoding undoes encoding exactly below the library's
  recursion limit, and encoding always undoes decoding.
* `deep_arrays_unreadable`: A value that is written and cannot be read.
-/

namespace GraphRefly.Json

variable {F : Type}

def strictJsonDecode [Float64 F] (lib : SerdeJson F) (bytes : ByteArray) :
    Except JsonCodecError (JsonValue F) := do
  let text ← match String.fromUTF8? bytes with
    | some text => .ok text
    | none => .error (.decode (lib.utf8Error bytes))
  assertNoDuplicateJsonObjectKeys lib text.toList
  let decoded ← (lib.fromStr text.toList).mapError .decode
  let canonical ← strictCanonicalJsonBytes decoded.val
  if bytes ≠ canonical then
    .error (.validation "strictJsonCodec: bytes are not canonical stable JSON")
  else .ok decoded

/-! ### Equal values are checked alike -/

namespace Value

theorem height_reorder (v : Value F) : (v.reorder sortKeys).height = v.height := by
  have hle : ∀ k, (v.reorder sortKeys).height ≤ k ↔ v.height ≤ k := by
    induction v using Value.induction with
    | null | bool _ | number _ | string _ => intro k; rfl
    | array vs ih =>
      intro k
      rw [reorder_array, height, height, heightValues_le_iff, heightValues_le_iff,
        List.forall_mem_map]
      refine forall₂_congr fun v hv => ?_
      cases k with
      | zero => simp
      | succ k => simpa using ih v hv k
    | object es ih =>
      intro k
      rw [reorder_object, height, height, heightEntries_le_iff, heightEntries_le_iff]
      simp only [(sortKeys_perm _).mem_iff]
      rw [List.forall_mem_map]
      refine forall₂_congr fun e he => ?_
      cases k with
      | zero => simp
      | succ k => simpa using ih e he k
  exact Nat.le_antisymm ((hle _).mpr (Nat.le_refl _)) ((hle _).mp (Nat.le_refl _))

theorem nesting_reorder (v : Value F) : (v.reorder sortKeys).nesting = v.nesting := by
  have hle : ∀ k, (v.reorder sortKeys).nesting ≤ k ↔ v.nesting ≤ k := by
    induction v using Value.induction with
    | null | bool _ | number _ | string _ => intro k; rfl
    | array vs ih =>
      intro k
      rw [reorder_array, nesting, nesting]
      cases k with
      | zero => simp
      | succ k =>
        rw [Nat.add_le_add_iff_right, Nat.add_le_add_iff_right, nestingValues_le_iff,
          nestingValues_le_iff, List.forall_mem_map]
        exact forall₂_congr fun v hv => ih v hv k
    | object es ih =>
      intro k
      rw [reorder_object, nesting, nesting]
      cases k with
      | zero => simp
      | succ k =>
        rw [Nat.add_le_add_iff_right, Nat.add_le_add_iff_right, nestingEntries_le_iff,
          nestingEntries_le_iff]
        simp only [(sortKeys_perm _).mem_iff]
        rw [List.forall_mem_map]
        exact forall₂_congr fun e he => ih e he k
  exact Nat.le_antisymm ((hle _).mpr (Nat.le_refl _)) ((hle _).mp (Nat.le_refl _))

theorem reorder_reorder (v : Value F) :
    (v.reorder sortKeys).reorder sortKeys = v.reorder sortKeys := by
  induction v using Value.induction with
  | null | bool _ | number _ | string _ => rfl
  | array vs ih =>
    rw [reorder_array, reorder_array, List.map_map]
    exact congrArg _ (List.map_congr_left ih)
  | object es ih =>
    have hsort : ∀ es : List (String × Value F),
        sortKeys (es.map sortedEntry) = (sortKeys es).map sortedEntry := fun es =>
      sortKeys_map (fun e => e.2.reorder sortKeys) es
    have htwice : (es.map sortedEntry).map sortedEntry = es.map sortedEntry := by
      rw [List.map_map]
      exact List.map_congr_left fun e he => Prod.ext rfl (ih e he)
    have hobject (es : List (String × Value F)) :
        (Value.object es).reorder sortKeys = .object (sortKeys (es.map sortedEntry)) :=
      reorder_object _ _
    rw [hobject, hobject, hsort (sortKeys _), sortKeys_sortKeys, ← hsort, htwice]

theorem Distinct.reorder {v : Value F} (h : v.Distinct) : (v.reorder sortKeys).Distinct := by
  induction v using Value.induction with
  | null | bool _ | number _ | string _ => exact h
  | array vs ih =>
    have hparts := ((all_array _ _).mp h).2
    rw [reorder_array]
    refine (all_array _ _).mpr ⟨trivial, ?_⟩
    rw [List.forall_mem_map]
    exact fun v hv => ih v hv (hparts v hv)
  | object es ih =>
    have hparts := (all_object _ _).mp h
    rw [reorder_object]
    refine (all_object _ _).mpr ⟨?_, ?_⟩
    · have hperm := (sortKeys_perm (es.map sortedEntry)).map (·.1)
      rw [keys_map_sortedEntry] at hperm
      exact hperm.nodup_iff.mpr hparts.1
    · simp only [(sortKeys_perm _).mem_iff]
      rw [List.forall_mem_map]
      exact fun e he => ih e he (hparts.2 e he)

end Value

variable {v : Value F} {b : ByteArray}

/-- A value is encoded exactly when it is not too deep and its numbers are
    safe, and then to its canonical text. -/
theorem strictCanonicalJsonBytes_eq_ok [Float64 F] :
    strictCanonicalJsonBytes v = .ok b ↔
      (v.height ≤ 128 ∧ v.Safe) ∧ b = (String.ofList (canonicalJson v)).toUTF8 := by
  have hcheck := validateInner_eq_ok v "$" 0
  rw [Nat.zero_add] at hcheck
  unfold strictCanonicalJsonBytes stableJsonString validateStrictJsonValue
  cases hv : validateInner v "$" 0 with
  | error e =>
    rw [hv] at hcheck
    simp only [reduceCtorEq, false_iff] at hcheck
    simp [bind, Except.bind, Except.map, hcheck]
  | ok u =>
    rw [hv] at hcheck
    simp only [true_iff] at hcheck
    simp [bind, Except.bind, Except.map, hcheck, eq_comm]

theorem strictCanonicalJsonBytes_congr [Float64 F] {w : Value F}
    (h : v.reorder sortKeys = w.reorder sortKeys) (hv : strictCanonicalJsonBytes v = .ok b) :
    strictCanonicalJsonBytes w = .ok b := by
  have hsafe (u : Value F) : (u.reorder sortKeys).Safe ↔ u.Safe :=
    Value.all_reorder (fun _ => trivial) (fun _ => trivial) u
  rw [strictCanonicalJsonBytes_eq_ok] at hv ⊢
  rw [canonicalJson_eq_compact, ← Value.height_reorder, ← hsafe] at hv ⊢
  rw [← h]
  exact hv

theorem fromUTF8_toUTF8 (s : String) : String.fromUTF8? s.toUTF8 = some s := by
  rw [String.fromUTF8?, dif_pos (show s.toUTF8.IsValidUTF8 from s.isValidUTF8)]
  rfl

variable {lib : SerdeJson F}

/-- The bytes of an accepted value reach the library as the compact text of its
    sorted form. -/
theorem strictJsonDecode_encoded [Float64 F] (hlib : lib.Lawful) (hdistinct : v.Distinct)
    (hv : v.Integers)
    (hb : strictCanonicalJsonBytes v = .ok b) :
    strictJsonDecode lib b = (do
      let decoded ← (lib.fromStr (compact (v.reorder sortKeys))).mapError .decode
      let canonical ← strictCanonicalJsonBytes decoded.val
      if b ≠ canonical then
        .error (.validation "strictJsonCodec: bytes are not canonical stable JSON")
      else .ok decoded) := by
  have hbytes := (strictCanonicalJsonBytes_eq_ok.mp hb).2
  have hscan := assertNoDuplicateJsonObjectKeys_compact hlib hv.reorder hdistinct.reorder
  rw [canonicalJson_eq_compact] at hbytes
  have htext : String.fromUTF8? b = some (String.ofList (compact (v.reorder sortKeys))) := by
    rw [hbytes, fromUTF8_toUTF8]
  rw [strictJsonDecode, htext]
  simp only [bind, Except.bind, String.toList_ofList, hscan]

/-- Below the recursion limit an encoded value is decoded to an equal one. -/
theorem strictJsonDecode_shallow [Float64 F] (hlib : lib.Lawful)
    {v : JsonValue F} (hv : v.val.Integers)
    (hb : strictCanonicalJsonBytes v.val = .ok b) (hnesting : v.val.nesting < 128) :
    ∃ w, strictJsonDecode lib b = .ok w ∧ Value.Same v.val w.val := by
  have hdistinct := v.property.reorder
  obtain ⟨w, hw, hsame⟩ := hlib.value_compact ⟨_, hdistinct⟩ hv.reorder
    (by rw [Value.nesting_reorder]; exact hnesting)
  rw [Value.same_iff_reorder hdistinct w.property, Value.reorder_reorder] at hsame
  refine ⟨w, ?_, (Value.same_iff_reorder v.property w.property).mpr hsame⟩
  rw [strictJsonDecode_encoded hlib v.property hv hb, hw]
  simp [Except.mapError, bind, Except.bind, strictCanonicalJsonBytes_congr hsame hb]

/-- From the recursion limit on an encoded value is refused. -/
theorem strictJsonDecode_deep [Float64 F] (hlib : lib.Lawful) (hdistinct : v.Distinct)
    (hv : v.Integers)
    (hb : strictCanonicalJsonBytes v = .ok b) (hnesting : 128 ≤ v.nesting) :
    ∃ err, strictJsonDecode lib b = .error (.decode err) := by
  obtain ⟨err, herr⟩ := hlib.value_limit (v.reorder sortKeys) hv.reorder
    (by rw [Value.nesting_reorder]; exact hnesting)
  refine ⟨err, ?_⟩
  rw [strictJsonDecode_encoded hlib hdistinct hv hb, herr]
  rfl

/-- What is decoded encodes to the bytes it was decoded from. -/
theorem strictJsonDecode_canonical [Float64 F]
    {w : JsonValue F} (h : strictJsonDecode lib b = .ok w) :
    strictCanonicalJsonBytes w.val = .ok b := by
  unfold strictJsonDecode at h
  cases htext : String.fromUTF8? b with
  | none =>
    rw [htext] at h
    cases h
  | some text =>
    rw [htext] at h
    cases hscan : assertNoDuplicateJsonObjectKeys lib text.toList with
    | error e =>
      simp only [bind, Except.bind, hscan] at h
      cases h
    | ok u =>
      cases hparse : lib.fromStr text.toList with
      | error e =>
        simp only [bind, Except.bind, hscan, hparse, Except.mapError] at h
        cases h
      | ok decoded =>
        cases hencode : strictCanonicalJsonBytes decoded.val with
        | error e =>
          simp only [bind, Except.bind, hscan, hparse, Except.mapError, hencode] at h
          cases h
        | ok canonical =>
          simp only [bind, Except.bind, hscan, hparse, Except.mapError, hencode] at h
          split_ifs at h with hne
          cases h
          rw [hencode, not_not.mp hne]

/-- Decoding undoes encoding exactly for values whose containers nest less deep
    than the library's recursion limit, and encoding always undoes decoding. -/
theorem strict_json_round_trip [Float64 F] {lib : SerdeJson F} (hlib : lib.Lawful) :
    (∀ (v : JsonValue F) (b : ByteArray), v.val.Integers → strictCanonicalJsonBytes v.val = .ok b →
      ((∃ w, strictJsonDecode lib b = .ok w ∧ Value.Same v.val w.val) ↔ v.val.nesting < 128)) ∧
    (∀ (b : ByteArray) (w : JsonValue F), strictJsonDecode lib b = .ok w →
      strictCanonicalJsonBytes w.val = .ok b) := by
  refine ⟨?_, fun b w h => strictJsonDecode_canonical h⟩
  intro v b hv hb
  refine ⟨?_, strictJsonDecode_shallow hlib hv hb⟩
  rintro ⟨w, hw, -⟩
  by_contra hdeep
  obtain ⟨err, herr⟩ := strictJsonDecode_deep hlib v.property hv hb (Nat.not_lt.mp hdeep)
  rw [herr] at hw
  cases hw

/-! ### A library, and a value beyond its limit -/

namespace Value

mutual

/-- Deciding a property of every part. -/
def decideAll (p : Value F → Prop) [DecidablePred p] : (v : Value F) → Decidable (All p v)
  | .null => inferInstanceAs (Decidable (p .null))
  | .bool b => inferInstanceAs (Decidable (p (.bool b)))
  | .number n => inferInstanceAs (Decidable (p (.number n)))
  | .string s => inferInstanceAs (Decidable (p (.string s)))
  | .array vs =>
    have := decideAllValues p vs
    inferInstanceAs (Decidable (p (.array vs) ∧ AllValues p vs))
  | .object es =>
    have := decideAllEntries p es
    inferInstanceAs (Decidable (p (.object es) ∧ AllEntries p es))

def decideAllValues (p : Value F → Prop) [DecidablePred p] :
    (vs : List (Value F)) → Decidable (AllValues p vs)
  | [] => isTrue trivial
  | v :: vs =>
    have := decideAll p v
    have := decideAllValues p vs
    inferInstanceAs (Decidable (All p v ∧ AllValues p vs))

def decideAllEntries (p : Value F → Prop) [DecidablePred p] :
    (es : List (String × Value F)) → Decidable (AllEntries p es)
  | [] => isTrue trivial
  | (_, v) :: es =>
    have := decideAll p v
    have := decideAllEntries p es
    inferInstanceAs (Decidable (All p v ∧ AllEntries p es))

end

instance : DecidablePred (Distinct (F := F)) := fun v =>
  have : DecidablePred fun v : Value F => match v with
      | .object es => (keys es).Nodup
      | _ => True := fun
    | .object es => inferInstanceAs (Decidable (keys es).Nodup)
    | .null | .bool _ | .number _ | .string _ | .array _ => isTrue trivial
  decideAll _ v

end Value

/-- The library as far as compact texts go, with its recursion limit. -/
def readerLibrary (F : Type) : SerdeJson F where
  fromStr text :=
    match readValue text.length text with
    | some (v, []) =>
      if h : v.Distinct ∧ v.nesting < 128 then .ok ⟨v, h.1⟩ else .error "recursion limit exceeded"
    | _ => .error "expected value"
  fromStrString text :=
    match readString text.length text.tail with
    | some (cs, []) => .ok (String.ofList cs)
    | _ => .error "invalid type"
  debug s := String.ofList (quote s)
  utf8Error _ := "invalid utf-8 sequence"

theorem readerLibrary_lawful [Float64 F] : (readerLibrary F).Lawful where
  string_quote s := by
    have hread := readString_quote s [] (quote s).length (Nat.le_succ _)
    rw [List.append_nil] at hread
    simp [readerLibrary, hread]
  value_compact v hv hnesting := by
    have hread := readValue_compact hv _ [] (Nat.le_refl _) (by simp [EndsNumber])
    rw [List.append_nil] at hread
    refine ⟨v, ?_, (Value.same_iff_reorder v.property v.property).mpr rfl⟩
    simp [readerLibrary, hread, v.property, hnesting]
  value_limit v hv hnesting := by
    have hread := readValue_compact hv _ [] (Nat.le_refl _) (by simp [EndsNumber])
    rw [List.append_nil] at hread
    refine ⟨"recursion limit exceeded", ?_⟩
    have hlimit : ¬ (v.Distinct ∧ v.nesting < 128) := fun h => absurd h.2 (Nat.not_lt.mpr hnesting)
    simp [readerLibrary, hread, hlimit]

/-- Arrays nested inside one another. -/
def nestedArrays : Nat → Value Empty
  | 0 => .array []
  | n + 1 => .array [nestedArrays n]

theorem nestedArrays_nesting (n : Nat) : (nestedArrays n).nesting = n + 1 := by
  induction n with
  | zero => rfl
  | succ n ih => simp [nestedArrays, Value.nesting, Value.nestingValues, ih]

theorem nestedArrays_height (n : Nat) : (nestedArrays n).height = n := by
  induction n with
  | zero => rfl
  | succ n ih => simp [nestedArrays, Value.height, Value.heightValues, ih]

theorem nestedArrays_all {p : Value Empty → Prop} (hp : ∀ vs, p (.array vs)) (n : Nat) :
    Value.All p (nestedArrays n) := by
  induction n with
  | zero => simp [nestedArrays, hp]
  | succ n ih => simp [nestedArrays, hp, ih]

theorem strict_json_round_trip_nested :
    (∃ b, strictCanonicalJsonBytes (nestedArrays 100) = .ok b ∧
      ∃ w, strictJsonDecode (readerLibrary Empty) b = .ok w ∧
        Value.Same (nestedArrays 100) w.val) := by
  have hsafe : (nestedArrays 100).Safe := nestedArrays_all (fun _ => trivial) 100
  have hb := strictCanonicalJsonBytes_eq_ok.mpr
    ⟨⟨by rw [nestedArrays_height]; decide, hsafe⟩, rfl⟩
  refine ⟨_, hb, ?_⟩
  have htrip := (strict_json_round_trip (readerLibrary_lawful (F := Empty))).1
    ⟨nestedArrays 100, nestedArrays_all (fun _ => trivial) 100⟩ _
    (nestedArrays_all (fun _ => trivial) 100) hb
  exact htrip.mpr (by rw [nestedArrays_nesting]; decide)

/-- 128 arrays inside one another are encoded, and no library with the recursion
    limit lets the decoder read them back. -/
theorem deep_arrays_unreadable :
    (readerLibrary Empty).Lawful ∧ ∃ b, strictCanonicalJsonBytes (nestedArrays 127) = .ok b ∧
      (nestedArrays 127).Integers ∧
      (nestedArrays 127).Distinct ∧
      ∀ lib : SerdeJson Empty, lib.Lawful → ¬ ∃ w, strictJsonDecode lib b = .ok w := by
  have hsafe : (nestedArrays 127).Safe := nestedArrays_all (fun _ => trivial) 127
  have hintegers : (nestedArrays 127).Integers := nestedArrays_all (fun _ => trivial) 127
  have hdistinct : (nestedArrays 127).Distinct := nestedArrays_all (fun _ => trivial) 127
  have hb := strictCanonicalJsonBytes_eq_ok.mpr
    ⟨⟨by rw [nestedArrays_height]; decide, hsafe⟩, rfl⟩
  refine ⟨readerLibrary_lawful, _, hb, hintegers, hdistinct, ?_⟩
  rintro lib hlib ⟨w, hw⟩
  obtain ⟨err, herr⟩ := strictJsonDecode_deep hlib hdistinct hintegers hb
    (by rw [nestedArrays_nesting])
  rw [herr] at hw
  cases hw

end GraphRefly.Json
