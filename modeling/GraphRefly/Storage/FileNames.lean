import GraphRefly.Json.Decode
import GraphRefly.Storage.AppendLog

/-!
# File Names

The file backend keeps every key in a file of its own. The name of the file is
the key, made physical by the backend's namespace, spelled with letters, digits
and a few signs, between a mark in front and the extension behind. Reading the
directory takes the names apart again.

A stem spells the UTF-8 bytes of a key. Its decoder is lenient, so it spells
what it has read once more and compares. The namespace and the key are one JSON
text, whose writing and reading is a library's: `SerdeStrings`.

## Main definitions

* `keyToFileStem`, `fileStemToKey`: Spelling a key, and reading it.
* `storagePhysicalKey`, `decodeStoragePhysicalKey`: A key with its namespace.
* `FileBackend`: A backend with a valid extension.
* `FileBackend.pathFor`, `FileBackend.keyFromFilename`: The file of a key, and
  the key of a file.

## Theorems

* `fileStemToKey_keyToFileStem`: A stem spells its key.
* `file_names_recover`: Every key has a file of its own, and only the backends
  with its namespace and extension read it back.
-/

namespace GraphRefly.Storage

open List

/-! ### Stems -/

/-- Whether a byte stands for itself in a stem. -/
def isPlainByte (b : UInt8) : Bool :=
  (48 ≤ b && b ≤ 57) || (65 ≤ b && b ≤ 90) || (97 ≤ b && b ≤ 122) || b == 95 || b == 45

/-- The lower-case digit of a nibble. -/
def hexNibble (value : UInt8) : Char :=
  if value ≤ 9 then Char.ofNat (48 + value).toNat else Char.ofNat (97 + (value - 10)).toNat

/-- How a stem spells a byte. -/
def encodeByte (b : UInt8) : List Char :=
  if isPlainByte b then [Char.ofNat b.toNat]
  else ['%', hexNibble (b >>> 4), hexNibble (b &&& 0x0f)]

/-- The bytes of a string. -/
def stringBytes (s : String) : List UInt8 := s.toUTF8.data.toList

def keyToFileStem (key : String) : String :=
  String.ofList ((stringBytes key).flatMap encodeByte)

/-- The value of a hexadecimal digit, in either case. -/
def toDigit16 (b : UInt8) : Option UInt8 :=
  if 48 ≤ b ∧ b ≤ 57 then some (b - 48)
  else if 97 ≤ b ∧ b ≤ 102 then some (b - 87)
  else if 65 ≤ b ∧ b ≤ 70 then some (b - 55)
  else none

/-- The bytes a stem spells. A percent sign without two bytes behind it stands
    for itself. -/
def decodeStem : List UInt8 → Option (List UInt8)
  | [] => some []
  | b :: hi :: lo :: rest =>
    if b = 37 then do
      let hi ← toDigit16 hi
      let lo ← toDigit16 lo
      let out ← decodeStem rest
      return (hi <<< 4 ||| lo) :: out
    else if b < 128 then (decodeStem (hi :: lo :: rest)).map (b :: ·)
    else none
  | b :: rest => if b < 128 then (decodeStem rest).map (b :: ·) else none

/-- The key a stem spells. -/
def fileStemToKey (stem : String) : Option String := do
  let out ← decodeStem (stringBytes stem)
  let key ← String.fromUTF8? ⟨out.toArray⟩
  if keyToFileStem key = stem then some key else none

/-! ### Physical keys -/

/-- What the JSON library does with lists of strings. -/
structure SerdeStrings where
  toStr : List String → String
  fromStr : String → Option (List String)

/-- The library reads back what it writes. -/
def SerdeStrings.Inverse (serde : SerdeStrings) : Prop :=
  ∀ parts, serde.fromStr (serde.toStr parts) = some parts

def storageNamespacePrefixWithColon : String := "storage-namespace:"

/-- A key with its namespace. -/
def storagePhysicalKey (serde : SerdeStrings) (nameSpace logicalKey : String) : String :=
  storageNamespacePrefixWithColon ++ serde.toStr [nameSpace, logicalKey]

/-- The text after a head. -/
def stripString (head text : String) : Option String :=
  (stripHead head.toList text.toList).map String.ofList

/-- The key of a physical key, if its namespace is this one. -/
def decodeStoragePhysicalKey (serde : SerdeStrings) (nameSpace rawKey malformedMessage : String) :
    Except StorageError (Option String) :=
  match stripString storageNamespacePrefixWithColon rawKey with
  | none => .ok none
  | some tupleKey =>
    match serde.fromStr tupleKey with
    | none => .error (.backend malformedMessage)
    | some tuple =>
      if tuple.head? ≠ some nameSpace then .ok none
      else
        match tuple with
        | [_, key] => .ok (some key)
        | _ => .error (.backend malformedMessage)

/-! ### The backend -/

/-- Whether a text has two dots in a row. -/
def hasDoubleDot : List Char → Bool
  | '.' :: '.' :: _ => true
  | _ :: rest => hasDoubleDot rest
  | [] => false

def validateExtension (extension : String) : Except StorageError Unit :=
  if 2 ≤ extension.utf8ByteSize && startsWith extension "." && !hasDoubleDot extension.toList &&
      !extension.toList.contains '/' && !extension.toList.contains '\\' &&
      !extension.toList.contains '\x00' &&
      (stringBytes extension).all (fun b => (isPlainByte b || b == 46)) then .ok ()
  else .error (.backend "fileBackend: extension must be a simple suffix such as .bin")

def validateLogicalKey (_label _value : String) : Except StorageError Unit := .ok ()

def validateNamespace (_label _value : String) : Except StorageError Unit := .ok ()

/-- A backend with a valid extension. -/
structure FileBackend where
  dir : String
  nameSpace : String
  extension : String
  valid : validateExtension extension = .ok ()

/-- A backend, if its namespace and its extension are valid. -/
def fileBackend (dir nameSpace extension : String) : Except StorageError FileBackend := do
  validateNamespace "fileBackend" nameSpace
  match h : validateExtension extension with
  | .ok () => return ⟨dir, nameSpace, extension, h⟩
  | .error e => throw e

namespace FileBackend

def fileStemPrefix : String := "k-"

section

variable (serde : SerdeStrings) (fb : FileBackend)

def storageKey (key : String) :
    Except StorageError String := do
  validateLogicalKey "fileBackend" key
  return storagePhysicalKey serde fb.nameSpace key

/-- The directory and the name of a key's file. -/
def pathFor (key : String) :
    Except StorageError (String × String) := do
  let stem := keyToFileStem (← fb.storageKey serde key)
  return (fb.dir, fileStemPrefix ++ stem ++ fb.extension)

/-- The key of a file. -/
def keyFromFilename (filename : String) :
    Except StorageError (Option String) :=
  if startsWith filename "." || !fb.extension.toList.isSuffixOf filename.toList then .ok none
  else
    let stem := String.ofList
      (filename.toList.take (filename.toList.length - fb.extension.toList.length))
    match stripString fileStemPrefix stem with
    | none => .ok none
    | some rawStem =>
      match fileStemToKey rawStem with
      | none => .ok none
      | some key =>
        decodeStoragePhysicalKey serde fb.nameSpace key "fileBackend: malformed stored key"

end

end FileBackend

/-! ### Stems spell their keys -/

/-- The byte of an ASCII character. -/
def charByte (c : Char) : UInt8 := UInt8.ofNat c.toNat

theorem utf8Encode_ascii (cs : List Char) (h : ∀ c ∈ cs, c.toNat < 128) :
    cs.utf8Encode.data.toList = cs.map charByte := by
  induction cs with
  | nil => simp
  | cons c cs ih =>
    have hc : c.toNat < 128 := h c mem_cons_self
    have hsize : c.utf8Size = 1 := Char.utf8Size_eq_one_iff.mpr (by
      rw [UInt32.le_iff_toNat_le]
      exact Nat.le_of_lt_succ hc)
    have hbyte : String.utf8EncodeChar c = [charByte c] :=
      String.utf8EncodeChar_eq_singleton hsize
    rw [utf8Encode_cons, utf8Encode_singleton, hbyte]
    simp [ih fun c' hc' => h c' (mem_cons_of_mem _ hc')]

theorem stringBytes_ofList {cs : List Char} (h : ∀ c ∈ cs, c.toNat < 128) :
    stringBytes (String.ofList cs) = cs.map charByte := by
  rw [← utf8Encode_ascii cs h, stringBytes, String.toUTF8, String.toByteArray_ofList]

theorem forall_byte {p : UInt8 → Prop} [DecidablePred p]
    (h : ((List.range 256).all fun n => decide (p (UInt8.ofNat n))) = true) (b : UInt8) :
    p b := by
  have hb := all_eq_true.mp h b.toNat (mem_range.mpr (UInt8.toNat_lt_size b))
  rw [UInt8.ofNat_toNat] at hb
  exact of_decide_eq_true hb

theorem encodeByte_chars (b : UInt8) : ∀ c ∈ encodeByte b, c.toNat < 128 ∧ c ≠ '.' := by
  have hall : ((encodeByte b).all fun c => decide (c.toNat < 128 ∧ c ≠ '.')) = true := by
    revert b
    exact forall_byte (by decide +kernel)
  intro c hc
  exact of_decide_eq_true (all_eq_true.mp hall c hc)

theorem plainByte (b : UInt8) (h : isPlainByte b = true) :
    b ≠ 37 ∧ b < 128 ∧ charByte (Char.ofNat b.toNat) = b := by
  revert b
  exact forall_byte (by decide +kernel)

theorem nibbles (b : UInt8) :
    ∃ hi lo, toDigit16 (charByte (hexNibble (b >>> 4))) = some hi ∧
      toDigit16 (charByte (hexNibble (b &&& 0x0f))) = some lo ∧ (hi <<< 4 ||| lo) = b := by
  refine ⟨b >>> 4, b &&& 0x0f, ?_⟩
  revert b
  exact forall_byte (by decide +kernel)

theorem decodeStem_plain {b : UInt8} (hne : b ≠ 37) (hlt : b < 128) (rest : List UInt8) :
    decodeStem (b :: rest) = (decodeStem rest).map (b :: ·) := by
  rcases rest with _ | ⟨hi, _ | ⟨lo, rest⟩⟩
  · simp [decodeStem, hlt]
  · simp [decodeStem, hlt]
  · rw [decodeStem, if_neg hne, if_pos hlt]

theorem decodeStem_encodeByte (b : UInt8) (rest : List UInt8) :
    decodeStem ((encodeByte b).map charByte ++ rest) = (decodeStem rest).map (b :: ·) := by
  unfold encodeByte
  by_cases hb : isPlainByte b = true
  · obtain ⟨hne, hlt, hchar⟩ := plainByte b hb
    rw [if_pos hb, map_singleton, hchar, singleton_append, decodeStem_plain hne hlt]
  · obtain ⟨hi, lo, hhi, hlo, hbyte⟩ := nibbles b
    have hpercent : charByte '%' = 37 := rfl
    rw [if_neg hb]
    simp only [map_cons, map_nil, cons_append, nil_append, hpercent]
    rw [decodeStem, if_pos rfl, hhi, hlo]
    simp only [Option.bind_eq_bind, Option.bind_some, hbyte]
    cases decodeStem rest <;> rfl

theorem decodeStem_encoded (bs : List UInt8) :
    decodeStem ((bs.flatMap encodeByte).map charByte) = some bs := by
  induction bs with
  | nil => rfl
  | cons b bs ih =>
    rw [flatMap_cons, map_append, decodeStem_encodeByte, ih]
    rfl

theorem stem_chars (bs : List UInt8) : ∀ c ∈ bs.flatMap encodeByte, c.toNat < 128 ∧ c ≠ '.' := by
  intro c hc
  obtain ⟨b, -, hb⟩ := mem_flatMap.mp hc
  exact encodeByte_chars b c hb

/-- A stem spells its key. -/
theorem fileStemToKey_keyToFileStem (s : String) : fileStemToKey (keyToFileStem s) = some s := by
  have hbytes : stringBytes (keyToFileStem s) =
      ((stringBytes s).flatMap encodeByte).map charByte :=
    stringBytes_ofList fun c hc => (stem_chars _ c hc).1
  have hutf8 : String.fromUTF8? ⟨(stringBytes s).toArray⟩ = some s := Json.fromUTF8_toUTF8 s
  unfold fileStemToKey
  rw [hbytes, decodeStem_encoded]
  simp only [Option.bind_eq_bind, Option.bind_some, hutf8, if_true]

theorem fileStemToKey_dot {stem : String} (h : '.' ∈ stem.toList) : fileStemToKey stem = none := by
  cases hkey : fileStemToKey stem with
  | none => rfl
  | some key =>
    -- The text is the spelling of the key it was read as, and no spelling has a dot.
    unfold fileStemToKey at hkey
    simp only [Option.bind_eq_bind, Option.bind_eq_some_iff] at hkey
    obtain ⟨out, -, key', -, hspelled⟩ := hkey
    split_ifs at hspelled with heq
    rw [← heq, keyToFileStem, String.toList_ofList] at h
    exact absurd rfl (stem_chars _ '.' h).2

/-! ### Physical keys keep their namespace -/

theorem stripString_append (head text : String) : stripString head (head ++ text) = some text := by
  have hhead : head.toList.isPrefixOf (head ++ text).toList = true := by
    rw [String.toList_append, isPrefixOf_iff_prefix]
    exact prefix_append _ _
  rw [stripString, stripHead, if_pos hhead, String.toList_append, drop_left, Option.map_some,
    String.ofList_toList]

variable {serde : SerdeStrings}

theorem decodeStoragePhysicalKey_storagePhysicalKey (hserde : serde.Inverse)
    (nameSpace nameSpace' key message : String) :
    decodeStoragePhysicalKey serde nameSpace' (storagePhysicalKey serde nameSpace key) message =
      .ok (if nameSpace = nameSpace' then some key else none) := by
  unfold decodeStoragePhysicalKey storagePhysicalKey
  rw [stripString_append]
  simp only [hserde [nameSpace, key], List.head?_cons, ne_eq, Option.some.injEq]
  by_cases h : nameSpace = nameSpace'
  · simp [h]
  · simp [h]

theorem storagePhysicalKey_inj (hserde : serde.Inverse) {nameSpace nameSpace' key key' : String}
    (h : storagePhysicalKey serde nameSpace key = storagePhysicalKey serde nameSpace' key') :
    nameSpace = nameSpace' ∧ key = key' := by
  rw [storagePhysicalKey, storagePhysicalKey, String.append_right_inj] at h
  have hparts : some [nameSpace, key] = some [nameSpace', key'] := by
    rw [← hserde [nameSpace, key], ← hserde [nameSpace', key'], h]
  simpa using hparts

/-! ### Files of their own -/

namespace FileBackend

/-- The name of a key's file. -/
def fileName (serde : SerdeStrings) (fb : FileBackend) (key : String) : String :=
  fileStemPrefix ++ keyToFileStem (storagePhysicalKey serde fb.nameSpace key) ++ fb.extension

theorem pathFor_eq (fb : FileBackend) (key : String) :
    fb.pathFor serde key = .ok (fb.dir, fb.fileName serde key) := rfl

theorem extension_eq (fb : FileBackend) : ∃ rest, fb.extension.toList = '.' :: rest := by
  have hvalid := fb.valid
  unfold validateExtension at hvalid
  split_ifs at hvalid with h
  have hdot : startsWith fb.extension "." = true := by
    simp only [Bool.and_eq_true] at h
    exact h.1.1.1.1.1.2
  obtain ⟨rest, hrest⟩ := isPrefixOf_iff_prefix.mp hdot
  exact ⟨rest, hrest.symm⟩

section

variable (serde : SerdeStrings) (fb : FileBackend) (key : String)

theorem stem_dotless :
    '.' ∉ (fileStemPrefix ++ keyToFileStem (storagePhysicalKey serde fb.nameSpace key)).toList := by
  intro h
  rw [String.toList_append] at h
  rcases mem_append.mp h with h | h
  · revert h
    decide
  · rw [keyToFileStem, String.toList_ofList] at h
    exact (stem_chars _ '.' h).2 rfl

-- The shorter extension would have to end the longer one, and what is cut off then
-- takes the longer one's dot along.
theorem dot_left {front ext ext' rest : List Char} (hfront : '.' ∉ front)
    (hext : ∃ cs, ext = '.' :: cs) (hext' : ∃ cs, ext' = '.' :: cs) (hne : ext ≠ ext')
    (h : front ++ ext' = rest ++ ext) : ∃ cs, rest = front ++ '.' :: cs := by
  obtain ⟨cs, rfl⟩ := hext
  obtain ⟨cs', rfl⟩ := hext'
  rcases append_eq_append_iff.mp h with ⟨between, hrest, hbetween⟩ |
    ⟨between, hfront', hbetween⟩
  · cases between with
    | nil =>
      rw [nil_append] at hbetween
      exact absurd hbetween.symm hne
    | cons c between =>
      rw [cons_append, List.cons.injEq] at hbetween
      exact ⟨between, by rw [hrest, ← hbetween.1]⟩
  · cases between with
    | nil =>
      rw [nil_append] at hbetween
      exact absurd hbetween hne
    | cons c between =>
      -- The extension would begin before the first dot.
      rw [cons_append, List.cons.injEq] at hbetween
      refine absurd ?_ hfront
      rw [hfront', ← hbetween.1]
      exact mem_append_right _ mem_cons_self

theorem fileName_toList : (fb.fileName serde key).toList =
      (fileStemPrefix ++ keyToFileStem (storagePhysicalKey serde fb.nameSpace key)).toList ++
        fb.extension.toList := by
  rw [fileName, String.toList_append]

theorem startsWith_fileName :
    startsWith (fb.fileName serde key) "." = false := by
  rw [startsWith, fileName_toList, String.toList_append]
  rfl

end

variable {fb fb' : FileBackend}

theorem keyFromFilename_same (hserde : serde.Inverse)
    (hext : fb.extension = fb'.extension) (key : String) :
    fb.keyFromFilename serde (fb'.fileName serde key) =
      .ok (if fb'.nameSpace = fb.nameSpace then some key else none) := by
  have hsuffix : fb.extension.toList.isSuffixOf (fb'.fileName serde key).toList = true := by
    rw [isSuffixOf_iff_suffix, fileName_toList, hext]
    exact suffix_append _ _
  have hstem : String.ofList ((fb'.fileName serde key).toList.take
      ((fb'.fileName serde key).toList.length - fb.extension.toList.length)) =
      fileStemPrefix ++ keyToFileStem (storagePhysicalKey serde fb'.nameSpace key) := by
    rw [fileName_toList, hext, length_append, Nat.add_sub_cancel, take_left,
      String.ofList_toList]
  unfold keyFromFilename
  rw [startsWith_fileName, hsuffix]
  simp only [Bool.not_true, Bool.or_false, Bool.false_eq_true, if_false, hstem,
    stripString_append, fileStemToKey_keyToFileStem]
  exact decodeStoragePhysicalKey_storagePhysicalKey hserde _ _ _ _

theorem keyFromFilename_other (hext : fb.extension ≠ fb'.extension)
    (key : String) : fb.keyFromFilename serde (fb'.fileName serde key) = .ok none := by
  unfold keyFromFilename
  rw [startsWith_fileName]
  by_cases hsuffix : fb.extension.toList.isSuffixOf (fb'.fileName serde key).toList = true
  · rw [hsuffix]
    obtain ⟨rest, hrest⟩ := isSuffixOf_iff_suffix.mp hsuffix
    rw [fileName_toList] at hrest
    obtain ⟨cs, rfl⟩ := dot_left (stem_dotless serde fb' key) fb.extension_eq fb'.extension_eq
      (fun h => hext (String.toList_inj.mp h)) hrest.symm
    -- The stem that is cut out has a dot, so it spells no key.
    have hstem : String.ofList ((fb'.fileName serde key).toList.take
        ((fb'.fileName serde key).toList.length - fb.extension.toList.length)) =
        fileStemPrefix ++ String.ofList
          ((keyToFileStem (storagePhysicalKey serde fb'.nameSpace key)).toList ++ '.' :: cs) := by
      rw [fileName_toList, ← hrest, length_append, Nat.add_sub_cancel, take_left]
      refine String.toList_inj.mp ?_
      simp [String.toList_append]
    have hdot : fileStemToKey (String.ofList
        ((keyToFileStem (storagePhysicalKey serde fb'.nameSpace key)).toList ++ '.' :: cs)) =
        none := fileStemToKey_dot (by simp)
    simp only [Bool.not_true, Bool.or_false, Bool.false_eq_true, if_false, hstem,
      stripString_append, hdot]
  · simp [hsuffix]

theorem fileName_inj (hserde : serde.Inverse) {key key' : String}
    (hext : fb.extension = fb'.extension) (h : fb.fileName serde key = fb'.fileName serde key') :
    fb.nameSpace = fb'.nameSpace ∧ key = key' := by
  rw [fileName, fileName, hext, String.append_left_inj, String.append_right_inj] at h
  have hkey : some (storagePhysicalKey serde fb.nameSpace key) =
      some (storagePhysicalKey serde fb'.nameSpace key') := by
    rw [← fileStemToKey_keyToFileStem, ← fileStemToKey_keyToFileStem, h]
  exact storagePhysicalKey_inj hserde (Option.some.inj hkey)

/-- Every string is recovered from its stem, and every key from its file. Different
    namespaces or keys have different files, and no backend with another namespace
    or another extension takes a file for its own. -/
theorem file_names_recover (hserde : serde.Inverse) :
    (∀ s, fileStemToKey (keyToFileStem s) = some s) ∧
    (∀ (fb : FileBackend) (key : String), ∃ name, fb.pathFor serde key = .ok (fb.dir, name) ∧
      fb.keyFromFilename serde name = .ok (some key)) ∧
    (∀ (fb fb' : FileBackend) (key key' dir dir' name : String), fb.extension = fb'.extension →
      fb.pathFor serde key = .ok (dir, name) → fb'.pathFor serde key' = .ok (dir', name) →
      fb.nameSpace = fb'.nameSpace ∧ key = key') ∧
    (∀ (fb fb' : FileBackend) (key dir name : String), fb'.pathFor serde key = .ok (dir, name) →
      fb.nameSpace ≠ fb'.nameSpace ∨ fb.extension ≠ fb'.extension →
      fb.keyFromFilename serde name = .ok none) := by
  refine ⟨fileStemToKey_keyToFileStem, ?_, ?_, ?_⟩
  · intro fb key
    refine ⟨fb.fileName serde key, pathFor_eq fb key, ?_⟩
    rw [keyFromFilename_same hserde rfl, if_pos rfl]
  · intro fb fb' key key' dir dir' name hext hpath hpath'
    rw [pathFor_eq, Except.ok.injEq, Prod.mk.injEq] at hpath hpath'
    exact fileName_inj hserde hext (hpath.2.trans hpath'.2.symm)
  · intro fb fb' key dir name hpath hother
    rw [pathFor_eq, Except.ok.injEq, Prod.mk.injEq] at hpath
    rw [← hpath.2]
    by_cases hext : fb.extension = fb'.extension
    · have hspace : ¬ fb'.nameSpace = fb.nameSpace := by
        intro h
        rcases hother with hother | hother
        · exact hother h.symm
        · exact hother hext
      rw [keyFromFilename_same hserde hext, if_neg hspace]
    · exact keyFromFilename_other hext key

/-- The strings of some JSON values, if they are strings. -/
def stringsOf (vs : List (Json.Value Empty)) : Option (List String) :=
  vs.mapM fun
    | .string s => some s
    | _ => none

theorem stringsOf_map (parts : List String) : stringsOf (parts.map .string) = some parts := by
  induction parts with
  | nil => rfl
  | cons s parts ih =>
    unfold stringsOf at ih ⊢
    rw [map_cons, mapM_cons, ih]
    rfl

/-- The library as far as lists of strings go. -/
def tupleStrings : SerdeStrings where
  toStr := Json.canonicalTupleKey
  fromStr text :=
    match Json.readValue text.toList.length text.toList with
    | some (.array vs, []) => stringsOf vs
    | _ => none

theorem tupleStrings_inverse : tupleStrings.Inverse := by
  intro parts
  have hintegers : (Json.Value.array (parts.map .string) : Json.Value Empty).Integers := by
    rw [Json.Value.Integers, Json.Value.all_array]
    refine ⟨trivial, fun v hv => ?_⟩
    obtain ⟨s, _, rfl⟩ := mem_map.mp hv
    simp [Json.Value.All]
  have hread := Json.readValue_compact hintegers _ [] (Nat.le_refl _) (by simp [Json.EndsNumber])
  rw [append_nil] at hread
  simp only [tupleStrings, Json.canonicalTupleKey_eq, String.toList_ofList, hread, stringsOf_map]

/-- A backend of the default extension, and one of an extension that ends in it. -/
def binBackend : FileBackend := ⟨"data", "a", ".bin", by decide +kernel⟩

def logBinBackend : FileBackend := ⟨"data", "a", ".log.bin", by decide +kernel⟩

theorem file_names_recover_quoted :
    (∃ name, binBackend.pathFor tupleStrings "%\"k-é" = .ok ("data", name) ∧
      binBackend.keyFromFilename tupleStrings name = .ok (some "%\"k-é")) ∧
    ∀ dir name, logBinBackend.pathFor tupleStrings "x" = .ok (dir, name) →
      binBackend.keyFromFilename tupleStrings name = .ok none := by
  obtain ⟨-, hkey, -, hother⟩ := file_names_recover tupleStrings_inverse
  refine ⟨hkey binBackend _, fun dir name hpath => ?_⟩
  exact hother binBackend logBinBackend "x" dir name hpath (.inr (by decide))

end FileBackend

end GraphRefly.Storage
