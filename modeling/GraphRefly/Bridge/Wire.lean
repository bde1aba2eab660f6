import Mathlib.Data.Nat.Bitwise
import Mathlib.Data.List.Nodup
import Mathlib.Tactic.Linarith
import Mathlib.Tactic.Ring

/-!
# Protobuf Messages

The wire format under the bridge's byte codec. A message is a sequence of
fields, and a field is a tag followed by a number or by a run of bytes. The
program has a reader and a writer of its own for this format and no generated
code: the reader takes a table of the fields a message may have, refuses every
other field, every wire type other than the expected one and every field that
occurs twice, and hands out the fields in the order of the bytes.

Numbers on the wire are little-endian groups of seven bits. The reader stops
after ten groups, and of the tenth it accepts one bit, which is what is left of
64.

## Main definitions

* `CanonicalProtobufError`: Why bytes or a value are refused.
* `writeVarint`, `Reader.varint`: Numbers on the wire.
* `Field`: A field of a message.
* `Field.write`, `writeFields`: The bytes of a field and of a message.
* `readFields`: The fields of a message.

## Theorems

* `Reader.varint_write`: A written number is read back.
* `readFields_writeFields`: A written message is read back field by field.
-/

namespace GraphRefly.Bridge

open List

inductive CanonicalProtobufErrorCategory
  | unknownField
  | duplicateSingular
  | noncanonicalBytes
  | invalidOneof
  | missingRequired
  | invalidWireEdge
  | defaultEmission
  | malformed
  deriving DecidableEq

structure CanonicalProtobufError where
  category : CanonicalProtobufErrorCategory
  message : String
  deriving DecidableEq

/-- The outcome of an operation of the codec. -/
abbrev Coded (α : Type) : Type := Except CanonicalProtobufError α

/-- Refuse with a category and a message. -/
def refuse {α : Type} (category : CanonicalProtobufErrorCategory) (message : String) : Coded α :=
  .error ⟨category, message⟩

/-- The bytes of a message or of a field. -/
abbrev Bytes : Type := List UInt8

/-! ### Numbers -/

/-- A number in groups of seven bits, lowest first. Every byte but the last has
    its high bit set. -/
def varintBytes : Nat → Nat → Bytes
  | 0, _ => []
  | groups + 1, value =>
    if value / 128 ≠ 0 then
      UInt8.ofNat (value % 128 + 128) :: varintBytes groups (value / 128)
    else [UInt8.ofNat (value % 128)]

/-- A 64-bit number on the wire, in ten groups at most. -/
def writeVarint (value : Nat) : Bytes := varintBytes 10 value

structure Reader where
  offset : Nat
  rest : Bytes
  deriving DecidableEq

namespace Reader

def done (r : Reader) : Bool := r.rest.isEmpty

/-- The loop over the groups that may still come. -/
def varintLoop : Nat → Nat → Nat → Reader → Coded (Nat × Reader)
  | 0, _, _, _ => refuse .malformed "varint exceeds 64 bits"
  | groups + 1, shift, result, r =>
    match r.rest with
    | [] => refuse .malformed "truncated varint"
    | byte :: rest =>
      let r := ⟨r.offset + 1, rest⟩
      if groups = 0 ∧ 2 ≤ byte.toNat then refuse .malformed "varint exceeds 64 bits"
      else
        let result := result ||| (byte.toNat % 128) <<< shift
        if byte.toNat < 128 then .ok (result, r)
        else varintLoop groups (shift + 7) result r

def varint (r : Reader) : Coded (Nat × Reader) := varintLoop 10 0 0 r

def readBytes (r : Reader) : Coded (Bytes × Reader) := do
  let (len, r) ← r.varint
  if 2 ^ 64 ≤ r.offset + len then
    refuse .malformed "length-delimited field length overflows"
  else if r.rest.length < len then
    refuse .malformed "length-delimited field is truncated"
  else .ok (r.rest.take len, ⟨r.offset + len, r.rest.drop len⟩)

end Reader

/-! ### Fields -/

inductive FieldValue
  | varint (value : UInt64)
  | bytes (value : Bytes)
  deriving DecidableEq

/-- The wire type of a value. -/
def FieldValue.wireType : FieldValue → Nat
  | .varint _ => 0
  | .bytes _ => 2

structure Field where
  no : Nat
  value : FieldValue
  deriving DecidableEq

def Field.asBytes (field : Field) : Coded Bytes :=
  match field.value with
  | .bytes value => .ok value
  | .varint _ => refuse .malformed "expected length-delimited field"

/-- The value behind a tag. -/
def Reader.fieldValue (r : Reader) (wireType : Nat) : Coded (FieldValue × Reader) :=
  if wireType = 0 then do
    let (value, r) ← r.varint
    .ok (.varint (UInt64.ofNat value), r)
  else if wireType = 2 then do
    let (value, r) ← r.readBytes
    .ok (.bytes value, r)
  else refuse .malformed "unsupported wire type"

/-- The loop over the fields of a message, with the field numbers seen so far.
    Every round reads a byte at least, so the number of bytes bounds them. -/
def readLoop (allowed : List (Nat × Nat)) (messageName : String) :
    Nat → List Nat → Reader → Coded (List Field)
  | 0, _, _ => .ok []
  | rounds + 1, seen, r =>
    if r.done then .ok []
    else do
      let (key, r) ← r.varint
      let fieldNo := key / 8
      let wireType := key % 8
      if 2 ^ 32 ≤ fieldNo then refuse .malformed "field number is too large"
      else
        match allowed.lookup fieldNo with
        | none => refuse .unknownField s!"{messageName} contains unknown field {fieldNo}"
        | some expectedWireType =>
          if fieldNo = 0 ∨ wireType ≠ expectedWireType then
            refuse .malformed s!"{messageName} field {fieldNo} has wrong wire type"
          else if fieldNo ∈ seen then
            refuse .duplicateSingular s!"{messageName} field {fieldNo} is duplicated"
          else do
            let (value, r) ← r.fieldValue wireType
            let fields ← readLoop allowed messageName rounds (fieldNo :: seen) r
            .ok (⟨fieldNo, value⟩ :: fields)

def readFields (bytes : Bytes) (allowed : List (Nat × Nat)) (messageName : String) :
    Coded (List Field) :=
  readLoop allowed messageName bytes.length [] ⟨0, bytes⟩

def uintField (fields : List Field) (no : Nat) : Option UInt64 :=
  fields.findSome? fun field =>
    match field.value with
    | .varint value => if field.no = no then some value else none
    | .bytes _ => none

def bytesField (fields : List Field) (no : Nat) : Option Bytes :=
  fields.findSome? fun field =>
    match field.value with
    | .bytes value => if field.no = no then some value else none
    | .varint _ => none

/-! ### Writing -/

def tag (fieldNo wireType : Nat) : Bytes := writeVarint (fieldNo * 8 + wireType)

def varintField (fieldNo : Nat) (value : UInt64) : Bytes :=
  tag fieldNo 0 ++ writeVarint value.toNat

def bytesFieldBytes (fieldNo : Nat) (value : Bytes) : Bytes :=
  tag fieldNo 2 ++ writeVarint value.length ++ value

/-- The bytes of a string. -/
def utf8Bytes (s : String) : Bytes := s.toByteArray.data.toList

def stringField (fieldNo : Nat) (value : String) : Bytes :=
    bytesFieldBytes fieldNo (utf8Bytes value)

def messageField (fieldNo : Nat) (value : Bytes) : Bytes := bytesFieldBytes fieldNo value

/-- The bytes of a field. -/
def Field.write (field : Field) : Bytes :=
  match field.value with
  | .varint value => varintField field.no value
  | .bytes value => bytesFieldBytes field.no value

/-- The bytes of a message with the given fields. -/
def writeFields (fields : List Field) : Bytes := fields.flatMap Field.write

/-! ### Reading back what was written -/

/-- The bytes of a field after its tag. -/
def FieldValue.body : FieldValue → Bytes
  | .varint value => writeVarint value.toNat
  | .bytes value => writeVarint value.length ++ value

theorem varintBytes_ne_nil (groups value : Nat) : varintBytes (groups + 1) value ≠ [] := by
  unfold varintBytes
  split_ifs <;> simp

namespace Reader

theorem or_shiftLeft {result shift : Nat} (h : result < 2 ^ shift) (group : Nat) :
    result ||| group <<< shift = result + group * 2 ^ shift := by
  rw [Nat.lor_comm, ← Nat.shiftLeft_add_eq_or_of_lt h, Nat.shiftLeft_eq, Nat.add_comm]

theorem varintLoop_last (groups shift result offset : Nat) {byte : UInt8} (rest : Bytes)
    (hlast : groups = 0 → byte.toNat < 2) (hbyte : byte.toNat < 128)
      (hresult : result < 2 ^ shift) :
    varintLoop (groups + 1) shift result ⟨offset, byte :: rest⟩
      = .ok (result + byte.toNat * 2 ^ shift, ⟨offset + 1, rest⟩) := by
  have hroom : ¬ (groups = 0 ∧ 2 ≤ byte.toNat) := fun h => absurd (hlast h.1) (Nat.not_lt.mpr h.2)
  simp only [varintLoop]
  rw [if_neg hroom, if_pos hbyte, Nat.mod_eq_of_lt hbyte, or_shiftLeft hresult]

theorem varintLoop_more (groups shift result offset : Nat) {byte : UInt8} (rest : Bytes)
    (hbyte : 128 ≤ byte.toNat) (hresult : result < 2 ^ shift) :
    varintLoop (groups + 2) shift result ⟨offset, byte :: rest⟩
      = varintLoop (groups + 1) (shift + 7) (result + byte.toNat % 128 * 2 ^ shift)
          ⟨offset + 1, rest⟩ := by
  rw [varintLoop]
  simp only [Nat.add_eq_zero_iff, one_ne_zero, and_false, false_and, if_false]
  rw [if_neg (Nat.not_lt.mpr hbyte), or_shiftLeft hresult]

theorem toNat_ofNat_of_lt {n : Nat} (h : n < 256) : (UInt8.ofNat n).toNat = n := by
  rw [UInt8.toNat_ofNat', Nat.mod_eq_of_lt h]

/-- The loop adds the groups it reads to the groups below them. The last group
    has room for one bit, so the bound is one bit above the full groups. -/
theorem varintLoop_write (groups shift result value offset : Nat) (rest : Bytes)
    (hvalue : value < 2 ^ (7 * groups + 1)) (hresult : result < 2 ^ shift) :
    varintLoop (groups + 1) shift result ⟨offset, varintBytes (groups + 1) value ++ rest⟩
      = .ok (result + value * 2 ^ shift,
          ⟨offset + (varintBytes (groups + 1) value).length, rest⟩) := by
  induction groups generalizing shift result value offset with
  | zero =>
    have hbyte : (UInt8.ofNat (value % 128)).toNat = value := by
      rw [toNat_ofNat_of_lt (by omega)]
      omega
    have hbytes : varintBytes 1 value = [UInt8.ofNat (value % 128)] := by
      rw [varintBytes, if_neg (by omega)]
    have hloop := varintLoop_last 0 shift result offset rest (by rw [hbyte]; omega)
      (by rw [hbyte]; omega) hresult
    rw [hbyte] at hloop
    rw [hbytes]
    exact hloop
  | succ groups ih =>
    by_cases hmore : value / 128 = 0
    · have hbyte : (UInt8.ofNat (value % 128)).toNat = value := by
        rw [toNat_ofNat_of_lt (by omega)]
        omega
      have hbytes : varintBytes (groups + 2) value = [UInt8.ofNat (value % 128)] := by
        rw [varintBytes, if_neg (by omega)]
      have hloop := varintLoop_last (groups + 1) shift result offset rest (by omega)
        (by rw [hbyte]; omega) hresult
      rw [hbyte] at hloop
      rw [hbytes]
      exact hloop
    · have hbyte : (UInt8.ofNat (value % 128 + 128)).toNat = value % 128 + 128 :=
        toNat_ofNat_of_lt (by omega)
      have hbytes : varintBytes (groups + 2) value
          = UInt8.ofNat (value % 128 + 128) :: varintBytes (groups + 1) (value / 128) := by
        rw [varintBytes, if_pos hmore]
      -- The group just read and the groups still to come make up the value.
      have hpow : 2 ^ (shift + 7) = 128 * 2 ^ shift := by
        rw [pow_add, mul_comm]
        rfl
      have hsmall : value / 128 < 2 ^ (7 * groups + 1) := by
        have hsplit : 2 ^ (7 * (groups + 1) + 1) = 128 * 2 ^ (7 * groups + 1) := by
          rw [show 7 * (groups + 1) + 1 = (7 * groups + 1) + 7 by ring, pow_add, mul_comm]
          rfl
        omega
      have hbelow : result + value % 128 * 2 ^ shift < 2 ^ (shift + 7) := by
        have hgroup : value % 128 + 1 ≤ 128 := by omega
        have := Nat.mul_le_mul_right (2 ^ shift) hgroup
        rw [hpow]
        nlinarith
      have htotal : result + value % 128 * 2 ^ shift + value / 128 * 2 ^ (shift + 7)
          = result + value * 2 ^ shift := by
        calc result + value % 128 * 2 ^ shift + value / 128 * 2 ^ (shift + 7)
            = result + (128 * (value / 128) + value % 128) * 2 ^ shift := by rw [hpow]; ring
          _ = result + value * 2 ^ shift := by rw [Nat.div_add_mod]
      have hgroup : (UInt8.ofNat (value % 128 + 128)).toNat % 128 = value % 128 := by
        rw [hbyte]
        omega
      rw [hbytes, cons_append, varintLoop_more groups shift result offset _
        (by omega) hresult,
        hgroup, ih _ _ _ _ hsmall hbelow, htotal, length_cons]
      congr 3
      omega

theorem varint_write (offset value : Nat) (rest : Bytes) (hvalue : value < 2 ^ 64) :
    varint ⟨offset, writeVarint value ++ rest⟩
      = .ok (value, ⟨offset + (writeVarint value).length, rest⟩) := by
  have hloop := varintLoop_write 9 0 0 value offset rest hvalue (by decide)
  rw [Nat.zero_add, Nat.pow_zero, Nat.mul_one] at hloop
  exact hloop

theorem readBytes_write (offset : Nat) (value rest : Bytes)
    (hlen : offset + (writeVarint value.length ++ value).length < 2 ^ 64) :
    readBytes ⟨offset, writeVarint value.length ++ value ++ rest⟩
      = .ok (value, ⟨offset + (writeVarint value.length ++ value).length, rest⟩) := by
  rw [length_append] at hlen
  have hread := varint_write offset value.length (value ++ rest) (by omega)
  rw [append_assoc, readBytes, hread]
  simp only [bind, Except.bind, length_append]
  rw [if_neg (by omega), if_neg (by omega), take_left, drop_left, Nat.add_assoc]

theorem fieldValue_write (offset : Nat) (value : FieldValue) (rest : Bytes)
    (hlen : offset + value.body.length < 2 ^ 64) :
    fieldValue ⟨offset, value.body ++ rest⟩ value.wireType
      = .ok (value, ⟨offset + value.body.length, rest⟩) := by
  cases value with
  | varint value =>
    have hread := varint_write offset value.toNat rest value.toNat_lt
    simp [fieldValue, FieldValue.body, FieldValue.wireType, hread, bind, Except.bind]
  | bytes value =>
    have hread := readBytes_write offset value rest hlen
    have htwo : (FieldValue.bytes value).wireType = 2 := rfl
    rw [fieldValue, htwo, if_neg (by decide), if_pos rfl, FieldValue.body, hread]
    rfl

end Reader

/-- A field that a message may have: it is in the table, under its wire type. -/
def Field.Allowed (allowed : List (Nat × Nat)) (field : Field) : Prop :=
  allowed.lookup field.no = some field.value.wireType ∧ 0 < field.no ∧ field.no < 2 ^ 32

theorem Field.write_eq (field : Field) :
    field.write = tag field.no field.value.wireType ++ field.value.body := by
  obtain ⟨no, value⟩ := field
  cases value with
  | varint value => rfl
  | bytes value => exact append_assoc _ _ _

theorem tag_ne_nil (fieldNo wireType : Nat) : tag fieldNo wireType ≠ [] :=
  varintBytes_ne_nil 9 _

/-- The loop reads the fields that were written, if they are allowed and none
    occurs twice. -/
theorem readLoop_write (allowed : List (Nat × Nat)) (messageName : String) (fields : List Field)
    (hallowed : ∀ f ∈ fields, f.Allowed allowed) (rounds : Nat) (seen : List Nat) (offset : Nat)
    (hnodup : (fields.map (·.no)).Nodup) (hseen : ∀ f ∈ fields, f.no ∉ seen)
    (hrounds : (writeFields fields).length ≤ rounds)
    (hlen : offset + (writeFields fields).length < 2 ^ 64) :
    readLoop allowed messageName rounds seen ⟨offset, writeFields fields⟩ = .ok fields := by
  induction fields generalizing rounds seen offset with
  | nil => cases rounds <;> rfl
  | cons field fields ih =>
    rw [forall_mem_cons] at hallowed hseen
    rw [map_cons, nodup_cons] at hnodup
    obtain ⟨⟨hlookup, hpos, hno⟩, hrest⟩ := hallowed
    have hwire : field.value.wireType < 8 := by cases field.value <;> simp [FieldValue.wireType]
    have hwrite : writeFields (field :: fields)
        = tag field.no field.value.wireType ++ (field.value.body ++ writeFields fields) := by
      rw [writeFields, flatMap_cons, Field.write_eq, append_assoc]
      rfl
    have htag := length_pos_iff.mpr (tag_ne_nil field.no field.value.wireType)
    rw [hwrite] at hrounds hlen ⊢
    simp only [length_append] at hrounds hlen
    obtain ⟨rounds, rfl⟩ : ∃ n, rounds = n + 1 := ⟨rounds - 1, by omega⟩
    -- The tag, then the value, then the remaining fields.
    have hkey := Reader.varint_write offset (field.no * 8 + field.value.wireType)
      (field.value.body ++ writeFields fields) (by omega)
    rw [← tag] at hkey
    have hvalue := Reader.fieldValue_write
      (offset + (tag field.no field.value.wireType).length) field.value (writeFields fields)
      (by omega)
    have htail := ih hrest rounds (field.no :: seen)
      (offset + (tag field.no field.value.wireType).length + field.value.body.length) hnodup.2
      (fun f hf hmem => by
        rcases mem_cons.mp hmem with heq | hmem
        · exact hnodup.1 (heq ▸ mem_map_of_mem hf)
        · exact hseen.2 f hf hmem)
      (by omega) (by omega)
    have hdone : Reader.done ⟨offset, tag field.no field.value.wireType ++
        (field.value.body ++ writeFields fields)⟩ = false := by
      simp [Reader.done, tag_ne_nil]
    have hdiv : (field.no * 8 + field.value.wireType) / 8 = field.no := by omega
    have hmod : (field.no * 8 + field.value.wireType) % 8 = field.value.wireType := by omega
    rw [readLoop, if_neg (by simp [hdone]), hkey]
    simp only [bind, Except.bind, hdiv, hmod]
    rw [if_neg (by omega), hlookup]
    simp only [ne_eq, not_true_eq_false, or_false, Nat.ne_of_gt hpos, if_false, hseen.1, hvalue,
      htail]

/-- A written message is read back field by field. -/
theorem readFields_writeFields (allowed : List (Nat × Nat)) (messageName : String)
    (fields : List Field) (hallowed : ∀ f ∈ fields, f.Allowed allowed)
    (hnodup : (fields.map (·.no)).Nodup) (hlen : (writeFields fields).length < 2 ^ 64) :
    readFields (writeFields fields) allowed messageName = .ok fields :=
  readLoop_write allowed messageName fields hallowed _ [] 0 hnodup (by simp) (Nat.le_refl _)
    (by rwa [Nat.zero_add])

end GraphRefly.Bridge
