import GraphRefly.Json.Access
import GraphRefly.Json.Canonical
import Mathlib.Algebra.Group.Nat.Defs

/-!
# Versions Of A Node

A node carries a version that moves on with every DATA it emits. On level 0 it is a
counter. On level 1 it also names the DATA, by a hash of its canonical JSON, and the one
before it. So a node on level 1 emits nothing but DATA that can be written as strict JSON.

A version is kept in checkpoints as a JSON object of its own, and what is read back is
checked: a counter in the safe range, and a predecessor exactly if there was one.

## Main definitions

* `AnyValue`, `anyToStrictJson`: DATA of any type, and its JSON.
* `NodeVersion`: A version.
* `createNodeVersion`, `advanceNodeVersion`: The first version, and the next one.
* `assertNodeVersionDataCompatible`: What a policy asks of DATA.
* `nodeVersionToJson`, `validateNodeVersionJson`: A version in a checkpoint.
* `Chained`: What a version says about the DATA that were emitted.

## Theorems

* `chained_create`, `Chained.advance`: Versions are chained.
* `validate_toJson`: A version is read back as it was written.
-/

namespace GraphRefly.Versioning

open GraphRefly.Json

variable {F X : Type}

def maxSafeInteger : Nat := 9007199254740991

def u64Max : Nat := 2 ^ 64 - 1

/-! ### DATA -/

/-- A DATA by its dynamic type. All the integer types of the language are one here. -/
inductive AnyValue (F X : Type)
  | json (v : Value F)
  | string (s : String)
  | bool (b : Bool)
  | int (n : Int)
  | f64 (x : F)
  | other (x : X)

/-- The JSON of a DATA, if its type has one. -/
def AnyValue.toJson [Float64 F] : AnyValue F X → Option (Value F)
  | .json v => some v
  | .string s => some (.string s)
  | .bool b => some (.bool b)
  | .int n => some (.number (.int n))
  | .f64 x => if Float64.isFinite x then some (.number (.float x)) else none
  | .other _ => none

def notCompatible (err : JsonCodecError) : String :=
  "node versioning: DATA is not strict canonical JSON compatible (D112): " ++ err.toString

def anyToStrictJson [Float64 F] (value : AnyValue F X) (path : String) :
    Except String (Value F) :=
  match value.toJson with
  | none => .error ("node versioning: DATA at " ++ path ++ " is not strict JSON compatible")
  | some out =>
    match validateStrictJsonValue out path with
    | .error err => .error (notCompatible err)
    | .ok () => .ok out

def absentV1Seed : Value F :=
  .object [("@graphrefly/node-version", .string "v1-absent")]

/-- The canonical bytes of a DATA, or of the seed that stands for none. -/
def canonicalData [Float64 F] (value : Option (AnyValue F X)) : Except String ByteArray := do
  let json ← match value with
    | some value => anyToStrictJson value "$"
    | none => .ok absentV1Seed
  match strictCanonicalJsonBytes json with
  | .error err => .error (notCompatible err)
  | .ok bytes => .ok bytes

/-! ### Versions and policies -/

inductive NodeVersion
  | v0 (counter : Nat)
  | v1 (counter : Nat) (cid : String) (prev : Option String)
  deriving DecidableEq

def NodeVersion.level : NodeVersion → Nat
  | .v0 _ => 0
  | .v1 _ _ _ => 1

def NodeVersion.counter : NodeVersion → Nat
  | .v0 counter => counter
  | .v1 counter _ _ => counter

abbrev NodeVersionHashFn := ByteArray → String

inductive NodeVersioningPolicy
  | disabled
  | level0
  | level1 (hash : Option NodeVersionHashFn)

inductive ResolvedNodeVersioningPolicy
  | disabled
  | level0
  | level1 (hash : NodeVersionHashFn)

/-- Sixteen hexadecimal digits. -/
def hex16 (n : Nat) : String :=
  let digits := Nat.toDigits 16 n
  String.ofList (List.replicate (16 - digits.length) '0' ++ digits)

def fnv1a64 (bytes : ByteArray) : String :=
  let hash := bytes.toList.foldl (fun hash byte => (hash ^^^ byte.toNat) * 0x100000001b3 % 2 ^ 64)
    0xcbf29ce484222325
  hex16 hash

def defaultNodeVersionHash (bytes : ByteArray) : String := "fnv1a64:" ++ fnv1a64 bytes

def resolveNodeVersioningPolicy : Option NodeVersioningPolicy → ResolvedNodeVersioningPolicy
  | some .disabled => .disabled
  | none | some .level0 => .level0
  | some (.level1 hash) => .level1 (hash.getD defaultNodeVersionHash)

def hashNodeData [Float64 F] (hash : NodeVersionHashFn) (value : Option (AnyValue F X)) :
    Except String String :=
  (canonicalData value).map hash

def createNodeVersion [Float64 F] (initial : Option (AnyValue F X)) :
    ResolvedNodeVersioningPolicy → Except String (Option NodeVersion)
  | .disabled => .ok none
  | .level0 => .ok (some (.v0 0))
  | .level1 hash => do
      let cid ← hashNodeData hash initial
      .ok (some (.v1 0 cid none))

/-- Only level 1 asks something of DATA. -/
def assertNodeVersionDataCompatible [Float64 F] (value : AnyValue F X) :
    ResolvedNodeVersioningPolicy → Except String Unit
  | .level1 _ => (canonicalData (some value)).map fun _ => ()
  | .disabled | .level0 => .ok ()

def nextCounter : Option NodeVersion → Except String Nat
  | none => .ok 1
  | some current =>
    if u64Max < current.counter + 1 then
      .error "node versioning: counter overflow while advancing node runtime version (D109)"
    else if maxSafeInteger < current.counter + 1 then
      .error "node versioning: counter exceeded the strict JSON safe-integer range (D109)"
    else .ok (current.counter + 1)

def advanceNodeVersion [Float64 F] (current : Option NodeVersion) (value : AnyValue F X) :
    ResolvedNodeVersioningPolicy → Except String (Option NodeVersion)
  | .disabled => .ok none
  | .level0 => do
      let counter ← nextCounter current
      .ok (some (.v0 counter))
  | .level1 hash => do
      let previous := match current with
        | some (.v1 _ cid _) => some cid
        | _ => none
      let counter ← nextCounter current
      let cid ← hashNodeData hash (some value)
      .ok (some (.v1 counter cid previous))

/-! ### Versions in a checkpoint -/

def nodeVersionToJson : NodeVersion → Value F
  | .v0 counter => .object [("level", .ofNat 0), ("counter", .ofNat counter)]
  | .v1 counter cid prev =>
    .object [("level", .ofNat 1), ("counter", .ofNat counter), ("cid", .string cid),
      ("prev", (prev.map Value.string).getD .null)]

def requireFields (record : List (String × Value F)) (fields : List String) (path : String) :
    Except String Unit :=
  if record.length ≠ fields.length ∨ fields.any fun field => (record.lookup field).isNone then
    .error ("restore_graph: " ++ path ++ " has unexpected node version fields")
  else .ok ()

def readCounter (value : Option (Value F)) (path : String) : Except String Nat :=
  match value.bind Value.asU64 with
  | some counter =>
    if maxSafeInteger < counter then
      .error ("restore_graph: " ++ path ++ ".counter must be a non-negative safe integer")
    else .ok counter
  | none => .error ("restore_graph: " ++ path ++ ".counter must be a non-negative safe integer")

/-- The predecessor of a version on level 1: null or a string. -/
def readPrev (record : List (String × Value F)) (path : String) :
    Except String (Option String) :=
  match record.lookup "prev" with
  | some .null => .ok none
  | some (.string value) => .ok (some value)
  | _ => .error ("restore_graph: " ++ path ++ ".prev must be a string or null")

def validateNodeVersionJson [Float64 F] (value : Value F) (path : String) :
    Except String NodeVersion :=
  match validateStrictJsonValue value path with
  | .error err => .error
      ("restore_graph: node version metadata is not strict canonical JSON compatible (D112): " ++
        err.toString)
  | .ok () =>
    match value with
    | .object record =>
      match (record.lookup "level").bind Value.asU64 with
      | some 0 => do
          requireFields record ["level", "counter"] path
          let counter ← readCounter (record.lookup "counter") path
          .ok (.v0 counter)
      | some 1 => do
          requireFields record ["level", "counter", "cid", "prev"] path
          let counter ← readCounter (record.lookup "counter") path
          let cid ← match (record.lookup "cid").bind Value.asStr with
            | some cid => .ok cid
            | none => .error ("restore_graph: " ++ path ++ ".cid must be a string")
          let prev ← readPrev record path
          if counter = 0 ∧ prev.isSome then
            .error ("restore_graph: " ++ path ++ ".prev must be null when counter is 0")
          else if 0 < counter ∧ prev.isNone then
            .error ("restore_graph: " ++ path ++ ".prev must be a string when counter is > 0")
          else .ok (.v1 counter cid prev)
      | _ => .error ("restore_graph: " ++ path ++ ".level must be 0 or 1")
    | _ => .error ("restore_graph: " ++ path ++ " must be an object")

/-! ### What a version says -/

/-- The most recent DATA, or the one the node started with. -/
def latestOf (initial : Option (AnyValue F X)) (emitted : List (AnyValue F X)) :
    Option (AnyValue F X) :=
  emitted.getLast?.or initial

/-- A name is the hash of the canonical bytes of a DATA. -/
def Names [Float64 F] (hash : NodeVersionHashFn) (value : Option (AnyValue F X)) (cid : String) :
    Prop :=
  ∃ bytes, canonicalData value = .ok bytes ∧ cid = hash bytes

/-- A version on level 1 counts the DATA that were emitted, names the last of them, and
    names the one before it if any was emitted. -/
structure Chained [Float64 F] (hash : NodeVersionHashFn) (initial : Option (AnyValue F X))
    (emitted : List (AnyValue F X)) (cid : String) (prev : Option String) : Prop where
  cid : Names hash (latestOf initial emitted) cid
  first : prev = none ↔ emitted = []
  prev : ∀ before, prev = some before → Names hash (latestOf initial emitted.dropLast) before

/-- What the version of a node says under each policy. -/
def Tells [Float64 F] (initial : Option (AnyValue F X)) (emitted : List (AnyValue F X))
    (version : Option NodeVersion) : ResolvedNodeVersioningPolicy → Prop
  | .disabled => version = none
  | .level0 => version = some (.v0 emitted.length) ∧ emitted.length ≤ maxSafeInteger
  | .level1 hash => emitted.length ≤ maxSafeInteger ∧ ∃ cid prev,
      version = some (.v1 emitted.length cid prev) ∧ Chained hash initial emitted cid prev

theorem hashNodeData_eq_ok [Float64 F] {hash : NodeVersionHashFn} {value : Option (AnyValue F X)}
    {cid : String} : hashNodeData hash value = .ok cid ↔ Names hash value cid := by
  rw [hashNodeData, Names]
  cases canonicalData value with
  | error err => simp [Except.map]
  | ok bytes => simp [Except.map, eq_comm]

variable {policy : ResolvedNodeVersioningPolicy} {initial : Option (AnyValue F X)}

theorem tells_create [Float64 F] {version : Option NodeVersion}
    (h : createNodeVersion initial policy = .ok version) : Tells initial [] version policy := by
  cases policy with
  | disabled => exact (Except.ok.inj h).symm
  | level0 => exact ⟨(Except.ok.inj h).symm, Nat.zero_le _⟩
  | level1 hash =>
    rw [createNodeVersion] at h
    cases hcid : hashNodeData hash initial with
    | error err =>
      rw [hcid] at h
      cases h
    | ok cid =>
      rw [hcid] at h
      refine ⟨Nat.zero_le _, cid, none, (Except.ok.inj h).symm,
        hashNodeData_eq_ok.mp hcid, ⟨fun _ => rfl, fun _ => rfl⟩, ?_⟩
      intro before hbefore
      cases hbefore

variable {version : NodeVersion}

theorem nextCounter_eq_ok {counter : Nat} (h : nextCounter (some version) = .ok counter) :
    counter = version.counter + 1 ∧ counter ≤ maxSafeInteger := by
  rw [nextCounter] at h
  by_cases hoverflow : u64Max < version.counter + 1
  · rw [if_pos hoverflow] at h
    cases h
  · by_cases hlimit : maxSafeInteger < version.counter + 1
    · rw [if_neg hoverflow, if_pos hlimit] at h
      cases h
    · rw [if_neg hoverflow, if_neg hlimit] at h
      obtain rfl := Except.ok.inj h
      exact ⟨rfl, by omega⟩

theorem Tells.advance [Float64 F] {emitted : List (AnyValue F X)}
    {version next : Option NodeVersion} {value : AnyValue F X}
    (h : Tells initial emitted version policy)
    (hnext : advanceNodeVersion version value policy = .ok next) :
    Tells initial (emitted ++ [value]) next policy := by
  cases policy with
  | disabled => exact (Except.ok.inj hnext).symm
  | level0 =>
    obtain ⟨rfl, -⟩ := h
    rw [advanceNodeVersion] at hnext
    cases hcounter : nextCounter (some (.v0 emitted.length)) with
    | error err =>
      rw [hcounter] at hnext
      cases hnext
    | ok counter =>
      rw [hcounter] at hnext
      obtain ⟨rfl, hle⟩ := nextCounter_eq_ok hcounter
      have hlength : (emitted ++ [value]).length = emitted.length + 1 := by simp
      rw [Tells, hlength]
      exact ⟨(Except.ok.inj hnext).symm, hle⟩
  | level1 hash =>
    obtain ⟨-, cid, prev, rfl, hchain⟩ := h
    rw [advanceNodeVersion] at hnext
    cases hcounter : nextCounter (some (.v1 emitted.length cid prev)) with
    | error err =>
      rw [hcounter] at hnext
      cases hnext
    | ok counter =>
      cases hcid : hashNodeData hash (some value) with
      | error err =>
        rw [hcounter, hcid] at hnext
        cases hnext
      | ok next =>
        rw [hcounter, hcid] at hnext
        obtain ⟨rfl, hle⟩ := nextCounter_eq_ok hcounter
        have hlength : (emitted ++ [value]).length = emitted.length + 1 := by simp
        rw [Tells, hlength]
        refine ⟨hle, next, some cid, (Except.ok.inj hnext).symm, ?_, by simp, ?_⟩
        · rw [latestOf, List.getLast?_concat, Option.some_or]
          exact hashNodeData_eq_ok.mp hcid
        · -- The name before this DATA is the name of the last one before it.
          intro before hbefore
          obtain rfl := Option.some.inj hbefore
          rw [List.dropLast_concat]
          exact hchain.cid

/-! ### A version is read back -/

/-- A version whose counter is safe, and that has a predecessor exactly if it counts. -/
def NodeVersion.Valid : NodeVersion → Prop
  | .v0 counter => counter ≤ maxSafeInteger
  | .v1 counter _ prev => counter ≤ maxSafeInteger ∧ (prev = none ↔ counter = 0)

theorem Tells.valid [Float64 F] {emitted : List (AnyValue F X)}
    (h : Tells initial emitted (some version) policy) : version.Valid := by
  cases policy with
  | disabled => cases h
  | level0 =>
    obtain ⟨heq, hle⟩ := h
    obtain rfl := Option.some.inj heq
    exact hle
  | level1 hash =>
    obtain ⟨hle, cid, prev, heq, hchain⟩ := h
    obtain rfl := Option.some.inj heq
    exact ⟨hle, hchain.first.trans List.length_eq_zero_iff.symm⟩

theorem safe_ofNat [Float64 F] {n : Nat} (h : n ≤ maxSafeInteger) :
    (Value.ofNat n : Value F).Safe := by
  change Number.Safe (F := F) (.int n)
  rw [Number.Safe]
  unfold maxSafeInteger at h
  unfold jsMaxSafeInteger
  omega

theorem nodeVersionToJson_strict [Float64 F] (h : version.Valid)
    (path : String) : validateStrictJsonValue (nodeVersionToJson version : Value F) path =
      .ok () := by
  rw [validateStrictJsonValue, validateInner_eq_ok, Value.Safe]
  have hzero : (Value.ofNat 0 : Value F).Safe := safe_ofNat (Nat.zero_le _)
  have hone : (Value.ofNat 1 : Value F).Safe := safe_ofNat (by decide)
  cases version with
  | v0 counter =>
    have hcounter : (Value.ofNat counter : Value F).Safe := safe_ofNat h
    rw [nodeVersionToJson, Value.all_object]
    refine ⟨?_, trivial, ?_⟩
    · simp [Value.height, Value.heightEntries, Value.ofNat]
    · simp only [List.forall_mem_cons]
      exact ⟨hzero, hcounter, fun _ hnil => absurd hnil List.not_mem_nil⟩
  | v1 counter cid prev =>
    have hcounter : (Value.ofNat counter : Value F).Safe := safe_ofNat h.1
    rw [nodeVersionToJson, Value.all_object]
    refine ⟨?_, trivial, ?_⟩
    · cases prev <;> simp [Value.height, Value.heightEntries, Value.ofNat]
    · simp only [List.forall_mem_cons]
      refine ⟨hone, hcounter, trivial, ?_, fun _ hnil => absurd hnil List.not_mem_nil⟩
      cases prev with
      | none => trivial
      | some before => trivial

theorem readCounter_ofNat {n : Nat} (h : n ≤ maxSafeInteger) (path : String) :
    readCounter (some (.ofNat n : Value F)) path = .ok n := by
  rw [readCounter, Option.bind_some, Value.asU64_ofNat]
  exact if_neg (by omega)

/-- A valid version is read back as it was written. -/
theorem validate_toJson [Float64 F] (h : version.Valid) (path : String) :
    validateNodeVersionJson (nodeVersionToJson version : Value F) path = .ok version := by
  have hstrict := nodeVersionToJson_strict (F := F) h path
  cases version with
  | v0 counter =>
    rw [nodeVersionToJson] at hstrict ⊢
    rw [validateNodeVersionJson, hstrict]
    simp [List.lookup_cons, List.lookup_nil, requireFields, readCounter_ofNat h]
    rfl
  | v1 counter cid prev =>
    rw [nodeVersionToJson] at hstrict ⊢
    rw [validateNodeVersionJson, hstrict]
    cases prev with
    | none =>
      obtain rfl := h.2.mp rfl
      simp [List.lookup_cons, List.lookup_nil, requireFields, readCounter_ofNat h.1, readPrev,
        Value.asStr]
      rfl
    | some before =>
      have hne : counter ≠ 0 := fun hzero => by cases h.2.mpr hzero
      simp [List.lookup_cons, List.lookup_nil, requireFields, readCounter_ofNat h.1, readPrev,
        Value.asStr, hne,
        bind, Except.bind]

end GraphRefly.Versioning
