import GraphRefly.Json.Access
import GraphRefly.Json.Decode
import GraphRefly.Storage.AppendLog

/-!
# Frames of the Write-Ahead Log

A frame is a change with a path, a lifecycle, a number, a time and a checksum. The
checksum is the hash of the canonical bytes of everything else. A frame is made, checked,
encoded and decoded, and each of these looks at it through checks of its own: on the
typed body, on the typed frame, and on the untyped JSON value.

The payload is of any type that can be written as a JSON value and read back. The hash
is a parameter.

## Main definitions

* `SerdePayload`: How a payload is written and read.
* `WalFrameBody`, `WalFrame`: A frame without and with its checksum.
* `walFrame`, `verifyWalFrameChecksum`: Making a frame, and checking it.
* `WalFrameCodec.encode`, `WalFrameCodec.decode`: Frames as bytes.
* `walFrameKey`: The key of a frame in a store.
-/

namespace GraphRefly.Storage

open Json

variable {F T : Type}

/-! ### Payloads -/

/-- How a payload is written as a value and read back. -/
structure SerdePayload (F T : Type) where
  toValue : T → JsonValue F
  fromValue : Value F → Except String T

/-- A payload is read back from what it is written as. -/
structure SerdePayload.Lawful (P : SerdePayload F T) : Prop where
  fromValue_toValue : ∀ x (w : Value F), w.Distinct → Value.Same (P.toValue x).val w →
    P.fromValue w = .ok x

/-! ### Frames -/

inductive ChangeLifecycle
  | spec
  | data
  | ownership
  deriving DecidableEq

def ChangeLifecycle.name : ChangeLifecycle → String
  | .spec => "spec"
  | .data => "data"
  | .ownership => "ownership"

def ChangeLifecycle.ofName (name : String) : Option ChangeLifecycle :=
  if name = "spec" then some .spec
  else if name = "data" then some .data
  else if name = "ownership" then some .ownership
  else none

def walFormatVersion : Nat := 1

structure WalFrameBody (T : Type) where
  t : String
  lifecycle : ChangeLifecycle
  path : String
  change : T
  frameSeq : Nat
  frameTNs : String
  formatVersion : Nat

structure WalFrame (T : Type) where
  t : String
  lifecycle : ChangeLifecycle
  path : String
  change : T
  frameSeq : Nat
  frameTNs : String
  formatVersion : Nat
  checksum : String

structure WalFrameOptions (T : Type) where
  path : String
  change : T
  frameSeq : Nat
  lifecycle : ChangeLifecycle
  frameTNs : Option String

/-- A frame without its checksum. -/
def WalFrame.body (frame : WalFrame T) : WalFrameBody T :=
  { t := frame.t
    lifecycle := frame.lifecycle
    path := frame.path
    change := frame.change
    frameSeq := frame.frameSeq
    frameTNs := frame.frameTNs
    formatVersion := frame.formatVersion }

def WalFrameBody.entries (P : SerdePayload F T) (body : WalFrameBody T) :
    List (String × Value F) :=
  [("t", .string body.t), ("lifecycle", .string body.lifecycle.name), ("path", .string body.path),
    ("change", (P.toValue body.change).val), ("frame_seq", .ofNat body.frameSeq),
    ("frame_t_ns", .string body.frameTNs), ("format_version", .ofNat body.formatVersion)]

/-- The body as a value. -/
def WalFrameBody.toValue (P : SerdePayload F T) (body : WalFrameBody T) : Value F :=
  .object (body.entries P)

/-- The frame as a value. -/
def WalFrame.toValue (P : SerdePayload F T) (frame : WalFrame T) : Value F :=
  .object (frame.body.entries P ++ [("checksum", .string frame.checksum)])

/-! ### Checks -/

def ensure {ε : Type} (p : Prop) [Decidable p] (error : ε) : Except ε Unit :=
  if p then .ok () else .error error

/-- Digits without a leading zero. -/
def isNonNegativeDecimalIntegerString (value : String) : Bool :=
  decide (value = "0") || (decide (value.toList ≠ []) && decide (value.toList.head? ≠ some '-') &&
    decide (value.toList.head? ≠ some '0') && value.toList.all Char.isDigit)

def assertNonNegativeDecimalIntegerString (value label : String) : Except JsonCodecError Unit :=
  ensure (isNonNegativeDecimalIntegerString value = true)
    (.validation (label ++ " must be a canonical non-negative decimal integer string"))

def isHexDigit (c : Char) : Bool := c.isDigit || (decide ('a' ≤ c) && decide (c ≤ 'f'))

def isSha256Hex (value : String) : Bool :=
  decide (value.toList.length = 64) && value.toList.all isHexDigit

/-- The fields a frame may have. -/
def walFields : List String :=
  ["t", "lifecycle", "path", "change", "frame_seq", "frame_t_ns", "format_version", "checksum"]

def invalid (message : String) : JsonCodecError := .validation ("walFrameCodec: " ++ message)

section

variable (value : Value F)

/-- A string field of a value. -/
def strField (key : String) : Option String := (value.get key).bind Value.asStr

def u64Field (key : String) : Option Nat := (value.get key).bind Value.asU64

/-- No field is unknown. -/
def assertKnownFields (record : List (String × Value F)) : Except JsonCodecError Unit :=
  match record.find? fun e => decide (e.1 ∉ walFields) with
  | some e => .error (invalid ("unknown field " ++ e.1))
  | none => .ok ()

def assertFrameTNs : Except JsonCodecError Unit :=
  match strField value "frame_t_ns" with
  | none =>
    .error (invalid "frame_t_ns must be a canonical non-negative decimal integer string")
  | some frameTNs => assertNonNegativeDecimalIntegerString frameTNs "walFrameCodec: frame_t_ns"

def assertWalFrameBodyValue (label : String) : Except JsonCodecError Unit :=
  match value with
  | .object record => do
      assertKnownFields record
      ensure (strField (.object record) "t" = some "c") (invalid "t must be c")
      ensure (((strField (.object record) "lifecycle").bind ChangeLifecycle.ofName).isSome)
        (invalid "lifecycle must be spec, data, or ownership")
      ensure ((strField (.object record) "path").any fun path => decide (path ≠ ""))
        (invalid "path must be a non-empty string")
      ensure (((Value.object record).get "change").isSome) (invalid "change payload is required")
      ensure ((u64Field (.object record) "frame_seq").isSome)
        (invalid "frame_seq must be a non-negative integer")
      assertFrameTNs (.object record)
      ensure (u64Field (.object record) "format_version" = some walFormatVersion)
        (invalid "format_version must be 1")
  | _ => .error (.validation (label ++ ": frame must be an object"))

def assertWalFrameValue : Except JsonCodecError Unit := do
  assertWalFrameBodyValue value "walFrameCodec"
  match value.get "checksum" with
  | none => .error (invalid "checksum is required")
  | some checksum =>
    ensure (checksum.asStr.any isSha256Hex)
      (invalid "checksum must be a lowercase sha256 hex string")

end

def assertWalFrameBody (P : SerdePayload F T) (body : WalFrameBody T) :
    Except JsonCodecError Unit := do
  ensure (body.t = "c") (invalid "t must be c")
  ensure (body.path ≠ "") (invalid "path must be a non-empty string")
  assertNonNegativeDecimalIntegerString body.frameTNs "walFrameCodec: frame_t_ns"
  ensure (body.formatVersion = walFormatVersion) (invalid "format_version must be 1")
  assertWalFrameBodyValue (body.toValue P) "walFrameCodec"

def assertWalFrame (P : SerdePayload F T) (frame : WalFrame T) : Except JsonCodecError Unit := do
  assertWalFrameBody P frame.body
  ensure (isSha256Hex frame.checksum = true)
    (invalid "checksum must be a lowercase sha256 hex string")

/-! ### Checksums -/

/-- What a hash of 256 bits gives. -/
abbrev Digest : Type := { bytes : List (Fin 256) // bytes.length = 32 }

def hexByte (b : Fin 256) : List Char := [hexDigit (b / 16), hexDigit (b % 16)]

def hexText (digest : Digest) : String := String.ofList (digest.val.flatMap hexByte)

def storageJsonError (error : JsonCodecError) : StorageError := .backend error.toString

section Checksums

variable [Float64 F] (sha256 : ByteArray → Digest) (P : SerdePayload F T)

def sha256Hex (bytes : ByteArray) : String := hexText (sha256 bytes)

def walFrameChecksum (body : WalFrameBody T) : Except StorageError String := do
  (assertWalFrameBody P body).mapError storageJsonError
  (assertWalFrameBodyValue (body.toValue P) "walFrameCodec").mapError storageJsonError
  let bytes ← (strictCanonicalJsonBytes (body.toValue P)).mapError storageJsonError
  .ok (sha256Hex sha256 bytes)

/-- The time of a frame: as it is given, or a reading of the clock. -/
def frameTime (nowNs : Nat) : Option String → Except StorageError String
  | some value =>
    ((assertNonNegativeDecimalIntegerString value "walFrameCodec: frame_t_ns").map
      fun _ => value).mapError storageJsonError
  | none => .ok (toString nowNs)

def WalFrameBody.ofOptions (opts : WalFrameOptions T) (frameTNs : String) : WalFrameBody T :=
  { t := "c"
    lifecycle := opts.lifecycle
    path := opts.path
    change := opts.change
    frameSeq := opts.frameSeq
    frameTNs
    formatVersion := walFormatVersion }

def WalFrameBody.seal (body : WalFrameBody T) (checksum : String) : WalFrame T :=
  { t := body.t
    lifecycle := body.lifecycle
    path := body.path
    change := body.change
    frameSeq := body.frameSeq
    frameTNs := body.frameTNs
    formatVersion := body.formatVersion
    checksum }

def walFrame (nowNs : Nat) (opts : WalFrameOptions T) : Except StorageError (WalFrame T) := do
  let frameTNs ← frameTime nowNs opts.frameTNs
  let checksum ← walFrameChecksum sha256 P (.ofOptions opts frameTNs)
  .ok ((WalFrameBody.ofOptions opts frameTNs).seal checksum)

def verifyWalFrameChecksum (frame : WalFrame T) : Except StorageError Bool := do
  (assertWalFrame P frame).mapError storageJsonError
  let checksum ← walFrameChecksum sha256 P frame.body
  .ok (decide (checksum = frame.checksum))

end Checksums

/-! ### The codec -/

/-- Read a frame from a value. The checks before leave only the payload to fail. -/
def frameFromValue (P : SerdePayload F T) (value : Value F) : Except String (WalFrame T) :=
  match strField value "t", (strField value "lifecycle").bind ChangeLifecycle.ofName,
      strField value "path", value.get "change", u64Field value "frame_seq",
      strField value "frame_t_ns", u64Field value "format_version", strField value "checksum" with
  | some t, some lifecycle, some path, some change, some frameSeq, some frameTNs,
      some formatVersion, some checksum =>
      (P.fromValue change).map fun change =>
        { t, lifecycle, path, change, frameSeq, frameTNs, formatVersion, checksum }
  | _, _, _, _, _, _, _, _ => .error "invalid frame"

namespace WalFrameCodec

variable [Float64 F] (P : SerdePayload F T)

def encode (frame : WalFrame T) : Except JsonCodecError ByteArray := do
  assertWalFrame P frame
  assertWalFrameValue (frame.toValue P)
  strictCanonicalJsonBytes (frame.toValue P)

def decode (lib : SerdeJson F) (bytes : ByteArray) : Except JsonCodecError (WalFrame T) := do
  let value ← strictJsonDecode lib bytes
  assertWalFrameValue value.val
  (frameFromValue P value.val).mapError .decode

end WalFrameCodec

/-! ### Keys -/

def walKeySegment : String := "wal"

def walFrameSeqPad : Nat := 20

def walFramePrefix (ns : String) : String :=
  if ns = "" then walKeySegment else ns ++ "/" ++ walKeySegment

def walFrameKey (pre : String) (frameSeq : Nat) : String :=
  pre ++ "/" ++ String.ofList (padDigits walFrameSeqPad frameSeq)

end GraphRefly.Storage
