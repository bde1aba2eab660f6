import GraphRefly.Json.Access
import GraphRefly.Json.Identity
import GraphRefly.Messaging.Bus
import Mathlib.Data.Prod.Lex

/-!
# Schedules

A schedule asks to be told when a moment has come. It is retained in a canonical
form: runtime keys are dropped from all metadata, and every list of references is
sorted and holds a kind and id once. Two schedules with one id are the same
request when their canonical forms have one canonical text.

## Main definitions

* `ScheduledReadinessRequested`, `ScheduledReadinessClock`: What is received.
* `sanitizeMetadata`, `canonicalSourceRefs`, `sanitizeSchedule`: The canonical form.
* `scheduleIdentity`: What tells a replay from a conflict.
-/

namespace GraphRefly.Readiness

open Json Lib
open Messaging (DataIssue)

variable {F : Type}

/-- Values under keys, beside what a fact says itself. -/
abbrev Metadata (F : Type) : Type := SortedMap String (Value F)

structure SourceRef (F : Type) where
  kind : String
  id : String
  metadata : Option (Metadata F)

def SourceRef.new (kind id : String) : SourceRef F := ⟨kind, id, none⟩

structure ScheduledReadinessRequested (F : Type) where
  scheduleId : String
  subjectRefs : List (SourceRef F)
  readyAtMs : Nat
  deadlineMs : Option Nat
  reason : Option String
  policyRefs : List (SourceRef F)
  sourceRefs : List (SourceRef F)
  metadata : Option (Metadata F)

structure ScheduledReadinessClock (F : Type) where
  clockId : String
  nowMs : Nat
  sourceRefs : List (SourceRef F)
  metadata : Option (Metadata F)

structure ScheduledReadinessReady (F : Type) where
  scheduleId : String
  subjectRefs : List (SourceRef F)
  readyAtMs : Nat
  deadlineMs : Option Nat
  nowMs : Nat
  sourceRefs : List (SourceRef F)
  metadata : Option (Metadata F)

/-! ### The canonical form -/

/-- The keys, in lower case, that never leave the runtime. -/
def runtimeMetadataKeys : List String :=
  ["apikey", "api_key", "secret", "client", "transport", "subprocess", "sdk", "oauth",
    "credential", "credentials", "accesstoken", "access_token", "refreshtoken",
    "refresh_token", "token", "password", "authorization", "cookie", "stdout", "stderr",
    "stack", "stacktrace", "providerraw", "provider_raw", "rawresponse", "raw_response",
    "diff", "patch", "filecontents", "file_contents", "binary", "media"]

def isRuntimeMetadataKey (key : String) : Bool := key.toLower ∈ runtimeMetadataKeys

/-- The metadata without its runtime keys, and none where nothing is left. -/
def sanitizeMetadata (metadata : Option (Metadata F)) : Option (Metadata F) :=
  let out := (metadata.getD .empty).retain fun key _ => !isRuntimeMetadataKey key
  if out.entries.isEmpty then none else some out

def metadataJson (metadata : Metadata F) : Value F := .object metadata.entries

/-- The text a reference's metadata sorts by. Metadata without a strict canonical
    text sorts as none. -/
def metadataText [Float64 F] (ref : SourceRef F) : String :=
  match ref.metadata.map fun metadata => stableJsonString (metadataJson metadata) with
  | some (.ok text) => text
  | _ => ""

/-- One reference sorts no later than another. -/
def sourceRefLe [Float64 F] (a b : SourceRef F) : Prop :=
  a.kind < b.kind ∨ a.kind = b.kind ∧
    (a.id < b.id ∨ a.id = b.id ∧ metadataText a ≤ metadataText b)

instance [Float64 F] : DecidableRel (sourceRefLe (F := F)) := fun a b =>
  inferInstanceAs (Decidable (a.kind < b.kind ∨ a.kind = b.kind ∧
    (a.id < b.id ∨ a.id = b.id ∧ metadataText a ≤ metadataText b)))

def sourceRefKey (ref : SourceRef F) : String := canonicalTupleKey [ref.kind, ref.id]

/-- The first reference with each key, none of whose key was seen before. -/
def keepFirst : List String → List (SourceRef F) → List (SourceRef F)
  | _, [] => []
  | seen, ref :: refs =>
    if sourceRefKey ref ∈ seen then keepFirst seen refs
    else ref :: keepFirst (sourceRefKey ref :: seen) refs

/-- A reference without its runtime metadata, and none where it names nothing. -/
def sanitizeSourceRef (ref : SourceRef F) : Option (SourceRef F) :=
  if ref.kind.isEmpty || ref.id.isEmpty then none
  else some { ref with metadata := sanitizeMetadata ref.metadata }

def canonicalSourceRefs [Float64 F] (refs : List (SourceRef F)) : List (SourceRef F) :=
  keepFirst [] ((refs.filterMap sanitizeSourceRef).insertionSort sourceRefLe)

def sanitizeSchedule [Float64 F] (schedule : ScheduledReadinessRequested F) :
    ScheduledReadinessRequested F :=
  { schedule with
    subjectRefs := canonicalSourceRefs schedule.subjectRefs
    policyRefs := canonicalSourceRefs schedule.policyRefs
    sourceRefs := canonicalSourceRefs schedule.sourceRefs
    metadata := sanitizeMetadata schedule.metadata }

/-! ### The identity -/

def optionJson {α : Type} (f : α → Value F) : Option α → Value F
  | some a => f a
  | none => .null

def sourceRefJson (ref : SourceRef F) : Value F :=
  .object ([("kind", .string ref.kind), ("id", .string ref.id)] ++
    (ref.metadata.map fun metadata => ("metadata", metadataJson metadata)).toList)

def sourceRefsJson (refs : List (SourceRef F)) : Value F := .array (refs.map sourceRefJson)

def scheduleJson (schedule : ScheduledReadinessRequested F) : Value F :=
  .object
    [("scheduleId", .string schedule.scheduleId),
      ("subjectRefs", sourceRefsJson schedule.subjectRefs),
      ("readyAtMs", .ofNat schedule.readyAtMs),
      ("deadlineMs", optionJson .ofNat schedule.deadlineMs),
      ("reason", optionJson .string schedule.reason),
      ("policyRefs", sourceRefsJson schedule.policyRefs),
      ("sourceRefs", sourceRefsJson schedule.sourceRefs),
      ("metadata", optionJson metadataJson schedule.metadata)]

/-- The canonical text of a schedule, or its debug text where it has none. -/
def scheduleIdentity [Float64 F] (debug : ScheduledReadinessRequested F → String)
    (schedule : ScheduledReadinessRequested F) : String :=
  match stableJsonString (scheduleJson schedule) with
  | .ok text => text
  | .error _ => debug schedule

def readinessIssue (code message subjectId : String) (details : Option String)
    (severity : String) : DataIssue :=
  { kind := "data-issue"
    code := code
    message := message
    severity := severity
    source := s!"scheduled-readiness:{subjectId}"
    topic := none
    details := details }

end GraphRefly.Readiness
