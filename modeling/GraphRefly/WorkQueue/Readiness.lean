import GraphRefly.Readiness.Projector
import GraphRefly.WorkQueue.Queue

/-!
# Work Becoming Eligible

A queue's records tell when works become eligible: an admission with a delay, a work
scheduled for later, a retry, and the end of a lease. Each of these records is
translated into a schedule. What the schedules come to is handed back to the queue: a
ready fact becomes a candidate when it still agrees with what the records say of its
work, and is otherwise ignored.

The handoff follows the records in a table of works and keeps every ready fact it has
received. A wave first applies its records, then hands off again every fact kept from
before, in the order of their schedule ids, and then the facts it brings.

## Main definitions

* `scheduleFromRecord`: The translation of a record.
* `applyRecord`: What a record does to the table and the candidates.
* `judge`: What a ready fact is worth against the table.
* `handoffReady`: Handing off a ready fact.
* `Handoff.wave`: What a wave does.
-/

namespace GraphRefly.WorkQueue.Readiness

open Json Lib
open Messaging (DataIssue)
open GraphRefly.Readiness (SourceRef Metadata ScheduledReadinessRequested ScheduledReadinessReady
  ScheduledReadinessOverdue ScheduledReadinessAuditRecord readinessIssue)

variable {T F : Type}

/-! ### Kinds -/

inductive WorkQueueReadinessScheduleKind
  | admissionDelay
  | workScheduled
  | retryScheduled
  | leaseExpiration
  deriving DecidableEq

def WorkQueueReadinessScheduleKind.asStr : WorkQueueReadinessScheduleKind → String
  | admissionDelay => "admission-delay"
  | workScheduled => "work-scheduled"
  | retryScheduled => "retry-scheduled"
  | leaseExpiration => "lease-expiration"

def WorkQueueReadinessScheduleKind.fromStr (value : String) :
    Option WorkQueueReadinessScheduleKind :=
  if value = "admission-delay" then some admissionDelay
  else if value = "work-scheduled" then some workScheduled
  else if value = "retry-scheduled" then some retryScheduled
  else if value = "lease-expiration" then some leaseExpiration
  else none

@[simp] theorem fromStr_asStr (kind : WorkQueueReadinessScheduleKind) :
    WorkQueueReadinessScheduleKind.fromStr kind.asStr = some kind := by
  cases kind <;> decide +kernel

inductive WorkQueueReadinessStatusState
  | translated
  | candidate
  | ignored
  | overdue
  | issue
  deriving DecidableEq

inductive WorkQueueReadinessCandidateKind
  | claimEligible
  | leaseExpirationEligible
  deriving DecidableEq

def WorkQueueReadinessCandidateKind.asStr : WorkQueueReadinessCandidateKind → String
  | claimEligible => "claim-eligible"
  | leaseExpirationEligible => "lease-expiration-eligible"

def WorkQueueReadinessCandidateKind.debug : WorkQueueReadinessCandidateKind → String
  | claimEligible => "ClaimEligible"
  | leaseExpirationEligible => "LeaseExpirationEligible"

structure WorkQueueReadinessStatus where
  statusId : String
  queueId : String
  workId : Option String
  scheduleId : Option String
  state : WorkQueueReadinessStatusState
  scheduleKind : Option WorkQueueReadinessScheduleKind
  readyAtMs : Option Nat
  nowMs : Option Nat
  issueCode : Option String
  details : Option String

structure WorkQueueReadinessCandidate (F : Type) where
  candidateId : String
  queueId : String
  workId : String
  scheduleId : String
  candidateKind : WorkQueueReadinessCandidateKind
  scheduleKind : WorkQueueReadinessScheduleKind
  readyAtMs : Nat
  nowMs : Nat
  leaseId : Option String
  attempt : Option Nat
  workerId : Option String
  sourceRefs : List (SourceRef F)

/-! ### From records to schedules -/

structure ReadinessScheduleInput where
  queueId : String
  workId : String
  kind : WorkQueueReadinessScheduleKind
  scheduleId : String
  readyAtMs : Nat
  deadlineMs : Option Nat
  recordSeq : Nat
  lease : Option LeaseRef

def leaseMetadata (lease : LeaseRef) (metadata : Metadata F) : Metadata F :=
  ((metadata.insert "leaseId" (.string lease.leaseId)).insert "attempt"
    (.ofNat lease.attempt)).insert "workerId" (.string lease.workerId)

def workMetadata (input : ReadinessScheduleInput) : Metadata F :=
  .ofList [("queueId", .string input.queueId), ("workId", .string input.workId),
    ("scheduleKind", .string input.kind.asStr), ("recordSeq", .ofNat input.recordSeq)]

def readinessSchedule (input : ReadinessScheduleInput) : ScheduledReadinessRequested F where
  scheduleId := input.scheduleId
  subjectRefs := [.new "work-queue" input.queueId, .new "work-queue-work" input.workId]
  readyAtMs := input.readyAtMs
  deadlineMs := input.deadlineMs
  reason := some input.kind.asStr
  policyRefs := []
  sourceRefs := [.new ("work-queue-" ++ input.kind.asStr) input.scheduleId]
  metadata := some (match input.lease with
    | some lease => leaseMetadata lease (workMetadata input)
    | none => workMetadata input)

/-- What the schedule of a record is made of, where the record has one. -/
def scheduleInput (record : WorkQueueRecord T) : Option ReadinessScheduleInput :=
  match record.body with
  | .workAdmitted _ _ _ _ _ (some readyAtMs) deadlineMs _ => some
      { queueId := record.queueId
        workId := record.workId
        kind := .admissionDelay
        scheduleId := compoundTupleKey "work-queue-admission-readiness"
          [record.queueId, record.workId, toString record.recordSeq]
        readyAtMs := readyAtMs
        deadlineMs := deadlineMs
        recordSeq := record.recordSeq
        lease := none }
  | .workScheduled commandId scheduleId notBeforeMs deadlineMs _ _ => some
      { queueId := record.queueId
        workId := record.workId
        kind := .workScheduled
        scheduleId := compoundTupleKey "work-queue-scheduled-readiness"
          [record.queueId, record.workId, scheduleId.getD commandId, toString record.recordSeq]
        readyAtMs := notBeforeMs
        deadlineMs := deadlineMs
        recordSeq := record.recordSeq
        lease := none }
  | .retryScheduled commandId retryAtMs _ _ _ => some
      { queueId := record.queueId
        workId := record.workId
        kind := .retryScheduled
        scheduleId := compoundTupleKey "work-queue-retry-readiness"
          [record.queueId, record.workId, commandId, toString record.recordSeq]
        readyAtMs := retryAtMs
        deadlineMs := none
        recordSeq := record.recordSeq
        lease := none }
  | .workClaimed _ lease _ leaseExpiresAtMs | .leaseRenewed _ lease _ leaseExpiresAtMs _ => some
      { queueId := record.queueId
        workId := record.workId
        kind := .leaseExpiration
        scheduleId := compoundTupleKey "work-queue-lease-readiness"
          [record.queueId, record.workId, lease.leaseId, toString lease.attempt,
            toString record.recordSeq]
        readyAtMs := leaseExpiresAtMs
        deadlineMs := none
        recordSeq := record.recordSeq
        lease := some lease }
  | _ => none

def scheduleFromRecord (record : WorkQueueRecord T) : Option (ScheduledReadinessRequested F) :=
  (scheduleInput record).map readinessSchedule

/-! ### The handoff -/

structure QueueWorkState where
  queueId : String
  state : WorkQueueDerivedState
  effectiveReadyAtMs : Option Nat
  effectiveScheduleKind : Option WorkQueueReadinessScheduleKind
  leaseId : Option String
  attempt : Option Nat
  workerId : Option String
  leaseExpiresAtMs : Option Nat
  deriving DecidableEq

/-- A queue's id and a work's id. -/
abbrev WorkKey : Type := String ×ₗ String

def workKey (queueId workId : String) : WorkKey := toLex (queueId, workId)

/-- What the handoff keeps between waves. The set of keys is a list in the order the keys
    were first seen. -/
structure HandoffState (F : Type) where
  worksById : SortedMap WorkKey QueueWorkState
  readyById : SortedMap String (ScheduledReadinessReady F)
  candidatesById : SortedMap String (WorkQueueReadinessCandidate F)
  statusById : SortedMap String WorkQueueReadinessStatus
  emitted : List String
  auditSeq : Nat

def HandoffState.default : HandoffState F where
  worksById := .empty
  readyById := .empty
  candidatesById := .empty
  statusById := .empty
  emitted := []
  auditSeq := 0

structure WorkQueueReadinessViews (F : Type) where
  candidatesById : SortedMap String (WorkQueueReadinessCandidate F)
  statusById : SortedMap String WorkQueueReadinessStatus

inductive WorkQueueReadinessFact (F : Type)
  | candidate (value : WorkQueueReadinessCandidate F)
  | status (value : WorkQueueReadinessStatus)
  | issue (value : DataIssue)
  | audit (value : ScheduledReadinessAuditRecord F)
  | views (value : WorkQueueReadinessViews F)

/-- The state together with every fact emitted so far. -/
structure Handoff (F : Type) where
  state : HandoffState F
  facts : List (WorkQueueReadinessFact F)

/-! Records. -/

section

variable (s : HandoffState F) (queueId workId : String)

def pruneCandidatesForWork : HandoffState F :=
  { s with candidatesById := s.candidatesById.retain fun _ candidate =>
      candidate.queueId != queueId || candidate.workId != workId }

def setWork (work : QueueWorkState) :
    HandoffState F :=
  { s with worksById := s.worksById.insert (workKey queueId workId) work }

/-- A work that is not leased. -/
def delayedWork (queueId : String) (next : WorkQueueDerivedState) (readyAtMs : Option Nat)
    (kind : Option WorkQueueReadinessScheduleKind) : QueueWorkState where
  queueId := queueId
  state := next
  effectiveReadyAtMs := readyAtMs
  effectiveScheduleKind := kind
  leaseId := none
  attempt := none
  workerId := none
  leaseExpiresAtMs := none

def setWorkDelayedState (next : WorkQueueDerivedState) (readyAtMs : Option Nat)
    (kind : Option WorkQueueReadinessScheduleKind) : HandoffState F :=
  let s := pruneCandidatesForWork s queueId workId
  match s.worksById.lookup (workKey queueId workId) with
  | some work =>
    let changed := { work with
      state := next
      effectiveReadyAtMs := readyAtMs
      effectiveScheduleKind := kind }
    setWork s queueId workId
      (if next = .leased then changed
      else { changed with
        leaseId := none
        attempt := none
        workerId := none
        leaseExpiresAtMs := none })
  | none => setWork s queueId workId (delayedWork queueId next readyAtMs kind)

def setWorkState (next : WorkQueueDerivedState) :
    HandoffState F :=
  let s := if next.isTerminal then pruneCandidatesForWork s queueId workId else s
  setWorkDelayedState s queueId workId next none none

end

def applyRecord (s : HandoffState F) (record : WorkQueueRecord T) : HandoffState F :=
  match record.body with
  | .workAdmitted _ _ _ _ _ notBeforeMs _ _ =>
    setWork (pruneCandidatesForWork s record.queueId record.workId) record.queueId record.workId
      (delayedWork record.queueId (if notBeforeMs.isSome then .scheduled else .ready)
        notBeforeMs (notBeforeMs.map fun _ => .admissionDelay))
  | .workScheduled _ _ notBeforeMs _ _ _ =>
    setWorkDelayedState s record.queueId record.workId .scheduled (some notBeforeMs)
      (some .workScheduled)
  | .retryScheduled _ retryAtMs _ _ _ =>
    setWorkDelayedState s record.queueId record.workId .retryWait (some retryAtMs)
      (some .retryScheduled)
  | .workClaimed _ lease _ leaseExpiresAtMs | .leaseRenewed _ lease _ leaseExpiresAtMs _ =>
    setWork (pruneCandidatesForWork s record.queueId record.workId) record.queueId record.workId
      { queueId := record.queueId
        state := .leased
        effectiveReadyAtMs := some leaseExpiresAtMs
        effectiveScheduleKind := some .leaseExpiration
        leaseId := some lease.leaseId
        attempt := some lease.attempt
        workerId := some lease.workerId
        leaseExpiresAtMs := some leaseExpiresAtMs }
  | .workReleased .. | .leaseExpired .. => setWorkState s record.queueId record.workId .ready
  | .workCompleted .. => setWorkState s record.queueId record.workId .completed
  | .workCanceled .. => setWorkState s record.queueId record.workId .canceled
  | .workDeadLettered .. => setWorkState s record.queueId record.workId .deadLettered
  | .attemptFailed .. | .attemptCompleted .. | .admissionDeduped .. => s

/-! Ready facts. -/

section

variable (ready : ScheduledReadinessReady F)

def readyMetadata (key : String) : Option (Value F) :=
  ready.metadata.bind fun metadata => metadata.lookup key

def readyMetadataString (key : String) : Option String :=
  (readyMetadata ready key).bind Value.asStr

def readyMetadataU64 (key : String) : Option Nat :=
  (readyMetadata ready key).bind Value.asU64

/-- The kind of schedule a ready fact is about. -/
def readyKind : Option WorkQueueReadinessScheduleKind :=
  (readyMetadataString ready "scheduleKind").bind WorkQueueReadinessScheduleKind.fromStr

end

def candidateId (scheduleId : String) (kind : WorkQueueReadinessCandidateKind) : String :=
  compoundTupleKey "work-queue-readiness-candidate" [scheduleId, kind.asStr]

/-- What a ready fact is worth. Some of what is ignored takes the candidates of its work
    with it. -/
inductive Verdict (F : Type)
  | malformed (detail : String)
  | ignored (queueId workId : String) (kind : WorkQueueReadinessScheduleKind) (detail : String)
  | pruned (queueId workId : String) (kind : WorkQueueReadinessScheduleKind) (detail : String)
  | candidate (value : WorkQueueReadinessCandidate F)

/-- A fact about a delay. -/
def judgeDelay (work : QueueWorkState) (queueId workId : String)
    (kind : WorkQueueReadinessScheduleKind) (ready : ScheduledReadinessReady F) : Verdict F :=
  if work.effectiveReadyAtMs ≠ some ready.readyAtMs then
    .ignored queueId workId kind "superseded-readiness"
  else if (work.effectiveScheduleKind.any fun effective => decide (effective ≠ kind)) ∧
      (work.state = .scheduled ∨ work.state = .retryWait) then
    .ignored queueId workId kind "stale-readiness-kind"
  else if work.state = .completed ∨ work.state = .canceled ∨ work.state = .deadLettered ∨
      work.state = .leased then
    .pruned queueId workId kind "stale-readiness"
  else .candidate
    { candidateId := candidateId ready.scheduleId .claimEligible
      queueId := queueId
      workId := workId
      scheduleId := ready.scheduleId
      candidateKind := .claimEligible
      scheduleKind := kind
      readyAtMs := ready.readyAtMs
      nowMs := ready.nowMs
      leaseId := none
      attempt := none
      workerId := none
      sourceRefs := ready.sourceRefs }

/-- The attempt a ready fact is about, where it is one. -/
def readyAttempt (ready : ScheduledReadinessReady F) : Option Nat :=
  (readyMetadataU64 ready "attempt").bind fun value => if value ≤ maxU32 then some value else none

/-- A fact about a lease. -/
def judgeLease (work : QueueWorkState) (queueId workId : String)
    (ready : ScheduledReadinessReady F) : Verdict F :=
  if work.state ≠ .leased ∨ work.leaseId ≠ readyMetadataString ready "leaseId" ∨
      work.attempt ≠ readyAttempt ready ∨ work.leaseExpiresAtMs ≠ some ready.readyAtMs then
    .pruned queueId workId .leaseExpiration "stale-lease-readiness"
  else .candidate
    { candidateId := candidateId ready.scheduleId .leaseExpirationEligible
      queueId := queueId
      workId := workId
      scheduleId := ready.scheduleId
      candidateKind := .leaseExpirationEligible
      scheduleKind := .leaseExpiration
      readyAtMs := ready.readyAtMs
      nowMs := ready.nowMs
      leaseId := readyMetadataString ready "leaseId"
      attempt := readyAttempt ready
      workerId := work.workerId
      sourceRefs := ready.sourceRefs }

/-- A fact about a work that the table may hold. -/
def judgeWork (works : SortedMap WorkKey QueueWorkState) (queueId workId : String)
    (kind : WorkQueueReadinessScheduleKind) (ready : ScheduledReadinessReady F) : Verdict F :=
  match works.lookup (workKey queueId workId) with
  | none => .ignored queueId workId kind "unknown-work"
  | some work =>
    if work.queueId ≠ queueId then .ignored queueId workId kind "queue-mismatch"
    else if kind = .leaseExpiration then judgeLease work queueId workId ready
    else judgeDelay work queueId workId kind ready

def judge (works : SortedMap WorkKey QueueWorkState) (ready : ScheduledReadinessReady F) :
    Verdict F :=
  match readyMetadataString ready "queueId" with
  | none => .malformed "missing queueId metadata"
  | some queueId =>
    match readyMetadataString ready "workId" with
    | none => .malformed "missing workId metadata"
    | some workId =>
      match readyKind ready with
      | none => .malformed "missing scheduleKind metadata"
      | some kind => judgeWork works queueId workId kind ready

/-! Emitting. -/

def emitHandoffFact (h : Handoff F) (fact : WorkQueueReadinessFact F) : Handoff F :=
  { h with facts := h.facts ++ [fact] }

/-- Emit under a key that was not emitted before. -/
def handoffOnce (h : Handoff F) (key : String) (emit : Handoff F → Handoff F) : Handoff F :=
  if key ∈ h.state.emitted then h
  else emit { h with state := { h.state with emitted := h.state.emitted ++ [key] } }

section

variable (debug : WorkQueueReadinessStatus → String)

/-- A status is emitted once under its debug text. -/
def handoffStatusKey (status : WorkQueueReadinessStatus) : String :=
  compoundTupleKey "status" [debug status]

def emitHandoffStatus (h : Handoff F) (status : WorkQueueReadinessStatus) : Handoff F :=
  handoffOnce
    { h with state :=
      { h.state with statusById := h.state.statusById.insert status.statusId status } }
    (handoffStatusKey debug status) fun h => emitHandoffFact h (.status status)

def emitHandoffIssue (h : Handoff F) (scheduleId detail : String) : Handoff F :=
  handoffOnce h (canonicalTupleKey ["issue", scheduleId, detail]) fun h =>
    emitHandoffFact h (.issue (readinessIssue "work-queue-readiness-malformed-ready"
      "workQueue readiness handoff requires workQueue metadata on ready facts."
      scheduleId (some detail) "error"))

def emitHandoffAudit (h : Handoff F) (kind : String) (candidate : WorkQueueReadinessCandidate F) :
    Handoff F :=
  let auditSeq := h.state.auditSeq + 1
  emitHandoffFact { h with state := { h.state with auditSeq := auditSeq } } (.audit
    { id := s!"work-queue-readiness-handoff-audit-{auditSeq}"
      kind := kind
      subjectId := some candidate.scheduleId
      sourceRefs := candidate.sourceRefs
      metadata := some (.ofList [("queueId", .string candidate.queueId),
        ("workId", .string candidate.workId)]) })

def candidateStatus (candidate : WorkQueueReadinessCandidate F) : WorkQueueReadinessStatus where
  statusId := compoundTupleKey "work-queue-readiness-candidate-status" [candidate.candidateId]
  queueId := candidate.queueId
  workId := some candidate.workId
  scheduleId := some candidate.scheduleId
  state := .candidate
  scheduleKind := some candidate.scheduleKind
  readyAtMs := some candidate.readyAtMs
  nowMs := some candidate.nowMs
  issueCode := none
  details := some candidate.candidateKind.debug

def candidateKey (candidateId : String) : String := compoundTupleKey "candidate" [candidateId]

def emitCandidate (h : Handoff F) (candidate : WorkQueueReadinessCandidate F) : Handoff F :=
  handoffOnce
    { h with state := { h.state with
      candidatesById := h.state.candidatesById.insert candidate.candidateId candidate } }
    (candidateKey candidate.candidateId) fun h =>
      emitHandoffAudit
        (emitHandoffStatus debug (emitHandoffFact h (.candidate candidate))
          (candidateStatus candidate))
        "work-queue-readiness-candidate" candidate

def ignoredStatus (queueId workId : String) (ready : ScheduledReadinessReady F)
    (kind : WorkQueueReadinessScheduleKind) (detail : String) : WorkQueueReadinessStatus where
  statusId := compoundTupleKey "work-queue-readiness-ignored" [ready.scheduleId, detail]
  queueId := queueId
  workId := some workId
  scheduleId := some ready.scheduleId
  state := .ignored
  scheduleKind := some kind
  readyAtMs := some ready.readyAtMs
  nowMs := some ready.nowMs
  issueCode := none
  details := some detail

def handoffReadyInner (h : Handoff F) (ready : ScheduledReadinessReady F) : Handoff F :=
  match judge h.state.worksById ready with
  | .malformed detail => emitHandoffIssue h ready.scheduleId detail
  | .ignored queueId workId kind detail =>
    emitHandoffStatus debug h (ignoredStatus queueId workId ready kind detail)
  | .pruned queueId workId kind detail =>
    emitHandoffStatus debug { h with state := pruneCandidatesForWork h.state queueId workId }
      (ignoredStatus queueId workId ready kind detail)
  | .candidate value => emitCandidate debug h value

def keepReady (s : HandoffState F) (ready : ScheduledReadinessReady F) : HandoffState F :=
  { s with readyById := s.readyById.insert ready.scheduleId ready }

def handoffReady (h : Handoff F) (ready : ScheduledReadinessReady F) : Handoff F :=
  handoffReadyInner debug { h with state := keepReady h.state ready } ready

def overdueMetadataString (overdue : ScheduledReadinessOverdue F) (key : String) :
    Option String :=
  (overdue.metadata.bind fun metadata => metadata.lookup key).bind Value.asStr

def handoffOverdue (h : Handoff F) (overdue : ScheduledReadinessOverdue F) : Handoff F :=
  emitHandoffStatus debug h
    { statusId := compoundTupleKey "work-queue-readiness-overdue" [overdue.scheduleId]
      queueId := (overdueMetadataString overdue "queueId").getD ""
      workId := overdueMetadataString overdue "workId"
      scheduleId := some overdue.scheduleId
      state := .overdue
      scheduleKind := (overdueMetadataString overdue "scheduleKind").bind
        WorkQueueReadinessScheduleKind.fromStr
      readyAtMs := some overdue.readyAtMs
      nowMs := some overdue.nowMs
      issueCode := none
      details := some "deadline visibility only; no queue lifecycle mutation" }

end

/-- What a wave brings, from each node of each kind. -/
structure HandoffWave (T F : Type) where
  records : List (List (WorkQueueRecord T))
  ready : List (List (ScheduledReadinessReady F))
  overdue : List (List (ScheduledReadinessOverdue F))

def emitHandoffViews (h : Handoff F) : Handoff F :=
  emitHandoffFact h (.views ⟨h.state.candidatesById, h.state.statusById⟩)

/-- The records of a wave, applied. -/
def Handoff.record (h : Handoff F) (w : HandoffWave T F) : Handoff F :=
  { h with state := w.records.flatten.foldl applyRecord h.state }

section

variable (debug : WorkQueueReadinessStatus → String)

/-- Every ready fact kept so far, handed off again. -/
def Handoff.again (h : Handoff F) : Handoff F :=
  h.state.readyById.values.foldl (handoffReadyInner debug) h

def Handoff.wave (h : Handoff F) (w : HandoffWave T F) : Handoff F :=
  let h := (h.record w).again debug
  let h := w.ready.flatten.foldl (handoffReady debug) h
  emitHandoffViews (w.overdue.flatten.foldl (handoffOverdue debug) h)

/-- The handoff after a run of waves. -/
def handoffAfter (waves : List (HandoffWave T F)) :
    Handoff F :=
  waves.foldl (Handoff.wave debug) ⟨.default, []⟩

end

end GraphRefly.WorkQueue.Readiness
