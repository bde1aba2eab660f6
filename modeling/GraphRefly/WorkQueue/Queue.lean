import GraphRefly.Messaging.Bus
import Mathlib.Data.List.Sort

/-!
# The Work Queue

Works that are admitted from a topic of the message bus, leased to workers, and
completed, retried, canceled or given up. Everything that happens to a work is
appended to a log of records; commands are answered with the records they have
appended, statuses and issues.

A lease is not ended by the clock. It is expired lazily, by the next command
that looks at it and is told a time at or past its end: a claim, a maintenance
command, or a command of the worker itself.

The time is an argument. The node that runs the reducer passes the time a
command names, or a reading of its clock.

## Main definitions

* `WorkState`, `RuntimeState`: A work, and the state of a queue.
* `WorkQueueRecord`: What is appended to the log.
* `admitMessage`: Admitting a submit from the bus.
* `reduceQueueCommand`: A command of a worker.
* `QueueStep`, `queueRun`: Admissions and commands, one after another.
-/

namespace GraphRefly.WorkQueue

open GraphRefly.Lib GraphRefly.Messaging

variable {T : Type}

/-! ### Retries -/

def maxU64 : Nat := 2 ^ 64 - 1

def maxU32 : Nat := 2 ^ 32 - 1

/-- Delay strategy for retry attempts. -/
inductive BackoffPolicy where
  | none
  | constant (delayMs : Nat)
  | linear (initialMs stepMs : Nat) (maxMs : Option Nat)
  | exponential (initialMs factor : Nat) (maxMs : Option Nat)
  | fibonacci (unitMs : Nat) (maxMs : Option Nat)
deriving DecidableEq

def cap (value : Nat) (max : Option Nat) : Nat :=
  match max with
  | .none => value
  | some max => min value max

/-- Two neighbours of the Fibonacci sequence, a number of steps on, saturating. -/
def fibonacciLoop : Nat → Nat → Nat → Nat
  | 0, _, curr => curr
  | n + 1, prev, curr => fibonacciLoop n curr (min (prev + curr) maxU32)

def fibonacci : Nat → Nat
  | 0 => 0
  | 1 => 1
  | n + 2 => fibonacciLoop (n + 1) 0 1

/-- The delay before an attempt; sums and products saturate. -/
def BackoffPolicy.delayMs (policy : BackoffPolicy) (attempt : Nat) : Nat :=
  match policy with
  | .none => 0
  | constant delayMs => delayMs
  | linear initialMs stepMs maxMs =>
    cap (min (initialMs + min (stepMs * (attempt - 1)) maxU64) maxU64) maxMs
  | exponential initialMs factor maxMs =>
    cap (min (initialMs * min (factor ^ (attempt - 1)) maxU32) maxU64) maxMs
  | fibonacci unitMs maxMs => cap (min (unitMs * WorkQueue.fibonacci attempt) maxU64) maxMs

structure RetryPolicy where
  maxAttempts : Nat
  backoff : BackoffPolicy
deriving DecidableEq

def RetryPolicy.shouldRetry (policy : RetryPolicy) (failedAttempt : Nat) : Bool :=
  decide (failedAttempt < policy.maxAttempts)

def RetryPolicy.nextDelayMs (policy : RetryPolicy) (nextAttempt : Nat) : Option Nat :=
  if nextAttempt = 0 ∨ nextAttempt > policy.maxAttempts then none
  else some (policy.backoff.delayMs nextAttempt)

/-! ### Records -/

structure WorkQueueSubmit (T : Type) where
  payload : T
  workId : Option String
  priority : Option Int
  tags : List String
  requirements : List String
  notBeforeMs : Option Nat
  deadlineMs : Option Nat
deriving DecidableEq

/-- The message a work was submitted with. -/
structure WorkQueueMessageBusRef where
  topic : String
  seq : Nat
  subscriptionId : String
deriving DecidableEq

/-- How a lease is named: by its id, the attempt and the worker. -/
structure LeaseRef where
  leaseId : String
  attempt : Nat
  workerId : String
deriving DecidableEq

/-- What a record says, beside its number, its queue and its work. -/
inductive RecordBody (T : Type) where
  | workAdmitted (payload : T) (messageBus : WorkQueueMessageBusRef) (priority : Option Int)
      (tags requirements : List String) (notBeforeMs deadlineMs : Option Nat) (recordedAtMs : Nat)
  | admissionDeduped (messageBus : WorkQueueMessageBusRef) (reason existingWorkId : String)
      (recordedAtMs : Nat)
  | workScheduled (commandId : String) (scheduleId : Option String) (notBeforeMs : Nat)
      (deadlineMs : Option Nat) (reason : Option String) (recordedAtMs : Nat)
  | workClaimed (commandId : String) (lease : LeaseRef) (claimedAtMs leaseExpiresAtMs : Nat)
  | leaseRenewed (commandId : String) (lease : LeaseRef)
      (previousLeaseExpiresAtMs leaseExpiresAtMs renewedAtMs : Nat)
  | workReleased (commandId : String) (lease : LeaseRef) (releasedAtMs : Nat)
      (reason : Option String)
  | leaseExpired (commandId : Option String) (lease : LeaseRef)
      (leaseExpiresAtMs expiredAtMs : Nat)
  | attemptCompleted (commandId : String) (lease : LeaseRef) (result : Option String)
      (recordedAtMs : Nat)
  | workCompleted (commandId : String) (lease : LeaseRef) (result : Option String)
      (recordedAtMs : Nat)
  | attemptFailed (commandId : String) (lease : LeaseRef) (error : Option String)
      (retryable : Option Bool) (recordedAtMs : Nat)
  | retryScheduled (commandId : String) (retryAtMs delayMs : Nat) (reason : Option String)
      (recordedAtMs : Nat)
  | workDeadLettered (commandId reason : String) (exhaustedAttempts : Option Nat)
      (recordedAtMs : Nat)
  | workCanceled (commandId : String) (reason : Option String) (canceledAtMs : Nat)
      (canceledLeaseId : Option String) (attempt : Option Nat)
deriving DecidableEq

/-- The message an admission is about. -/
def RecordBody.admissionMessageBus : RecordBody T → Option WorkQueueMessageBusRef
  | workAdmitted _ messageBus .. | admissionDeduped messageBus .. => some messageBus
  | _ => none

structure WorkQueueRecord (T : Type) where
  recordSeq : Nat
  queueId : String
  workId : String
  body : RecordBody T
deriving DecidableEq

/-! ### Works and the state of a queue -/

inductive WorkQueueDerivedState where
  | scheduled
  | ready
  | leased
  | retryWait
  | completed
  | canceled
  | deadLettered
deriving DecidableEq

structure WorkState (T : Type) where
  workId : String
  payload : T
  state : WorkQueueDerivedState
  admissionSeq : Nat
  priority : Option Int
  tags : List String
  requirements : List String
  notBeforeMs : Option Nat
  retryAtMs : Option Nat
  deadlineMs : Option Nat
  attempt : Nat
  leaseId : Option String
  workerId : Option String
  leaseExpiresAtMs : Option Nat
deriving DecidableEq

structure RuntimeState (T : Type) where
  recordSeq : Nat
  leaseSeq : Nat
  works : SortedMap String (WorkState T)
  sourceSeqs : Finset String
  commandIds : Finset String
  idempotencyKeys : Finset String
  records : List (WorkQueueRecord T)
  deadLetters : List (WorkQueueRecord T)

/-- The queue before anything has happened. -/
def RuntimeState.default : RuntimeState T :=
  { recordSeq := 0
    leaseSeq := 0
    works := SortedMap.empty
    sourceSeqs := ∅
    commandIds := ∅
    idempotencyKeys := ∅
    records := []
    deadLetters := [] }

def WorkState.clearLease (work : WorkState T) : WorkState T :=
  { work with leaseId := none, workerId := none, leaseExpiresAtMs := none }

def WorkState.isReady (work : WorkState T) (nowMs : Nat) : Bool :=
  match work.state with
  | .scheduled => work.notBeforeMs.any fun t => decide (t ≤ nowMs)
  | .retryWait => work.retryAtMs.any fun t => decide (t ≤ nowMs)
  | .ready => true
  | _ => false

def WorkState.isExpired (work : WorkState T) (nowMs : Nat) : Bool :=
  decide (work.state = .leased) && work.leaseExpiresAtMs.any fun expires => decide (expires ≤ nowMs)

def WorkQueueDerivedState.isTerminal : WorkQueueDerivedState → Bool
  | completed | canceled | deadLettered => true
  | _ => false

/-! ### Facts -/

inductive WorkQueueStatusKind where
  | commandAccepted
  | commandRejected
  | admissionAccepted
  | admissionRejected
  | projectionReady
  | projectionPartial
  | maintenanceApplied
  | maintenanceNoop
  | policyWarning
deriving DecidableEq

structure WorkQueueStatus where
  kind : WorkQueueStatusKind
  queueId : String
  workId : Option String
  commandId : Option String
  recordSeq : Option Nat
  asOfRecordSeq : Option Nat
  issueCode : Option String
  timestampMs : Nat
  details : Option String
deriving DecidableEq

/-- What a command is answered with. -/
inductive QueueEvent (T : Type) where
  | record (record : WorkQueueRecord T)
  | status (status : WorkQueueStatus)
  | issue (issue : DataIssue)
deriving DecidableEq

/-- A state with the facts that were reported on the way to it. -/
abbrev Answered (T : Type) : Type := RuntimeState T × List (QueueEvent T)

structure RuntimeOptions where
  queueId : String
  subscriptionId : String
  leaseDurationMs : Nat
  retry : RetryPolicy

structure StatusFields where
  workId : Option String := none
  commandId : Option String := none
  recordSeq : Option Nat := none
  asOfRecordSeq : Option Nat := none
  issueCode : Option String := none
  details : Option String := none

def statusEvent (opts : RuntimeOptions) (kind : WorkQueueStatusKind) (timestampMs : Nat)
    (fields : StatusFields) : QueueEvent T :=
  .status
    { kind := kind
      queueId := opts.queueId
      workId := fields.workId
      commandId := fields.commandId
      recordSeq := fields.recordSeq
      asOfRecordSeq := fields.asOfRecordSeq
      issueCode := fields.issueCode
      timestampMs := timestampMs
      details := fields.details }

def rejectQueueCommandById (opts : RuntimeOptions) (commandId : Option String)
    (code message : String) (nowMs : Nat) : List (QueueEvent T) :=
  [.issue
      { kind := "issue"
        code := code
        message := message
        severity := "error"
        source := "workQueue"
        topic := none
        details := some s!"queueId={opts.queueId}" },
    statusEvent opts .commandRejected nowMs { commandId := commandId, issueCode := some code }]

/-- Number a record and append it to the log. -/
def appendRecord (s : RuntimeState T) (opts : RuntimeOptions) (workId : String)
    (body : RecordBody T) : RuntimeState T × WorkQueueRecord T :=
  let record : WorkQueueRecord T :=
    { recordSeq := s.recordSeq + 1
      queueId := opts.queueId
      workId := workId
      body := body }
  ({ s with recordSeq := s.recordSeq + 1, records := s.records ++ [record] }, record)

def accepted (opts : RuntimeOptions) (record : WorkQueueRecord T) (workId commandId : Option String)
    (nowMs : Nat) : List (QueueEvent T) :=
  [.record record,
    statusEvent opts .commandAccepted nowMs
      { workId := workId, commandId := commandId, recordSeq := some record.recordSeq }]

def RuntimeState.setWork (s : RuntimeState T) (workId : String) (work : WorkState T) :
    RuntimeState T :=
  { s with works := s.works.insert workId work }

/-! ### Admission -/

/-- The spelling of the message a submit came with. -/
def admissionSource (message : MessageEnvelope (WorkQueueSubmit T)) : String :=
  Json.canonicalTupleKey [message.topic, toString message.seq]

/-- The id a submit asks for, or one made of its message. -/
def admissionWorkId (opts : RuntimeOptions) (message : MessageEnvelope (WorkQueueSubmit T)) :
    String :=
  message.payload.workId.getD
    (Json.compoundTupleKey "work-queue-work" [opts.queueId, message.topic, toString message.seq])

/-- Admit a submit, once for every message and once for every work id. -/
def admitMessage (opts : RuntimeOptions) (s : RuntimeState T)
    (message : MessageEnvelope (WorkQueueSubmit T)) (nowMs : Nat) : Answered T :=
  if admissionSource message ∈ s.sourceSeqs then (s, [])
  else
    let s := { s with sourceSeqs := insert (admissionSource message) s.sourceSeqs }
    let submit := message.payload
    let workId := admissionWorkId opts message
    let messageBus : WorkQueueMessageBusRef :=
      { topic := message.topic, seq := message.seq, subscriptionId := opts.subscriptionId }
    match s.works.lookup workId with
    | some _ =>
      let r := appendRecord s opts workId
        (.admissionDeduped messageBus "duplicate-work" workId nowMs)
      (r.1, [.record r.2,
        statusEvent opts .admissionRejected nowMs
          { workId := some workId
            recordSeq := some r.2.recordSeq
            issueCode := some "duplicate-work" }])
    | none =>
      let initialState : WorkQueueDerivedState :=
        if submit.notBeforeMs.any fun t => decide (t > nowMs) then .scheduled else .ready
      let s := s.setWork workId
        { workId := workId
          payload := submit.payload
          state := initialState
          admissionSeq := message.seq
          priority := submit.priority
          tags := submit.tags
          requirements := submit.requirements
          notBeforeMs := submit.notBeforeMs
          retryAtMs := none
          deadlineMs := submit.deadlineMs
          attempt := 0
          leaseId := none
          workerId := none
          leaseExpiresAtMs := none }
      let r := appendRecord s opts workId
        (.workAdmitted submit.payload messageBus submit.priority submit.tags submit.requirements
          submit.notBeforeMs submit.deadlineMs nowMs)
      (r.1, [.record r.2,
        statusEvent opts .admissionAccepted nowMs
          { workId := some workId, recordSeq := some r.2.recordSeq }])

/-! ### Leases -/

section

variable (opts : RuntimeOptions) (s : RuntimeState T)

/-- Take an expired lease away from its worker. The work may be claimed again. -/
def materializeLeaseExpired (work : WorkState T)
    (commandId : Option String) (nowMs : Nat) : Answered T :=
  match s.works.lookup work.workId with
  | none => (s, [])
  | some current =>
    let s := s.setWork work.workId ({ current with state := .ready }).clearLease
    let r := appendRecord s opts work.workId
      (.leaseExpired commandId
        { leaseId := work.leaseId.getD ""
          attempt := work.attempt
          workerId := work.workerId.getD "" }
        (work.leaseExpiresAtMs.getD nowMs) nowMs)
    (r.1, [.record r.2])

/-- Expire the leases of some works, one after another. -/
def materializeAll (workIds : List String) (commandId : String) (nowMs : Nat) : Answered T :=
  workIds.foldl (fun r workId =>
    match r.1.works.lookup workId with
    | none => r
    | some work =>
      let expired := materializeLeaseExpired opts r.1 work (some commandId) nowMs
      (expired.1, r.2 ++ expired.2)) (s, [])

/-- A time some milliseconds from now, as long as it can be written down. -/
def checkedTimestamp (opts : RuntimeOptions) (commandId : Option String) (nowMs deltaMs : Nat)
    (message : String) : Except (List (QueueEvent T)) Nat :=
  if nowMs + deltaMs ≤ maxU64 then .ok (nowMs + deltaMs)
  else .error (rejectQueueCommandById opts commandId "clock-overflow" message nowMs)

/-- The work under a lease that is current, or why the command is refused. An
    expired lease is taken away on the way. -/
def currentLease (workId : String) (lease : LeaseRef)
    (commandId : Option String) (nowMs : Nat) : Except (Answered T) (WorkState T) :=
  match s.works.lookup workId with
  | none => .error (s, rejectQueueCommandById opts commandId "unknown-work" "unknown work" nowMs)
  | some work =>
    if work.state.isTerminal then
      .error (s, rejectQueueCommandById opts commandId "terminal-work" "work is terminal" nowMs)
    else if work.state ≠ .leased then
      .error (s,
        rejectQueueCommandById opts commandId "lease-not-current" "work is not leased" nowMs)
    else if work.leaseId ≠ some lease.leaseId then
      .error (s, rejectQueueCommandById opts commandId "stale-lease" "lease is not current" nowMs)
    else if work.attempt ≠ lease.attempt then
      .error (s, rejectQueueCommandById opts commandId "attempt-mismatch"
        "attempt mismatch" nowMs)
    else if work.workerId ≠ some lease.workerId then
      .error (s, rejectQueueCommandById opts commandId "worker-mismatch" "worker mismatch" nowMs)
    else if work.isExpired nowMs then
      let expired := materializeLeaseExpired opts s work commandId nowMs
      .error (expired.1,
        expired.2 ++ rejectQueueCommandById opts commandId "lease-expired" "lease expired" nowMs)
    else .ok work

end

/-! ### Claims -/

/-- A work some requested ids are about: any work when there are none. -/
def wanted (requested : List String) (work : WorkState T) : Bool :=
  requested.isEmpty || decide (work.workId ∈ requested)

def candidateLe (a b : Nat × String) : Prop := a.1 < b.1 ∨ a.1 = b.1 ∧ a.2 ≤ b.2

instance : DecidableRel candidateLe := fun a b =>
  inferInstanceAs (Decidable (a.1 < b.1 ∨ a.1 = b.1 ∧ a.2 ≤ b.2))

/-- The ready works a claim may take, in the order of their admission. -/
def claimCandidates (s : RuntimeState T) (requested : List String) (limit nowMs : Nat) :
    List String :=
  let candidates := s.works.values.filter fun work =>
    wanted requested work && work.isReady nowMs
  (((candidates.map fun work => (work.admissionSeq, work.workId)).insertionSort candidateLe).take
    limit).map (·.2)

section

variable (opts : RuntimeOptions) (s : RuntimeState T)

/-- Why requested works were not claimed. -/
def claimMissEvents (commandId : String)
    (requested claimed : List String) (nowMs : Nat) : List (QueueEvent T) :=
  (requested.dedup.filter fun workId => decide (workId ∉ claimed)).flatMap fun workId =>
    match s.works.lookup workId with
    | none =>
      rejectQueueCommandById opts (some commandId) "unknown-work"
        s!"unknown work '{workId}'" nowMs
    | some work =>
      if work.isReady nowMs then []
      else
        let code :=
          if work.state.isTerminal then "terminal-work"
          else if work.state = .leased then "already-leased"
          else "not-ready"
        rejectQueueCommandById opts (some commandId) code
          s!"requested work '{workId}' is not claimable" nowMs

/-- The id of a lease, made of the work and the number of leases issued. -/
def leaseIdFor (workId : String) (leaseSeq : Nat) : String :=
  Json.compoundTupleKey "work-queue-lease" [workId, toString leaseSeq]

/-- Lease a work to a worker. -/
def claimOne (commandId workerId workId : String) (leaseExpiresAtMs nowMs : Nat) : Answered T :=
  match s.works.lookup workId with
  | none => (s, [])
  | some work =>
    let leaseSeq := s.leaseSeq + 1
    let leaseId := leaseIdFor work.workId leaseSeq
    let s := { s with leaseSeq := leaseSeq }
    let s := s.setWork workId
      { work with
        state := .leased
        attempt := work.attempt + 1
        leaseId := some leaseId
        workerId := some workerId
        leaseExpiresAtMs := some leaseExpiresAtMs }
    let r := appendRecord s opts workId
      (.workClaimed commandId
        { leaseId := leaseId, attempt := work.attempt + 1, workerId := workerId } nowMs
        leaseExpiresAtMs)
    (r.1, accepted opts r.2 (some workId) (some commandId) nowMs)

def claimAll (commandId workerId : String)
    (workIds : List String) (leaseExpiresAtMs nowMs : Nat) : Answered T :=
  workIds.foldl (fun r workId =>
    let claimed := claimOne opts r.1 commandId workerId workId leaseExpiresAtMs nowMs
    (claimed.1, r.2 ++ claimed.2)) (s, [])

def claimWork (commandId workerId : String)
    (requestedWorkIds : List String) (limit leaseDurationMs : Option Nat) (nowMs : Nat) :
    Answered T :=
  let limit := limit.getD (max requestedWorkIds.length 1)
  let expired := (s.works.values.filter fun work =>
    wanted requestedWorkIds work && work.isExpired nowMs).map (·.workId)
  let materialized := materializeAll opts s expired commandId nowMs
  let s := materialized.1
  let candidates := claimCandidates s requestedWorkIds limit nowMs
  if candidates.isEmpty then
    let missed :=
      if requestedWorkIds.isEmpty then
        rejectQueueCommandById opts (some commandId) "not-ready" "no ready work" nowMs
      else claimMissEvents opts s commandId requestedWorkIds [] nowMs
    (s, materialized.2 ++ missed)
  else
    match checkedTimestamp opts (some commandId) nowMs
        (leaseDurationMs.getD opts.leaseDurationMs) "lease duration overflows timestamp" with
    -- The records of the expired leases are in the log and are not reported.
    | .error events => (s, events)
    | .ok leaseExpiresAtMs =>
      let claimed := claimAll opts s commandId workerId candidates leaseExpiresAtMs nowMs
      let missed :=
        if requestedWorkIds.isEmpty then []
        else claimMissEvents opts claimed.1 commandId requestedWorkIds candidates nowMs
      (claimed.1, materialized.2 ++ claimed.2 ++ missed)

end

/-! ### Commands of the lease holder -/

section

variable (opts : RuntimeOptions) (s : RuntimeState T) (commandId workId : String) (lease : LeaseRef)

def renewLease (leaseDurationMs leaseExpiresAtMs : Option Nat) (nowMs : Nat) :
    Answered T :=
  match currentLease opts s workId lease (some commandId) nowMs with
  | .error refused => refused
  | .ok work =>
    let next : Except (List (QueueEvent T)) Nat :=
      match leaseExpiresAtMs with
      | some value => .ok value
      | none =>
        checkedTimestamp opts (some commandId) nowMs
          (leaseDurationMs.getD opts.leaseDurationMs)
          "lease renewal duration overflows timestamp"
    match next with
    | .error events => (s, events)
    | .ok next =>
      let s := s.setWork workId { work with leaseExpiresAtMs := some next }
      let r := appendRecord s opts workId
        (.leaseRenewed commandId lease (work.leaseExpiresAtMs.getD 0) next nowMs)
      (r.1, accepted opts r.2 (some workId) (some commandId) nowMs)

def releaseWork (reason : Option String) (nowMs : Nat) : Answered T :=
  match currentLease opts s workId lease (some commandId) nowMs with
  | .error refused => refused
  | .ok work =>
    let s := s.setWork workId { work.clearLease with state := .ready }
    let r := appendRecord s opts workId (.workReleased commandId lease nowMs reason)
    (r.1, accepted opts r.2 (some workId) (some commandId) nowMs)

def completeWork (result : Option String) (nowMs : Nat) : Answered T :=
  match currentLease opts s workId lease (some commandId) nowMs with
  | .error refused => refused
  | .ok work =>
    let s := s.setWork workId ({ work with state := .completed }).clearLease
    let attempt := appendRecord s opts workId (.attemptCompleted commandId lease result nowMs)
    let done := appendRecord attempt.1 opts workId (.workCompleted commandId lease result nowMs)
    (done.1, .record attempt.2 :: accepted opts done.2 (some workId) (some commandId) nowMs)

def failWork (error : Option String) (retryable : Option Bool) (nowMs : Nat) :
    Answered T :=
  match currentLease opts s workId lease (some commandId) nowMs with
  | .error refused => refused
  | .ok work =>
    if retryable.getD true && opts.retry.shouldRetry work.attempt then
      let delayMs := (opts.retry.nextDelayMs (min (work.attempt + 1) maxU32)).getD 0
      match checkedTimestamp opts (some commandId) nowMs delayMs
          "retry delay overflows timestamp" with
      | .error events => (s, events)
      | .ok retryAtMs =>
        let failed := appendRecord s opts workId
          (.attemptFailed commandId lease error retryable nowMs)
        let s := failed.1.setWork workId
          ({ work with
            state := if delayMs > 0 then .retryWait else .ready
            retryAtMs := some retryAtMs }).clearLease
        let retry := appendRecord s opts workId
          (.retryScheduled commandId retryAtMs delayMs (some "retry-policy") nowMs)
        (retry.1, .record failed.2 :: accepted opts retry.2 (some workId)
          (some commandId) nowMs)
    else
      let failed := appendRecord s opts workId
        (.attemptFailed commandId lease error retryable nowMs)
      let s := failed.1.setWork workId ({ work with state := .deadLettered }).clearLease
      let dead := appendRecord s opts workId
        (.workDeadLettered commandId "attempts-exhausted" (some lease.attempt) nowMs)
      ({ dead.1 with deadLetters := dead.1.deadLetters ++ [dead.2] },
        .record failed.2 :: accepted opts dead.2 (some workId) (some commandId) nowMs)

end

/-! ### Other commands -/

section

variable (opts : RuntimeOptions) (s : RuntimeState T)

def cancelWork (commandId workId : String) (reason : Option String) (nowMs : Nat) : Answered T :=
  match s.works.lookup workId with
  | none =>
    (s, rejectQueueCommandById opts (some commandId) "unknown-work" "unknown work" nowMs)
  | some work =>
    if work.state.isTerminal then
      (s, rejectQueueCommandById opts (some commandId) "terminal-work" "work is terminal" nowMs)
    else
      let attempt := if work.attempt > 0 then some work.attempt else none
      let s := s.setWork workId ({ work with state := .canceled }).clearLease
      let r := appendRecord s opts workId
        (.workCanceled commandId reason nowMs work.leaseId attempt)
      (r.1, accepted opts r.2 (some workId) (some commandId) nowMs)

def scheduleWork (commandId workId : String)
    (scheduleId : Option String) (notBeforeMs : Nat) (deadlineMs : Option Nat)
    (reason : Option String) (nowMs : Nat) : Answered T :=
  match s.works.lookup workId with
  | none =>
    (s, rejectQueueCommandById opts (some commandId) "unknown-work" "unknown work" nowMs)
  | some work =>
    if work.state.isTerminal then
      (s, rejectQueueCommandById opts (some commandId) "terminal-work" "work is terminal" nowMs)
    else if work.state = .leased then
      (s, rejectQueueCommandById opts (some commandId) "schedule-conflict"
        "leased work cannot be scheduled without release or cancel" nowMs)
    else
      let s := s.setWork workId
        { work with
          state := .scheduled
          notBeforeMs := some notBeforeMs
          deadlineMs := deadlineMs }
      let r := appendRecord s opts workId
        (.workScheduled commandId scheduleId notBeforeMs deadlineMs reason nowMs)
      (r.1, accepted opts r.2 (some workId) (some commandId) nowMs)

/-- The first works, as many as a limit allows. -/
def limited (limit : Option Nat) (works : List (WorkState T)) : List (WorkState T) :=
  match limit with
  | none => works
  | some limit => works.take limit

def expireLeases (commandId : String)
    (workIds : List String) (limit : Option Nat) (nowMs : Nat) : Answered T :=
  let works := s.works.values.filter fun work =>
    work.isExpired nowMs && wanted workIds work
  let expired := (limited limit works).map (·.workId)
  if expired.isEmpty then
    (s, [statusEvent opts .maintenanceNoop nowMs { commandId := some commandId }])
  else
    let materialized := materializeAll opts s expired commandId nowMs
    (materialized.1, materialized.2 ++
      [statusEvent opts .maintenanceApplied nowMs
        { commandId := some commandId, details := some s!"expired={expired.length}" }])

end

/-! ### Commands -/

inductive CommandBody (T : Type) where
  | submit (payload : T)
  | claim (workerId : String) (requestedWorkIds : List String)
      (limit leaseDurationMs : Option Nat)
  | renewLease (workId : String) (lease : LeaseRef) (leaseDurationMs leaseExpiresAtMs : Option Nat)
  | release (workId : String) (lease : LeaseRef) (reason : Option String)
  | complete (workId : String) (lease : LeaseRef) (result : Option String)
  | fail (workId : String) (lease : LeaseRef) (error : Option String) (retryable : Option Bool)
  | cancel (workId : String) (reason : Option String)
  | schedule (workId : String) (scheduleId : Option String) (notBeforeMs : Nat)
      (deadlineMs : Option Nat) (reason : Option String)
  | expireLeases (workIds : List String) (limit : Option Nat)

structure WorkQueueCommand (T : Type) where
  commandId : String
  queueId : Option String
  idempotencyKey : Option String
  body : CommandBody T

def LeaseRef.malformed (lease : LeaseRef) (workId : String) : Bool :=
  workId.isEmpty || lease.leaseId.isEmpty || lease.workerId.isEmpty || decide (lease.attempt = 0)

/-- What is wrong with a command's own fields. -/
def CommandBody.malformed : CommandBody T → Option String
  | submit _ => none
  | claim workerId requestedWorkIds limit leaseDurationMs =>
    if workerId.isEmpty then some "claim workerId is required"
    else if limit = some 0 ∨ leaseDurationMs = some 0 ∨
        requestedWorkIds.any String.isEmpty = true then
      some "claim options are malformed"
    else none
  | renewLease workId lease leaseDurationMs _ =>
    if lease.malformed workId = true ∨ leaseDurationMs = some 0 then
      some "lease command is malformed"
    else none
  | release workId lease _ | complete workId lease _ | fail workId lease _ _ =>
    if lease.malformed workId then some "lease command is malformed" else none
  | cancel workId _ | schedule workId _ _ _ _ =>
    if workId.isEmpty then some "workId must be non-empty" else none
  | expireLeases workIds limit =>
    if limit = some 0 ∨ workIds.any String.isEmpty = true then
      some "expire-leases options are malformed"
    else none

/-- The code and the text of what is wrong with a command. -/
def validateQueueCommand (queueId : String) (command : WorkQueueCommand T) :
    Option (String × String) :=
  if command.commandId.isEmpty then some ("malformed-command", "commandId must be non-empty")
  else if command.queueId.any fun id => decide (id ≠ queueId) then
    some ("queue-mismatch", "command queueId does not match this queue")
  else command.body.malformed.map fun message => ("malformed-command", message)

def rejectQueueCommand (opts : RuntimeOptions) (command : WorkQueueCommand T)
    (code message : String) (nowMs : Nat) : List (QueueEvent T) :=
  rejectQueueCommandById opts (some command.commandId) code message nowMs

/-- Carry out a command that has passed the checks. -/
def dispatchQueueCommand (opts : RuntimeOptions) (s : RuntimeState T) (commandId : String)
    (nowMs : Nat) : CommandBody T → Answered T
  | .submit _ =>
    (s, [statusEvent opts .commandAccepted nowMs
      { commandId := some commandId, details := some "submit uses messageBus" }])
  | .claim workerId requestedWorkIds limit leaseDurationMs =>
    claimWork opts s commandId workerId requestedWorkIds limit leaseDurationMs nowMs
  | .renewLease workId lease leaseDurationMs leaseExpiresAtMs =>
    renewLease opts s commandId workId lease leaseDurationMs leaseExpiresAtMs nowMs
  | .release workId lease reason => releaseWork opts s commandId workId lease reason nowMs
  | .complete workId lease result => completeWork opts s commandId workId lease result nowMs
  | .fail workId lease error retryable =>
    failWork opts s commandId workId lease error retryable nowMs
  | .cancel workId reason => cancelWork opts s commandId workId reason nowMs
  | .schedule workId scheduleId notBeforeMs deadlineMs reason =>
    scheduleWork opts s commandId workId scheduleId notBeforeMs deadlineMs reason nowMs
  | .expireLeases workIds limit => expireLeases opts s commandId workIds limit nowMs

/-- Remember the id and the key of a command. -/
def RuntimeState.note (s : RuntimeState T) (command : WorkQueueCommand T) : RuntimeState T :=
  { s with
    commandIds := insert command.commandId s.commandIds
    idempotencyKeys := match command.idempotencyKey with
      | none => s.idempotencyKeys
      | some key => insert key s.idempotencyKeys }

def reduceQueueCommand (opts : RuntimeOptions) (s : RuntimeState T) (command : WorkQueueCommand T)
    (nowMs : Nat) : Answered T :=
  match validateQueueCommand opts.queueId command with
  | some (code, message) => (s, rejectQueueCommand opts command code message nowMs)
  | none =>
    if command.commandId ∈ s.commandIds then
      (s, rejectQueueCommand opts command "duplicate-command" "duplicate commandId" nowMs)
    else if command.idempotencyKey.any fun key => decide (key ∈ s.idempotencyKeys) then
      (s, rejectQueueCommand opts command "duplicate-command" "duplicate idempotencyKey" nowMs)
    else dispatchQueueCommand opts (s.note command) command.commandId nowMs command.body

/-! ### Runs -/

/-- What happens to a queue, with the time it is told. -/
inductive QueueStep (T : Type) where
  | admission (message : MessageEnvelope (WorkQueueSubmit T)) (nowMs : Nat)
  | command (command : WorkQueueCommand T) (nowMs : Nat)

def queueStep (opts : RuntimeOptions) (s : RuntimeState T) : QueueStep T → Answered T
  | .admission message nowMs => admitMessage opts s message nowMs
  | .command command nowMs => reduceQueueCommand opts s command nowMs

/-- The state after admissions and commands. -/
def queueRun (opts : RuntimeOptions) (s : RuntimeState T) (steps : List (QueueStep T)) :
    RuntimeState T :=
  steps.foldl (fun s step => (queueStep opts s step).1) s

end GraphRefly.WorkQueue
