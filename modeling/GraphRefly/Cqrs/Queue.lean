import GraphRefly.Cqrs.Runtime
import GraphRefly.WorkQueue.Queue

/-!
# Commands behind a Work Queue

A recipe that lets workers of a work queue run commands. An admitted work carries a
command; a claim of the work dispatches it; the status that comes back completes or
fails the claim. A status names its command only, so the open claims of a command wait
in a line and every status takes the first of them. Records that end a claim take it out
of the line.

The node that does this reads two streams, or three when errors are given to it. It does
not run before each of them has delivered something, and what has arrived by then waits.

## Main definitions

* `CqrsQueueState`: What the node remembers.
* `reduceRecord`, `reduceStatus`: One record, and one status.
* `RuntimeNode`, `RuntimeNode.wave`: The node with what waits for it.
-/

namespace GraphRefly.Cqrs.Queue

open GraphRefly.Lib GraphRefly.Messaging GraphRefly.WorkQueue

variable {C : Type}

/-! ### Payloads, attempts and outcomes -/

structure CqrsQueuedCommandPayload (C : Type) where
  kind : String
  command : CqrsCommand C
  idempotencyKey : Option String
  sourceRefs : List String
  policyRefs : List String
  actorRefs : List String
  auditRefs : List String
  metadata : Option String
  deriving DecidableEq

def CqrsQueuedCommandPayload.new (command : CqrsCommand C) : CqrsQueuedCommandPayload C :=
  { kind := "cqrs-queued-command"
    command
    idempotencyKey := none
    sourceRefs := []
    policyRefs := []
    actorRefs := []
    auditRefs := []
    metadata := none }

/-- A record of the queue, and a command for it. -/
abbrev QueueRecord (C : Type) := WorkQueueRecord (CqrsQueuedCommandPayload C)

abbrev QueueCommand (C : Type) := WorkQueueCommand (CqrsQueuedCommandPayload C)

structure CqrsWorkQueueAttempt (C : Type) where
  kind : String
  workId : String
  leaseId : String
  queueAttempt : Nat
  workerId : String
  command : CqrsCommand C
  payload : CqrsQueuedCommandPayload C
  sourceRefs : List String
  deriving DecidableEq

inductive CqrsWorkQueueOutcome (C : Type)
  | accepted (status : CqrsStatus)
  | rejected (status : CqrsStatus) (error : Option (CqrsError C))
  | release (reason : Option String)

structure CqrsWorkQueuePolicy where
  deterministicHandlerFailures : List CqrsErrorCode

def CqrsWorkQueuePolicy.default : CqrsWorkQueuePolicy := ⟨[]⟩

/-- Whether the queue may try again: a panic may be gone next time, unless the policy says that
    it will not. -/
def CqrsWorkQueuePolicy.retryableFailure (policy : CqrsWorkQueuePolicy) :
    Option CqrsErrorCode → Bool
  | some .handlerThrew => decide (.handlerThrew ∉ policy.deterministicHandlerFailures)
  | some .clockThrew => decide (.clockThrew ∉ policy.deterministicHandlerFailures)
  | none => true
  | some _ => false

/-- The options the node reads. Of the errors node only its presence matters. -/
structure CqrsWorkQueueRecipeOptions where
  errors : Bool
  workerId : Option String
  policy : CqrsWorkQueuePolicy

inductive CqrsQueueFact (C : Type)
  | attempt (attempt : CqrsWorkQueueAttempt C)
  | dispatch (command : CqrsCommand C)
  | command (command : QueueCommand C)
  | issue (issue : DataIssue)

structure CqrsQueueState (C : Type) where
  payloads : SortedMap String (CqrsQueuedCommandPayload C)
  activeClaims : SortedMap String (List (CqrsWorkQueueAttempt C))
  errors : SortedMap String (CqrsError C)
  terminalClaims : Finset String

def CqrsQueueState.default : CqrsQueueState C :=
  { payloads := .empty
    activeClaims := .empty
    errors := .empty
    terminalClaims := ∅ }

/-- A state with the facts emitted on the way to it. -/
abbrev Reduced (C : Type) : Type := CqrsQueueState C × List (CqrsQueueFact C)

/-! ### Dispositions -/

/-- The variant's name, as it is printed. -/
def codeName : CqrsErrorCode → String
  | .malformedCommand => "MalformedCommand"
  | .duplicateCommand => "DuplicateCommand"
  | .unknownCommand => "UnknownCommand"
  | .handlerThrew => "HandlerThrew"
  | .clockThrew => "ClockThrew"
  | .malformedEvent => "MalformedEvent"
  | .unknownEvent => "UnknownEvent"
  | .duplicateEvent => "DuplicateEvent"

def codeText : Option CqrsErrorCode → String
  | none => "None"
  | some code => s!"Some({codeName code})"

def errorMessage (code : Option CqrsErrorCode) (error : Option (CqrsError C)) : String :=
  (error.map (·.message)).getD s!"cqrs rejected with {codeText code}"

section

variable (attempt : CqrsWorkQueueAttempt C)

def dispositionCommandId (suffix : String) : String :=
  s!"cqrs:{attempt.workId}:{attempt.leaseId}:{attempt.queueAttempt}:{suffix}"

/-- The lease that an attempt works under. -/
def CqrsWorkQueueAttempt.lease : LeaseRef :=
  { leaseId := attempt.leaseId
    attempt := attempt.queueAttempt
    workerId := attempt.workerId }

def disposition (suffix : String)
    (body : CommandBody (CqrsQueuedCommandPayload C)) : QueueCommand C :=
  { commandId := dispositionCommandId attempt suffix
    queueId := none
    idempotencyKey := none
    body }

/-- What the outcome of an attempt makes of its claim. Only panics fail it; every other rejection
    is an answer. -/
def cqrsWorkQueueDispositionCommand
    (outcome : CqrsWorkQueueOutcome C) (policy : CqrsWorkQueuePolicy) : QueueCommand C :=
  match outcome with
  | .release reason =>
    disposition attempt "release" (.release attempt.workId attempt.lease reason)
  | .accepted status =>
    disposition attempt "complete"
      (.complete attempt.workId attempt.lease
        (some ("cqrs-accepted:command_id=" ++ status.commandId.getD "" ++ ";event_count=" ++
          toString status.eventCount)))
  | .rejected status error =>
    let code := status.errorCode
    if code = some .handlerThrew ∨ code = some .clockThrew ∨ code = none then
      disposition attempt "fail"
        (.fail attempt.workId attempt.lease (some (errorMessage code error))
          (some (policy.retryableFailure code)))
    else
      disposition attempt "complete"
        (.complete attempt.workId attempt.lease
          (some ("cqrs-rejected:command_id=" ++ status.commandId.getD "" ++ ";error_code=" ++
            codeText code ++ ";event_count=" ++ toString status.eventCount)))

end

/-! ### Records -/

section

variable (record : QueueRecord C)

def recordKind : String :=
  match record.body with
  | .workAdmitted .. => "work-admitted"
  | .admissionDeduped .. => "admission-deduped"
  | .workScheduled .. => "work-scheduled"
  | .workClaimed .. => "work-claimed"
  | .leaseRenewed .. => "lease-renewed"
  | .workReleased .. => "work-released"
  | .leaseExpired .. => "lease-expired"
  | .attemptCompleted .. => "attempt-completed"
  | .workCompleted .. => "work-completed"
  | .attemptFailed .. => "attempt-failed"
  | .retryScheduled .. => "retry-scheduled"
  | .workDeadLettered .. => "work-dead-lettered"
  | .workCanceled .. => "work-canceled"

def queueIssue (code : String) : DataIssue :=
  { kind := "issue"
    code
    message := s!"CQRS workQueue recipe could not map workQueue record '{recordKind record}'"
    severity := "error"
    source := "cqrs.workQueue"
    topic := none
    details := some s!"work_id={record.workId};record_seq={record.recordSeq}" }

/-- Keep some of the open claims. A command without one is forgotten. -/
def retainActiveClaims (s : CqrsQueueState C) (keep : CqrsWorkQueueAttempt C → Bool) :
    CqrsQueueState C :=
  { s with
    activeClaims := (s.activeClaims.map fun claims => claims.filter keep).retain
      fun _ claims => !claims.isEmpty }

/-- Whether a claim stays open under a record. -/
def claimStays (claim : CqrsWorkQueueAttempt C) : Bool :=
  match record.body with
  | .workReleased _ lease _ _ | .leaseExpired _ lease _ _ | .attemptFailed _ lease _ _ _
  | .attemptCompleted _ lease _ _ | .workCompleted _ lease _ _ =>
    decide (claim.workId ≠ record.workId ∨ claim.leaseId ≠ lease.leaseId ∨
      claim.queueAttempt ≠ lease.attempt ∨ claim.workerId ≠ lease.workerId)
  | .workDeadLettered .. => decide (claim.workId ≠ record.workId)
  | .workCanceled _ _ _ canceledLeaseId attempt =>
    decide (claim.workId ≠ record.workId) ||
      canceledLeaseId.any (fun leaseId => decide (claim.leaseId ≠ leaseId)) ||
      attempt.any fun attempt => decide (claim.queueAttempt ≠ attempt)
  | _ => true

def invalidateClaimsForRecord (s : CqrsQueueState C) (record : QueueRecord C) : CqrsQueueState C :=
  retainActiveClaims s (claimStays record)

/-- The attempt of a claim. -/
def attemptFact (lease : LeaseRef)
    (payload : CqrsQueuedCommandPayload C) : CqrsWorkQueueAttempt C :=
  { kind := "cqrs-work-queue-attempt"
    workId := record.workId
    leaseId := lease.leaseId
    queueAttempt := lease.attempt
    workerId := lease.workerId
    command := payload.command
    payload
    sourceRefs := [s!"work-queue-record:{record.recordSeq}"] }

/-- A claim put at the end of its command's line. -/
def pushClaim (s : CqrsQueueState C) (attempt : CqrsWorkQueueAttempt C) : CqrsQueueState C :=
  { s with
    activeClaims := s.activeClaims.insert attempt.command.id
      ((s.activeClaims.lookup attempt.command.id).getD [] ++ [attempt]) }

/-- A claim of a work that was never admitted is given back. -/
def releaseNoPayload (lease : LeaseRef) : QueueCommand C :=
  { commandId := s!"cqrs:{record.workId}:{lease.leaseId}:{lease.attempt}:release-no-payload"
    queueId := none
    idempotencyKey := none
    body := .release record.workId lease (some "cqrs-claim-without-payload") }

end

def reduceRecord (opts : CqrsWorkQueueRecipeOptions) (s : CqrsQueueState C)
    (record : QueueRecord C) : Reduced C :=
  match record.body with
  | .workAdmitted payload .. =>
    if payload.kind = "cqrs-queued-command" then
      ({ s with payloads := s.payloads.insert record.workId payload }, [])
    else (s, [.issue (queueIssue record "cqrs-queue-malformed-payload")])
  | .workClaimed _ lease _ _ =>
    if opts.workerId.any fun expected => decide (expected ≠ lease.workerId) then (s, [])
    else
      match s.payloads.lookup record.workId with
      | none =>
        (s, [.issue (queueIssue record "cqrs-claim-without-payload"),
          .command (releaseNoPayload record lease)])
      | some payload =>
        let attempt := attemptFact record lease payload
        (pushClaim s attempt, [.attempt attempt, .dispatch attempt.command])
  | _ => (invalidateClaimsForRecord s record, [])

/-! ### Statuses -/

/-- Take the first claim of a command's line. -/
def shiftActiveClaim (claims : SortedMap String (List (CqrsWorkQueueAttempt C)))
    (commandId : String) :
    Option (CqrsWorkQueueAttempt C × SortedMap String (List (CqrsWorkQueueAttempt C))) :=
  match claims.lookup commandId with
  | some (first :: rest) =>
    some (first, if rest.isEmpty then claims.erase commandId else claims.insert commandId rest)
  | _ => none

def claimKey (attempt : CqrsWorkQueueAttempt C) : String :=
  s!"{attempt.workId}:{attempt.leaseId}:{attempt.queueAttempt}"

def statusIssue (commandId code message : String) : DataIssue :=
  { kind := "issue"
    code
    message
    severity := "error"
    source := "cqrs.workQueue"
    topic := none
    details := some s!"cqrs-command:{commandId}" }

/-- What a status says about the attempt it answers. -/
def outcomeOf (s : CqrsQueueState C) (commandId : String) (status : CqrsStatus) :
    CqrsWorkQueueOutcome C :=
  if status.state = .accepted then .accepted status
  else .rejected status (s.errors.lookup commandId)

def reduceStatus (opts : CqrsWorkQueueRecipeOptions) (s : CqrsQueueState C) (status : CqrsStatus) :
    Reduced C :=
  match status.commandId with
  | none => (s, [])
  | some commandId =>
    match shiftActiveClaim s.activeClaims commandId with
    | none =>
      (s, [.issue (statusIssue commandId "cqrs-status-without-active-queue-claim"
        "CQRS workQueue recipe observed status without an active queue claim")])
    | some (attempt, claims) =>
      if claimKey attempt ∈ s.terminalClaims then
        ({ s with activeClaims := claims },
          [.issue (statusIssue commandId "cqrs-duplicate-terminal-outcome-for-queue-claim"
            s!"CQRS queue claim '{claimKey attempt}' already produced a terminal disposition")])
      else
        ({ s with
            activeClaims := claims
            terminalClaims := insert (claimKey attempt) s.terminalClaims },
          [.command (cqrsWorkQueueDispositionCommand attempt (outcomeOf s commandId status)
            opts.policy)])

def noteError (s : CqrsQueueState C) (error : CqrsError C) : CqrsQueueState C :=
  match error.command with
  | none => s
  | some command => { s with errors := s.errors.insert command.id error }

/-! ### The node -/

/-- What arrives in one wave. -/
structure Arrivals (C : Type) where
  records : List (QueueRecord C)
  errors : List (CqrsError C)
  statuses : List CqrsStatus

/-- A step of the node for every item of a list, with all that is emitted. -/
def reduceAll {α : Type} (step : CqrsQueueState C → α → Reduced C) :
    CqrsQueueState C → List α → Reduced C
  | s, [] => (s, [])
  | s, item :: items =>
    ((reduceAll step (step s item).1 items).1,
      (step s item).2 ++ (reduceAll step (step s item).1 items).2)

/-- One run: the records, then the errors, then the statuses. -/
def runNode (opts : CqrsWorkQueueRecipeOptions) (s : CqrsQueueState C) (batch : Arrivals C) :
    Reduced C :=
  let recorded := reduceAll (reduceRecord opts) s batch.records
  let noted := if opts.errors then batch.errors.foldl noteError recorded.1 else recorded.1
  let answered := reduceAll (reduceStatus opts) noted batch.statuses
  (answered.1, recorded.2 ++ answered.2)

/-- The node with what has arrived since it last ran. Whether a stream has delivered something is
    kept for each of them. -/
structure RuntimeNode (C : Type) where
  state : CqrsQueueState C
  calledOnce : Bool
  hasRecords : Bool
  hasStatuses : Bool
  hasErrors : Bool
  waiting : Arrivals C

def RuntimeNode.new : RuntimeNode C :=
  { state := .default
    calledOnce := false
    hasRecords := false
    hasStatuses := false
    hasErrors := false
    waiting := ⟨[], [], []⟩ }

def RuntimeNode.receive (n : RuntimeNode C) (arrivals : Arrivals C) : RuntimeNode C :=
  { n with
    hasRecords := n.hasRecords || !arrivals.records.isEmpty
    hasStatuses := n.hasStatuses || !arrivals.statuses.isEmpty
    hasErrors := n.hasErrors || !arrivals.errors.isEmpty
    waiting :=
      { records := n.waiting.records ++ arrivals.records
        errors := n.waiting.errors ++ arrivals.errors
        statuses := n.waiting.statuses ++ arrivals.statuses } }

section

variable (opts : CqrsWorkQueueRecipeOptions)

/-- The first run waits for every stream. -/
def RuntimeNode.allDepsSettled (n : RuntimeNode C) : Bool :=
  n.hasRecords && n.hasStatuses && (!opts.errors || n.hasErrors)

/-- One wave, with the facts it emits. -/
def RuntimeNode.wave (n : RuntimeNode C)
    (arrivals : Arrivals C) : RuntimeNode C × List (CqrsQueueFact C) :=
  let n := n.receive arrivals
  if n.calledOnce || n.allDepsSettled opts then
    ({ n with
        state := (runNode opts n.state n.waiting).1
        calledOnce := true
        waiting := ⟨[], [], []⟩ },
      (runNode opts n.state n.waiting).2)
  else (n, [])

/-- The node after some waves, with all that it has emitted. -/
def afterWaves (waves : List (Arrivals C)) :
    RuntimeNode C × List (CqrsQueueFact C) :=
  waves.foldl (fun before arrivals =>
    ((before.1.wave opts arrivals).1, before.2 ++ (before.1.wave opts arrivals).2)) (.new, [])

end

end GraphRefly.Cqrs.Queue
