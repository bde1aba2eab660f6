import GraphRefly.Readiness.Schedule

/-!
# The Readiness Projector

Schedules and clock readings arrive in waves. A wave retains what it brings, the
schedules before the readings, and then evaluates every schedule it knows against
the latest reading. What a schedule has become is announced once, under a key that
is remembered for the rest of the run.

The first schedule received under an id stands, and a reading below the latest one
is ignored.

## Main definitions

* `ScheduledReadinessFact`: What is announced.
* `emitPending`, `emitReady`, `emitOverdue`, `emitStatus`, `emitIssue`: Announcing once.
* `retainSchedule`, `retainClock`, `evaluateSchedules`: What a wave does.
* `Runtime.wave`, `after`: One wave and a run of them.

## Theorems

* `evaluateSchedule_touches`: Evaluating a schedule retains nothing new and places it.
-/

namespace GraphRefly.Readiness

open Json Lib
open Messaging (DataIssue)

variable {F : Type} [Float64 F]

/-! ### The facts -/

structure ScheduledReadinessPending (F : Type) where
  scheduleId : String
  subjectRefs : List (SourceRef F)
  readyAtMs : Nat
  deadlineMs : Option Nat
  nowMs : Option Nat
  sourceRefs : List (SourceRef F)
  metadata : Option (Metadata F)

structure ScheduledReadinessOverdue (F : Type) where
  scheduleId : String
  subjectRefs : List (SourceRef F)
  readyAtMs : Nat
  deadlineMs : Nat
  nowMs : Nat
  sourceRefs : List (SourceRef F)
  metadata : Option (Metadata F)

inductive ScheduledReadinessStatusState
  | pending
  | ready
  | overdue
  | issue
  deriving DecidableEq

structure ScheduledReadinessStatus (F : Type) where
  statusId : String
  scheduleId : String
  state : ScheduledReadinessStatusState
  subjectRefs : List (SourceRef F)
  readyAtMs : Option Nat
  deadlineMs : Option Nat
  nowMs : Option Nat
  sourceRefs : List (SourceRef F)
  issueCodes : List String
  metadata : Option (Metadata F)

structure ScheduledReadinessAuditRecord (F : Type) where
  id : String
  kind : String
  subjectId : Option String
  sourceRefs : List (SourceRef F)
  metadata : Option (Metadata F)

structure ScheduledReadinessViews (F : Type) where
  schedulesById : SortedMap String (ScheduledReadinessRequested F)
  pendingById : SortedMap String (ScheduledReadinessPending F)
  readyById : SortedMap String (ScheduledReadinessReady F)
  overdueById : SortedMap String (ScheduledReadinessOverdue F)
  statusById : SortedMap String (ScheduledReadinessStatus F)
  nowMs : Option Nat

inductive ScheduledReadinessFact (F : Type)
  | pending (value : ScheduledReadinessPending F)
  | ready (value : ScheduledReadinessReady F)
  | overdue (value : ScheduledReadinessOverdue F)
  | status (value : ScheduledReadinessStatus F)
  | issue (value : DataIssue)
  | audit (value : ScheduledReadinessAuditRecord F)
  | views (value : ScheduledReadinessViews F)

/-! ### The state -/

/-- What the projector keeps between waves. The two sets of keys are lists in the
    order the keys were first seen. -/
structure ScheduledReadinessState (F : Type) where
  schedules : SortedMap String (ScheduledReadinessRequested F)
  pendingById : SortedMap String (ScheduledReadinessPending F)
  readyById : SortedMap String (ScheduledReadinessReady F)
  overdueById : SortedMap String (ScheduledReadinessOverdue F)
  statusById : SortedMap String (ScheduledReadinessStatus F)
  emittedKeys : List String
  issueKeys : List String
  auditSeq : Nat
  nowMs : Option Nat
  clockSourceRefs : List (SourceRef F)

def ScheduledReadinessState.default : ScheduledReadinessState F where
  schedules := .empty
  pendingById := .empty
  readyById := .empty
  overdueById := .empty
  statusById := .empty
  emittedKeys := []
  issueKeys := []
  auditSeq := 0
  nowMs := none
  clockSourceRefs := []

/-- The debug texts that stand in for a canonical text where there is none. -/
structure DebugTexts (F : Type) where
  schedule : ScheduledReadinessRequested F → String
  status : ScheduledReadinessStatus F → String

/-- The state together with every fact emitted so far. -/
structure Runtime (F : Type) where
  state : ScheduledReadinessState F
  facts : List (ScheduledReadinessFact F)

def ScheduledReadinessState.views (s : ScheduledReadinessState F) : ScheduledReadinessViews F where
  schedulesById := s.schedules
  pendingById := s.pendingById
  readyById := s.readyById
  overdueById := s.overdueById
  statusById := s.statusById
  nowMs := s.nowMs

/-! ### Emitting -/

section

variable (rt : Runtime F)

def emitFact (fact : ScheduledReadinessFact F) : Runtime F :=
  { rt with facts := rt.facts ++ [fact] }

/-- Remember that a key was emitted. -/
def Runtime.mark (key : String) : Runtime F :=
  { rt with state := { rt.state with emittedKeys := rt.state.emittedKeys ++ [key] } }

def emitAudit (kind : String) (subjectId : Option String)
    (sourceRefs : List (SourceRef F)) (metadata : Option (Metadata F)) : Runtime F :=
  let auditSeq := rt.state.auditSeq + 1
  emitFact { rt with state := { rt.state with auditSeq := auditSeq } } (.audit
    { id := compoundTupleKey "scheduled-readiness-audit" [toString auditSeq]
      kind := kind
      subjectId := subjectId
      sourceRefs := canonicalSourceRefs sourceRefs
      metadata := sanitizeMetadata metadata })

def pendingKey (id : String) : String := "pending:" ++ id

def readyKey (id : String) : String := "ready:" ++ id

def overdueKey (id : String) : String := "overdue:" ++ id

/-- Emit under a key that was not emitted before. -/
def emitOnce (key : String) (emit : Runtime F → Runtime F) : Runtime F :=
  if key ∈ rt.state.emittedKeys then rt else emit (rt.mark key)

def Runtime.putPending (pending : ScheduledReadinessPending F) : Runtime F :=
  { rt with state := { rt.state with
    pendingById := rt.state.pendingById.insert pending.scheduleId pending } }

def Runtime.putReady (ready : ScheduledReadinessReady F) : Runtime F :=
  { rt with state := { rt.state with
    readyById := rt.state.readyById.insert ready.scheduleId ready
    pendingById := rt.state.pendingById.erase ready.scheduleId } }

def Runtime.putOverdue (overdue : ScheduledReadinessOverdue F) : Runtime F :=
  { rt with state := { rt.state with
    overdueById := rt.state.overdueById.insert overdue.scheduleId overdue } }

def Runtime.putStatus (status : ScheduledReadinessStatus F) : Runtime F :=
  { rt with state := { rt.state with
    statusById := rt.state.statusById.insert status.scheduleId status } }

def emitPending (pending : ScheduledReadinessPending F) : Runtime F :=
  emitOnce (rt.putPending pending) (pendingKey pending.scheduleId) fun rt =>
    emitFact rt (.pending pending)

def readyAudit (ready : ScheduledReadinessReady F) : Metadata F :=
  .ofList [("nowMs", .ofNat ready.nowMs), ("readyAtMs", .ofNat ready.readyAtMs)]

def emitReady (ready : ScheduledReadinessReady F) : Runtime F :=
  emitOnce (rt.putReady ready) (readyKey ready.scheduleId) fun rt =>
    emitFact
      (emitAudit rt "scheduled-readiness-ready" (some ready.scheduleId) ready.sourceRefs
        (some (readyAudit ready)))
      (.ready ready)

def overdueAudit (overdue : ScheduledReadinessOverdue F) : Metadata F :=
  .ofList [("nowMs", .ofNat overdue.nowMs), ("readyAtMs", .ofNat overdue.readyAtMs),
    ("deadlineMs", .ofNat overdue.deadlineMs)]

def emitOverdue (overdue : ScheduledReadinessOverdue F) : Runtime F :=
  emitOnce (rt.putOverdue overdue) (overdueKey overdue.scheduleId) fun rt =>
    emitFact
      (emitAudit rt "scheduled-readiness-overdue" (some overdue.scheduleId) overdue.sourceRefs
        (some (overdueAudit overdue)))
      (.overdue overdue)

def ScheduledReadinessStatusState.debug : ScheduledReadinessStatusState → String
  | .pending => "Pending"
  | .ready => "Ready"
  | .overdue => "Overdue"
  | .issue => "Issue"

def statusJson (status : ScheduledReadinessStatus F) : Value F :=
  .object
    [("statusId", .string status.statusId),
      ("scheduleId", .string status.scheduleId),
      ("state", .string status.state.debug),
      ("readyAtMs", optionJson .ofNat status.readyAtMs),
      ("deadlineMs", optionJson .ofNat status.deadlineMs),
      ("nowMs", optionJson .ofNat status.nowMs),
      ("issueCodes", .ofStrings status.issueCodes)]

def statusIdentity (debug : DebugTexts F) (status : ScheduledReadinessStatus F) : String :=
  match stableJsonString (statusJson status) with
  | .ok text => text
  | .error _ => debug.status status

def statusKey (debug : DebugTexts F) (status : ScheduledReadinessStatus F) : String :=
  compoundTupleKey "status" [statusIdentity debug status]

def emitStatus (debug : DebugTexts F) (rt : Runtime F) (status : ScheduledReadinessStatus F) :
    Runtime F :=
  emitOnce (rt.putStatus status) (statusKey debug status) fun rt => emitFact rt (.status status)

def issueKey (issue : DataIssue) : String :=
  canonicalTupleKey [issue.source, issue.code, issue.details.getD ""]

def emitIssue (issue : DataIssue) : Runtime F :=
  if issueKey issue ∈ rt.state.issueKeys then rt
  else
    emitFact
      { rt with state := { rt.state with issueKeys := rt.state.issueKeys ++ [issueKey issue] } }
      (.issue issue)

end

/-! ### A wave -/

section

variable (schedule : ScheduledReadinessRequested F)

def scheduleSourceRefs (clockSourceRefs : List (SourceRef F)) : List (SourceRef F) :=
  canonicalSourceRefs (SourceRef.new "scheduled-readiness" schedule.scheduleId ::
    schedule.sourceRefs ++ schedule.policyRefs ++ clockSourceRefs)

def reasonMetadata (reason : String) (metadata : Metadata F) : Metadata F :=
  metadata.insert "reason" (.string reason)

def readinessMetadata : Option (Metadata F) :=
  let metadata := schedule.metadata.getD .empty
  let metadata := (schedule.reason.map fun reason => reasonMetadata reason metadata).getD metadata
  sanitizeMetadata (if metadata.entries.isEmpty then none else some metadata)

def ScheduledReadinessStatusState.name : ScheduledReadinessStatusState → String
  | .pending => "pending"
  | .ready => "ready"
  | .overdue => "overdue"
  | .issue => "issue"

def statusFor (state : ScheduledReadinessStatusState)
    (sourceRefs : List (SourceRef F)) (nowMs : Option Nat) : ScheduledReadinessStatus F where
  statusId := compoundTupleKey "scheduled-readiness-status" [schedule.scheduleId, state.name]
  scheduleId := schedule.scheduleId
  state := state
  subjectRefs := canonicalSourceRefs schedule.subjectRefs
  readyAtMs := some schedule.readyAtMs
  deadlineMs := schedule.deadlineMs
  nowMs := nowMs
  sourceRefs := sourceRefs
  issueCodes := []
  metadata := schedule.reason.map fun reason => reasonMetadata reason .empty

def conflictIssue (existing schedule : ScheduledReadinessRequested F) : DataIssue :=
  readinessIssue "scheduled-readiness-schedule-conflict"
    "Scheduled readiness scheduleId was replayed with conflicting material; first valid schedule retained."
    schedule.scheduleId
    (some s!"existingReadyAtMs={existing.readyAtMs}; incomingReadyAtMs={schedule.readyAtMs}")
    "error"

def conflictStatus (existing : ScheduledReadinessRequested F)
    (s : ScheduledReadinessState F) (scheduleId code : String) : ScheduledReadinessStatus F where
  statusId := s!"{scheduleId}:scheduled-readiness-status:issue"
  scheduleId := scheduleId
  state := .issue
  subjectRefs := existing.subjectRefs
  readyAtMs := some existing.readyAtMs
  deadlineMs := existing.deadlineMs
  nowMs := s.nowMs
  sourceRefs := scheduleSourceRefs existing s.clockSourceRefs
  issueCodes := [code]
  metadata := none

/-- Retain a schedule in its canonical form. -/
def retainCanonical (debug : DebugTexts F) (rt : Runtime F)
    (schedule : ScheduledReadinessRequested F) : Runtime F :=
  match rt.state.schedules.lookup schedule.scheduleId with
  | none =>
    { rt with state := { rt.state with
      schedules := rt.state.schedules.insert schedule.scheduleId schedule } }
  | some existing =>
    if scheduleIdentity debug.schedule existing = scheduleIdentity debug.schedule schedule then rt
    else
      emitStatus debug (emitIssue rt (conflictIssue existing schedule))
        (conflictStatus existing rt.state schedule.scheduleId
          (conflictIssue existing schedule).code)

def retainSchedule (debug : DebugTexts F) (rt : Runtime F)
    (schedule : ScheduledReadinessRequested F) : Runtime F :=
  retainCanonical debug rt (sanitizeSchedule schedule)

def rollbackIssue (clock : ScheduledReadinessClock F) (previous : Nat) : DataIssue :=
  readinessIssue "scheduled-readiness-clock-rollback"
    "Scheduled readiness clock facts must be monotonic; rollback was ignored."
    clock.clockId (some s!"nowMs={clock.nowMs}; previousNowMs={previous}") "warning"

def setClock (rt : Runtime F) (clock : ScheduledReadinessClock F) : Runtime F :=
  { rt with state := { rt.state with
    nowMs := some clock.nowMs
    clockSourceRefs := canonicalSourceRefs clock.sourceRefs } }

def retainClock (rt : Runtime F) (clock : ScheduledReadinessClock F) : Runtime F :=
  match rt.state.nowMs with
  | some previous =>
    if clock.nowMs < previous then emitIssue rt (rollbackIssue clock previous)
    else setClock rt clock
  | none => setClock rt clock

def pendingOf (nowMs : Option Nat)
    (clockSourceRefs : List (SourceRef F)) : ScheduledReadinessPending F where
  scheduleId := schedule.scheduleId
  subjectRefs := canonicalSourceRefs schedule.subjectRefs
  readyAtMs := schedule.readyAtMs
  deadlineMs := schedule.deadlineMs
  nowMs := nowMs
  sourceRefs := scheduleSourceRefs schedule clockSourceRefs
  metadata := readinessMetadata schedule

def readyOf (nowMs : Nat) (clockSourceRefs : List (SourceRef F)) : ScheduledReadinessReady F where
  scheduleId := schedule.scheduleId
  subjectRefs := canonicalSourceRefs schedule.subjectRefs
  readyAtMs := schedule.readyAtMs
  deadlineMs := schedule.deadlineMs
  nowMs := nowMs
  sourceRefs := scheduleSourceRefs schedule clockSourceRefs
  metadata := readinessMetadata schedule

def overdueOf (deadlineMs nowMs : Nat)
    (clockSourceRefs : List (SourceRef F)) : ScheduledReadinessOverdue F where
  scheduleId := schedule.scheduleId
  subjectRefs := canonicalSourceRefs schedule.subjectRefs
  readyAtMs := schedule.readyAtMs
  deadlineMs := deadlineMs
  nowMs := nowMs
  sourceRefs := scheduleSourceRefs schedule clockSourceRefs
  metadata := readinessMetadata schedule

end

section

variable (debug : DebugTexts F) (rt : Runtime F) (schedule : ScheduledReadinessRequested F)

def evaluatePending : Runtime F :=
  emitStatus debug (emitPending rt (pendingOf schedule rt.state.nowMs rt.state.clockSourceRefs))
    (statusFor schedule .pending (scheduleSourceRefs schedule rt.state.clockSourceRefs)
      rt.state.nowMs)

def evaluateReady (nowMs : Nat) : Runtime F :=
  emitStatus debug (emitReady rt (readyOf schedule nowMs rt.state.clockSourceRefs))
    (statusFor schedule .ready (scheduleSourceRefs schedule rt.state.clockSourceRefs) (some nowMs))

def evaluateOverdue (deadlineMs nowMs : Nat) : Runtime F :=
  emitStatus debug
    (emitOverdue rt (overdueOf schedule deadlineMs nowMs rt.state.clockSourceRefs))
    (statusFor schedule .overdue (scheduleSourceRefs schedule rt.state.clockSourceRefs)
      (some nowMs))

/-- One schedule against the latest reading. -/
def evaluateSchedule : Runtime F :=
  match rt.state.nowMs with
  | none => evaluatePending debug rt schedule
  | some nowMs =>
    if nowMs < schedule.readyAtMs then evaluatePending debug rt schedule
    else
      let rt := evaluateReady debug rt schedule nowMs
      match schedule.deadlineMs with
      | none => rt
      | some deadline =>
        if deadline < nowMs then evaluateOverdue debug rt schedule deadline nowMs else rt

end

def evaluateSchedules (debug : DebugTexts F) (rt : Runtime F) : Runtime F :=
  rt.state.schedules.values.foldl (evaluateSchedule debug) rt

/-- What a wave brings, from each of the schedule nodes and each of the clocks. -/
structure Wave (F : Type) where
  schedules : List (List (ScheduledReadinessRequested F))
  clocks : List (List (ScheduledReadinessClock F))

/-- Retain what a wave brings. -/
def Runtime.retain (debug : DebugTexts F) (rt : Runtime F) (w : Wave F) : Runtime F :=
  w.clocks.flatten.foldl retainClock (w.schedules.flatten.foldl (retainSchedule debug) rt)

def emitViews (rt : Runtime F) : Runtime F := emitFact rt (.views rt.state.views)

def Runtime.wave (debug : DebugTexts F) (rt : Runtime F) (w : Wave F) : Runtime F :=
  emitViews (evaluateSchedules debug (rt.retain debug w))

/-- The projector after a run of waves. -/
def after (debug : DebugTexts F) (waves : List (Wave F)) : Runtime F :=
  waves.foldl (Runtime.wave debug) ⟨.default, []⟩

/-! ### What each step touches -/

/-- What has been retained. -/
structure Inputs (F : Type) where
  schedules : SortedMap String (ScheduledReadinessRequested F)
  nowMs : Option Nat
  clockSourceRefs : List (SourceRef F)

/-- Where the schedules stand. -/
structure Standing (F : Type) where
  pendingById : SortedMap String (ScheduledReadinessPending F)
  readyById : SortedMap String (ScheduledReadinessReady F)
  overdueById : SortedMap String (ScheduledReadinessOverdue F)

def ScheduledReadinessState.inputs (s : ScheduledReadinessState F) : Inputs F :=
  ⟨s.schedules, s.nowMs, s.clockSourceRefs⟩

def ScheduledReadinessState.standing (s : ScheduledReadinessState F) : Standing F :=
  ⟨s.pendingById, s.readyById, s.overdueById⟩

omit [Float64 F] in
theorem emitOnce_state {α : Type} (f : ScheduledReadinessState F → α)
    (hmark : ∀ rt : Runtime F, ∀ key, f (rt.mark key).state = f rt.state)
    {emit : Runtime F → Runtime F} (hemit : ∀ rt, f (emit rt).state = f rt.state)
    (rt : Runtime F) (key : String) : f (emitOnce rt key emit).state = f rt.state := by
  unfold emitOnce
  split_ifs
  · rfl
  · rw [hemit, hmark]

section

variable (debug : DebugTexts F) (rt : Runtime F)

@[simp] theorem emitStatus_inputs (status : ScheduledReadinessStatus F) :
    (emitStatus debug rt status).state.inputs = rt.state.inputs := by
  unfold emitStatus
  exact emitOnce_state ScheduledReadinessState.inputs (fun _ _ => rfl) (by exact fun _ => rfl) _ _

@[simp] theorem emitStatus_standing (status : ScheduledReadinessStatus F) :
    (emitStatus debug rt status).state.standing = rt.state.standing := by
  unfold emitStatus
  exact emitOnce_state ScheduledReadinessState.standing (fun _ _ => rfl) (by exact fun _ => rfl) _ _

omit [Float64 F] in
@[simp] theorem emitIssue_inputs (rt : Runtime F) (issue : DataIssue) :
    (emitIssue rt issue).state.inputs = rt.state.inputs := by
  unfold emitIssue
  split_ifs <;> rfl

omit [Float64 F] in
@[simp] theorem emitIssue_standing (rt : Runtime F) (issue : DataIssue) :
    (emitIssue rt issue).state.standing = rt.state.standing := by
  unfold emitIssue
  split_ifs <;> rfl

omit [Float64 F] in
@[simp] theorem emitPending_inputs (rt : Runtime F) (pending : ScheduledReadinessPending F) :
    (emitPending rt pending).state.inputs = rt.state.inputs := by
  unfold emitPending
  exact emitOnce_state ScheduledReadinessState.inputs (fun _ _ => rfl) (by exact fun _ => rfl) _ _

@[simp] theorem emitReady_inputs (rt : Runtime F) (ready : ScheduledReadinessReady F) :
    (emitReady rt ready).state.inputs = rt.state.inputs := by
  unfold emitReady
  exact emitOnce_state ScheduledReadinessState.inputs (fun _ _ => rfl) (by exact fun _ => rfl) _ _

@[simp] theorem emitOverdue_inputs (rt : Runtime F) (overdue : ScheduledReadinessOverdue F) :
    (emitOverdue rt overdue).state.inputs = rt.state.inputs := by
  unfold emitOverdue
  exact emitOnce_state ScheduledReadinessState.inputs (fun _ _ => rfl) (by exact fun _ => rfl) _ _

omit [Float64 F] in
theorem emitPending_standing (rt : Runtime F) (pending : ScheduledReadinessPending F) :
    (emitPending rt pending).state.standing = (rt.putPending pending).state.standing := by
  unfold emitPending
  exact emitOnce_state ScheduledReadinessState.standing (fun _ _ => rfl) (by exact fun _ => rfl) _ _

theorem emitReady_standing (rt : Runtime F) (ready : ScheduledReadinessReady F) :
    (emitReady rt ready).state.standing = (rt.putReady ready).state.standing := by
  unfold emitReady
  exact emitOnce_state ScheduledReadinessState.standing (fun _ _ => rfl) (by exact fun _ => rfl) _ _

theorem emitOverdue_standing (rt : Runtime F) (overdue : ScheduledReadinessOverdue F) :
    (emitOverdue rt overdue).state.standing = (rt.putOverdue overdue).state.standing := by
  unfold emitOverdue
  exact emitOnce_state ScheduledReadinessState.standing (fun _ _ => rfl) (by exact fun _ => rfl) _ _

/-- A schedule that waits. -/
def Standing.hold (t : Standing F) (now : Inputs F) (schedule : ScheduledReadinessRequested F) :
    Standing F :=
  { t with
    pendingById := t.pendingById.insert schedule.scheduleId
      (pendingOf schedule now.nowMs now.clockSourceRefs) }

/-- A schedule whose moment has come. -/
def Standing.release (t : Standing F) (now : Inputs F)
    (schedule : ScheduledReadinessRequested F) (nowMs : Nat) : Standing F :=
  { t with
    readyById := t.readyById.insert schedule.scheduleId
      (readyOf schedule nowMs now.clockSourceRefs)
    pendingById := t.pendingById.erase schedule.scheduleId }

/-- A schedule whose deadline has passed. -/
def Standing.miss (t : Standing F) (now : Inputs F) (schedule : ScheduledReadinessRequested F)
    (deadlineMs nowMs : Nat) : Standing F :=
  { t with
    overdueById := t.overdueById.insert schedule.scheduleId
      (overdueOf schedule deadlineMs nowMs now.clockSourceRefs) }

/-- What evaluating a schedule does to the maps. -/
def Standing.place (now : Inputs F) (t : Standing F) (schedule : ScheduledReadinessRequested F) :
    Standing F :=
  match now.nowMs with
  | none => t.hold now schedule
  | some nowMs =>
    if nowMs < schedule.readyAtMs then t.hold now schedule
    else
      match schedule.deadlineMs with
      | none => t.release now schedule nowMs
      | some deadline =>
        if deadline < nowMs then (t.release now schedule nowMs).miss now schedule deadline nowMs
        else t.release now schedule nowMs

theorem evaluatePending_touches (schedule : ScheduledReadinessRequested F) :
    (evaluatePending debug rt schedule).state.inputs = rt.state.inputs ∧
      (evaluatePending debug rt schedule).state.standing
        = rt.state.standing.hold rt.state.inputs schedule := by
  rw [evaluatePending, emitStatus_inputs, emitStatus_standing, emitPending_inputs,
    emitPending_standing]
  exact ⟨rfl, rfl⟩

theorem evaluateReady_touches (schedule : ScheduledReadinessRequested F) (nowMs : Nat) :
    (evaluateReady debug rt schedule nowMs).state.inputs = rt.state.inputs ∧
      (evaluateReady debug rt schedule nowMs).state.standing
        = rt.state.standing.release rt.state.inputs schedule nowMs := by
  rw [evaluateReady, emitStatus_inputs, emitStatus_standing, emitReady_inputs,
    emitReady_standing]
  exact ⟨rfl, rfl⟩

theorem evaluateOverdue_touches
    (schedule : ScheduledReadinessRequested F) (deadlineMs nowMs : Nat) :
    (evaluateOverdue debug rt schedule deadlineMs nowMs).state.inputs = rt.state.inputs ∧
      (evaluateOverdue debug rt schedule deadlineMs nowMs).state.standing
        = rt.state.standing.miss rt.state.inputs schedule deadlineMs nowMs := by
  rw [evaluateOverdue, emitStatus_inputs, emitStatus_standing, emitOverdue_inputs,
    emitOverdue_standing]
  exact ⟨rfl, rfl⟩

/-- Evaluating a schedule retains nothing new and places it. -/
theorem evaluateSchedule_touches (schedule : ScheduledReadinessRequested F) :
    (evaluateSchedule debug rt schedule).state.inputs = rt.state.inputs ∧
      (evaluateSchedule debug rt schedule).state.standing
        = rt.state.standing.place rt.state.inputs schedule := by
  have hnow : rt.state.inputs.nowMs = rt.state.nowMs := rfl
  unfold evaluateSchedule Standing.place
  rw [hnow]
  cases rt.state.nowMs with
  | none => exact evaluatePending_touches debug rt schedule
  | some nowMs =>
    by_cases hdue : nowMs < schedule.readyAtMs
    · simp only [if_pos hdue]
      exact evaluatePending_touches debug rt schedule
    · simp only [if_neg hdue]
      have hready := evaluateReady_touches debug rt schedule nowMs
      cases schedule.deadlineMs with
      | none => exact hready
      | some deadline =>
        by_cases hlate : deadline < nowMs
        · simp only [if_pos hlate]
          have hover := evaluateOverdue_touches debug (evaluateReady debug rt schedule nowMs)
            schedule deadline nowMs
          rw [hready.1, hready.2] at hover
          exact hover
        · simp only [if_neg hlate]
          exact hready

end

theorem evaluateAll_touches (debug : DebugTexts F)
    (schedules : List (ScheduledReadinessRequested F)) (rt : Runtime F) :
    (schedules.foldl (evaluateSchedule debug) rt).state.inputs = rt.state.inputs ∧
      (schedules.foldl (evaluateSchedule debug) rt).state.standing
        = schedules.foldl (Standing.place rt.state.inputs) rt.state.standing := by
  induction schedules generalizing rt with
  | nil => exact ⟨rfl, rfl⟩
  | cons schedule schedules ih =>
    have hhead := evaluateSchedule_touches debug rt schedule
    have htail := ih (evaluateSchedule debug rt schedule)
    rw [hhead.1, hhead.2] at htail
    exact htail

end GraphRefly.Readiness
