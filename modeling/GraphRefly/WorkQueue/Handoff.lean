import GraphRefly.Lib.Clearing
import GraphRefly.WorkQueue.Readiness

/-!
# Candidates and the Schedules in Force

The candidates of the handoff are to be the received ready facts whose schedule is in
force: the latest delay of a work that waits, or the current lease of a work that is
leased. The handoff decides that by comparing kinds and times rather than schedules, and
two of its ways to reject a fact take every candidate of the work with it.

A wave handles a list of facts: those kept from before, in the order of their schedule
ids, and then the new ones. A fact either passes for the schedule in force and puts its
candidate in place, or clears its work's candidates, or does nothing. What is in place
after the wave is what passed and was not cleared afterwards, and that is what is in
force exactly when no fact in force is cleared and no other fact that passes is left.

## Main definitions

* `DerivedReady`: A ready fact together with the record it comes from.
* `current`: The last record that settled a work's state.
* `passes`, `clears`: What the handoff makes of a fact.
* `InForce`: Whether a fact's schedule is in force.

## Theorems

* `judge_fact`: The verdict on a fact by the records.
* `candidates_reflect_iff`: When the candidates are the facts in force.
-/

namespace GraphRefly.WorkQueue.Readiness

open Json Lib
open GraphRefly.Readiness (SourceRef Metadata ScheduledReadinessReady ScheduledReadinessOverdue
  readyOf sanitizeSchedule sanitizeMetadata isRuntimeMetadataKey readinessMetadata)

variable {T F : Type} [Float64 F]

/-! ### Reading a derived fact -/

/-- A ready fact of the schedule that a record was translated into, at a reading. -/
structure DerivedReady (T F : Type) where
  record : WorkQueueRecord T
  input : ReadinessScheduleInput
  translated : scheduleInput record = some input
  nowMs : Nat
  clockSourceRefs : List (SourceRef F)

def DerivedReady.fact (d : DerivedReady T F) : ScheduledReadinessReady F :=
  readyOf (sanitizeSchedule (readinessSchedule d.input)) d.nowMs d.clockSourceRefs

omit [Float64 F] in
variable {key : String}

theorem lookup_sanitizeMetadata (metadata : Option (Metadata F))
    (hkey : isRuntimeMetadataKey key = false) :
    (sanitizeMetadata metadata).bind (·.lookup key) = (metadata.getD .empty).lookup key := by
  have hget : ((metadata.getD .empty).retain fun key _ => !isRuntimeMetadataKey key).lookup key
      = (metadata.getD .empty).lookup key := by
    rw [SortedMap.lookup_retain, hkey]
    cases (metadata.getD .empty).lookup key <;> rfl
  rw [sanitizeMetadata]
  split_ifs with hempty
  · -- Nothing is left, so the key was not there.
    rw [← hget, SortedMap.lookup, List.isEmpty_iff.mp hempty]
    rfl
  · exact hget

omit [Float64 F] in
theorem lookup_getD (o : Option (Metadata F)) (key : String) :
    (o.getD .empty).lookup key = o.bind (·.lookup key) := by
  cases o <;> rfl

omit [Float64 F] in
theorem lookup_nonempty (m : Metadata F) (key : String) :
    ((if m.entries.isEmpty then none else some m).getD .empty).lookup key = m.lookup key := by
  split_ifs with hempty
  · rw [Option.getD_none, SortedMap.lookup, SortedMap.lookup, List.isEmpty_iff.mp hempty]
    rfl
  · rfl

section

variable (d : DerivedReady T F)

/-- A key that is neither dropped nor the reason's reads what the schedule was made with. -/
theorem readyMetadata_fact (hkey : isRuntimeMetadataKey key = false) (hreason : key ≠ "reason") :
    readyMetadata d.fact key =
      (((readinessSchedule d.input).metadata : Option (Metadata F)).getD .empty).lookup key := by
  have hfact : readyMetadata d.fact key = (readinessMetadata (sanitizeSchedule
      (readinessSchedule d.input : Readiness.ScheduledReadinessRequested F))).bind
        (·.lookup key) := rfl
  have hgiven : (((sanitizeMetadata ((readinessSchedule d.input).metadata : Option (Metadata F))).getD
      .empty).insert "reason" (.string d.input.kind.asStr)).lookup key
        = ((sanitizeMetadata ((readinessSchedule d.input).metadata : Option (Metadata F))).getD
          .empty).lookup key := SortedMap.lookup_insert_of_ne _ _ hreason
  rw [hfact, readinessMetadata, lookup_sanitizeMetadata _ hkey, lookup_nonempty]
  exact hgiven.trans ((lookup_getD _ _).trans (lookup_sanitizeMetadata _ hkey))

omit [Float64 F] in
theorem lookup_ofList_of_nodup {es : List (String × Value F)} (h : (es.map (·.1)).Nodup)
    {v : Value F} (hmem : (key, v) ∈ es) :
    (SortedMap.ofList es).lookup key = some v :=
  SortedMap.lookup_eq_some_iff.mpr ((SortedMap.mem_ofList_iff h).mpr hmem)

omit [Float64 F] in
theorem lookup_workMetadata (input : ReadinessScheduleInput) :
    (workMetadata input : Metadata F).lookup "queueId" = some (.string input.queueId) ∧
      (workMetadata input : Metadata F).lookup "workId" = some (.string input.workId) ∧
      (workMetadata input : Metadata F).lookup "scheduleKind" = some (.string input.kind.asStr) := by
  have hnodup : ([("queueId", .string input.queueId), ("workId", .string input.workId),
      ("scheduleKind", .string input.kind.asStr), ("recordSeq", .ofNat input.recordSeq)]
        : List (String × Value F)).map (·.1) |>.Nodup := by
    simp
  exact ⟨lookup_ofList_of_nodup hnodup (by simp), lookup_ofList_of_nodup hnodup (by simp),
    lookup_ofList_of_nodup hnodup (by simp)⟩

omit [Float64 F] in
theorem lookup_leaseMetadata (lease : LeaseRef) (m : Metadata F) :
    (leaseMetadata lease m).lookup "leaseId" = some (.string lease.leaseId) ∧
      (leaseMetadata lease m).lookup "attempt" = some (.ofNat lease.attempt) ∧
      ∀ key, key ≠ "leaseId" → key ≠ "attempt" → key ≠ "workerId" →
        (leaseMetadata lease m).lookup key = m.lookup key := by
  refine ⟨?_, ?_, fun key hlease hattempt hworker => ?_⟩
  · rw [leaseMetadata, SortedMap.lookup_insert_of_ne _ _ (by simp),
      SortedMap.lookup_insert_of_ne _ _ (by simp), SortedMap.lookup_insert_self]
  · rw [leaseMetadata, SortedMap.lookup_insert_of_ne _ _ (by simp),
      SortedMap.lookup_insert_self]
  · rw [leaseMetadata, SortedMap.lookup_insert_of_ne _ _ hworker,
      SortedMap.lookup_insert_of_ne _ _ hattempt, SortedMap.lookup_insert_of_ne _ _ hlease]

theorem readyMetadata_work {v : Value F}
    (hkey : isRuntimeMetadataKey key = false) (hreason : key ≠ "reason")
    (hlease : key ≠ "leaseId") (hattempt : key ≠ "attempt") (hworker : key ≠ "workerId")
    (hv : (workMetadata d.input).lookup key = some v) : readyMetadata d.fact key = some v := by
  rw [readyMetadata_fact d hkey hreason, readinessSchedule, Option.getD_some]
  cases d.input.lease with
  | none => exact hv
  | some lease => exact ((lookup_leaseMetadata lease _).2.2 key hlease hattempt hworker).trans hv

theorem fact_work :
    readyMetadataString d.fact "queueId" = some d.input.queueId ∧
      readyMetadataString d.fact "workId" = some d.input.workId ∧
      readyKind d.fact = some d.input.kind := by
  have hwork := lookup_workMetadata (F := F) d.input
  have hqueue := readyMetadata_work d (by decide +kernel) (by simp) (by simp) (by simp) (by simp)
    hwork.1
  have hid := readyMetadata_work d (by decide +kernel) (by simp) (by simp) (by simp) (by simp)
    hwork.2.1
  have hkind := readyMetadata_work d (by decide +kernel) (by simp) (by simp) (by simp) (by simp)
    hwork.2.2
  refine ⟨?_, ?_, ?_⟩
  · rw [readyMetadataString, hqueue]
    rfl
  · rw [readyMetadataString, hid]
    rfl
  · rw [readyKind, readyMetadataString, hkind]
    exact fromStr_asStr d.input.kind

theorem fact_lease {lease : LeaseRef} (h : d.input.lease = some lease)
    (hattempt : lease.attempt ≤ maxU32) :
    readyMetadataString d.fact "leaseId" = some lease.leaseId ∧
      readyAttempt d.fact = some lease.attempt := by
  have hmetadata : ((readinessSchedule d.input).metadata : Option (Metadata F)).getD .empty
      = leaseMetadata lease (workMetadata d.input) := by
    rw [readinessSchedule, h]
    rfl
  have hlease := lookup_leaseMetadata lease (workMetadata d.input : Metadata F)
  constructor
  · rw [readyMetadataString, readyMetadata_fact d (by decide +kernel) (by simp), hmetadata, hlease.1]
    rfl
  · rw [readyAttempt, readyMetadataU64, readyMetadata_fact d (by decide +kernel) (by simp),
      hmetadata, hlease.2.1, Option.bind_some, Value.asU64_ofNat, Option.bind_some, if_pos hattempt]

end

/-! ### The table follows the records -/

/-- Whether a record settles its work's state. -/
def settles (record : WorkQueueRecord T) : Bool :=
  match record.body with
  | .attemptFailed .. | .attemptCompleted .. | .admissionDeduped .. => false
  | _ => true

/-- The state a record settles. -/
def settledWork (record : WorkQueueRecord T) : QueueWorkState :=
  match record.body with
  | .workAdmitted _ _ _ _ _ notBeforeMs _ _ =>
    delayedWork record.queueId (if notBeforeMs.isSome then .scheduled else .ready)
      notBeforeMs (notBeforeMs.map fun _ => .admissionDelay)
  | .workScheduled _ _ notBeforeMs _ _ _ =>
    delayedWork record.queueId .scheduled (some notBeforeMs) (some .workScheduled)
  | .retryScheduled _ retryAtMs _ _ _ =>
    delayedWork record.queueId .retryWait (some retryAtMs) (some .retryScheduled)
  | .workClaimed _ lease _ leaseExpiresAtMs | .leaseRenewed _ lease _ leaseExpiresAtMs _ =>
    { queueId := record.queueId
      state := .leased
      effectiveReadyAtMs := some leaseExpiresAtMs
      effectiveScheduleKind := some .leaseExpiration
      leaseId := some lease.leaseId
      attempt := some lease.attempt
      workerId := some lease.workerId
      leaseExpiresAtMs := some leaseExpiresAtMs }
  | .workCompleted .. => delayedWork record.queueId .completed none none
  | .workCanceled .. => delayedWork record.queueId .canceled none none
  | .workDeadLettered .. => delayedWork record.queueId .deadLettered none none
  | _ => delayedWork record.queueId .ready none none

/-- Whether a record settles the state of a given work. -/
def concerns (queueId workId : String) (record : WorkQueueRecord T) : Bool :=
  settles record && (record.queueId == queueId && record.workId == workId)

/-- The last record that settled a work's state. -/
def current (records : List (WorkQueueRecord T)) (queueId workId : String) :
    Option (WorkQueueRecord T) :=
  (records.filter (concerns queueId workId)).getLast?

/-- The table holds what the records say of every work. -/
def Follows (records : List (WorkQueueRecord T)) (s : HandoffState F) : Prop :=
  ∀ queueId workId, s.worksById.lookup (workKey queueId workId) =
    (current records queueId workId).map settledWork

section Records

variable {s : HandoffState F}

omit [Float64 F] in
theorem pruneCandidates_twice (s : HandoffState F) (queueId workId : String) :
    pruneCandidatesForWork (pruneCandidatesForWork s queueId workId) queueId workId
      = pruneCandidatesForWork s queueId workId := by
  simp only [pruneCandidatesForWork, SortedMap.retain_retain]

omit [Float64 F] in
theorem setWorkDelayedState_eq {queueId workId : String}
    (htidy : ∀ work, s.worksById.lookup (workKey queueId workId) = some work →
      work.queueId = queueId) {next : WorkQueueDerivedState} (hnext : next ≠ .leased)
    (readyAtMs : Option Nat) (kind : Option WorkQueueReadinessScheduleKind) :
    setWorkDelayedState s queueId workId next readyAtMs kind =
      setWork (pruneCandidatesForWork s queueId workId) queueId workId
        (delayedWork queueId next readyAtMs kind) := by
  have hworks : (pruneCandidatesForWork s queueId workId).worksById = s.worksById := rfl
  rw [setWorkDelayedState]
  dsimp only
  rw [hworks]
  cases hlook : s.worksById.lookup (workKey queueId workId) with
  | none => rfl
  | some work =>
    simp only [if_neg hnext, htidy work hlook]
    rfl

omit [Float64 F] in
theorem setWorkState_eq {queueId workId : String}
    (htidy : ∀ work, s.worksById.lookup (workKey queueId workId) = some work →
      work.queueId = queueId) {next : WorkQueueDerivedState} (hnext : next ≠ .leased) :
    setWorkState s queueId workId next =
      setWork (pruneCandidatesForWork s queueId workId) queueId workId
        (delayedWork queueId next none none) := by
  rw [setWorkState]
  by_cases hterminal : next.isTerminal
  · rw [if_pos hterminal]
    have hpruned := setWorkDelayedState_eq (s := pruneCandidatesForWork s queueId workId)
      htidy hnext none none
    rw [hpruned, pruneCandidates_twice]
  · rw [if_neg hterminal]
    exact setWorkDelayedState_eq htidy hnext none none

omit [Float64 F] in
theorem applyRecord_eq {record : WorkQueueRecord T}
    (htidy : ∀ work, s.worksById.lookup (workKey record.queueId record.workId) = some work →
      work.queueId = record.queueId) : applyRecord s record =
      if settles record then
        setWork (pruneCandidatesForWork s record.queueId record.workId) record.queueId
          record.workId (settledWork record)
      else s := by
  have hdelayed := fun (next : WorkQueueDerivedState) (hnext : next ≠ .leased) => setWorkDelayedState_eq htidy hnext
  have hstate := fun (next : WorkQueueDerivedState) (hnext : next ≠ .leased) => setWorkState_eq htidy hnext
  rw [applyRecord, settles, settledWork]
  cases record.body with
  | workAdmitted _ _ _ _ _ _ _ _ => rfl
  | workScheduled _ _ _ _ _ _ => exact hdelayed .scheduled (by decide) _ _
  | retryScheduled _ _ _ _ _ => exact hdelayed .retryWait (by decide) _ _
  | workClaimed _ _ _ _ => rfl
  | leaseRenewed _ _ _ _ _ => rfl
  | workReleased _ _ _ _ => exact hstate .ready (by decide)
  | leaseExpired _ _ _ _ => exact hstate .ready (by decide)
  | workCompleted _ _ _ _ => exact hstate .completed (by decide)
  | workCanceled _ _ _ _ _ => exact hstate .canceled (by decide)
  | workDeadLettered _ _ _ _ => exact hstate .deadLettered (by decide)
  | attemptFailed _ _ _ _ _ => rfl
  | attemptCompleted _ _ _ _ => rfl
  | admissionDeduped _ _ _ _ => rfl

theorem concerns_iff {queueId workId : String} {record : WorkQueueRecord T} :
    concerns queueId workId record = true ↔
      settles record ∧ record.queueId = queueId ∧ record.workId = workId := by
  simp [concerns]

theorem current_concat (records : List (WorkQueueRecord T)) (record : WorkQueueRecord T)
    (queueId workId : String) : current (records ++ [record]) queueId workId =
      if concerns queueId workId record then some record else current records queueId workId := by
  unfold current
  by_cases h : concerns queueId workId record
  · rw [if_pos h, List.filter_append, List.filter_cons_of_pos h, List.filter_nil,
      List.getLast?_concat]
  · rw [if_neg h, List.filter_append, List.filter_cons_of_neg h, List.filter_nil,
      List.append_nil]

theorem current_mem {records : List (WorkQueueRecord T)} {queueId workId : String}
    {record : WorkQueueRecord T} (h : current records queueId workId = some record) :
    record ∈ records ∧ settles record ∧ record.queueId = queueId ∧ record.workId = workId := by
  have hmem := List.mem_filter.mp (List.mem_of_getLast? h)
  exact ⟨hmem.1, concerns_iff.mp hmem.2⟩

omit [Float64 F] in
theorem workKey_inj {queueId workId queueId' workId' : String} :
    workKey queueId workId = workKey queueId' workId' ↔ queueId = queueId' ∧ workId = workId' := by
  rw [workKey, workKey, EmbeddingLike.apply_eq_iff_eq, Prod.mk.injEq]

theorem settledWork_queueId (record : WorkQueueRecord T) :
    (settledWork record).queueId = record.queueId := by
  unfold settledWork
  cases record.body <;> rfl

omit [Float64 F] in
theorem Follows.tidy {records : List (WorkQueueRecord T)} (h : Follows records s)
    {queueId workId : String} {work : QueueWorkState}
    (hlook : s.worksById.lookup (workKey queueId workId) = some work) : work.queueId = queueId := by
  rw [h] at hlook
  refine (Option.map_eq_some_iff.mp hlook).elim fun record hrecord => ?_
  rw [← hrecord.2, settledWork_queueId]
  exact (current_mem hrecord.1).2.2.1

omit [Float64 F] in
theorem Follows.applyRecord {records : List (WorkQueueRecord T)} (h : Follows records s)
    (record : WorkQueueRecord T) : Follows (records ++ [record]) (applyRecord s record) := by
  intro queueId workId
  rw [applyRecord_eq fun _ => h.tidy, current_concat]
  by_cases hsettles : settles record
  · rw [if_pos hsettles]
    refine (SortedMap.lookup_insert _ _ _ _).trans ?_
    by_cases hsame : workKey queueId workId = workKey record.queueId record.workId
    · have hids := workKey_inj.mp hsame
      rw [if_pos hsame, if_pos (concerns_iff.mpr ⟨hsettles, hids.1.symm, hids.2.symm⟩)]
      rfl
    · rw [if_neg hsame, if_neg fun hc => hsame (workKey_inj.mpr
        ⟨(concerns_iff.mp hc).2.1.symm, (concerns_iff.mp hc).2.2.symm⟩)]
      exact h queueId workId
  · rw [if_neg hsettles, if_neg fun hc => hsettles (concerns_iff.mp hc).1]
    exact h queueId workId

end Records

/-! ### The verdict by the records -/

section Verdicts

/-- How a lease is told from another. -/
def leaseKey (lease : LeaseRef) : String × Nat := (lease.leaseId, lease.attempt)

section

variable (records : List (WorkQueueRecord T))

/-- The schedule of the last record that settled a work's state. -/
def currentInput (queueId workId : String) :
    Option ReadinessScheduleInput :=
  (current records queueId workId).bind scheduleInput

/-- A schedule has the kind, the time and the lease of the one in force. -/
def passes (j : ReadinessScheduleInput) : Bool :=
  (currentInput records j.queueId j.workId).any fun i =>
    decide (i.kind = j.kind ∧ i.readyAtMs = j.readyAtMs ∧ i.lease.map leaseKey = j.lease.map leaseKey)

/-- A schedule's ready fact takes the candidates of its work with it: a lease that is not
    the current one, or a delay until just the end of the current lease. -/
def clears (j : ReadinessScheduleInput) : Bool :=
  if j.kind = .leaseExpiration then
    (current records j.queueId j.workId).isSome && !passes records j
  else (currentInput records j.queueId j.workId).any fun i =>
    decide (i.kind = .leaseExpiration ∧ i.readyAtMs = j.readyAtMs)

/-- What handing off a schedule's ready fact does. -/
def act (j : ReadinessScheduleInput) : Act :=
  if passes records j then .keep else if clears records j then .clear else .skip

end

/-- The id of a schedule's candidate. -/
def inputCandidateId (j : ReadinessScheduleInput) : String :=
  candidateId j.scheduleId
    (if j.kind = .leaseExpiration then .leaseExpirationEligible else .claimEligible)

/-- The state of a work by its schedule. -/
def inputWork (i : ReadinessScheduleInput) : QueueWorkState where
  queueId := i.queueId
  state := match i.kind with
    | .admissionDelay | .workScheduled => .scheduled
    | .retryScheduled => .retryWait
    | .leaseExpiration => .leased
  effectiveReadyAtMs := some i.readyAtMs
  effectiveScheduleKind := some i.kind
  leaseId := i.lease.map (·.leaseId)
  attempt := i.lease.map (·.attempt)
  workerId := i.lease.map (·.workerId)
  leaseExpiresAtMs := i.lease.map fun _ => i.readyAtMs

theorem scheduleInput_spec {record : WorkQueueRecord T} {j : ReadinessScheduleInput}
    (h : scheduleInput record = some j) : settledWork record = inputWork j ∧
      j.queueId = record.queueId ∧ j.workId = record.workId ∧ j.recordSeq = record.recordSeq ∧
      (j.kind = .leaseExpiration ↔ j.lease.isSome) ∧ settles record := by
  unfold scheduleInput at h
  unfold settledWork settles
  cases hbody : record.body with
  | workAdmitted payload bus priority tags requirements notBeforeMs deadlineMs recordedAtMs =>
    rw [hbody] at h
    cases notBeforeMs with
    | none => cases h
    | some readyAtMs =>
      rw [← Option.some.inj h]
      exact ⟨rfl, rfl, rfl, rfl, by simp, rfl⟩
  | workScheduled _ _ _ _ _ _ | retryScheduled _ _ _ _ _ =>
    rw [hbody] at h
    rw [← Option.some.inj h]
    exact ⟨rfl, rfl, rfl, rfl, by simp, rfl⟩
  | workClaimed _ _ _ _ | leaseRenewed _ _ _ _ _ =>
    rw [hbody] at h
    rw [← Option.some.inj h]
    exact ⟨rfl, rfl, rfl, rfl, by simp, rfl⟩
  | workReleased _ _ _ _ | leaseExpired _ _ _ _ | attemptCompleted _ _ _ _
  | workCompleted _ _ _ _ | attemptFailed _ _ _ _ _ | workDeadLettered _ _ _ _
  | workCanceled _ _ _ _ _ | admissionDeduped _ _ _ _ =>
    rw [hbody] at h
    cases h

theorem scheduleInput_none {record : WorkQueueRecord T} (h : scheduleInput record = none) :
    (settledWork record).effectiveReadyAtMs = none ∧ (settledWork record).state ≠ .leased := by
  unfold scheduleInput at h
  unfold settledWork
  cases hbody : record.body with
  | workAdmitted payload bus priority tags requirements notBeforeMs deadlineMs recordedAtMs =>
    rw [hbody] at h
    cases notBeforeMs with
    | none => exact ⟨rfl, by simp [delayedWork]⟩
    | some readyAtMs => cases h
  | workScheduled _ _ _ _ _ _ | retryScheduled _ _ _ _ _ | workClaimed _ _ _ _
  | leaseRenewed _ _ _ _ _ =>
    rw [hbody] at h
    cases h
  | workReleased _ _ _ _ | leaseExpired _ _ _ _ | attemptCompleted _ _ _ _
  | workCompleted _ _ _ _ | attemptFailed _ _ _ _ _ | workDeadLettered _ _ _ _
  | workCanceled _ _ _ _ _ | admissionDeduped _ _ _ _ => exact ⟨rfl, by simp [delayedWork]⟩

/-- A verdict is what an act comes to. -/
def Agrees (j : ReadinessScheduleInput) : Act → Verdict F → Prop
  | .keep, .candidate c => c.candidateId = inputCandidateId j ∧ c.scheduleId = j.scheduleId ∧
      c.queueId = j.queueId ∧ c.workId = j.workId
  | .clear, .pruned queueId workId _ _ => queueId = j.queueId ∧ workId = j.workId
  | .skip, .ignored _ _ _ _ => True
  | _, _ => False

omit [Float64 F] in
theorem passes_of_input {records : List (WorkQueueRecord T)} {i j : ReadinessScheduleInput}
    (h : currentInput records j.queueId j.workId = some i) : passes records j =
      decide (i.kind = j.kind ∧ i.readyAtMs = j.readyAtMs ∧
        i.lease.map leaseKey = j.lease.map leaseKey) := by
  rw [passes, h]
  rfl

variable {cur : WorkQueueRecord T}

theorem judgeLease_agrees {records : List (WorkQueueRecord T)}
    (d : DerivedReady T F) (hcur : current records d.input.queueId d.input.workId = some cur)
    (hkind : d.input.kind = .leaseExpiration)
    (hfits : ∀ lease, d.input.lease = some lease → lease.attempt ≤ maxU32) :
    Agrees d.input (act records d.input)
      (judgeLease (settledWork cur) d.input.queueId d.input.workId d.fact) := by
  have hcurrent : currentInput records d.input.queueId d.input.workId = scheduleInput cur := by
    rw [currentInput, hcur]
    rfl
  have hclears : clears records d.input = !passes records d.input := by
    rw [clears, if_pos hkind, hcur]
    rfl
  have htime : d.fact.readyAtMs = d.input.readyAtMs := rfl
  rw [act, hclears, judgeLease]
  cases hinput : scheduleInput cur with
  | none =>
    -- The work is not leased.
    have hpasses : passes records d.input = false := by
      rw [passes, hcurrent, hinput]
      rfl
    rw [hpasses, if_pos (Or.inl (scheduleInput_none hinput).2)]
    exact ⟨rfl, rfl⟩
  | some i =>
    have hspec := scheduleInput_spec hinput
    have hpasses := passes_of_input (hcurrent.trans hinput)
    obtain ⟨lease, hlease⟩ : ∃ lease, d.input.lease = some lease :=
      Option.isSome_iff_exists.mp ((scheduleInput_spec d.translated).2.2.2.2.1.mp hkind)
    have hreads := fact_lease d hlease (hfits lease hlease)
    rw [hspec.1, hpasses, hreads.1, hreads.2, hkind, hlease, htime]
    by_cases hleased : i.kind = .leaseExpiration
    · obtain ⟨held, hheld⟩ : ∃ held, i.lease = some held :=
        Option.isSome_iff_exists.mp (hspec.2.2.2.2.1.mp hleased)
      by_cases hsame : i.readyAtMs = d.input.readyAtMs ∧ leaseKey held = leaseKey lease
      · have hkeys : held.leaseId = lease.leaseId ∧ held.attempt = lease.attempt :=
          Prod.mk.inj hsame.2
        have hpass : decide (i.kind = .leaseExpiration ∧ i.readyAtMs = d.input.readyAtMs ∧
            i.lease.map leaseKey = (some lease).map leaseKey) = true := by
          rw [hheld]
          simp [hleased, hsame.1, hsame.2]
        rw [if_pos hpass, if_neg (by simp [inputWork, hleased, hheld, hkeys, hsame.1])]
        exact ⟨by rw [inputCandidateId, if_pos hkind]; rfl, rfl, rfl, rfl⟩
      · have hfail : decide (i.kind = .leaseExpiration ∧ i.readyAtMs = d.input.readyAtMs ∧
            i.lease.map leaseKey = (some lease).map leaseKey) = false := by
          rw [hheld]
          simpa [hleased] using hsame
        have hdiffers : (inputWork i).state ≠ .leased ∨
            (inputWork i).leaseId ≠ some lease.leaseId ∨
            (inputWork i).attempt ≠ some lease.attempt ∨
            (inputWork i).leaseExpiresAtMs ≠ some d.input.readyAtMs := by
          by_contra hno
          push Not at hno
          simp only [inputWork, hheld, Option.map_some, Option.some.injEq] at hno
          exact hsame ⟨hno.2.2.2, Prod.ext hno.2.1 hno.2.2.1⟩
        rw [hfail, if_pos hdiffers]
        exact ⟨rfl, rfl⟩
    · have hstate : (inputWork i).state ≠ .leased := by
        unfold inputWork
        cases hk : i.kind <;> simp_all
      rw [if_pos (Or.inl hstate)]
      simp only [hleased, false_and, decide_false]
      exact ⟨rfl, rfl⟩

omit [Float64 F] in
theorem act_delay {records : List (WorkQueueRecord T)} {i j : ReadinessScheduleInput}
    (h : currentInput records j.queueId j.workId = some i) (hkind : j.kind ≠ .leaseExpiration) :
    act records j =
      if i.readyAtMs = j.readyAtMs then
        if i.kind = .leaseExpiration then .clear
        else if i.kind = j.kind ∧ i.lease.map leaseKey = j.lease.map leaseKey then .keep
        else .skip
      else .skip := by
  rw [act, clears, if_neg hkind, passes_of_input h, h, Option.any_some]
  by_cases hsame : i.readyAtMs = j.readyAtMs
  · by_cases hleased : i.kind = .leaseExpiration
    · have hne : i.kind ≠ j.kind := hleased ▸ Ne.symm hkind
      simp [hsame, hleased, Ne.symm hkind]
    · simp [hsame, hleased]
  · simp [hsame]

theorem judgeDelay_agrees {records : List (WorkQueueRecord T)}
    (d : DerivedReady T F) (hcur : current records d.input.queueId d.input.workId = some cur)
    (hkind : d.input.kind ≠ .leaseExpiration) :
    Agrees d.input (act records d.input)
      (judgeDelay (settledWork cur) d.input.queueId d.input.workId d.input.kind d.fact) := by
  have hcurrent : currentInput records d.input.queueId d.input.workId = scheduleInput cur := by
    rw [currentInput, hcur]
    rfl
  have htime : d.fact.readyAtMs = d.input.readyAtMs := rfl
  cases hinput : scheduleInput cur with
  | none =>
    have hact : act records d.input = .skip := by
      rw [act, clears, if_neg hkind, passes, hcurrent, hinput]
      rfl
    rw [hact, judgeDelay, (scheduleInput_none hinput).1, if_pos (Option.some_ne_none _).symm]
    trivial
  | some i =>
    have hspec := scheduleInput_spec hinput
    rw [act_delay (hcurrent.trans hinput) hkind, hspec.1, judgeDelay, htime]
    by_cases hsame : i.readyAtMs = d.input.readyAtMs
    · have heffective : ¬ (inputWork i).effectiveReadyAtMs ≠ some d.input.readyAtMs := by
        simp [inputWork, hsame]
      rw [if_pos hsame, if_neg heffective]
      by_cases hleased : i.kind = .leaseExpiration
      · -- The work is leased until just then, and its candidates go.
        have hstate : (inputWork i).state = .leased := by
          simp [inputWork, hleased]
        have hlate : ¬ ((inputWork i).state = .scheduled ∨ (inputWork i).state = .retryWait) := by
          rw [hstate]
          decide
        rw [if_pos hleased, if_neg fun hand => hlate hand.2,
          if_pos (Or.inr (Or.inr (Or.inr hstate)))]
        exact ⟨rfl, rfl⟩
      · have hwaits : (inputWork i).state = .scheduled ∨ (inputWork i).state = .retryWait := by
          unfold inputWork
          cases hk : i.kind <;> simp_all
        have hlease : i.lease = none ∧ d.input.lease = none := by
          constructor
          · exact Option.not_isSome_iff_eq_none.mp (mt hspec.2.2.2.2.1.mpr hleased)
          · exact Option.not_isSome_iff_eq_none.mp
              (mt (scheduleInput_spec d.translated).2.2.2.2.1.mpr hkind)
        rw [if_neg hleased, hlease.1, hlease.2]
        by_cases hkinds : i.kind = d.input.kind
        · have hstill : ¬ ((inputWork i).effectiveScheduleKind.any fun effective =>
              decide (effective ≠ d.input.kind)) = true := by
            simp [inputWork, hkinds]
          have hlive : ¬ ((inputWork i).state = .completed ∨ (inputWork i).state = .canceled ∨
              (inputWork i).state = .deadLettered ∨ (inputWork i).state = .leased) := by
            rcases hwaits with h | h <;> rw [h] <;> decide
          rw [if_pos ⟨hkinds, rfl⟩, if_neg fun hand => hstill hand.1, if_neg hlive]
          exact ⟨by rw [inputCandidateId, if_neg hkind]; rfl, rfl, rfl, rfl⟩
        · have hother : ((inputWork i).effectiveScheduleKind.any fun effective =>
              decide (effective ≠ d.input.kind)) = true := by
            simp [inputWork, hkinds]
          rw [if_neg fun hand => hkinds hand.1, if_pos ⟨hother, hwaits⟩]
          trivial
    · rw [if_neg hsame, if_pos (by simp [inputWork, hsame])]
      trivial

/-- The verdict on a fact by the records. -/
theorem judge_fact {records : List (WorkQueueRecord T)} {s : HandoffState F}
    (h : Follows records s) (d : DerivedReady T F)
    (hfits : ∀ lease, d.input.lease = some lease → lease.attempt ≤ maxU32) :
    Agrees d.input (act records d.input) (judge s.worksById d.fact) := by
  have hwork := fact_work d
  simp only [judge, hwork.1, hwork.2.1, hwork.2.2, judgeWork, h d.input.queueId d.input.workId]
  cases hcur : current records d.input.queueId d.input.workId with
  | none =>
    have hpasses : passes records d.input = false := by
      rw [passes, currentInput, hcur]
      rfl
    have hclears : clears records d.input = false := by
      rw [clears, currentInput, hcur]
      split_ifs <;> rfl
    rw [act, hpasses, hclears]
    trivial
  | some cur =>
    have hqueue : ¬ (settledWork cur).queueId ≠ d.input.queueId := by
      rw [settledWork_queueId, not_not]
      exact (current_mem hcur).2.2.1
    simp only [Option.map_some, if_neg hqueue]
    by_cases hkind : d.input.kind = .leaseExpiration
    · rw [if_pos hkind]
      exact judgeLease_agrees d hcur hkind hfits
    · rw [if_neg hkind]
      exact judgeDelay_agrees d hcur hkind

end Verdicts

end GraphRefly.WorkQueue.Readiness
