import GraphRefly.WorkQueue.Handoff

/-!
# Which Candidates Are in Place

The candidates of the handoff as a set of schedules. Handing off a ready fact puts its
schedule into the set, takes its work's schedules out, or does nothing, by what the
records say; so after a wave the set is what passed and was not cleared afterwards.

The candidates are the received facts whose schedule is in force exactly when, among the
facts that pass for the schedule in force, those that are left are those in force. That
can fail in two ways. A fact of a lease that is over, or of a delay until just the end of
the current lease, clears its work's candidates, also when it comes after the fact in
force. And a fact of an earlier delay of the same kind and until the same time passes.

## Main definitions

* `QueueLog`: What is asked of a queue's records.
* `Reflects`: The candidates are the received facts in force.
* `Settled`: What passes is left exactly when it is in force.

## Theorems

* `handled_after`: The set of schedules after a wave.
* `candidates_reflect_iff`: When the candidates are the facts in force.
* `stale_lease_clears_retry`: A fact of a lease that is over takes a retry's candidate away.
-/

namespace GraphRefly.WorkQueue.Readiness

open List Json Lib
open GraphRefly.Readiness (SourceRef ScheduledReadinessReady ScheduledReadinessOverdue)

variable {T F : Type}

/-! ### Schedules and their ids -/

/-- What is asked of a queue's records: no two have one number, and attempts fit. -/
structure QueueLog (log : List (WorkQueueRecord T)) : Prop where
  seqs : (log.map (·.recordSeq)).Nodup
  attempts : ∀ record ∈ log, ∀ input ∈ scheduleInput record, ∀ lease ∈ input.lease,
    lease.attempt ≤ maxU32

/-- The schedules of a log. -/
def Schedules (log : List (WorkQueueRecord T)) : Set ReadinessScheduleInput :=
  {j | ∃ record ∈ log, scheduleInput record = some j}

def WorkQueueReadinessScheduleKind.letter : WorkQueueReadinessScheduleKind → Char
  | admissionDelay => 'a'
  | workScheduled => 's'
  | retryScheduled => 'r'
  | leaseExpiration => 'l'

def WorkQueueReadinessScheduleKind.label : WorkQueueReadinessScheduleKind → String
  | admissionDelay => "work-queue-admission-readiness"
  | workScheduled => "work-queue-scheduled-readiness"
  | retryScheduled => "work-queue-retry-readiness"
  | leaseExpiration => "work-queue-lease-readiness"

variable {j : ReadinessScheduleInput}

theorem scheduleId_shape {record : WorkQueueRecord T}
    (h : scheduleInput record = some j) : ∃ parts, j.scheduleId =
      compoundTupleKey j.kind.label (parts ++ [toString j.recordSeq]) := by
  unfold scheduleInput at h
  cases hbody : record.body with
  | workAdmitted payload bus priority tags requirements notBeforeMs deadlineMs recordedAtMs =>
    rw [hbody] at h
    cases notBeforeMs with
    | none => cases h
    | some readyAtMs =>
      rw [← Option.some.inj h]
      exact ⟨[_, _], rfl⟩
  | workScheduled _ _ _ _ _ _ | retryScheduled _ _ _ _ _ =>
    rw [hbody] at h
    rw [← Option.some.inj h]
    exact ⟨[_, _, _], rfl⟩
  | workClaimed _ _ _ _ | leaseRenewed _ _ _ _ _ =>
    rw [hbody] at h
    rw [← Option.some.inj h]
    exact ⟨[_, _, _, _], rfl⟩
  | workReleased _ _ _ _ | leaseExpired _ _ _ _ | attemptCompleted _ _ _ _
  | workCompleted _ _ _ _ | attemptFailed _ _ _ _ _ | workDeadLettered _ _ _ _
  | workCanceled _ _ _ _ _ | admissionDeduped _ _ _ _ =>
    rw [hbody] at h
    cases h

theorem letter_of_key (kind : WorkQueueReadinessScheduleKind) (parts : List String) :
    (compoundTupleKey kind.label parts).toList[11]? = some kind.letter := by
  cases kind <;>
    simp [compoundTupleKey, WorkQueueReadinessScheduleKind.label, String.toList_append,
      WorkQueueReadinessScheduleKind.letter]

variable {log : List (WorkQueueRecord T)}

theorem QueueLog.scheduleId_inj (h : QueueLog log)
    {i : ReadinessScheduleInput} (hi : i ∈ Schedules log) (hj : j ∈ Schedules log)
    (heq : i.scheduleId = j.scheduleId) : i = j := by
  obtain ⟨a, ha, hai⟩ := hi
  obtain ⟨b, hb, hbj⟩ := hj
  obtain ⟨p, hp⟩ := scheduleId_shape hai
  obtain ⟨q, hq⟩ := scheduleId_shape hbj
  have hletter : i.kind.letter = j.kind.letter := by
    have hi := letter_of_key i.kind (p ++ [toString i.recordSeq])
    have hj := letter_of_key j.kind (q ++ [toString j.recordSeq])
    rw [← hp, heq, hq, hj] at hi
    exact (Option.some.inj hi).symm
  have hkind : i.kind = j.kind := by
    revert hletter
    cases i.kind <;> cases j.kind <;> decide
  rw [hp, hq, hkind] at heq
  have hparts := compoundTupleKey_injective heq
  have hseq := toString_nat_injective (singleton_inj.mp (append_inj' hparts rfl).2)
  rw [(scheduleInput_spec hai).2.2.2.1, (scheduleInput_spec hbj).2.2.2.1] at hseq
  have hrecord : a = b := inj_on_of_nodup_map h.seqs ha hb hseq
  rw [hrecord, hbj] at hai
  exact (Option.some.inj hai).symm

theorem inputCandidateId_inj {i : ReadinessScheduleInput}
    (h : inputCandidateId i = inputCandidateId j) : i.scheduleId = j.scheduleId :=
  (List.cons.inj (compoundTupleKey_injective h)).1

/-! ### The candidates as a set of schedules -/

/-- The work a schedule is about. -/
def workOf (j : ReadinessScheduleInput) : String × String := (j.queueId, j.workId)

/-- A candidate is a schedule's. -/
structure IsCandidateOf (j : ReadinessScheduleInput) (c : WorkQueueReadinessCandidate F) :
    Prop where
  scheduleId : c.scheduleId = j.scheduleId
  queueId : c.queueId = j.queueId
  workId : c.workId = j.workId

/-- The candidates in place are those of a set of schedules. -/
structure Holds (m : SortedMap String (WorkQueueReadinessCandidate F))
    (A : Set ReadinessScheduleInput) : Prop where
  present : ∀ j ∈ A, ∃ c, m.lookup (inputCandidateId j) = some c ∧ IsCandidateOf j c
  known : ∀ id c, m.lookup id = some c → ∃ j ∈ A, id = inputCandidateId j ∧ IsCandidateOf j c

/-- Whether a schedule is not of a record's work, where the record settles one. -/
def Outlives (record : WorkQueueRecord T) (j : ReadinessScheduleInput) : Prop :=
  settles record → workOf j ≠ (record.queueId, record.workId)

variable {A : Set ReadinessScheduleInput}

theorem Holds.insert {m : SortedMap String (WorkQueueReadinessCandidate F)} (h : Holds m A)
    {c : WorkQueueReadinessCandidate F} (hc : IsCandidateOf j c)
    (hinj : ∀ i ∈ A, i.scheduleId = j.scheduleId → i = j) :
    Holds (m.insert (inputCandidateId j) c) (Insert.insert j A) := by
  constructor
  · intro i hi
    by_cases heq : inputCandidateId i = inputCandidateId j
    · rcases hi with rfl | hi
      · exact ⟨c, SortedMap.lookup_insert_self _ _ _, hc⟩
      · have hij := hinj i hi (inputCandidateId_inj heq)
        rw [hij]
        exact ⟨c, SortedMap.lookup_insert_self _ _ _, hc⟩
    · rcases hi with rfl | hi
      · exact absurd rfl heq
      · rw [SortedMap.lookup_insert_of_ne _ _ heq]
        exact h.present i hi
  · intro id d hlook
    rw [SortedMap.lookup_insert] at hlook
    by_cases hid : id = inputCandidateId j
    · rw [if_pos hid] at hlook
      rw [← Option.some.inj hlook]
      exact ⟨j, Or.inl rfl, hid, hc⟩
    · rw [if_neg hid] at hlook
      exact (h.known id d hlook).imp fun i hi => ⟨Or.inr hi.1, hi.2⟩

variable {s : HandoffState F}

theorem Holds.prune (h : Holds s.candidatesById A) (queueId workId : String) :
    Holds (pruneCandidatesForWork s queueId workId).candidatesById
      {i ∈ A | workOf i ≠ (queueId, workId)} := by
  have hkeeps : ∀ {j : ReadinessScheduleInput} {c : WorkQueueReadinessCandidate F},
      IsCandidateOf j c → ((c.queueId != queueId || c.workId != workId) = true ↔
        workOf j ≠ (queueId, workId)) := by
    intro j c hc
    rw [hc.queueId, hc.workId, workOf, ne_eq, Prod.mk.injEq, not_and_or]
    simp
  constructor
  · intro j hj
    refine (h.present j hj.1).imp fun c hc => ⟨?_, hc.2⟩
    refine (SortedMap.lookup_retain _ _ _).trans ?_
    rw [hc.1]
    exact Option.filter_some_pos ((hkeeps hc.2).mpr hj.2)
  · intro id c hlook
    have hfilter := Option.filter_eq_some_iff.mp ((SortedMap.lookup_retain _ _ _).symm.trans hlook)
    exact (h.known id c hfilter.1).imp fun j hj =>
      ⟨⟨hj.1, (hkeeps hj.2.2).mp hfilter.2⟩, hj.2⟩

variable {records : List (WorkQueueRecord T)}

theorem Holds.applyRecord (h : Holds s.candidatesById A)
    (hfollows : Follows records s) (record : WorkQueueRecord T) :
    Holds (applyRecord s record).candidatesById {j ∈ A | Outlives record j} := by
  rw [applyRecord_eq fun _ => hfollows.tidy]
  by_cases hsettles : settles record
  · rw [if_pos hsettles]
    have hset : {j ∈ A | Outlives record j} =
        {j ∈ A | workOf j ≠ (record.queueId, record.workId)} := by
      ext j
      exact and_congr_right fun _ => ⟨fun ho => ho hsettles, fun hne _ => hne⟩
    rw [hset]
    exact h.prune record.queueId record.workId
  · rw [if_neg hsettles]
    have hset : {j ∈ A | Outlives record j} = A := by
      ext j
      exact and_iff_left fun hs => absurd hs hsettles
    rw [hset]
    exact h

/-! ### Handing off -/

/-- What is kept beside the statuses and the keys. -/
def HandoffState.tables (s : HandoffState F) : SortedMap WorkKey QueueWorkState ×
    SortedMap String (ScheduledReadinessReady F) ×
    SortedMap String (WorkQueueReadinessCandidate F) :=
  (s.worksById, s.readyById, s.candidatesById)

theorem handoffOnce_tables {emit : Handoff F → Handoff F}
    (hemit : ∀ h, (emit h).state.tables = h.state.tables) (h : Handoff F) (key : String) :
    (handoffOnce h key emit).state.tables = h.state.tables := by
  unfold handoffOnce
  split_ifs
  · rfl
  · rw [hemit]
    rfl

section

variable (debug : WorkQueueReadinessStatus → String) (h : Handoff F)

theorem emitHandoffStatus_tables (status : WorkQueueReadinessStatus) :
    (emitHandoffStatus debug h status).state.tables = h.state.tables := by
  unfold emitHandoffStatus
  exact handoffOnce_tables (by exact fun _ => rfl) _ _

theorem emitHandoffIssue_tables (h : Handoff F) (scheduleId detail : String) :
    (emitHandoffIssue h scheduleId detail).state.tables = h.state.tables := by
  unfold emitHandoffIssue
  exact handoffOnce_tables (by exact fun _ => rfl) _ _

theorem emitCandidate_tables (candidate : WorkQueueReadinessCandidate F) :
    (emitCandidate debug h candidate).state.tables = (h.state.worksById, h.state.readyById,
      h.state.candidatesById.insert candidate.candidateId candidate) := by
  unfold emitCandidate
  refine handoffOnce_tables (fun r => ?_) _ _
  exact emitHandoffStatus_tables debug (emitHandoffFact r (.candidate candidate)) _

/-- What a verdict does to the candidates. -/
def Verdict.apply (v : Verdict F) (s : HandoffState F) :
    SortedMap String (WorkQueueReadinessCandidate F) :=
  match v with
  | .malformed _ => s.candidatesById
  | .ignored _ _ _ _ => s.candidatesById
  | .pruned queueId workId _ _ => (pruneCandidatesForWork s queueId workId).candidatesById
  | .candidate value => s.candidatesById.insert value.candidateId value

theorem handoffReadyInner_tables
    (ready : ScheduledReadinessReady F) : (handoffReadyInner debug h ready).state.tables =
      (h.state.worksById, h.state.readyById, (judge h.state.worksById ready).apply h.state) := by
  unfold handoffReadyInner
  cases judge h.state.worksById ready with
  | malformed detail => exact emitHandoffIssue_tables h _ _
  | ignored queueId workId kind detail => exact emitHandoffStatus_tables debug h _
  | pruned queueId workId kind detail => exact emitHandoffStatus_tables debug _ _
  | candidate value => exact emitCandidate_tables debug h value

end

variable [Float64 F]

/-- Attempts that fit, of one derived fact. -/
def DerivedReady.Fits (d : DerivedReady T F) : Prop :=
  ∀ lease, d.input.lease = some lease → lease.attempt ≤ maxU32

variable {d : DerivedReady T F}

theorem Holds.handoff {h : Handoff F} (hA : Holds h.state.candidatesById A)
    (hfollows : Follows records h.state) (debug : WorkQueueReadinessStatus → String)
    (hfits : d.Fits)
    (hinj : ∀ i ∈ A, i.scheduleId = d.input.scheduleId → i = d.input) :
    Holds (handoffReadyInner debug h d.fact).state.candidatesById
      (handle (act records) workOf A d.input) := by
  have hcandidates : (handoffReadyInner debug h d.fact).state.candidatesById
      = (judge h.state.worksById d.fact).apply h.state :=
    congrArg (fun t => t.2.2) (handoffReadyInner_tables debug h d.fact)
  have hagrees := judge_fact hfollows d hfits
  rw [hcandidates, handle]
  -- The act and the verdict are of one kind.
  cases hact : act records d.input with
  | keep =>
    rw [hact] at hagrees
    cases hverdict : judge h.state.worksById d.fact with
    | candidate c =>
      rw [hverdict] at hagrees
      have hid : (Verdict.candidate c).apply h.state
          = h.state.candidatesById.insert (inputCandidateId d.input) c := by
        rw [← hagrees.1]
        rfl
      rw [hid]
      exact hA.insert ⟨hagrees.2.1, hagrees.2.2.1, hagrees.2.2.2⟩ hinj
    | malformed _ | ignored _ _ _ _ | pruned _ _ _ _ =>
      rw [hverdict] at hagrees
      exact hagrees.elim
  | clear =>
    rw [hact] at hagrees
    cases hverdict : judge h.state.worksById d.fact with
    | pruned queueId workId kind detail =>
      rw [hverdict] at hagrees
      rw [hagrees.1, hagrees.2]
      exact hA.prune d.input.queueId d.input.workId
    | malformed _ | ignored _ _ _ _ | candidate _ =>
      rw [hverdict] at hagrees
      exact hagrees.elim
  | skip =>
    rw [hact] at hagrees
    cases hverdict : judge h.state.worksById d.fact with
    | ignored queueId workId kind detail => exact hA
    | malformed _ | pruned _ _ _ _ | candidate _ =>
      rw [hverdict] at hagrees
      exact hagrees.elim

theorem handle_subset {U : Set ReadinessScheduleInput} (hA : A ⊆ U) (hj : j ∈ U) :
    handle (act records) workOf A j ⊆ U := by
  unfold handle
  intro i hi
  cases hact : act records j with
  | keep =>
    rw [hact] at hi
    rcases hi with rfl | hi
    · exact hj
    · exact hA hi
  | clear =>
    rw [hact] at hi
    exact hA hi.1
  | skip =>
    rw [hact] at hi
    exact hA hi

section Loops

variable {log records : List (WorkQueueRecord T)} (hlog : QueueLog log)
  (debug : WorkQueueReadinessStatus → String)

/-- The facts of a list come from records of the log. -/
def Logged (log : List (WorkQueueRecord T)) (ds : List (DerivedReady T F)) : Prop :=
  ∀ d ∈ ds, d.record ∈ log

omit [Float64 F] in
variable {ds : List (DerivedReady T F)}

theorem Logged.input (h : Logged log ds) :
    ∀ d ∈ ds, d.input ∈ Schedules log :=
  fun d hd => ⟨d.record, h d hd, d.translated⟩

omit [Float64 F] in
include hlog in
theorem Logged.fits (h : Logged log ds) : ∀ d ∈ ds, d.Fits :=
  fun d hd => hlog.attempts d.record (h d hd) d.input d.translated

include hlog in
theorem handoff_again (hds : Logged log ds) {h : Handoff F} (hA : Holds h.state.candidatesById A)
    (hsub : A ⊆ Schedules log) (hfollows : Follows records h.state) :
    let after := (ds.map DerivedReady.fact).foldl (handoffReadyInner debug) h
    Holds after.state.candidatesById
        ((ds.map (·.input)).foldl (handle (act records) workOf) A) ∧
      (ds.map (·.input)).foldl (handle (act records) workOf) A ⊆ Schedules log ∧
      Follows records after.state ∧ after.state.readyById = h.state.readyById := by
  induction ds generalizing h A with
  | nil => exact ⟨hA, hsub, hfollows, rfl⟩
  | cons d ds ih =>
    have hd := hds d mem_cons_self
    have hinput := hds.input d mem_cons_self
    have htables := handoffReadyInner_tables debug h d.fact
    have hworks : (handoffReadyInner debug h d.fact).state.worksById = h.state.worksById :=
      congrArg (fun t => t.1) htables
    have hready : (handoffReadyInner debug h d.fact).state.readyById = h.state.readyById :=
      congrArg (fun t => t.2.1) htables
    have hstep := hA.handoff hfollows debug (hds.fits hlog d mem_cons_self)
      fun i hi heq => hlog.scheduleId_inj (hsub hi) hinput heq
    have hfollows' : Follows records (handoffReadyInner debug h d.fact).state := by
      intro queueId workId
      rw [hworks]
      exact hfollows queueId workId
    have hrest := ih (fun e he => hds e (mem_cons_of_mem d he)) hstep
      (handle_subset hsub hinput) hfollows'
    exact ⟨hrest.1, hrest.2.1, hrest.2.2.1, hrest.2.2.2.trans hready⟩

/-- A fact is kept under its schedule's id. -/
def keepDerived (held : SortedMap String (DerivedReady T F)) (d : DerivedReady T F) :
    SortedMap String (DerivedReady T F) :=
  held.insert d.input.scheduleId d

include hlog in
theorem handoff_brought (hds : Logged log ds) {h : Handoff F} (hA : Holds h.state.candidatesById A)
    (hsub : A ⊆ Schedules log) (hfollows : Follows records h.state)
    {held : SortedMap String (DerivedReady T F)}
    (hheld : h.state.readyById = held.map DerivedReady.fact) :
    let after := (ds.map DerivedReady.fact).foldl (handoffReady debug) h
    Holds after.state.candidatesById
        ((ds.map (·.input)).foldl (handle (act records) workOf) A) ∧
      (ds.map (·.input)).foldl (handle (act records) workOf) A ⊆ Schedules log ∧
      Follows records after.state ∧
      after.state.readyById = (ds.foldl keepDerived held).map DerivedReady.fact := by
  induction ds generalizing h A held with
  | nil => exact ⟨hA, hsub, hfollows, hheld⟩
  | cons d ds ih =>
    have hinput := hds.input d mem_cons_self
    have htables := handoffReadyInner_tables debug
      { h with state := keepReady h.state d.fact } d.fact
    have hworks : (handoffReady debug h d.fact).state.worksById = h.state.worksById :=
      congrArg (fun t => t.1) htables
    have hready : (handoffReady debug h d.fact).state.readyById
        = (keepDerived held d).map DerivedReady.fact := by
      refine (congrArg (fun t => t.2.1) htables).trans ?_
      refine (congrArg (fun m => m.insert d.fact.scheduleId d.fact) hheld).trans ?_
      exact SortedMap.insert_map held DerivedReady.fact d.input.scheduleId d
    have hkept : Follows records (keepReady h.state d.fact) := hfollows
    have hstep := Holds.handoff (h := { h with state := keepReady h.state d.fact }) hA hkept debug
      (hds.fits hlog d mem_cons_self)
      fun i hi heq => hlog.scheduleId_inj (hsub hi) hinput heq
    have hfollows' : Follows records (handoffReady debug h d.fact).state := by
      intro queueId workId
      rw [hworks]
      exact hfollows queueId workId
    exact ih (fun e he => hds e (mem_cons_of_mem d he)) hstep
      (handle_subset hsub hinput) hfollows' hready

end Loops

/-! ### A wave -/

/-- A wave whose ready facts come from records. -/
structure DerivedWave (T F : Type) where
  records : List (List (WorkQueueRecord T))
  ready : List (List (DerivedReady T F))
  overdue : List (List (ScheduledReadinessOverdue F))

def DerivedWave.toWave (w : DerivedWave T F) : HandoffWave T F where
  records := w.records
  ready := w.ready.map (·.map DerivedReady.fact)
  overdue := w.overdue

section

variable (waves : List (DerivedWave T F))

/-- The records a run of waves has delivered. -/
def deliveredIn : List (WorkQueueRecord T) :=
  waves.flatMap fun w => w.records.flatten

/-- The ready facts a run of waves has brought. -/
def receivedIn : List (DerivedReady T F) :=
  waves.flatMap fun w => w.ready.flatten

/-- The ready facts kept after a run, the latest under each id. -/
def heldIn : SortedMap String (DerivedReady T F) :=
  (receivedIn waves).foldl keepDerived .empty

/-- The schedules whose facts a wave after a run hands off, in their order. -/
def handledIn (w : DerivedWave T F) :
    List ReadinessScheduleInput :=
  ((heldIn waves).values ++ w.ready.flatten).map (·.input)

end

/-- The handoff after a run of waves. -/
def handedOff (debug : WorkQueueReadinessStatus → String) (waves : List (DerivedWave T F)) :
    Handoff F :=
  handoffAfter debug (waves.map DerivedWave.toWave)

omit [Float64 F] in
theorem current_append (rs : List (WorkQueueRecord T)) (h : ∀ r ∈ rs, Outlives r j) :
    current (records ++ rs) j.queueId j.workId = current records j.queueId j.workId := by
  have hnone : rs.filter (concerns j.queueId j.workId) = [] := by
    rw [filter_eq_nil_iff]
    intro r hr hc
    have hconcerns := concerns_iff.mp hc
    exact h r hr hconcerns.1 (Prod.ext hconcerns.2.1.symm hconcerns.2.2.symm)
  rw [current, current, filter_append, hnone, append_nil]

omit [Float64 F] in
/-- The records of a wave, applied: the table follows and the schedules of the works they
    settle are taken out. -/
theorem follow_records (hA : Holds s.candidatesById A) (hfollows : Follows records s)
    (rs : List (WorkQueueRecord T)) :
    Follows (records ++ rs) (rs.foldl applyRecord s) ∧
      Holds (rs.foldl applyRecord s).candidatesById {j ∈ A | ∀ r ∈ rs, Outlives r j} ∧
      (rs.foldl applyRecord s).readyById = s.readyById := by
  induction rs generalizing records s A with
  | nil =>
    rw [append_nil]
    have hset : {j ∈ A | ∀ r ∈ ([] : List (WorkQueueRecord T)), Outlives r j} = A := by
      ext j
      simp
    rw [hset]
    exact ⟨hfollows, hA, rfl⟩
  | cons r rs ih =>
    have hready : (applyRecord s r).readyById = s.readyById := by
      rw [applyRecord_eq fun _ => hfollows.tidy]
      split_ifs <;> rfl
    have hrest := ih (hA.applyRecord hfollows r) (hfollows.applyRecord r)
    have hset : {j ∈ A | ∀ x ∈ r :: rs, Outlives x j} =
        {j ∈ {j ∈ A | Outlives r j} | ∀ x ∈ rs, Outlives x j} := by
      ext j
      simp [and_assoc]
    rw [append_cons, hset]
    exact ⟨hrest.1, hrest.2.1, hrest.2.2.trans hready⟩

omit [Float64 F] in
theorem mem_foldl_keepDerived {held : SortedMap String (DerivedReady T F)}
    {ds : List (DerivedReady T F)}
    (h : d ∈ (ds.foldl keepDerived held).values) : d ∈ held.values ∨ d ∈ ds := by
  induction ds generalizing held with
  | nil => exact Or.inl h
  | cons e ds ih =>
    rcases ih h with hheld | hds
    · refine (mem_map.mp hheld).elim fun entry hentry => ?_
      rcases SortedMap.mem_insert.mp hentry.1 with heq | hold
      · rw [heq] at hentry
        exact Or.inr (hentry.2 ▸ mem_cons_self)
      · exact Or.inl (mem_map.mpr ⟨entry, hold.1, hentry.2⟩)
    · exact Or.inr (mem_cons_of_mem e hds)

omit [Float64 F] in
theorem lookup_heldIn (hlog : QueueLog log) {ds : List (DerivedReady T F)} (hds : Logged log ds)
    (held : SortedMap String (DerivedReady T F)) :
    ∀ d ∈ ds, ∃ e, (ds.foldl keepDerived held).lookup d.input.scheduleId = some e ∧
      e.input = d.input := by
  induction ds using List.reverseRecOn with
  | nil =>
    intro d hd
    exact absurd hd not_mem_nil
  | append_singleton ds x ih =>
    intro d hd
    have hx : x.input ∈ Schedules log :=
      hds.input x (mem_append_right _ mem_cons_self)
    have hinput := hds.input d hd
    rw [foldl_append, foldl_cons, foldl_nil, keepDerived, SortedMap.lookup_insert]
    by_cases hid : d.input.scheduleId = x.input.scheduleId
    · rw [if_pos hid]
      exact ⟨x, rfl, hlog.scheduleId_inj hx hinput hid.symm⟩
    · rw [if_neg hid]
      rcases mem_append.mp hd with hd | hd
      · exact ih (fun e he => hds e (mem_append_left _ he)) d hd
      · exact absurd (congrArg (fun e => e.input.scheduleId) (mem_singleton.mp hd)) hid

omit [Float64 F] in
variable {waves : List (DerivedWave T F)} {w : DerivedWave T F}

theorem mem_handledIn (hlog : QueueLog log) (hds : Logged log (receivedIn (waves ++ [w]))) :
    j ∈ handledIn waves w ↔ ∃ d ∈ receivedIn (waves ++ [w]), d.input = j := by
  have hreceived : receivedIn (waves ++ [w]) = receivedIn waves ++ w.ready.flatten := by
    rw [receivedIn, flatMap_append, flatMap_singleton]
    rfl
  rw [hreceived] at hds ⊢
  rw [handledIn, mem_map]
  constructor
  · rintro ⟨d, hd, hj⟩
    refine ⟨d, ?_, hj⟩
    rcases mem_append.mp hd with hd | hd
    · refine mem_append_left _ ((mem_foldl_keepDerived hd).resolve_left ?_)
      exact fun h => absurd h not_mem_nil
    · exact mem_append_right _ hd
  · rintro ⟨d, hd, hj⟩
    rcases mem_append.mp hd with hold | hnew
    · have hkept := lookup_heldIn hlog (fun e he => hds e (mem_append_left _ he)) .empty d hold
      refine hkept.elim fun e he => ⟨e, mem_append_left _ ?_, he.2.trans hj⟩
      exact mem_map.mpr ⟨_, SortedMap.lookup_eq_some he.1, rfl⟩
    · exact ⟨d, mem_append_right _ hnew, hj⟩

/-- What holds after every wave. -/
structure Serves (log : List (WorkQueueRecord T)) (waves : List (DerivedWave T F))
    (A : Set ReadinessScheduleInput) (h : Handoff F) : Prop where
  follows : Follows (deliveredIn waves) h.state
  ready : h.state.readyById = (heldIn waves).map DerivedReady.fact
  holds : Holds h.state.candidatesById A
  subset : A ⊆ Schedules log
  sound : ∀ j ∈ A, passes (deliveredIn waves) j ∧ ∃ d ∈ receivedIn waves, d.input = j

omit [Float64 F] in
theorem overdue_tables (debug : WorkQueueReadinessStatus → String)
    (facts : List (ScheduledReadinessOverdue F)) (h : Handoff F) :
    (facts.foldl (handoffOverdue debug) h).state.tables = h.state.tables := by
  induction facts generalizing h with
  | nil => rfl
  | cons fact facts ih => exact (ih _).trans (emitHandoffStatus_tables debug h _)

theorem handedOff_concat (debug : WorkQueueReadinessStatus → String)
    (waves : List (DerivedWave T F)) (w : DerivedWave T F) :
    handedOff debug (waves ++ [w]) = (handedOff debug waves).wave debug w.toWave := by
  rw [handedOff, map_append, handoffAfter, foldl_append]
  rfl

section

variable (waves : List (DerivedWave T F)) (w : DerivedWave T F)

omit [Float64 F] in
theorem deliveredIn_concat :
    deliveredIn (waves ++ [w]) = deliveredIn waves ++ w.records.flatten := by
  rw [deliveredIn, flatMap_append, flatMap_singleton]
  rfl

omit [Float64 F] in
theorem receivedIn_concat :
    receivedIn (waves ++ [w]) = receivedIn waves ++ w.ready.flatten := by
  rw [receivedIn, flatMap_append, flatMap_singleton]
  rfl

/-- The schedules whose candidates are in place after a wave: what passed and was not
    cleared afterwards. -/
def leftIn : Set ReadinessScheduleInput :=
  {j | Kept (act (deliveredIn (waves ++ [w]))) workOf (handledIn waves w) j}

end

theorem Serves.wave (hlog : QueueLog log)
    (debug : WorkQueueReadinessStatus → String) {h : Handoff F}
    (hserves : Serves log waves A h) (hds : Logged log (receivedIn (waves ++ [w]))) :
    Serves log (waves ++ [w]) (leftIn waves w) (h.wave debug w.toWave) := by
  have hold : Logged log (receivedIn waves) := fun d hd =>
    hds d (by rw [receivedIn_concat]; exact mem_append_left _ hd)
  have hnew : Logged log w.ready.flatten := fun d hd =>
    hds d (by rw [receivedIn_concat]; exact mem_append_right _ hd)
  have hheld : Logged log (heldIn waves).values := by
    intro d hd
    exact hold d ((mem_foldl_keepDerived hd).resolve_left fun hn => absurd hn not_mem_nil)
  -- The records come first.
  have hrecords := follow_records hserves.holds hserves.follows w.records.flatten
  have hsub : {j ∈ A | ∀ r ∈ w.records.flatten, Outlives r j} ⊆ Schedules log :=
    fun j hj => hserves.subset hj.1
  rw [← deliveredIn_concat] at hrecords
  -- Then what was kept is handed off again.
  have hagain := handoff_again hlog debug hheld (h := h.record w.toWave) hrecords.2.1 hsub
    hrecords.1
  have hkept : (h.record w.toWave).state.readyById = (heldIn waves).map DerivedReady.fact :=
    hrecords.2.2.trans hserves.ready
  have hvalues : (h.record w.toWave).again debug =
      ((heldIn waves).values.map DerivedReady.fact).foldl (handoffReadyInner debug)
        (h.record w.toWave) := by
    rw [Handoff.again, hkept, SortedMap.values_map]
  rw [← hvalues] at hagain
  -- And then what the wave brings.
  have hbrought := handoff_brought hlog debug hnew hagain.1 hagain.2.1 hagain.2.2.1
    (hagain.2.2.2.trans hkept)
  have hflatten : w.toWave.ready.flatten = w.ready.flatten.map DerivedReady.fact :=
    map_flatten.symm
  rw [← hflatten, ← foldl_append, ← map_append] at hbrought
  have htables := overdue_tables debug w.overdue.flatten
    (w.toWave.ready.flatten.foldl (handoffReady debug) ((h.record w.toWave).again debug))
  have hset : (handledIn waves w).foldl (handle (act (deliveredIn (waves ++ [w]))) workOf)
      {j ∈ A | ∀ r ∈ w.records.flatten, Outlives r j} = leftIn waves w := by
    ext j
    rw [mem_foldl_handle]
    refine or_iff_left_of_imp fun hj => ?_
    -- What was in place and is not cleared is handed off again and passes as before.
    have hsound := hserves.sound j hj.1.1
    have hcurrent : passes (deliveredIn (waves ++ [w])) j = passes (deliveredIn waves) j := by
      rw [deliveredIn_concat, passes, currentInput, current_append _ hj.1.2]
      rfl
    have hact : act (deliveredIn (waves ++ [w])) j = .keep := by
      rw [act, hcurrent, if_pos hsound.1]
    have hmem : j ∈ handledIn waves w := (mem_handledIn hlog hds).mpr (by
      rw [receivedIn_concat]
      exact hsound.2.imp fun d hd => ⟨mem_append_left _ hd.1, hd.2⟩)
    exact .of_mem hmem hact hj.2
  rw [handledIn] at hset
  rw [hset] at hbrought
  refine ⟨?_, ?_, ?_, hbrought.2.1, ?_⟩
  · intro queueId workId
    have hworks : (h.wave debug w.toWave).state.worksById = _ := congrArg (fun t => t.1) htables
    rw [hworks]
    exact hbrought.2.2.1 queueId workId
  · have hready : (h.wave debug w.toWave).state.readyById = _ :=
      congrArg (fun t => t.2.1) htables
    refine hready.trans (hbrought.2.2.2.trans ?_)
    rw [heldIn, heldIn, receivedIn_concat, foldl_append]
  · have hcandidates : (h.wave debug w.toWave).state.candidatesById = _ :=
      congrArg (fun t => t.2.2) htables
    rw [hcandidates]
    exact hbrought.1
  · intro j hj
    have hkeep : act (deliveredIn (waves ++ [w])) j = .keep := by
      obtain ⟨before, later, heq, hact, -⟩ := hj
      exact hact
    refine ⟨?_, (mem_handledIn hlog hds).mp hj.mem⟩
    by_contra hfail
    rw [act, if_neg hfail] at hkeep
    split_ifs at hkeep

theorem serves_after (hlog : QueueLog log)
    (debug : WorkQueueReadinessStatus → String) (waves : List (DerivedWave T F))
    (hds : Logged log (receivedIn waves)) : ∃ A, Serves log waves A (handedOff debug waves) := by
  induction waves using List.reverseRecOn with
  | nil =>
    refine ⟨∅, fun _ _ => rfl, rfl, ⟨?_, ?_⟩, Set.empty_subset _, ?_⟩
    · exact fun j hj => absurd hj (Set.notMem_empty j)
    · exact fun id c hc => absurd hc.symm (Option.some_ne_none c)
    · exact fun j hj => absurd hj (Set.notMem_empty j)
  | append_singleton waves w ih =>
    have hold : Logged log (receivedIn waves) := fun d hd =>
      hds d (by rw [receivedIn_concat]; exact mem_append_left _ hd)
    rw [handedOff_concat]
    exact (ih hold).elim fun A hA => ⟨leftIn waves w, hA.wave hlog debug hds⟩

/-- The set of schedules after a wave. -/
theorem handled_after (hlog : QueueLog log)
    (debug : WorkQueueReadinessStatus → String) (waves : List (DerivedWave T F))
    (w : DerivedWave T F) (hds : Logged log (receivedIn (waves ++ [w]))) :
    Serves log (waves ++ [w]) (leftIn waves w) (handedOff debug (waves ++ [w])) := by
  have hold : Logged log (receivedIn waves) := fun d hd =>
    hds d (by rw [receivedIn_concat]; exact mem_append_left _ hd)
  rw [handedOff_concat]
  exact (serves_after hlog debug waves hold).elim fun A hA => hA.wave hlog debug hds

/-! ### Emitting once -/

/-- A fact is a schedule's candidate. -/
def WorkQueueReadinessFact.isCandidate (scheduleId : String) : WorkQueueReadinessFact F → Bool
  | .candidate value => value.scheduleId = scheduleId
  | _ => false

/-- Every candidate emitted is a schedule's and its key is remembered, and no schedule has
    two. -/
structure Emitted (U : Set ReadinessScheduleInput) (h : Handoff F) : Prop where
  keyed : ∀ c, .candidate c ∈ h.facts → candidateKey c.candidateId ∈ h.state.emitted ∧
    ∃ j ∈ U, c.candidateId = inputCandidateId j ∧ c.scheduleId = j.scheduleId
  once : ∀ scheduleId, h.facts.countP (·.isCandidate scheduleId) ≤ 1

section Emitting

variable {U : Set ReadinessScheduleInput} {h : Handoff F}

omit [Float64 F] in
theorem Emitted.quiet (he : Emitted U h) (fact : WorkQueueReadinessFact F)
    (hquiet : ∀ c, fact ≠ .candidate c) {h' : Handoff F} (hfacts : h'.facts = h.facts ++ [fact])
    (hkeys : ∀ key ∈ h.state.emitted, key ∈ h'.state.emitted) : Emitted U h' := by
  constructor
  · intro c hc
    rw [hfacts, mem_append, mem_singleton] at hc
    rcases hc with hc | hc
    · exact ⟨hkeys _ (he.keyed c hc).1, (he.keyed c hc).2⟩
    · exact absurd hc.symm (hquiet c)
  · intro scheduleId
    have hnone : [fact].countP (·.isCandidate scheduleId) = 0 := by
      cases fact with
      | candidate value => exact absurd rfl (hquiet value)
      | status _ | issue _ | audit _ | views _ => rfl
    rw [hfacts, countP_append, hnone, Nat.add_zero]
    exact he.once scheduleId

omit [Float64 F] in
theorem Emitted.same (he : Emitted U h) {h' : Handoff F} (hfacts : h'.facts = h.facts)
    (hkeys : ∀ key ∈ h.state.emitted, key ∈ h'.state.emitted) : Emitted U h' := by
  constructor
  · intro c hc
    rw [hfacts] at hc
    exact ⟨hkeys _ (he.keyed c hc).1, (he.keyed c hc).2⟩
  · intro scheduleId
    rw [hfacts]
    exact he.once scheduleId

omit [Float64 F] in
theorem Emitted.once_of (he : Emitted U h) {key : String} {emit : Handoff F → Handoff F}
    (hemit : key ∉ h.state.emitted → ∀ r, r.facts = h.facts →
      r.state.emitted = h.state.emitted ++ [key] → Emitted U (emit r)) :
    Emitted U (handoffOnce h key emit) := by
  unfold handoffOnce
  split_ifs with hseen
  · exact he
  · exact hemit hseen _ rfl rfl

omit [Float64 F] in
theorem Emitted.status (he : Emitted U h) (debug : WorkQueueReadinessStatus → String)
    (status : WorkQueueReadinessStatus) : Emitted U (emitHandoffStatus debug h status) := by
  unfold emitHandoffStatus
  have hput : Emitted U { h with state := { h.state with
      statusById := h.state.statusById.insert status.statusId status } } :=
    he.same rfl fun _ hk => hk
  refine hput.once_of fun _ r hfacts hkeys => ?_
  refine he.quiet (.status status) (fun _ => by simp) ?_ fun key hk => ?_
  · rw [emitHandoffFact, hfacts]
  · change key ∈ r.state.emitted
    rw [hkeys]
    exact mem_append_left _ hk

omit [Float64 F] in
theorem Emitted.issue (he : Emitted U h) (scheduleId detail : String) :
    Emitted U (emitHandoffIssue h scheduleId detail) := by
  unfold emitHandoffIssue
  refine he.once_of fun _ r hfacts hkeys => ?_
  refine he.quiet (.issue _) (fun _ => by simp) (by rw [emitHandoffFact, hfacts]) fun key hk => ?_
  change key ∈ r.state.emitted
  rw [hkeys]
  exact mem_append_left _ hk

omit [Float64 F] in
theorem Emitted.candidate (he : Emitted U h) {c : WorkQueueReadinessCandidate F}
    (hinj : ∀ i ∈ U, ∀ j ∈ U, i.scheduleId = j.scheduleId → i = j) (hj : j ∈ U)
    (hid : c.candidateId = inputCandidateId j)
    (hschedule : c.scheduleId = j.scheduleId) (hnew : candidateKey c.candidateId ∉ h.state.emitted)
    {r : Handoff F} (hfacts : r.facts = h.facts)
    (hkeys : r.state.emitted = h.state.emitted ++ [candidateKey c.candidateId]) :
    Emitted U (emitHandoffFact r (.candidate c)) := by
  have hfirst : ∀ d, .candidate d ∈ h.facts → d.scheduleId ≠ c.scheduleId := by
    intro d hd heq
    have hkeyed := he.keyed d hd
    refine hkeyed.2.elim fun i hi => hnew ?_
    have hij : i = j := hinj i hi.1 j hj (by rw [← hi.2.2, heq, hschedule])
    rw [hid, ← hij, ← hi.2.1]
    exact hkeyed.1
  constructor
  · intro d hd
    change .candidate d ∈ r.facts ++ [.candidate c] at hd
    change candidateKey d.candidateId ∈ r.state.emitted ∧ _
    rw [hfacts, mem_append, mem_singleton] at hd
    rw [hkeys]
    rcases hd with hd | hd
    · exact ⟨mem_append_left _ (he.keyed d hd).1, (he.keyed d hd).2⟩
    · rw [WorkQueueReadinessFact.candidate.inj hd]
      exact ⟨mem_append_right _ mem_cons_self, j, hj, hid, hschedule⟩
  · intro scheduleId
    have hlist : (emitHandoffFact r (.candidate c)).facts = h.facts ++ [.candidate c] := by
      rw [emitHandoffFact, hfacts]
    rw [hlist, countP_append]
    by_cases hsame : c.scheduleId = scheduleId
    · have hzero : h.facts.countP (·.isCandidate scheduleId) = 0 := by
        rw [countP_eq_zero]
        intro fact hfact his
        cases fact with
        | candidate d => exact hfirst d hfact ((of_decide_eq_true his).trans hsame.symm)
        | status _ | issue _ | audit _ | views _ => cases his
      rw [hzero, Nat.zero_add]
      exact countP_le_length
    · have hother : [WorkQueueReadinessFact.candidate c].countP (·.isCandidate scheduleId) = 0 := by
        rw [countP_eq_zero]
        intro fact hfact his
        rw [mem_singleton.mp hfact] at his
        exact hsame (of_decide_eq_true his)
      rw [hother, Nat.add_zero]
      exact he.once scheduleId

omit [Float64 F] in
theorem Emitted.emitCandidate (he : Emitted U h) (debug : WorkQueueReadinessStatus → String)
    {c : WorkQueueReadinessCandidate F}
    (hinj : ∀ i ∈ U, ∀ j ∈ U, i.scheduleId = j.scheduleId → i = j) (hj : j ∈ U)
    (hid : c.candidateId = inputCandidateId j)
    (hschedule : c.scheduleId = j.scheduleId) : Emitted U (emitCandidate debug h c) := by
  unfold Readiness.emitCandidate
  have hput : Emitted U { h with state := { h.state with
      candidatesById := h.state.candidatesById.insert c.candidateId c } } :=
    he.same rfl fun _ hk => hk
  refine hput.once_of fun hnew r hfacts hkeys => ?_
  have hemitted := (hput.candidate hinj hj hid hschedule hnew hfacts hkeys).status debug
    (candidateStatus c)
  exact hemitted.quiet (.audit _) (fun _ => by simp) rfl fun _ hk => hk

variable {log records : List (WorkQueueRecord T)}

theorem Emitted.handoff (he : Emitted (Schedules log) h) (hlog : QueueLog log)
    (debug : WorkQueueReadinessStatus → String) (hfollows : Follows records h.state)
    (hd : d.record ∈ log) :
    Emitted (Schedules log) (handoffReadyInner debug h d.fact) := by
  have hagrees := judge_fact hfollows d (hlog.attempts d.record hd d.input d.translated)
  have hmem : d.input ∈ Schedules log := ⟨d.record, hd, d.translated⟩
  unfold handoffReadyInner
  cases hverdict : judge h.state.worksById d.fact with
  | malformed detail => exact he.issue _ _
  | ignored queueId workId kind detail => exact he.status debug _
  | pruned queueId workId kind detail =>
    have hpruned : Emitted (Schedules log)
        { h with state := pruneCandidatesForWork h.state queueId workId } :=
      he.same rfl fun _ hk => hk
    exact hpruned.status debug _
  | candidate c =>
    rw [hverdict] at hagrees
    -- Only a fact that passes has a candidate.
    cases hact : act records d.input with
    | keep =>
      rw [hact] at hagrees
      exact he.emitCandidate debug (fun i hi j hj => hlog.scheduleId_inj hi hj) hmem
        hagrees.1 hagrees.2.1
    | clear | skip =>
      rw [hact] at hagrees
      exact hagrees.elim

theorem Emitted.again (hlog : QueueLog log) (debug : WorkQueueReadinessStatus → String)
    {ds : List (DerivedReady T F)} (hds : Logged log ds) (he : Emitted (Schedules log) h)
    (hfollows : Follows records h.state) :
    Emitted (Schedules log) ((ds.map DerivedReady.fact).foldl (handoffReadyInner debug) h) := by
  induction ds generalizing h with
  | nil => exact he
  | cons d ds ih =>
    refine ih (fun e hmem => hds e (mem_cons_of_mem d hmem))
      (he.handoff hlog debug hfollows (hds d mem_cons_self)) ?_
    intro queueId workId
    have hworks : (handoffReadyInner debug h d.fact).state.worksById = h.state.worksById :=
      congrArg (fun t => t.1) (handoffReadyInner_tables debug h d.fact)
    rw [hworks]
    exact hfollows queueId workId

theorem Emitted.brought (hlog : QueueLog log) (debug : WorkQueueReadinessStatus → String)
    {ds : List (DerivedReady T F)} (hds : Logged log ds) (he : Emitted (Schedules log) h)
    (hfollows : Follows records h.state) :
    Emitted (Schedules log) ((ds.map DerivedReady.fact).foldl (handoffReady debug) h) := by
  induction ds generalizing h with
  | nil => exact he
  | cons d ds ih =>
    have hkept : Emitted (Schedules log) { h with state := keepReady h.state d.fact } :=
      he.same rfl fun _ hk => hk
    have hkeptFollows : Follows records (keepReady h.state d.fact) := hfollows
    refine ih (fun e hmem => hds e (mem_cons_of_mem d hmem))
      (hkept.handoff hlog debug hkeptFollows (hds d mem_cons_self)) ?_
    intro queueId workId
    have hworks : (handoffReady debug h d.fact).state.worksById = h.state.worksById :=
      congrArg (fun t => t.1) (handoffReadyInner_tables debug _ d.fact)
    rw [hworks]
    exact hfollows queueId workId

omit [Float64 F] in
theorem Emitted.overdue (he : Emitted U h) (debug : WorkQueueReadinessStatus → String)
    (facts : List (ScheduledReadinessOverdue F)) :
    Emitted U (facts.foldl (handoffOverdue debug) h) := by
  induction facts generalizing h with
  | nil => exact he
  | cons fact facts ih => exact ih (he.status debug _)

end Emitting

omit [Float64 F] in
theorem again_works (debug : WorkQueueReadinessStatus → String)
    (facts : List (ScheduledReadinessReady F)) (h : Handoff F) :
    (facts.foldl (handoffReadyInner debug) h).state.worksById = h.state.worksById := by
  induction facts generalizing h with
  | nil => rfl
  | cons fact facts ih =>
    exact (ih _).trans (congrArg (fun t => t.1) (handoffReadyInner_tables debug h fact))

theorem emitted_after (hlog : QueueLog log)
    (debug : WorkQueueReadinessStatus → String) (waves : List (DerivedWave T F))
    (hds : Logged log (receivedIn waves)) : Emitted (Schedules log) (handedOff debug waves) := by
  induction waves using List.reverseRecOn with
  | nil =>
    exact ⟨fun c hc => absurd hc not_mem_nil, fun _ => Nat.zero_le 1⟩
  | append_singleton waves w ih =>
    have hold : Logged log (receivedIn waves) := fun d hd =>
      hds d (by rw [receivedIn_concat]; exact mem_append_left _ hd)
    have hnew : Logged log w.ready.flatten := fun d hd =>
      hds d (by rw [receivedIn_concat]; exact mem_append_right _ hd)
    have hheld : Logged log (heldIn waves).values := by
      intro d hd
      exact hold d ((mem_foldl_keepDerived hd).resolve_left fun hn => absurd hn not_mem_nil)
    obtain ⟨A, hA⟩ := serves_after hlog debug waves hold
    have hrecords := follow_records hA.holds hA.follows w.records.flatten
    have happlied : Emitted (Schedules log) ((handedOff debug waves).record w.toWave) := by
      refine (ih hold).same rfl fun key hk => ?_
      have hemitted : ∀ (rs : List (WorkQueueRecord T)) {s : HandoffState F}
          {records : List (WorkQueueRecord T)}, Follows records s →
          (rs.foldl applyRecord s).emitted = s.emitted := by
        intro rs
        induction rs with
        | nil => exact fun _ => rfl
        | cons r rs ihr =>
          intro s records hf
          refine (ihr (hf.applyRecord r)).trans ?_
          rw [applyRecord_eq fun _ => hf.tidy]
          split_ifs <;> rfl
      exact (hemitted w.records.flatten hA.follows).symm ▸ hk
    have hvalues : ((handedOff debug waves).record w.toWave).again debug =
        ((heldIn waves).values.map DerivedReady.fact).foldl (handoffReadyInner debug)
          ((handedOff debug waves).record w.toWave) := by
      have hkept : ((handedOff debug waves).record w.toWave).state.readyById =
          (heldIn waves).map DerivedReady.fact := hrecords.2.2.trans hA.ready
      rw [Handoff.again, hkept, SortedMap.values_map]
    have hagain := Emitted.again hlog debug hheld happlied hrecords.1
    rw [← hvalues] at hagain
    have hfollows : Follows (deliveredIn waves ++ w.records.flatten)
        (((handedOff debug waves).record w.toWave).again debug).state := by
      intro queueId workId
      rw [hvalues, again_works]
      exact hrecords.1 queueId workId
    have hbrought := Emitted.brought hlog debug hnew hagain hfollows
    have hflatten : w.toWave.ready.flatten = w.ready.flatten.map DerivedReady.fact :=
      map_flatten.symm
    rw [← hflatten] at hbrought
    rw [handedOff_concat]
    exact (hbrought.overdue debug w.overdue.flatten).quiet (.views _) (fun _ => by simp) rfl
      fun _ hk => hk

/-! ### The schedules in force -/

/-- Two schedules are of one lease until one time. -/
structure SameLease (i j : ReadinessScheduleInput) : Prop where
  left : i.kind = .leaseExpiration
  right : j.kind = .leaseExpiration
  lease : i.lease.map leaseKey = j.lease.map leaseKey
  time : i.readyAtMs = j.readyAtMs

/-- A schedule is in force: the last record that settled its work's state is the one it
    comes from, or left the work leased with its lease until its time. -/
def InForce (records : List (WorkQueueRecord T)) (j : ReadinessScheduleInput) : Prop :=
  ∃ i, currentInput records j.queueId j.workId = some i ∧ (i = j ∨ SameLease i j)

omit [Float64 F] in
theorem InForce.passes (h : InForce records j) : passes records j := by
  obtain ⟨i, hi, hij⟩ := h
  rw [passes_of_input hi, decide_eq_true_eq]
  rcases hij with rfl | hlease
  · exact ⟨rfl, rfl, rfl⟩
  · exact ⟨hlease.left.trans hlease.right.symm, hlease.time, hlease.lease⟩

/-- The candidates are the received facts whose schedule is in force, one for each. -/
structure Reflects (records : List (WorkQueueRecord T)) (received : List (DerivedReady T F))
    (m : SortedMap String (WorkQueueReadinessCandidate F)) : Prop where
  present : ∀ d ∈ received, InForce records d.input →
    ∃! id, ∃ c, m.lookup id = some c ∧ c.scheduleId = d.input.scheduleId
  justified : ∀ id c, m.lookup id = some c →
    ∃ d ∈ received, InForce records d.input ∧ c.scheduleId = d.input.scheduleId

/-- Of the schedules handed off, what passes for the one in force is left exactly when it
    is in force. -/
def Settled (records : List (WorkQueueRecord T)) (handled : List ReadinessScheduleInput) : Prop :=
  ∀ j ∈ handled, passes records j →
    (InForce records j ↔ Kept (act records) workOf handled j)

/-- After a wave the candidates are the received facts in force, none emitted twice,
    exactly when what the wave hands off is settled. -/
theorem candidates_reflect_iff {log : List (WorkQueueRecord T)} (hlog : QueueLog log)
    (debug : WorkQueueReadinessStatus → String) (waves : List (DerivedWave T F))
    (w : DerivedWave T F) (hds : Logged log (receivedIn (waves ++ [w]))) :
    (Reflects (deliveredIn (waves ++ [w])) (receivedIn (waves ++ [w]))
        (handedOff debug (waves ++ [w])).state.candidatesById ∧
      ∀ scheduleId, (handedOff debug (waves ++ [w])).facts.countP (·.isCandidate scheduleId) ≤ 1) ↔
      Settled (deliveredIn (waves ++ [w])) (handledIn waves w) := by
  have hserves := handled_after hlog debug waves w hds
  have honce := (emitted_after hlog debug (waves ++ [w]) hds).once
  have hinputs : ∀ {j}, j ∈ handledIn waves w → j ∈ Schedules log := fun hj =>
    ((mem_handledIn hlog hds).mp hj).elim fun d hd => hd.2 ▸ hds.input d hd.1
  rw [and_iff_left honce]
  constructor
  · intro h j hj hpasses
    constructor
    · intro hforce
      obtain ⟨d, hd, hdj⟩ := (mem_handledIn hlog hds).mp hj
      obtain ⟨id, ⟨c, hlook, hc⟩, -⟩ := h.present d hd (by rw [hdj]; exact hforce)
      obtain ⟨i, hi, -, hic⟩ := hserves.holds.known id c hlook
      have hij : i = j := hlog.scheduleId_inj (hserves.subset hi) (hinputs hj)
        (by rw [← hic.scheduleId, hc, hdj])
      rw [← hij]
      exact hi
    · intro hkept
      obtain ⟨c, hlook, hc⟩ := hserves.holds.present j hkept
      obtain ⟨d, hd, hforce, hdc⟩ := h.justified _ c hlook
      have hdj : d.input = j := hlog.scheduleId_inj (hds.input d hd) (hinputs hj)
        (by rw [← hdc, hc.scheduleId])
      rw [← hdj]
      exact hforce
  · intro h
    constructor
    · intro d hd hforce
      have hmem : d.input ∈ handledIn waves w := (mem_handledIn hlog hds).mpr ⟨d, hd, rfl⟩
      have hkept := (h d.input hmem hforce.passes).mp hforce
      obtain ⟨c, hlook, hc⟩ := hserves.holds.present d.input hkept
      refine ⟨inputCandidateId d.input, ⟨c, hlook, hc.scheduleId⟩, ?_⟩
      rintro id ⟨other, hother, hid⟩
      obtain ⟨i, hi, rfl, hic⟩ := hserves.holds.known id other hother
      have hij : i = d.input := hlog.scheduleId_inj (hserves.subset hi) (hds.input d hd)
        (by rw [← hic.scheduleId, hid])
      rw [hij]
    · intro id c hlook
      obtain ⟨j, hj, -, hc⟩ := hserves.holds.known id c hlook
      have hsound := hserves.sound j hj
      obtain ⟨d, hd, hdj⟩ := hsound.2
      refine ⟨d, hd, ?_, by rw [hdj, hc.scheduleId]⟩
      rw [hdj]
      exact (h j (Kept.mem hj) hsound.1).mpr hj

/-! ### A lease that is over -/

def staleLease : LeaseRef := ⟨"lease", 1, "worker"⟩

def claimRecord : WorkQueueRecord Unit := ⟨2, "q", "a", .workClaimed "claim" staleLease 0 100⟩

def retryRecord : WorkQueueRecord Unit := ⟨4, "q", "a", .retryScheduled "fail" 50 40 none 10⟩

/-- A work is admitted and claimed until 100, fails at 10 and is to be retried at 50. -/
def staleLog : List (WorkQueueRecord Unit) :=
  [⟨1, "q", "a", .workAdmitted () ⟨"t", 1, "s"⟩ none [] [] none none 0⟩, claimRecord,
    ⟨3, "q", "a", .attemptFailed "fail" staleLease none none 10⟩, retryRecord]

def retryReady : DerivedReady Unit Empty where
  record := retryRecord
  input := (scheduleInput retryRecord).get rfl
  translated := rfl
  nowMs := 60
  clockSourceRefs := []

def leaseReady : DerivedReady Unit Empty where
  record := claimRecord
  input := (scheduleInput claimRecord).get rfl
  translated := rfl
  nowMs := 100
  clockSourceRefs := []

/-- The records, then the retry becoming ready, then the end of the lease that is over. -/
def staleWaves : List (DerivedWave Unit Empty) :=
  [⟨[staleLog], [], []⟩, ⟨[], [[retryReady]], []⟩]

def staleWave : DerivedWave Unit Empty := ⟨[], [[leaseReady]], []⟩

theorem staleLog_ok : QueueLog staleLog :=
  ⟨by decide, by decide⟩

/-- The work waits for its retry, whose fact was received, and there is no candidate: the
    fact of the lease that is over took it away. -/
theorem stale_lease_clears_retry :
    ¬ Reflects (deliveredIn (staleWaves ++ [staleWave])) (receivedIn (staleWaves ++ [staleWave]))
      (handedOff (fun _ => "") (staleWaves ++ [staleWave])).state.candidatesById := by
  intro h
  have hnone : (handedOff (fun _ => "")
      (staleWaves ++ [staleWave])).state.candidatesById.entries.map (·.1) = [] := by
    decide +kernel
  have hforce : InForce (deliveredIn (staleWaves ++ [staleWave])) retryReady.input :=
    ⟨retryReady.input, rfl, Or.inl rfl⟩
  obtain ⟨id, ⟨c, hlook, -⟩, -⟩ := h.present retryReady mem_cons_self hforce
  have hkey := mem_map_of_mem (f := (·.1)) (SortedMap.lookup_eq_some hlook)
  rw [hnone] at hkey
  exact absurd hkey not_mem_nil

/-- The wave before that leaves the retry's candidate in place. -/
theorem candidates_reflect_retry :
    let waves : List (DerivedWave Unit Empty) := [⟨[staleLog], [], []⟩]
    let w : DerivedWave Unit Empty := ⟨[], [[retryReady]], []⟩
    Reflects (deliveredIn (waves ++ [w])) (receivedIn (waves ++ [w]))
        (handedOff (fun _ => "") (waves ++ [w])).state.candidatesById := by
  have hds : Logged staleLog (receivedIn [(⟨[staleLog], [], []⟩ : DerivedWave Unit Empty),
      ⟨[], [[retryReady]], []⟩]) := by
    unfold Logged
    decide
  refine ((candidates_reflect_iff staleLog_ok (fun _ => "") [⟨[staleLog], [], []⟩]
    ⟨[], [[retryReady]], []⟩ hds).mpr ?_).1
  intro j hj _
  have hjr : j = retryReady.input := mem_singleton.mp hj
  rw [hjr]
  refine iff_of_true ⟨retryReady.input, rfl, Or.inl rfl⟩ ?_
  exact ⟨[], [], rfl, by decide +kernel, by simp⟩

end GraphRefly.WorkQueue.Readiness
