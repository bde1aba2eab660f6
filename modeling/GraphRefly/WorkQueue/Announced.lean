import GraphRefly.Lib.Numbered
import GraphRefly.WorkQueue.Log

/-!
# Announced Records

A command appends records to the log and is answered with them. Those who follow
the answers see the log only if each of its records is among them, once and in
order.

A claim first takes away the leases that have expired, which appends records,
and then works out when the leases it is about to issue will end. If that time
cannot be written down, the claim is refused, and it is answered with the refusal
alone: the records of the expired leases stay in the log and are not reported.
Where a command of a worker finds its own lease expired, the same record is
reported together with the refusal.

## Main definitions

* `reported`: The records among some facts.
* `Announced`: The log has grown by what is reported.
* `Overruns`: A claim that takes away a lease and then has no time to give.

## Theorems

* `claimWork_announced`, `dispatchQueueCommand_announced`: Every other command is announced.
* `overrun_silent`: An overrun is not.
* `announced_iff`: Both, and that every admission is announced.
-/

namespace GraphRefly.WorkQueue

open List GraphRefly.Lib GraphRefly.Messaging

variable {T : Type}

/-! ### What is reported -/

/-- The records among some facts. -/
def reported (events : List (QueueEvent T)) : List (WorkQueueRecord T) :=
  events.filterMap fun
    | .record record => some record
    | _ => none

/-- The log has grown by the records that are reported, numbered on from its end. Where
    none is reported, the works are as they were. -/
structure Announced (s : RuntimeState T) (r : Answered T) : Prop where
  appended : r.1.records = s.records ++ reported r.2
  counted : r.1.recordSeq = s.recordSeq + (reported r.2).length
  numbered : Numbered (·.recordSeq) (s.recordSeq + 1) (reported r.2)
  quiet : reported r.2 = [] → r.1.works = s.works

@[simp] theorem reported_append (events later : List (QueueEvent T)) :
    reported (events ++ later) = reported events ++ reported later :=
  filterMap_append

variable {s : RuntimeState T} {events : List (QueueEvent T)}

theorem Announced.silent {s' : RuntimeState T}
    (hsame : s'.records = s.records ∧ s'.recordSeq = s.recordSeq ∧ s'.works = s.works)
    (hevents : reported events = []) : Announced s (s', events) := by
  obtain ⟨hrecords, hseq, hworks⟩ := hsame
  refine ⟨?_, ?_, ?_, fun _ => hworks⟩
  · rw [hevents, append_nil]
    exact hrecords
  · rw [hevents]
    exact hseq
  · rw [hevents]
    exact Numbered.nil _

variable {r : Answered T}

theorem Announced.next {r' : Answered T} (h : Announced s r)
    (h' : Announced r.1 r') : Announced s (r'.1, r.2 ++ r'.2) := by
  have hcounted := h'.counted
  have hnumbered := h'.numbered
  rw [h.counted] at hcounted hnumbered
  refine ⟨?_, ?_, ?_, fun hnone => ?_⟩
  · rw [reported_append, ← append_assoc, ← h.appended]
    exact h'.appended
  · rw [reported_append, length_append]
    dsimp only
    omega
  · rw [reported_append]
    refine h.numbered.append ?_
    rw [Nat.add_right_comm] at hnumbered
    exact hnumbered
  · rw [reported_append, append_eq_nil_iff] at hnone
    exact (h'.quiet hnone.2).trans (h.quiet hnone.1)

theorem Announced.with
    (h : Announced s r) (hevents : reported events = []) : Announced s (r.1, r.2 ++ events) :=
  h.next (Announced.silent ⟨rfl, rfl, rfl⟩ hevents)

variable {changed : RuntimeState T}

theorem Announced.append (opts : RuntimeOptions) (workId : String)
    (body : RecordBody T) (hsame : changed.records = s.records ∧ changed.recordSeq = s.recordSeq)
    (hevents : reported events = [(appendRecord changed opts workId body).2]) :
    Announced s ((appendRecord changed opts workId body).1, events) := by
  obtain ⟨hrecords, hseq⟩ := hsame
  refine ⟨?_, ?_, ?_, fun hnone => ?_⟩
  · rw [hevents, ← hrecords]
    rfl
  · rw [hevents, length_singleton, ← hseq]
    rfl
  · rw [hevents, ← hseq]
    rfl
  · rw [hevents] at hnone
    exact absurd hnone (cons_ne_nil _ _)

variable {opts : RuntimeOptions} {workId : String}

/-- An outcome and what follows from it, both appended and reported in this order. -/
theorem Announced.pair {done : RuntimeState T} {first second : RecordBody T}
    (hfirst : changed.records = (appendRecord s opts workId first).1.records ∧
      changed.recordSeq = (appendRecord s opts workId first).1.recordSeq)
    (hdone : done.records = (appendRecord changed opts workId second).1.records ∧
      done.recordSeq = (appendRecord changed opts workId second).1.recordSeq)
    (hevents : reported events = [(appendRecord s opts workId first).2,
      (appendRecord changed opts workId second).2]) : Announced s (done, events) := by
  obtain ⟨hrecords, hseq⟩ := hfirst
  obtain ⟨hrecords', hseq'⟩ := hdone
  have hcounted : changed.recordSeq = s.recordSeq + 1 := hseq
  refine ⟨?_, ?_, ?_, fun hnone => ?_⟩
  · rw [hevents]
    dsimp only
    rw [hrecords']
    refine (congrArg (· ++ _) hrecords).trans ?_
    exact append_assoc _ _ _
  · rw [hevents]
    dsimp only
    rw [hseq']
    exact congrArg (· + 1) hcounted
  · rw [hevents]
    refine (Numbered.nil _).cons ?_ |>.cons rfl
    exact congrArg (· + 1) hcounted
  · rw [hevents] at hnone
    exact absurd hnone (cons_ne_nil _ _)

/-! ### Admissions and leases -/

section

variable (opts : RuntimeOptions)

theorem admitMessage_announced (s : RuntimeState T)
    (message : MessageEnvelope (WorkQueueSubmit T)) (nowMs : Nat) :
    Announced s (admitMessage opts s message nowMs) := by
  rw [admitMessage]
  split_ifs with hseen
  · exact Announced.silent ⟨rfl, rfl, rfl⟩ rfl
  · simp only []
    split
    · exact Announced.append opts _ _ ⟨rfl, rfl⟩ rfl
    · exact Announced.append opts _ _ ⟨rfl, rfl⟩ rfl

theorem materializeLeaseExpired_announced (s : RuntimeState T)
    (work : WorkState T) (commandId : Option String) (nowMs : Nat) :
    Announced s (materializeLeaseExpired opts s work commandId nowMs) := by
  rw [materializeLeaseExpired]
  split
  · exact Announced.silent ⟨rfl, rfl, rfl⟩ rfl
  · exact Announced.append opts _ _ ⟨rfl, rfl⟩ rfl

theorem foldl_announced {step : Answered T → String → Answered T}
    (hstep : ∀ r workId, Announced s r → Announced s (step r workId)) (workIds : List String)
    (h : Announced s r) : Announced s (workIds.foldl step r) := by
  induction workIds generalizing r with
  | nil => exact h
  | cons workId workIds ih => exact ih (hstep r workId h)

theorem materializeAll_announced (s : RuntimeState T)
    (workIds : List String) (commandId : String) (nowMs : Nat) :
    Announced s (materializeAll opts s workIds commandId nowMs) := by
  refine foldl_announced (fun r workId h => ?_) workIds (Announced.silent ⟨rfl, rfl, rfl⟩ rfl)
  cases r.1.works.lookup workId with
  | none => exact h
  | some work =>
    exact h.next (materializeLeaseExpired_announced opts r.1 work (some commandId) nowMs)

theorem claimAll_announced (s : RuntimeState T)
    (commandId workerId : String) (workIds : List String) (leaseExpiresAtMs nowMs : Nat) :
    Announced s (claimAll opts s commandId workerId workIds leaseExpiresAtMs nowMs) := by
  refine foldl_announced (fun r workId h => ?_) workIds (Announced.silent ⟨rfl, rfl, rfl⟩ rfl)
  refine h.next ?_
  simp only [claimOne]
  split
  · exact Announced.silent ⟨rfl, rfl, rfl⟩ rfl
  · exact Announced.append opts _ _ ⟨rfl, rfl⟩ rfl

end

variable {nowMs : Nat}

variable {commandId : Option String}

theorem currentLease_announced {lease : LeaseRef} {refused : Answered T}
    (h : currentLease opts s workId lease commandId nowMs = .error refused) :
    Announced s refused := by
  rw [currentLease] at h
  cases hlook : s.works.lookup workId with
  | none =>
    rw [hlook] at h
    rw [← Except.error.inj h]
    exact Announced.silent ⟨rfl, rfl, rfl⟩ rfl
  | some work =>
    rw [hlook] at h
    simp only [] at h
    split_ifs at h
    all_goals rw [← Except.error.inj h]
    · exact Announced.silent ⟨rfl, rfl, rfl⟩ rfl
    · exact Announced.silent ⟨rfl, rfl, rfl⟩ rfl
    · exact Announced.silent ⟨rfl, rfl, rfl⟩ rfl
    · exact Announced.silent ⟨rfl, rfl, rfl⟩ rfl
    · exact Announced.silent ⟨rfl, rfl, rfl⟩ rfl
    · exact (materializeLeaseExpired_announced opts s work commandId nowMs).with rfl

theorem reported_claimMissEvents (opts : RuntimeOptions) (s : RuntimeState T)
    (commandId : String) (requested claimed : List String) (nowMs : Nat) :
    reported (claimMissEvents opts s commandId requested claimed nowMs) = [] := by
  rw [claimMissEvents, reported, filterMap_flatMap, flatMap_eq_nil_iff]
  intro workId _
  split
  · rfl
  · split_ifs <;> rfl

theorem reported_checkedTimestamp {deltaMs : Nat} {message : String}
    (h : checkedTimestamp opts commandId nowMs deltaMs message = .error events) :
    reported events = [] := by
  rw [checkedTimestamp] at h
  split_ifs at h
  rw [← Except.error.inj h]
  rfl

/-! ### Commands -/

/-- The works whose leases a claim finds expired. -/
def expiredWorks (s : RuntimeState T) (requestedWorkIds : List String) (nowMs : Nat) :
    List (WorkState T) :=
  s.works.values.filter fun work => wanted requestedWorkIds work && work.isExpired nowMs

/-- A claim is announced if its leases have an end that can be written down, or if no
    lease has expired before. -/
theorem claimWork_announced (opts : RuntimeOptions) (s : RuntimeState T)
    (commandId workerId : String) (requestedWorkIds : List String)
    (limit leaseDurationMs : Option Nat)
    (h : nowMs + leaseDurationMs.getD opts.leaseDurationMs ≤ maxU64 ∨
      expiredWorks s requestedWorkIds nowMs = []) :
    Announced s
      (claimWork opts s commandId workerId requestedWorkIds limit leaseDurationMs nowMs) := by
  have hexpired (workIds : List String) := materializeAll_announced opts s workIds commandId nowMs
  simp only [claimWork]
  split
  · refine (hexpired _).with ?_
    split_ifs
    · rfl
    · exact reported_claimMissEvents opts _ commandId _ _ nowMs
  · split
    · rename_i events htime
      rcases h with hfits | hnone
      · rw [checkedTimestamp, if_pos hfits] at htime
        cases htime
      · -- Nothing had expired, so the state is the one before.
        have hsame : (s.works.values.filter fun work =>
            wanted requestedWorkIds work && work.isExpired nowMs) = [] := hnone
        rw [hsame]
        exact Announced.silent ⟨rfl, rfl, rfl⟩ (reported_checkedTimestamp htime)
    · refine Announced.with ((hexpired _).next (claimAll_announced opts _ commandId workerId _ _
        nowMs)) ?_
      split_ifs
      · rfl
      · exact reported_claimMissEvents opts _ commandId _ _ nowMs

/-- A command is announced, but for a claim that is refused with expired leases. -/
theorem dispatchQueueCommand_announced (opts : RuntimeOptions) (s : RuntimeState T)
    (commandId : String) (nowMs : Nat) {body : CommandBody T}
    (h : ∀ workerId requestedWorkIds limit leaseDurationMs,
      body = .claim workerId requestedWorkIds limit leaseDurationMs →
        nowMs + leaseDurationMs.getD opts.leaseDurationMs ≤ maxU64 ∨
          expiredWorks s requestedWorkIds nowMs = []) :
    Announced s (dispatchQueueCommand opts s commandId nowMs body) := by
  cases body with
  | submit => exact Announced.silent ⟨rfl, rfl, rfl⟩ rfl
  | claim workerId requestedWorkIds limit leaseDurationMs =>
    exact claimWork_announced opts s commandId workerId requestedWorkIds limit leaseDurationMs
      (h _ _ _ _ rfl)
  | renewLease workId lease leaseDurationMs leaseExpiresAtMs =>
    simp only [dispatchQueueCommand, renewLease]
    split
    · rename_i hrefused
      exact currentLease_announced hrefused
    · split
      · rename_i events htime
        refine Announced.silent ⟨rfl, rfl, rfl⟩ ?_
        cases leaseExpiresAtMs with
        | none => exact reported_checkedTimestamp htime
        | some value => cases htime
      · exact Announced.append opts _ _ ⟨rfl, rfl⟩ rfl
  | release workId lease reason =>
    simp only [dispatchQueueCommand, releaseWork]
    split
    · rename_i hrefused
      exact currentLease_announced hrefused
    · exact Announced.append opts _ _ ⟨rfl, rfl⟩ rfl
  | complete workId lease result =>
    simp only [dispatchQueueCommand, completeWork]
    split
    · rename_i hrefused
      exact currentLease_announced hrefused
    · exact Announced.pair ⟨rfl, rfl⟩ ⟨rfl, rfl⟩ rfl
  | fail workId lease error retryable =>
    simp only [dispatchQueueCommand, failWork]
    split
    · rename_i hrefused
      exact currentLease_announced hrefused
    · split
      · split
        · rename_i events htime
          exact Announced.silent ⟨rfl, rfl, rfl⟩ (reported_checkedTimestamp htime)
        · exact Announced.pair ⟨rfl, rfl⟩ ⟨rfl, rfl⟩ rfl
      · exact Announced.pair ⟨rfl, rfl⟩ ⟨rfl, rfl⟩ rfl
  | cancel workId reason =>
    simp only [dispatchQueueCommand, cancelWork]
    split
    · exact Announced.silent ⟨rfl, rfl, rfl⟩ rfl
    · split
      · exact Announced.silent ⟨rfl, rfl, rfl⟩ rfl
      · exact Announced.append opts _ _ ⟨rfl, rfl⟩ rfl
  | schedule workId scheduleId notBeforeMs deadlineMs reason =>
    simp only [dispatchQueueCommand, scheduleWork]
    split
    · exact Announced.silent ⟨rfl, rfl, rfl⟩ rfl
    · split_ifs
      · exact Announced.silent ⟨rfl, rfl, rfl⟩ rfl
      · exact Announced.silent ⟨rfl, rfl, rfl⟩ rfl
      · exact Announced.append opts _ _ ⟨rfl, rfl⟩ rfl
  | expireLeases workIds limit =>
    simp only [dispatchQueueCommand, expireLeases]
    split
    · exact Announced.silent ⟨rfl, rfl, rfl⟩ rfl
    · exact (materializeAll_announced opts s _ commandId nowMs).with rfl

/-! ### Overruns -/

/-- A claim that passes the checks finds a lease expired, and the leases it would issue end
    at a time past 64 bits. -/
def Overruns (opts : RuntimeOptions) (s : RuntimeState T) (command : WorkQueueCommand T)
    (nowMs : Nat) : Prop :=
  s.takes opts command = true ∧ ∃ workerId requestedWorkIds limit leaseDurationMs,
    command.body = .claim workerId requestedWorkIds limit leaseDurationMs ∧
      maxU64 < nowMs + leaseDurationMs.getD opts.leaseDurationMs ∧
      expiredWorks s requestedWorkIds nowMs ≠ []

variable {command : WorkQueueCommand T}

theorem limit_pos
    (h : s.takes opts command = true) {workerId : String} {requestedWorkIds : List String}
    {limit leaseDurationMs : Option Nat}
    (hbody : command.body = .claim workerId requestedWorkIds limit leaseDurationMs) :
    0 < limit.getD (max requestedWorkIds.length 1) := by
  have hvalid := takes_valid h
  rw [hbody, CommandBody.malformed] at hvalid
  split_ifs at hvalid with hworker hfields
  cases limit with
  | none =>
    rw [Option.getD_none]
    omega
  | some limit =>
    rw [Option.getD_some]
    refine Nat.pos_of_ne_zero fun hzero => hfields (Or.inl ?_)
    rw [hzero]

theorem claimCandidates_ne_nil {work : WorkState T}
    (hfound : s.works.lookup workId = some work) {requested : List String} {limit : Nat}
    (hwanted : wanted requested work = true) (hready : work.isReady nowMs = true)
    (hlimit : 0 < limit) : claimCandidates s requested limit nowMs ≠ [] := by
  have hin : work ∈ s.works.values.filter fun work =>
      wanted requested work && work.isReady nowMs := by
    rw [mem_filter, hwanted, hready]
    exact ⟨mem_map_of_mem (SortedMap.lookup_eq_some_iff.mp hfound), rfl⟩
  rw [claimCandidates, ne_eq, map_eq_nil_iff, take_eq_nil_iff, not_or]
  refine ⟨hlimit.ne', fun hnil => ?_⟩
  have hlength := congrArg List.length hnil
  rw [length_insertionSort, length_map, length_nil] at hlength
  rw [length_eq_zero_iff.mp hlength] at hin
  exact not_mem_nil hin

/-- The leases are taken away, and nothing of it is reported. -/
theorem overrun_silent (hkeyed : Keyed s.journal) (h : Overruns opts s command nowMs) :
    ¬ Announced s (reduceQueueCommand opts s command nowMs) := by
  obtain ⟨htakes, workerId, requested, limit, leaseDurationMs, hbody, hpast, hsome⟩ := h
  obtain ⟨work, hin⟩ := exists_mem_of_ne_nil _ hsome
  have hmem : work.workId ∈ (expiredWorks s requested nowMs).map (·.workId) :=
    mem_map_of_mem hin
  obtain ⟨_, hselected⟩ := selected_ids hkeyed fun work =>
    wanted requested work && work.isExpired nowMs
  obtain ⟨work', hlook, hboth⟩ := hselected work.workId hmem
  obtain ⟨hwanted, hexpired⟩ := Bool.and_eq_true_iff.mp hboth
  have hfound : s.works.lookup work.workId = some work' := hlook
  -- The lease is taken away first, and the work can be claimed.
  have hnote : Keyed (s.note command).journal := hkeyed
  have hback := materializeAll_lookup opts hnote
    ((expiredWorks s requested nowMs).map (·.workId)) command.commandId nowMs work.workId
  rw [if_pos hmem, show (s.note command).works.lookup work.workId = some work' from hfound,
    Option.map_some] at hback
  have hready : work'.handedBack.isReady nowMs = true := rfl
  have hwanted' : wanted requested work'.handedBack = true := hwanted
  have hcandidates := claimCandidates_ne_nil hback hwanted' hready (limit_pos htakes hbody)
  have hrefused : checkedTimestamp (T := T) opts (some command.commandId) nowMs
      (leaseDurationMs.getD opts.leaseDurationMs) "lease duration overflows timestamp" =
      .error (rejectQueueCommandById opts (some command.commandId) "clock-overflow"
        "lease duration overflows timestamp" nowMs) := if_neg (Nat.not_le_of_lt hpast)
  have heq : reduceQueueCommand opts s command nowMs =
      ((materializeAll opts (s.note command) ((expiredWorks s requested nowMs).map (·.workId))
          command.commandId nowMs).1,
        rejectQueueCommandById opts (some command.commandId) "clock-overflow"
          "lease duration overflows timestamp" nowMs) := by
    rw [reduceQueueCommand_taken htakes, hbody, dispatchQueueCommand, claimWork]
    refine (if_neg fun hempty => hcandidates (List.isEmpty_iff.mp hempty)).trans ?_
    rw [hrefused]
    rfl
  intro hannounced
  rw [heq] at hannounced
  have hworks := hannounced.quiet rfl
  rw [hworks, hfound, Option.some.injEq] at hback
  have hstate := congrArg WorkState.state hback
  rw [leased_of_expired hexpired] at hstate
  cases hstate

/-- In every state, the records a command is answered with are the records it has appended,
    in order and numbered on, unless it is a claim that takes away a lease and then has no
    time to give; and where works are kept under their own ids, such a claim is not announced.
    Every admission is announced. -/
theorem announced_iff (opts : RuntimeOptions) (s : RuntimeState T) :
    (∀ command nowMs, ¬ Overruns opts s command nowMs →
      Announced s (reduceQueueCommand opts s command nowMs)) ∧
    (Keyed s.journal → ∀ command nowMs, Overruns opts s command nowMs →
      ¬ Announced s (reduceQueueCommand opts s command nowMs)) ∧
    ∀ message nowMs, Announced s (admitMessage opts s message nowMs) := by
  refine ⟨fun command nowMs hnot => ?_, fun hkeyed command nowMs h => overrun_silent hkeyed h,
    fun message nowMs => admitMessage_announced opts s message nowMs⟩
  cases htakes : s.takes opts command with
  | false =>
    obtain ⟨code, message, heq⟩ := reduceQueueCommand_refused htakes nowMs
    rw [heq]
    exact Announced.silent ⟨rfl, rfl, rfl⟩ rfl
  | true =>
    have hcarried : Announced (s.note command)
        (dispatchQueueCommand opts (s.note command) command.commandId nowMs command.body) := by
      refine dispatchQueueCommand_announced opts _ command.commandId nowMs ?_
      intro workerId requested limit leaseDurationMs hbody
      by_cases hfits : nowMs + leaseDurationMs.getD opts.leaseDurationMs ≤ maxU64
      · exact Or.inl hfits
      · refine Or.inr ?_
        by_contra hsome
        exact hnot ⟨htakes, workerId, requested, limit, leaseDurationMs, hbody,
          Nat.lt_of_not_le hfits, hsome⟩
    rw [reduceQueueCommand_taken htakes]
    exact ⟨hcarried.appended, hcarried.counted, hcarried.numbered, hcarried.quiet⟩

/-! ### A hole in what is reported -/

/-- A queue with leases of ten milliseconds. -/
def shortLeases : RuntimeOptions :=
  { queueId := "q"
    subscriptionId := "s"
    leaseDurationMs := 10
    retry := { maxAttempts := 1, backoff := .none } }

/-- A claim of one work. -/
def claimAny (commandId : String) : WorkQueueCommand Nat :=
  { commandId := commandId
    queueId := none
    idempotencyKey := none
    body := .claim "worker" [] none none }

/-- The submit of a work. -/
def submitOne : MessageEnvelope (WorkQueueSubmit Nat) :=
  { topic := "works"
    seq := 1
    payload :=
      { payload := 7
        workId := some "w"
        priority := none
        tags := []
        requirements := []
        notBeforeMs := none
        deadlineMs := none }
    key := none
    timestampMs := 0
    commandId := none
    idempotencyKey := none }

/-- A work is admitted and leased. Another claim comes at the end of time: the lease has
    expired, and the third record, which says so, is not in the answer. -/
theorem expiry_is_not_reported :
    let s := queueRun shortLeases RuntimeState.default
      [.admission submitOne 0, .command (claimAny "first") 0]
    let r := reduceQueueCommand shortLeases s (claimAny "second") maxU64
    s.recordSeq = 2 ∧ r.1.recordSeq = 3 ∧ reported r.2 = [] ∧ ¬ Announced s r := by
  intro s r
  have hseq : s.recordSeq = 2 ∧ r.1.recordSeq = 3 ∧ (reported r.2).length = 0 := by decide +kernel
  refine ⟨hseq.1, hseq.2.1, length_eq_zero_iff.mp hseq.2.2, fun h => ?_⟩
  have hcounted := h.counted
  omega

end GraphRefly.WorkQueue
