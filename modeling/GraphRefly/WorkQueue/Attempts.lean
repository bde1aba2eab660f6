import GraphRefly.WorkQueue.Announced
import GraphRefly.WorkQueue.History

/-!
# The Limit On Attempts

An attempt is counted when a work is claimed. The limit is looked at when an
attempt fails: the work is retried while attempts are left, and given up
otherwise. A work may also come back without a failure, when its lease is
released or has expired, and there the limit is not looked at. So a work whose
last attempt ends in a crash of its worker is handed out again, with an attempt
past the limit.

Where no work comes back in this way from its last attempt, the limit holds in
every run. The invariant is that an open work has an attempt left unless it is
leased.

## Main definitions

* `RecordBody.attemptClaimed`: The attempt a record starts.
* `QueueStep.exhausts`: A work comes back from its last attempt, and has not failed.
* `WithinLimit`: The invariant.

## Theorems

* `withinLimit_move`: What a move keeps.
* `attempts_within_limit`: No run goes past the limit unless a work comes back so.
* `expired_last_attempt`: One that does.
-/

namespace GraphRefly.WorkQueue

open List GraphRefly.Lib

variable {T : Type}

/-- The attempt a record starts. -/
def RecordBody.attemptClaimed : RecordBody T → Option Nat
  | workClaimed _ lease _ _ => some lease.attempt
  | _ => none

/-- A step takes the lease of the last attempt away from some work, by a release or because
    it has expired. -/
def QueueStep.exhausts (opts : RuntimeOptions) (s : RuntimeState T) (step : QueueStep T) : Bool :=
  s.works.values.any fun work =>
    decide (opts.retry.maxAttempts ≤ work.attempt) && step.returns opts s work

/-- A work has had at most the attempts it may have, and an open one has one left unless it
    is leased; no record of it starts an attempt past the limit. -/
def WithinLimit (maxAttempts : Nat) (work : Option (WorkState T)) (bodies : List (RecordBody T)) :
    Prop :=
  (∀ w, work = some w → w.attempt ≤ maxAttempts ∧
    (w.state.isTerminal = false → w.state ≠ .leased → w.attempt < maxAttempts)) ∧
    ∀ body ∈ bodies, ∀ attempt, body.attemptClaimed = some attempt → attempt ≤ maxAttempts

section Limit

variable {maxAttempts : Nat} {before : Option (WorkState T)} {bodies more : List (RecordBody T)}

variable {after : WorkState T}

theorem WithinLimit.extend (h : WithinLimit maxAttempts before bodies)
    (hquiet : ∀ body ∈ more, body.attemptClaimed = none) (hattempt : after.attempt ≤ maxAttempts)
    (hleft : after.state.isTerminal = false → after.state ≠ .leased →
      after.attempt < maxAttempts) :
    WithinLimit maxAttempts (some after) (bodies ++ more) := by
  refine ⟨fun w hw => ?_, fun body hmem attempt hclaimed => ?_⟩
  · rw [← Option.some.inj hw]
    exact ⟨hattempt, hleft⟩
  · rcases mem_append.mp hmem with hmem | hmem
    · exact h.2 body hmem attempt hclaimed
    · rw [hquiet body hmem] at hclaimed
      exact absurd hclaimed.symm (Option.some_ne_none attempt)

/-- A move keeps the limit, if a lease it returns is not of the last attempt. -/
theorem withinLimit_move {opts : RuntimeOptions} {nowMs : Nat}
    (hsome : 0 < opts.retry.maxAttempts) (hmove : Move opts nowMs before more after)
    (hback : ∀ body ∈ more, ∀ lease, body.returned = some lease →
      lease.attempt < opts.retry.maxAttempts)
    (h : WithinLimit opts.retry.maxAttempts before bodies) :
    WithinLimit opts.retry.maxAttempts (some after) (bodies ++ more) := by
  cases hmove with
  | admitted =>
    refine h.extend (forall_mem_singleton.mpr rfl) (Nat.zero_le _) fun _ _ => ?_
    exact hsome
  | deduped =>
    obtain ⟨hattempt, hleft⟩ := h.1 after rfl
    exact h.extend (forall_mem_singleton.mpr rfl) hattempt hleft
  | @scheduled work hopen hfree =>
    obtain ⟨hattempt, hleft⟩ := h.1 work rfl
    exact h.extend (forall_mem_singleton.mpr rfl) hattempt fun _ _ => hleft hopen hfree
  | @claimed work hready =>
    -- A work that may be claimed has an attempt left, and this is the one it takes.
    obtain ⟨hopen, hfree⟩ := open_of_ready hready
    have hleft : work.attempt + 1 ≤ opts.retry.maxAttempts := (h.1 work rfl).2 hopen hfree
    refine ⟨fun w hw => ?_, fun body hmem attempt hclaimed => ?_⟩
    · rw [← Option.some.inj hw]
      exact ⟨hleft, fun _ hne => absurd rfl hne⟩
    · rcases mem_append.mp hmem with hmem | hmem
      · exact h.2 body hmem attempt hclaimed
      · rw [mem_singleton.mp hmem] at hclaimed
        rw [← Option.some.inj hclaimed]
        exact hleft
  | @renewed work hleased =>
    obtain ⟨hattempt, hleft⟩ := h.1 work rfl
    exact h.extend (forall_mem_singleton.mpr rfl) hattempt hleft
  | @returned work hleased body lease hbody hattempt =>
    have hlt : work.attempt < opts.retry.maxAttempts := by
      rw [hattempt]
      exact hback body mem_cons_self lease hbody
    have hquiet : body.attemptClaimed = none := by
      cases body with
      | workClaimed => cases hbody
      | _ => rfl
    exact h.extend (forall_mem_singleton.mpr hquiet) hlt.le fun _ _ => hlt
  | @completed work hleased =>
    refine h.extend (fun body hmem => ?_) (h.1 work rfl).1 fun hopen _ => ?_
    · rcases mem_pair.mp hmem with rfl | rfl <;> rfl
    · cases hopen
  | @retried work hleased hleft =>
    refine h.extend (fun body hmem => ?_) hleft.le fun _ _ => hleft
    rcases mem_pair.mp hmem with rfl | rfl <;> rfl
  | @givenUp work hleased =>
    refine h.extend (fun body hmem => ?_) (h.1 work rfl).1 fun hopen _ => ?_
    · rcases mem_pair.mp hmem with rfl | rfl <;> rfl
    · cases hopen
  | @canceled work =>
    refine h.extend (forall_mem_singleton.mpr rfl) (h.1 work rfl).1 fun hopen _ => ?_
    cases hopen

end Limit

variable {opts : RuntimeOptions} {s : RuntimeState T} {step : QueueStep T}

theorem returned_below (h : step.exhausts opts s = false) {end_ : Option Nat} {entry : Entry T}
    (htold : Says s.journal (fun work => step.returns opts s work = true) end_ entry)
    {lease : LeaseRef} (hlease : entry.2.returned = some lease) :
    lease.attempt < opts.retry.maxAttempts := by
  rcases htold.returned lease hlease with ⟨work, hfound, hattempt, hreturns⟩
  by_contra hlast
  have hin : work ∈ s.works.values := mem_map_of_mem (SortedMap.lookup_eq_some_iff.mp hfound)
  have hnone := any_eq_false.mp h work hin
  rw [hreturns, Bool.and_true, decide_eq_true_eq] at hnone
  omega

theorem queueStep_withinLimit (hsome : 0 < opts.retry.maxAttempts) (hkeyed : Keyed s.journal)
    (hstep : step.exhausts opts s = false)
    (h : Tells (WithinLimit opts.retry.maxAttempts) s.journal) :
    Tells (WithinLimit opts.retry.maxAttempts) (queueStep opts s step).1.journal := by
  refine Tells.books (queueStep_books opts hkeyed step) ?_ h
  intro before bodies more after hmove htold hwithin
  refine withinLimit_move hsome hmove (fun body hmem lease hlease => ?_) hwithin
  rcases htold body hmem with ⟨workId, hentry⟩
  exact returned_below hstep hentry hlease

/-- Every run in which no work comes back, without having failed, from its last attempt:
    no record starts an attempt past the limit. -/
theorem attempts_within_limit (opts : RuntimeOptions) (hsome : 0 < opts.retry.maxAttempts)
    (steps : List (QueueStep T))
    (hsteps : AtEvery (fun s step => step.exhausts opts s = false) opts RuntimeState.default
      steps) :
    ∀ record ∈ (queueRun opts RuntimeState.default steps).records, ∀ attempt,
      record.body.attemptClaimed = some attempt → attempt ≤ opts.retry.maxAttempts := by
  have hinv : Tells (WithinLimit opts.retry.maxAttempts)
      (queueRun opts RuntimeState.default steps).journal := by
    refine hsteps.invariant (fun s step hkeyed hstep h => ?_) keyed_default ?_
    · exact queueStep_withinLimit hsome hkeyed hstep h
    · intro workId
      exact ⟨fun w hw => absurd hw.symm (Option.some_ne_none w),
        fun body hmem => absurd hmem not_mem_nil⟩
  intro record hmem attempt hclaimed
  have habout : record.body ∈ about record.workId
      (queueRun opts RuntimeState.default steps).journal.entries := by
    refine mem_map.mpr ⟨record.entry, mem_filter.mpr ⟨?_, decide_eq_true rfl⟩, rfl⟩
    exact mem_map_of_mem hmem
  exact (hinv record.workId).2 record.body habout attempt hclaimed

/-- Two attempts are allowed. -/
def twoTries : RuntimeOptions :=
  { shortLeases with retry := { maxAttempts := 2, backoff := .none } }

/-- The worker of the first claim gives up its attempt. -/
def failFirst : WorkQueueCommand Nat :=
  { commandId := "failed"
    queueId := none
    idempotencyKey := none
    body := .fail "w" { leaseId := leaseIdFor "w" 1, attempt := 1, workerId := "worker" } none
      none }

/-- A work that fails once and is claimed again. -/
def failedOnce : List (QueueStep Nat) :=
  [.admission submitOne 0, .command (claimAny "first") 0, .command failFirst 5,
    .command (claimAny "second") 6]

theorem attempts_within_limit_failedOnce :
    (∀ record ∈ (queueRun twoTries RuntimeState.default failedOnce).records, ∀ attempt,
      record.body.attemptClaimed = some attempt → attempt ≤ 2) ∧
    (queueRun twoTries RuntimeState.default failedOnce).records.filterMap
      (·.body.attemptClaimed) = [1, 2] := by
  have hsteps : AtEvery (fun s step => step.exhausts twoTries s = false) twoTries
      RuntimeState.default failedOnce := by
    refine ⟨?_, ?_, ?_, ?_, trivial⟩ <;> decide +kernel
  exact ⟨attempts_within_limit twoTries (by decide) failedOnce hsteps, by decide +kernel⟩

/-! ### A crash in the last attempt -/

/-- One attempt is allowed. The worker lets its lease run out, and the next claim takes the
    lease away and starts a second attempt. -/
theorem expired_last_attempt :
    ¬ ∀ record ∈ (queueRun shortLeases RuntimeState.default
        [.admission submitOne 0, .command (claimAny "first") 0,
          .command (claimAny "second") 10]).records,
      ∀ attempt, record.body.attemptClaimed = some attempt →
        attempt ≤ shortLeases.retry.maxAttempts := by
  decide +kernel

end GraphRefly.WorkQueue
