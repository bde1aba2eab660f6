import GraphRefly.WorkQueue.Leases

/-!
# Works And Their Histories

What is known of a work at any time follows from what its records say, and each
step adds to the history of the works it is about. A property of a work and its
history is kept by a run if it is kept by every move: what the records of one
step, taken together, do to the one work they are about.

The moves are read off the entries a step writes, with all that decided them:
the time of the step, that a retry has attempts left, and the attempt that is
behind a lease that goes back.

## Main definitions

* `Move`: What the records of a step do to their work.
* `Tells`: A property of every work together with its history.
* `AtEvery`: A condition on the steps of a run, each in its own state.
* `Phase.next`: The life cycle of a work.

## Theorems

* `grounded_move`: Every grounded entry is a move of one work.
* `Tells.books`: What every move keeps, a series of entries keeps.
* `AtEvery.invariant`: What every step keeps, a run keeps.
* `histories_follow_life_cycle`: The records of a work are a walk through its life.
-/

namespace GraphRefly.WorkQueue

open List GraphRefly.Lib

variable {T : Type}

/-! ### Moves -/

/-- What the records of a step at some time do to the work they are about. -/
inductive Move (opts : RuntimeOptions) (nowMs : Nat) :
    Option (WorkState T) → List (RecordBody T) → WorkState T → Prop
  | admitted {workId : String} {payload : T} {messageBus : WorkQueueMessageBusRef}
      {priority : Option Int} {tags requirements : List String}
      {notBeforeMs deadlineMs : Option Nat} :
      Move opts nowMs none [.workAdmitted payload messageBus priority tags requirements
        notBeforeMs deadlineMs nowMs] (admittedWork workId payload messageBus priority tags
          requirements notBeforeMs deadlineMs nowMs)
  | deduped {work : WorkState T} {messageBus : WorkQueueMessageBusRef}
      {reason existingWorkId : String} :
      Move opts nowMs (some work) [.admissionDeduped messageBus reason existingWorkId nowMs] work
  | scheduled {work : WorkState T} (hopen : work.state.isTerminal = false)
      (hfree : work.state ≠ .leased) {commandId : String} {scheduleId : Option String}
      {notBeforeMs : Nat} {deadlineMs : Option Nat} {reason : Option String} :
      Move opts nowMs (some work)
        [.workScheduled commandId scheduleId notBeforeMs deadlineMs reason nowMs]
        { work with state := .scheduled, notBeforeMs := some notBeforeMs, deadlineMs := deadlineMs }
  | claimed {work : WorkState T} (hready : work.isReady nowMs = true) {commandId leaseId : String}
      {workerId : String} {leaseExpiresAtMs : Nat} :
      Move opts nowMs (some work)
        [.workClaimed commandId { leaseId, attempt := work.attempt + 1, workerId } nowMs
          leaseExpiresAtMs]
        { work with
          state := .leased
          attempt := work.attempt + 1
          leaseId := some leaseId
          workerId := some workerId
          leaseExpiresAtMs := some leaseExpiresAtMs }
  | renewed {work : WorkState T} (hleased : work.state = .leased) {commandId : String}
      {lease : LeaseRef} {previous leaseExpiresAtMs : Nat} :
      Move opts nowMs (some work)
        [.leaseRenewed commandId lease previous leaseExpiresAtMs nowMs]
        { work with leaseExpiresAtMs := some leaseExpiresAtMs }
  | returned {work : WorkState T} (hleased : work.state = .leased) {body : RecordBody T}
      {lease : LeaseRef} (hbody : body.returned = some lease)
      (hattempt : work.attempt = lease.attempt) :
      Move opts nowMs (some work) [body] work.handedBack
  | completed {work : WorkState T} (hleased : work.state = .leased) {commandId : String}
      {lease : LeaseRef} {result : Option String} :
      Move opts nowMs (some work) [.attemptCompleted commandId lease result nowMs,
        .workCompleted commandId lease result nowMs] ({ work with state := .completed }).clearLease
  | retried {work : WorkState T} (hleased : work.state = .leased)
      (hleft : work.attempt < opts.retry.maxAttempts) {commandId : String} {lease : LeaseRef}
      {error reason : Option String} {retryable : Option Bool} {delayMs : Nat} :
      Move opts nowMs (some work) [.attemptFailed commandId lease error retryable nowMs,
        .retryScheduled commandId (nowMs + delayMs) delayMs reason nowMs]
        ({ work with
          state := if delayMs > 0 then .retryWait else .ready
          retryAtMs := some (nowMs + delayMs) }).clearLease
  | givenUp {work : WorkState T} (hleased : work.state = .leased) {commandId reason : String}
      {lease : LeaseRef} {error : Option String} {retryable : Option Bool}
      {exhausted : Option Nat} :
      Move opts nowMs (some work) [.attemptFailed commandId lease error retryable nowMs,
        .workDeadLettered commandId reason exhausted nowMs]
        ({ work with state := .deadLettered }).clearLease
  | canceled {work : WorkState T} (hopen : work.state.isTerminal = false) {commandId : String}
      {reason leaseId : Option String} {attempt : Option Nat} :
      Move opts nowMs (some work) [.workCanceled commandId reason nowMs leaseId attempt]
        ({ work with state := .canceled }).clearLease

/-- Some entries are the move of one work. -/
def Moves (opts : RuntimeOptions) (nowMs : Nat) (j : Journal T) (entries : List (Entry T)) :
    Prop :=
  ∃ workId bodies after, entries = bodies.map (workId, ·) ∧
    (j.writeAll opts entries).works.lookup workId = some after ∧
    Move opts nowMs (j.works.lookup workId) bodies after

section Grounds

variable {opts : RuntimeOptions} {nowMs : Nat} {j : Journal T} {workId : String}
  {work after : WorkState T}

variable {body : RecordBody T}

theorem moves_one (hfound : j.works.lookup workId = some work)
    (hadmits : body.admits = false) (hafter : body.change work = after)
    (hmove : Move opts nowMs (some work) [body] after) : Moves opts nowMs j [(workId, body)] := by
  refine ⟨workId, [body], after, rfl, ?_, hfound ▸ hmove⟩
  have hlook := lookup_writeAll_self (j := j) opts workId (forall_mem_singleton.mpr hadmits)
  rw [hfound] at hlook
  rw [← hafter]
  exact hlook

theorem moves_pair {first second : RecordBody T} (hfound : j.works.lookup workId = some work)
    (hadmits : first.admits = false ∧ second.admits = false)
    (hafter : second.change (first.change work) = after)
    (hmove : Move opts nowMs (some work) [first, second] after) :
    Moves opts nowMs j [(workId, first), (workId, second)] := by
  refine ⟨workId, [first, second], after, rfl, ?_, hfound ▸ hmove⟩
  have hall : ∀ body ∈ [first, second], body.admits = false := by
    intro body hmem
    rcases mem_pair.mp hmem with rfl | rfl
    · exact hadmits.1
    · exact hadmits.2
  have hlook := lookup_writeAll_self (j := j) opts workId hall
  rw [hfound] at hlook
  rw [← hafter]
  exact hlook

variable {entries : List (Entry T)}

theorem Grounded.attempt (h : Grounded opts nowMs j entries) (hmem : (workId, body) ∈ entries)
    (hfound : j.works.lookup workId = some work) {lease : LeaseRef}
    (hbody : body.returned = some lease) :
    work.attempt = lease.attempt ∧ work.state = .leased := by
  rcases h.returned _ hmem lease hbody with ⟨work', hfound', hattempt, hleased⟩
  rw [hfound, Option.some.injEq] at hfound'
  rw [hfound']
  exact ⟨hattempt, hleased⟩

/-- Every grounded entry is a move of one work. -/
theorem grounded_move (h : Grounded opts nowMs j entries) :
    Moves opts nowMs j entries := by
  -- All records of a step name its time.
  have htime : ∀ entry ∈ entries, entry.2.recordedAt = nowMs := h.timed
  have hjust := h.justified
  cases hjust with
  | @admitted workId payload messageBus priority tags requirements notBeforeMs deadlineMs at_
    hnew =>
      obtain rfl : at_ = nowMs := htime _ mem_cons_self
      refine ⟨workId, [_], admittedWork workId payload messageBus priority tags requirements
        notBeforeMs deadlineMs at_, rfl, SortedMap.lookup_insert_self _ _ _, ?_⟩
      rw [hnew]
      exact Move.admitted
  | @deduped _ _ _ at_ _ hfound =>
    obtain rfl : at_ = nowMs := htime _ mem_cons_self
    exact moves_one hfound rfl rfl Move.deduped
  | @scheduled _ _ _ _ _ _ at_ _ hfound hopen hfree =>
    obtain rfl : at_ = nowMs := htime _ mem_cons_self
    exact moves_one hfound rfl rfl (Move.scheduled hopen hfree)
  | @claimed _ _ _ at_ _ _ hfound hready =>
    obtain rfl : at_ = nowMs := htime _ mem_cons_self
    exact moves_one hfound rfl rfl (Move.claimed hready)
  | @renewed _ _ _ _ _ at_ _ hholds =>
    obtain rfl : at_ = nowMs := htime _ mem_cons_self
    exact moves_one hholds.found rfl rfl (Move.renewed hholds.leased)
  | released hholds =>
    exact moves_one hholds.found rfl rfl (Move.returned hholds.leased rfl hholds.attempt)
  | expired hfound =>
    obtain ⟨hattempt, hleased⟩ := h.attempt mem_cons_self hfound rfl
    exact moves_one hfound rfl rfl (Move.returned hleased rfl hattempt)
  | @completed _ _ _ _ at_ _ hholds =>
    obtain rfl : at_ = nowMs := htime _ mem_cons_self
    exact moves_pair hholds.found ⟨rfl, rfl⟩ rfl (Move.completed hholds.leased)
  | @retried workId commandId lease error reason retryable retryAtMs delayMs at_ work hholds =>
    obtain rfl : at_ = nowMs := htime _ mem_cons_self
    obtain ⟨rfl, work', hfound, hleft⟩ := h.retried _
      (mem_cons_of_mem _ mem_cons_self) retryAtMs delayMs rfl
    rw [hholds.found, Option.some.injEq] at hfound
    rw [← hfound] at hleft
    exact moves_pair hholds.found ⟨rfl, rfl⟩ rfl (Move.retried hholds.leased hleft)
  | @givenUp _ _ _ _ _ _ _ at_ _ hholds =>
    obtain rfl : at_ = nowMs := htime _ mem_cons_self
    exact moves_pair hholds.found ⟨rfl, rfl⟩ rfl (Move.givenUp hholds.leased)
  | @canceled _ _ _ at_ _ _ _ hfound hopen =>
    obtain rfl : at_ = nowMs := htime _ mem_cons_self
    exact moves_one hfound rfl rfl (Move.canceled hopen)

end Grounds

/-! ### Histories -/

/-- A property of every work, or of none, together with what the log says of it. -/
def Tells (P : Option (WorkState T) → List (RecordBody T) → Prop) (j : Journal T) : Prop :=
  ∀ workId, P (j.works.lookup workId) (about workId j.entries)

variable {P : Option (WorkState T) → List (RecordBody T) → Prop} {opts : RuntimeOptions}
  {nowMs : Nat}

variable {j : Journal T}

theorem Tells.moves (h : Tells P j) {entries : List (Entry T)} (hmoves : Moves opts nowMs j entries)
    (hP : ∀ before bodies more after, Move opts nowMs before more after →
      (∀ body ∈ more, ∃ entry ∈ entries, entry.2 = body) → P before bodies →
        P (some after) (bodies ++ more)) :
    Tells P (j.writeAll opts entries) := by
  obtain ⟨workId, bodies, after, rfl, hafter, hmove⟩ := hmoves
  intro other
  have hlog : (j.writeAll opts (bodies.map (workId, ·))).entries =
      j.entries ++ bodies.map (workId, ·) := entries_writeAll j opts _
  rw [hlog, about_append]
  by_cases hother : other = workId
  · rw [hother, hafter, about_self]
    refine hP _ _ bodies after hmove (fun body hmem => ?_) (h workId)
    exact ⟨(workId, body), mem_map_of_mem hmem, rfl⟩
  · have hsame : (j.writeAll opts (bodies.map (workId, ·))).works.lookup other =
        j.works.lookup other := by
      refine lookup_writeAll opts fun entry hmem => ?_
      obtain ⟨body, _, rfl⟩ := mem_map.mp hmem
      exact Ne.symm hother
    rw [hsame, about_other hother, append_nil]
    exact h other

/-- What every move of some kind keeps, a series of entries of the kind keeps. -/
theorem Tells.books {kind : Entry T → Prop} {j' : Journal T} (hbooks : Books opts nowMs kind j j')
    (hP : ∀ before bodies more after, Move opts nowMs before more after →
      (∀ body ∈ more, ∃ workId, kind (workId, body)) → P before bodies →
        P (some after) (bodies ++ more)) (h : Tells P j) : Tells P j' := by
  refine hbooks.invariant (fun j entries hgrounded hkind htells => ?_) h
  refine htells.moves (grounded_move hgrounded) fun before bodies more after hmove hmem => ?_
  refine hP before bodies more after hmove fun body hbody => ?_
  obtain ⟨entry, hin, rfl⟩ := hmem body hbody
  exact ⟨entry.1, hkind entry hin⟩

/-! ### The life cycle -/

/-- Where a work stands. An attempt is settled between its outcome and what is
    made of it. -/
inductive Phase where
  | waiting
  | leased
  | settled (succeeded : Bool)
  | ended

/-- The life cycle of an admitted work that has been claimed so many times: its
    attempts are numbered as they are claimed, each is handed back, decided at
    once by its outcome, or canceled, and nothing follows the end but refused
    repeats of the admission. -/
def Phase.next : Phase × Nat → RecordBody T → Option (Phase × Nat)
  | at_, .admissionDeduped .. => some at_
  | (waiting, n), .workScheduled .. => some (waiting, n)
  | (waiting, n), .workClaimed _ lease _ _ =>
    if lease.attempt = n + 1 then some (leased, n + 1) else none
  | (leased, n), .leaseRenewed .. => some (leased, n)
  | (leased, n), .workReleased _ lease _ _ | (leased, n), .leaseExpired _ lease _ _ =>
    if lease.attempt = n then some (waiting, n) else none
  | (leased, n), .attemptCompleted .. => some (settled true, n)
  | (settled true, n), .workCompleted .. => some (ended, n)
  | (leased, n), .attemptFailed .. => some (settled false, n)
  | (settled false, n), .retryScheduled .. => some (waiting, n)
  | (settled false, n), .workDeadLettered .. => some (ended, n)
  | (waiting, n), .workCanceled .. | (leased, n), .workCanceled .. => some (ended, n)
  | _, _ => none

def WorkState.phase (work : WorkState T) : Phase :=
  match work.state with
  | .scheduled | .ready | .retryWait => .waiting
  | .leased => .leased
  | .completed | .canceled | .deadLettered => .ended

theorem phase_of_open {work : WorkState T} (hopen : work.state.isTerminal = false)
    (hfree : work.state ≠ .leased) : work.phase = .waiting := by
  unfold WorkState.phase
  cases hstate : work.state with
  | leased => exact absurd hstate hfree
  | completed | canceled | deadLettered =>
    rw [hstate] at hopen
    cases hopen
  | _ => rfl

theorem phase_of_leased {work : WorkState T} (hleased : work.state = .leased) :
    work.phase = .leased := by
  rw [WorkState.phase, hleased]

/-- A history follows the life cycle to where the work stands. -/
def Lives : Option (WorkState T) → List (RecordBody T) → Prop
  | none, bodies => bodies = []
  | some work, bodies => ∃ admitted rest, bodies = admitted :: rest ∧ admitted.admits = true ∧
    rest.foldlM Phase.next (.waiting, 0) = some (work.phase, work.attempt)

/-- Every move of a work is a walk through its life cycle. -/
theorem lives_move {before : Option (WorkState T)} {bodies more : List (RecordBody T)}
    {after : WorkState T} (hmove : Move opts nowMs before more after) (h : Lives before bodies) :
    Lives (some after) (bodies ++ more) := by
  cases before with
  | none =>
    cases h
    cases hmove
    refine ⟨_, [], rfl, rfl, ?_⟩
    rw [foldlM_nil, WorkState.phase, admittedWork]
    dsimp only
    split_ifs <;> rfl
  | some work =>
    rcases h with ⟨admitted, rest, rfl, hadmits, hrest⟩
    refine ⟨admitted, rest ++ more, rfl, hadmits, ?_⟩
    rw [foldlM_append, hrest]
    cases hmove with
    | deduped => rfl
    | scheduled hopen hfree =>
      rw [phase_of_open hopen hfree]
      rfl
    | claimed hready =>
      rw [phase_of_open (open_of_ready hready).1 (open_of_ready hready).2]
      simp [Phase.next, WorkState.phase]
    | renewed hleased =>
      rw [phase_of_leased hleased]
      exact congrArg (fun p => some (p, work.attempt)) (phase_of_leased hleased).symm
    | @returned _ hleased body lease hbody hattempt =>
      rw [phase_of_leased hleased]
      have hback : work.handedBack.phase = .waiting := rfl
      have hsame : work.handedBack.attempt = lease.attempt := hattempt
      cases body <;> cases hbody <;> simp [Phase.next, hattempt, hback, hsame]
    | completed hleased | givenUp hleased =>
      rw [phase_of_leased hleased]
      rfl
    | retried hleased =>
      rw [phase_of_leased hleased]
      split_ifs <;> rfl
    | canceled hopen =>
      by_cases hleased : work.state = .leased
      · rw [phase_of_leased hleased]
        rfl
      · rw [phase_of_open hopen hleased]
        rfl

/-! ### Runs under a condition -/

/-- A condition holds at every step of a run, each in the state it is taken in. -/
def AtEvery (cond : RuntimeState T → QueueStep T → Prop) (opts : RuntimeOptions) :
    RuntimeState T → List (QueueStep T) → Prop
  | _, [] => True
  | s, step :: steps => cond s step ∧ AtEvery cond opts (queueStep opts s step).1 steps

variable {s : RuntimeState T}

theorem queueStep_keyed (opts : RuntimeOptions) (h : Keyed s.journal)
    (step : QueueStep T) : Keyed (queueStep opts s step).1.journal :=
  (queueStep_writes opts h step).keyed h

/-- What every step that meets the condition keeps, a run keeps. -/
theorem AtEvery.invariant {cond : RuntimeState T → QueueStep T → Prop} {inv : Journal T → Prop}
    (hstep : ∀ s step, Keyed s.journal → cond s step → inv s.journal →
      inv (queueStep opts s step).1.journal) {steps : List (QueueStep T)}
    (h : AtEvery cond opts s steps) (hkeyed : Keyed s.journal) (hinv : inv s.journal) :
    inv (queueRun opts s steps).journal := by
  induction steps generalizing s with
  | nil => exact hinv
  | cons step steps ih =>
    exact ih h.2 (queueStep_keyed opts hkeyed step) (hstep s step hkeyed h.1 hinv)

/-- In every run, the records of each admitted work follow the life cycle to
    where the work stands, and there are none of other works. -/
theorem histories_follow_life_cycle (opts : RuntimeOptions) (steps : List (QueueStep T)) :
    Tells Lives (queueRun opts RuntimeState.default steps).journal := by
  have hall : ∀ s, AtEvery (fun (_ : RuntimeState T) _ => True) opts s steps := by
    induction steps with
    | nil => exact fun _ => trivial
    | cons step steps ih => exact fun s => ⟨trivial, ih _⟩
  refine (hall _).invariant ?_ keyed_default fun _ => rfl
  intro s step hkeyed _ h
  refine Tells.books (queueStep_books opts hkeyed step) ?_ h
  intro before bodies more after hmove _ hlives
  exact lives_move hmove hlives

end GraphRefly.WorkQueue
