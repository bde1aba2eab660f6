import GraphRefly.WorkQueue.Queue

/-!
# What a Command Writes

The state of a queue changes only together with its log. This module says once
what a record does to the works, and shows that every admission and every
command is a series of entries written one after another, each of which is
justified by the state it is written in. The properties of whole runs are read
off these entries.

Some entries come in pairs: an attempt is completed together with its work, and
a failed attempt is followed by a retry or by giving the work up. A pair is
justified in the state before its first entry.

## Main definitions

* `applyRecord`: What a record does to the works.
* `Journal`: The log of a queue and all that changes with it.
* `Journal.write`, `Journal.writeAll`: Writing entries.
* `Holds`: A lease is the current one.
* `Justified`: The state an entry may be written in.
* `Writes`, `Written`: A series of justified entries, and at most one.
* `Grounded`: A justified entry, with its time and what a retry or a return says.
* `Books`, `Booked`: A series of grounded entries, and at most one.
* `QueueStep.returns`: The works whose lease a step takes away.

## Theorems

* `claimWork_books`, `failWork_booked` and the others: What each command writes.
* `reduceQueueCommand_writes`: What a command writes, and in whose name.
* `queueStep_books`: What a step writes, when, and which leases it returns.
* `queueRun_writes`: Every run is a series of justified entries.
-/

namespace GraphRefly.WorkQueue

open List GraphRefly.Lib GraphRefly.Messaging

variable {T : Type}

/-! ### Records and works -/

/-- Change a work, if there is one. -/
def updateWork (works : SortedMap String (WorkState T)) (workId : String)
    (change : WorkState T → WorkState T) : SortedMap String (WorkState T) :=
  match works.lookup workId with
  | none => works
  | some work => works.insert workId (change work)

/-- A work as its admission record describes it. -/
def admittedWork (workId : String) (payload : T) (messageBus : WorkQueueMessageBusRef)
    (priority : Option Int) (tags requirements : List String)
    (notBeforeMs deadlineMs : Option Nat) (recordedAtMs : Nat) : WorkState T :=
  { workId := workId
    payload := payload
    state := if notBeforeMs.any fun t => decide (t > recordedAtMs) then .scheduled else .ready
    admissionSeq := messageBus.seq
    priority := priority
    tags := tags
    requirements := requirements
    notBeforeMs := notBeforeMs
    retryAtMs := none
    deadlineMs := deadlineMs
    attempt := 0
    leaseId := none
    workerId := none
    leaseExpiresAtMs := none }

/-- What a record says of a work that exists. An admission says everything of a new
    one, and some records say nothing. -/
def RecordBody.change : RecordBody T → WorkState T → WorkState T
  | workAdmitted .., w | admissionDeduped .., w | attemptCompleted .., w | attemptFailed .., w => w
  | workScheduled _ _ notBeforeMs deadlineMs _ _, w =>
    { w with state := .scheduled, notBeforeMs := some notBeforeMs, deadlineMs := deadlineMs }
  | workClaimed _ lease _ leaseExpiresAtMs, w =>
    { w with
      state := .leased
      attempt := lease.attempt
      leaseId := some lease.leaseId
      workerId := some lease.workerId
      leaseExpiresAtMs := some leaseExpiresAtMs }
  | leaseRenewed _ _ _ leaseExpiresAtMs _, w => { w with leaseExpiresAtMs := some leaseExpiresAtMs }
  | workReleased .., w | leaseExpired .., w => ({ w with state := .ready }).clearLease
  | workCompleted .., w => ({ w with state := .completed }).clearLease
  | retryScheduled _ retryAtMs delayMs _ _, w =>
    ({ w with
      state := if delayMs > 0 then .retryWait else .ready
      retryAtMs := some retryAtMs }).clearLease
  | workDeadLettered .., w => ({ w with state := .deadLettered }).clearLease
  | workCanceled .., w => ({ w with state := .canceled }).clearLease

/-- What a record does to the works. -/
def applyRecord (works : SortedMap String (WorkState T)) (record : WorkQueueRecord T) :
    SortedMap String (WorkState T) :=
  match record.body with
  | .workAdmitted payload messageBus priority tags requirements notBeforeMs deadlineMs at_ =>
    works.insert record.workId (admittedWork record.workId payload messageBus priority tags
      requirements notBeforeMs deadlineMs at_)
  | .admissionDeduped .. | .attemptCompleted .. | .attemptFailed .. => works
  | body => updateWork works record.workId body.change

def WorkQueueRecord.isDeadLetter (record : WorkQueueRecord T) : Bool :=
  match record.body with
  | .workDeadLettered .. => true
  | _ => false

/-- The leases a record issues. -/
def RecordBody.leasesIssued : RecordBody T → Nat
  | workClaimed .. => 1
  | _ => 0

/-! ### Entries -/

/-- The log of a queue and all that changes with it. What is left out are the sets
    against repetition. -/
structure Journal (T : Type) where
  recordSeq : Nat
  leaseSeq : Nat
  works : SortedMap String (WorkState T)
  records : List (WorkQueueRecord T)
  deadLetters : List (WorkQueueRecord T)

def RuntimeState.journal (s : RuntimeState T) : Journal T :=
  { recordSeq := s.recordSeq
    leaseSeq := s.leaseSeq
    works := s.works
    records := s.records
    deadLetters := s.deadLetters }

/-- An entry of the log before it is numbered: the work and what is said of it. -/
abbrev Entry (T : Type) : Type := String × RecordBody T

/-- The record of an entry written next. -/
def Journal.nextRecord (j : Journal T) (opts : RuntimeOptions) (entry : Entry T) :
    WorkQueueRecord T :=
  { recordSeq := j.recordSeq + 1, queueId := opts.queueId, workId := entry.1, body := entry.2 }

/-- Write an entry: the record is appended, and the works follow it. -/
def Journal.write (j : Journal T) (opts : RuntimeOptions) (entry : Entry T) : Journal T :=
  let record := j.nextRecord opts entry
  { recordSeq := j.recordSeq + 1
    leaseSeq := j.leaseSeq + entry.2.leasesIssued
    works := applyRecord j.works record
    records := j.records ++ [record]
    deadLetters := if record.isDeadLetter then j.deadLetters ++ [record] else j.deadLetters }

/-- Write some entries in order. -/
def Journal.writeAll (j : Journal T) (opts : RuntimeOptions) : List (Entry T) → Journal T
  | [] => j
  | entry :: entries => (j.write opts entry).writeAll opts entries

/-- The lease is the current one of the work, and has not come to its end. -/
structure Holds (j : Journal T) (workId : String) (lease : LeaseRef) (nowMs : Nat)
    (work : WorkState T) : Prop where
  found : j.works.lookup workId = some work
  leased : work.state = .leased
  leaseId : work.leaseId = some lease.leaseId
  attempt : work.attempt = lease.attempt
  workerId : work.workerId = some lease.workerId
  unexpired : work.isExpired nowMs = false

/-- The state in which an entry, or a pair of entries, may be written. -/
inductive Justified (j : Journal T) : List (Entry T) → Prop
  | admitted {workId : String} {payload : T} {messageBus : WorkQueueMessageBusRef}
      {priority : Option Int} {tags requirements : List String}
      {notBeforeMs deadlineMs : Option Nat} {nowMs : Nat}
      (hnew : j.works.lookup workId = none) :
      Justified j [(workId, .workAdmitted payload messageBus priority tags requirements
        notBeforeMs deadlineMs nowMs)]
  | deduped {workId : String} {messageBus : WorkQueueMessageBusRef} {reason : String} {nowMs : Nat}
      {work : WorkState T} (hfound : j.works.lookup workId = some work) :
      Justified j [(workId, .admissionDeduped messageBus reason workId nowMs)]
  | scheduled {workId commandId : String} {scheduleId : Option String} {notBeforeMs : Nat}
      {deadlineMs : Option Nat} {reason : Option String} {nowMs : Nat} {work : WorkState T}
      (hfound : j.works.lookup workId = some work) (hopen : work.state.isTerminal = false)
      (hfree : work.state ≠ .leased) :
      Justified j [(workId, .workScheduled commandId scheduleId notBeforeMs deadlineMs
        reason nowMs)]
  | claimed {workId commandId workerId : String} {nowMs leaseExpiresAtMs : Nat} {work : WorkState T}
      (hfound : j.works.lookup workId = some work) (hready : work.isReady nowMs = true) :
      Justified j [(workId, .workClaimed commandId
        { leaseId := leaseIdFor work.workId (j.leaseSeq + 1)
          attempt := work.attempt + 1
          workerId := workerId } nowMs leaseExpiresAtMs)]
  | renewed {workId commandId : String} {lease : LeaseRef} {previous next nowMs : Nat}
      {work : WorkState T} (hholds : Holds j workId lease nowMs work) :
      Justified j [(workId, .leaseRenewed commandId lease previous next nowMs)]
  | released {workId commandId : String} {lease : LeaseRef} {reason : Option String} {nowMs : Nat}
      {work : WorkState T} (hholds : Holds j workId lease nowMs work) :
      Justified j [(workId, .workReleased commandId lease nowMs reason)]
  | expired {workId : String} {commandId : Option String} {lease : LeaseRef} {end_ nowMs : Nat}
      {work : WorkState T} (hfound : j.works.lookup workId = some work)
      (hexpired : work.isExpired nowMs = true) :
      Justified j [(workId, .leaseExpired commandId lease end_ nowMs)]
  | completed {workId commandId : String} {lease : LeaseRef} {result : Option String} {nowMs : Nat}
      {work : WorkState T} (hholds : Holds j workId lease nowMs work) :
      Justified j [(workId, .attemptCompleted commandId lease result nowMs),
        (workId, .workCompleted commandId lease result nowMs)]
  | retried {workId commandId : String} {lease : LeaseRef} {error reason : Option String}
      {retryable : Option Bool} {retryAtMs delayMs nowMs : Nat} {work : WorkState T}
      (hholds : Holds j workId lease nowMs work) :
      Justified j [(workId, .attemptFailed commandId lease error retryable nowMs),
        (workId, .retryScheduled commandId retryAtMs delayMs reason nowMs)]
  | givenUp {workId commandId reason : String} {lease : LeaseRef} {error : Option String}
      {retryable : Option Bool} {exhausted : Option Nat} {nowMs : Nat} {work : WorkState T}
      (hholds : Holds j workId lease nowMs work) :
      Justified j [(workId, .attemptFailed commandId lease error retryable nowMs),
        (workId, .workDeadLettered commandId reason exhausted nowMs)]
  | canceled {workId commandId : String} {reason : Option String} {nowMs : Nat}
      {leaseId : Option String} {attempt : Option Nat} {work : WorkState T}
      (hfound : j.works.lookup workId = some work) (hopen : work.state.isTerminal = false) :
      Justified j [(workId, .workCanceled commandId reason nowMs leaseId attempt)]

/-- The time a record names. -/
def RecordBody.recordedAt : RecordBody T → Nat
  | workAdmitted _ _ _ _ _ _ _ at_ | admissionDeduped _ _ _ at_ | workScheduled _ _ _ _ _ at_
  | workClaimed _ _ at_ _ | leaseRenewed _ _ _ _ at_ | workReleased _ _ at_ _
  | leaseExpired _ _ _ at_ | attemptCompleted _ _ _ at_ | workCompleted _ _ _ at_
  | attemptFailed _ _ _ _ at_ | retryScheduled _ _ _ _ at_ | workDeadLettered _ _ _ at_
  | workCanceled _ _ at_ _ _ => at_

/-- The time of a retry, and how far off it is. -/
def RecordBody.retry : RecordBody T → Option (Nat × Nat)
  | retryScheduled _ retryAtMs delayMs _ _ => some (retryAtMs, delayMs)
  | _ => none

/-- The lease a record takes from its work without an outcome. -/
def RecordBody.returned : RecordBody T → Option LeaseRef
  | workReleased _ lease _ _ | leaseExpired _ lease _ _ => some lease
  | _ => none

/-- The end a record gives the lease it issues or renews. -/
def RecordBody.leaseEnd : RecordBody T → Option Nat
  | workClaimed _ _ _ leaseExpiresAtMs | leaseRenewed _ _ _ leaseExpiresAtMs _ =>
    some leaseExpiresAtMs
  | _ => none

/-- A lease that an entry returns is the lease of a work of some kind. -/
def ReturnedFrom (j : Journal T) (kind : WorkState T → Prop) (entry : Entry T) : Prop :=
  ∀ lease, entry.2.returned = some lease →
    ∃ work, j.works.lookup entry.1 = some work ∧ work.attempt = lease.attempt ∧ kind work

/-- What an entry says of leases: whose it returns, and the end it gives them. -/
structure Says (j : Journal T) (of : WorkState T → Prop) (end_ : Option Nat) (entry : Entry T) :
    Prop where
  returned : ReturnedFrom j of entry
  ends : ∀ time, entry.2.leaseEnd = some time → end_ = some time

/-- A justified entry or pair, and what it says beyond that: the time of the step, and
    that a retry comes after its delay and to a work with attempts left. -/
structure Grounded (opts : RuntimeOptions) (nowMs : Nat) (j : Journal T)
    (entries : List (Entry T)) : Prop where
  justified : Justified j entries
  timed : ∀ entry ∈ entries, entry.2.recordedAt = nowMs
  retried : ∀ entry ∈ entries, ∀ retryAtMs delayMs, entry.2.retry = some (retryAtMs, delayMs) →
    retryAtMs = nowMs + delayMs ∧ ∃ work, j.works.lookup entry.1 = some work ∧
      work.attempt < opts.retry.maxAttempts
  returned : ∀ entry ∈ entries, ReturnedFrom j (fun work => work.state = .leased) entry

/-- The lease by which a record was written, and the time of it. The records of
    nobody's lease have none. -/
def RecordBody.holder : RecordBody T → Option (LeaseRef × Nat)
  | leaseRenewed _ lease _ _ at_ | workReleased _ lease at_ _
  | attemptCompleted _ lease _ at_ | attemptFailed _ lease _ _ at_ => some (lease, at_)
  | _ => none

/-- The entry is an admission of a message. -/
def AdmissionOf (source : WorkQueueMessageBusRef) (entry : Entry T) : Prop :=
  entry.2.holder = none ∧ entry.2.admissionMessageBus = some source

/-- The entry is written by nobody's lease, and is no admission. -/
def Unheld (entry : Entry T) : Prop :=
  entry.2.holder = none ∧ entry.2.admissionMessageBus = none

/-- The entry is written by nobody's lease, or by this one, and is no admission. -/
def HeldBy (workId : String) (lease : LeaseRef) (nowMs : Nat) (entry : Entry T) : Prop :=
  (∀ by_, entry.2.holder = some by_ → entry.1 = workId ∧ by_ = (lease, nowMs)) ∧
    entry.2.admissionMessageBus = none

/-- A series of justified entries of some kind. -/
inductive Writes (opts : RuntimeOptions) (kind : Entry T → Prop) : Journal T → Journal T → Prop
  | refl (j : Journal T) : Writes opts kind j j
  | tail {j mid : Journal T} {entries : List (Entry T)} (hbefore : Writes opts kind j mid)
      (hjust : Justified mid entries) (hkind : ∀ entry ∈ entries, kind entry) :
      Writes opts kind j (mid.writeAll opts entries)

section Series

variable {opts : RuntimeOptions} {kind kind' : Entry T → Prop}

theorem Writes.trans {a b c : Journal T} (h : Writes opts kind a b) (h' : Writes opts kind b c) :
    Writes opts kind a c := by
  induction h' with
  | refl => exact h
  | tail _ hjust hkind ih => exact ih.tail hjust hkind

variable {j j' : Journal T}

theorem Writes.mono (hle : ∀ entry, kind entry → kind' entry)
    (h : Writes opts kind j j') : Writes opts kind' j j' := by
  induction h with
  | refl => exact Writes.refl _
  | tail _ hjust hkind ih => exact ih.tail hjust fun entry hmem => hle entry (hkind entry hmem)

variable {inv : Journal T → Prop}

theorem Writes.invariant
    (hstep : ∀ j entries, Justified j entries → inv j → inv (j.writeAll opts entries))
    (h : Writes opts kind j j') (hj : inv j) : inv j' := by
  induction h with
  | refl => exact hj
  | tail _ hjust _ ih => exact hstep _ _ hjust ih

/-- At most one justified entry or pair. -/
def Written (opts : RuntimeOptions) (kind : Entry T → Prop) (j j' : Journal T) : Prop :=
  j' = j ∨ ∃ entries, Justified j entries ∧ (∀ entry ∈ entries, kind entry) ∧
    j' = j.writeAll opts entries

theorem Written.same (j : Journal T) : Written opts kind j j := Or.inl rfl

theorem Written.writes (h : Written opts kind j j') :
    Writes opts kind j j' := by
  rcases h with rfl | ⟨entries, hjust, hkind, rfl⟩
  · exact Writes.refl j'
  · exact (Writes.refl j).tail hjust hkind

theorem Written.mono (hle : ∀ entry, kind entry → kind' entry)
    (h : Written opts kind j j') : Written opts kind' j j' := by
  rcases h with rfl | ⟨entries, hjust, hkind, rfl⟩
  · exact Written.same j'
  · exact Or.inr ⟨entries, hjust, fun entry hmem => hle entry (hkind entry hmem), rfl⟩

/-- A series of grounded entries of some kind. -/
inductive Books (opts : RuntimeOptions) (nowMs : Nat) (kind : Entry T → Prop) :
    Journal T → Journal T → Prop
  | refl (j : Journal T) : Books opts nowMs kind j j
  | tail {j mid : Journal T} {entries : List (Entry T)} (hbefore : Books opts nowMs kind j mid)
      (hgrounded : Grounded opts nowMs mid entries) (hkind : ∀ entry ∈ entries, kind entry) :
      Books opts nowMs kind j (mid.writeAll opts entries)

variable {nowMs : Nat}

theorem Books.trans {a b c : Journal T} (h : Books opts nowMs kind a b)
    (h' : Books opts nowMs kind b c) : Books opts nowMs kind a c := by
  induction h' with
  | refl => exact h
  | tail _ hgrounded hkind ih => exact ih.tail hgrounded hkind

theorem Books.mono (hle : ∀ entry, kind entry → kind' entry)
    (h : Books opts nowMs kind j j') : Books opts nowMs kind' j j' := by
  induction h with
  | refl => exact Books.refl _
  | tail _ hgrounded hkind ih =>
    exact ih.tail hgrounded fun entry hmem => hle entry (hkind entry hmem)

theorem Books.writes (h : Books opts nowMs kind j j') :
    Writes opts kind j j' := by
  induction h with
  | refl => exact Writes.refl _
  | tail _ hgrounded hkind ih => exact ih.tail hgrounded.justified hkind

theorem Books.invariant
    (hstep : ∀ j entries, Grounded opts nowMs j entries → (∀ entry ∈ entries, kind entry) →
      inv j → inv (j.writeAll opts entries)) (h : Books opts nowMs kind j j') (hj :
    inv j) : inv j' := by
  induction h with
  | refl => exact hj
  | tail _ hgrounded hkind ih => exact hstep _ _ hgrounded hkind ih

/-- At most one grounded entry or pair. -/
def Booked (opts : RuntimeOptions) (nowMs : Nat) (kind : Entry T → Prop) (j j' : Journal T) :
    Prop :=
  j' = j ∨ ∃ entries, Grounded opts nowMs j entries ∧ (∀ entry ∈ entries, kind entry) ∧
    j' = j.writeAll opts entries

theorem Booked.books (h : Booked opts nowMs kind j j') :
    Books opts nowMs kind j j' := by
  rcases h with rfl | ⟨entries, hgrounded, hkind, rfl⟩
  · exact Books.refl j'
  · exact (Books.refl j).tail hgrounded hkind

theorem Booked.written (h : Booked opts nowMs kind j j') :
    Written opts kind j j' := by
  rcases h with rfl | ⟨entries, hgrounded, hkind, rfl⟩
  · exact Written.same j'
  · exact Or.inr ⟨entries, hgrounded.justified, hkind, rfl⟩

theorem Booked.mono (hle : ∀ entry, kind entry → kind' entry)
    (h : Booked opts nowMs kind j j') : Booked opts nowMs kind' j j' := by
  rcases h with rfl | ⟨entries, hgrounded, hkind, rfl⟩
  · exact Or.inl rfl
  · exact Or.inr ⟨entries, hgrounded, fun entry hmem => hle entry (hkind entry hmem), rfl⟩

variable {of : WorkState T → Prop} {entry : Entry T}

theorem returnedFrom_of_none (h : entry.2.returned = none) : ReturnedFrom j of entry := by
  intro lease hlease
  rw [h] at hlease
  exact absurd hlease.symm (Option.some_ne_none lease)

theorem says_of_quiet {end_ : Option Nat} (h : entry.2.returned = none ∧ entry.2.leaseEnd = none) :
    Says j of end_ entry := by
  refine ⟨returnedFrom_of_none h.1, fun time htime => ?_⟩
  rw [h.2] at htime
  exact absurd htime.symm (Option.some_ne_none time)

theorem Says.mono {of' : WorkState T → Prop} {end_ end' : Option Nat} (h : Says j of end_ entry)
    (hof : ∀ work, of work → of' work)
    (hend : ∀ time, end_ = some time → end' = some time) : Says j of' end' entry := by
  refine ⟨fun lease hlease => ?_, fun time htime => hend time (h.ends time htime)⟩
  obtain ⟨work, hfound, hattempt, hwork⟩ := h.returned lease hlease
  exact ⟨work, hfound, hattempt, hof work hwork⟩

theorem Says.of_free {end_ end' : Option Nat} (h : Says j (fun _ => False) end_ entry)
    (hend : ∀ time, end_ = some time → end' = some time) : Says j' of end' entry := by
  refine ⟨fun lease hlease => ?_, fun time htime => hend time (h.ends time htime)⟩
  obtain ⟨_, _, _, hfalse⟩ := h.returned lease hlease
  exact hfalse.elim

variable {workId : String} {body : RecordBody T}

theorem grounded_one (hjust : Justified j [(workId, body)]) (htime : body.recordedAt = nowMs)
    (hretry : body.retry = none)
    (hreturned : ReturnedFrom j (fun work => work.state = .leased) (workId, body)) :
    Grounded opts nowMs j [(workId, body)] := by
  refine ⟨hjust, forall_mem_singleton.mpr htime, forall_mem_singleton.mpr ?_,
    forall_mem_singleton.mpr hreturned⟩
  intro retryAtMs delayMs hsome
  rw [hretry] at hsome
  exact absurd hsome.symm (Option.some_ne_none _)

theorem grounded_pair {first second : RecordBody T}
    (hjust : Justified j [(workId, first), (workId, second)])
    (htime : first.recordedAt = nowMs ∧ second.recordedAt = nowMs) (hfirst : first.retry = none)
    (hsecond : ∀ retryAtMs delayMs, second.retry = some (retryAtMs, delayMs) →
      retryAtMs = nowMs + delayMs ∧ ∃ work, j.works.lookup workId = some work ∧
        work.attempt < opts.retry.maxAttempts)
    (hreturned : first.returned = none ∧ second.returned = none) :
    Grounded opts nowMs j [(workId, first), (workId, second)] := by
  refine ⟨hjust, ?_, ?_, ?_⟩
  · intro entry hmem
    rcases mem_pair.mp hmem with rfl | rfl
    · exact htime.1
    · exact htime.2
  · intro entry hmem retryAtMs delayMs hsome
    rcases mem_pair.mp hmem with rfl | rfl
    · rw [show first.retry = none from hfirst] at hsome
      exact absurd hsome.symm (Option.some_ne_none _)
    · exact hsecond retryAtMs delayMs hsome
  · intro entry hmem
    rcases mem_pair.mp hmem with rfl | rfl
    · exact returnedFrom_of_none hreturned.1
    · exact returnedFrom_of_none hreturned.2

theorem Unheld.heldBy (h : Unheld entry) (workId : String) (lease : LeaseRef)
    (nowMs : Nat) : HeldBy workId lease nowMs entry := by
  refine ⟨fun by_ hby => ?_, h.2⟩
  rw [h.1] at hby
  exact absurd hby (Option.some_ne_none by_).symm

variable {lease : LeaseRef}

theorem heldBy_of
    (h : body.holder = some (lease, nowMs)) (hsource : body.admissionMessageBus = none) :
    HeldBy workId lease nowMs (workId, body) := by
  refine ⟨fun by_ hby => ?_, hsource⟩
  rw [h, Option.some.injEq] at hby
  exact ⟨rfl, hby.symm⟩

theorem heldBy_pair {first second : RecordBody T}
    (h : first.holder = some (lease, nowMs) ∧ first.admissionMessageBus = none)
    (h' : Unheld (workId, second)) :
    ∀ entry ∈ [(workId, first), (workId, second)], HeldBy workId lease nowMs entry := by
  intro entry hmem
  rcases mem_pair.mp hmem with rfl | rfl
  · exact heldBy_of h.1 h.2
  · exact h'.heldBy workId lease nowMs

end Series

variable {workId : String} {work : WorkState T}

theorem updateWork_of_found {works : SortedMap String (WorkState T)}
    (h : works.lookup workId = some work)
    (change : WorkState T → WorkState T) :
    updateWork works workId change = works.insert workId (change work) := by
  rw [updateWork, h]

/-! ### What an entry leaves alone -/

/-- A work is kept under its own id. -/
def Keyed (j : Journal T) : Prop :=
  ∀ workId work, j.works.lookup workId = some work → work.workId = workId

@[simp] theorem change_workId (body : RecordBody T) (work : WorkState T) :
    (body.change work).workId = work.workId := by
  cases body <;> rfl

theorem lookup_updateWork (works : SortedMap String (WorkState T)) (workId other : String)
    (change : WorkState T → WorkState T) :
    (updateWork works workId change).lookup other =
      if other = workId then (works.lookup other).map change else works.lookup other := by
  rw [updateWork]
  cases hlook : works.lookup workId with
  | none =>
    split_ifs with hother
    · rw [hother, hlook]
      rfl
    · rfl
  | some work =>
    simp only [SortedMap.lookup_insert]
    split_ifs with hother
    · rw [hother, hlook]
      rfl
    · rfl

variable {other : String}

theorem lookup_applyRecord (works : SortedMap String (WorkState T)) (record : WorkQueueRecord T)
    (h : other ≠ record.workId) :
    (applyRecord works record).lookup other = works.lookup other := by
  rw [applyRecord]
  split
  · exact SortedMap.lookup_insert_of_ne _ _ h
  · rfl
  · rfl
  · rfl
  · rw [lookup_updateWork, if_neg h]

/-- Whether a record admits its work. -/
def RecordBody.admits : RecordBody T → Bool
  | workAdmitted .. => true
  | _ => false

theorem lookup_applyRecord_self (works : SortedMap String (WorkState T))
    (record : WorkQueueRecord T) (h : record.body.admits = false) :
    (applyRecord works record).lookup record.workId =
      (works.lookup record.workId).map record.body.change := by
  have hid : record.body.change = (fun w => w) →
      works.lookup record.workId = (works.lookup record.workId).map record.body.change := by
    intro heq
    rw [heq]
    simp
  rw [applyRecord]
  split
  · rename_i hbody
    rw [hbody] at h
    exact absurd h (by simp [RecordBody.admits])
  · rename_i hbody
    exact hid (by rw [hbody]; rfl)
  · rename_i hbody
    exact hid (by rw [hbody]; rfl)
  · rename_i hbody
    exact hid (by rw [hbody]; rfl)
  · rw [lookup_updateWork, if_pos rfl]

variable {j : Journal T}

theorem keyed_write (h : Keyed j) (opts : RuntimeOptions) (entry : Entry T) :
    Keyed (j.write opts entry) := by
  intro workId work hlook
  have hlook' : (applyRecord j.works (j.nextRecord opts entry)).lookup workId = some work := hlook
  by_cases hid : workId = (j.nextRecord opts entry).workId
  · subst hid
    cases hadmits : (j.nextRecord opts entry).body.admits with
    | false =>
      rw [lookup_applyRecord_self _ _ hadmits, Option.map_eq_some_iff] at hlook'
      obtain ⟨before, hbefore, rfl⟩ := hlook'
      rw [change_workId]
      exact h _ before hbefore
    | true =>
      generalize j.nextRecord opts entry = record at *
      obtain ⟨seq, queueId, workId, body⟩ := record
      cases body with
      | workAdmitted =>
        rw [applyRecord, SortedMap.lookup_insert_self, Option.some.injEq] at hlook'
        rw [← hlook']
        rfl
      | _ => exact absurd hadmits (by simp [RecordBody.admits])
  · rw [lookup_applyRecord _ _ hid] at hlook'
    exact h workId work hlook'

theorem keyed_writeAll (h : Keyed j) (opts : RuntimeOptions)
    (entries : List (Entry T)) : Keyed (j.writeAll opts entries) := by
  induction entries generalizing j with
  | nil => exact h
  | cons entry entries ih => exact ih (keyed_write h opts entry)

variable {opts : RuntimeOptions} {kind : Entry T → Prop}

theorem Writes.keyed {j' : Journal T} (h : Writes opts kind j j') (hj : Keyed j) : Keyed j' := by
  have hstep (j : Journal T) (entries : List (Entry T)) (_ : Justified j entries)
      (hkeyed : Keyed j) : Keyed (j.writeAll opts entries) :=
    keyed_writeAll hkeyed opts entries
  exact h.invariant hstep hj

/-! ### What one command writes -/

variable {s changed : RuntimeState T} {body : RecordBody T}

theorem journal_append
    (hworks : changed.works = applyRecord s.works (s.journal.nextRecord opts (workId, body)))
    (hsame : changed.recordSeq = s.recordSeq ∧ changed.records = s.records ∧
      changed.deadLetters = s.deadLetters)
    (hlease : changed.leaseSeq = s.leaseSeq + body.leasesIssued)
    (halive : (s.journal.nextRecord opts (workId, body)).isDeadLetter = false) :
    (appendRecord changed opts workId body).1.journal = s.journal.write opts (workId, body) := by
  obtain ⟨hseq, hrecords, hdead⟩ := hsame
  rw [Journal.write]
  simp only [appendRecord, RuntimeState.journal, Journal.mk.injEq]
  refine ⟨congrArg (· + 1) hseq, hlease, hworks, ?_, ?_⟩
  · rw [hrecords, hseq]
    rfl
  · exact hdead.trans (if_neg (by rw [← RuntimeState.journal, halive]; simp)).symm

theorem booked_append {nowMs : Nat}
    (hgrounded : Grounded opts nowMs s.journal [(workId, body)]) (hkind : kind (workId, body))
    (hworks : changed.works = applyRecord s.works (s.journal.nextRecord opts (workId, body)))
    (hsame : changed.recordSeq = s.recordSeq ∧ changed.records = s.records ∧
      changed.deadLetters = s.deadLetters)
    (hlease : changed.leaseSeq = s.leaseSeq + body.leasesIssued)
    (halive : (s.journal.nextRecord opts (workId, body)).isDeadLetter = false) :
    Booked opts nowMs kind s.journal (appendRecord changed opts workId body).1.journal :=
  Or.inr ⟨_, hgrounded, forall_mem_singleton.mpr hkind,
    journal_append hworks hsame hlease halive⟩

theorem booked_update {nowMs : Nat}
    (hgrounded : Grounded opts nowMs s.journal [(workId, body)]) (hkind : kind (workId, body))
    (hfound : s.works.lookup workId = some work)
    (happly : applyRecord s.works (s.journal.nextRecord opts (workId, body)) =
      updateWork s.works workId body.change)
    (hworks : changed.works = s.works.insert workId (body.change work))
    (hsame : changed.recordSeq = s.recordSeq ∧ changed.records = s.records ∧
      changed.deadLetters = s.deadLetters)
    (hlease : changed.leaseSeq = s.leaseSeq + body.leasesIssued)
    (halive : (s.journal.nextRecord opts (workId, body)).isDeadLetter = false) :
    Booked opts nowMs kind s.journal (appendRecord changed opts workId body).1.journal := by
  refine booked_append hgrounded hkind ?_ hsame hlease halive
  rw [happly, updateWork_of_found hfound]
  exact hworks

theorem admitMessage_booked (opts : RuntimeOptions) (s : RuntimeState T)
    (message : MessageEnvelope (WorkQueueSubmit T)) (nowMs : Nat) :
    Booked opts nowMs (fun entry => AdmissionOf
        { topic := message.topic, seq := message.seq, subscriptionId :=
          opts.subscriptionId } entry ∧
        Says s.journal (fun _ => False) none entry)
      s.journal (admitMessage opts s message nowMs).1.journal := by
  rw [admitMessage]
  split_ifs with hseen
  · exact Or.inl rfl
  · cases hlook : s.works.lookup (admissionWorkId opts message) with
    | some work =>
      simp only [hlook]
      exact booked_append (grounded_one (.deduped hlook) rfl rfl (returnedFrom_of_none rfl))
        ⟨⟨rfl, rfl⟩, says_of_quiet ⟨rfl, rfl⟩⟩ rfl ⟨rfl, rfl, rfl⟩ rfl rfl
    | none =>
      simp only [hlook]
      exact booked_append (grounded_one (.admitted hlook) rfl rfl (returnedFrom_of_none rfl))
        ⟨⟨rfl, rfl⟩, says_of_quiet ⟨rfl, rfl⟩⟩ rfl ⟨rfl, rfl, rfl⟩ rfl rfl

theorem admitMessage_written (opts : RuntimeOptions) (s : RuntimeState T)
    (message : MessageEnvelope (WorkQueueSubmit T)) (nowMs : Nat) :
    Written opts (AdmissionOf
        { topic := message.topic, seq := message.seq, subscriptionId := opts.subscriptionId })
      s.journal (admitMessage opts s message nowMs).1.journal :=
  (admitMessage_booked opts s message nowMs).written.mono fun _ hentry => hentry.1

theorem leased_of_expired {nowMs : Nat} (h : work.isExpired nowMs = true) :
    work.state = .leased := by
  rw [WorkState.isExpired, Bool.and_eq_true, decide_eq_true_iff] at h
  exact h.1

theorem materializeLeaseExpired_booked (hfound : s.works.lookup work.workId = some work)
    (commandId : Option String) {nowMs : Nat} (hexpired : work.isExpired nowMs = true) :
    Booked opts nowMs (fun entry => Unheld entry ∧ Says s.journal (fun w => w = work) none entry)
      s.journal (materializeLeaseExpired opts s work commandId nowMs).1.journal := by
  have hof {of : WorkState T → Prop} (hwork : of work) : ReturnedFrom s.journal of (work.workId,
      .leaseExpired commandId
        { leaseId := work.leaseId.getD ""
          attempt := work.attempt
          workerId := work.workerId.getD "" }
        (work.leaseExpiresAtMs.getD nowMs) nowMs) := by
    intro lease hlease
    refine ⟨work, hfound, ?_, hwork⟩
    rw [← Option.some.inj hlease]
  simp only [materializeLeaseExpired, hfound]
  exact booked_update (grounded_one (.expired hfound hexpired) rfl rfl
    (hof (leased_of_expired hexpired))) ⟨⟨rfl, rfl⟩, hof rfl, fun _ hend => (by cases hend)⟩
    hfound rfl rfl ⟨rfl, rfl, rfl⟩ rfl rfl

/-- A lease is the one that a work has, by its names. -/
def LeaseRef.names (lease : LeaseRef) (workId : String) (work : WorkState T) : Bool :=
  decide (work.workId = workId ∧ work.leaseId = some lease.leaseId ∧
    work.attempt = lease.attempt ∧ work.workerId = some lease.workerId)

theorem currentLease_cases (opts : RuntimeOptions) (hkeyed : Keyed s.journal)
    (workId : String) (lease : LeaseRef) (commandId : Option String) (nowMs : Nat) :
    (∃ work, currentLease opts s workId lease commandId nowMs = .ok work ∧
        Holds s.journal workId lease nowMs work) ∨
      ∃ refused, currentLease opts s workId lease commandId nowMs = .error refused ∧
        Booked opts nowMs (fun entry => HeldBy workId lease nowMs entry ∧ Says s.journal
          (fun work => (lease.names workId work && work.isExpired nowMs) = true) none entry)
          s.journal refused.1.journal := by
  rw [currentLease]
  cases hlook : s.works.lookup workId with
  | none => exact Or.inr ⟨_, rfl, Or.inl rfl⟩
  | some work =>
    simp only []
    split_ifs with hterminal hleased hid hattempt hworker hexpired
    · exact Or.inr ⟨_, rfl, Or.inl rfl⟩
    · exact Or.inr ⟨_, rfl, Or.inl rfl⟩
    · exact Or.inr ⟨_, rfl, Or.inl rfl⟩
    · exact Or.inr ⟨_, rfl, Or.inl rfl⟩
    · exact Or.inr ⟨_, rfl, Or.inl rfl⟩
    · -- The lease has come to its end.
      have hfound : s.works.lookup work.workId = some work := by
        rw [hkeyed workId work hlook]
        exact hlook
      have hnames : lease.names workId work = true := decide_eq_true
        ⟨hkeyed workId work hlook, not_not.mp hid, not_not.mp hattempt, not_not.mp hworker⟩
      refine Or.inr ⟨_, rfl, (materializeLeaseExpired_booked hfound commandId hexpired).mono ?_⟩
      intro entry hentry
      refine ⟨hentry.1.heldBy workId lease nowMs, hentry.2.mono (fun w hw => ?_) fun _ h => h⟩
      rw [hw, hnames, hexpired]
      rfl
    · exact Or.inl ⟨work, rfl, hlook, not_not.mp hleased, not_not.mp hid, not_not.mp hattempt,
        not_not.mp hworker, by simpa using hexpired⟩

theorem checkedTimestamp_eq {commandId : Option String}
    {nowMs deltaMs time : Nat} {message : String}
    (h : checkedTimestamp (T := T) opts commandId nowMs deltaMs message = .ok time) :
    time = nowMs + deltaMs := by
  rw [checkedTimestamp] at h
  split_ifs at h
  exact (Except.ok.inj h).symm

/-- When a renewed lease ends. -/
def renewalEnd (opts : RuntimeOptions) (leaseDurationMs leaseExpiresAtMs : Option Nat)
    (nowMs : Nat) : Nat :=
  leaseExpiresAtMs.getD (nowMs + leaseDurationMs.getD opts.leaseDurationMs)

theorem renewLease_booked (hkeyed : Keyed s.journal)
    (commandId workId : String) (lease : LeaseRef) (leaseDurationMs leaseExpiresAtMs : Option Nat)
    (nowMs : Nat) :
    Booked opts nowMs (fun entry => HeldBy workId lease nowMs entry ∧ Says s.journal
      (fun work => (lease.names workId work && work.isExpired nowMs) = true)
      (some (renewalEnd opts leaseDurationMs leaseExpiresAtMs nowMs)) entry) s.journal
      (renewLease opts s commandId workId lease leaseDurationMs
      leaseExpiresAtMs nowMs).1.journal := by
  rcases currentLease_cases opts hkeyed workId lease (some commandId) nowMs with
    ⟨work, heq, hholds⟩ | ⟨refused, heq, hwritten⟩
  · simp only [renewLease, heq]
    split
    · exact Or.inl rfl
    · rename_i next hnext
      have hend : next = renewalEnd opts leaseDurationMs leaseExpiresAtMs nowMs := by
        cases leaseExpiresAtMs with
        | some value => exact (Except.ok.inj hnext).symm
        | none => exact checkedTimestamp_eq hnext
      refine booked_update (grounded_one (.renewed hholds) rfl rfl (returnedFrom_of_none rfl))
        ⟨heldBy_of rfl rfl, returnedFrom_of_none rfl, fun time htime => ?_⟩ hholds.found rfl rfl
        ⟨rfl, rfl, rfl⟩ rfl rfl
      rw [← hend, ← Option.some.inj htime]
  · simp only [renewLease, heq]
    exact hwritten.mono fun entry hentry =>
      ⟨hentry.1, hentry.2.mono (fun _ hw => hw) fun time htime => (by cases htime)⟩

theorem releaseWork_booked (hkeyed : Keyed s.journal)
    (commandId workId : String) (lease : LeaseRef) (reason : Option String) (nowMs : Nat) :
    Booked opts nowMs (fun entry => HeldBy workId lease nowMs entry ∧ Says s.journal
      (fun work => lease.names workId work = true) none entry) s.journal
      (releaseWork opts s commandId workId lease reason nowMs).1.journal := by
  rw [releaseWork]
  rcases currentLease_cases opts hkeyed workId lease (some commandId) nowMs with
    ⟨work, heq, hholds⟩ | ⟨refused, heq, hwritten⟩
  · simp only [heq]
    -- The work goes back, and its attempt stays counted.
    have hof {of : WorkState T → Prop} (hwork : of work) : ReturnedFrom s.journal of
        (workId, .workReleased commandId lease nowMs reason) := by
      intro held hheld
      refine ⟨work, hholds.found, ?_, hwork⟩
      rw [← Option.some.inj hheld]
      exact hholds.attempt
    have hnames : lease.names workId work = true := decide_eq_true
      ⟨hkeyed workId work hholds.found, hholds.leaseId, hholds.attempt, hholds.workerId⟩
    exact booked_update (grounded_one (.released hholds) rfl rfl (hof hholds.leased))
      ⟨heldBy_of rfl rfl, hof hnames, fun _ hend => (by cases hend)⟩ hholds.found rfl rfl
      ⟨rfl, rfl, rfl⟩ rfl rfl
  · simp only [heq]
    exact hwritten.mono fun entry hentry => ⟨hentry.1,
      hentry.2.mono (fun work hwork => (Bool.and_eq_true_iff.mp hwork).1) fun _ h => h⟩

/-- The journal after a first entry that says nothing of the works and a second that
    changes one. -/
theorem writeAll_pair {first second : RecordBody T} (hfound : j.works.lookup workId = some work)
    (hfirst : applyRecord j.works (j.nextRecord opts (workId, first)) = j.works)
    (hleases : first.leasesIssued = 0 ∧ second.leasesIssued = 0)
    (halive : (j.nextRecord opts (workId, first)).isDeadLetter = false)
    (happly : applyRecord j.works ((j.write opts (workId, first)).nextRecord opts
      (workId, second)) = updateWork j.works workId second.change) :
    j.writeAll opts [(workId, first), (workId, second)] =
      { recordSeq := j.recordSeq + 1 + 1
        leaseSeq := j.leaseSeq
        works := j.works.insert workId (second.change work)
        records := (j.records ++ [j.nextRecord opts (workId, first)]) ++
          [(j.write opts (workId, first)).nextRecord opts (workId, second)]
        deadLetters :=
          if ((j.write opts (workId, first)).nextRecord opts (workId, second)).isDeadLetter then
            j.deadLetters ++ [(j.write opts (workId, first)).nextRecord opts (workId, second)]
          else j.deadLetters } := by
  have hworks : (j.write opts (workId, first)).works = j.works := hfirst
  have hdead : (j.write opts (workId, first)).deadLetters = j.deadLetters :=
    if_neg (by rw [halive]; simp)
  have hlease : (j.write opts (workId, first)).leaseSeq = j.leaseSeq :=
    congrArg (j.leaseSeq + ·) hleases.1
  rw [Journal.writeAll, Journal.writeAll, Journal.writeAll, Journal.write, Journal.mk.injEq]
  refine ⟨rfl, ?_, ?_, rfl, ?_⟩
  · rw [hlease, hleases.2]
    rfl
  · rw [hworks, happly, updateWork_of_found hfound]
  · rw [hdead]

variable {lease : LeaseRef}

theorem heldBy_quiet {of : WorkState T → Prop} {end_ : Option Nat} {nowMs : Nat}
    {first second : RecordBody T}
    (hheld : ∀ entry ∈ [(workId, first), (workId, second)], HeldBy workId lease nowMs entry)
    (hfirst : first.returned = none ∧ first.leaseEnd = none)
    (hsecond : second.returned = none ∧ second.leaseEnd = none) :
    ∀ entry ∈ [(workId, first), (workId, second)],
      HeldBy workId lease nowMs entry ∧ Says j of end_ entry := by
  intro entry hmem
  refine ⟨hheld entry hmem, says_of_quiet ?_⟩
  rcases mem_pair.mp hmem with rfl | rfl
  · exact hfirst
  · exact hsecond

theorem completeWork_booked
    (hkeyed : Keyed s.journal) (commandId workId : String) (lease : LeaseRef)
    (result : Option String) (nowMs : Nat) :
    Booked opts nowMs (fun entry => HeldBy workId lease nowMs entry ∧ Says s.journal
      (fun work => (lease.names workId work && work.isExpired nowMs) = true) none entry) s.journal
      (completeWork opts s commandId workId lease result nowMs).1.journal := by
  rcases currentLease_cases opts hkeyed workId lease (some commandId) nowMs with
    ⟨work, heq, hholds⟩ | ⟨refused, heq, hwritten⟩
  · refine Or.inr ⟨[(workId, .attemptCompleted commandId lease result nowMs),
      (workId, .workCompleted commandId lease result nowMs)],
      grounded_pair (.completed hholds) ⟨rfl, rfl⟩ rfl
        (fun _ _ hsome => (by cases hsome)) ⟨rfl, rfl⟩,
      heldBy_quiet (heldBy_pair ⟨rfl, rfl⟩ ⟨rfl, rfl⟩) ⟨rfl, rfl⟩ ⟨rfl, rfl⟩, ?_⟩
    rw [writeAll_pair hholds.found rfl ⟨rfl, rfl⟩ rfl rfl]
    simp only [completeWork, heq]
    rfl
  · simp only [completeWork, heq]
    exact hwritten

theorem failWork_booked (hkeyed : Keyed s.journal) (commandId workId : String) (lease : LeaseRef)
    (error : Option String) (retryable : Option Bool) (nowMs : Nat) :
    Booked opts nowMs (fun entry => HeldBy workId lease nowMs entry ∧ Says s.journal
      (fun work => (lease.names workId work && work.isExpired nowMs) = true) none entry) s.journal
      (failWork opts s commandId workId lease error retryable nowMs).1.journal := by
  rcases currentLease_cases opts hkeyed workId lease (some commandId) nowMs with
    ⟨work, heq, hholds⟩ | ⟨refused, heq, hwritten⟩
  · simp only [failWork, heq]
    by_cases hretry : (retryable.getD true && opts.retry.shouldRetry work.attempt) = true
    · rw [if_pos hretry]
      -- The time of the retry is worked out before anything is written.
      cases htime : checkedTimestamp (T := T) opts (some commandId) nowMs
          ((opts.retry.nextDelayMs (min (work.attempt + 1) maxU32)).getD 0)
          "retry delay overflows timestamp" with
      | error events => exact Or.inl rfl
      | ok retryAtMs =>
        refine Or.inr ⟨[(workId, .attemptFailed commandId lease error retryable nowMs),
          (workId, .retryScheduled commandId retryAtMs
            ((opts.retry.nextDelayMs (min (work.attempt + 1) maxU32)).getD 0)
            (some "retry-policy") nowMs)],
          grounded_pair (.retried hholds) ⟨rfl, rfl⟩ rfl ?_ ⟨rfl, rfl⟩,
          heldBy_quiet (heldBy_pair ⟨rfl, rfl⟩ ⟨rfl, rfl⟩) ⟨rfl, rfl⟩ ⟨rfl, rfl⟩, ?_⟩
        · intro retryAtMs' delayMs hsome
          obtain ⟨rfl, rfl⟩ := Prod.mk.inj (Option.some.inj hsome)
          rw [Bool.and_eq_true, RetryPolicy.shouldRetry, decide_eq_true_iff] at hretry
          exact ⟨checkedTimestamp_eq htime, work, hholds.found, hretry.2⟩
        rw [writeAll_pair hholds.found rfl ⟨rfl, rfl⟩ rfl rfl]
        rfl
    · rw [if_neg hretry]
      refine Or.inr ⟨[(workId, .attemptFailed commandId lease error retryable nowMs),
        (workId, .workDeadLettered commandId "attempts-exhausted" (some lease.attempt) nowMs)],
        grounded_pair (.givenUp hholds) ⟨rfl, rfl⟩ rfl
          (fun _ _ hsome => (by cases hsome)) ⟨rfl, rfl⟩,
        heldBy_quiet (heldBy_pair ⟨rfl, rfl⟩ ⟨rfl, rfl⟩) ⟨rfl, rfl⟩ ⟨rfl, rfl⟩, ?_⟩
      rw [writeAll_pair hholds.found rfl ⟨rfl, rfl⟩ rfl rfl]
      rfl
  · simp only [failWork, heq]
    exact hwritten

theorem cancelWork_booked (commandId workId : String) (reason : Option String) (nowMs : Nat) :
    Booked opts nowMs (fun entry => Unheld entry ∧ Says s.journal (fun _ => False) none entry)
      s.journal (cancelWork opts s commandId workId reason nowMs).1.journal := by
  rw [cancelWork]
  cases hlook : s.works.lookup workId with
  | none => exact Or.inl rfl
  | some work =>
    simp only []
    by_cases hterminal : work.state.isTerminal = true
    · rw [if_pos hterminal]
      exact Or.inl rfl
    · rw [if_neg hterminal]
      exact booked_update (grounded_one (.canceled hlook (by simpa using hterminal)) rfl rfl
        (returnedFrom_of_none rfl)) ⟨⟨rfl, rfl⟩, says_of_quiet ⟨rfl, rfl⟩⟩ hlook rfl rfl
        ⟨rfl, rfl, rfl⟩ rfl rfl

theorem scheduleWork_booked
    (commandId workId : String) (scheduleId : Option String) (notBeforeMs : Nat)
    (deadlineMs : Option Nat) (reason : Option String) (nowMs : Nat) :
    Booked opts nowMs (fun entry => Unheld entry ∧ Says s.journal (fun _ => False) none entry)
      s.journal (scheduleWork opts s commandId workId scheduleId notBeforeMs deadlineMs
        reason nowMs).1.journal := by
  rw [scheduleWork]
  cases hlook : s.works.lookup workId with
  | none => exact Or.inl rfl
  | some work =>
    simp only []
    split_ifs with hterminal hleased
    · exact Or.inl rfl
    · exact Or.inl rfl
    · exact booked_update (grounded_one (.scheduled hlook (by simpa using hterminal) hleased) rfl
        rfl (returnedFrom_of_none rfl)) ⟨⟨rfl, rfl⟩, says_of_quiet ⟨rfl, rfl⟩⟩ hlook rfl rfl
        ⟨rfl, rfl, rfl⟩ rfl rfl

theorem claimOne_booked (hfound : s.works.lookup workId = some work)
    (commandId workerId : String) (leaseExpiresAtMs : Nat) {nowMs : Nat}
    (hready : work.isReady nowMs = true) :
    Booked opts nowMs (fun entry => Unheld entry ∧
      Says s.journal (fun _ => False) (some leaseExpiresAtMs) entry) s.journal
      (claimOne opts s commandId workerId workId leaseExpiresAtMs nowMs).1.journal := by
  simp only [claimOne, hfound]
  exact booked_update (grounded_one (.claimed hfound hready) rfl rfl (returnedFrom_of_none rfl))
    ⟨⟨rfl, rfl⟩, returnedFrom_of_none rfl, fun _ htime => htime⟩ hfound rfl rfl ⟨rfl, rfl, rfl⟩ rfl
    rfl

/-! ### Commands that write series -/

theorem lookup_writeAll (opts : RuntimeOptions) {entries : List (Entry T)}
    (h : ∀ entry ∈ entries, entry.1 ≠ other) :
    (j.writeAll opts entries).works.lookup other = j.works.lookup other := by
  induction entries generalizing j with
  | nil => rfl
  | cons entry entries ih =>
    have hfirst : (j.write opts entry).works.lookup other = j.works.lookup other :=
      lookup_applyRecord _ _ (h entry mem_cons_self).symm
    rw [Journal.writeAll, ih fun e he => h e (mem_cons_of_mem entry he), hfirst]

/-- Two facts about one series: what it writes, and that the works of other ids stay. -/
structure BooksOn (opts : RuntimeOptions) (nowMs : Nat) (kind : Entry T → Prop) (workId : String)
    (s : RuntimeState T) (s' : RuntimeState T) : Prop where
  books : Books opts nowMs kind s.journal s'.journal
  others : ∀ other, other ≠ workId → s'.works.lookup other = s.works.lookup other

/-- A loop over distinct works, each step of which is grounded in the state of its
    own work, is a series of grounded entries. -/
theorem foldl_books {nowMs : Nat}
    {step : RuntimeState T → String → RuntimeState T} (ready : WorkState T → Prop)
    (hstep : ∀ s workId work, Keyed s.journal → s.works.lookup workId = some work → ready work →
      BooksOn opts nowMs kind workId s (step s workId))
    (workIds : List String) (hkeyed : Keyed s.journal) (hnodup : workIds.Nodup)
    (hready : ∀ workId ∈ workIds, ∃ work, s.works.lookup workId = some work ∧ ready work) :
    Books opts nowMs kind s.journal (workIds.foldl step s).journal := by
  induction workIds generalizing s with
  | nil => exact Books.refl _
  | cons workId workIds ih =>
    obtain ⟨hnot, hrest⟩ := nodup_cons.mp hnodup
    obtain ⟨work, hfound, hwork⟩ := hready workId mem_cons_self
    obtain ⟨hbooks, hothers⟩ := hstep s workId work hkeyed hfound hwork
    refine hbooks.trans (ih (hbooks.writes.keyed hkeyed) hrest fun other hother => ?_)
    rw [hothers other fun heq => hnot (heq ▸ hother)]
    exact hready other (mem_cons_of_mem workId hother)

theorem materializeAll_fst (opts : RuntimeOptions) (s : RuntimeState T) (workIds : List String)
    (commandId : String) (nowMs : Nat) :
    (materializeAll opts s workIds commandId nowMs).1 = workIds.foldl (fun s workId =>
      match s.works.lookup workId with
      | none => s
      | some work => (materializeLeaseExpired opts s work (some commandId) nowMs).1) s := by
  have hgen (r : Answered T) : (workIds.foldl (fun r workId =>
      match r.1.works.lookup workId with
      | none => r
      | some work =>
        ((materializeLeaseExpired opts r.1 work (some commandId) nowMs).1,
          r.2 ++ (materializeLeaseExpired opts r.1 work (some commandId) nowMs).2)) r).1 =
      workIds.foldl (fun s workId =>
        match s.works.lookup workId with
        | none => s
        | some work => (materializeLeaseExpired opts s work (some commandId) nowMs).1) r.1 := by
    induction workIds generalizing r with
    | nil => rfl
    | cons workId workIds ih =>
      rw [foldl_cons, foldl_cons]
      cases hlook : r.1.works.lookup workId with
      | none => simpa only [hlook] using ih r
      | some work => simpa only [hlook] using ih _
  exact hgen (s, [])

/-- A work whose lease has been taken away. -/
def WorkState.handedBack (work : WorkState T) : WorkState T :=
  ({ work with state := .ready }).clearLease

theorem materializeAll_lookup (opts : RuntimeOptions)
    (hkeyed : Keyed s.journal) (workIds : List String) (commandId : String) (nowMs : Nat)
    (workId : String) : (materializeAll opts s workIds commandId nowMs).1.works.lookup workId =
      if workId ∈ workIds then (s.works.lookup workId).map (·.handedBack)
      else s.works.lookup workId := by
  rw [materializeAll_fst]
  induction workIds generalizing s with
  | nil => rfl
  | cons first workIds ih =>
    rw [foldl_cons]
    cases hlook : s.works.lookup first with
    | none =>
      simp only []
      rw [ih hkeyed]
      by_cases hid : workId = first
      · rw [hid, hlook, Option.map_none, ite_self, ite_self]
      · simp only [mem_cons, hid, false_or]
    | some work =>
      have hid := hkeyed first work hlook
      have hfound : s.works.lookup work.workId = some work := by rw [hid, hlook]
      simp only []
      have hworks : (materializeLeaseExpired opts s work (some commandId) nowMs).1.works =
          s.works.insert first work.handedBack := by
        rw [materializeLeaseExpired, hfound, ← hid]
        rfl
      have hkeyed' : Keyed
          (materializeLeaseExpired opts s work (some commandId) nowMs).1.journal := by
        intro other w hw
        have hw' : (s.works.insert first work.handedBack).lookup other = some w := hworks ▸ hw
        rw [SortedMap.lookup_insert] at hw'
        split_ifs at hw' with hother
        · rw [← Option.some.inj hw', hother]
          exact hid
        · exact hkeyed other w hw'
      rw [ih hkeyed', hworks, SortedMap.lookup_insert]
      by_cases hother : workId = first
      · have hmem : workId ∈ first :: workIds := hother ▸ mem_cons_self
        rw [if_pos hother, if_pos hmem, hother, hlook, Option.map_some, Option.map_some]
        split_ifs <;> rfl
      · simp only [mem_cons, hother, false_or, if_false]

variable {workIds : List String}

theorem materializeAll_books (opts : RuntimeOptions)
    {nowMs : Nat} (of : WorkState T → Prop) (hkeyed : Keyed s.journal) (hnodup : workIds.Nodup)
    (hexpired : ∀ workId ∈ workIds, ∃ work, s.works.lookup workId = some work ∧
      work.isExpired nowMs = true ∧ of work) (commandId : String) :
    Books opts nowMs (fun entry => Unheld entry ∧ Says s.journal of none entry) s.journal
      (materializeAll opts s workIds commandId nowMs).1.journal := by
  rw [materializeAll_fst]
  -- The works that are still to be visited are as they were at the start.
  refine foldl_books (fun work => work.isExpired nowMs = true ∧ of work ∧
    s.works.lookup work.workId = some work) ?_ workIds hkeyed hnodup fun workId hmem => ?_
  · intro s' workId work hkeyed' hfound hwork
    simp only [hfound]
    have hid := hkeyed' workId work hfound
    have hfound' : s'.works.lookup work.workId = some work := by rw [hid, hfound]
    refine ⟨(materializeLeaseExpired_booked hfound' _ hwork.1).books.mono ?_,
      fun other hother => ?_⟩
    · intro entry hentry
      refine ⟨hentry.1, fun lease hlease => ?_, hentry.2.ends⟩
      obtain ⟨w, hw, hattempt, rfl⟩ := hentry.2.returned lease hlease
      refine ⟨w, ?_, hattempt, hwork.2.1⟩
      rw [← hkeyed' entry.1 w hw]
      exact hwork.2.2
    · simp only [materializeLeaseExpired, hfound']
      exact SortedMap.lookup_insert_of_ne _ _ (hid.symm ▸ hother)
  · obtain ⟨work, hfound, hwork, hof⟩ := hexpired workId hmem
    refine ⟨work, hfound, hwork, hof, ?_⟩
    rw [hkeyed workId work hfound]
    exact hfound

theorem claimAll_fst (opts : RuntimeOptions) (s : RuntimeState T) (commandId workerId : String)
    (workIds : List String) (leaseExpiresAtMs nowMs : Nat) :
    (claimAll opts s commandId workerId workIds leaseExpiresAtMs nowMs).1 =
      workIds.foldl (fun s workId =>
        (claimOne opts s commandId workerId workId leaseExpiresAtMs nowMs).1) s := by
  have hgen (r : Answered T) : (workIds.foldl (fun r workId =>
      ((claimOne opts r.1 commandId workerId workId leaseExpiresAtMs nowMs).1,
        r.2 ++ (claimOne opts r.1 commandId workerId workId leaseExpiresAtMs nowMs).2)) r).1 =
      workIds.foldl (fun s workId =>
        (claimOne opts s commandId workerId workId leaseExpiresAtMs nowMs).1) r.1 := by
    induction workIds generalizing r with
    | nil => rfl
    | cons workId workIds ih => exact ih _
  exact hgen (s, [])

theorem claimAll_books {nowMs : Nat} (hkeyed : Keyed s.journal) (hnodup : workIds.Nodup)
    (hready : ∀ workId ∈ workIds, ∃ work, s.works.lookup workId = some work ∧
      work.isReady nowMs = true) (commandId workerId : String) (leaseExpiresAtMs : Nat) :
    Books opts nowMs (fun entry => Unheld entry ∧
      Says s.journal (fun _ => False) (some leaseExpiresAtMs) entry) s.journal
      (claimAll opts s commandId workerId workIds leaseExpiresAtMs nowMs).1.journal := by
  rw [claimAll_fst]
  refine foldl_books (fun work => work.isReady nowMs = true) ?_ workIds hkeyed hnodup
    hready
  intro s' workId work _ hfound hwork
  refine ⟨(claimOne_booked hfound commandId workerId leaseExpiresAtMs hwork).books.mono
    fun entry hentry => ⟨hentry.1, hentry.2.of_free fun _ h => h⟩, fun other hother => ?_⟩
  simp only [claimOne, hfound]
  exact SortedMap.lookup_insert_of_ne _ _ hother

theorem selected_ids (hkeyed : Keyed j) (p : WorkState T → Bool) :
    ((j.works.values.filter p).map (·.workId)).Nodup ∧
      ∀ workId ∈ (j.works.values.filter p).map (·.workId),
        ∃ work, j.works.lookup workId = some work ∧ p work = true := by
  have hids : j.works.values.map (·.workId) = j.works.entries.map (·.1) := by
    rw [SortedMap.values, map_map]
    refine map_congr_left fun e he => ?_
    exact hkeyed e.1 e.2 (SortedMap.lookup_eq_some_iff.mpr he)
  constructor
  · have hsub : ((j.works.values.filter p).map (·.workId)).Sublist
      (j.works.values.map (·.workId)) :=
      filter_sublist.map _
    rw [hids] at hsub
    exact j.works.nodup_keys.sublist hsub
  · intro workId hmem
    obtain ⟨work, hwork, rfl⟩ := mem_map.mp hmem
    obtain ⟨hin, hp⟩ := mem_filter.mp hwork
    obtain ⟨e, he, rfl⟩ := mem_map.mp hin
    have hlook := SortedMap.lookup_eq_some_iff.mpr he
    refine ⟨e.2, ?_, hp⟩
    rw [hkeyed e.1 e.2 hlook]
    exact hlook

theorem claimCandidates_ids (hkeyed : Keyed s.journal)
    (requested : List String) (limit nowMs : Nat) :
    (claimCandidates s requested limit nowMs).Nodup ∧
      ∀ workId ∈ claimCandidates s requested limit nowMs,
        ∃ work, s.works.lookup workId = some work ∧ work.isReady nowMs = true := by
  obtain ⟨hnodup, hfound⟩ := selected_ids hkeyed fun work =>
    wanted requested work && work.isReady nowMs
  generalize hworks : (s.journal.works.values.filter fun work =>
    wanted requested work && work.isReady nowMs) = works at hnodup hfound
  have heq : claimCandidates s requested limit nowMs =
      (((works.map fun work => (work.admissionSeq, work.workId)).insertionSort candidateLe).take
        limit).map (·.2) := by
    rw [← hworks]
    rfl
  -- Sorting permutes the ids and the limit cuts them off.
  have hperm : (((works.map fun work => (work.admissionSeq, work.workId)).insertionSort
      candidateLe).map (·.2)).Perm (works.map (·.workId)) := by
    refine ((perm_insertionSort candidateLe _).map (·.2)).trans ?_
    rw [map_map]
    exact List.Perm.refl _
  have hsub : (claimCandidates s requested limit nowMs).Sublist
      (((works.map fun work => (work.admissionSeq, work.workId)).insertionSort
        candidateLe).map (·.2)) := by
    rw [heq]
    exact (take_sublist limit _).map _
  refine ⟨(hperm.nodup_iff.mpr hnodup).sublist hsub, fun workId hmem => ?_⟩
  obtain ⟨work, hlook, hp⟩ := hfound workId (hperm.mem_iff.mp (hsub.subset hmem))
  exact ⟨work, hlook, (Bool.and_eq_true_iff.mp hp).2⟩

theorem claimWork_books (hkeyed : Keyed s.journal)
    (commandId workerId : String) (requestedWorkIds : List String)
    (limit leaseDurationMs : Option Nat) (nowMs : Nat) :
    Books opts nowMs (fun entry => Unheld entry ∧ Says s.journal
      (fun work => (wanted requestedWorkIds work && work.isExpired nowMs) = true)
      (some (nowMs + leaseDurationMs.getD opts.leaseDurationMs)) entry) s.journal
      (claimWork opts s commandId workerId requestedWorkIds limit
        leaseDurationMs nowMs).1.journal := by
  obtain ⟨hnodup, hfound⟩ := selected_ids hkeyed fun work =>
    wanted requestedWorkIds work && work.isExpired nowMs
  have hexpired : Books opts nowMs (fun entry => Unheld entry ∧ Says s.journal
      (fun work => (wanted requestedWorkIds work && work.isExpired nowMs) = true)
      (some (nowMs + leaseDurationMs.getD opts.leaseDurationMs)) entry) s.journal
      (materializeAll opts s ((s.works.values.filter fun work =>
        wanted requestedWorkIds work && work.isExpired nowMs).map (·.workId)) commandId
        nowMs).1.journal := by
    refine (materializeAll_books opts (fun work =>
      (wanted requestedWorkIds work && work.isExpired nowMs) = true) hkeyed hnodup
      (fun workId hmem => ?_) commandId).mono fun _ hentry => ⟨hentry.1, hentry.2.mono
        (fun _ h => h) fun _ h => (by cases h)⟩
    obtain ⟨work, hlook, hp⟩ := hfound workId hmem
    exact ⟨work, hlook, (Bool.and_eq_true_iff.mp hp).2, hp⟩
  have hkeyed' := hexpired.writes.keyed hkeyed
  obtain ⟨hnodup', hready⟩ := claimCandidates_ids hkeyed' requestedWorkIds
    (limit.getD (max requestedWorkIds.length 1)) nowMs
  simp only [claimWork]
  split
  · exact hexpired
  · split
    · exact hexpired
    · rename_i leaseExpiresAtMs htime
      rw [checkedTimestamp_eq htime]
      exact hexpired.trans ((claimAll_books hkeyed' hnodup' hready commandId workerId _).mono
        fun entry hentry => ⟨hentry.1, hentry.2.of_free fun _ h => h⟩)

/-- The works whose leases a maintenance command takes away. -/
def expiringWorks (s : RuntimeState T) (workIds : List String) (limit : Option Nat) (nowMs : Nat) :
    List (WorkState T) :=
  limited limit (s.works.values.filter fun work => work.isExpired nowMs && wanted workIds work)

theorem expireLeases_books (hkeyed : Keyed s.journal)
    (commandId : String) (workIds : List String) (limit : Option Nat) (nowMs : Nat) :
    Books opts nowMs (fun entry => Unheld entry ∧ Says s.journal
      (fun work => work.workId ∈ (expiringWorks s workIds limit nowMs).map (·.workId)) none entry)
      s.journal (expireLeases opts s commandId workIds limit nowMs).1.journal := by
  obtain ⟨hnodup, hfound⟩ := selected_ids hkeyed fun work =>
    work.isExpired nowMs && wanted workIds work
  have hsub (works : List (WorkState T)) :
      ((limited limit works).map (·.workId)).Sublist (works.map (·.workId)) := by
    cases limit with
    | none => exact List.Sublist.refl _
    | some limit => exact (take_sublist limit works).map _
  simp only [expireLeases]
  split
  · exact Books.refl _
  · refine materializeAll_books opts _ hkeyed (hnodup.sublist (hsub _))
      (fun workId hmem => ?_) commandId
    obtain ⟨work, hlook, hp⟩ := hfound workId ((hsub _).subset hmem)
    refine ⟨work, hlook, (Bool.and_eq_true_iff.mp hp).1, ?_⟩
    rw [hkeyed workId work hlook]
    exact hmem

/-! ### Every step -/

/-- The work and the lease a command speaks for. -/
def CommandBody.holder : CommandBody T → Option (String × LeaseRef)
  | .renewLease workId lease _ _ | .release workId lease _ | .complete workId lease _
  | .fail workId lease _ _ => some (workId, lease)
  | _ => none

theorem dispatchQueueCommand_written
    (hkeyed : Keyed s.journal) (commandId : String) (nowMs : Nat) {body : CommandBody T}
    (hholder : body.holder = some (workId, lease)) :
    Written opts (HeldBy workId lease nowMs) s.journal
      (dispatchQueueCommand opts s commandId nowMs body).1.journal := by
  cases body with
  | renewLease _ _ leaseDurationMs leaseExpiresAtMs =>
    obtain ⟨rfl, rfl⟩ := Prod.mk.inj (Option.some.inj hholder)
    exact (renewLease_booked hkeyed commandId _ _ leaseDurationMs leaseExpiresAtMs
      nowMs).written.mono fun _ hentry => hentry.1
  | release _ _ reason =>
    obtain ⟨rfl, rfl⟩ := Prod.mk.inj (Option.some.inj hholder)
    exact (releaseWork_booked hkeyed commandId _ _ reason nowMs).written.mono
      fun _ hentry => hentry.1
  | complete _ _ result =>
    obtain ⟨rfl, rfl⟩ := Prod.mk.inj (Option.some.inj hholder)
    exact (completeWork_booked hkeyed commandId _ _ result nowMs).written.mono
      fun _ hentry => hentry.1
  | fail _ _ error retryable =>
    obtain ⟨rfl, rfl⟩ := Prod.mk.inj (Option.some.inj hholder)
    exact (failWork_booked hkeyed commandId _ _ error retryable nowMs).written.mono
      fun _ hentry => hentry.1
  | _ => exact absurd hholder (Option.some_ne_none _).symm

theorem dispatchQueueCommand_writes
    (hkeyed : Keyed s.journal) (commandId : String) (nowMs : Nat) {body : CommandBody T}
    (hholder : body.holder = none) :
    Writes opts Unheld s.journal (dispatchQueueCommand opts s commandId nowMs body).1.journal := by
  cases body with
  | submit => exact Writes.refl _
  | claim workerId requestedWorkIds limit leaseDurationMs =>
    exact (claimWork_books hkeyed commandId workerId requestedWorkIds limit leaseDurationMs
      nowMs).writes.mono fun _ hentry => hentry.1
  | cancel workId reason =>
    exact (cancelWork_booked commandId workId reason nowMs).books.writes.mono
      fun _ hentry => hentry.1
  | schedule workId scheduleId notBeforeMs deadlineMs reason =>
    exact (scheduleWork_booked commandId workId scheduleId notBeforeMs deadlineMs reason
      nowMs).books.writes.mono fun _ hentry => hentry.1
  | expireLeases workIds limit =>
    exact (expireLeases_books hkeyed commandId workIds limit nowMs).writes.mono
      fun _ hentry => hentry.1
  | _ => exact absurd hholder (Option.some_ne_none _)

/-- A command passes the checks: it is well formed, and neither its id nor its key has
    come before. -/
def RuntimeState.takes (s : RuntimeState T) (opts : RuntimeOptions) (command : WorkQueueCommand T) :
    Bool :=
  (validateQueueCommand opts.queueId command).isNone && decide (command.commandId ∉ s.commandIds) &&
    !command.idempotencyKey.any fun key => decide (key ∈ s.idempotencyKeys)

theorem takes_valid {command : WorkQueueCommand T}
    (h : s.takes opts command = true) : command.body.malformed = none := by
  rw [RuntimeState.takes, Bool.and_eq_true, Bool.and_eq_true, Option.isNone_iff_eq_none,
    validateQueueCommand] at h
  have hvalid := h.1.1
  split_ifs at hvalid with hid hqueue
  exact Option.map_eq_none_iff.mp hvalid

theorem reduceQueueCommand_taken
    {command : WorkQueueCommand T} (h : s.takes opts command = true) (nowMs : Nat) :
    reduceQueueCommand opts s command nowMs =
      dispatchQueueCommand opts (s.note command) command.commandId nowMs command.body := by
  rw [RuntimeState.takes, Bool.and_eq_true, Bool.and_eq_true, Option.isNone_iff_eq_none,
    decide_eq_true_iff, Bool.not_eq_true'] at h
  rw [reduceQueueCommand, h.1.1]
  simp only []
  rw [if_neg h.1.2, if_neg (by rw [h.2]; exact Bool.false_ne_true)]

theorem reduceQueueCommand_refused
    {command : WorkQueueCommand T} (h : s.takes opts command = false) (nowMs : Nat) :
    ∃ code message, reduceQueueCommand opts s command nowMs =
      (s, rejectQueueCommand opts command code message nowMs) := by
  rw [reduceQueueCommand]
  cases hvalid : validateQueueCommand opts.queueId command with
  | some refusal => exact ⟨refusal.1, refusal.2, rfl⟩
  | none =>
    simp only []
    split_ifs with hid hkey
    · exact ⟨_, _, rfl⟩
    · exact ⟨_, _, rfl⟩
    · rw [RuntimeState.takes, hvalid, decide_eq_true hid, Bool.eq_false_of_not_eq_true hkey] at h
      exact absurd h.symm Bool.false_ne_true

theorem reduceQueueCommand_cases (opts : RuntimeOptions) (s : RuntimeState T)
    (command : WorkQueueCommand T) (nowMs : Nat) :
    (reduceQueueCommand opts s command nowMs).1.journal = s.journal ∨
      reduceQueueCommand opts s command nowMs =
        dispatchQueueCommand opts (s.note command) command.commandId nowMs command.body := by
  cases htakes : s.takes opts command with
  | true => exact Or.inr (reduceQueueCommand_taken htakes nowMs)
  | false =>
    obtain ⟨code, message, heq⟩ := reduceQueueCommand_refused htakes nowMs
    rw [heq]
    exact Or.inl rfl

/-- A command writes a series that is nobody's, or speaks for a lease and writes at once. -/
theorem reduceQueueCommand_writes (opts : RuntimeOptions)
    (hkeyed : Keyed s.journal) (command : WorkQueueCommand T) (nowMs : Nat) :
    Writes opts Unheld s.journal (reduceQueueCommand opts s command nowMs).1.journal ∨
      ∃ workId lease, command.body.holder = some (workId, lease) ∧
        Written opts (HeldBy workId lease nowMs) s.journal
          (reduceQueueCommand opts s command nowMs).1.journal := by
  rcases reduceQueueCommand_cases opts s command nowMs with heq | heq
  · rw [heq]
    exact Or.inl (Writes.refl _)
  · have hnote : Keyed (s.note command).journal := hkeyed
    rw [heq]
    cases hholder : command.body.holder with
    | none => exact Or.inl (dispatchQueueCommand_writes hnote command.commandId nowMs hholder)
    | some held =>
      exact Or.inr ⟨held.1, held.2, rfl,
        dispatchQueueCommand_written hnote command.commandId nowMs hholder⟩

theorem queueStep_writes (opts : RuntimeOptions) (hkeyed : Keyed s.journal) (step : QueueStep T) :
    Writes opts (fun _ => True) s.journal (queueStep opts s step).1.journal := by
  cases step with
  | admission message nowMs =>
    exact (admitMessage_written opts s message nowMs).writes.mono fun _ _ => trivial
  | command command nowMs =>
    rcases reduceQueueCommand_writes opts hkeyed command nowMs with hwrites | ⟨_, _, _, hwritten⟩
    · exact hwrites.mono fun _ _ => trivial
    · exact hwritten.writes.mono fun _ _ => trivial

/-- The works whose lease a command takes away without an outcome, once it is carried out. -/
def CommandBody.returns (body : CommandBody T) (s : RuntimeState T) (nowMs : Nat)
    (work : WorkState T) : Bool :=
  match body with
  | claim _ requestedWorkIds _ _ => wanted requestedWorkIds work && work.isExpired nowMs
  | expireLeases workIds limit =>
    decide (work.workId ∈ (expiringWorks s workIds limit nowMs).map (·.workId))
  | release workId lease _ => lease.names workId work
  | renewLease workId lease _ _ | complete workId lease _ | fail workId lease _ _ =>
    lease.names workId work && work.isExpired nowMs
  | _ => false

/-- The time of a step. -/
def QueueStep.nowMs : QueueStep T → Nat
  | admission _ nowMs | command _ nowMs => nowMs

/-- The works whose lease a step takes away without an outcome. -/
def QueueStep.returns (step : QueueStep T) (opts : RuntimeOptions) (s : RuntimeState T)
    (work : WorkState T) : Bool :=
  match step with
  | admission .. => false
  | command c nowMs => s.takes opts c && c.body.returns s nowMs work

/-- The end a command gives the leases it issues or renews. -/
def CommandBody.leaseEnd (body : CommandBody T) (opts : RuntimeOptions) (nowMs : Nat) :
    Option Nat :=
  match body with
  | claim _ _ _ leaseDurationMs => some (nowMs + leaseDurationMs.getD opts.leaseDurationMs)
  | renewLease _ _ leaseDurationMs leaseExpiresAtMs =>
    some (renewalEnd opts leaseDurationMs leaseExpiresAtMs nowMs)
  | _ => none

/-- The end a step gives the leases it issues or renews. -/
def QueueStep.leaseEnd (step : QueueStep T) (opts : RuntimeOptions) : Option Nat :=
  match step with
  | admission .. => none
  | command c nowMs => c.body.leaseEnd opts nowMs

theorem dispatchQueueCommand_books
    (hkeyed : Keyed s.journal) (commandId : String) (nowMs : Nat) (body : CommandBody T) :
    Books opts nowMs (Says s.journal (fun work => body.returns s nowMs work = true)
      (body.leaseEnd opts nowMs)) s.journal
      (dispatchQueueCommand opts s commandId nowMs body).1.journal := by
  cases body with
  | submit => exact Books.refl _
  | claim workerId requestedWorkIds limit leaseDurationMs =>
    exact (claimWork_books hkeyed commandId workerId requestedWorkIds limit leaseDurationMs
      nowMs).mono fun _ hentry => hentry.2
  | renewLease workId lease leaseDurationMs leaseExpiresAtMs =>
    exact (renewLease_booked hkeyed commandId workId lease leaseDurationMs leaseExpiresAtMs
      nowMs).books.mono fun _ hentry => hentry.2
  | release workId lease reason =>
    exact (releaseWork_booked hkeyed commandId workId lease reason nowMs).books.mono
      fun _ hentry => hentry.2
  | complete workId lease result =>
    exact (completeWork_booked hkeyed commandId workId lease result nowMs).books.mono
      fun _ hentry => hentry.2
  | fail workId lease error retryable =>
    exact (failWork_booked hkeyed commandId workId lease error retryable nowMs).books.mono
      fun _ hentry => hentry.2
  | cancel workId reason =>
    exact (cancelWork_booked commandId workId reason nowMs).books.mono
      fun _ hentry => hentry.2.of_free fun _ h => h
  | schedule workId scheduleId notBeforeMs deadlineMs reason =>
    exact (scheduleWork_booked commandId workId scheduleId notBeforeMs deadlineMs reason
      nowMs).books.mono fun _ hentry => hentry.2.of_free fun _ h => h
  | expireLeases workIds limit =>
    exact (expireLeases_books hkeyed commandId workIds limit nowMs).mono fun _ hentry =>
      hentry.2.mono (fun _ hid => decide_eq_true hid) fun _ h => h

/-- Every step is a series of grounded entries. -/
theorem queueStep_books (opts : RuntimeOptions) (hkeyed : Keyed s.journal) (step : QueueStep T) :
    Books opts step.nowMs (Says s.journal (fun work => step.returns opts s work = true)
      (step.leaseEnd opts)) s.journal (queueStep opts s step).1.journal := by
  cases step with
  | admission message nowMs =>
    exact (admitMessage_booked opts s message nowMs).books.mono
      fun _ hentry => hentry.2.of_free fun _ h => h
  | command command nowMs =>
    cases htakes : s.takes opts command with
    | false =>
      obtain ⟨code, message, heq⟩ := reduceQueueCommand_refused htakes nowMs
      rw [queueStep, heq]
      exact Books.refl _
    | true =>
      have hnote : Keyed (s.note command).journal := hkeyed
      rw [queueStep, reduceQueueCommand_taken htakes]
      refine (dispatchQueueCommand_books hnote command.commandId nowMs command.body).mono ?_
      intro entry hentry
      exact hentry.mono (fun work hreturns => Bool.and_eq_true_iff.mpr ⟨htakes, hreturns⟩)
        fun _ h => h

theorem keyed_default : Keyed (RuntimeState.default : RuntimeState T).journal := by
  intro workId work hlook
  exact absurd hlook (by simp [RuntimeState.journal, RuntimeState.default])

/-- Every run is a series of justified entries. -/
theorem queueRun_writes (opts : RuntimeOptions) (hkeyed : Keyed s.journal)
    (steps : List (QueueStep T)) :
    Writes opts (fun _ => True) s.journal (queueRun opts s steps).journal := by
  induction steps generalizing s with
  | nil => exact Writes.refl _
  | cons step steps ih =>
    have hstep := queueStep_writes opts hkeyed step
    exact hstep.trans (ih (hstep.keyed hkeyed))

end GraphRefly.WorkQueue
