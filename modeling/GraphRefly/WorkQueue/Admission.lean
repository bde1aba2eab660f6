import GraphRefly.Messaging.Serving
import GraphRefly.WorkQueue.Leases

/-!
# Admission

What a queue does with a page of messages from its subscription: it admits them
in order, and answers every admission record with an ack. The queue remembers by
topic and number what it has seen, so that a message that comes again is passed
over; the commands of workers leave this memory alone.

Acks are cumulative. An ack must not pass a message that is not recorded yet, and
it does not when the page reads on from a position below which everything is
recorded.

## Main definitions

* `admitPage`, `admissionAcks`: A page is admitted, and its records are acked.
* `Deduped`: The sources that are remembered are those of the records.
* `Aside`: What a command leaves to admissions.
* `Accounted`: Every work has one record of its admission.
* `Covers`: All messages from a number up to another are recorded.

## Theorems

* `Deduped.admit`: A message is recorded once.
* `reduceQueueCommand_aside`: Commands admit nothing.
* `admitPage_covers`: Admitting a page from a covered position.
-/

namespace GraphRefly.WorkQueue

open List GraphRefly.Lib GraphRefly.Messaging

variable {T : Type}

/-! ### Pages and acks -/

/-- The ack an admission record is answered with. -/
def admissionAckCommand (record : WorkQueueRecord T) :
    Option (MessageBusCommand (WorkQueueSubmit T)) :=
  record.body.admissionMessageBus.map fun messageBus =>
    .ack messageBus.topic messageBus.subscriptionId messageBus.seq
      (some (Json.compoundTupleKey "work-queue-admission-ack"
        [record.queueId, messageBus.topic, messageBus.subscriptionId, toString messageBus.seq]))

/-- The acks for the records among some facts. -/
def admissionAcks (events : List (QueueEvent T)) : List (MessageBusCommand (WorkQueueSubmit T)) :=
  events.filterMap fun
    | .record record => admissionAckCommand record
    | _ => none

/-- Admit the messages of a page in order, each at a reading of the clock. -/
def admitPage (opts : RuntimeOptions) (now : Nat → Nat) (s : RuntimeState T) :
    List (MessageEnvelope (WorkQueueSubmit T)) → Answered T
  | [] => (s, [])
  | message :: messages =>
    let first := admitMessage opts s message (now 0)
    let rest := admitPage opts (fun k => now (k + 1)) first.1 messages
    (rest.1, first.2 ++ rest.2)

/-! ### What the queue has recorded -/

/-- The messages the log has an admission record for. -/
def RuntimeState.admissions (s : RuntimeState T) : List WorkQueueMessageBusRef :=
  s.records.filterMap (·.body.admissionMessageBus)

/-- The sources that are remembered are those of the records, and none has two. -/
structure Deduped (opts : RuntimeOptions) (s : RuntimeState T) : Prop where
  named : ∀ source ∈ s.admissions, source.subscriptionId = opts.subscriptionId
  seen : ∀ topic seq, Json.canonicalTupleKey [topic, toString seq] ∈ s.sourceSeqs ↔
    { topic := topic, seq := seq, subscriptionId := opts.subscriptionId } ∈ s.admissions
  once : s.admissions.Nodup

theorem deduped_default (opts : RuntimeOptions) :
    Deduped opts (RuntimeState.default : RuntimeState T) where
  named := fun _ h => absurd h not_mem_nil
  seen topic seq := by simp [RuntimeState.default, RuntimeState.admissions]
  once := nodup_nil

/-- The source a message is admitted under. -/
def sourceOf (opts : RuntimeOptions) (message : MessageEnvelope (WorkQueueSubmit T)) :
    WorkQueueMessageBusRef :=
  { topic := message.topic, seq := message.seq, subscriptionId := opts.subscriptionId }

/-- A message is passed over, or it is recorded and its record acked. -/
theorem admitMessage_cases (opts : RuntimeOptions) (s : RuntimeState T)
    (message : MessageEnvelope (WorkQueueSubmit T)) (nowMs : Nat) :
    (admissionSource message ∈ s.sourceSeqs ∧ admitMessage opts s message nowMs = (s, [])) ∨
      (admissionSource message ∉ s.sourceSeqs ∧
        let r := admitMessage opts s message nowMs
        r.1.sourceSeqs = insert (admissionSource message) s.sourceSeqs ∧
        r.1.admissions = s.admissions ++ [sourceOf opts message] ∧
        ∃ id, admissionAcks r.2 =
          [.ack message.topic opts.subscriptionId message.seq id]) := by
  by_cases hseen : admissionSource message ∈ s.sourceSeqs
  · refine Or.inl ⟨hseen, ?_⟩
    rw [admitMessage, if_pos hseen]
  · refine Or.inr ⟨hseen, ?_⟩
    rw [admitMessage, if_neg hseen]
    cases hlook : s.works.lookup (admissionWorkId opts message) with
    | some work =>
      simp only [hlook]
      exact ⟨rfl, filterMap_append, _, rfl⟩
    | none =>
      simp only [hlook]
      exact ⟨rfl, filterMap_append, _, rfl⟩

/-- Whether the log has an admission record for a message. -/
def RuntimeState.admitted (s : RuntimeState T) (topic : String) (seq : Nat) : Prop :=
  ∃ source ∈ s.admissions, source.topic = topic ∧ source.seq = seq

variable {opts : RuntimeOptions} {s : RuntimeState T}

theorem Deduped.admit (h : Deduped opts s)
    (message : MessageEnvelope (WorkQueueSubmit T)) (nowMs : Nat) :
    let s' := (admitMessage opts s message nowMs).1
    Deduped opts s' ∧ s'.admitted message.topic message.seq ∧
      ∀ topic seq, s.admitted topic seq → s'.admitted topic seq := by
  rcases admitMessage_cases opts s message nowMs with ⟨hseen, heq⟩ |
    ⟨hnew, hsources, hadmissions, _⟩
  · rw [heq]
    refine ⟨h, ⟨_, (h.seen message.topic message.seq).mp hseen, rfl, rfl⟩, fun _ _ had => had⟩
  · have hfresh : sourceOf opts message ∉ s.admissions := by
      intro hmem
      exact hnew ((h.seen message.topic message.seq).mpr hmem)
    refine ⟨⟨?_, fun topic seq => ?_, ?_⟩, ⟨sourceOf opts message, ?_, rfl, rfl⟩, ?_⟩
    · intro source hmem
      rw [hadmissions, mem_append, mem_singleton] at hmem
      rcases hmem with hmem | rfl
      · exact h.named source hmem
      · rfl
    · rw [hsources, hadmissions, Finset.mem_insert, mem_append, mem_singleton,
        h.seen topic seq, or_comm]
      refine or_congr_right ⟨fun heq => ?_, fun heq => ?_⟩
      · -- The key of a source tells its topic and its number.
        have hparts := Json.canonicalTupleKey_injective heq
        rw [List.cons.injEq, List.cons.injEq] at hparts
        rw [hparts.1, Json.toString_nat_injective hparts.2.1]
        rfl
      · rw [sourceOf, WorkQueueMessageBusRef.mk.injEq] at heq
        rw [heq.1, heq.2.1]
        rfl
    · rw [hadmissions, nodup_append]
      refine ⟨h.once, nodup_singleton _, fun a ha b hb heq => ?_⟩
      rw [mem_singleton.mp hb] at heq
      exact hfresh (heq ▸ ha)
    · rw [hadmissions]
      exact mem_append_right _ mem_cons_self
    · rintro topic seq ⟨source, hmem, hboth⟩
      refine ⟨source, ?_, hboth⟩
      rw [hadmissions]
      exact mem_append_left _ hmem

/-! ### Commands admit nothing -/

/-- What happens beside admissions: no source is remembered, and nothing that is reported
    is acked. -/
structure Aside (s : RuntimeState T) (r : Answered T) : Prop where
  sources : r.1.sourceSeqs = s.sourceSeqs
  acks : admissionAcks r.2 = []

@[simp] theorem admissionAcks_append (events later : List (QueueEvent T)) :
    admissionAcks (events ++ later) = admissionAcks events ++ admissionAcks later :=
  filterMap_append

variable {events : List (QueueEvent T)}

variable {record : WorkQueueRecord T}

/-- A record that is no admission is not acked. -/
theorem admissionAcks_cons (h : record.body.admissionMessageBus = none) :
    admissionAcks (.record record :: events) = admissionAcks events := by
  have hnone : admissionAckCommand record = none := by
    rw [admissionAckCommand, h]
    rfl
  exact filterMap_cons_none hnone

theorem admissionAcks_accepted
    (h : record.body.admissionMessageBus = none) (workId commandId : Option String) (nowMs : Nat) :
    admissionAcks (accepted opts record workId commandId nowMs) = [] :=
  admissionAcks_cons h

variable {r : Answered T}

variable {r' : Answered T}

theorem Aside.trans (h : Aside s r) (h' : Aside r.1 r') (hevents : admissionAcks events = []) :
    Aside s (r'.1, r.2 ++ r'.2 ++ events) := by
  refine ⟨h'.sources.trans h.sources, ?_⟩
  rw [admissionAcks_append, admissionAcks_append, h.acks, h'.acks, hevents]
  rfl

theorem Aside.with
    (h : Aside s r) (hevents : admissionAcks events = []) : Aside s (r.1, r.2 ++ events) := by
  refine ⟨h.sources, ?_⟩
  rw [admissionAcks_append, h.acks, hevents]
  rfl

theorem materializeLeaseExpired_aside (opts : RuntimeOptions) (s : RuntimeState T)
    (work : WorkState T) (commandId : Option String) (nowMs : Nat) :
    Aside s (materializeLeaseExpired opts s work commandId nowMs) := by
  rw [materializeLeaseExpired]
  split
  · exact ⟨rfl, rfl⟩
  · exact ⟨rfl, admissionAcks_cons rfl⟩

variable {commandId : Option String} {nowMs : Nat}

theorem currentLease_aside {workId : String} {lease : LeaseRef} {refused : Answered T}
    (h : currentLease opts s workId lease commandId nowMs = .error refused) :
    Aside s refused := by
  rw [currentLease] at h
  cases hlook : s.works.lookup workId with
  | none =>
    rw [hlook] at h
    rw [← Except.error.inj h]
    exact ⟨rfl, rfl⟩
  | some work =>
    rw [hlook] at h
    simp only [] at h
    split_ifs at h
    all_goals rw [← Except.error.inj h]
    · exact ⟨rfl, rfl⟩
    · exact ⟨rfl, rfl⟩
    · exact ⟨rfl, rfl⟩
    · exact ⟨rfl, rfl⟩
    · exact ⟨rfl, rfl⟩
    · exact (materializeLeaseExpired_aside opts s work commandId nowMs).with rfl

/-- A loop of steps that are all beside admissions. -/
theorem foldl_aside {step : Answered T → String → Answered T}
    (hstep : ∀ r workId, Aside s r → Aside s (step r workId)) (workIds : List String)
    (h : Aside s r) : Aside s (workIds.foldl step r) := by
  induction workIds generalizing r with
  | nil => exact h
  | cons workId workIds ih => exact ih (hstep r workId h)

theorem Aside.next (h : Aside s r) (h' : Aside r.1 r') :
    Aside s (r'.1, r.2 ++ r'.2) := by
  refine ⟨h'.sources.trans h.sources, ?_⟩
  rw [admissionAcks_append, h.acks, h'.acks]
  rfl

section

variable (opts : RuntimeOptions) (s : RuntimeState T)

theorem materializeAll_aside (workIds : List String) (commandId : String) (nowMs : Nat) :
    Aside s (materializeAll opts s workIds commandId nowMs) := by
  refine foldl_aside (fun r workId h => ?_) workIds ⟨rfl, rfl⟩
  cases r.1.works.lookup workId with
  | none => exact h
  | some work =>
    exact h.next (materializeLeaseExpired_aside opts r.1 work (some commandId) nowMs)

theorem claimOne_aside (commandId workerId workId : String) (leaseExpiresAtMs nowMs : Nat) :
    Aside s (claimOne opts s commandId workerId workId leaseExpiresAtMs nowMs) := by
  simp only [claimOne]
  split
  · exact ⟨rfl, rfl⟩
  · exact ⟨rfl, admissionAcks_accepted rfl _ _ _⟩

theorem claimAll_aside (commandId workerId : String)
    (workIds : List String) (leaseExpiresAtMs nowMs : Nat) :
    Aside s (claimAll opts s commandId workerId workIds leaseExpiresAtMs nowMs) := by
  refine foldl_aside (fun r workId h => ?_) workIds ⟨rfl, rfl⟩
  exact h.next (claimOne_aside opts r.1 commandId workerId workId leaseExpiresAtMs nowMs)

theorem admissionAcks_claimMissEvents
    (commandId : String) (requested claimed : List String) (nowMs : Nat) :
    admissionAcks (claimMissEvents opts s commandId requested claimed nowMs) = [] := by
  rw [claimMissEvents, admissionAcks, filterMap_flatMap, flatMap_eq_nil_iff]
  intro workId _
  split
  · rfl
  · split_ifs <;> rfl

theorem claimWork_aside (commandId workerId : String)
    (requestedWorkIds : List String) (limit leaseDurationMs : Option Nat) (nowMs : Nat) :
    Aside s (claimWork opts s commandId workerId requestedWorkIds limit leaseDurationMs nowMs) := by
  have hexpired (workIds : List String) := materializeAll_aside opts s workIds commandId nowMs
  simp only [claimWork]
  split
  · refine (hexpired _).with ?_
    split_ifs
    · rfl
    · exact admissionAcks_claimMissEvents opts _ commandId _ _ nowMs
  · split
    · rename_i events htime
      refine ⟨(hexpired _).sources, ?_⟩
      rw [checkedTimestamp] at htime
      split_ifs at htime
      rw [← Except.error.inj htime]
      rfl
    · refine (hexpired _).trans (claimAll_aside opts _ commandId workerId _ _ nowMs) ?_
      split_ifs
      · rfl
      · exact admissionAcks_claimMissEvents opts _ commandId _ _ nowMs

end

theorem checkedTimestamp_acks {deltaMs : Nat} {message : String}
    (h : checkedTimestamp opts commandId nowMs deltaMs message = .error events) :
    admissionAcks events = [] := by
  rw [checkedTimestamp] at h
  split_ifs at h
  rw [← Except.error.inj h]
  rfl

theorem dispatchQueueCommand_aside (opts : RuntimeOptions) (s : RuntimeState T)
    (commandId : String) (nowMs : Nat) (body : CommandBody T) :
    Aside s (dispatchQueueCommand opts s commandId nowMs body) := by
  cases body with
  | submit => exact ⟨rfl, rfl⟩
  | claim workerId requestedWorkIds limit leaseDurationMs =>
    exact claimWork_aside opts s commandId workerId requestedWorkIds limit leaseDurationMs nowMs
  | renewLease workId lease leaseDurationMs leaseExpiresAtMs =>
    simp only [dispatchQueueCommand, renewLease]
    split
    · rename_i hrefused
      exact currentLease_aside hrefused
    · split
      · rename_i events htime
        refine ⟨rfl, ?_⟩
        cases leaseExpiresAtMs with
        | none => exact checkedTimestamp_acks htime
        | some value => cases htime
      · exact ⟨rfl, admissionAcks_accepted rfl _ _ _⟩
  | release workId lease reason =>
    simp only [dispatchQueueCommand, releaseWork]
    split
    · rename_i hrefused
      exact currentLease_aside hrefused
    · exact ⟨rfl, admissionAcks_accepted rfl _ _ _⟩
  | complete workId lease result =>
    simp only [dispatchQueueCommand, completeWork]
    split
    · rename_i hrefused
      exact currentLease_aside hrefused
    · exact ⟨rfl, (admissionAcks_cons rfl).trans (admissionAcks_accepted rfl _ _ _)⟩
  | fail workId lease error retryable =>
    simp only [dispatchQueueCommand, failWork]
    split
    · rename_i hrefused
      exact currentLease_aside hrefused
    · split
      · split
        · rename_i events htime
          exact ⟨rfl, checkedTimestamp_acks htime⟩
        · exact ⟨rfl, (admissionAcks_cons rfl).trans (admissionAcks_accepted rfl _ _ _)⟩
      · exact ⟨rfl, (admissionAcks_cons rfl).trans (admissionAcks_accepted rfl _ _ _)⟩
  | cancel workId reason =>
    simp only [dispatchQueueCommand, cancelWork]
    split
    · exact ⟨rfl, rfl⟩
    · split
      · exact ⟨rfl, rfl⟩
      · exact ⟨rfl, admissionAcks_accepted rfl _ _ _⟩
  | schedule workId scheduleId notBeforeMs deadlineMs reason =>
    simp only [dispatchQueueCommand, scheduleWork]
    split
    · exact ⟨rfl, rfl⟩
    · split
      · exact ⟨rfl, rfl⟩
      · split
        · exact ⟨rfl, rfl⟩
        · exact ⟨rfl, admissionAcks_accepted rfl _ _ _⟩
  | expireLeases workIds limit =>
    simp only [dispatchQueueCommand, expireLeases]
    split
    · exact ⟨rfl, rfl⟩
    · exact (materializeAll_aside opts s _ commandId nowMs).with rfl

theorem reduceQueueCommand_aside (opts : RuntimeOptions) (s : RuntimeState T)
    (command : WorkQueueCommand T) (nowMs : Nat) :
    Aside s (reduceQueueCommand opts s command nowMs) := by
  rw [reduceQueueCommand]
  split
  · exact ⟨rfl, rfl⟩
  · split_ifs
    · exact ⟨rfl, rfl⟩
    · exact ⟨rfl, rfl⟩
    · obtain ⟨hsources, hacks⟩ := dispatchQueueCommand_aside opts (s.note command) command.commandId
        nowMs command.body
      exact ⟨hsources, hacks⟩

theorem Deduped.command (h : Deduped opts s)
    (hkeyed : Keyed s.journal) (command : WorkQueueCommand T) (nowMs : Nat) :
    let s' := (reduceQueueCommand opts s command nowMs).1
    Deduped opts s' ∧ s'.admissions = s.admissions := by
  intro s'
  have hsources : s'.sourceSeqs = s.sourceSeqs :=
    (reduceQueueCommand_aside opts s command nowMs).sources
  have hadmissions : s'.admissions = s.admissions := by
    have hof {kind : Entry T → Prop} (hwrites : Writes opts kind s.journal s'.journal)
        (hkind : ∀ entry, kind entry → entry.2.admissionMessageBus = none) :
        s'.admissions = s.admissions := by
      obtain ⟨appended, hrecords, happended⟩ := hwrites.appended
      have hnone : appended.filterMap (·.body.admissionMessageBus) = [] :=
        filterMap_eq_nil_iff.mpr fun record hmem => hkind _ (happended record hmem)
      have hlog : s'.records = s.records ++ appended := hrecords
      rw [RuntimeState.admissions, hlog, filterMap_append, hnone, append_nil]
      rfl
    rcases reduceQueueCommand_writes opts hkeyed command nowMs with hwrites | ⟨_, _, _, hwritten⟩
    · exact hof hwrites fun entry hentry => hentry.2
    · exact hof hwritten.writes fun entry hentry => hentry.2
  refine ⟨⟨?_, fun topic seq => ?_, ?_⟩, hadmissions⟩
  · rw [hadmissions]
    exact h.named
  · rw [hadmissions, hsources]
    exact h.seen topic seq
  · rw [hadmissions]
    exact h.once

/-! ### Every work is admitted once -/

/-- A work has one record of its admission, and every admission record is about a work. -/
structure Accounted (j : Journal T) : Prop where
  once : ∀ workId, (about workId j.entries).countP (·.admits) =
    if (j.works.lookup workId).isSome then 1 else 0
  known : ∀ entry ∈ j.entries, entry.2.admissionMessageBus.isSome →
    (j.works.lookup entry.1).isSome

variable {j : Journal T}

variable {entries : List (Entry T)}

/-- An admission is about a work that was not there, and everything else about one that was. -/
theorem justified_admits (hjust : Justified j entries) :
    (∃ workId body, entries = [(workId, body)] ∧ body.admits = true ∧
        j.works.lookup workId = none) ∨
      ∀ entry ∈ entries, entry.2.admits = false ∧ (j.works.lookup entry.1).isSome := by
  have hone {workId : String} {body : RecordBody T} {work : WorkState T}
      (hfound : j.works.lookup workId = some work) (hbody : body.admits = false) :
      ∀ entry ∈ [(workId, body)], entry.2.admits = false ∧ (j.works.lookup entry.1).isSome := by
    refine forall_mem_singleton.mpr ⟨hbody, ?_⟩
    rw [hfound]
    rfl
  have hpair {workId : String} {first second : RecordBody T} {work : WorkState T}
      (hfound : j.works.lookup workId = some work) (hfirst : first.admits = false)
      (hsecond : second.admits = false) : ∀ entry ∈ [(workId, first), (workId, second)],
        entry.2.admits = false ∧ (j.works.lookup entry.1).isSome := by
    intro entry hmem
    rcases mem_pair.mp hmem with rfl | rfl
    · exact hone hfound hfirst _ mem_cons_self
    · exact hone hfound hsecond _ mem_cons_self
  cases hjust with
  | admitted hnew => exact Or.inl ⟨_, _, rfl, rfl, hnew⟩
  | deduped hfound => exact Or.inr (hone hfound rfl)
  | scheduled hfound => exact Or.inr (hone hfound rfl)
  | claimed hfound => exact Or.inr (hone hfound rfl)
  | expired hfound => exact Or.inr (hone hfound rfl)
  | canceled hfound => exact Or.inr (hone hfound rfl)
  | renewed hholds => exact Or.inr (hone hholds.found rfl)
  | released hholds => exact Or.inr (hone hholds.found rfl)
  | completed hholds => exact Or.inr (hpair hholds.found rfl rfl)
  | retried hholds => exact Or.inr (hpair hholds.found rfl rfl)
  | givenUp hholds => exact Or.inr (hpair hholds.found rfl rfl)

/-- A work is there after an entry if it was, or if the entry admits it. -/
theorem isSome_write (j : Journal T) (opts : RuntimeOptions) (entry : Entry T) (workId : String) :
    ((j.write opts entry).works.lookup workId).isSome =
      ((j.works.lookup workId).isSome || (decide (entry.1 = workId) && entry.2.admits)) := by
  have hworks : (j.write opts entry).works = applyRecord j.works (j.nextRecord opts entry) := rfl
  rw [hworks]
  by_cases hid : workId = entry.1
  · subst hid
    cases hadmits : entry.2.admits with
    | false =>
      have hself := lookup_applyRecord_self j.works (j.nextRecord opts entry) hadmits
      have hid : (j.nextRecord opts entry).workId = entry.1 := rfl
      rw [hid] at hself
      rw [hself, Option.isSome_map, Bool.and_false, Bool.or_false]
    | true =>
      obtain ⟨workId, body⟩ := entry
      cases body with
      | workAdmitted => simp [applyRecord, Journal.nextRecord]
      | _ => exact absurd hadmits (by simp [RecordBody.admits])
  · have hother : workId ≠ (j.nextRecord opts entry).workId := hid
    rw [lookup_applyRecord _ _ hother, decide_eq_false (Ne.symm hid), Bool.false_and, Bool.or_false]

theorem isSome_writeAll (j : Journal T) (opts : RuntimeOptions) (entries : List (Entry T))
    (workId : String) : ((j.writeAll opts entries).works.lookup workId).isSome =
      ((j.works.lookup workId).isSome || (about workId entries).any (·.admits)) := by
  induction entries generalizing j with
  | nil => exact (Bool.or_false _).symm
  | cons entry entries ih =>
    have habout : (about workId (entry :: entries)).any (·.admits) =
        ((decide (entry.1 = workId) && entry.2.admits) ||
          (about workId entries).any (·.admits)) := by
      rw [about, filter_cons]
      by_cases hid : entry.1 = workId
      · rw [if_pos (decide_eq_true hid), map_cons, any_cons, decide_eq_true hid,
          Bool.true_and]
        rfl
      · rw [if_neg (by simpa using hid), decide_eq_false hid, Bool.false_and, Bool.false_or]
        rfl
    rw [Journal.writeAll, ih, isSome_write, habout, Bool.or_assoc]

theorem Accounted.writeAll (h : Accounted j) (hjust : Justified j entries) :
    Accounted (j.writeAll opts entries) := by
  have hlog := entries_writeAll j opts entries
  have hsome := isSome_writeAll j opts entries
  constructor
  · intro workId
    rw [hlog, about_append, countP_append, h.once, hsome]
    rcases justified_admits hjust with ⟨admitted, body, rfl, hbody, hnew⟩ | hnone
    · by_cases hid : admitted = workId
      · have habout : about workId [(admitted, body)] = [body] := by
          rw [← hid]
          exact about_self admitted [body]
        rw [habout, ← hid, hnew]
        simp [hbody]
      · have habout : about workId [(admitted, body)] = [] := about_other (Ne.symm hid) [body]
        rw [habout]
        simp
    · have hquiet : ∀ body ∈ about workId entries, ¬ body.admits = true := by
        intro body hmem
        obtain ⟨entry, hin, rfl⟩ := mem_map.mp hmem
        rw [(hnone entry (mem_of_mem_filter hin)).1]
        exact Bool.false_ne_true
      have hany : (about workId entries).any (·.admits) = false := by
        rw [any_eq_false]
        exact hquiet
      rw [countP_eq_zero.mpr hquiet, hany, Bool.or_false, Nat.add_zero]
  · intro entry hmem hsource
    rw [hlog, mem_append] at hmem
    rw [hsome]
    rcases hmem with hmem | hmem
    · rw [h.known entry hmem hsource, Bool.true_or]
    · rcases justified_admits hjust with ⟨admitted, body, rfl, hbody, hnew⟩ | hnone
      · have habout : about admitted [(admitted, body)] = [body] := about_self admitted [body]
        rw [mem_singleton.mp hmem, habout, any_cons, hbody, Bool.true_or, Bool.or_true]
      · rw [(hnone entry hmem).2, Bool.true_or]

theorem accounted_default : Accounted (RuntimeState.default : RuntimeState T).journal :=
  ⟨fun _ => rfl, fun _ h => absurd h not_mem_nil⟩

theorem admitPage_writes (opts : RuntimeOptions) (now : Nat → Nat) (s : RuntimeState T)
    (page : List (MessageEnvelope (WorkQueueSubmit T))) :
    Writes opts (fun _ => True) s.journal (admitPage opts now s page).1.journal := by
  induction page generalizing s now with
  | nil => exact Writes.refl _
  | cons message page ih =>
    have hfirst := (admitMessage_written opts s message (now 0)).writes.mono fun _ _ => trivial
    exact hfirst.trans (ih (fun k => now (k + 1)) _)

theorem Accounted.writes {kind : Entry T → Prop} {j' : Journal T}
    (h : Accounted j) (hwrites : Writes opts kind j j') : Accounted j' := by
  have hstep (j : Journal T) (entries : List (Entry T)) (hjust : Justified j entries)
      (haccounted : Accounted j) : Accounted (j.writeAll opts entries) :=
    haccounted.writeAll hjust
  exact hwrites.invariant hstep h

/-- The acks for a page of one topic are for this topic. -/
theorem admitPage_acks {topic : String} (now : Nat → Nat)
    (s : RuntimeState T) {page : List (MessageEnvelope (WorkQueueSubmit T))}
    (htopic : ∀ message ∈ page, message.topic = topic) :
    ∀ ack ∈ admissionAcks (admitPage opts now s page).2, ∃ seq id,
      ack = .ack topic opts.subscriptionId seq id := by
  induction page generalizing s now with
  | nil => exact fun _ h => absurd h not_mem_nil
  | cons message page ih =>
    intro ack hack
    rw [admitPage, admissionAcks_append, mem_append] at hack
    rcases hack with hack | hack
    · rcases admitMessage_cases opts s message (now 0) with ⟨_, heq⟩ | ⟨_, _, _, id, heq⟩
      · rw [heq] at hack
        exact absurd hack not_mem_nil
      · rw [heq, mem_singleton, htopic message mem_cons_self] at hack
        exact ⟨message.seq, id, hack⟩
    · exact ih _ _ (fun m hm => htopic m (mem_cons_of_mem message hm)) ack hack

/-! ### Covered positions -/

/-- All messages of a topic from one number up to another are recorded, and these are
    messages that have been published. -/
structure Covers (published : List (MessageEnvelope (WorkQueueSubmit T))) (topic : String)
    (s : RuntimeState T) (start stop : Nat) : Prop where
  within : stop ≤ start ∨ stop ≤ published.length + 1
  recorded : ∀ message ∈ published, start ≤ message.seq → message.seq < stop →
    s.admitted topic message.seq

section Covered

variable {opts : RuntimeOptions} {topic : String} {start : Nat}
  {published : List (MessageEnvelope (WorkQueueSubmit T))}

variable {s : RuntimeState T} {stop : Nat}

variable {s' : RuntimeState T}

theorem Covers.mono (h : Covers published topic s start stop)
    (hmono : ∀ topic seq, s.admitted topic seq → s'.admitted topic seq) :
    Covers published topic s' start stop :=
  ⟨h.within, fun message hmem hlow hhigh =>
    hmono topic message.seq (h.recorded message hmem hlow hhigh)⟩

theorem Covers.append (h : Covers published topic s start stop)
    {later : List (MessageEnvelope (WorkQueueSubmit T))}
    (hnumbered : Numbered (·.seq) 1 (published ++ later)) :
    Covers (published ++ later) topic s start stop := by
  refine ⟨h.within.imp id fun hle => ?_, fun message hmem hlow hhigh => ?_⟩
  · rw [length_append]
    omega
  · rcases mem_append.mp hmem with hmem | hmem
    · exact h.recorded message hmem hlow hhigh
    · have hdrop := hnumbered.drop published.length
      rw [drop_left] at hdrop
      have hbound := hdrop.bounds hmem
      rcases h.within with hle | hle
      · omega
      · omega

theorem Deduped.admitPage (now : Nat → Nat) (h : Deduped opts s)
    (page : List (MessageEnvelope (WorkQueueSubmit T))) :
    Deduped opts (admitPage opts now s page).1 ∧
      ∀ topic seq, s.admitted topic seq → (WorkQueue.admitPage opts now s page).1.admitted
        topic seq := by
  induction page generalizing s now with
  | nil => exact ⟨h, fun _ _ had => had⟩
  | cons message page ih =>
    obtain ⟨hfirst, _, hmono⟩ := h.admit message (now 0)
    obtain ⟨hrest, hmono'⟩ := ih (fun k => now (k + 1)) hfirst
    exact ⟨hrest, fun topic seq had => hmono' topic seq (hmono topic seq had)⟩

/-- A message behind a covered position, once it is recorded, is covered with it. -/
theorem Covers.succ
    (h : Covers published topic s start stop) (hnumbered : Numbered (·.seq) 1 published)
    (hmono : ∀ topic seq, s.admitted topic seq → s'.admitted topic seq)
    {message : MessageEnvelope (WorkQueueSubmit T)} (hmem : message ∈ published)
    (hseq : message.seq = 1 + (stop - 1)) (had : s'.admitted topic message.seq) :
    Covers published topic s' start (message.seq + 1) := by
  have hbound := hnumbered.bounds hmem
  refine ⟨Or.inr (by omega), fun other hother hlow hhigh => ?_⟩
  by_cases heq : other.seq = message.seq
  · rw [heq]
    exact had
  · have hone := hnumbered.bounds hother
    exact hmono topic other.seq (h.recorded other hother hlow (by omega))

/-- Admitting the messages that follow a covered position: every ack is for a message
    up to which all are recorded. -/
theorem admitPage_covers (hnumbered : Numbered (·.seq) 1 published)
    (htopic : ∀ message ∈ published, message.topic = topic) (now : Nat → Nat)
    (hdeduped : Deduped opts s) {page : List (MessageEnvelope (WorkQueueSubmit T))}
    (hpage : page <+: published.filter fun message => decide (stop ≤ message.seq))
    (hcovers : Covers published topic s start stop) :
    ∀ ack ∈ admissionAcks (admitPage opts now s page).2, ∃ seq id,
      ack = .ack topic opts.subscriptionId seq id ∧
        Covers published topic (admitPage opts now s page).1 start (seq + 1) := by
  induction page generalizing s now stop with
  | nil => exact fun _ h => absurd h not_mem_nil
  | cons message page ih =>
    rw [hnumbered.filter_le] at hpage
    obtain ⟨rest, hrest⟩ := hpage
    have hdrop := hnumbered.drop (stop - 1)
    rw [← hrest, cons_append] at hdrop
    have hseq : message.seq = 1 + (stop - 1) := hdrop.head
    have hmem : message ∈ published := by
      refine mem_of_mem_drop (i := stop - 1) ?_
      rw [← hrest]
      exact mem_cons_self
    obtain ⟨hdeduped', had, hmono⟩ := hdeduped.admit message (now 0)
    rw [htopic message hmem] at had
    have hcovers' := hcovers.succ hnumbered hmono hmem hseq had
    -- The rest of the page follows the position behind this message.
    have hpage' : page <+:
        published.filter fun other => decide (message.seq + 1 ≤ other.seq) := by
      have hsucc : message.seq + 1 - 1 = stop - 1 + 1 := by omega
      rw [hnumbered.filter_le, hsucc, ← drop_drop, ← hrest]
      exact ⟨rest, rfl⟩
    obtain ⟨_, hmono'⟩ := hdeduped'.admitPage (fun k => now (k + 1)) page
    have hacks := ih (fun k => now (k + 1)) hdeduped' hpage' hcovers'
    intro ack hack
    rw [admitPage, admissionAcks_append, mem_append] at hack
    rcases hack with hack | hack
    · refine ⟨message.seq, ?_⟩
      rcases admitMessage_cases opts s message (now 0) with ⟨_, heq⟩ | ⟨_, _, _, id, heq⟩
      · rw [heq] at hack
        exact absurd hack not_mem_nil
      · rw [heq, mem_singleton, htopic message hmem] at hack
        exact ⟨id, hack, hcovers'.mono hmono'⟩
    · exact hacks ack hack

end Covered

end GraphRefly.WorkQueue
