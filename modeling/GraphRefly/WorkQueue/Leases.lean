import GraphRefly.WorkQueue.Log
import GraphRefly.Json.Identity

/-!
# Leases

A work has one lease at a time, no two leases have the same id, and what is
written in the name of a lease is written while it is the work's own. Works that
are completed, canceled or given up stay so, and the log says once how a work
and each of its attempts have ended.

None of this depends on the clock: times may be the same or run backwards. The
log is read by what an entry issues, ends and decides, and the state keeps
enough of the past to tell: the number of leases issued, whether a work has
ended, and the attempts that can no longer be decided.

## Main definitions

* `WorkState.Shaped`: The fields of a lease are there exactly when it is.
* `issuedLeases`, `endings`, `outcomes`: What a log says of leases, works and attempts.
* `Turn`: What a justified entry does to its work.
* `Sound`: The invariant.

## Theorems

* `justified_turn`: Every justified entry is a turn.
* `Sound.turn`: A turn keeps the invariant.
* `leases_exclusive`: The invariant and the guards of every step, in every run.
-/

namespace GraphRefly.WorkQueue

open List GraphRefly.Lib

variable {T : Type}

/-! ### What a log says -/

def WorkQueueRecord.entry (record : WorkQueueRecord T) : Entry T := (record.workId, record.body)

/-- The entries of a log. -/
def Journal.entries (j : Journal T) : List (Entry T) :=
  j.records.map (·.entry)

/-- The id of the lease a record issues. -/
def RecordBody.leaseIssued : RecordBody T → Option String
  | workClaimed _ lease _ _ => some lease.leaseId
  | _ => none

/-- A record that ends its work. -/
def RecordBody.ends : RecordBody T → Bool
  | workCompleted .. | workCanceled .. | workDeadLettered .. => true
  | _ => false

/-- The attempt whose outcome a record tells. -/
def RecordBody.outcome : RecordBody T → Option Nat
  | attemptCompleted _ lease _ _ | attemptFailed _ lease _ _ _ => some lease.attempt
  | _ => none

section

variable (bodies : List (RecordBody T))

/-- The ids of the leases some records issue. -/
def issuedLeases : List String :=
  bodies.filterMap (·.leaseIssued)

/-- What the entries of a log say of one work. -/
def about (workId : String) (entries : List (Entry T)) : List (RecordBody T) :=
  (entries.filter fun entry => decide (entry.1 = workId)).map (·.2)

/-- The records that end a work. -/
def endings : List (RecordBody T) := bodies.filter (·.ends)

/-- The attempts whose outcome some records tell. -/
def outcomes : List Nat := bodies.filterMap (·.outcome)

end

section

variable (j : Journal T) (opts : RuntimeOptions) (entries : List (Entry T))

theorem records_writeAll :
    ∃ appended, (j.writeAll opts entries).records = j.records ++ appended ∧
      appended.map (·.entry) = entries := by
  induction entries generalizing j with
  | nil => exact ⟨[], (append_nil _).symm, rfl⟩
  | cons entry entries ih =>
    obtain ⟨appended, hrecords, hentries⟩ := ih (j.write opts entry)
    refine ⟨j.nextRecord opts entry :: appended, ?_, ?_⟩
    · have hfirst : (j.write opts entry).records = j.records ++ [j.nextRecord opts entry] := rfl
      rw [Journal.writeAll, hrecords, hfirst, append_assoc, singleton_append]
    · rw [map_cons, hentries]
      rfl

theorem entries_writeAll : (j.writeAll opts entries).entries = j.entries ++ entries := by
  obtain ⟨appended, hrecords, hentries⟩ := records_writeAll j opts entries
  rw [Journal.entries, hrecords, map_append, hentries, Journal.entries]

theorem leaseSeq_writeAll : (j.writeAll opts entries).leaseSeq =
      j.leaseSeq + (issuedLeases (entries.map (·.2))).length := by
  induction entries generalizing j with
  | nil => rfl
  | cons entry entries ih =>
    have hfirst : (j.write opts entry).leaseSeq = j.leaseSeq + entry.2.leasesIssued := rfl
    have hcount : entry.2.leasesIssued = entry.2.leaseIssued.toList.length := by
      cases entry.2 <;> rfl
    rw [Journal.writeAll, ih, hfirst, hcount, issuedLeases, issuedLeases, map_cons,
      filterMap_cons]
    cases entry.2.leaseIssued with
    | none => rfl
    | some id =>
      simp only [Option.toList_some, length_cons, length_nil]
      omega

end

theorem about_append (workId : String) (entries more : List (Entry T)) :
    about workId (entries ++ more) = about workId entries ++ about workId more := by
  rw [about, filter_append, map_append]
  rfl

theorem about_self (workId : String) (bodies : List (RecordBody T)) :
    about workId (bodies.map (workId, ·)) = bodies := by
  rw [about, filter_eq_self.mpr, map_map]
  · exact map_id _
  · intro entry hmem
    obtain ⟨body, _, rfl⟩ := mem_map.mp hmem
    exact decide_eq_true rfl

variable {workId : String}

variable {other : String}

theorem about_other (h : other ≠ workId) (bodies : List (RecordBody T)) :
    about other (bodies.map (workId, ·)) = [] := by
  rw [about, filter_eq_nil_iff.mpr, map_nil]
  intro entry hmem
  obtain ⟨body, _, rfl⟩ := mem_map.mp hmem
  simpa using h.symm

/-! ### What a justified entry does -/

/-- The fields of a lease are there exactly when the work is leased. -/
structure WorkState.Shaped (work : WorkState T) : Prop where
  leaseId : work.leaseId.isSome = decide (work.state = .leased)
  workerId : work.workerId.isSome = decide (work.state = .leased)
  expires : work.leaseExpiresAtMs.isSome = decide (work.state = .leased)

variable {work : WorkState T}

theorem WorkState.clearLease_shaped (h : work.state ≠ .leased) :
    work.clearLease.Shaped :=
  ⟨(decide_eq_false h).symm, (decide_eq_false h).symm, (decide_eq_false h).symm⟩

/-- How often a work has ended. -/
def WorkState.ended (work : WorkState T) : Nat := if work.state.isTerminal then 1 else 0

theorem WorkState.ended_of_open (h : work.state.isTerminal = false) :
    work.ended = 0 := by
  rw [WorkState.ended, h]
  rfl

/-- The attempts below this one can no longer be decided. The attempt of a lease can,
    once. -/
def WorkState.decided (work : WorkState T) : Nat :=
  if work.state = .leased then work.attempt else work.attempt + 1

/-- What the records of one step do to the work they are about. -/
structure Turn (before : Option (WorkState T)) (leaseSeq : Nat) (bodies : List (RecordBody T))
    (after : WorkState T) : Prop where
  shaped : (∀ work, before = some work → work.Shaped) → after.Shaped
  kept : ∀ work, before = some work → work.state.isTerminal = true → after = work
  ended : ((before.map (·.ended)).getD 0) + (endings bodies).length = after.ended
  decided : outcomes bodies = [] ∧ (before.map (·.decided)).getD 0 ≤ after.decided ∨
    ∃ attempt, outcomes bodies = [attempt] ∧ (before.map (·.decided)).getD 0 ≤ attempt ∧
      attempt < after.decided
  issued : issuedLeases bodies = [] ∨
    ∃ workId, issuedLeases bodies = [leaseIdFor workId (leaseSeq + 1)]

variable {after : WorkState T} {leaseSeq : Nat}

variable {bodies : List (RecordBody T)}

theorem Turn.of_open (hopen : work.state.isTerminal = false) (hshaped : work.Shaped → after.Shaped)
    (hended : (endings bodies).length = after.ended)
    (hdecided : outcomes bodies = [] ∧ work.decided ≤ after.decided ∨
      ∃ attempt, outcomes bodies = [attempt] ∧ work.decided ≤ attempt ∧ attempt < after.decided)
    (hissued : issuedLeases bodies = [] ∨
      ∃ workId, issuedLeases bodies = [leaseIdFor workId (leaseSeq + 1)]) :
    Turn (some work) leaseSeq bodies after := by
  constructor
  · intro hbefore
    exact hshaped (hbefore work rfl)
  · intro other hother hterminal
    rw [Option.some.injEq] at hother
    rw [← hother, hopen] at hterminal
    exact absurd hterminal Bool.false_ne_true
  · rw [Option.map_some, Option.getD_some, WorkState.ended_of_open hopen, Nat.zero_add]
    exact hended
  · exact hdecided
  · exact hissued

variable {body : RecordBody T}

theorem Turn.of_cleared (hopen : work.state.isTerminal = false) (hfree : after.state ≠ .leased)
    (hafter : after.clearLease = after) (hattempt : after.attempt = work.attempt)
    (hended : (endings [body]).length = after.ended) (houtcome : body.outcome = none)
    (hissued : body.leaseIssued = none) : Turn (some work) leaseSeq [body] after := by
  refine Turn.of_open hopen ?_ hended (Or.inl ⟨?_, ?_⟩) (Or.inl ?_)
  · intro _
    rw [← hafter]
    exact WorkState.clearLease_shaped hfree
  · rw [outcomes, filterMap_cons, houtcome]
    rfl
  · rw [WorkState.decided, WorkState.decided, if_neg hfree, hattempt]
    split_ifs <;> omega
  · rw [issuedLeases, filterMap_cons, hissued]
    rfl

variable {first second : RecordBody T}

theorem Turn.of_outcome (hleased : work.state = .leased) (hfree : after.state ≠ .leased)
    (hafter : after.clearLease = after) (hattempt : after.attempt = work.attempt)
    (hended : (endings [first, second]).length = after.ended)
    (houtcome : first.outcome = some work.attempt ∧ second.outcome = none)
    (hissued : first.leaseIssued = none ∧ second.leaseIssued = none) :
    Turn (some work) leaseSeq [first, second] after := by
  have hopen : work.state.isTerminal = false := by rw [hleased]; rfl
  refine Turn.of_open hopen ?_ hended (Or.inr ⟨work.attempt, ?_, ?_, ?_⟩) (Or.inl ?_)
  · intro _
    rw [← hafter]
    exact WorkState.clearLease_shaped hfree
  · rw [outcomes, filterMap_cons, houtcome.1, filterMap_cons, houtcome.2]
    rfl
  · rw [WorkState.decided, if_pos hleased]
  · rw [WorkState.decided, if_neg hfree, hattempt]
    omega
  · rw [issuedLeases, filterMap_cons, hissued.1, filterMap_cons, hissued.2]
    rfl

variable {nowMs : Nat}

theorem open_of_ready (h : work.isReady nowMs = true) :
    work.state.isTerminal = false ∧ work.state ≠ .leased := by
  rw [WorkState.isReady] at h
  cases hstate : work.state with
  | leased | completed | canceled | deadLettered =>
    rw [hstate] at h
    exact absurd h Bool.false_ne_true
  | scheduled | ready | retryWait => exact ⟨rfl, nofun⟩

variable {j : Journal T}

theorem lookup_writeAll_self (opts : RuntimeOptions) (workId : String)
    (h : ∀ body ∈ bodies, body.admits = false) :
    (j.writeAll opts (bodies.map (workId, ·))).works.lookup workId =
      (j.works.lookup workId).map fun work => bodies.foldl
        (fun work body => body.change work) work := by
  induction bodies generalizing j with
  | nil => exact Option.map_id'.symm
  | cons body bodies ih =>
    have hfirst : (j.write opts (workId, body)).works.lookup workId =
        (j.works.lookup workId).map body.change :=
      lookup_applyRecord_self _ (j.nextRecord opts (workId, body)) (h body mem_cons_self)
    rw [map_cons, Journal.writeAll, ih fun b hb =>
      h b (mem_cons_of_mem body hb), hfirst,
      Option.map_map]
    rfl

/-- Some entries are a turn of one work. -/
def Turns (opts : RuntimeOptions) (j : Journal T) (entries : List (Entry T)) : Prop :=
  ∃ workId bodies after, entries = bodies.map (workId, ·) ∧
    (j.writeAll opts entries).works.lookup workId = some after ∧
    Turn (j.works.lookup workId) j.leaseSeq bodies after

variable {opts : RuntimeOptions}

theorem turns_one (hfound : j.works.lookup workId = some work) (hadmits : body.admits = false)
    (hturn : Turn (some work) j.leaseSeq [body] (body.change work)) :
    Turns opts j [(workId, body)] := by
  refine ⟨workId, [body], body.change work, rfl, ?_, hfound ▸ hturn⟩
  have hall : ∀ b ∈ [body], b.admits = false := forall_mem_singleton.mpr hadmits
  have hlook := lookup_writeAll_self (j := j) opts workId hall
  rw [hfound] at hlook
  exact hlook

theorem turns_pair (hfound : j.works.lookup workId = some work)
    (hadmits : first.admits = false ∧ second.admits = false) (hfirst : first.change work = work)
    (hturn : Turn (some work) j.leaseSeq [first, second] (second.change work)) :
    Turns opts j [(workId, first), (workId, second)] := by
  refine ⟨workId, [first, second], second.change work, rfl, ?_, hfound ▸ hturn⟩
  have hall : ∀ body ∈ [first, second], body.admits = false := by
    intro body hmem
    rcases mem_pair.mp hmem with rfl | rfl
    · exact hadmits.1
    · exact hadmits.2
  have hlook := lookup_writeAll_self (j := j) opts workId hall
  rw [hfound, Option.map_some, foldl_cons, hfirst] at hlook
  exact hlook

variable {entries : List (Entry T)}

/-- Every justified entry is a turn of one work. -/
theorem justified_turn (hjust : Justified j entries)
    (opts : RuntimeOptions) : Turns opts j entries := by
  cases hjust with
  | @admitted workId payload messageBus priority tags requirements notBeforeMs deadlineMs
    nowMs hnew =>
      refine ⟨workId, [_], admittedWork workId payload messageBus priority tags requirements
        notBeforeMs deadlineMs nowMs, rfl, SortedMap.lookup_insert_self _ _ _, ?_⟩
      have hstate : (admittedWork workId payload messageBus priority tags requirements notBeforeMs
          deadlineMs nowMs).state ≠ .leased ∧ (admittedWork workId payload messageBus priority tags
          requirements notBeforeMs deadlineMs nowMs).state.isTerminal = false := by
        rw [admittedWork]
        split_ifs <;> exact ⟨of_decide_eq_false rfl, rfl⟩
      rw [hnew]
      exact ⟨fun _ => WorkState.clearLease_shaped hstate.1,
        fun work h => absurd h.symm (Option.some_ne_none work),
        (WorkState.ended_of_open hstate.2).symm, Or.inl ⟨rfl, Nat.zero_le _⟩, Or.inl rfl⟩
  | deduped hfound =>
    refine turns_one hfound rfl ⟨fun h => h _ rfl, ?_, rfl,
      Or.inl ⟨rfl, Nat.le_refl _⟩, Or.inl rfl⟩
    intro work hwork _
    exact Option.some.inj hwork
  | scheduled hfound hopen hfree =>
    refine turns_one hfound rfl (Turn.of_open hopen ?_ rfl (Or.inl ⟨rfl, ?_⟩) (Or.inl rfl))
    · intro hshaped
      have hgone : decide _ = false := decide_eq_false hfree
      exact ⟨hshaped.leaseId.trans hgone, hshaped.workerId.trans hgone,
        hshaped.expires.trans hgone⟩
    · rw [WorkState.decided, if_neg hfree]
      exact Nat.le_refl _
  | claimed hfound hready =>
    obtain ⟨hopen, hfree⟩ := open_of_ready hready
    refine turns_one hfound rfl (Turn.of_open hopen ?_ rfl (Or.inl ⟨rfl, ?_⟩) (Or.inr ⟨_, rfl⟩))
    · intro _
      exact ⟨rfl, rfl, rfl⟩
    · rw [WorkState.decided, if_neg hfree]
      exact Nat.le_refl _
  | renewed hholds =>
    have hopen := congrArg WorkQueueDerivedState.isTerminal hholds.leased
    refine turns_one hholds.found rfl (Turn.of_open hopen ?_
      (WorkState.ended_of_open hopen).symm (Or.inl ⟨rfl, Nat.le_refl _⟩) (Or.inl rfl))
    intro hshaped
    exact ⟨hshaped.leaseId, hshaped.workerId, (decide_eq_true hholds.leased).symm⟩
  | released hholds =>
    have hopen := congrArg WorkQueueDerivedState.isTerminal hholds.leased
    exact turns_one hholds.found rfl (Turn.of_cleared hopen (of_decide_eq_false rfl) rfl rfl
      rfl rfl rfl)
  | expired hfound hexpired =>
    have hopen := congrArg WorkQueueDerivedState.isTerminal (leased_of_expired hexpired)
    exact turns_one hfound rfl (Turn.of_cleared hopen (of_decide_eq_false rfl) rfl rfl
      rfl rfl rfl)
  | canceled hfound hopen =>
    exact turns_one hfound rfl (Turn.of_cleared hopen (of_decide_eq_false rfl) rfl rfl
      rfl rfl rfl)
  | completed hholds =>
    exact turns_pair hholds.found ⟨rfl, rfl⟩ rfl (Turn.of_outcome hholds.leased
      (of_decide_eq_false rfl) rfl rfl rfl
      ⟨congrArg some hholds.attempt.symm, rfl⟩ ⟨rfl, rfl⟩)
  | givenUp hholds =>
    exact turns_pair hholds.found ⟨rfl, rfl⟩ rfl (Turn.of_outcome hholds.leased
      (of_decide_eq_false rfl) rfl rfl rfl
      ⟨congrArg some hholds.attempt.symm, rfl⟩ ⟨rfl, rfl⟩)
  | @retried workId commandId lease error reason retryable retryAtMs delayMs nowMs work hholds =>
    have hstate : ((RecordBody.retryScheduled commandId retryAtMs delayMs reason nowMs).change
        work).state ≠ .leased ∧ ((RecordBody.retryScheduled commandId retryAtMs delayMs reason
        nowMs).change work).state.isTerminal = false := by
      rw [RecordBody.change, WorkState.clearLease]
      split_ifs <;> exact ⟨of_decide_eq_false rfl, rfl⟩
    exact turns_pair hholds.found ⟨rfl, rfl⟩ rfl (Turn.of_outcome hholds.leased hstate.1 rfl rfl
      (WorkState.ended_of_open hstate.2).symm ⟨congrArg some hholds.attempt.symm, rfl⟩ ⟨rfl, rfl⟩)

/-! ### The invariant -/

/-- What the log says of leases, works and attempts agrees with the state. -/
structure Sound (j : Journal T) : Prop where
  shaped : ∀ workId work, j.works.lookup workId = some work → work.Shaped
  issued : ∀ id ∈ issuedLeases (j.entries.map (·.2)),
    ∃ workId number, number ≤ j.leaseSeq ∧ id = leaseIdFor workId number
  distinct : (issuedLeases (j.entries.map (·.2))).Nodup
  ended : ∀ workId, (endings (about workId j.entries)).length =
    ((j.works.lookup workId).map (·.ended)).getD 0
  once : ∀ workId, (outcomes (about workId j.entries)).Nodup
  decided : ∀ workId, ∀ attempt ∈ outcomes (about workId j.entries),
    attempt < ((j.works.lookup workId).map (·.decided)).getD 0

theorem leaseIdFor_injective {m n : Nat}
    (h : leaseIdFor workId m = leaseIdFor other n) : m = n := by
  have hparts := Json.compoundTupleKey_injective h
  rw [List.cons.injEq, List.cons.injEq] at hparts
  exact Json.toString_nat_injective hparts.2.1

theorem issued_distinct (h : Sound j) (workId : String) :
    (issuedLeases (j.entries.map (·.2)) ++ [leaseIdFor workId (j.leaseSeq + 1)]).Nodup := by
  rw [nodup_append]
  refine ⟨h.distinct, nodup_singleton _, fun id hid next hnext heq => ?_⟩
  obtain ⟨other, number, hle, rfl⟩ := h.issued id hid
  rw [mem_singleton] at hnext
  have hnumber := leaseIdFor_injective (heq.trans hnext)
  omega

/-- A turn keeps the invariant. -/
theorem Sound.turn (h : Sound j) (hturns : Turns opts j entries) :
    Sound (j.writeAll opts entries) := by
  obtain ⟨workId, bodies, after, rfl, hafter, hturn⟩ := hturns
  have hothers (other : String) (hother : other ≠ workId) :
      (j.writeAll opts (bodies.map (workId, ·))).works.lookup other = j.works.lookup other := by
    refine lookup_writeAll opts fun entry hmem => ?_
    obtain ⟨body, _, rfl⟩ := mem_map.mp hmem
    exact hother.symm
  have hlog : (j.writeAll opts (bodies.map (workId, ·))).entries =
      j.entries ++ bodies.map (workId, ·) := entries_writeAll j opts _
  have hself : about workId (j.writeAll opts (bodies.map (workId, ·))).entries =
      about workId j.entries ++ bodies := by
    rw [hlog, about_append, about_self]
  have hrest (other : String) (hother : other ≠ workId) :
      about other (j.writeAll opts (bodies.map (workId, ·))).entries = about other j.entries := by
    rw [hlog, about_append, about_other hother, append_nil]
  have hbodies : (bodies.map (workId, ·)).map (·.2) = bodies := by
    rw [map_map]
    exact map_id _
  have hleases : issuedLeases
      ((j.writeAll opts (bodies.map (workId, ·))).entries.map (·.2)) =
      issuedLeases (j.entries.map (·.2)) ++ issuedLeases bodies := by
    rw [hlog, map_append, hbodies, issuedLeases, filterMap_append]
    rfl
  have hcount := leaseSeq_writeAll j opts (bodies.map (workId, ·))
  rw [hbodies] at hcount
  constructor
  · intro other work hlook
    by_cases hother : other = workId
    · rw [hother, hafter, Option.some.injEq] at hlook
      rw [← hlook]
      exact hturn.shaped (h.shaped workId)
    · rw [hothers other hother] at hlook
      exact h.shaped other work hlook
  · intro id hid
    rw [hleases, mem_append] at hid
    rcases hid with hid | hid
    · obtain ⟨other, number, hle, heq⟩ := h.issued id hid
      exact ⟨other, number, by omega, heq⟩
    · rcases hturn.issued with hnone | ⟨other, hone⟩
      · rw [hnone] at hid
        exact absurd hid not_mem_nil
      · rw [hone, mem_singleton] at hid
        rw [hone, length_singleton] at hcount
        exact ⟨other, j.leaseSeq + 1, by omega, hid⟩
  · rw [hleases]
    rcases hturn.issued with hnone | ⟨other, hone⟩
    · rw [hnone, append_nil]
      exact h.distinct
    · rw [hone]
      exact issued_distinct h other
  · intro other
    by_cases hother : other = workId
    · rw [hother, hself, hafter, endings, filter_append, length_append]
      exact (congrArg (· + _) (h.ended workId)).trans hturn.ended
    · rw [hrest other hother, hothers other hother]
      exact h.ended other
  · intro other
    by_cases hother : other = workId
    · rw [hother, hself, outcomes, filterMap_append]
      rcases hturn.decided with ⟨hnone, _⟩ | ⟨attempt, hone, hnew, _⟩
      · rw [← outcomes, ← outcomes, hnone, append_nil]
        exact h.once workId
      · rw [← outcomes, ← outcomes, hone, nodup_append]
        refine ⟨h.once workId, nodup_singleton attempt, fun a ha b hb heq => ?_⟩
        have hlt := h.decided workId a ha
        rw [mem_singleton] at hb
        omega
    · rw [hrest other hother]
      exact h.once other
  · intro other attempt hmem
    by_cases hother : other = workId
    · rw [hother, hself, outcomes, filterMap_append, ← outcomes, ← outcomes,
        mem_append] at hmem
      rw [hother, hafter]
      have hold (a : Nat) (ha : a ∈ outcomes (about workId j.entries)) := h.decided workId a ha
      rcases hturn.decided with ⟨hnone, hle⟩ | ⟨latest, hone, hnew, hlt⟩
      · rw [hnone] at hmem
        have hin := hold attempt (hmem.resolve_right not_mem_nil)
        exact Nat.lt_of_lt_of_le hin hle
      · rw [hone, mem_singleton] at hmem
        rcases hmem with hmem | rfl
        · exact Nat.lt_trans (Nat.lt_of_lt_of_le (hold attempt hmem) hnew) hlt
        · exact hlt
    · rw [hrest other hother] at hmem
      rw [hothers other hother]
      exact h.decided other attempt hmem

theorem sound_default : Sound (RuntimeState.default : RuntimeState T).journal :=
  ⟨fun _ work h => absurd h.symm (Option.some_ne_none work), fun _ h => absurd h not_mem_nil,
    nodup_nil, fun _ => rfl, fun _ => nodup_nil, fun _ _ h => absurd h not_mem_nil⟩

theorem sound_run (opts : RuntimeOptions) (steps : List (QueueStep T)) :
    Sound (queueRun opts RuntimeState.default steps).journal := by
  have hstep (j : Journal T) (entries : List (Entry T)) (hjust : Justified j entries)
      (hsound : Sound j) : Sound (j.writeAll opts entries) :=
    hsound.turn (justified_turn hjust opts)
  exact (queueRun_writes opts keyed_default steps).invariant hstep sound_default

/-! ### Works that have ended -/

variable {kind : Entry T → Prop} {j' : Journal T}

theorem ended_kept (h : Writes opts kind j j')
    (hfound : j.works.lookup workId = some work) (hended : work.state.isTerminal = true) :
    j'.works.lookup workId = some work := by
  have hstep (j : Journal T) (entries : List (Entry T)) (hjust : Justified j entries)
      (hkept : j.works.lookup workId = some work) :
      (j.writeAll opts entries).works.lookup workId = some work := by
    obtain ⟨other, bodies, after, rfl, hafter, hturn⟩ := justified_turn hjust opts
    by_cases hother : other = workId
    · subst hother
      rw [hafter, hturn.kept work hkept hended]
    · rw [lookup_writeAll opts, hkept]
      intro entry hmem
      obtain ⟨body, _, rfl⟩ := mem_map.mp hmem
      exact hother
  let kept (j : Journal T) : Prop := j.works.lookup workId = some work
  have hkept : kept j' := h.invariant hstep hfound
  exact hkept

/-! ### Who writes -/

/-- The records that a step appends in the name of a lease are those of a command that
    names the lease, while it is the work's own and before its end. -/
def HolderWrites (s : RuntimeState T) (step : QueueStep T) (record : WorkQueueRecord T) : Prop :=
  ∀ lease at_, record.body.holder = some (lease, at_) →
    ∃ command nowMs work expires, step = .command command nowMs ∧
      command.body.holder = some (record.workId, lease) ∧
      s.works.lookup record.workId = some work ∧ work.leaseId = some lease.leaseId ∧
      work.attempt = lease.attempt ∧ work.workerId = some lease.workerId ∧
      work.leaseExpiresAtMs = some expires ∧ nowMs < expires

theorem Writes.appended (h : Writes opts kind j j') :
    ∃ appended, j'.records = j.records ++ appended ∧ ∀ record ∈ appended, kind record.entry := by
  induction h with
  | refl => exact ⟨[], (append_nil _).symm, fun _ h => absurd h not_mem_nil⟩
  | @tail mid entries _ hjust hkind ih =>
    obtain ⟨before, hbefore, hof⟩ := ih
    obtain ⟨appended, hrecords, hentries⟩ := records_writeAll mid opts entries
    refine ⟨before ++ appended, ?_, fun record hmem => ?_⟩
    · rw [hrecords, hbefore, append_assoc]
    · rcases mem_append.mp hmem with hmem | hmem
      · exact hof record hmem
      · exact hkind record.entry (hentries ▸ mem_map_of_mem hmem)

variable {lease : LeaseRef}

theorem holds_of_justified (hjust : Justified j entries) {entry : Entry T} (hmem : entry ∈ entries)
    (hholder : entry.2.holder = some (lease, nowMs)) :
    ∃ work, Holds j entry.1 lease nowMs work := by
  cases hjust with
  | admitted | deduped | scheduled | claimed | expired | canceled =>
    rw [mem_singleton] at hmem
    rw [hmem] at hholder
    exact absurd hholder (Option.some_ne_none _).symm
  | renewed hholds | released hholds =>
    rw [mem_singleton] at hmem
    rw [hmem, RecordBody.holder, Option.some.injEq, Prod.mk.injEq] at hholder
    rw [hmem, ← hholder.1, ← hholder.2]
    exact ⟨_, hholds⟩
  | completed hholds | retried hholds | givenUp hholds =>
    rcases mem_pair.mp hmem with hmem | hmem
    · rw [hmem, RecordBody.holder, Option.some.injEq, Prod.mk.injEq] at hholder
      rw [hmem, ← hholder.1, ← hholder.2]
      exact ⟨_, hholds⟩
    · rw [hmem] at hholder
      exact absurd hholder (Option.some_ne_none _).symm

theorem Holds.expires (h : Holds j workId lease nowMs work) (hshaped : work.Shaped) :
    ∃ expires, work.leaseExpiresAtMs = some expires ∧ nowMs < expires := by
  have hsome := hshaped.expires
  rw [decide_eq_true h.leased, Option.isSome_iff_exists] at hsome
  obtain ⟨expires, hexpires⟩ := hsome
  refine ⟨expires, hexpires, ?_⟩
  have hunexpired := h.unexpired
  rw [WorkState.isExpired, h.leased, hexpires] at hunexpired
  simpa using hunexpired

theorem queueStep_holders (opts : RuntimeOptions) {s : RuntimeState T} (hkeyed : Keyed s.journal)
    (hsound : Sound s.journal) (step : QueueStep T) :
    ∃ appended, (queueStep opts s step).1.records = s.records ++ appended ∧
      ∀ record ∈ appended, HolderWrites s step record := by
  have hnobody {record : WorkQueueRecord T}
      (hfree : record.body.holder = none) : HolderWrites s step record := by
    intro held at_ hholder
    rw [hfree] at hholder
    exact absurd hholder (Option.some_ne_none _).symm
  cases step with
  | admission message nowMs =>
    obtain ⟨appended, hrecords, hkind⟩ := (admitMessage_written opts s message
      nowMs).writes.appended
    exact ⟨appended, hrecords, fun record hmem => hnobody (hkind record hmem).1⟩
  | command command nowMs =>
    rcases reduceQueueCommand_writes opts hkeyed command nowMs with
      hwrites | ⟨workId, lease, hbody, hwritten⟩
    · obtain ⟨appended, hrecords, hkind⟩ := hwrites.appended
      exact ⟨appended, hrecords, fun record hmem => hnobody (hkind record hmem).1⟩
    · rcases hwritten with hsame | ⟨entries, hjust, hkind, hafter⟩
      · exact ⟨[], (congrArg Journal.records hsame).trans (append_nil _).symm,
          fun _ h => absurd h not_mem_nil⟩
      · obtain ⟨appended, hrecords, hentries⟩ := records_writeAll s.journal opts entries
        refine ⟨appended, (congrArg Journal.records hafter).trans hrecords, ?_⟩
        intro record hmem held at_ hholder
        have hin : record.entry ∈ entries := hentries ▸ mem_map_of_mem hmem
        obtain ⟨hid, hlease⟩ := (hkind record.entry hin).1 (held, at_) hholder
        rw [Prod.mk.injEq] at hlease
        obtain ⟨work, hholds⟩ := holds_of_justified hjust hin hholder
        obtain ⟨expires, hexpires, hbefore⟩ := hholds.expires (hsound.shaped _ work hholds.found)
        have hspeaks : command.body.holder = some (record.workId, held) := by
          rw [hbody, hlease.1, ← hid]
          rfl
        exact ⟨command, nowMs, work, expires, rfl, hspeaks, hholds.found, hholds.leaseId,
          hholds.attempt.symm ▸ rfl, hholds.workerId, hexpires, hlease.2 ▸ hbefore⟩

/-- In every state that admissions and commands lead to, under any clock: a work has the
    fields of a lease exactly when it is leased; no lease id is issued twice; a work ends
    at most once, and so does each of its attempts. And in the step after it: what is
    written in the name of a lease is written by a command that holds it, and a work that
    has ended stays so. -/
theorem leases_exclusive (opts : RuntimeOptions) (steps : List (QueueStep T))
    (step : QueueStep T) :
    let s := queueRun opts RuntimeState.default steps
    let s' := (queueStep opts s step).1
    (∀ workId work, s.works.lookup workId = some work →
      (work.leaseId.isSome ↔ work.state = .leased) ∧
      (work.workerId.isSome ↔ work.state = .leased) ∧
      (work.leaseExpiresAtMs.isSome ↔ work.state = .leased)) ∧
    (issuedLeases (s.records.map (·.body))).Nodup ∧
    (∃ appended, s'.records = s.records ++ appended ∧
      ∀ record ∈ appended, HolderWrites s step record) ∧
    (∀ workId work, s.works.lookup workId = some work → work.state.isTerminal = true →
      s'.works.lookup workId = some work) ∧
    ∀ workId, (endings (about workId (s.records.map (·.entry)))).length ≤ 1 ∧
      (outcomes (about workId (s.records.map (·.entry)))).Nodup := by
  have hsound := sound_run opts steps
  have hkeyed := (queueRun_writes opts keyed_default steps).keyed keyed_default
  refine ⟨fun workId work hfound => ?_, ?_, queueStep_holders opts hkeyed hsound step, ?_, ?_⟩
  · obtain ⟨hlease, hworker, hexpires⟩ := hsound.shaped workId work hfound
    exact ⟨by rw [hlease, decide_eq_true_iff], by rw [hworker, decide_eq_true_iff],
      by rw [hexpires, decide_eq_true_iff]⟩
  · have hdistinct := hsound.distinct
    rw [Journal.entries, map_map] at hdistinct
    exact hdistinct
  · intro workId work hfound hended
    exact ended_kept (queueStep_writes opts hkeyed step) hfound hended
  · intro workId
    refine ⟨?_, hsound.once workId⟩
    have hended := hsound.ended workId
    have hle (work : WorkState T) : work.ended ≤ 1 := by
      rw [WorkState.ended]
      split_ifs <;> omega
    rw [Journal.entries] at hended
    cases hlook : (queueRun opts RuntimeState.default steps).journal.works.lookup workId with
    | none =>
      rw [hlook] at hended
      exact hended.le.trans (Nat.zero_le 1)
    | some work =>
      rw [hlook] at hended
      exact hended.le.trans (hle work)

end GraphRefly.WorkQueue
