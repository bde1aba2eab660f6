import GraphRefly.WorkQueue.Announced
import GraphRefly.WorkQueue.History

/-!
# Claims And Time

A work may be told when to be worked on: by its submit, by a schedule command
and by the delay before a retry. The latest of these is what counts. Under a
clock that does not run backwards no claim comes before the time that is
demanded, although the state of a work keeps only one of two times and a tag.

A claim that names no works takes the first ones in the order of their
admission, as many as it asks for, and leaves the others alone but for leases
that have expired.

A lease that is issued, or renewed for a duration, ends later than now. A
renewal may name the end itself, and nothing compares it with the time: a lease
that is renewed into the past is expired at once.

## Main definitions

* `demanded`: The time that the latest records of a work demand.
* `Timely`: The invariant of a work and its history.
* `TakesFirst`: What a claim that names no works does.
* `QueueStep.backdated`: A renewal that names an end that has come.

## Theorems

* `timely_move`: A move keeps the invariant.
* `claimWork_takesFirst`: A claim takes the first works.
* `claims_respect_times`: All of it, in every run.
* `renewed_into_the_past`: A renewed lease that is expired.
-/

namespace GraphRefly.WorkQueue

open List GraphRefly.Lib

variable {T : Type}

/-! ### Demanded times -/

/-- The time before which a record allows no claim. -/
def RecordBody.demand : RecordBody T → Option Nat
  | workAdmitted _ _ _ _ _ notBeforeMs _ _ => some (notBeforeMs.getD 0)
  | workScheduled _ _ notBeforeMs _ _ _ => some notBeforeMs
  | retryScheduled _ retryAtMs _ _ _ => some retryAtMs
  | _ => none

/-- The time that the latest records demand. -/
def demanded (bodies : List (RecordBody T)) : Nat := (bodies.filterMap (·.demand)).getLast?.getD 0

/-- The time of a claim. -/
def RecordBody.claimedAt : RecordBody T → Option Nat
  | workClaimed _ _ claimedAtMs _ => some claimedAtMs
  | _ => none

variable {more : List (RecordBody T)}

theorem demanded_quiet (bodies : List (RecordBody T))
    (h : more.filterMap (·.demand) = []) : demanded (bodies ++ more) = demanded bodies := by
  rw [demanded, filterMap_append, h, append_nil]
  rfl

variable {time : Nat}

theorem demanded_latest (bodies : List (RecordBody T))
    (h : more.filterMap (·.demand) = [time]) : demanded (bodies ++ more) = time := by
  rw [demanded, filterMap_append, h, List.getLast?_append, List.getLast?_singleton]
  rfl

/-- A work waits for the time that is demanded, or that time has come; and every claim
    came after the time that was demanded then. -/
structure Timely (clock : Nat) (work : Option (WorkState T)) (bodies : List (RecordBody T)) :
    Prop where
  scheduled : ∀ w, work = some w → w.state = .scheduled → w.notBeforeMs = some (demanded bodies)
  retryWait : ∀ w, work = some w → w.state = .retryWait → w.retryAtMs = some (demanded bodies)
  reached : ∀ w, work = some w → w.state = .ready ∨ w.state = .leased → demanded bodies ≤ clock
  claims : ∀ i body, bodies[i]? = some body → ∀ time, body.claimedAt = some time →
    demanded (bodies.take i) ≤ time

section Times

variable {clock : Nat} {before : Option (WorkState T)} {bodies more : List (RecordBody T)}

theorem Timely.mono {clock' : Nat} (h : Timely clock before bodies) (hle : clock ≤ clock') :
    Timely clock' before bodies :=
  ⟨h.scheduled, h.retryWait, fun w hw hstate => Nat.le_trans (h.reached w hw hstate) hle,
    h.claims⟩

/-- What new records claim: nothing, or the one of them claims at a time that may be. -/
def ClaimsOnce (bodies more : List (RecordBody T)) : Prop :=
  more.filterMap (·.claimedAt) = [] ∨ ∃ body time, more = [body] ∧ body.claimedAt = some time ∧
    demanded bodies ≤ time

theorem Timely.claims_append (h : Timely clock before bodies) (hmore : ClaimsOnce bodies more) :
    ∀ i body, (bodies ++ more)[i]? = some body → ∀ time, body.claimedAt = some time →
      demanded ((bodies ++ more).take i) ≤ time := by
  intro i body hget time htime
  by_cases hi : i < bodies.length
  · rw [List.getElem?_append_left hi] at hget
    rw [take_append_of_le_length (Nat.le_of_lt hi)]
    exact h.claims i body hget time htime
  · rw [List.getElem?_append_right (Nat.le_of_not_lt hi)] at hget
    rcases hmore with hnone | ⟨claim, time', rfl, hclaim, hle⟩
    · have hin := mem_filterMap.mpr ⟨body, mem_of_getElem? hget, htime⟩
      rw [hnone] at hin
      exact absurd hin not_mem_nil
    · -- The claim is the only new record, so all that came before are the old ones.
      have hzero : i - bodies.length = 0 := by
        have hlt := (List.getElem?_eq_some_iff.mp hget).1
        rw [length_singleton] at hlt
        omega
      have hlength : i = bodies.length := by omega
      rw [hzero, List.getElem?_cons_zero, Option.some.injEq] at hget
      rw [hget, htime, Option.some.injEq] at hclaim
      rw [hlength, take_left, hclaim]
      exact hle

variable {after : WorkState T}

theorem Timely.extend (h : Timely clock before bodies)
    (hquiet : more.filterMap (·.demand) = []) (hmore : ClaimsOnce bodies more)
    (hscheduled : after.state = .scheduled → after.notBeforeMs = some (demanded bodies))
    (hretry : after.state = .retryWait → after.retryAtMs = some (demanded bodies))
    (hreached : after.state = .ready ∨ after.state = .leased → demanded bodies ≤ clock) :
    Timely clock (some after) (bodies ++ more) := by
  have hsame : demanded (bodies ++ more) = demanded bodies := demanded_quiet bodies hquiet
  refine ⟨fun w hw => ?_, fun w hw => ?_, fun w hw => ?_, h.claims_append hmore⟩
  · rw [← Option.some.inj hw, hsame]
    exact hscheduled
  · rw [← Option.some.inj hw, hsame]
    exact hretry
  · rw [← Option.some.inj hw, hsame]
    exact hreached

theorem Timely.demand (h : Timely clock before bodies)
    (hdemand : more.filterMap (·.demand) = [time]) (hquiet : more.filterMap (·.claimedAt) = [])
    (hscheduled : after.state = .scheduled → after.notBeforeMs = some time)
    (hretry : after.state = .retryWait → after.retryAtMs = some time)
    (hreached : after.state = .ready ∨ after.state = .leased → time ≤ clock) :
    Timely clock (some after) (bodies ++ more) := by
  have hlatest : demanded (bodies ++ more) = time := demanded_latest bodies hdemand
  refine ⟨fun w hw => ?_, fun w hw => ?_, fun w hw => ?_, h.claims_append (Or.inl hquiet)⟩
  · rw [← Option.some.inj hw, hlatest]
    exact hscheduled
  · rw [← Option.some.inj hw, hlatest]
    exact hretry
  · rw [← Option.some.inj hw, hlatest]
    exact hreached

theorem Timely.ended (h : Timely clock before bodies)
    (hquiet : more.filterMap (·.demand) = [] ∧ more.filterMap (·.claimedAt) = [])
    (hended : after.state.isTerminal = true) : Timely clock (some after) (bodies ++ more) := by
  refine h.extend hquiet.1 (Or.inl hquiet.2) ?_ ?_ ?_
  · intro hstate
    rw [hstate] at hended
    cases hended
  · intro hstate
    rw [hstate] at hended
    cases hended
  · intro hstate
    rcases hstate with hstate | hstate
    · rw [hstate] at hended
      cases hended
    · rw [hstate] at hended
      cases hended

theorem Timely.of_ready {work : WorkState T} (h : Timely clock (some work) bodies)
    (hready : work.isReady clock = true) : demanded bodies ≤ clock := by
  rw [WorkState.isReady] at hready
  cases hstate : work.state with
  | scheduled =>
    rw [hstate, h.scheduled work rfl hstate] at hready
    exact of_decide_eq_true hready
  | retryWait =>
    rw [hstate, h.retryWait work rfl hstate] at hready
    exact of_decide_eq_true hready
  | ready => exact h.reached work rfl (Or.inl hstate)
  | leased | completed | canceled | deadLettered =>
    rw [hstate] at hready
    exact absurd hready Bool.false_ne_true

/-- A move at the time of the clock. -/
theorem timely_move {opts : RuntimeOptions}
    (hmove : Move opts clock before more after) (h : Timely clock before bodies) :
    Timely clock (some after) (bodies ++ more) := by
  cases hmove with
  | @admitted workId payload messageBus priority tags requirements notBeforeMs deadlineMs =>
    refine h.demand rfl rfl ?_ ?_ ?_
    · rw [admittedWork]
      cases notBeforeMs with
      | none => exact fun hstate => (by cases hstate)
      | some time => exact fun _ => rfl
    · rw [admittedWork]
      dsimp only
      split_ifs <;> exact fun hstate => (by cases hstate)
    · rw [admittedWork]
      cases notBeforeMs with
      | none => exact fun _ => Nat.zero_le clock
      | some time =>
        dsimp only [Option.any_some, Option.getD_some]
        intro hstate
        by_contra hlate
        rw [if_pos (decide_eq_true (Nat.lt_of_not_le hlate))] at hstate
        rcases hstate with hstate | hstate <;> cases hstate
  | deduped =>
    exact h.extend rfl (Or.inl rfl) (h.scheduled _ rfl) (h.retryWait _ rfl) (h.reached _ rfl)
  | @scheduled work =>
    refine h.demand rfl rfl (fun _ => rfl) ?_ ?_
    · exact fun hstate => (by cases hstate)
    · exact fun hstate => (by rcases hstate with hstate | hstate <;> cases hstate)
  | @claimed work hready =>
    have hreached := h.of_ready hready
    refine h.extend rfl (Or.inr ⟨_, clock, rfl, rfl, hreached⟩) ?_ ?_ fun _ => hreached
    · exact fun hstate => (by cases hstate)
    · exact fun hstate => (by cases hstate)
  | @renewed work =>
    exact h.extend rfl (Or.inl rfl) (h.scheduled work rfl) (h.retryWait work rfl)
      (h.reached work rfl)
  | @returned work hleased body lease hbody =>
    have hquiet : [body].filterMap (·.demand) = [] ∧ [body].filterMap (·.claimedAt) = [] := by
      cases body with
      | workReleased | leaseExpired => exact ⟨rfl, rfl⟩
      | _ => cases hbody
    refine h.extend hquiet.1 (Or.inl hquiet.2) ?_ ?_ fun _ => h.reached work rfl (Or.inr hleased)
    · exact fun hstate => (by cases hstate)
    · exact fun hstate => (by cases hstate)
  | completed => exact h.ended ⟨rfl, rfl⟩ rfl
  | @retried work _ _ commandId lease error reason retryable delayMs =>
    -- Without a delay the work is ready at once, and the time of the retry is now.
    refine h.demand rfl rfl ?_ (fun _ => rfl) ?_
    · dsimp only [WorkState.clearLease]
      split_ifs <;> exact fun hstate => (by cases hstate)
    · dsimp only [WorkState.clearLease]
      intro hstate
      split_ifs at hstate with hdelay
      · rcases hstate with hstate | hstate <;> cases hstate
      · omega
  | givenUp => exact h.ended ⟨rfl, rfl⟩ rfl
  | canceled => exact h.ended ⟨rfl, rfl⟩ rfl

end Times

/-! ### Runs under a clock -/

variable {s : RuntimeState T} {clock : Nat}

theorem queueStep_timely (opts : RuntimeOptions) (hkeyed : Keyed s.journal)
    (step : QueueStep T) (hle : clock ≤ step.nowMs) (h : Tells (Timely clock) s.journal) :
    Tells (Timely step.nowMs) (queueStep opts s step).1.journal := by
  refine Tells.books (queueStep_books opts hkeyed step) ?_ fun workId => (h workId).mono hle
  intro before bodies more after hmove _ htimely
  exact timely_move hmove htimely

theorem queueRun_timely (opts : RuntimeOptions) {steps : List (QueueStep T)}
    (hkeyed : Keyed s.journal) (hclock : ∀ step ∈ steps, clock ≤ step.nowMs)
    (htimes : (steps.map (·.nowMs)).Pairwise (· ≤ ·)) (h : Tells (Timely clock) s.journal) :
    ∃ clock', Tells (Timely clock') (queueRun opts s steps).journal := by
  induction steps generalizing s clock with
  | nil => exact ⟨clock, h⟩
  | cons step steps ih =>
    rw [map_cons, pairwise_cons] at htimes
    refine ih (queueStep_keyed opts hkeyed step) (fun later hmem => ?_) htimes.2
      (queueStep_timely opts hkeyed step (hclock step mem_cons_self) h)
    exact htimes.1 later.nowMs (mem_map_of_mem hmem)

variable {j : Journal T}

theorem records_timely (h : Tells (Timely clock) j) {i : Nat}
    {record : WorkQueueRecord T} (hget : j.records[i]? = some record)
    (hclaimed : record.body.claimedAt = some time) :
    demanded (about record.workId ((j.records.take i).map (·.entry))) ≤ time := by
  obtain ⟨hi, hrecord⟩ := List.getElem?_eq_some_iff.mp hget
  -- The log splits at the claim, and so does what it says of the work.
  have hsplit : j.records = j.records.take i ++ record :: j.records.drop (i + 1) := by
    rw [← hrecord, getElem_cons_drop, take_append_drop]
  have habout : about record.workId j.entries =
      about record.workId ((j.records.take i).map (·.entry)) ++
        record.body :: about record.workId ((j.records.drop (i + 1)).map (·.entry)) := by
    have hself : about record.workId (record.entry :: (j.records.drop (i + 1)).map (·.entry)) =
        record.body :: about record.workId ((j.records.drop (i + 1)).map (·.entry)) := by
      rw [about, filter_cons_of_pos (by exact decide_eq_true rfl)]
      rfl
    rw [← hself, ← about_append, ← map_cons (f := WorkQueueRecord.entry), ← map_append,
      ← hsplit]
    rfl
  have htimely := (h record.workId).claims _ record.body (by
    rw [habout, List.getElem?_append_right (Nat.le_refl _), Nat.sub_self]
    rfl) time hclaimed
  rw [habout, take_left] at htimely
  exact htimely

/-! ### Claims that name no works -/

/-- A work that a claim may take: it is ready, or its lease has expired. -/
def WorkState.claimable (nowMs : Nat) (work : WorkState T) : Bool :=
  work.isReady nowMs || work.isExpired nowMs

/-- Where a work stands in the order of admission. -/
def WorkState.rank (work : WorkState T) : Nat × String := (work.admissionSeq, work.workId)

/-- A work under a new lease. -/
def WorkState.leasedTo (work : WorkState T) (leaseId workerId : String) (leaseExpiresAtMs : Nat) :
    WorkState T :=
  { work with
    state := .leased
    attempt := work.attempt + 1
    leaseId := some leaseId
    workerId := some workerId
    leaseExpiresAtMs := some leaseExpiresAtMs }

/-- A work as a claim finds it, without a lease that has expired. -/
def WorkState.settled (nowMs : Nat) (work : WorkState T) : WorkState T :=
  if work.isExpired nowMs then work.handedBack else work

/-- The works a claim has taken, by their rank: they are the first ones that may be taken, as
    many as the limit allows; and of the others only expired leases are taken away. -/
structure TakesFirst (s s' : RuntimeState T) (workerId : String)
    (limit leaseExpiresAtMs nowMs : Nat) (taken : List (Nat × String)) : Prop where
  leased : ∀ rank ∈ taken, ∃ work, s.works.lookup rank.2 = some work ∧ work.rank = rank ∧
    work.claimable nowMs = true ∧ ∃ leaseId, s'.works.lookup rank.2 =
      some (work.leasedTo leaseId workerId leaseExpiresAtMs)
  ordered : taken.Pairwise candidateLe
  distinct : (taken.map (·.2)).Nodup
  count : taken.length = min limit (s.works.values.filter (·.claimable nowMs)).length
  first : ∀ workId work, s.works.lookup workId = some work → work.claimable nowMs = true →
    work.rank ∉ taken → ∀ rank ∈ taken, candidateLe rank work.rank
  others : ∀ workId, workId ∉ taken.map (·.2) →
    s'.works.lookup workId = (s.works.lookup workId).map (·.settled nowMs)

instance : IsTrans (Nat × String) candidateLe := ⟨fun a b c hab hbc => by
  rcases hab with hab | ⟨hab, hab'⟩
  · rcases hbc with hbc | ⟨hbc, _⟩
    · exact Or.inl (by omega)
    · exact Or.inl (by omega)
  · rcases hbc with hbc | ⟨hbc, hbc'⟩
    · exact Or.inl (by omega)
    · exact Or.inr ⟨hab.trans hbc, hab'.trans hbc'⟩⟩

instance : Std.Total (candidateLe) := ⟨fun a b => by
  rcases Nat.lt_trichotomy a.1 b.1 with hlt | heq | hlt
  · exact Or.inl (Or.inl hlt)
  · rcases le_total a.2 b.2 with hle | hle
    · exact Or.inl (Or.inr ⟨heq, hle⟩)
    · exact Or.inr (Or.inr ⟨heq.symm, hle⟩)
  · exact Or.inr (Or.inl hlt)⟩

theorem claimAll_lookup (opts : RuntimeOptions) (commandId workerId : String)
    {workIds : List String} (hnodup : workIds.Nodup) (leaseExpiresAtMs nowMs : Nat)
    (workId : String) :
    let s' := (claimAll opts s commandId workerId workIds leaseExpiresAtMs nowMs).1
    (workId ∉ workIds → s'.works.lookup workId = s.works.lookup workId) ∧
      (workId ∈ workIds → ∀ work, s.works.lookup workId = some work → ∃ leaseId,
        s'.works.lookup workId = some (work.leasedTo leaseId workerId leaseExpiresAtMs)) := by
  rw [claimAll_fst]
  induction workIds generalizing s with
  | nil => exact ⟨fun _ => rfl, fun h => absurd h not_mem_nil⟩
  | cons first workIds ih =>
    obtain ⟨hnot, hrest⟩ := nodup_cons.mp hnodup
    rw [foldl_cons]
    obtain ⟨hothers, hleased⟩ := ih (s := (claimOne opts s commandId workerId first
      leaseExpiresAtMs nowMs).1) hrest
    have hone : (workId ≠ first → (claimOne opts s commandId workerId first leaseExpiresAtMs
        nowMs).1.works.lookup workId = s.works.lookup workId) ∧
        (workId = first → ∀ work, s.works.lookup workId = some work → ∃ leaseId,
          (claimOne opts s commandId workerId first leaseExpiresAtMs
            nowMs).1.works.lookup workId =
              some (work.leasedTo leaseId workerId leaseExpiresAtMs)) := by
      rw [claimOne]
      cases hlook : s.works.lookup first with
      | none =>
        refine ⟨fun _ => rfl, fun heq work hfound => ?_⟩
        rw [heq, hlook] at hfound
        exact absurd hfound.symm (Option.some_ne_none work)
      | some found =>
        refine ⟨fun hne => SortedMap.lookup_insert_of_ne _ _ hne, fun heq work hfound => ?_⟩
        rw [heq, hlook, Option.some.injEq] at hfound
        rw [heq, ← hfound]
        exact ⟨_, SortedMap.lookup_insert_self _ _ _⟩
    refine ⟨fun hmem => ?_, fun hmem work hfound => ?_⟩
    · rw [mem_cons, not_or] at hmem
      rw [hothers hmem.2, hone.1 hmem.1]
    · by_cases hid : workId = first
      · rw [hothers (hid ▸ hnot)]
        exact hone.2 hid work hfound
      · refine hleased ((mem_cons.mp hmem).resolve_left hid) work ?_
        rw [hone.1 hid, hfound]

theorem materialized_lookup (opts : RuntimeOptions) (hkeyed : Keyed s.journal)
    (commandId : String) (nowMs : Nat) (workId : String) :
    (materializeAll opts s ((expiredWorks s [] nowMs).map (·.workId)) commandId
        nowMs).1.works.lookup workId = (s.works.lookup workId).map (·.settled nowMs) := by
  rw [materializeAll_lookup opts hkeyed]
  obtain ⟨_, hselected⟩ := selected_ids hkeyed fun work => wanted [] work && work.isExpired nowMs
  cases hfound : s.works.lookup workId with
  | none => rw [Option.map_none, Option.map_none, ite_self]
  | some work =>
    rw [Option.map_some, Option.map_some, WorkState.settled]
    by_cases hexpired : work.isExpired nowMs = true
    · -- An expired work is among those that are visited, under its own id.
      have hmem : workId ∈ (expiredWorks s [] nowMs).map (·.workId) := by
        refine mem_map.mpr ⟨work, mem_filter.mpr ⟨?_, ?_⟩, hkeyed workId work hfound⟩
        · exact mem_map_of_mem (SortedMap.lookup_eq_some_iff.mp hfound)
        · rw [hexpired]
          rfl
      rw [if_pos hmem, if_pos hexpired]
    · have hnot : workId ∉ (expiredWorks s [] nowMs).map (·.workId) := by
        intro hmem
        obtain ⟨work', hfound', hboth⟩ := hselected workId hmem
        have heq : work = work' := Option.some.inj (hfound.symm.trans hfound')
        rw [← heq, Bool.and_eq_true] at hboth
        exact hexpired hboth.2
      rw [if_neg hnot, if_neg hexpired]

section

variable (nowMs : Nat) (work : WorkState T)

theorem settled_isReady : (work.settled nowMs).isReady nowMs = work.claimable nowMs := by
  rw [WorkState.settled, WorkState.claimable]
  by_cases hexpired : work.isExpired nowMs = true
  · rw [if_pos hexpired, hexpired, Bool.or_true]
    rfl
  · rw [if_neg hexpired, Bool.eq_false_of_not_eq_true hexpired, Bool.or_false]

theorem settled_rank : (work.settled nowMs).rank = work.rank := by
  rw [WorkState.settled]
  split_ifs <;> rfl

theorem settled_leasedTo (leaseId workerId : String) (leaseExpiresAtMs : Nat) :
    (work.settled nowMs).leasedTo leaseId workerId leaseExpiresAtMs =
      work.leasedTo leaseId workerId leaseExpiresAtMs := by
  rw [WorkState.settled]
  split_ifs <;> rfl

end

/-- The ranks of the ready works, in order. -/
def readyRanks (s : RuntimeState T) (nowMs : Nat) : List (Nat × String) :=
  ((s.works.values.filter fun work => wanted [] work && work.isReady nowMs).map
    (·.rank)).insertionSort candidateLe

variable {nowMs : Nat}

variable {s' : RuntimeState T}

/-- The ranks of the ready works, once the expired leases are taken away, are those of the
    works that may be claimed. -/
theorem mem_readyRanks (hkeyed : Keyed s'.journal)
    (hsettled : ∀ workId, s'.works.lookup workId =
      (s.works.lookup workId).map (·.settled nowMs)) {rank : Nat × String} :
    rank ∈ readyRanks s' nowMs ↔ ∃ work, s.works.lookup rank.2 = some work ∧ work.rank = rank ∧
      work.claimable nowMs = true := by
  rw [readyRanks, mem_insertionSort, mem_map]
  constructor
  · rintro ⟨work', hmem, rfl⟩
    obtain ⟨hin, hready⟩ := mem_filter.mp hmem
    obtain ⟨entry, hentry, rfl⟩ := mem_map.mp hin
    have hfound := SortedMap.lookup_eq_some_iff.mpr hentry
    have hid : entry.2.workId = entry.1 := hkeyed entry.1 entry.2 hfound
    rw [hsettled, Option.map_eq_some_iff] at hfound
    obtain ⟨work, hwork, heq⟩ := hfound
    refine ⟨work, ?_, ?_, ?_⟩
    · rw [WorkState.rank, hid]
      exact hwork
    · rw [← heq, settled_rank]
    · rw [← settled_isReady, heq]
      exact (Bool.and_eq_true_iff.mp hready).2
  · rintro ⟨work, hwork, hrank, hclaimable⟩
    have hfound : s'.works.lookup rank.2 = some (work.settled nowMs) := by
      rw [hsettled, hwork, Option.map_some]
    refine ⟨work.settled nowMs, mem_filter.mpr ⟨?_, ?_⟩, ?_⟩
    · exact mem_map_of_mem (SortedMap.lookup_eq_some_iff.mp hfound)
    · rw [settled_isReady, hclaimable]
      rfl
    · rw [settled_rank, hrank]

/-- The ids of the ready works are distinct, and there are as many of them as of the works that
    may be claimed. -/
theorem readyRanks_ids (hkeyed : Keyed s.journal)
    (hkeyed' : Keyed s'.journal) (hsettled : ∀ workId, s'.works.lookup workId =
      (s.works.lookup workId).map (·.settled nowMs)) : ((readyRanks s' nowMs).map (·.2)).Nodup ∧
      (readyRanks s' nowMs).length = (s.works.values.filter (·.claimable nowMs)).length := by
  have hperm : ((readyRanks s' nowMs).map (·.2)).Perm ((s'.works.values.filter fun work =>
      wanted [] work && work.isReady nowMs).map (·.workId)) := by
    refine ((perm_insertionSort candidateLe _).map (·.2)).trans ?_
    rw [map_map]
    exact List.Perm.refl _
  have hnodup := (selected_ids hkeyed' fun work => wanted [] work && work.isReady nowMs).1
  have hnodup' := (selected_ids hkeyed (·.claimable nowMs)).1
  refine ⟨hperm.nodup_iff.mpr hnodup, ?_⟩
  have hsame : ((readyRanks s' nowMs).map (·.2)).Perm
      ((s.journal.works.values.filter (·.claimable nowMs)).map (·.workId)) := by
    refine (perm_ext_iff_of_nodup (hperm.nodup_iff.mpr hnodup) hnodup').mpr fun workId => ?_
    constructor
    · intro hmem
      obtain ⟨rank, hrank, rfl⟩ := mem_map.mp hmem
      obtain ⟨work, hwork, heq, hclaimable⟩ := (mem_readyRanks hkeyed' hsettled).mp hrank
      refine mem_map.mpr ⟨work, mem_filter.mpr ⟨?_, hclaimable⟩, ?_⟩
      · exact mem_map_of_mem (SortedMap.lookup_eq_some_iff.mp hwork)
      · rw [← heq]
        rfl
    · intro hmem
      obtain ⟨_, hselected⟩ := selected_ids hkeyed (·.claimable nowMs)
      obtain ⟨work, hwork, hclaimable⟩ := hselected workId hmem
      have hid : work.workId = workId := hkeyed workId work hwork
      refine mem_map.mpr ⟨work.rank, ?_, hid⟩
      rw [← hid] at hwork
      exact (mem_readyRanks hkeyed' hsettled).mpr ⟨work, hwork, rfl, hclaimable⟩
  have hlength := hsame.length_eq
  rw [length_map, length_map] at hlength
  exact hlength

/-- A claim that names no works takes the first ones. -/
theorem claimWork_takesFirst (opts : RuntimeOptions) (hkeyed : Keyed s.journal)
    (commandId workerId : String) (limit leaseDurationMs : Option Nat)
    (hfits : nowMs + leaseDurationMs.getD opts.leaseDurationMs ≤ maxU64) :
    ∃ taken, TakesFirst s
      (claimWork opts s commandId workerId [] limit leaseDurationMs nowMs).1 workerId (limit.getD 1)
      (nowMs + leaseDurationMs.getD opts.leaseDurationMs) nowMs taken := by
  set s' := (materializeAll opts s ((expiredWorks s [] nowMs).map (·.workId)) commandId nowMs).1
    with hs'
  have hsettled : ∀ workId, s'.works.lookup workId =
      (s.works.lookup workId).map (·.settled nowMs) :=
    materialized_lookup opts hkeyed commandId nowMs
  have hkeyed' : Keyed s'.journal := by
    intro workId work hwork
    have hwork' : s'.works.lookup workId = some work := hwork
    rw [hsettled, Option.map_eq_some_iff] at hwork'
    obtain ⟨before, hbefore, rfl⟩ := hwork'
    have hid : (before.settled nowMs).workId = before.workId :=
      congrArg Prod.snd (settled_rank nowMs before)
    rw [hid]
    exact hkeyed workId before hbefore
  obtain ⟨hdistinct, hlength⟩ := readyRanks_ids hkeyed hkeyed' hsettled
  set taken := (readyRanks s' nowMs).take (limit.getD 1) with htaken
  have hsorted : (readyRanks s' nowMs).Pairwise candidateLe := pairwise_insertionSort _ _
  have hsub : taken.Sublist (readyRanks s' nowMs) := take_sublist _ _
  have hnodup : (taken.map (·.2)).Nodup := hdistinct.sublist (hsub.map _)
  have htime : checkedTimestamp (T := T) opts (some commandId) nowMs
      (leaseDurationMs.getD opts.leaseDurationMs) "lease duration overflows timestamp" =
      .ok (nowMs + leaseDurationMs.getD opts.leaseDurationMs) := if_pos hfits
  -- Without candidates nothing is leased, and the loop over them does nothing either.
  have hworks : (claimWork opts s commandId workerId [] limit leaseDurationMs nowMs).1.works =
      (claimAll opts s' commandId workerId (taken.map (·.2))
        (nowMs + leaseDurationMs.getD opts.leaseDurationMs) nowMs).1.works := by
    rw [claimWork]
    by_cases hempty : (claimCandidates s' [] (limit.getD 1) nowMs).isEmpty = true
    · refine (congrArg (fun r : Answered T => r.1.works) (if_pos hempty)).trans ?_
      have hnil : taken.map (·.2) = [] := List.isEmpty_iff.mp hempty
      rw [hnil]
      rfl
    · refine (congrArg (fun r : Answered T => r.1.works) (if_neg hempty)).trans ?_
      rw [htime]
      rfl
  have hclaimed (workId : String) := claimAll_lookup opts (s := s') commandId workerId hnodup
    (nowMs + leaseDurationMs.getD opts.leaseDurationMs) nowMs workId
  refine ⟨taken, ?_, hsorted.sublist hsub, hnodup, ?_, ?_, ?_⟩
  · intro rank hmem
    obtain ⟨work, hwork, hrank, hclaimable⟩ :=
      (mem_readyRanks hkeyed' hsettled).mp (hsub.subset hmem)
    refine ⟨work, hwork, hrank, hclaimable, ?_⟩
    have hfound : s'.works.lookup rank.2 = some (work.settled nowMs) := by
      rw [hsettled, hwork, Option.map_some]
    obtain ⟨leaseId, hleased⟩ := (hclaimed rank.2).2 (mem_map_of_mem hmem) _ hfound
    rw [settled_leasedTo] at hleased
    exact ⟨leaseId, hworks ▸ hleased⟩
  · rw [htaken, length_take, hlength]
  · intro workId work hwork hclaimable hnot rank hmem
    have hid : work.workId = workId := hkeyed workId work hwork
    rw [← hid] at hwork
    have hin : work.rank ∈ readyRanks s' nowMs :=
      (mem_readyRanks hkeyed' hsettled).mpr ⟨work, hwork, rfl, hclaimable⟩
    -- What is not among the first ones comes after them.
    rw [← take_append_drop (limit.getD 1) (readyRanks s' nowMs)] at hin hsorted
    have hlater := (mem_append.mp hin).resolve_left hnot
    exact (pairwise_append.mp hsorted).2.2 rank hmem work.rank hlater
  · intro workId hnot
    rw [hworks, (hclaimed workId).1 hnot, hsettled]

/-! ### New ends of leases -/

/-- A renewal that names an end that has come. -/
def QueueStep.backdated : QueueStep T → Bool
  | admission .. => false
  | command c nowMs =>
    match c.body with
    | .renewLease _ _ _ (some leaseExpiresAtMs) => decide (leaseExpiresAtMs ≤ nowMs)
    | _ => false

variable {opts : RuntimeOptions}

/-- What a move does to the end of the lease of its work: it gives it one, or the work is not
    expired afterwards, or nothing about it has changed. -/
theorem move_expires {before : Option (WorkState T)} {after : WorkState T}
    (hmove : Move opts nowMs before more after) :
    (∃ body time, more = [body] ∧ body.leaseEnd = some time ∧
        after.isExpired nowMs = decide (time ≤ nowMs)) ∨ (∀ body ∈ more, body.leaseEnd = none) ∧
        (after.isExpired nowMs = false ∨ before = some after) := by
  cases hmove with
  | claimed => exact Or.inl ⟨_, _, rfl, rfl, rfl⟩
  | @renewed work hleased =>
    refine Or.inl ⟨_, _, rfl, rfl, ?_⟩
    rw [WorkState.isExpired, decide_eq_true hleased]
    rfl
  | admitted =>
    refine Or.inr ⟨forall_mem_singleton.mpr rfl, Or.inl ?_⟩
    rw [admittedWork, WorkState.isExpired]
    dsimp only
    split_ifs <;> rfl
  | deduped => exact Or.inr ⟨forall_mem_singleton.mpr rfl, Or.inr rfl⟩
  | scheduled => exact Or.inr ⟨forall_mem_singleton.mpr rfl, Or.inl rfl⟩
  | @returned work hleased body lease hbody =>
    refine Or.inr ⟨forall_mem_singleton.mpr ?_, Or.inl rfl⟩
    cases body with
    | workReleased | leaseExpired => rfl
    | _ => cases hbody
  | canceled => exact Or.inr ⟨forall_mem_singleton.mpr rfl, Or.inl rfl⟩
  | completed =>
    refine Or.inr ⟨fun body hmem => ?_, Or.inl rfl⟩
    rcases mem_pair.mp hmem with rfl | rfl <;> rfl
  | givenUp =>
    refine Or.inr ⟨fun body hmem => ?_, Or.inl rfl⟩
    rcases mem_pair.mp hmem with rfl | rfl <;> rfl
  | @retried work _ _ _ _ _ _ _ delayMs =>
    refine Or.inr ⟨fun body hmem => ?_, Or.inl ?_⟩
    · rcases mem_pair.mp hmem with rfl | rfl <;> rfl
    · rw [WorkState.isExpired, WorkState.clearLease]
      exact Bool.and_false _

/-- The log has grown, and each lease that was issued or renewed belongs to a work that is, or
    is not, expired. -/
def Grants (nowMs : Nat) (expired : Bool) (j j' : Journal T) : Prop :=
  ∃ appended, j'.records = j.records ++ appended ∧ ∀ record ∈ appended,
    record.body.leaseEnd.isSome → ∃ work, j'.works.lookup record.workId = some work ∧
      work.isExpired nowMs = expired

theorem Grants.refl (nowMs : Nat) (expired : Bool) (j : Journal T) : Grants nowMs expired j j :=
  ⟨[], (append_nil _).symm, fun _ h => absurd h not_mem_nil⟩

variable {entries : List (Entry T)}

theorem grants_moves (hmoves : Moves opts nowMs j entries) {expired : Bool}
    (hends : ∀ entry ∈ entries, ∀ time, entry.2.leaseEnd = some time →
      decide (time ≤ nowMs) = expired) : Grants nowMs expired j (j.writeAll opts entries) := by
  obtain ⟨workId, bodies, after, rfl, hafter, hmove⟩ := hmoves
  obtain ⟨appended, hrecords, hentries⟩ := records_writeAll j opts (bodies.map (workId, ·))
  refine ⟨appended, hrecords, fun record hmem hsome => ?_⟩
  have hentry : record.entry ∈ bodies.map (workId, ·) := hentries ▸ mem_map_of_mem hmem
  obtain ⟨body, hbody, heq⟩ := mem_map.mp hentry
  obtain ⟨hid, hrecord⟩ := Prod.mk.inj heq
  rw [← hrecord] at hsome
  rw [← hid]
  refine ⟨after, hafter, ?_⟩
  rcases move_expires hmove with ⟨claim, time, rfl, htime, hexpired⟩ | ⟨hnone, _⟩
  · rw [hexpired]
    exact hends _ (mem_map_of_mem mem_cons_self) time htime
  · rw [hnone body hbody] at hsome
    cases hsome

theorem Grants.moves {mid : Journal T} (h : Grants nowMs false j mid)
    (hmoves : Moves opts nowMs mid entries)
    (hends : ∀ entry ∈ entries, ∀ time, entry.2.leaseEnd = some time →
      decide (time ≤ nowMs) = false) : Grants nowMs false j (mid.writeAll opts entries) := by
  obtain ⟨before, hbefore, hold⟩ := h
  obtain ⟨appended, hrecords, hnew⟩ := grants_moves hmoves hends
  refine ⟨before ++ appended, ?_, fun record hmem hsome => ?_⟩
  · rw [hrecords, hbefore, append_assoc]
  · rcases mem_append.mp hmem with hmem | hmem
    · obtain ⟨work, hfound, hexpired⟩ := hold record hmem hsome
      obtain ⟨workId, bodies, after, rfl, hafter, hmove⟩ := hmoves
      by_cases hid : record.workId = workId
      · rw [hid] at hfound ⊢
        refine ⟨after, hafter, ?_⟩
        rcases move_expires hmove with ⟨claim, time, rfl, htime, hends'⟩ | ⟨_, hfresh | hsame⟩
        · rw [hends']
          exact hends _ (mem_map_of_mem mem_cons_self) time htime
        · exact hfresh
        · rw [hfound, Option.some.injEq] at hsame
          rw [← hsame]
          exact hexpired
      · refine ⟨work, ?_, hexpired⟩
        rw [lookup_writeAll opts, hfound]
        intro entry hmem
        obtain ⟨body, _, rfl⟩ := mem_map.mp hmem
        exact Ne.symm hid
    · exact hnew record hmem hsome

theorem Grants.books {of : WorkState T → Prop}
    {end_ : Option Nat} {j' : Journal T} (hbooks : Books opts nowMs (Says j of end_) j j')
    (hend : ∀ time, end_ = some time → nowMs < time) : Grants nowMs false j j' := by
  refine hbooks.invariant (fun mid entries hgrounded hkind h => ?_) (Grants.refl nowMs false j)
  refine h.moves (grounded_move hgrounded) fun entry hmem time htime => ?_
  exact decide_eq_false (Nat.not_le_of_lt (hend time ((hkind entry hmem).ends time htime)))

/-- A command that passes the checks gives leases an end in the future, unless it is a renewal
    that names one. -/
theorem leaseEnd_later (hduration : 0 < opts.leaseDurationMs)
    {body : CommandBody T} (hvalid : body.malformed = none)
    (hlive : ∀ workId lease leaseDurationMs leaseExpiresAtMs,
      body = .renewLease workId lease leaseDurationMs (some leaseExpiresAtMs) →
        nowMs < leaseExpiresAtMs) (h : body.leaseEnd opts nowMs = some time) :
    nowMs < time := by
  have hpositive : ∀ duration : Option Nat, duration ≠ some 0 →
      nowMs < nowMs + duration.getD opts.leaseDurationMs := by
    intro duration hne
    refine Nat.lt_add_of_pos_right ?_
    cases duration with
    | none => exact hduration
    | some value => exact Nat.pos_of_ne_zero fun hzero => hne (congrArg some hzero)
  cases body with
  | claim workerId requestedWorkIds limit leaseDurationMs =>
    rw [CommandBody.malformed] at hvalid
    split_ifs at hvalid with hworker hfields
    rw [← Option.some.inj h]
    exact hpositive leaseDurationMs fun hzero => hfields (Or.inr (Or.inl hzero))
  | renewLease workId lease leaseDurationMs leaseExpiresAtMs =>
    rw [CommandBody.malformed] at hvalid
    split_ifs at hvalid with hfields
    rw [← Option.some.inj h]
    cases leaseExpiresAtMs with
    | none => exact hpositive leaseDurationMs fun hzero => hfields (Or.inr hzero)
    | some leaseExpiresAtMs => exact hlive _ _ _ _ rfl
  | _ => cases h

/-- A lease that a step issues or renews is expired directly afterwards exactly if it was
    renewed to an end that has come. -/
theorem queueStep_grants (hduration : 0 < opts.leaseDurationMs) (hkeyed : Keyed s.journal)
    (step : QueueStep T) :
    Grants step.nowMs step.backdated s.journal (queueStep opts s step).1.journal := by
  cases hback : step.backdated with
  | false =>
    cases step with
    | admission message nowMs =>
      exact Grants.books (queueStep_books opts hkeyed (.admission message nowMs))
        fun time htime => (by cases htime)
    | command command nowMs =>
      cases htakes : s.takes opts command with
      | false =>
        obtain ⟨code, message, heq⟩ := reduceQueueCommand_refused htakes nowMs
        rw [queueStep, heq]
        exact Grants.refl nowMs _ s.journal
      | true =>
        refine Grants.books (queueStep_books opts hkeyed (.command command nowMs))
          fun time htime => leaseEnd_later hduration (takes_valid htakes) ?_ htime
        intro workId lease leaseDurationMs leaseExpiresAtMs hbody
        rw [QueueStep.backdated, hbody] at hback
        exact Nat.lt_of_not_le (of_decide_eq_false hback)
  | true =>
    cases step with
    | admission => cases hback
    | command command nowMs =>
      cases htakes : s.takes opts command with
      | false =>
        obtain ⟨code, message, heq⟩ := reduceQueueCommand_refused htakes nowMs
        rw [queueStep, heq]
        exact Grants.refl nowMs _ s.journal
      | true =>
        rw [QueueStep.backdated] at hback
        split at hback
        · rename_i workId lease leaseDurationMs leaseExpiresAtMs hbody
          -- A renewal writes at most one entry, and the end in it is the one it names.
          have hnote : Keyed (s.note command).journal := hkeyed
          rw [queueStep, reduceQueueCommand_taken htakes, hbody, dispatchQueueCommand]
          rcases renewLease_booked hnote command.commandId workId lease leaseDurationMs
            (some leaseExpiresAtMs) nowMs with hsame | ⟨entries, hgrounded, hkind, hafter⟩
          · rw [hsame]
            exact Grants.refl nowMs _ s.journal
          · rw [hafter]
            refine grants_moves (grounded_move hgrounded) fun entry hmem time htime => ?_
            rw [← Option.some.inj ((hkind entry hmem).2.ends time htime)]
            exact hback
        · cases hback

/-! ### Every run -/

/-- A claim that names no works, in some state. It is refused, or takes the first works, or,
    when the leases would end past 64 bits, takes none; in each case it does nothing else but
    take expired leases away. -/
structure ClaimsInOrder (opts : RuntimeOptions) (s : RuntimeState T) (command : WorkQueueCommand T)
    (nowMs : Nat) (workerId : String) (limit leaseDurationMs : Option Nat) : Prop where
  refused : s.takes opts command = false →
    (reduceQueueCommand opts s command nowMs).1.works = s.works
  taken : s.takes opts command = true →
    nowMs + leaseDurationMs.getD opts.leaseDurationMs ≤ maxU64 →
      ∃ taken, TakesFirst s (reduceQueueCommand opts s command nowMs).1 workerId (limit.getD 1)
        (nowMs + leaseDurationMs.getD opts.leaseDurationMs) nowMs taken
  overrun : s.takes opts command = true →
    maxU64 < nowMs + leaseDurationMs.getD opts.leaseDurationMs →
      ∀ workId, (reduceQueueCommand opts s command nowMs).1.works.lookup workId =
        (s.works.lookup workId).map (·.settled nowMs)

theorem reduceQueueCommand_claims (opts : RuntimeOptions)
    (hkeyed : Keyed s.journal) {command : WorkQueueCommand T} (nowMs : Nat) {workerId : String}
    {limit leaseDurationMs : Option Nat}
    (hbody : command.body = .claim workerId [] limit leaseDurationMs) :
    ClaimsInOrder opts s command nowMs workerId limit leaseDurationMs := by
  have hnote : Keyed (s.note command).journal := hkeyed
  constructor
  · intro htakes
    obtain ⟨code, message, heq⟩ := reduceQueueCommand_refused htakes nowMs
    rw [heq]
  · intro htakes hfits
    obtain ⟨taken, h⟩ := claimWork_takesFirst opts hnote command.commandId workerId limit
      leaseDurationMs hfits
    rw [reduceQueueCommand_taken htakes, hbody, dispatchQueueCommand]
    exact ⟨taken, h.leased, h.ordered, h.distinct, h.count, h.first, h.others⟩
  · intro htakes hpast workId
    rw [reduceQueueCommand_taken htakes, hbody, dispatchQueueCommand, claimWork]
    have hsettled := materialized_lookup opts hnote command.commandId nowMs workId
    have hrefused : checkedTimestamp (T := T) opts (some command.commandId) nowMs
        (leaseDurationMs.getD opts.leaseDurationMs) "lease duration overflows timestamp" =
        .error (rejectQueueCommandById opts (some command.commandId) "clock-overflow"
          "lease duration overflows timestamp" nowMs) := if_neg (Nat.not_le_of_lt hpast)
    rw [hrefused]
    dsimp only
    split
    · exact hsettled
    · exact hsettled

/-- In every run under a clock that does not run backwards, and for the step after it: every
    claim comes at or after the time that is demanded by the latest records of its work; a
    claim that names no works takes the first ones and changes no others but for expired
    leases; and a lease that is issued or renewed is expired directly afterwards exactly if it
    was renewed to an end that had come. -/
theorem claims_respect_times (opts : RuntimeOptions) (hduration : 0 < opts.leaseDurationMs)
    (steps : List (QueueStep T)) (step : QueueStep T)
    (htimes : ((steps ++ [step]).map (·.nowMs)).Pairwise (· ≤ ·)) :
    let s := queueRun opts RuntimeState.default steps
    let s' := (queueStep opts s step).1
    (∀ i record, s'.records[i]? = some record → ∀ time, record.body.claimedAt = some time →
      demanded (about record.workId ((s'.records.take i).map (·.entry))) ≤ time) ∧
    (∀ command nowMs workerId limit leaseDurationMs, step = .command command nowMs →
      command.body = .claim workerId [] limit leaseDurationMs →
        ClaimsInOrder opts s command nowMs workerId limit leaseDurationMs) ∧
    ∃ appended, s'.records = s.records ++ appended ∧ ∀ record ∈ appended,
      record.body.leaseEnd.isSome → ∃ work, s'.works.lookup record.workId = some work ∧
        work.isExpired step.nowMs = step.backdated := by
  intro s s'
  have hkeyed : Keyed s.journal := (queueRun_writes opts keyed_default steps).keyed keyed_default
  refine ⟨fun i record hget time hclaimed => ?_, ?_, queueStep_grants hduration hkeyed step⟩
  · have hstart : Tells (Timely 0) (RuntimeState.default : RuntimeState T).journal := by
      intro workId
      refine ⟨?_, ?_, ?_, fun i body hbody => ?_⟩
      · exact fun w hw => absurd hw.symm (Option.some_ne_none w)
      · exact fun w hw => absurd hw.symm (Option.some_ne_none w)
      · exact fun w hw => absurd hw.symm (Option.some_ne_none w)
      · cases hbody
    have hzero : ∀ later ∈ steps ++ [step], 0 ≤ later.nowMs := fun later _ => Nat.zero_le _
    obtain ⟨clock, htimely⟩ := queueRun_timely opts keyed_default hzero htimes hstart
    have hrun : queueRun opts RuntimeState.default (steps ++ [step]) = s' := by
      rw [queueRun, foldl_append]
      rfl
    rw [hrun] at htimely
    exact records_timely htimely hget hclaimed
  · rintro command nowMs workerId limit leaseDurationMs rfl hbody
    exact reduceQueueCommand_claims opts hkeyed nowMs hbody

/-- The worker of the first claim renews its lease, up to some time. -/
def renewFirst (leaseExpiresAtMs : Nat) : WorkQueueCommand Nat :=
  { commandId := "renewed"
    queueId := none
    idempotencyKey := none
    body := .renewLease "w" { leaseId := leaseIdFor "w" 1, attempt := 1, workerId := "worker" } none
      (some leaseExpiresAtMs) }

/-- A work that is leased. -/
def leasedOnce : List (QueueStep Nat) := [.admission submitOne 0, .command (claimAny "first") 0]

theorem claims_respect_times_renewed :
    let s := queueRun shortLeases RuntimeState.default leasedOnce
    let s' := (queueStep shortLeases s (.command (renewFirst 20) 5)).1
    s'.recordSeq = 3 ∧ ∃ appended, s'.records = s.records ++ appended ∧
      ∀ record ∈ appended, record.body.leaseEnd.isSome →
        ∃ work, s'.works.lookup record.workId = some work ∧ work.isExpired 5 = false := by
  refine ⟨by decide +kernel, ?_⟩
  exact (claims_respect_times shortLeases (by decide) leasedOnce (.command (renewFirst 20) 5)
    (by decide)).2.2

/-! ### A renewal into the past -/

/-- At the time 5 the worker renews its lease up to 3. The renewal is accepted and recorded, and
    directly afterwards the lease is expired. -/
theorem renewed_into_the_past :
    let s' := (queueStep shortLeases (queueRun shortLeases RuntimeState.default leasedOnce)
      (.command (renewFirst 3) 5)).1
    s'.records.getLast?.map (·.body.leaseEnd) = some (some 3) ∧
      ¬ ∀ work, s'.works.lookup "w" = some work → work.isExpired 5 = false := by
  intro s'
  have hlease : s'.records.getLast?.map (·.body.leaseEnd) = some (some 3) ∧
      (s'.works.lookup "w").map (·.isExpired 5) = some true := by decide +kernel
  refine ⟨hlease.1, fun hlive => ?_⟩
  obtain ⟨work, hfound, hexpired⟩ := Option.map_eq_some_iff.mp hlease.2
  rw [hlive work hfound] at hexpired
  cases hexpired

end GraphRefly.WorkQueue
