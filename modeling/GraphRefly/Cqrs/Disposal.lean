import GraphRefly.Cqrs.Queue
import GraphRefly.Lib.Earlier

/-!
# Claims and their Disposal

What the records say of the claims, apart from the node: which claims are to be
dispatched, and which of them no record has ended. The node follows that once it runs.
Its open claims are claims that no record has ended, so every status it takes disposes of
one of these, and the keys of the claims it has disposed of keep it from doing so twice.

Before every stream has delivered something the node does not run, and no claim is
dispatched however long it has been there.

## Main definitions

* `due`: The attempts of the claims among some records.
* `Ends`, `Live`: A record ends a claim; a claim that no record has ended.
* `Tracks`: The node's state and facts against the records.
* `Answers`: What is to hold of the facts of a wave.
* `Opened`: Every stream has delivered something.

## Theorems

* `Tracks.record`, `Tracks.status`: One record, and one status.
* `follows_after`: The node after some waves.
* `answers_iff`: When the waves are answered.
-/

namespace GraphRefly.Cqrs.Queue

open List GraphRefly.Lib GraphRefly.Messaging GraphRefly.WorkQueue

variable {C : Type}

/-! ### What the records say -/

/-- The payload a record admits a work with. -/
def admits (workId : String) (record : QueueRecord C) : Option (CqrsQueuedCommandPayload C) :=
  match record.body with
  | .workAdmitted payload .. =>
    if record.workId = workId ∧ payload.kind = "cqrs-queued-command" then some payload else none
  | _ => none

/-- The payload a work was admitted with, the last time. -/
def admitted (records : List (QueueRecord C)) (workId : String) :
    Option (CqrsQueuedCommandPayload C) :=
  (records.filterMap (admits workId)).getLast?

section

variable (opts : CqrsWorkQueueRecipeOptions)

/-- The attempt of a claim by the node's own worker of a work that was admitted before. -/
def claimOf (before : List (QueueRecord C))
    (record : QueueRecord C) : Option (CqrsWorkQueueAttempt C) :=
  match record.body with
  | .workClaimed _ lease _ _ =>
    if opts.workerId.any fun expected => decide (expected ≠ lease.workerId) then none
    else (admitted before record.workId).map (attemptFact record lease)
  | _ => none

def dueAfter (opts : CqrsWorkQueueRecipeOptions) :
    List (QueueRecord C) → List (QueueRecord C) → List (CqrsWorkQueueAttempt C)
  | _, [] => []
  | before, record :: records =>
    (claimOf opts before record).toList ++ dueAfter opts (before ++ [record]) records

/-- The attempts of the claims among some records, in their order. -/
def due (records : List (QueueRecord C)) :
    List (CqrsWorkQueueAttempt C) :=
  dueAfter opts [] records

/-- A record ends a claim: it releases, expires, fails or completes it, or it cancels or gives up
    the work. -/
def Ends (record : QueueRecord C) (attempt : CqrsWorkQueueAttempt C) : Prop :=
  match record.body with
  | .workReleased _ lease _ _ | .leaseExpired _ lease _ _ | .attemptFailed _ lease _ _ _
  | .attemptCompleted _ lease _ _ | .workCompleted _ lease _ _ =>
    record.workId = attempt.workId ∧ lease = attempt.lease
  | .workDeadLettered .. => record.workId = attempt.workId
  | .workCanceled _ _ _ leaseId number =>
    record.workId = attempt.workId ∧ (∀ id, leaseId = some id → id = attempt.leaseId) ∧
      ∀ n, number = some n → n = attempt.queueAttempt
  | _ => False

/-- A claim among some records that none of the later ones ends. -/
def Live (records : List (QueueRecord C)) (attempt : CqrsWorkQueueAttempt C) : Prop :=
  ∃ before record later, records = before ++ record :: later ∧
    claimOf opts before record = some attempt ∧ ∀ r ∈ later, ¬ Ends r attempt

end

section Records

variable {opts : CqrsWorkQueueRecipeOptions} {records : List (QueueRecord C)}
  {record : QueueRecord C} {attempt : CqrsWorkQueueAttempt C}

theorem dueAfter_append (before front back : List (QueueRecord C)) :
    dueAfter opts before (front ++ back) =
      dueAfter opts before front ++ dueAfter opts (before ++ front) back := by
  induction front generalizing before with
  | nil => rw [nil_append, dueAfter, nil_append, append_nil]
  | cons r front ih =>
    rw [cons_append, dueAfter, dueAfter, ih, append_assoc, append_assoc,
      singleton_append]

theorem due_concat : due opts (records ++ [record]) =
    due opts records ++ (claimOf opts records record).toList := by
  rw [due, dueAfter_append, nil_append, dueAfter, dueAfter, append_nil]
  rfl

theorem admitted_concat (workId : String) : admitted (records ++ [record]) workId =
    (admits workId record).or (admitted records workId) := by
  rw [admitted, filterMap_append]
  cases h : admits workId record with
  | none => rw [filterMap_cons_none h, filterMap_nil, append_nil]; rfl
  | some payload =>
    rw [filterMap_cons_some h, filterMap_nil, List.getLast?_concat]
    rfl

theorem live_concat : Live opts (records ++ [record]) attempt ↔
    (Live opts records attempt ∧ ¬ Ends record attempt) ∨
      claimOf opts records record = some attempt := by
  unfold Live
  rw [exists_split_concat (Q := fun before r later =>
    claimOf opts before r = some attempt ∧ ∀ x ∈ later, ¬ Ends x attempt)]
  simp only [mem_append, mem_singleton, or_imp, forall_and, forall_eq,
    not_mem_nil, false_imp_iff, implies_true, and_true]
  constructor
  · rintro (⟨before, r, later, heq, hclaim, hlater, hend⟩ | hclaim)
    · exact Or.inl ⟨⟨before, r, later, heq, hclaim, hlater⟩, hend⟩
    · exact Or.inr hclaim
  · rintro (⟨⟨before, r, later, heq, hclaim, hlater⟩, hend⟩ | hclaim)
    · exact Or.inl ⟨before, r, later, heq, hclaim, hlater, hend⟩
    · exact Or.inr hclaim

theorem Live.due (h : Live opts records attempt) : attempt ∈ due opts records := by
  obtain ⟨before, record, later, rfl, hclaim, -⟩ := h
  rw [Queue.due, dueAfter_append, nil_append, dueAfter, hclaim]
  simp

theorem claimStays_iff : claimStays record attempt = true ↔ ¬ Ends record attempt := by
  rw [claimStays, Ends]
  cases record.body with
  | workReleased _ lease _ _ | leaseExpired _ lease _ _ | attemptFailed _ lease _ _ _
  | attemptCompleted _ lease _ _ | workCompleted _ lease _ _ =>
    rw [decide_eq_true_iff, not_and, ← not_and]
    constructor
    · rintro h ⟨hwork, rfl⟩
      rcases h with h | h | h | h
      · exact h hwork.symm
      · exact h rfl
      · exact h rfl
      · exact h rfl
    · intro h
      by_contra hall
      push Not at hall
      refine h ⟨hall.1.symm, ?_⟩
      rw [CqrsWorkQueueAttempt.lease, hall.2.1, hall.2.2.1, hall.2.2.2]
  | workDeadLettered _ _ _ _ =>
    rw [decide_eq_true_iff]
    exact ne_comm
  | workCanceled _ _ _ leaseId number =>
    cases leaseId <;> cases number <;> simp <;> grind
  | _ => simp

end Records

/-! ### What is emitted -/

def CqrsQueueFact.attempt? : CqrsQueueFact C → Option (CqrsWorkQueueAttempt C)
  | .attempt fact => some fact
  | _ => none

def CqrsQueueFact.dispatch? : CqrsQueueFact C → Option (CqrsCommand C)
  | .dispatch sent => some sent
  | _ => none

/-- The work and the lease that a fact completes or fails. -/
def CqrsQueueFact.disposal? : CqrsQueueFact C → Option (String × LeaseRef)
  | .command sent =>
    match sent.body with
    | .complete workId lease _ | .fail workId lease _ _ => some (workId, lease)
    | _ => none
  | _ => none

/-- The attempts of the facts are those of the records, and each is dispatched. -/
structure Dispatched (opts : CqrsWorkQueueRecipeOptions) (seen : List (QueueRecord C))
    (facts : List (CqrsQueueFact C)) : Prop where
  attempts : facts.filterMap (·.attempt?) = due opts seen
  dispatches : facts.filterMap (·.dispatch?) = (due opts seen).map (·.command)

/-- Every disposal of a wave is of a claim that was dispatched before it and that the records do
    not end. -/
def Justified (opts : CqrsWorkQueueRecipeOptions) (seen : List (QueueRecord C))
    (earlier now : List (CqrsQueueFact C)) : Prop :=
  ∀ before fact later, now = before ++ fact :: later →
    ∀ claim, fact.disposal? = some claim →
      ∃ attempt ∈ (earlier ++ before).filterMap (·.attempt?),
        (attempt.workId, attempt.lease) = claim ∧ Live opts seen attempt

/-- What is to hold after a wave of what it emits. -/
structure Answers (opts : CqrsWorkQueueRecipeOptions) (seen : List (QueueRecord C))
    (earlier now : List (CqrsQueueFact C)) : Prop where
  dispatched : Dispatched opts seen (earlier ++ now)
  justified : Justified opts seen earlier now
  once : ((earlier ++ now).filterMap (·.disposal?)).Nodup

/-- The spelling a claim is remembered under. -/
def disposalKey (claim : String × LeaseRef) : String :=
  s!"{claim.1}:{claim.2.leaseId}:{claim.2.attempt}"

/-- The node's state and facts against the records it has taken. -/
structure Tracks (opts : CqrsWorkQueueRecipeOptions) (seen : List (QueueRecord C))
    (facts : List (CqrsQueueFact C)) (s : CqrsQueueState C) : Prop where
  payloads : ∀ workId, s.payloads.lookup workId = admitted seen workId
  dispatched : Dispatched opts seen facts
  active : ∀ id claims, s.activeClaims.lookup id = some claims →
    ∀ attempt ∈ claims, Live opts seen attempt
  closed : ∀ claim ∈ facts.filterMap (·.disposal?), disposalKey claim ∈ s.terminalClaims
  once : (facts.filterMap (·.disposal?)).Nodup

theorem Tracks.start (opts : CqrsWorkQueueRecipeOptions) :
    Tracks opts ([] : List (QueueRecord C)) [] .default where
  payloads := fun _ => rfl
  dispatched := ⟨rfl, rfl⟩
  active := fun _ _ h => absurd h (Option.some_ne_none _).symm
  closed := fun _ h => absurd h not_mem_nil
  once := nodup_nil

section Steps

variable {opts : CqrsWorkQueueRecipeOptions} {seen : List (QueueRecord C)}
  {facts : List (CqrsQueueFact C)} {s : CqrsQueueState C}

/-! ### A record -/

/-- Facts that are neither attempts nor dispatches nor disposals. -/
def Idle (facts : List (CqrsQueueFact C)) : Prop :=
  ∀ fact ∈ facts, fact.attempt? = none ∧ fact.dispatch? = none ∧ fact.disposal? = none

variable {new : List (CqrsQueueFact C)}

theorem filterMap_idle {β : Type} {f : CqrsQueueFact C → Option β}
    (h : ∀ fact ∈ new, f fact = none) : (facts ++ new).filterMap f = facts.filterMap f := by
  rw [filterMap_append, filterMap_eq_nil_iff.mpr h, append_nil]

theorem Tracks.unclaimed (h : Tracks opts seen facts s) {record : QueueRecord C}
    {s' : CqrsQueueState C} (hnone : claimOf opts seen record = none)
    (hidle : Idle new) (hpayloads : ∀ workId, s'.payloads.lookup workId =
      (admits workId record).or (s.payloads.lookup workId))
    (hactive : ∀ id claims, s'.activeClaims.lookup id = some claims → ∀ attempt ∈ claims,
      ¬ Ends record attempt ∧
        ∃ claims', s.activeClaims.lookup id = some claims' ∧ attempt ∈ claims')
    (hterminal : s'.terminalClaims = s.terminalClaims) :
    Tracks opts (seen ++ [record]) (facts ++ new) s' where
  payloads := fun workId => by rw [hpayloads, admitted_concat, h.payloads]
  dispatched := by
    have hdue : due opts (seen ++ [record]) = due opts seen := by
      rw [due_concat, hnone, Option.toList_none, append_nil]
    constructor
    · rw [filterMap_idle fun fact hfact => (hidle fact hfact).1, hdue, h.dispatched.attempts]
    · rw [filterMap_idle fun fact hfact => (hidle fact hfact).2.1, hdue, h.dispatched.dispatches]
  active := by
    intro id claims hlook attempt hmem
    obtain ⟨hends, claims', hold, hmem'⟩ := hactive id claims hlook attempt hmem
    exact live_concat.mpr (Or.inl ⟨h.active id claims' hold attempt hmem', hends⟩)
  closed := by
    rw [filterMap_idle fun fact hfact => (hidle fact hfact).2.2, hterminal]
    exact h.closed
  once := by
    rw [filterMap_idle fun fact hfact => (hidle fact hfact).2.2]
    exact h.once

variable {attempt : CqrsWorkQueueAttempt C}

theorem mem_retainActiveClaims {keep : CqrsWorkQueueAttempt C → Bool} {id : String}
    {claims : List (CqrsWorkQueueAttempt C)}
    (h : (retainActiveClaims s keep).activeClaims.lookup id = some claims)
    (hmem : attempt ∈ claims) : keep attempt = true ∧
      ∃ claims', s.activeClaims.lookup id = some claims' ∧ attempt ∈ claims' := by
  rw [retainActiveClaims, SortedMap.lookup_retain, SortedMap.lookup_map,
    Option.filter_eq_some_iff, Option.map_eq_some_iff] at h
  obtain ⟨⟨claims', hold, rfl⟩, -⟩ := h
  rw [mem_filter] at hmem
  exact ⟨hmem.2, claims', hold, hmem.1⟩

theorem Tracks.claimed (h : Tracks opts seen facts s) {record : QueueRecord C}
    (hclaim : claimOf opts seen record = some attempt)
    (hadmits : ∀ workId, admits workId record = none) :
    Tracks opts (seen ++ [record]) (facts ++ [.attempt attempt, .dispatch attempt.command])
      (pushClaim s attempt) where
  payloads := fun workId => by rw [admitted_concat, hadmits, ← h.payloads]; rfl
  dispatched := by
    have hdue : due opts (seen ++ [record]) = due opts seen ++ [attempt] := by
      rw [due_concat, hclaim, Option.toList_some]
    constructor
    · rw [filterMap_append, h.dispatched.attempts, hdue]
      rfl
    · rw [filterMap_append, h.dispatched.dispatches, hdue, map_append]
      rfl
  active := by
    intro id claims hlook other hmem
    have hends : ∀ other, ¬ Ends record other := by
      intro other hends
      rw [claimOf] at hclaim
      rw [Ends] at hends
      cases hbody : record.body <;> simp_all
    rw [pushClaim, SortedMap.lookup_insert] at hlook
    split_ifs at hlook with hid
    · rw [← Option.some.inj hlook, mem_append, mem_singleton] at hmem
      rcases hmem with hmem | rfl
      · cases hold : s.activeClaims.lookup attempt.command.id with
        | none => rw [hold] at hmem; exact absurd hmem not_mem_nil
        | some claims' =>
          rw [hold, Option.getD_some] at hmem
          exact live_concat.mpr (Or.inl ⟨h.active _ claims' hold other hmem, hends other⟩)
      · exact live_concat.mpr (Or.inr hclaim)
    · exact live_concat.mpr (Or.inl ⟨h.active id claims hlook other hmem, hends other⟩)
  closed := by
    rw [filterMap_append]
    intro claim hmem
    rw [mem_append] at hmem
    exact hmem.elim (h.closed claim) fun hnew => absurd hnew not_mem_nil
  once := by
    rw [filterMap_append]
    exact (append_nil _).symm ▸ h.once

/-- One record. -/
theorem Tracks.record (h : Tracks opts seen facts s) (record : QueueRecord C) :
    Tracks opts (seen ++ [record]) (facts ++ (reduceRecord opts s record).2)
      (reduceRecord opts s record).1 := by
  -- A record that is neither an admission nor a claim only ends claims.
  have hends (hnone : claimOf opts seen record = none)
      (hadmits : ∀ workId, admits workId record = none) :
      Tracks opts (seen ++ [record]) (facts ++ []) (invalidateClaimsForRecord s record) := by
    refine h.unclaimed hnone (fun _ h => absurd h not_mem_nil) ?_ ?_ rfl
    · intro workId
      rw [hadmits]
      rfl
    · intro id claims hlook attempt hmem
      obtain ⟨hkeep, hold⟩ := mem_retainActiveClaims hlook hmem
      exact ⟨claimStays_iff.mp hkeep, hold⟩
  cases hbody : record.body with
  | workAdmitted payload bus priority tags requirements notBefore deadline recordedAt =>
    have hnone : claimOf opts seen record = none := by rw [claimOf, hbody]
    have hstay : ∀ attempt, ¬ Ends record attempt := by
      intro attempt hends
      rw [Ends, hbody] at hends
      exact hends
    rw [reduceRecord, hbody]
    dsimp only
    split_ifs with hkind
    · refine h.unclaimed hnone (fun _ h => absurd h not_mem_nil) ?_
        (fun id claims hlook attempt hmem => ⟨hstay attempt, claims, hlook, hmem⟩) rfl
      intro workId
      rw [SortedMap.lookup_insert, admits, hbody]
      dsimp only
      by_cases hid : workId = record.workId
      · rw [if_pos hid, if_pos ⟨hid.symm, hkind⟩]
        rfl
      · rw [if_neg hid, if_neg fun hboth => hid hboth.1.symm]
        rfl
    · refine h.unclaimed hnone ?_ ?_
        (fun id claims hlook attempt hmem => ⟨hstay attempt, claims, hlook, hmem⟩) rfl
      · intro fact hfact
        rw [mem_singleton.mp hfact]
        exact ⟨rfl, rfl, rfl⟩
      · intro workId
        rw [admits, hbody]
        dsimp only
        rw [if_neg fun hboth => hkind hboth.2]
        rfl
  | workClaimed commandId lease claimedAt expiresAt =>
    have hadmits : ∀ workId, admits workId record = none := by
      intro workId
      rw [admits, hbody]
    have hclaim : claimOf opts seen record =
        if opts.workerId.any fun expected => decide (expected ≠ lease.workerId) then none
        else (admitted seen record.workId).map (attemptFact record lease) := by
      rw [claimOf, hbody]
    have hstay : ∀ attempt, ¬ Ends record attempt := by
      intro attempt hends
      rw [Ends, hbody] at hends
      exact hends
    -- A claim that is not for this node, or not of an admitted work, leaves the state.
    have hkept (hnone : claimOf opts seen record = none) {new : List (CqrsQueueFact C)}
        (hidle : Idle new) : Tracks opts (seen ++ [record]) (facts ++ new) s := by
      refine h.unclaimed hnone hidle ?_
        (fun id claims hlook attempt hmem => ⟨hstay attempt, claims, hlook, hmem⟩) rfl
      intro workId
      rw [hadmits]
      rfl
    rw [reduceRecord, hbody]
    dsimp only
    split_ifs at hclaim ⊢ with hworker
    · exact hkept hclaim fun _ h => absurd h not_mem_nil
    · rw [h.payloads]
      cases hadmitted : admitted seen record.workId with
      | none =>
        rw [hadmitted, Option.map_none] at hclaim
        refine hkept hclaim ?_
        intro fact hfact
        rcases mem_cons.mp hfact with rfl | hfact
        · exact ⟨rfl, rfl, rfl⟩
        · rw [mem_singleton.mp hfact]
          exact ⟨rfl, rfl, rfl⟩
      | some payload =>
        rw [hadmitted, Option.map_some] at hclaim
        exact h.claimed hclaim hadmits
  | _ =>
    have hnone : claimOf opts seen record = none := by rw [claimOf, hbody]
    have hadmits : ∀ workId, admits workId record = none := by
      intro workId
      rw [admits, hbody]
    rw [reduceRecord, hbody]
    exact hends hnone hadmits

theorem Tracks.records (h : Tracks opts seen facts s) (records : List (QueueRecord C)) :
    Tracks opts (seen ++ records) (facts ++ (reduceAll (reduceRecord opts) s records).2)
      (reduceAll (reduceRecord opts) s records).1 := by
  induction records generalizing seen facts s with
  | nil =>
    rw [append_nil, reduceAll, append_nil]
    exact h
  | cons record records ih =>
    have hnext := ih (h.record record)
    rw [append_assoc, singleton_append, append_assoc] at hnext
    exact hnext

/-! ### A status -/

theorem Tracks.errors (h : Tracks opts seen facts s) (errors : List (CqrsError C)) :
    Tracks opts seen facts (errors.foldl noteError s) := by
  induction errors generalizing s with
  | nil => exact h
  | cons error errors ih =>
    refine ih ?_
    rw [noteError]
    cases error.command with
    | none => exact h
    | some command => exact { h with }

theorem shiftActiveClaim_spec {claims claims' : SortedMap String (List (CqrsWorkQueueAttempt C))}
    {commandId : String} (h : shiftActiveClaim claims commandId = some (attempt, claims')) :
    (∃ line, claims.lookup commandId = some line ∧ attempt ∈ line) ∧
      ∀ id left, claims'.lookup id = some left →
        ∃ line, claims.lookup id = some line ∧ ∀ a ∈ left, a ∈ line := by
  rw [shiftActiveClaim] at h
  cases hline : claims.lookup commandId with
  | none => rw [hline] at h; cases h
  | some line =>
    cases line with
    | nil => rw [hline] at h; cases h
    | cons first rest =>
      rw [hline] at h
      obtain ⟨rfl, rfl⟩ := Prod.mk.inj (Option.some.inj h)
      refine ⟨⟨first :: rest, rfl, mem_cons_self⟩, fun id left hleft => ?_⟩
      by_cases hid : id = commandId
      · rw [hid] at hleft ⊢
        split_ifs at hleft
        · rw [SortedMap.lookup_erase_self] at hleft
          cases hleft
        · rw [SortedMap.lookup_insert_self] at hleft
          rw [← Option.some.inj hleft]
          exact ⟨first :: rest, hline, fun a ha => mem_cons_of_mem first ha⟩
      · split_ifs at hleft
        · rw [SortedMap.lookup_erase_of_ne _ hid] at hleft
          exact ⟨left, hleft, fun a ha => ha⟩
        · rw [SortedMap.lookup_insert_of_ne _ _ hid] at hleft
          exact ⟨left, hleft, fun a ha => ha⟩

theorem disposal_disposition (attempt : CqrsWorkQueueAttempt C) (s : CqrsQueueState C)
    (commandId : String) (status : CqrsStatus) (policy : CqrsWorkQueuePolicy) :
    (CqrsQueueFact.command (cqrsWorkQueueDispositionCommand attempt
      (outcomeOf s commandId status) policy)).disposal? =
        some (attempt.workId, attempt.lease) := by
  unfold outcomeOf cqrsWorkQueueDispositionCommand
  split_ifs
  · rfl
  · dsimp only
    split_ifs
    · rfl
    · rfl

theorem Dispatched.quiet (h : Dispatched opts seen facts)
    (hattempt : ∀ fact ∈ new, fact.attempt? = none ∧ fact.dispatch? = none) :
    Dispatched opts seen (facts ++ new) where
  attempts := by
    rw [filterMap_idle fun fact hfact => (hattempt fact hfact).1]
    exact h.attempts
  dispatches := by
    rw [filterMap_idle fun fact hfact => (hattempt fact hfact).2]
    exact h.dispatches

theorem Tracks.answer (h : Tracks opts seen facts s)
    {claims : SortedMap String (List (CqrsWorkQueueAttempt C))} {terminal : Finset String}
    {fact : CqrsQueueFact C}
    (hclaims : ∀ id left, claims.lookup id = some left →
      ∃ line, s.activeClaims.lookup id = some line ∧ ∀ a ∈ left, a ∈ line)
    (hquiet : fact.attempt? = none ∧ fact.dispatch? = none) (hgrow : s.terminalClaims ⊆ terminal)
    (hfact : ∀ claim, fact.disposal? = some claim →
      disposalKey claim ∈ terminal ∧ disposalKey claim ∉ s.terminalClaims) :
    Tracks opts seen (facts ++ [fact])
      { s with activeClaims := claims, terminalClaims := terminal } where
  payloads := h.payloads
  dispatched := h.dispatched.quiet fun f hf => mem_singleton.mp hf ▸ hquiet
  active := by
    intro id left hleft attempt hmem
    obtain ⟨line, hline, hsub⟩ := hclaims id left hleft
    exact h.active id line hline attempt (hsub attempt hmem)
  closed := by
    rw [filterMap_append]
    intro claim hmem
    rcases mem_append.mp hmem with hold | hnew
    · exact hgrow (h.closed claim hold)
    · obtain ⟨f, hf, hclaim⟩ := mem_filterMap.mp hnew
      rw [mem_singleton.mp hf] at hclaim
      exact (hfact claim hclaim).1
  once := by
    rw [filterMap_append]
    cases hdisposal : fact.disposal? with
    | none =>
      rw [filterMap_cons_none hdisposal, filterMap_nil, append_nil]
      exact h.once
    | some claim =>
      -- A claim that was disposed of before would have its key among the remembered ones.
      rw [filterMap_cons_some hdisposal, filterMap_nil, nodup_append_comm,
        singleton_append, nodup_cons]
      exact ⟨fun hmem => (hfact claim hdisposal).2 (h.closed claim hmem), h.once⟩

/-- One status: what it disposes of is a live claim. -/
theorem Tracks.status (h : Tracks opts seen facts s) (status : CqrsStatus) :
    Tracks opts seen (facts ++ (reduceStatus opts s status).2) (reduceStatus opts s status).1 ∧
      (∀ fact ∈ (reduceStatus opts s status).2, ∀ claim, fact.disposal? = some claim →
        ∃ attempt, (attempt.workId, attempt.lease) = claim ∧ Live opts seen attempt) ∧
      (reduceStatus opts s status).2.length ≤ 1 := by
  rw [reduceStatus]
  cases status.commandId with
  | none =>
    refine ⟨?_, fun _ h => absurd h not_mem_nil, Nat.zero_le 1⟩
    rw [append_nil]
    exact h
  | some commandId =>
    dsimp only
    cases hshift : shiftActiveClaim s.activeClaims commandId with
    | none =>
      dsimp only
      refine ⟨?_, ?_, le_refl 1⟩
      · exact h.answer (fun _ left hleft => ⟨left, hleft, fun _ ha => ha⟩) ⟨rfl, rfl⟩
          (Finset.Subset.refl _) fun _ h => absurd h (Option.some_ne_none _).symm
      · intro fact hfact claim hclaim
        rw [mem_singleton.mp hfact] at hclaim
        cases hclaim
    | some shifted =>
      obtain ⟨attempt, claims⟩ := shifted
      obtain ⟨⟨line, hline, hmem⟩, hclaims⟩ := shiftActiveClaim_spec hshift
      dsimp only
      split_ifs with hknown
      · refine ⟨?_, ?_, le_refl 1⟩
        · exact h.answer hclaims ⟨rfl, rfl⟩ (Finset.Subset.refl _)
            fun _ h => absurd h (Option.some_ne_none _).symm
        · intro fact hfact claim hclaim
          rw [mem_singleton.mp hfact] at hclaim
          cases hclaim
      · refine ⟨?_, ?_, le_refl 1⟩
        · refine h.answer hclaims ⟨rfl, rfl⟩ (Finset.subset_insert _ _) ?_
          intro claim hclaim
          rw [disposal_disposition] at hclaim
          rw [← Option.some.inj hclaim]
          exact ⟨Finset.mem_insert_self _ _, hknown⟩
        · intro fact hfact claim hclaim
          rw [mem_singleton.mp hfact, disposal_disposition] at hclaim
          exact ⟨attempt, Option.some.inj hclaim, h.active commandId line hline attempt hmem⟩

theorem Tracks.statuses {earlier now : List (CqrsQueueFact C)}
    (h : Tracks opts seen (earlier ++ now) s) (hjust : Justified opts seen earlier now)
    (statuses : List CqrsStatus) :
    Tracks opts seen (earlier ++ (now ++ (reduceAll (reduceStatus opts) s statuses).2))
        (reduceAll (reduceStatus opts) s statuses).1 ∧
      Justified opts seen earlier (now ++ (reduceAll (reduceStatus opts) s statuses).2) := by
  induction statuses generalizing now s with
  | nil =>
    rw [reduceAll, append_nil]
    exact ⟨h, hjust⟩
  | cons status statuses ih =>
    obtain ⟨hnext, hlive, hlength⟩ := h.status status
    rw [append_assoc] at hnext
    have hjust' : Justified opts seen earlier (now ++ (reduceStatus opts s status).2) := by
      cases hfacts : (reduceStatus opts s status).2 with
      | nil =>
        rw [append_nil]
        exact hjust
      | cons fact rest =>
        rw [hfacts] at hlive hlength
        obtain rfl : rest = [] := eq_nil_of_length_eq_zero (by simpa using hlength)
        refine forall_split_concat.mpr ⟨hjust, fun claim hclaim => ?_⟩
        obtain ⟨attempt, hattempt, hopen⟩ := hlive fact mem_cons_self claim hclaim
        refine ⟨attempt, ?_, hattempt, hopen⟩
        rw [h.dispatched.attempts]
        exact hopen.due
    rw [reduceAll, ← append_assoc now]
    exact ih hnext hjust'

theorem disposal_record (record : QueueRecord C) :
    ∀ fact ∈ (reduceRecord opts s record).2, fact.disposal? = none := by
  rw [reduceRecord]
  cases record.body with
  | workAdmitted payload _ _ _ _ _ _ _ =>
    dsimp only
    split_ifs <;> simp [CqrsQueueFact.disposal?]
  | workClaimed _ lease _ _ =>
    dsimp only
    split_ifs
    · simp
    · cases s.payloads.lookup record.workId <;>
        simp [CqrsQueueFact.disposal?, releaseNoPayload]
  | _ => simp

theorem disposal_records (records : List (QueueRecord C)) :
    ∀ fact ∈ (reduceAll (reduceRecord opts) s records).2, fact.disposal? = none := by
  induction records generalizing s with
  | nil => exact fun _ h => absurd h not_mem_nil
  | cons record records ih =>
    intro fact hfact
    rcases mem_append.mp hfact with hfact | hfact
    · exact disposal_record record fact hfact
    · exact ih fact hfact

/-- One run of the node, with the records, the errors and the statuses it takes. -/
theorem Tracks.run {earlier : List (CqrsQueueFact C)} (h : Tracks opts seen earlier s)
    (batch : Arrivals C) :
    Tracks opts (seen ++ batch.records) (earlier ++ (runNode opts s batch).2)
        (runNode opts s batch).1 ∧
      Justified opts (seen ++ batch.records) earlier (runNode opts s batch).2 := by
  have hrecords := h.records batch.records
  have hjust : Justified opts (seen ++ batch.records) earlier
      (reduceAll (reduceRecord opts) s batch.records).2 := by
    intro before fact later heq claim hclaim
    have hmem : fact ∈ (reduceAll (reduceRecord opts) s batch.records).2 := by
      rw [heq]
      exact mem_append_right _ mem_cons_self
    rw [disposal_records batch.records fact hmem] at hclaim
    cases hclaim
  rw [runNode]
  refine Tracks.statuses ?_ hjust batch.statuses
  split_ifs
  · exact hrecords.errors batch.errors
  · exact hrecords

end Steps

/-! ### Waves -/

def recordsOf (waves : List (Arrivals C)) : List (QueueRecord C) := waves.flatMap (·.records)

/-- Every stream of the node has delivered something. -/
structure Opened (opts : CqrsWorkQueueRecipeOptions) (waves : List (Arrivals C)) : Prop where
  records : ∃ w ∈ waves, w.records ≠ []
  statuses : ∃ w ∈ waves, w.statuses ≠ []
  errors : opts.errors = true → ∃ w ∈ waves, w.errors ≠ []

/-- The node and its facts after some waves. Before the streams are opened everything waits. -/
structure Follows (opts : CqrsWorkQueueRecipeOptions) (waves : List (Arrivals C))
    (n : RuntimeNode C) (facts : List (CqrsQueueFact C)) : Prop where
  hasRecords : n.hasRecords = true ↔ ∃ w ∈ waves, w.records ≠ []
  hasStatuses : n.hasStatuses = true ↔ ∃ w ∈ waves, w.statuses ≠ []
  hasErrors : n.hasErrors = true ↔ ∃ w ∈ waves, w.errors ≠ []
  called : n.calledOnce = true ↔ Opened opts waves
  running : Opened opts waves → Tracks opts (recordsOf waves) facts n.state ∧ n.waiting.records = []
  quiet : ¬ Opened opts waves → n.state = .default ∧ facts = [] ∧
    n.waiting.records = recordsOf waves

section Waves

variable {opts : CqrsWorkQueueRecipeOptions} {waves : List (Arrivals C)} {n : RuntimeNode C}
  {facts : List (CqrsQueueFact C)}

theorem recordsOf_concat (w : Arrivals C) :
    recordsOf (waves ++ [w]) = recordsOf waves ++ w.records := by
  rw [recordsOf, flatMap_append, flatMap_singleton]
  rfl

theorem Follows.start (opts : CqrsWorkQueueRecipeOptions) :
    Follows opts ([] : List (Arrivals C)) .new [] := by
  have hclosed : ¬ Opened opts ([] : List (Arrivals C)) := by
    rintro ⟨⟨w, hw, -⟩, -⟩
    exact absurd hw not_mem_nil
  constructor
  · simp [RuntimeNode.new]
  · simp [RuntimeNode.new]
  · simp [RuntimeNode.new]
  · exact ⟨fun h => absurd h Bool.false_ne_true, fun h => absurd h hclosed⟩
  · exact fun h => absurd h hclosed
  · exact fun _ => ⟨rfl, rfl, rfl⟩

theorem settled_concat {flag : Bool} {α : Type} (items : Arrivals C → List α)
    (h : flag = true ↔ ∃ w ∈ waves, items w ≠ []) (w : Arrivals C) :
    (flag || !(items w).isEmpty) = true ↔ ∃ w' ∈ waves ++ [w], items w' ≠ [] := by
  simp only [Bool.or_eq_true, h, Bool.not_eq_true', isEmpty_eq_false_iff, mem_append,
    mem_singleton, or_and_right, exists_or, exists_eq_left]

theorem Opened.concat (h : Opened opts waves) (w : Arrivals C) : Opened opts (waves ++ [w]) where
  records := h.records.imp fun _ hw => ⟨mem_append_left _ hw.1, hw.2⟩
  statuses := h.statuses.imp fun _ hw => ⟨mem_append_left _ hw.1, hw.2⟩
  errors := fun herrors => (h.errors herrors).imp fun _ hw => ⟨mem_append_left _ hw.1, hw.2⟩

theorem Follows.gate (h : Follows opts waves n facts) (w : Arrivals C) :
    ((n.receive w).calledOnce || (n.receive w).allDepsSettled opts) = true ↔
      Opened opts (waves ++ [w]) := by
  have hrecords := settled_concat Arrivals.records h.hasRecords w
  have hstatuses := settled_concat Arrivals.statuses h.hasStatuses w
  have herrors := settled_concat Arrivals.errors h.hasErrors w
  have hsettled : (n.receive w).allDepsSettled opts = true ↔ Opened opts (waves ++ [w]) := by
    rw [RuntimeNode.allDepsSettled, Bool.and_eq_true, Bool.and_eq_true, Bool.or_eq_true,
      Bool.not_eq_true', RuntimeNode.receive]
    dsimp only
    rw [hrecords, hstatuses, herrors]
    constructor
    · rintro ⟨⟨hr, hs⟩, he⟩
      exact ⟨hr, hs, fun hopts => he.resolve_left (by simp [hopts])⟩
    · intro ho
      refine ⟨⟨ho.records, ho.statuses⟩, ?_⟩
      by_cases hopts : opts.errors = true
      · exact Or.inr (ho.errors hopts)
      · exact Or.inl (Bool.eq_false_iff.mpr hopts)
  rw [Bool.or_eq_true, hsettled]
  refine or_iff_right_of_imp fun hcalled => ?_
  exact (h.called.mp hcalled).concat w

theorem Follows.wave (h : Follows opts waves n facts) (w : Arrivals C) :
    Follows opts (waves ++ [w]) (n.wave opts w).1 (facts ++ (n.wave opts w).2) ∧
      Justified opts (recordsOf (waves ++ [w])) facts (n.wave opts w).2 := by
  have hgate := h.gate w
  have hrecords := settled_concat Arrivals.records h.hasRecords w
  have hstatuses := settled_concat Arrivals.statuses h.hasStatuses w
  have herrors := settled_concat Arrivals.errors h.hasErrors w
  rw [RuntimeNode.wave]
  split_ifs with hrun
  · have hopen := hgate.mp hrun
    -- What the node has taken before, and what waits for it, are the records so far.
    have htracked : ∃ seen, Tracks opts seen facts n.state ∧
        seen ++ (n.receive w).waiting.records = recordsOf (waves ++ [w]) := by
      rw [recordsOf_concat]
      by_cases hbefore : Opened opts waves
      · obtain ⟨htracks, hwaiting⟩ := h.running hbefore
        refine ⟨recordsOf waves, htracks, ?_⟩
        rw [RuntimeNode.receive, hwaiting, nil_append]
      · obtain ⟨hstate, rfl, hwaiting⟩ := h.quiet hbefore
        refine ⟨[], hstate ▸ Tracks.start opts, ?_⟩
        rw [RuntimeNode.receive, hwaiting, nil_append]
    obtain ⟨seen, htracks, hseen⟩ := htracked
    have hran := htracks.run (n.receive w).waiting
    rw [hseen] at hran
    refine ⟨⟨hrecords, hstatuses, herrors, ?_, fun _ => ⟨hran.1, rfl⟩, ?_⟩, hran.2⟩
    · exact ⟨fun _ => hopen, fun _ => rfl⟩
    · exact fun hclosed => absurd hopen hclosed
  · have hclosed : ¬ Opened opts (waves ++ [w]) := fun hopen => hrun (hgate.mpr hopen)
    have hbefore : ¬ Opened opts waves := fun hopen => hclosed (hopen.concat w)
    obtain ⟨hstate, rfl, hwaiting⟩ := h.quiet hbefore
    refine ⟨⟨hrecords, hstatuses, herrors, ?_, ?_, ?_⟩, ?_⟩
    · exact ⟨fun hcalled => absurd (h.called.mp hcalled) hbefore, fun hopen => absurd hopen hclosed⟩
    · exact fun hopen => absurd hopen hclosed
    · refine fun _ => ⟨hstate, rfl, ?_⟩
      rw [recordsOf_concat, RuntimeNode.receive, hwaiting]
    · exact forall_split_nil

section

variable (opts : CqrsWorkQueueRecipeOptions) (waves : List (Arrivals C))

theorem afterWaves_concat (w : Arrivals C) : afterWaves opts (waves ++ [w]) =
      (((afterWaves opts waves).1.wave opts w).1,
        (afterWaves opts waves).2 ++ ((afterWaves opts waves).1.wave opts w).2) := by
  rw [afterWaves, foldl_append]
  rfl

/-- The node after some waves. -/
theorem follows_after :
    Follows opts waves (afterWaves opts waves).1 (afterWaves opts waves).2 := by
  induction waves using List.reverseRecOn with
  | nil => exact Follows.start opts
  | append_singleton waves w ih =>
    rw [afterWaves_concat]
    exact (ih.wave w).1

/-- What a wave emits answers the records so far exactly if every stream has delivered something,
    or no claim is there to be dispatched. -/
theorem answers_wave (w : Arrivals C) :
    Answers opts (recordsOf (waves ++ [w])) (afterWaves opts waves).2
        ((afterWaves opts waves).1.wave opts w).2 ↔
      Opened opts (waves ++ [w]) ∨ due opts (recordsOf (waves ++ [w])) = [] := by
  obtain ⟨hfollows, hjust⟩ := (follows_after opts waves).wave w
  constructor
  · intro h
    refine or_iff_not_imp_left.mpr fun hclosed => ?_
    rw [← h.dispatched.attempts, (hfollows.quiet hclosed).2.1]
    rfl
  · intro h
    by_cases hopen : Opened opts (waves ++ [w])
    · have htracks := (hfollows.running hopen).1
      exact ⟨htracks.dispatched, hjust, htracks.once⟩
    · have hnone := h.resolve_left hopen
      have hfacts := (hfollows.quiet hopen).2.1
      refine ⟨?_, hjust, hfacts ▸ nodup_nil⟩
      rw [hfacts]
      exact ⟨hnone.symm, hnone.symm ▸ rfl⟩

end

end Waves

/-- Every claim is dispatched in its wave and disposed of at most once, while it is open, exactly
    if no claim is there before every stream of the node has delivered something. -/
theorem answers_iff (opts : CqrsWorkQueueRecipeOptions) (waves : List (Arrivals C)) :
    (∀ before w later, waves = before ++ w :: later →
        Answers opts (recordsOf (before ++ [w])) (afterWaves opts before).2
          ((afterWaves opts before).1.wave opts w).2) ↔
      ∀ before w later, waves = before ++ w :: later →
        Opened opts (before ++ [w]) ∨ due opts (recordsOf (before ++ [w])) = [] := by
  constructor
  · intro h before w later heq
    exact (answers_wave opts before w).mp (h before w later heq)
  · intro h before w later heq
    exact (answers_wave opts before w).mpr (h before w later heq)

/-! ### The first claim -/

/-- A work with one command is admitted, and a worker claims it. -/
def firstClaim : List (Arrivals Unit) :=
  let payload := CqrsQueuedCommandPayload.new
    { id := "cmd-1"
      commandType := "PlaceOrder"
      payload := ()
      aggregateId := none
      correlationId := none
      causationId := none }
  [{ records :=
        [{ recordSeq := 1
           queueId := "q"
           workId := "work-1"
           body := .workAdmitted payload ⟨"work", 1, "q-admit"⟩ none [] [] none none 10 }]
     errors := []
     statuses := [] },
    { records :=
        [{ recordSeq := 2
           queueId := "q"
           workId := "work-1"
           body := .workClaimed "claim-1" ⟨"lease-1", 1, "worker-a"⟩ 11 20 }]
      errors := []
      statuses := [] }]

/-- The first command is never dispatched: it would be the first to make a status. -/
theorem first_claim_waits : let opts : CqrsWorkQueueRecipeOptions := ⟨false, none, .default⟩
    (afterWaves opts firstClaim).2.length = 0 ∧
      ¬ ∀ before w later, firstClaim = before ++ w :: later →
        Answers opts (recordsOf (before ++ [w])) (afterWaves opts before).2
          ((afterWaves opts before).1.wave opts w).2 := by
  refine ⟨rfl, fun h => ?_⟩
  have hwave := h (firstClaim.take 1) _ [] rfl
  have hattempts := congrArg List.length hwave.dispatched.attempts
  exact absurd hattempts (by decide +kernel)

end GraphRefly.Cqrs.Queue
