import GraphRefly.Lib.Earlier
import GraphRefly.Readiness.Placement

/-!
# Announced Once

What becomes of a schedule is announced under a key, and a key that was used is never
used again. Three of the four kinds of facts have a key made of a schedule's id; the
fourth, the statuses, use texts that are keys of no other kind. So a schedule is
announced at most once as pending, once as ready and once as overdue, and what is
announced in a wave holds at that wave's reading.

## Main definitions

* `ScheduledReadinessFact.key`: The key a fact is announced under.
* `Announced`: The keys are those of the facts, and the maps agree with them.
* `Timely`: What a fact says holds.

## Theorems

* `announced_after`: The first after any run.
* `timely_wave`: The second for every fact a wave adds.
* `readiness_of_received`: What a run of waves comes to.
-/

namespace GraphRefly.Readiness

open List Json Lib
open Messaging (DataIssue)

variable {F : Type} [Float64 F]

/-! ### Keys -/

/-- The key a fact is announced under. -/
def ScheduledReadinessFact.key (debug : DebugTexts F) : ScheduledReadinessFact F → Option String
  | .pending value => some (pendingKey value.scheduleId)
  | .ready value => some (readyKey value.scheduleId)
  | .overdue value => some (overdueKey value.scheduleId)
  | .status value => some (statusKey debug value)
  | .issue _ => none
  | .audit _ => none
  | .views _ => none

theorem pendingKey_inj {a b : String} (h : pendingKey a = pendingKey b) : a = b :=
  String.append_right_inj _ |>.mp h

theorem readyKey_inj {a b : String} (h : readyKey a = readyKey b) : a = b :=
  String.append_right_inj _ |>.mp h

theorem overdueKey_inj {a b : String} (h : overdueKey a = overdueKey b) : a = b :=
  String.append_right_inj _ |>.mp h

/-- The first character of a key tells its kind. -/
theorem head_keys (id : String) : (pendingKey id).toList.head? = some 'p' ∧
    (readyKey id).toList.head? = some 'r' ∧ (overdueKey id).toList.head? = some 'o' := by
  simp [pendingKey, readyKey, overdueKey, String.toList_append]

theorem head_statusKey (debug : DebugTexts F) (status : ScheduledReadinessStatus F) :
    (statusKey debug status).toList.head? = some 's' := by
  simp [statusKey, compoundTupleKey, String.toList_append]

theorem ne_of_head {a b : String} {c d : Char} (ha : a.toList.head? = some c)
    (hb : b.toList.head? = some d) (hcd : c ≠ d) : a ≠ b := by
  intro heq
  rw [heq, hb] at ha
  exact hcd (Option.some.inj ha).symm

/-- Keys of different kinds are different. -/
theorem keys_ne (id other : String) : pendingKey id ≠ readyKey other ∧
    pendingKey id ≠ overdueKey other ∧ readyKey id ≠ overdueKey other :=
  ⟨ne_of_head (head_keys id).1 (head_keys other).2.1 (by decide),
    ne_of_head (head_keys id).1 (head_keys other).2.2 (by decide),
    ne_of_head (head_keys id).2.1 (head_keys other).2.2 (by decide)⟩

/-- A status's key is no key made of an id. -/
theorem keys_ne_statusKey (debug : DebugTexts F) (id : String)
    (status : ScheduledReadinessStatus F) : pendingKey id ≠ statusKey debug status ∧
      readyKey id ≠ statusKey debug status ∧ overdueKey id ≠ statusKey debug status :=
  ⟨ne_of_head (head_keys id).1 (head_statusKey debug status) (by decide),
    ne_of_head (head_keys id).2.1 (head_statusKey debug status) (by decide),
    ne_of_head (head_keys id).2.2 (head_statusKey debug status) (by decide)⟩

/-! ### The facts and their keys -/

/-- The keys are those of the facts, none is used twice, and a schedule that is overdue
    was ready before. -/
structure Keyed (debug : DebugTexts F) (facts : List (ScheduledReadinessFact F))
    (emitted : List String) : Prop where
  keys : facts.filterMap (·.key debug) = emitted
  nodup : emitted.Nodup
  order : ∀ before fact later, facts = before ++ fact :: later →
    ∀ value, fact = .overdue value → readyKey value.scheduleId ∈ before.filterMap (·.key debug)

variable {debug : DebugTexts F} {facts : List (ScheduledReadinessFact F)} {emitted : List String}
  {fact : ScheduledReadinessFact F}

theorem Keyed.quiet (h : Keyed debug facts emitted)
    (hquiet : fact.key debug = none) : Keyed debug (facts ++ [fact]) emitted where
  keys := by
    rw [filterMap_append, filterMap_cons_none hquiet, h.keys]
    exact append_nil emitted
  nodup := h.nodup
  order := by
    rw [forall_split_concat]
    refine ⟨h.order, ?_⟩
    intro value heq
    rw [heq] at hquiet
    exact absurd hquiet (Option.some_ne_none _)

theorem Keyed.announce (h : Keyed debug facts emitted)
    {key : String} (hkey : fact.key debug = some key) (hnew : key ∉ emitted)
    (hready : ∀ value, fact = .overdue value → readyKey value.scheduleId ∈ emitted) :
    Keyed debug (facts ++ [fact]) (emitted ++ [key]) where
  keys := by
    rw [filterMap_append, filterMap_cons_some hkey, h.keys]
    rfl
  nodup := by
    rw [nodup_append_comm]
    exact nodup_cons.mpr ⟨hnew, h.nodup⟩
  order := by
    rw [forall_split_concat]
    refine ⟨h.order, ?_⟩
    intro value heq
    rw [h.keys]
    exact hready value heq

/-! ### The keys and the maps -/

/-- The keys are those of the facts, and the maps agree with them. A schedule that has
    become ready is pending no more, and its first key stays. -/
structure Announced (debug : DebugTexts F) (rt : Runtime F) : Prop where
  keyed : Keyed debug rt.facts rt.state.emittedKeys
  pending : ∀ id, rt.state.standing.Pending id → pendingKey id ∈ rt.state.emittedKeys
  ready : ∀ id, rt.state.standing.Ready id ↔ readyKey id ∈ rt.state.emittedKeys
  overdue : ∀ id, rt.state.standing.Overdue id ↔ overdueKey id ∈ rt.state.emittedKeys

omit [Float64 F] in
variable {emit : Runtime F → Runtime F}

theorem mem_emitOnce (rt : Runtime F) (key : String)
    (hkeys : ∀ r, (emit r).state.emittedKeys = r.state.emittedKeys) (k : String) :
    k ∈ (emitOnce rt key emit).state.emittedKeys ↔ k = key ∨ k ∈ rt.state.emittedKeys := by
  unfold emitOnce
  split_ifs with h
  · exact (or_iff_right_of_imp fun heq => heq ▸ h).symm
  · rw [hkeys, Runtime.mark, mem_append, mem_singleton]
    exact or_comm

variable {rt : Runtime F}

theorem Keyed.emitOnce (h : Keyed debug rt.facts rt.state.emittedKeys) {key : String}
    (hkeys : ∀ r, (emit r).state.emittedKeys = r.state.emittedKeys)
    (hemit : key ∉ rt.state.emittedKeys →
      Keyed debug (emit (rt.mark key)).facts (rt.state.emittedKeys ++ [key])) :
    Keyed debug (emitOnce rt key emit).facts (emitOnce rt key emit).state.emittedKeys := by
  unfold Readiness.emitOnce
  split_ifs with hseen
  · exact h
  · rw [hkeys]
    exact hemit hseen

variable {rt' : Runtime F}

/-- One key more, and the map it stands for. -/
theorem Announced.step (h : Announced debug rt)
    (hkeyed : Keyed debug rt'.facts rt'.state.emittedKeys) {key : String}
    (hmem : ∀ k, k ∈ rt'.state.emittedKeys ↔ k = key ∨ k ∈ rt.state.emittedKeys)
    (hpending : ∀ id, rt'.state.standing.Pending id →
      pendingKey id = key ∨ rt.state.standing.Pending id)
    (hready : ∀ id, rt'.state.standing.Ready id ↔ readyKey id = key ∨ rt.state.standing.Ready id)
    (hoverdue : ∀ id, rt'.state.standing.Overdue id ↔
      overdueKey id = key ∨ rt.state.standing.Overdue id) : Announced debug rt' where
  keyed := hkeyed
  pending id hp := (hmem _).mpr ((hpending id hp).imp_right (h.pending id))
  ready id := by rw [hready, hmem, h.ready]
  overdue id := by rw [hoverdue, hmem, h.overdue]

theorem Announced.emitStatus (h : Announced debug rt)
    (status : ScheduledReadinessStatus F) : Announced debug (emitStatus debug rt status) := by
  have hput : Keyed debug (rt.putStatus status).facts (rt.putStatus status).state.emittedKeys :=
    h.keyed
  have hstanding := emitStatus_standing debug rt status
  refine h.step ?_ (mem_emitOnce (rt.putStatus status) (statusKey debug status) fun _ => rfl)
    ?_ ?_ ?_
  · refine hput.emitOnce (fun _ => rfl) fun hnew => ?_
    exact hput.announce rfl hnew fun value heq => by cases heq
  · intro id hp
    rw [hstanding] at hp
    exact Or.inr hp
  · intro id
    rw [hstanding]
    exact (or_iff_right (keys_ne_statusKey debug id status).2.1).symm
  · intro id
    rw [hstanding]
    exact (or_iff_right (keys_ne_statusKey debug id status).2.2).symm

theorem Announced.emitIssue (h : Announced debug rt)
    (issue : DataIssue) : Announced debug (emitIssue rt issue) := by
  unfold Readiness.emitIssue
  split_ifs
  · exact h
  · exact ⟨h.keyed.quiet rfl, h.pending, h.ready, h.overdue⟩

theorem Announced.emitPending (h : Announced debug rt)
    (pending : ScheduledReadinessPending F) : Announced debug (emitPending rt pending) := by
  have hput : Keyed debug (rt.putPending pending).facts
      (rt.putPending pending).state.emittedKeys := h.keyed
  have hstanding := emitPending_standing rt pending
  refine h.step ?_
    (mem_emitOnce (rt.putPending pending) (pendingKey pending.scheduleId) fun _ => rfl) ?_ ?_ ?_
  · refine hput.emitOnce (fun _ => rfl) fun hnew => ?_
    exact hput.announce rfl hnew fun value heq => by cases heq
  · intro id hp
    rw [hstanding] at hp
    exact ((isSome_lookup_insert _ _ _ _).mp hp).imp_left (congrArg pendingKey)
  · intro id
    rw [hstanding]
    exact (or_iff_right (keys_ne pending.scheduleId id).1.symm).symm
  · intro id
    rw [hstanding]
    exact (or_iff_right (keys_ne pending.scheduleId id).2.1.symm).symm

theorem Announced.emitReady (h : Announced debug rt)
    (ready : ScheduledReadinessReady F) : Announced debug (emitReady rt ready) := by
  have hput : Keyed debug (rt.putReady ready).facts (rt.putReady ready).state.emittedKeys :=
    h.keyed
  have hstanding := emitReady_standing rt ready
  refine h.step ?_
    (mem_emitOnce (rt.putReady ready) (readyKey ready.scheduleId) fun _ => rfl) ?_ ?_ ?_
  · refine hput.emitOnce (fun _ => rfl) fun hnew => ?_
    -- The audit record comes first and has no key.
    exact (hput.quiet rfl).announce rfl hnew fun value heq => by cases heq
  · intro id hp
    rw [hstanding] at hp
    exact Or.inr ((isSome_lookup_erase _ _ _).mp hp).2
  · intro id
    rw [hstanding]
    exact (isSome_lookup_insert _ _ _ _).trans
      (or_congr_left ⟨congrArg readyKey, readyKey_inj⟩)
  · intro id
    rw [hstanding]
    exact (or_iff_right (keys_ne ready.scheduleId id).2.2.symm).symm

theorem Announced.emitOverdue (h : Announced debug rt)
    (overdue : ScheduledReadinessOverdue F) (hready : rt.state.standing.Ready overdue.scheduleId) :
    Announced debug (emitOverdue rt overdue) := by
  have hput : Keyed debug (rt.putOverdue overdue).facts
      (rt.putOverdue overdue).state.emittedKeys := h.keyed
  have hstanding := emitOverdue_standing rt overdue
  refine h.step ?_
    (mem_emitOnce (rt.putOverdue overdue) (overdueKey overdue.scheduleId) fun _ => rfl) ?_ ?_ ?_
  · refine hput.emitOnce (fun _ => rfl) fun hnew => ?_
    refine (hput.quiet rfl).announce rfl hnew fun value heq => ?_
    rw [← ScheduledReadinessFact.overdue.inj heq]
    exact (h.ready overdue.scheduleId).mp hready
  · intro id hp
    rw [hstanding] at hp
    exact Or.inr hp
  · intro id
    rw [hstanding]
    exact (or_iff_right (keys_ne id overdue.scheduleId).2.2).symm
  · intro id
    rw [hstanding]
    exact (isSome_lookup_insert _ _ _ _).trans
      (or_congr_left ⟨congrArg overdueKey, overdueKey_inj⟩)

theorem Announced.evaluatePending (h : Announced debug rt)
    (s : ScheduledReadinessRequested F) : Announced debug (evaluatePending debug rt s) :=
  (h.emitPending _).emitStatus _

theorem Announced.evaluateReady (h : Announced debug rt)
    (s : ScheduledReadinessRequested F) (nowMs : Nat) :
    Announced debug (evaluateReady debug rt s nowMs) :=
  (h.emitReady _).emitStatus _

theorem Announced.evaluateOverdue (h : Announced debug rt)
    (s : ScheduledReadinessRequested F) (deadlineMs nowMs : Nat)
    (hready : rt.state.standing.Ready s.scheduleId) :
    Announced debug (evaluateOverdue debug rt s deadlineMs nowMs) :=
  (h.emitOverdue _ hready).emitStatus _

theorem Announced.evaluateSchedule (h : Announced debug rt) (s : ScheduledReadinessRequested F) :
    Announced debug (evaluateSchedule debug rt s) := by
  unfold Readiness.evaluateSchedule
  cases rt.state.nowMs with
  | none => exact h.evaluatePending s
  | some nowMs =>
    by_cases hdue : nowMs < s.readyAtMs
    · simp only [if_pos hdue]
      exact h.evaluatePending s
    · simp only [if_neg hdue]
      have hready := h.evaluateReady s nowMs
      cases s.deadlineMs with
      | none => exact hready
      | some deadline =>
        by_cases hlate : deadline < nowMs
        · simp only [if_pos hlate]
          refine hready.evaluateOverdue s deadline nowMs ?_
          rw [(evaluateReady_touches debug rt s nowMs).2, (release_iff _ _ _ _ _).2.1]
          exact Or.inl rfl
        · simp only [if_neg hlate]
          exact hready

theorem Announced.retainSchedule (h : Announced debug rt) (s : ScheduledReadinessRequested F) :
    Announced debug (retainSchedule debug rt s) := by
  unfold Readiness.retainSchedule retainCanonical
  cases rt.state.schedules.lookup (sanitizeSchedule s).scheduleId with
  | none => exact ⟨h.keyed, h.pending, h.ready, h.overdue⟩
  | some existing =>
    by_cases hsame : scheduleIdentity debug.schedule existing
        = scheduleIdentity debug.schedule (sanitizeSchedule s)
    · simp only [if_pos hsame]
      exact h
    · simp only [if_neg hsame]
      exact (h.emitIssue _).emitStatus _

theorem Announced.retainClock (h : Announced debug rt)
    (clock : ScheduledReadinessClock F) : Announced debug (retainClock rt clock) := by
  unfold Readiness.retainClock
  cases rt.state.nowMs with
  | none => exact ⟨h.keyed, h.pending, h.ready, h.overdue⟩
  | some previous =>
    by_cases hback : clock.nowMs < previous
    · simp only [if_pos hback]
      exact h.emitIssue _
    · simp only [if_neg hback]
      exact ⟨h.keyed, h.pending, h.ready, h.overdue⟩

/-- What every step of a loop keeps, the loop keeps. -/
theorem Announced.foldl {α : Type} {f : Runtime F → α → Runtime F}
    (hstep : ∀ rt a, Announced debug rt → Announced debug (f rt a)) (items : List α)
    (h : Announced debug rt) : Announced debug (items.foldl f rt) := by
  induction items generalizing rt with
  | nil => exact h
  | cons a items ih => exact ih (hstep rt a h)

theorem Announced.wave (h : Announced debug rt)
    (w : Wave F) : Announced debug (rt.wave debug w) := by
  have hkept := h.foldl (fun _ s hrt => hrt.retainSchedule s) w.schedules.flatten
  have hread : Announced debug (rt.retain debug w) :=
    hkept.foldl (fun _ c hrt => hrt.retainClock c) w.clocks.flatten
  have heval := hread.foldl (fun _ s hrt => hrt.evaluateSchedule s)
    (rt.retain debug w).state.schedules.values
  exact ⟨heval.keyed.quiet rfl, heval.pending, heval.ready, heval.overdue⟩

theorem announced_after (debug : DebugTexts F) (waves : List (Wave F)) :
    Announced debug (after debug waves) := by
  refine Announced.foldl (fun _ w h => h.wave w) waves ?_
  exact ⟨⟨rfl, nodup_nil, forall_split_nil⟩, fun _ h => absurd h Bool.false_ne_true,
    fun _ => iff_of_false Bool.false_ne_true not_mem_nil,
    fun _ => iff_of_false Bool.false_ne_true not_mem_nil⟩

/-! ### What a wave adds -/

/-- Facts added, each with a property. -/
def Extends (P : ScheduledReadinessFact F → Prop) (rt rt' : Runtime F) : Prop :=
  ∃ added, rt'.facts = rt.facts ++ added ∧ ∀ fact ∈ added, P fact

omit [Float64 F] in
theorem Extends.refl (P : ScheduledReadinessFact F → Prop) (rt : Runtime F) : Extends P rt rt :=
  ⟨[], (append_nil _).symm, by simp⟩

omit [Float64 F] in
theorem Extends.trans {P : ScheduledReadinessFact F → Prop} {a b c : Runtime F}
    (hab : Extends P a b) (hbc : Extends P b c) : Extends P a c := by
  obtain ⟨first, hfirst, hP⟩ := hab
  obtain ⟨second, hsecond, hQ⟩ := hbc
  refine ⟨first ++ second, ?_, ?_⟩
  · rw [hsecond, hfirst, append_assoc]
  · intro fact hmem
    exact (mem_append.mp hmem).elim (hP fact) (hQ fact)

omit [Float64 F] in
theorem Extends.emitFact {P : ScheduledReadinessFact F → Prop} (rt : Runtime F) (h : P fact) :
    Extends P rt (emitFact rt fact) :=
  ⟨[fact], rfl, by simpa using h⟩

omit [Float64 F] in
theorem Extends.emitOnce {P : ScheduledReadinessFact F → Prop} {key : String}
    (hsame : rt'.facts = rt.facts)
    (hemit : ∀ r, Extends P r (emit r)) : Extends P rt (emitOnce rt' key emit) := by
  have hput : Extends P rt rt' := ⟨[], by rw [hsame, append_nil], by simp⟩
  unfold Readiness.emitOnce
  split_ifs
  · exact hput
  · exact hput.trans (hemit (rt'.mark key))

/-- What a fact says holds of what is retained. -/
def Timely (x : Inputs F) : ScheduledReadinessFact F → Prop
  | .pending value => ∃ s, x.schedules.lookup value.scheduleId = some s ∧ ¬ Due x.nowMs s ∧
      value = pendingOf s x.nowMs x.clockSourceRefs
  | .ready value => ∃ s now, x.schedules.lookup value.scheduleId = some s ∧ x.nowMs = some now ∧
      s.readyAtMs ≤ now ∧ value = readyOf s now x.clockSourceRefs
  | .overdue value => ∃ s now deadline, x.schedules.lookup value.scheduleId = some s ∧
      x.nowMs = some now ∧ s.readyAtMs ≤ now ∧ s.deadlineMs = some deadline ∧ deadline < now ∧
      value = overdueOf s deadline now x.clockSourceRefs
  | .status _ => True
  | .issue _ => True
  | .audit _ => True
  | .views _ => True

theorem timely_emitStatus (debug : DebugTexts F) (x : Inputs F) (rt : Runtime F)
    (status : ScheduledReadinessStatus F) : Extends (Timely x) rt (emitStatus debug rt status) :=
  .emitOnce rfl fun r => .emitFact r trivial

theorem timely_emitIssue (x : Inputs F) (rt : Runtime F) (issue : DataIssue) :
    Extends (Timely x) rt (emitIssue rt issue) := by
  unfold emitIssue
  split_ifs
  · exact .refl _ rt
  · exact ⟨[.issue issue], rfl, by simp [Timely]⟩

variable {s : ScheduledReadinessRequested F}

section

variable (debug : DebugTexts F)

theorem timely_evaluatePending (rt : Runtime F)
    (hs : rt.state.inputs.schedules.lookup s.scheduleId = some s)
    (hdue : ¬ Due rt.state.inputs.nowMs s) :
    Extends (Timely rt.state.inputs) rt (evaluatePending debug rt s) := by
  have hfact : Timely rt.state.inputs
      (.pending (pendingOf s rt.state.nowMs rt.state.clockSourceRefs)) := ⟨s, hs, hdue, rfl⟩
  have hemit : Extends (Timely rt.state.inputs) rt
      (emitPending rt (pendingOf s rt.state.nowMs rt.state.clockSourceRefs)) :=
    .emitOnce rfl fun r => .emitFact r hfact
  exact hemit.trans (timely_emitStatus debug _ _ _)

theorem timely_evaluateReady (rt : Runtime F) {nowMs : Nat}
    (hs : rt.state.inputs.schedules.lookup s.scheduleId = some s)
    (hnow : rt.state.inputs.nowMs = some nowMs) (hdue : s.readyAtMs ≤ nowMs) :
    Extends (Timely rt.state.inputs) rt (evaluateReady debug rt s nowMs) := by
  have hfact : Timely rt.state.inputs (.ready (readyOf s nowMs rt.state.clockSourceRefs)) :=
    ⟨s, nowMs, hs, hnow, hdue, rfl⟩
  have hemit : Extends (Timely rt.state.inputs) rt
      (emitReady rt (readyOf s nowMs rt.state.clockSourceRefs)) :=
    .emitOnce rfl fun r => Extends.trans (b := emitAudit r _ _ _ _)
      ⟨[_], rfl, by simp [Timely]⟩ (.emitFact _ hfact)
  exact hemit.trans (timely_emitStatus debug _ _ _)

theorem timely_evaluateOverdue (rt : Runtime F) {nowMs deadline : Nat}
    (hs : rt.state.inputs.schedules.lookup s.scheduleId = some s)
    (hnow : rt.state.inputs.nowMs = some nowMs) (hdue : s.readyAtMs ≤ nowMs)
    (hdeadline : s.deadlineMs = some deadline) (hlate : deadline < nowMs) :
    Extends (Timely rt.state.inputs) rt (evaluateOverdue debug rt s deadline nowMs) := by
  have hfact : Timely rt.state.inputs
      (.overdue (overdueOf s deadline nowMs rt.state.clockSourceRefs)) :=
    ⟨s, nowMs, deadline, hs, hnow, hdue, hdeadline, hlate, rfl⟩
  have hemit : Extends (Timely rt.state.inputs) rt
      (emitOverdue rt (overdueOf s deadline nowMs rt.state.clockSourceRefs)) :=
    .emitOnce rfl fun r => Extends.trans (b := emitAudit r _ _ _ _)
      ⟨[_], rfl, by simp [Timely]⟩ (.emitFact _ hfact)
  exact hemit.trans (timely_emitStatus debug _ _ _)

theorem timely_evaluateSchedule (rt : Runtime F)
    (hs : rt.state.inputs.schedules.lookup s.scheduleId = some s) :
    Extends (Timely rt.state.inputs) rt (evaluateSchedule debug rt s) := by
  have hstate : rt.state.inputs.nowMs = rt.state.nowMs := rfl
  unfold evaluateSchedule
  cases hnow : rt.state.nowMs with
  | none =>
    refine timely_evaluatePending debug rt hs ?_
    rw [hstate, hnow]
    exact not_due_none s
  | some nowMs =>
    by_cases hdue : nowMs < s.readyAtMs
    · simp only [if_pos hdue]
      refine timely_evaluatePending debug rt hs ?_
      rw [hstate, hnow, due_some]
      omega
    · simp only [if_neg hdue]
      have hready := timely_evaluateReady debug rt hs (hstate.trans hnow) (Nat.not_lt.mp hdue)
      cases hdeadline : s.deadlineMs with
      | none => exact hready
      | some deadline =>
        by_cases hlate : deadline < nowMs
        · simp only [if_pos hlate]
          -- The first of the two leaves what is retained alone.
          have hinputs := (evaluateReady_touches debug rt s nowMs).1
          have hover := timely_evaluateOverdue debug (evaluateReady debug rt s nowMs)
            (hinputs ▸ hs) (hinputs ▸ hstate.trans hnow) (Nat.not_lt.mp hdue) hdeadline hlate
          rw [hinputs] at hover
          exact hready.trans hover
        · simp only [if_neg hlate]
          exact hready

theorem timely_evaluateAll (schedules : List (ScheduledReadinessRequested F)) (rt : Runtime F)
    (hs : ∀ s ∈ schedules, rt.state.inputs.schedules.lookup s.scheduleId = some s) :
    Extends (Timely rt.state.inputs) rt (schedules.foldl (evaluateSchedule debug) rt) := by
  induction schedules generalizing rt with
  | nil => exact .refl _ rt
  | cons s schedules ih =>
    have hinputs := (evaluateSchedule_touches debug rt s).1
    have htail := ih (evaluateSchedule debug rt s) fun other hother => by
      rw [hinputs]
      exact hs other (mem_cons_of_mem s hother)
    rw [hinputs] at htail
    exact (timely_evaluateSchedule debug rt (hs s mem_cons_self)).trans htail

theorem timely_retainSchedules (x : Inputs F)
    (schedules : List (ScheduledReadinessRequested F)) (rt : Runtime F) :
    Extends (Timely x) rt (schedules.foldl (retainSchedule debug) rt) := by
  induction schedules generalizing rt with
  | nil => exact .refl _ rt
  | cons s schedules ih =>
    refine Extends.trans ?_ (ih _)
    unfold retainSchedule retainCanonical
    cases rt.state.schedules.lookup (sanitizeSchedule s).scheduleId with
    | none => exact .refl _ rt
    | some existing =>
      by_cases hsame : scheduleIdentity debug.schedule existing
          = scheduleIdentity debug.schedule (sanitizeSchedule s)
      · simp only [if_pos hsame]
        exact .refl _ rt
      · simp only [if_neg hsame]
        exact (timely_emitIssue x rt _).trans (timely_emitStatus debug x _ _)

theorem timely_retainClocks (x : Inputs F) (clocks : List (ScheduledReadinessClock F))
    (rt : Runtime F) : Extends (Timely x) rt (clocks.foldl retainClock rt) := by
  induction clocks generalizing rt with
  | nil => exact .refl _ rt
  | cons clock clocks ih =>
    refine Extends.trans ?_ (ih _)
    unfold retainClock
    cases rt.state.nowMs with
    | none => exact .refl _ rt
    | some previous =>
      by_cases hback : clock.nowMs < previous
      · simp only [if_pos hback]
        exact timely_emitIssue x rt _
      · simp only [if_neg hback]
        exact .refl _ rt

theorem timely_retain (x : Inputs F) (rt : Runtime F) (w : Wave F) :
    Extends (Timely x) rt (rt.retain debug w) :=
  (timely_retainSchedules debug x _ rt).trans (timely_retainClocks x _ _)

omit [Float64 F] in
theorem Inputs.Keyed.lookup_values {x : Inputs F} (h : x.Keyed) :
    ∀ s ∈ x.schedules.values, x.schedules.lookup s.scheduleId = some s := by
  intro s hs
  refine (mem_map.mp hs).elim fun e he => ?_
  have hlook : x.schedules.lookup e.1 = some e.2 := SortedMap.lookup_eq_some_iff.mpr he.1
  rw [he.2] at hlook
  rw [h e.1 s hlook]
  exact hlook

/-- Every fact a wave adds says what holds after it. -/
theorem timely_wave (rt : Runtime F) (w : Wave F) (hkeyed : (rt.wave debug w).state.inputs.Keyed) :
    Extends (Timely (rt.wave debug w).state.inputs) rt (rt.wave debug w) := by
  have hinputs : (rt.retain debug w).state.inputs = (rt.wave debug w).state.inputs :=
    (retain_touches debug rt w).1.trans (wave_touches debug rt w).1.symm
  have hvalues : (rt.retain debug w).state.inputs.Keyed := hinputs ▸ hkeyed
  have heval := timely_evaluateAll debug (rt.retain debug w).state.schedules.values
    (rt.retain debug w) hvalues.lookup_values
  rw [hinputs] at heval
  exact ((timely_retain debug _ rt w).trans heval).trans (.emitFact _ trivial)

end

/-! ### What a run comes to -/

def ScheduledReadinessFact.isPending (id : String) : ScheduledReadinessFact F → Bool
  | .pending value => value.scheduleId = id
  | _ => false

def ScheduledReadinessFact.isReady (id : String) : ScheduledReadinessFact F → Bool
  | .ready value => value.scheduleId = id
  | _ => false

def ScheduledReadinessFact.isOverdue (id : String) : ScheduledReadinessFact F → Bool
  | .overdue value => value.scheduleId = id
  | _ => false

/-- The facts that one key stands for are as many as the key is used. -/
theorem countP_eq_count {α : Type} {p : α → Bool} {key : α → Option String} {k : String}
    (h : ∀ a, p a = true ↔ key a = some k) (items : List α) :
    items.countP p = (items.filterMap key).count k := by
  rw [countP_eq_length_filter, count_eq_length_filter]
  induction items with
  | nil => rfl
  | cons a items ih =>
    by_cases ha : key a = some k
    · rw [filter_cons_of_pos ((h a).mpr ha), filterMap_cons_some ha,
        filter_cons_of_pos (by simp), length_cons, length_cons, ih]
    · rw [filter_cons_of_neg (by rw [h a]; exact ha), ih]
      cases hkey : key a with
      | none => rw [filterMap_cons_none hkey]
      | some other =>
        have hne : other ≠ k := fun heq => ha (by rw [hkey, heq])
        rw [filterMap_cons_some hkey, filter_cons_of_neg (by simpa using hne)]

section

variable (debug : DebugTexts F) (id : String) (fact : ScheduledReadinessFact F)

theorem isPending_iff :
    fact.isPending id = true ↔ fact.key debug = some (pendingKey id) := by
  cases fact with
  | pending value =>
    simp only [ScheduledReadinessFact.isPending, ScheduledReadinessFact.key, decide_eq_true_eq,
      Option.some.injEq]
    exact ⟨congrArg pendingKey, pendingKey_inj⟩
  | ready value => simp [ScheduledReadinessFact.isPending, ScheduledReadinessFact.key,
      (keys_ne id value.scheduleId).1.symm]
  | overdue value => simp [ScheduledReadinessFact.isPending, ScheduledReadinessFact.key,
      (keys_ne id value.scheduleId).2.1.symm]
  | status value => simp [ScheduledReadinessFact.isPending, ScheduledReadinessFact.key,
      (keys_ne_statusKey debug id value).1.symm]
  | issue _ | audit _ | views _ =>
    simp [ScheduledReadinessFact.isPending, ScheduledReadinessFact.key]

theorem isReady_iff :
    fact.isReady id = true ↔ fact.key debug = some (readyKey id) := by
  cases fact with
  | ready value =>
    simp only [ScheduledReadinessFact.isReady, ScheduledReadinessFact.key, decide_eq_true_eq,
      Option.some.injEq]
    exact ⟨congrArg readyKey, readyKey_inj⟩
  | pending value => simp [ScheduledReadinessFact.isReady, ScheduledReadinessFact.key,
      (keys_ne value.scheduleId id).1]
  | overdue value => simp [ScheduledReadinessFact.isReady, ScheduledReadinessFact.key,
      (keys_ne id value.scheduleId).2.2.symm]
  | status value => simp [ScheduledReadinessFact.isReady, ScheduledReadinessFact.key,
      (keys_ne_statusKey debug id value).2.1.symm]
  | issue _ | audit _ | views _ => simp [ScheduledReadinessFact.isReady, ScheduledReadinessFact.key]

theorem isOverdue_iff :
    fact.isOverdue id = true ↔ fact.key debug = some (overdueKey id) := by
  cases fact with
  | overdue value =>
    simp only [ScheduledReadinessFact.isOverdue, ScheduledReadinessFact.key, decide_eq_true_eq,
      Option.some.injEq]
    exact ⟨congrArg overdueKey, overdueKey_inj⟩
  | pending value => simp [ScheduledReadinessFact.isOverdue, ScheduledReadinessFact.key,
      (keys_ne value.scheduleId id).2.1]
  | ready value => simp [ScheduledReadinessFact.isOverdue, ScheduledReadinessFact.key,
      (keys_ne value.scheduleId id).2.2]
  | status value => simp [ScheduledReadinessFact.isOverdue, ScheduledReadinessFact.key,
      (keys_ne_statusKey debug id value).2.2.symm]
  | issue _ | audit _ | views _ =>
    simp [ScheduledReadinessFact.isOverdue, ScheduledReadinessFact.key]

end

/-- No schedule is replayed with other times. -/
def Consistent (received : List (ScheduledReadinessRequested F)) : Prop :=
  ∀ s ∈ received, ∀ t ∈ received, s.scheduleId = t.scheduleId →
    s.readyAtMs = t.readyAtMs ∧ s.deadlineMs = t.deadlineMs

/-- The views are a function of what was received. -/
structure Reflects (received : List (ScheduledReadinessRequested F))
    (clocks : List (ScheduledReadinessClock F)) (v : ScheduledReadinessViews F) : Prop where
  now : v.nowMs = latest clocks
  /-- The first schedule received under an id is the one evaluated. -/
  schedules : ∀ id, v.schedulesById.lookup id = firstSchedule received id
  ready : ∀ id, (v.readyById.lookup id).isSome ↔
    ∃ s, firstSchedule received id = some s ∧ Due (latest clocks) s
  pending : ∀ id, (v.pendingById.lookup id).isSome ↔
    ∃ s, firstSchedule received id = some s ∧ ¬ Due (latest clocks) s
  overdue : ∀ id, (v.overdueById.lookup id).isSome ↔
    ∃ s, firstSchedule received id = some s ∧ Late (latest clocks) s
  /-- Without conflicting replays it does not matter which is the first. -/
  unordered : Consistent received → ∀ id,
    ((v.readyById.lookup id).isSome ↔
      ∃ s ∈ received, s.scheduleId = id ∧ Due (latest clocks) s) ∧
    ((v.pendingById.lookup id).isSome ↔
      ∃ s ∈ received, s.scheduleId = id ∧ ¬ Due (latest clocks) s) ∧
    ((v.overdueById.lookup id).isSome ↔
      ∃ s ∈ received, s.scheduleId = id ∧ Late (latest clocks) s)

/-- A schedule is announced once at most, and exactly once when it is ready or overdue. -/
structure FiresOnce (facts : List (ScheduledReadinessFact F)) (v : ScheduledReadinessViews F) :
    Prop where
  pending : ∀ id, facts.countP (·.isPending id) ≤ 1
  ready : ∀ id, facts.countP (·.isReady id) ≤ 1 ∧
    (0 < facts.countP (·.isReady id) ↔ (v.readyById.lookup id).isSome)
  overdue : ∀ id, facts.countP (·.isOverdue id) ≤ 1 ∧
    (0 < facts.countP (·.isOverdue id) ↔ (v.overdueById.lookup id).isSome)
  order : ∀ before value later, facts = before ++ .overdue value :: later →
    ∃ fact ∈ before, fact.isReady value.scheduleId

/-- Without conflicting replays the first schedule under an id speaks for all of them. -/
theorem Consistent.first_iff {received : List (ScheduledReadinessRequested F)}
    (h : Consistent received) {P : ScheduledReadinessRequested F → Prop}
    (hP : ∀ s t, s.readyAtMs = t.readyAtMs → s.deadlineMs = t.deadlineMs → (P s ↔ P t))
    (id : String) : (∃ s, firstSchedule received id = some s ∧ P s) ↔
      ∃ s ∈ received, s.scheduleId = id ∧ P s := by
  constructor
  · rintro ⟨s, hfirst, hs⟩
    refine (Option.map_eq_some_iff.mp hfirst).elim fun given hgiven => ?_
    have hid : given.scheduleId = id := by simpa using List.find?_some hgiven.1
    refine ⟨given, mem_of_find?_eq_some hgiven.1, hid, ?_⟩
    rw [← hgiven.2] at hs
    exact (hP (sanitizeSchedule given) given rfl rfl).mp hs
  · rintro ⟨s, hmem, hid, hs⟩
    cases hfind : received.find? fun t => t.scheduleId = id with
    | none => exact absurd (decide_eq_true hid) (List.find?_eq_none.mp hfind s hmem)
    | some first =>
      have hsame : first.scheduleId = id := by simpa using List.find?_some hfind
      have htimes := h first (mem_of_find?_eq_some hfind) s hmem (hsame.trans hid.symm)
      refine ⟨sanitizeSchedule first, congrArg (Option.map sanitizeSchedule) hfind, ?_⟩
      exact (hP (sanitizeSchedule first) s htimes.1 htimes.2).mpr hs

omit [Float64 F] in
theorem due_congr (now : Option Nat) (s t : ScheduledReadinessRequested F)
    (hready : s.readyAtMs = t.readyAtMs) : Due now s ↔ Due now t := by
  rw [Due, Due, hready]

omit [Float64 F] in
theorem late_congr (now : Option Nat) (s t : ScheduledReadinessRequested F)
    (hready : s.readyAtMs = t.readyAtMs) (hdeadline : s.deadlineMs = t.deadlineMs) :
    Late now s ↔ Late now t := by
  rw [Late, Late, due_congr now s t hready, hdeadline]

/-- The views after a run reflect what was received. -/
theorem reflects_after (debug : DebugTexts F) (waves : List (Wave F)) :
    Reflects (receivedIn waves) (clocksIn waves) (after debug waves).state.views := by
  have hholds := holds_after debug waves
  have hplaced := placed_after debug waves
  have hready : ∀ id, ((after debug waves).state.readyById.lookup id).isSome ↔ ∃ s,
      firstSchedule (receivedIn waves) id = some s ∧ Due (latest (clocksIn waves)) s := by
    intro id
    rw [← hholds.schedules, ← hholds.now]
    exact hplaced.ready id
  have hpending : ∀ id, ((after debug waves).state.pendingById.lookup id).isSome ↔ ∃ s,
      firstSchedule (receivedIn waves) id = some s ∧ ¬ Due (latest (clocksIn waves)) s := by
    intro id
    rw [← hholds.schedules, ← hholds.now]
    exact hplaced.pending id
  have hoverdue : ∀ id, ((after debug waves).state.overdueById.lookup id).isSome ↔ ∃ s,
      firstSchedule (receivedIn waves) id = some s ∧ Late (latest (clocksIn waves)) s := by
    intro id
    rw [← hholds.schedules, ← hholds.now]
    exact hplaced.overdue id
  refine ⟨hholds.now, hholds.schedules, hready, hpending, hoverdue, fun hc id => ⟨?_, ?_, ?_⟩⟩
  · exact (hready id).trans (hc.first_iff (fun s t hs _ => due_congr _ s t hs) id)
  · exact (hpending id).trans
      (hc.first_iff (fun s t hs _ => not_congr (due_congr _ s t hs)) id)
  · exact (hoverdue id).trans (hc.first_iff (fun s t => late_congr _ s t) id)

theorem Announced.firesOnce (h : Announced debug rt) :
    FiresOnce rt.facts rt.state.views := by
  have honce := nodup_iff_count_le_one.mp h.keyed.nodup
  refine ⟨fun id => ?_, fun id => ?_, fun id => ?_, fun before value later heq => ?_⟩
  · rw [countP_eq_count (isPending_iff debug id), h.keyed.keys]
    exact honce _
  · rw [countP_eq_count (isReady_iff debug id), h.keyed.keys]
    exact ⟨honce _, count_pos_iff.trans (h.ready id).symm⟩
  · rw [countP_eq_count (isOverdue_iff debug id), h.keyed.keys]
    exact ⟨honce _, count_pos_iff.trans (h.overdue id).symm⟩
  · have hkey := h.keyed.order before (.overdue value) later heq value rfl
    refine (mem_filterMap.mp hkey).elim fun fact hfact => ?_
    exact ⟨fact, hfact.1, (isReady_iff debug value.scheduleId fact).mpr hfact.2⟩

/-- What a run of waves comes to, and what its last wave adds. Whatever the order and the
    grouping into waves, the views reflect what was received, no schedule is announced
    twice, and what a wave announces holds at its reading. -/
theorem readiness_of_received (debug : DebugTexts F) (waves : List (Wave F)) (w : Wave F) :
    (after debug (waves ++ [w])).facts.getLast? =
        some (.views (after debug (waves ++ [w])).state.views) ∧
      Reflects (receivedIn (waves ++ [w])) (clocksIn (waves ++ [w]))
        (after debug (waves ++ [w])).state.views ∧
      FiresOnce (after debug (waves ++ [w])).facts (after debug (waves ++ [w])).state.views ∧
      Extends (Timely (after debug (waves ++ [w])).state.inputs) (after debug waves)
        (after debug (waves ++ [w])) := by
  refine ⟨?_, reflects_after debug _, (announced_after debug _).firesOnce, ?_⟩
  · rw [after_concat]
    exact List.getLast?_concat
  · have hkeyed := (holds_after debug (waves ++ [w])).keyed
    rw [after_concat] at hkeyed ⊢
    exact timely_wave debug _ w hkeyed

end GraphRefly.Readiness
