import GraphRefly.Readiness.Projector

/-!
# Where Schedules Stand

After a wave a schedule is ready, pending or overdue by its own times and the
greatest reading so far, and by nothing else. Between two waves the schedules that
are known only grow and the latest reading only rises, so a schedule that was ready
or overdue still is; evaluating every schedule settles the rest.

## Main definitions

* `Due`, `Late`: What a schedule is at a reading.
* `Inputs.Holds`: What was received is what is retained.
* `Placed`: Every schedule stands where its times put it.

## Theorems

* `Inputs.Holds.keep`, `Inputs.Holds.read`: What is received is retained.
* `Standing.placed_of_behind`: Evaluating settles what lags behind.
* `holds_after`, `placed_after`: Both after any run.
-/

namespace GraphRefly.Readiness

open List Json Lib

variable {F : Type} [Float64 F]

/-! ### What is retained -/

/-- The first schedule under an id stands. -/
def Inputs.keep (x : Inputs F) (schedule : ScheduledReadinessRequested F) : Inputs F :=
  match x.schedules.lookup schedule.scheduleId with
  | none => { x with schedules := x.schedules.insert schedule.scheduleId schedule }
  | some _ => x

/-- A reading below the latest one is ignored. -/
def Inputs.read (x : Inputs F) (clock : ScheduledReadinessClock F) : Inputs F :=
  match x.nowMs with
  | some previous =>
    if clock.nowMs < previous then x
    else ⟨x.schedules, some clock.nowMs, canonicalSourceRefs clock.sourceRefs⟩
  | none => ⟨x.schedules, some clock.nowMs, canonicalSourceRefs clock.sourceRefs⟩

theorem retainCanonical_touches (debug : DebugTexts F) (rt : Runtime F)
    (schedule : ScheduledReadinessRequested F) :
    (retainCanonical debug rt schedule).state.inputs = rt.state.inputs.keep schedule ∧
      (retainCanonical debug rt schedule).state.standing = rt.state.standing := by
  have hlook : rt.state.inputs.schedules = rt.state.schedules := rfl
  unfold retainCanonical Inputs.keep
  rw [hlook]
  cases rt.state.schedules.lookup schedule.scheduleId with
  | none => exact ⟨rfl, rfl⟩
  | some existing =>
    by_cases hsame : scheduleIdentity debug.schedule existing
        = scheduleIdentity debug.schedule schedule
    · simp only [if_pos hsame]
      exact ⟨trivial, trivial⟩
    · simp only [if_neg hsame, emitStatus_inputs, emitStatus_standing, emitIssue_inputs,
        emitIssue_standing]
      exact ⟨trivial, trivial⟩

theorem retainClock_touches (rt : Runtime F) (clock : ScheduledReadinessClock F) :
    (retainClock rt clock).state.inputs = rt.state.inputs.read clock ∧
      (retainClock rt clock).state.standing = rt.state.standing := by
  have hnow : rt.state.inputs.nowMs = rt.state.nowMs := rfl
  unfold retainClock Inputs.read
  rw [hnow]
  cases rt.state.nowMs with
  | none => exact ⟨rfl, rfl⟩
  | some previous =>
    by_cases hback : clock.nowMs < previous
    · simp only [if_pos hback, emitIssue_inputs, emitIssue_standing]
      exact ⟨trivial, trivial⟩
    · simp only [if_neg hback]
      exact ⟨rfl, rfl⟩

theorem retainSchedules_touches (debug : DebugTexts F)
    (schedules : List (ScheduledReadinessRequested F)) (rt : Runtime F) :
    (schedules.foldl (retainSchedule debug) rt).state.inputs
        = schedules.foldl (fun x s => x.keep (sanitizeSchedule s)) rt.state.inputs ∧
      (schedules.foldl (retainSchedule debug) rt).state.standing = rt.state.standing := by
  induction schedules generalizing rt with
  | nil => exact ⟨rfl, rfl⟩
  | cons schedule schedules ih =>
    have hhead : (retainSchedule debug rt schedule).state.inputs
          = rt.state.inputs.keep (sanitizeSchedule schedule) ∧
        (retainSchedule debug rt schedule).state.standing = rt.state.standing :=
      retainCanonical_touches debug rt (sanitizeSchedule schedule)
    have htail := ih (retainSchedule debug rt schedule)
    rw [hhead.1, hhead.2] at htail
    exact htail

theorem retainClocks_touches (clocks : List (ScheduledReadinessClock F)) (rt : Runtime F) :
    (clocks.foldl retainClock rt).state.inputs = clocks.foldl Inputs.read rt.state.inputs ∧
      (clocks.foldl retainClock rt).state.standing = rt.state.standing := by
  induction clocks generalizing rt with
  | nil => exact ⟨rfl, rfl⟩
  | cons clock clocks ih =>
    have hhead := retainClock_touches rt clock
    have htail := ih (retainClock rt clock)
    rw [hhead.1, hhead.2] at htail
    exact htail

/-- The first schedule received under an id, as it is retained. -/
def firstSchedule (received : List (ScheduledReadinessRequested F)) (id : String) :
    Option (ScheduledReadinessRequested F) :=
  (received.find? fun s => s.scheduleId = id).map sanitizeSchedule

/-- The greatest reading. -/
def latest (clocks : List (ScheduledReadinessClock F)) : Option Nat :=
  (clocks.map (·.nowMs)).max?

/-- What was received is what is retained. -/
structure Inputs.Holds (x : Inputs F) (received : List (ScheduledReadinessRequested F))
    (clocks : List (ScheduledReadinessClock F)) : Prop where
  schedules : ∀ id, x.schedules.lookup id = firstSchedule received id
  now : x.nowMs = latest clocks

omit [Float64 F] in
theorem latest_concat (clocks : List (ScheduledReadinessClock F))
    (clock : ScheduledReadinessClock F) :
    latest (clocks ++ [clock]) =
      some ((latest clocks).elim clock.nowMs fun previous => max previous clock.nowMs) := by
  unfold latest
  cases clocks with
  | nil => rfl
  | cons first clocks =>
    rw [map_append, map_cons, cons_append, List.max?_cons', List.max?_cons',
      foldl_append]
    rfl

theorem firstSchedule_concat (received : List (ScheduledReadinessRequested F))
    (schedule : ScheduledReadinessRequested F) (id : String) :
    firstSchedule (received ++ [schedule]) id = (firstSchedule received id).or
      (if schedule.scheduleId = id then some (sanitizeSchedule schedule) else none) := by
  unfold firstSchedule
  rw [List.find?_append, List.find?_singleton]
  by_cases hid : schedule.scheduleId = id
  · simp only [decide_eq_true hid, if_pos hid, if_true]
    cases received.find? fun s => s.scheduleId = id <;> rfl
  · simp only [decide_eq_false hid, if_neg hid]
    cases received.find? fun s => s.scheduleId = id <;> rfl

variable {received : List (ScheduledReadinessRequested F)}

theorem firstSchedule_id {id : String}
    {schedule : ScheduledReadinessRequested F} (h : firstSchedule received id = some schedule) :
    schedule.scheduleId = id := by
  unfold firstSchedule at h
  have hfound := Option.map_eq_some_iff.mp h
  refine hfound.elim fun given hgiven => ?_
  have hid : given.scheduleId = id := by simpa using List.find?_some hgiven.1
  rw [← hgiven.2]
  exact hid

variable {x : Inputs F} {clocks : List (ScheduledReadinessClock F)}

theorem Inputs.Holds.keep (h : x.Holds received clocks) (schedule : ScheduledReadinessRequested F) :
    (x.keep (sanitizeSchedule schedule)).Holds (received ++ [schedule]) clocks := by
  have hid : (sanitizeSchedule schedule).scheduleId = schedule.scheduleId := rfl
  unfold Inputs.keep
  cases hold : x.schedules.lookup (sanitizeSchedule schedule).scheduleId with
  | none =>
    refine ⟨fun id => ?_, h.now⟩
    rw [firstSchedule_concat, SortedMap.lookup_insert, hid]
    by_cases heq : schedule.scheduleId = id
    · have hnone : firstSchedule received id = none := by
        rw [← h.schedules, ← heq]
        exact hold
      rw [hnone, if_pos heq, if_pos heq.symm]
      rfl
    · rw [if_neg heq, if_neg (Ne.symm heq), Option.or_none]
      exact h.schedules id
  | some existing =>
    refine ⟨fun id => ?_, h.now⟩
    rw [firstSchedule_concat]
    by_cases heq : schedule.scheduleId = id
    · -- The id is taken, and what holds it stays first.
      have hsome : firstSchedule received id = some existing := by
        rw [← h.schedules, ← heq]
        exact hold
      have hlook := h.schedules id
      rw [hsome] at hlook ⊢
      exact hlook
    · rw [if_neg heq, Option.or_none]
      exact h.schedules id

theorem Inputs.Holds.read (h : x.Holds received clocks) (clock : ScheduledReadinessClock F) :
    (x.read clock).Holds received (clocks ++ [clock]) := by
  have hnext := latest_concat clocks clock
  rw [← h.now] at hnext
  unfold Inputs.read
  cases hnow : x.nowMs with
  | none =>
    rw [hnow] at hnext
    exact ⟨h.schedules, hnext.symm⟩
  | some previous =>
    rw [hnow] at hnext
    by_cases hback : clock.nowMs < previous
    · simp only [if_pos hback]
      refine ⟨h.schedules, ?_⟩
      rw [hnext, hnow, Option.elim, max_eq_left (by omega)]
    · simp only [if_neg hback]
      refine ⟨h.schedules, ?_⟩
      rw [hnext, Option.elim, max_eq_right (by omega)]

theorem Inputs.Holds.keepAll (h : x.Holds received clocks)
    (schedules : List (ScheduledReadinessRequested F)) :
    (schedules.foldl (fun x s => x.keep (sanitizeSchedule s)) x).Holds (received ++ schedules)
      clocks := by
  induction schedules generalizing x received with
  | nil =>
    rw [append_nil]
    exact h
  | cons schedule schedules ih =>
    rw [append_cons]
    exact ih (h.keep schedule)

theorem Inputs.Holds.readAll (h : x.Holds received clocks)
    (readings : List (ScheduledReadinessClock F)) :
    (readings.foldl Inputs.read x).Holds received (clocks ++ readings) := by
  induction readings generalizing x clocks with
  | nil =>
    rw [append_nil]
    exact h
  | cons reading readings ih =>
    rw [append_cons]
    exact ih (h.read reading)

/-! ### Evaluating -/

/-- The schedule's moment has come. -/
def Due (nowMs : Option Nat) (schedule : ScheduledReadinessRequested F) : Prop :=
  ∃ now, nowMs = some now ∧ schedule.readyAtMs ≤ now

/-- The schedule's moment has come and its deadline has passed. -/
def Late (nowMs : Option Nat) (schedule : ScheduledReadinessRequested F) : Prop :=
  Due nowMs schedule ∧ ∃ now deadline, nowMs = some now ∧ schedule.deadlineMs = some deadline ∧
    deadline < now

section

variable (t : Standing F) (id : String)

def Standing.Pending : Prop := (t.pendingById.lookup id).isSome

def Standing.Ready : Prop := (t.readyById.lookup id).isSome

def Standing.Overdue : Prop := (t.overdueById.lookup id).isSome

end

theorem isSome_lookup_insert {V : Type} (m : SortedMap String V) (key id : String) (v : V) :
    ((m.insert key v).lookup id).isSome ↔ id = key ∨ (m.lookup id).isSome := by
  rw [SortedMap.lookup_insert]
  by_cases h : id = key
  · rw [if_pos h]
    exact iff_of_true rfl (Or.inl h)
  · rw [if_neg h]
    exact (or_iff_right h).symm

theorem isSome_lookup_erase {V : Type} (m : SortedMap String V) (key id : String) :
    ((m.erase key).lookup id).isSome ↔ id ≠ key ∧ (m.lookup id).isSome := by
  rw [SortedMap.lookup_erase]
  by_cases h : id = key
  · rw [if_pos h]
    exact iff_of_false (by simp) (fun hand => hand.1 h)
  · rw [if_neg h]
    exact (and_iff_right h).symm

/-! One schedule's entry changes and no other. -/

section

variable (now : Inputs F) (t : Standing F) (s : ScheduledReadinessRequested F)

theorem hold_iff (id : String) : ((t.hold now s).Pending id ↔ id = s.scheduleId ∨ t.Pending id) ∧
      ((t.hold now s).Ready id ↔ t.Ready id) ∧ ((t.hold now s).Overdue id ↔ t.Overdue id) :=
  ⟨isSome_lookup_insert _ _ _ _, Iff.rfl, Iff.rfl⟩

theorem release_iff (nowMs : Nat) (id : String) :
    ((t.release now s nowMs).Pending id ↔ id ≠ s.scheduleId ∧ t.Pending id) ∧
      ((t.release now s nowMs).Ready id ↔ id = s.scheduleId ∨ t.Ready id) ∧
      ((t.release now s nowMs).Overdue id ↔ t.Overdue id) :=
  ⟨isSome_lookup_erase _ _ _, isSome_lookup_insert _ _ _ _, Iff.rfl⟩

theorem miss_iff (deadlineMs nowMs : Nat) (id : String) :
    ((t.miss now s deadlineMs nowMs).Pending id ↔ t.Pending id) ∧
      ((t.miss now s deadlineMs nowMs).Ready id ↔ t.Ready id) ∧
      ((t.miss now s deadlineMs nowMs).Overdue id ↔ id = s.scheduleId ∨ t.Overdue id) :=
  ⟨Iff.rfl, Iff.rfl, isSome_lookup_insert _ _ _ _⟩

end

omit [Float64 F] in
variable {s : ScheduledReadinessRequested F}

theorem due_some {nowMs : Nat} :
    Due (some nowMs) s ↔ s.readyAtMs ≤ nowMs := by
  constructor
  · intro h
    exact h.elim fun now hnow => Option.some.inj hnow.1 ▸ hnow.2
  · intro h
    exact ⟨nowMs, rfl, h⟩

omit [Float64 F] in
theorem not_due_none (s : ScheduledReadinessRequested F) : ¬ Due none s :=
  fun h => h.elim fun _ hnow => Option.some_ne_none _ hnow.1.symm

omit [Float64 F] in
theorem late_some {nowMs : Nat} :
    Late (some nowMs) s ↔ s.readyAtMs ≤ nowMs ∧ ∃ d, s.deadlineMs = some d ∧ d < nowMs := by
  rw [Late, due_some]
  refine and_congr_right fun _ => ?_
  constructor
  · intro h
    exact h.elim fun now hnow => hnow.elim fun d hd =>
      ⟨d, hd.2.1, Option.some.inj hd.1 ▸ hd.2.2⟩
  · intro h
    exact h.elim fun d hd => ⟨nowMs, d, rfl, hd.1, hd.2⟩

theorem place_cases (now : Inputs F) (t : Standing F) (s : ScheduledReadinessRequested F) :
    (¬ Due now.nowMs s ∧ ¬ Late now.nowMs s ∧ t.place now s = t.hold now s) ∨
      (∃ nowMs, Due now.nowMs s ∧ ¬ Late now.nowMs s ∧ t.place now s = t.release now s nowMs) ∨
      ∃ nowMs deadline, Due now.nowMs s ∧ Late now.nowMs s ∧
        t.place now s = (t.release now s nowMs).miss now s deadline nowMs := by
  cases hnow : now.nowMs with
  | none =>
    refine Or.inl ⟨not_due_none s, fun h => not_due_none s h.1, ?_⟩
    rw [Standing.place, hnow]
  | some nowMs =>
    by_cases hdue : nowMs < s.readyAtMs
    · refine Or.inl ⟨?_, ?_, ?_⟩
      · rw [due_some]
        omega
      · rw [late_some]
        omega
      · rw [Standing.place, hnow]
        exact if_pos hdue
    · have hready : Due (some nowMs) s := due_some.mpr (Nat.not_lt.mp hdue)
      cases hdeadline : s.deadlineMs with
      | none =>
        refine Or.inr (Or.inl ⟨nowMs, hready, ?_, ?_⟩)
        · rw [late_some, hdeadline]
          simp
        · simp only [Standing.place, hnow, if_neg hdue, hdeadline]
      | some deadline =>
        by_cases hlate : deadline < nowMs
        · refine Or.inr (Or.inr ⟨nowMs, deadline, hready, ?_, ?_⟩)
          · exact late_some.mpr ⟨Nat.not_lt.mp hdue, deadline, hdeadline, hlate⟩
          · simp only [Standing.place, hnow, if_neg hdue, hdeadline, if_pos hlate]
        · refine Or.inr (Or.inl ⟨nowMs, hready, ?_, ?_⟩)
          · rw [late_some, hdeadline]
            simp only [Option.some.injEq, exists_eq_left', hlate, and_false, not_false_eq_true]
          · simp only [Standing.place, hnow, if_neg hdue, hdeadline, if_neg hlate]

theorem place_iff (now : Inputs F) (t : Standing F) (s : ScheduledReadinessRequested F)
    (id : String) :
    ((t.place now s).Pending id ↔
        id = s.scheduleId ∧ ¬ Due now.nowMs s ∨ id ≠ s.scheduleId ∧ t.Pending id) ∧
      ((t.place now s).Ready id ↔ id = s.scheduleId ∧ Due now.nowMs s ∨ t.Ready id) ∧
      ((t.place now s).Overdue id ↔ id = s.scheduleId ∧ Late now.nowMs s ∨ t.Overdue id) := by
  rcases place_cases now t s with ⟨hdue, hlate, heq⟩ | ⟨nowMs, hdue, hlate, heq⟩ |
    ⟨nowMs, deadline, hdue, hlate, heq⟩
  · have h := hold_iff now t s id
    rw [heq, h.1, h.2.1, h.2.2]
    by_cases hid : id = s.scheduleId <;> simp [hid, hdue, hlate]
  · have h := release_iff now t s nowMs id
    rw [heq, h.1, h.2.1, h.2.2]
    by_cases hid : id = s.scheduleId <;> simp [hid, hdue, hlate]
  · have h := release_iff now t s nowMs id
    have hm := miss_iff now (t.release now s nowMs) s deadline nowMs id
    rw [heq, hm.1, hm.2.1, hm.2.2, h.1, h.2.1, h.2.2]
    by_cases hid : id = s.scheduleId <;> simp [hid, hdue, hlate]

theorem placeAll_iff (now : Inputs F) (schedules : List (ScheduledReadinessRequested F))
    (hids : (schedules.map (·.scheduleId)).Nodup) (t : Standing F) (id : String) :
    ((schedules.foldl (Standing.place now) t).Pending id ↔
        (∃ s ∈ schedules, s.scheduleId = id ∧ ¬ Due now.nowMs s) ∨
          (∀ s ∈ schedules, s.scheduleId ≠ id) ∧ t.Pending id) ∧
      ((schedules.foldl (Standing.place now) t).Ready id ↔
        (∃ s ∈ schedules, s.scheduleId = id ∧ Due now.nowMs s) ∨ t.Ready id) ∧
      ((schedules.foldl (Standing.place now) t).Overdue id ↔
        (∃ s ∈ schedules, s.scheduleId = id ∧ Late now.nowMs s) ∨ t.Overdue id) := by
  induction schedules generalizing t with
  | nil => simp
  | cons s schedules ih =>
    rw [map_cons, nodup_cons] at hids
    have htail := ih hids.2 (t.place now s)
    have hhead := place_iff now t s id
    rw [foldl_cons, htail.1, htail.2.1, htail.2.2, hhead.1, hhead.2.1, hhead.2.2]
    by_cases hid : s.scheduleId = id
    · -- No later schedule has this id.
      have hnone : ∀ other ∈ schedules, other.scheduleId ≠ id := by
        intro other hother heq
        exact hids.1 (mem_map.mpr ⟨other, hother, heq.trans hid.symm⟩)
      have hlater : ∀ p : ScheduledReadinessRequested F → Prop,
          ¬ ∃ other ∈ schedules, other.scheduleId = id ∧ p other := by
        intro p h
        exact h.elim fun other hother => hnone other hother.1 hother.2.1
      simp only [exists_mem_cons_iff, forall_mem_cons, hlater, hid, ne_eq,
        not_true_eq_false, true_and, false_and, or_false, false_or]
      exact ⟨and_iff_right hnone, trivial⟩
    · simp only [exists_mem_cons_iff, forall_mem_cons, hid, Ne.symm hid, ne_eq,
        not_false_eq_true, true_and, false_and, false_or, and_self]

/-! ### After a wave -/

/-- Every schedule stands where its times put it. -/
structure Placed (x : Inputs F) (t : Standing F) : Prop where
  pending : ∀ id, t.Pending id ↔ ∃ s, x.schedules.lookup id = some s ∧ ¬ Due x.nowMs s
  ready : ∀ id, t.Ready id ↔ ∃ s, x.schedules.lookup id = some s ∧ Due x.nowMs s
  overdue : ∀ id, t.Overdue id ↔ ∃ s, x.schedules.lookup id = some s ∧ Late x.nowMs s

/-- Nothing stands where its times do not put it, though it may still have to move. -/
structure Behind (x : Inputs F) (t : Standing F) : Prop where
  pending : ∀ id, t.Pending id → ∃ s, x.schedules.lookup id = some s
  ready : ∀ id, t.Ready id → ∃ s, x.schedules.lookup id = some s ∧ Due x.nowMs s
  overdue : ∀ id, t.Overdue id → ∃ s, x.schedules.lookup id = some s ∧ Late x.nowMs s

/-- Schedules stay as they are and the reading does not fall. -/
structure Inputs.Le (x y : Inputs F) : Prop where
  schedules : ∀ id s, x.schedules.lookup id = some s → y.schedules.lookup id = some s
  now : ∀ n, x.nowMs = some n → ∃ m, y.nowMs = some m ∧ n ≤ m

omit [Float64 F] in
theorem Inputs.Le.refl (x : Inputs F) : x.Le x :=
  ⟨fun _ _ h => h, fun n h => ⟨n, h, le_rfl⟩⟩

omit [Float64 F] in
variable {y : Inputs F}

theorem Inputs.Le.trans {z : Inputs F} (hxy : x.Le y) (hyz : y.Le z) : x.Le z where
  schedules id s h := hyz.schedules id s (hxy.schedules id s h)
  now n h := (hxy.now n h).elim fun m hm => (hyz.now m hm.1).imp fun _ hk =>
    ⟨hk.1, hm.2.trans hk.2⟩

omit [Float64 F] in
theorem Inputs.le_keep (x : Inputs F) (schedule : ScheduledReadinessRequested F) :
    x.Le (x.keep schedule) := by
  unfold Inputs.keep
  cases hold : x.schedules.lookup schedule.scheduleId with
  | some _ => exact .refl x
  | none =>
    refine ⟨fun id s h => ?_, (Inputs.Le.refl x).now⟩
    have hne : id ≠ schedule.scheduleId := by
      intro heq
      rw [heq, hold] at h
      exact Option.some_ne_none s h.symm
    exact (SortedMap.lookup_insert_of_ne _ _ hne).trans h

theorem Inputs.le_read (x : Inputs F) (clock : ScheduledReadinessClock F) :
    x.Le (x.read clock) := by
  unfold Inputs.read
  cases hnow : x.nowMs with
  | none => exact ⟨fun _ _ h => h, fun n h => absurd (hnow.symm.trans h) (by simp)⟩
  | some previous =>
    by_cases hback : clock.nowMs < previous
    · simp only [if_pos hback]
      exact .refl x
    · simp only [if_neg hback]
      refine ⟨fun _ _ h => h, fun n h => ⟨clock.nowMs, rfl, ?_⟩⟩
      have heq : previous = n := Option.some.inj (hnow.symm.trans h)
      omega

theorem Inputs.le_keepAll (schedules : List (ScheduledReadinessRequested F)) (x : Inputs F) :
    x.Le (schedules.foldl (fun x s => x.keep (sanitizeSchedule s)) x) := by
  induction schedules generalizing x with
  | nil => exact .refl x
  | cons s schedules ih => exact (x.le_keep _).trans (ih _)

theorem Inputs.le_readAll (clocks : List (ScheduledReadinessClock F)) (x : Inputs F) :
    x.Le (clocks.foldl Inputs.read x) := by
  induction clocks generalizing x with
  | nil => exact .refl x
  | cons clock clocks ih => exact (x.le_read clock).trans (ih _)

omit [Float64 F] in
theorem Due.mono (h : x.Le y) (hdue : Due x.nowMs s) : Due y.nowMs s :=
  hdue.elim fun n hn => (h.now n hn.1).imp fun _ hm => ⟨hm.1, hn.2.trans hm.2⟩

omit [Float64 F] in
theorem Late.mono (h : x.Le y) (hlate : Late x.nowMs s) : Late y.nowMs s := by
  refine ⟨hlate.1.mono h, ?_⟩
  exact hlate.2.elim fun n hn => hn.elim fun d hd => (h.now n hd.1).imp fun m hm =>
    ⟨d, hm.1, hd.2.1, lt_of_lt_of_le hd.2.2 hm.2⟩

omit [Float64 F] in
theorem Placed.behind {t : Standing F} (h : Placed x t) (hle : x.Le y) :
    Behind y t where
  pending id hp := ((h.pending id).mp hp).imp fun s hs => hle.schedules id s hs.1
  ready id hr := ((h.ready id).mp hr).imp fun s hs => ⟨hle.schedules id s hs.1, hs.2.mono hle⟩
  overdue id ho := ((h.overdue id).mp ho).imp fun s hs =>
    ⟨hle.schedules id s hs.1, hs.2.mono hle⟩

/-- Every schedule is retained under its id. -/
def Inputs.Keyed (x : Inputs F) : Prop :=
  ∀ id s, x.schedules.lookup id = some s → s.scheduleId = id

omit [Float64 F] in
theorem Inputs.Keyed.mem_values (h : x.Keyed) {id : String}
    {p : ScheduledReadinessRequested F → Prop} :
    (∃ s ∈ x.schedules.values, s.scheduleId = id ∧ p s) ↔
      ∃ s, x.schedules.lookup id = some s ∧ p s := by
  constructor
  · rintro ⟨s, hmem, hid, hp⟩
    have hentry := mem_map.mp hmem
    refine hentry.elim fun e he => ⟨s, ?_, hp⟩
    have hlook : x.schedules.lookup e.1 = some e.2 := SortedMap.lookup_eq_some_iff.mpr he.1
    rw [he.2] at hlook
    rw [← hid, h _ _ hlook]
    exact hlook
  · rintro ⟨s, hlook, hp⟩
    exact ⟨s, mem_map.mpr ⟨(id, s), SortedMap.lookup_eq_some hlook, rfl⟩, h id s hlook, hp⟩

omit [Float64 F] in
theorem Inputs.Keyed.nodup (h : x.Keyed) : (x.schedules.values.map (·.scheduleId)).Nodup := by
  have hkeys : x.schedules.values.map (·.scheduleId) = x.schedules.entries.map (·.1) := by
    rw [SortedMap.values, map_map]
    refine map_congr_left fun e he => ?_
    exact h e.1 e.2 (SortedMap.lookup_eq_some_iff.mpr he)
  rw [hkeys]
  exact x.schedules.nodup_keys

theorem Behind.place {t : Standing F} (h : Behind x t) (hkeyed : x.Keyed) :
    Placed x (x.schedules.values.foldl (Standing.place x) t) where
  pending id := by
    rw [(placeAll_iff x _ hkeyed.nodup t id).1, hkeyed.mem_values]
    refine or_iff_left fun hand => ?_
    -- What is pending is known, and what is known is evaluated.
    exact (h.pending id hand.2).elim fun s hs =>
      hand.1 s (mem_map.mpr ⟨(id, s), SortedMap.lookup_eq_some hs, rfl⟩) (hkeyed id s hs)
  ready id := by
    rw [(placeAll_iff x _ hkeyed.nodup t id).2.1, hkeyed.mem_values]
    exact or_iff_left_of_imp (h.ready id)
  overdue id := by
    rw [(placeAll_iff x _ hkeyed.nodup t id).2.2, hkeyed.mem_values]
    exact or_iff_left_of_imp (h.overdue id)

/-- The schedules a run of waves brings, in the order they are retained. -/
def receivedIn (waves : List (Wave F)) : List (ScheduledReadinessRequested F) :=
  waves.flatMap fun w => w.schedules.flatten

/-- The readings a run of waves brings. -/
def clocksIn (waves : List (Wave F)) : List (ScheduledReadinessClock F) :=
  waves.flatMap fun w => w.clocks.flatten

section

variable (debug : DebugTexts F) (waves : List (Wave F))

theorem after_concat (w : Wave F) :
    after debug (waves ++ [w]) = (after debug waves).wave debug w := by
  rw [after, foldl_append]
  rfl

/-- What is retained when a wave starts to evaluate. -/
def Inputs.take (x : Inputs F) (w : Wave F) : Inputs F :=
  w.clocks.flatten.foldl Inputs.read
    (w.schedules.flatten.foldl (fun x s => x.keep (sanitizeSchedule s)) x)

theorem retain_touches (debug : DebugTexts F) (rt : Runtime F) (w : Wave F) :
    (rt.retain debug w).state.inputs = rt.state.inputs.take w ∧
      (rt.retain debug w).state.standing = rt.state.standing := by
  have hkept := retainSchedules_touches debug w.schedules.flatten rt
  have hread := retainClocks_touches w.clocks.flatten
    (w.schedules.flatten.foldl (retainSchedule debug) rt)
  rw [hkept.1, hkept.2] at hread
  exact hread

theorem wave_touches (debug : DebugTexts F) (rt : Runtime F) (w : Wave F) :
    (rt.wave debug w).state.inputs = rt.state.inputs.take w ∧
      (rt.wave debug w).state.standing =
        (rt.state.inputs.take w).schedules.values.foldl
          (Standing.place (rt.state.inputs.take w)) rt.state.standing := by
  have hread := retain_touches debug rt w
  have heval := evaluateAll_touches debug (rt.retain debug w).state.schedules.values
    (rt.retain debug w)
  rw [hread.1, hread.2] at heval
  refine ⟨heval.1, heval.2.trans ?_⟩
  rw [← hread.1]
  rfl

/-- What was received is what is retained, after any run. -/
theorem holds_after :
    (after debug waves).state.inputs.Holds (receivedIn waves) (clocksIn waves) := by
  induction waves using List.reverseRecOn with
  | nil => exact ⟨fun _ => rfl, rfl⟩
  | append_singleton waves w ih =>
    rw [after_concat, (wave_touches debug _ w).1, receivedIn, clocksIn, flatMap_append,
      flatMap_append, flatMap_singleton, flatMap_singleton]
    exact (ih.keepAll _).readAll _

theorem Inputs.Holds.keyed (h : x.Holds received clocks) : x.Keyed := by
  intro id s hlook
  rw [h.schedules] at hlook
  exact firstSchedule_id hlook

/-- Every schedule stands where its times put it, after any run. -/
theorem placed_after :
    Placed (after debug waves).state.inputs (after debug waves).state.standing := by
  induction waves using List.reverseRecOn with
  | nil =>
    have hnone : ∀ p : ScheduledReadinessRequested F → Prop, ¬ ∃ s, none = some s ∧ p s :=
      fun p h => h.elim fun s hs => Option.some_ne_none s hs.1.symm
    exact ⟨fun _ => iff_of_false Bool.false_ne_true (hnone _),
      fun _ => iff_of_false Bool.false_ne_true (hnone _),
      fun _ => iff_of_false Bool.false_ne_true (hnone _)⟩
  | append_singleton waves w ih =>
    have hkeyed := (holds_after debug (waves ++ [w])).keyed
    rw [after_concat, (wave_touches debug _ w).1] at hkeyed
    rw [after_concat, (wave_touches debug _ w).1, (wave_touches debug _ w).2]
    have hle : (after debug waves).state.inputs.Le
        ((after debug waves).state.inputs.take w) :=
      (Inputs.le_keepAll _ _).trans (Inputs.le_readAll _ _)
    exact (ih.behind hle).place hkeyed

end

end GraphRefly.Readiness
