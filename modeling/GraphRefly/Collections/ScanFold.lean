import GraphRefly.Collections.Scan

/-!
# The Scan Is the Fold

After every call that leaves no batch open and no lock held, the value of the scan
node is the fold of the log, and it has a value as soon as the delta node has one.

Two things stand in the way. A batch delivers the last delta only, so a trim or a
clear that an append follows is lost, and one that is rolled back is lost anyway.
And a run that finds a trim or a clear starts from nothing, but still skips when
more values were appended than the log holds now: the deltas that a paused node
takes at once can do that.

## Main definitions

* `LogScan.Ready`: A run over these deltas catches up with the log.
* `ScanView.Good`: The scan node follows the log.
* `ScanWorld.Admits`: The condition on a call.
* `ScanWorld.Inv`: The invariant of the calls.

## Theorems

* `run_of_ready`: A run that catches up.
* `step_inv`: Every call that meets the condition keeps the invariant.
* `scan_eq_fold`: In every run of such calls the value is the fold.
-/

namespace GraphRefly.Collections

open List

variable {T A : Type}

/-! ### One run -/

namespace LogScan

variable (k : LogScan T A)

/-- The left fold. -/
def fold (l : List T) : A :=
  l.foldl k.step k.initial

/-- What the state has processed is a front of the log. -/
def Caught (all : List T) (s : LogScanState A) : Prop :=
  s.processed ≤ all.length ∧ s.acc = k.fold (all.take s.processed)

/-- A run over these deltas catches up with the log. -/
def Ready (all : List T) (changes : List (LogChange T)) (previous : Option (LogScanState A)) :
    Prop :=
  changes.any LogChange.resets = true ∨
    (k.Caught all (previous.getD ⟨k.initial, 0⟩) ∧
      (previous.getD ⟨k.initial, 0⟩).processed + appendedBy changes ≤ all.length)

end LogScan

/-- The deltas that start anew do not append more than the log has. -/
def Fits (all : List T) (changes : List (LogChange T)) : Prop :=
  changes.any LogChange.resets = true → appendedBy changes ≤ all.length

instance (all : List T) (changes : List (LogChange T)) : Decidable (Fits all changes) :=
  inferInstanceAs (Decidable (_ → _))

/-- The log has grown by at least so many values. -/
def Grown (before after : List T) (n : Nat) : Prop :=
  ∃ values, after = before ++ values ∧ n ≤ values.length

theorem appendedBy_append (xs ys : List (LogChange T)) :
    appendedBy (xs ++ ys) = appendedBy xs + appendedBy ys := by
  unfold appendedBy
  rw [map_append, sum_append]

theorem appendedBy_singleton (c : LogChange T) : appendedBy [c] = c.appended :=
  Nat.add_zero _

theorem appended_of_resets {c : LogChange T} (h : c.resets = true) : c.appended = 0 := by
  cases c with
  | append _ | appendMany _ => cases h
  | trimHead _ | clear _ => rfl

section Run

variable {k : LogScan T A} {all : List T} {changes : List (LogChange T)}
  {previous : Option (LogScanState A)}

-- Either the log is folded anew, or what is missing is folded on.
theorem run_of_ready (h : k.Ready all changes previous) (hfits : Fits all changes) :
    k.run changes previous all = (⟨k.fold all, all.length⟩, some (k.fold all)) := by
  unfold LogScan.run
  by_cases hreset : changes.any LogChange.resets = true
  · have hle := hfits hreset
    simp only [hreset, true_or, if_true, Nat.zero_add, drop_zero]
    rw [if_neg (by omega)]
    rfl
  · rcases h with h | ⟨⟨hle, hacc⟩, hroom⟩
    · exact absurd h hreset
    · have hshort : ¬ all.length < (previous.getD ⟨k.initial, 0⟩).processed := by omega
      simp only [hreset, hshort, Bool.false_eq_true, or_self, if_false]
      rw [if_neg (by omega), hacc]
      have hfold : (all.drop (previous.getD ⟨k.initial, 0⟩).processed).foldl k.step
          (k.fold (all.take (previous.getD ⟨k.initial, 0⟩).processed)) = k.fold all := by
        unfold LogScan.fold
        rw [← foldl_append, take_append_drop]
      rw [hfold]

theorem ready_start (k : LogScan T A) (all : List T) : k.Ready all [] none := by
  refine Or.inr ⟨⟨Nat.zero_le _, rfl⟩, Nat.zero_le _⟩

/-- Having caught up, a run over nothing is ready. -/
theorem ready_done (k : LogScan T A) (all : List T) :
    k.Ready all [] (some ⟨k.fold all, all.length⟩) := by
  refine Or.inr ⟨⟨Nat.le_refl _, ?_⟩, Nat.le_refl _⟩
  rw [Option.getD_some, take_length]

-- What was processed is still a front of a log that has only grown.
theorem ready_grown {before : List T} {n : Nat} (h : k.Ready before changes previous)
    (hgrown : Grown before all n) {more : List (LogChange T)} (hmore : appendedBy more ≤ n) :
    k.Ready all (changes ++ more) previous := by
  rcases hgrown with ⟨values, rfl, hn⟩
  rcases h with h | ⟨⟨hle, hacc⟩, hroom⟩
  · left
    rw [any_append, h, Bool.true_or]
  · right
    refine ⟨⟨?_, ?_⟩, ?_⟩
    · rw [length_append]
      omega
    · rw [take_append_of_le_length hle]
      exact hacc
    · rw [appendedBy_append, length_append]
      omega

theorem ready_reset {c : LogChange T} (h : c.resets = true) :
    k.Ready all (changes ++ [c]) previous := by
  left
  rw [any_append, any_cons, h, Bool.true_or, Bool.or_true]

end Run

/-! ### The node -/

namespace ScanView

/-- The flags fit together. -/
structure Tidy (v : ScanView T A) : Prop where
  held : v.skipped = true → v.locks ≠ []
  empty : v.skipped = false → v.dirty = false → v.waiting = []

/-- The scan node follows a log: the next run catches up with it, and a node that
    waits for nothing has done so. -/
structure Good (k : LogScan T A) (all : List T) (delta : Option (LogChange T))
    (v : ScanView T A) : Prop where
  ready : k.Ready all v.waiting v.state
  value : v.skipped = false → v.dirty = false →
    (∀ a, v.cache = some a → a = k.fold all) ∧ (delta ≠ none → v.cache ≠ none)

variable {k : LogScan T A} {all : List T} {v : ScanView T A} {delta : Option (LogChange T)}

theorem run_good (h : k.Ready all v.waiting v.state) (hfits : Fits all v.waiting) :
    Good k all delta (v.run k all) := by
  have hrun := run_of_ready h hfits
  refine ⟨?_, ?_⟩
  · have hstate : (v.run k all).state = some ⟨k.fold all, all.length⟩ := by
      rw [run, hrun]
    rw [hstate]
    exact ready_done k all
  · intro _ _
    have hcache : (v.run k all).cache = some (k.fold all) := by
      rw [run, hrun]
      rfl
    rw [hcache]
    exact ⟨fun a ha => (Option.some.inj ha).symm, fun _ => Option.some_ne_none _⟩

theorem run_tidy (h : v.skipped = false) : Tidy (v.run k all) := by
  refine ⟨?_, fun _ _ => rfl⟩
  intro hs
  have hskipped : (v.run k all).skipped = v.skipped := rfl
  rw [hskipped, h] at hs
  cases hs

theorem settle_tidy (h : v.skipped = true → v.locks ≠ []) (hdirty : v.dirty = false) :
    Tidy (v.settle k all) := by
  unfold settle
  by_cases hlocks : v.locks.isEmpty
  · have hskipped : v.skipped = false := by
      by_contra hne
      exact h (Bool.eq_true_of_not_eq_false hne) (List.isEmpty_iff.mp hlocks)
    rw [if_pos hlocks, if_neg (by rw [hdirty]; decide)]
    exact run_tidy hskipped
  · rw [if_neg hlocks]
    refine ⟨fun _ hnil => hlocks (List.isEmpty_iff.mpr hnil), ?_⟩
    intro hs
    cases hs

/-- The end of a delivery, when the next run catches up. -/
theorem settle_good (h : k.Ready all v.waiting v.state) (hdirty : v.dirty = false)
    (hfits : v.locks = [] → Fits all v.waiting) : Good k all delta (v.settle k all) := by
  unfold settle
  by_cases hlocks : v.locks.isEmpty
  · rw [if_pos hlocks, if_neg (by rw [hdirty]; decide)]
    exact run_good h (hfits (List.isEmpty_iff.mp hlocks))
  · rw [if_neg hlocks]
    refine ⟨h, ?_⟩
    intro hs
    cases hs

theorem settle_dirty (hdirty : v.dirty = false) : (v.settle k all).dirty = false := by
  unfold settle
  split_ifs <;> exact hdirty

theorem settle_activated : (v.settle k all).activated = v.activated := by
  unfold settle
  split_ifs <;> rfl

end ScanView

/-! ### The world -/

namespace ScanWorld

variable {maxSize : Option ℕ+} {k : LogScan T A} {w : ScanWorld T A}

/-- The view of the scan node. -/
def view (w : ScanWorld T A) : ScanView T A :=
  scanView w.scan

-- What the delta node says reaches a node that listens.
theorem tell_view (h : Listens w.scan) (inFlight : Bool) {m : Message (Datum T A)}
    (hm : m = .dirty ∨ m = .resolved ∨ ∃ c, m = .data (.change c)) :
    Listens (tell k w inFlight m).scan ∧ (tell k w inFlight m).view =
      if w.view.activated then w.view.told k w.content m else w.view := by
  have htold : Listens (applyReceived k w.content (w.scan.receive w.deliveries inFlight 0 m)) ∧
      scanView (applyReceived k w.content (w.scan.receive w.deliveries inFlight 0 m)) =
        w.view.told k w.content m := view_told h w.deliveries inFlight hm
  unfold tell view
  by_cases ha : w.scan.aux.activated = true
  · rw [if_pos ha, if_pos (show (scanView w.scan).activated = true from ha)]
    exact htold
  · rw [if_neg ha, if_neg (show ¬ (scanView w.scan).activated = true from ha)]
    exact ⟨h, rfl⟩

theorem tell_rest (w : ScanWorld T A) (inFlight : Bool) (m : Message (Datum T A)) :
    (tell k w inFlight m).content = w.content ∧ (tell k w inFlight m).delta = w.delta ∧
      (tell k w inFlight m).announced = w.announced ∧ (tell k w inFlight m).batch = w.batch := by
  unfold tell
  split_ifs <;> exact ⟨rfl, rfl, rfl, rfl⟩

theorem announce_view (h : Listens w.scan) :
    Listens (announce k w).scan ∧ (announce k w).view =
      if w.view.activated ∧ w.announced = false then { w.view with dirty := true } else w.view := by
  unfold announce
  by_cases hout : w.announced = true
  · rw [if_pos hout, if_neg (by rw [hout]; simp)]
    exact ⟨h, rfl⟩
  · have hfalse : w.announced = false := Bool.eq_false_of_not_eq_true hout
    have htell := tell_view (k := k) (w := { w with announced := true }) h true (Or.inl rfl)
    rw [if_neg hout]
    refine ⟨htell.1, htell.2.trans ?_⟩
    by_cases ha : w.view.activated = true
    · rw [if_pos (show (view { w with announced := true }).activated = true from ha),
        if_pos ⟨ha, hfalse⟩]
      rfl
    · rw [if_neg (show ¬ (view { w with announced := true }).activated = true from ha),
        if_neg fun hne => ha hne.1]
      rfl

theorem announce_rest (w : ScanWorld T A) :
    (announce k w).content = w.content ∧ (announce k w).delta = w.delta ∧
      (announce k w).announced = true ∧ (announce k w).batch = w.batch := by
  unfold announce
  by_cases hout : w.announced = true
  · rw [if_pos hout]
    exact ⟨rfl, rfl, hout, rfl⟩
  · rw [if_neg hout]
    exact tell_rest _ _ _

/-- What a delta does to the view of a node that listens. -/
theorem downDelta_view (h : Listens w.scan) (c : LogChange T) :
    Listens (downDelta k w c).scan ∧ (downDelta k w c).view =
      if w.view.activated then
        ({ w.view with waiting := w.view.waiting ++ [c], dirty := false } :
          ScanView T A).settle k w.content
      else w.view := by
  have hann := announce_view (k := k) h
  have hrest := announce_rest (k := k) w
  have htell := tell_view (k := k) (w := { announce k w with
      delta := some c
      deliveries := (announce k w).deliveries + 1 }) hann.1 true (m := .data (.change c))
    (Or.inr (Or.inr ⟨c, rfl⟩))
  refine ⟨htell.1, htell.2.trans ?_⟩
  have hview : view { announce k w with
      delta := some c
      deliveries := (announce k w).deliveries + 1 } = (announce k w).view := rfl
  rw [hview, hrest.1]
  by_cases ha : w.view.activated = true
  · rw [if_pos ha]
    by_cases hout : w.announced = false
    · rw [hann.2.trans (if_pos ⟨ha, hout⟩), if_pos (by exact ha)]
      rfl
    · rw [hann.2.trans (if_neg fun hne => hout hne.2), if_pos ha]
      rfl
  · rw [hann.2.trans (if_neg fun hne => ha hne.1), if_neg ha, if_neg ha]

theorem downDelta_rest (w : ScanWorld T A) (c : LogChange T) :
    (downDelta k w c).content = w.content ∧ (downDelta k w c).delta = some c ∧
      (downDelta k w c).announced = false ∧ (downDelta k w c).batch = w.batch := by
  have hrest := announce_rest (k := k) w
  have htell := tell_rest (k := k) { announce k w with
    delta := some c
    deliveries := (announce k w).deliveries + 1 } true (.data (.change c))
  exact ⟨htell.1.trans hrest.1, htell.2.1, rfl, htell.2.2.2.trans hrest.2.2.2⟩

/-- The last delta that a batch emitted appended so many values. -/
def lastAppended (emitted : List (LogChange T)) : Nat :=
  (emitted.getLast?.map LogChange.appended).getD 0

/-- A scan node that nobody subscribes to. -/
structure Quiet (v : ScanView T A) : Prop where
  waiting : v.waiting = []
  dirty : v.dirty = false
  skipped : v.skipped = false
  state : v.state = none
  cache : v.cache = none

/-- What the delta node would greet a subscriber with fits into the log. -/
def Greets (all : List T) (delta : Option (LogChange T)) : Prop :=
  ∀ c, delta = some c → c.appended ≤ all.length

/-- What every delivery keeps, whatever the log holds. -/
structure Steady (w : ScanWorld T A) : Prop where
  listens : Listens w.scan
  tidy : w.view.Tidy
  quiet : w.view.activated = false → Quiet w.view

/-- The open batch found the log as `base` and has emitted some deltas. -/
structure Pending (k : LogScan T A) (w : ScanWorld T A) (emitted : List (LogChange T))
    (base : List T) : Prop where
  good : w.view.activated = true → w.view.Good k base w.delta
  greets : Greets base w.delta
  none : emitted = [] → w.content = base ∧ w.announced = false ∧ w.view.dirty = false
  some : emitted ≠ [] → w.announced = true ∧ (w.view.activated = true → w.view.dirty = true)
  grown : emitted.any LogChange.resets = false → Grown base w.content (lastAppended emitted)
  last : lastAppended emitted ≤ w.content.length

/-- The invariant of the calls. -/
structure Inv (k : LogScan T A) (w : ScanWorld T A) : Prop extends Steady w where
  closed : w.batch = none → w.announced = false ∧ w.view.dirty = false ∧
    (w.view.activated = true → w.view.Good k w.content w.delta) ∧ Greets w.content w.delta
  pending : ∀ emitted, w.batch = some emitted → ∃ base, Pending k w emitted base

/-- The condition on a call. A commit delivers a removal if the batch emitted one,
    a rollback undoes none, and the deltas that a run takes fit into the log if
    there is a removal among them. -/
def Admits (w : ScanWorld T A) : ScanAct T → Prop
  | .commit => ∀ emitted, w.batch = some emitted →
      (emitted.any LogChange.resets = true →
        ∃ c, emitted.getLast? = some c ∧ c.resets = true) ∧
      (w.view.locks = [] → Fits w.content (w.view.waiting ++ committedDeltas emitted))
  | .rollback => ∀ emitted, w.batch = some emitted →
      emitted.any LogChange.resets = false ∧
      (w.view.locks = [] → Fits w.content w.view.waiting)
  | .resume lock => lock ∈ w.view.locks → w.view.locks.filter (· ≠ lock) = [] →
      w.view.dirty = false → Fits w.content w.view.waiting
  | .subscribe => w.batch = none
  | _ => True

theorem grown_refl (all : List T) : Grown all all 0 :=
  ⟨[], (append_nil all).symm, Nat.le_refl _⟩

variable {l l' : List T} {n : Nat}

theorem grown_trans {l'' : List T} {m : Nat} (h : Grown l l' m) (h' : Grown l' l'' n) :
    Grown l l'' n := by
  rcases h with ⟨values, rfl, _⟩
  rcases h' with ⟨values', rfl, hn⟩
  refine ⟨values ++ values', append_assoc _ _ _, ?_⟩
  rw [length_append]
  omega

theorem grown_length (h : Grown l l' n) : n ≤ l'.length := by
  rcases h with ⟨values, rfl, hn⟩
  rw [length_append]
  omega

section

variable (emitted : List (LogChange T))

theorem lastAppended_concat (c : LogChange T) :
    lastAppended (emitted ++ [c]) = c.appended := by
  unfold lastAppended
  rw [List.getLast?_concat]
  rfl

/-- The versions of the log that a mutation makes. -/
def versions (maxSize : Option ℕ+) (content : List T) (op : LogOp T) :
    List (LogChange T × List T) :=
  (logBackend T maxSize).call content op

/-- The log after some versions. -/
def after (content : List T) (versions : List (LogChange T × List T)) : List T :=
  versions.foldl (fun _ version => version.2) content

/-- A mutation does nothing, appends without a trim, or ends in a removal. -/
theorem call_cases (maxSize : Option ℕ+) (content : List T) (op : LogOp T) :
    versions maxSize content op = [] ∨
    (∃ c after, versions maxSize content op = [(c, after)] ∧ c.resets = false ∧
      Grown content after c.appended) ∨
    (∃ front c after, versions maxSize content op = front ++ [(c, after)] ∧
      c.resets = true) := by
  have htrim : ∀ buf : List T, ReactiveLog.emitTrimmed maxSize buf = [] ∨
      ∃ n after, ReactiveLog.emitTrimmed maxSize buf = [(.trimHead n, after)] := by
    intro buf
    unfold ReactiveLog.emitTrimmed
    dsimp only
    split_ifs
    · exact Or.inr ⟨_, _, rfl⟩
    · exact Or.inl rfl
  -- An append is followed by the trim, if any.
  have happend : ∀ (c : LogChange T) (values : List T), c.resets = false →
      c.appended ≤ values.length →
      (∃ d after, (c, content ++ values) :: ReactiveLog.emitTrimmed maxSize (content ++ values) =
        [(d, after)] ∧ d.resets = false ∧ Grown content after d.appended) ∨
      (∃ front d after,
        (c, content ++ values) :: ReactiveLog.emitTrimmed maxSize (content ++ values) =
          front ++ [(d, after)] ∧ d.resets = true) := by
    intro c values hc hle
    rcases htrim (content ++ values) with hnil | ⟨n, after, hone⟩
    · rw [hnil]
      exact Or.inl ⟨c, _, rfl, hc, values, rfl, hle⟩
    · rw [hone]
      exact Or.inr ⟨[(c, content ++ values)], _, _, rfl, rfl⟩
  cases op with
  | append value => exact Or.inr (happend (.append value) [value] rfl (Nat.le_refl _))
  | appendMany values =>
    have hcall : versions maxSize content (.appendMany values) =
        if values.isEmpty then [] else (.appendMany values, content ++ values) ::
          ReactiveLog.emitTrimmed maxSize (content ++ values) := by
      simp only [versions, Backend.call, logBackend, ReactiveLog.mutate]
      split_ifs <;> rfl
    rw [hcall]
    split_ifs
    · exact Or.inl rfl
    · exact Or.inr (happend (.appendMany values) values rfl (Nat.le_refl _))
  | clear =>
    have hcall : versions maxSize content .clear =
        if content.length = 0 then [] else [(.clear content.length, [])] := by
      simp only [versions, Backend.call, logBackend, ReactiveLog.mutate]
      split_ifs <;> rfl
    rw [hcall]
    split_ifs
    · exact Or.inl rfl
    · exact Or.inr (Or.inr ⟨[], _, _, rfl, rfl⟩)
  | trimHead n =>
    have hcall : versions maxSize content (.trimHead n) =
        if min n content.length = 0 then []
        else [(.trimHead (min n content.length), content.drop (min n content.length))] := by
      simp only [versions, Backend.call, logBackend, ReactiveLog.mutate]
      split_ifs <;> rfl
    rw [hcall]
    split_ifs
    · exact Or.inl rfl
    · exact Or.inr (Or.inr ⟨[], _, _, rfl, rfl⟩)

/-- The delta node holds the last delta that was emitted. -/
theorem heldSlice_eq :
    heldSlice emitted = emitted.getLast?.toList.map fun c => (0, [.data c]) := by
  induction emitted using List.reverseRecOn with
  | nil => rfl
  | append_singleton emitted c ih =>
    have hstep : heldSlice (emitted ++ [c]) = hold (heldSlice emitted) 0 [.data c] := by
      unfold heldSlice
      rw [foldl_append]
      rfl
    rw [hstep, ih, List.getLast?_concat]
    cases emitted.getLast? <;> simp [hold]

theorem committedDeltas_concat (c : LogChange T) :
    committedDeltas (emitted ++ [c]) = [c] := by
  unfold committedDeltas
  rw [heldSlice_eq, List.getLast?_concat]
  rfl

theorem heldSlice_concat_ne (c : LogChange T) : (heldSlice (emitted ++ [c])).isEmpty = false := by
  rw [heldSlice_eq, List.getLast?_concat]
  rfl

end

/-! ### The calls -/

/-- What a message leaves that settles the dep of the scan node. -/
structure Settled (k : LogScan T A) (w w' : ScanWorld T A) (waiting : List (LogChange T)) :
    Prop where
  listens : Listens w'.scan
  view : w'.view = if w.view.activated then
    ({ w.view with waiting := waiting, dirty := false } : ScanView T A).settle k w.content
    else w.view
  content : w'.content = w.content
  announced : w'.announced = false
  batch : w'.batch = w.batch

theorem downDelta_settled (h : Steady w) (c : LogChange T) :
    Settled k w (downDelta k w c) (w.view.waiting ++ [c]) := by
  have hview := downDelta_view (k := k) h.listens c
  have hrest := downDelta_rest (k := k) w c
  exact ⟨hview.1, hview.2, hrest.1, hrest.2.2.1, hrest.2.2.2⟩

theorem downResolved_settled (h : Steady w) :
    Settled k w (downResolved k w) w.view.waiting := by
  have hview := tell_view (k := k) (w := { w with deliveries := w.deliveries + 1 }) h.listens true
    (m := .resolved) (Or.inr (Or.inl rfl))
  have hrest := tell_rest (k := k) { w with deliveries := w.deliveries + 1 } true .resolved
  exact ⟨hview.1, hview.2, hrest.1, rfl, hrest.2.2.2⟩

variable {w' : ScanWorld T A}

variable {waiting : List (LogChange T)}

theorem Settled.steady (hw : Settled k w w' waiting) (h : Steady w) :
    Steady w' ∧ w'.view.dirty = false ∧ w'.view.activated = w.view.activated := by
  have hview := hw.view
  by_cases ha : w.view.activated = true
  · rw [if_pos ha] at hview
    have hact : w'.view.activated = w.view.activated := by
      rw [hview]
      exact ScanView.settle_activated
    refine ⟨⟨hw.listens, ?_, ?_⟩, ?_, hact⟩
    · rw [hview]
      exact ScanView.settle_tidy h.tidy.held rfl
    · intro hne
      rw [hact, ha] at hne
      cases hne
    · rw [hview]
      exact ScanView.settle_dirty rfl
  · rw [if_neg ha] at hview
    refine ⟨⟨hw.listens, ?_, ?_⟩, ?_, ?_⟩
    · rw [hview]
      exact h.tidy
    · rw [hview]
      exact h.quiet
    · rw [hview]
      exact (h.quiet (Bool.eq_false_of_not_eq_true ha)).dirty
    · rw [hview]

/-- Outside a batch, when the next run catches up. -/
theorem Settled.inv (hw : Settled k w w' waiting) (h : Steady w) (hbatch : w.batch = none)
    (hready : w.view.activated = true → k.Ready w.content waiting w.view.state)
    (hfits : w.view.activated = true → w.view.locks = [] → Fits w.content waiting)
    (hgreets : Greets w.content w'.delta) : Inv k w' := by
  have hsteady := hw.steady h
  refine ⟨hsteady.1, ?_, ?_⟩
  · intro _
    refine ⟨hw.announced, hsteady.2.1, ?_, ?_⟩
    · intro ha'
      have ha : w.view.activated = true := hsteady.2.2.symm.trans ha'
      rw [hw.view, if_pos ha, hw.content]
      exact ScanView.settle_good (hready ha) rfl (hfits ha)
    · rw [hw.content]
      exact hgreets
  · intro emitted he
    rw [hw.batch, hbatch] at he
    cases he

variable {c : LogChange T}

theorem downDelta_greets (h : c.appended ≤ w.content.length) :
    Greets w.content (downDelta k w c).delta := by
  intro d hd
  rw [(downDelta_rest w c).2.1] at hd
  rw [← Option.some.inj hd]
  exact h

-- A node that runs at once has nothing waiting.
theorem waiting_of_unlocked (h : Steady w) (hdirty : w.view.dirty = false)
    (hlocks : w.view.locks = []) : w.view.waiting = [] := by
  refine h.tidy.empty ?_ hdirty
  by_contra hne
  exact h.tidy.held (Bool.eq_true_of_not_eq_false hne) hlocks

theorem fits_singleton {all : List T} (c : LogChange T) : Fits all [c] := by
  intro hreset
  rw [any_cons, any_nil, Bool.or_false] at hreset
  rw [appendedBy_singleton, appended_of_resets hreset]
  exact Nat.zero_le _

/-- Outside a batch a removal makes the node fold anew. -/
theorem downDelta_reset (h : Steady w) (hbatch : w.batch = none) (hdirty : w.view.dirty = false)
    (hc : c.resets = true) : Inv k (downDelta k w c) := by
  refine (downDelta_settled h c).inv h hbatch (fun _ => ready_reset hc) ?_ ?_
  · intro _ hlocks
    rw [waiting_of_unlocked h hdirty hlocks]
    exact fits_singleton c
  · refine downDelta_greets ?_
    rw [appended_of_resets hc]
    exact Nat.zero_le _

theorem foldl_downDelta_steady (cs : List (LogChange T)) :
    ∀ w : ScanWorld T A, Steady w → w.batch = none → w.view.dirty = false →
      Steady (cs.foldl (downDelta k) w) ∧ (cs.foldl (downDelta k) w).batch = none ∧
        (cs.foldl (downDelta k) w).view.dirty = false := by
  induction cs with
  | nil => exact fun w h hbatch hdirty => ⟨h, hbatch, hdirty⟩
  | cons c cs ih =>
    intro w h hbatch hdirty
    have hsteady := (downDelta_settled (k := k) h c).steady h
    exact ih _ hsteady.1 ((downDelta_rest w c).2.2.2.trans hbatch) hsteady.2.1

theorem call_closed (h : Inv k w) (hbatch : w.batch = none) (op : LogOp T) :
    Inv k (call maxSize k w op) := by
  have hclosed := h.closed hbatch
  have hemit : ∀ (cs : List (LogChange T)) (w : ScanWorld T A), w.batch = none →
      cs.foldl (emit k) w = cs.foldl (downDelta k) w := by
    intro cs
    induction cs with
    | nil => exact fun _ _ => rfl
    | cons c cs ih =>
      intro w hb
      have hone : emit k w c = downDelta k w c := by
        unfold emit
        rw [hb]
      rw [foldl_cons, foldl_cons, hone]
      exact ih _ ((downDelta_rest w c).2.2.2.trans hb)
  have hsteady : ∀ after : List T, Steady { w with content := after } :=
    fun after => ⟨h.listens, h.tidy, h.quiet⟩
  have hcall : call maxSize k w op =
      ((versions maxSize w.content op).map (·.1)).foldl (downDelta k)
        { w with content := after w.content (versions maxSize w.content op) } :=
    hemit _ _ hbatch
  rw [hcall]
  rcases call_cases maxSize w.content op with hnil | ⟨c, l, hone, hc, hgrown⟩ |
    ⟨front, c, l, hone, hc⟩
  · rw [hnil]
    exact h
  · rw [hone]
    refine (downDelta_settled (hsteady l) c).inv (hsteady l) hbatch ?_ ?_
      (downDelta_greets (grown_length hgrown))
    · intro ha
      exact ready_grown (hclosed.2.2.1 ha).ready hgrown (appendedBy_singleton c).le
    · intro _ hlocks
      have hwaiting : (view { w with content := l }).waiting = [] :=
        waiting_of_unlocked (hsteady l) hclosed.2.1 hlocks
      have hfits : Fits l ((view { w with content := l }).waiting ++ [c]) := by
        rw [hwaiting]
        exact fits_singleton c
      exact hfits
  · rw [hone, map_append, foldl_append]
    rcases foldl_downDelta_steady (k := k) (front.map (·.1))
        { w with content := after w.content (front ++ [(c, l)]) } (hsteady _) hbatch
        hclosed.2.1 with ⟨hs, hb, hd⟩
    exact downDelta_reset hs hb hd hc

-- In a batch the deltas are only announced.
theorem foldl_emit_open (cs : List (LogChange T)) :
    ∀ (w : ScanWorld T A) (emitted : List (LogChange T)), Steady w → w.batch = some emitted →
      (w.announced = true → w.view.activated = true → w.view.dirty = true) → cs ≠ [] →
      Steady (cs.foldl (emit k) w) ∧ (cs.foldl (emit k) w).batch = some (emitted ++ cs) ∧
        (cs.foldl (emit k) w).content = w.content ∧ (cs.foldl (emit k) w).delta = w.delta ∧
        (cs.foldl (emit k) w).announced = true ∧
        (cs.foldl (emit k) w).view =
          if w.view.activated then { w.view with dirty := true } else w.view := by
  have hone : ∀ (w : ScanWorld T A) (emitted : List (LogChange T)) (c : LogChange T), Steady w →
      w.batch = some emitted → (w.announced = true → w.view.activated = true →
        w.view.dirty = true) →
      Steady (emit k w c) ∧ (emit k w c).batch = some (emitted ++ [c]) ∧
        (emit k w c).content = w.content ∧ (emit k w c).delta = w.delta ∧
        (emit k w c).announced = true ∧
        (emit k w c).view = if w.view.activated then { w.view with dirty := true } else w.view := by
    intro w emitted c h hbatch hdirty
    have hemit : emit k w c = announce k { w with batch := some (emitted ++ [c]) } := by
      unfold emit
      rw [hbatch]
    have hview := announce_view (k := k) (w := { w with batch := some (emitted ++ [c]) }) h.listens
    have hrest := announce_rest (k := k) { w with batch := some (emitted ++ [c]) }
    have hout : (announce k { w with batch := some (emitted ++ [c]) }).view =
        if w.view.activated then { w.view with dirty := true } else w.view := by
      rw [hview.2]
      by_cases ha : w.view.activated = true
      · rw [if_pos ha]
        by_cases hann : w.announced = true
        · rw [if_neg fun hne => by rw [show w.announced = false from hne.2] at hann; cases hann]
          have hd := hdirty hann ha
          change w.view = { w.view with dirty := true }
          rw [← hd]
        · exact if_pos ⟨ha, Bool.eq_false_of_not_eq_true hann⟩
      · rw [if_neg ha]
        exact if_neg fun hne => ha hne.1
    rw [hemit]
    refine ⟨⟨hview.1, ?_, ?_⟩, hrest.2.2.2, hrest.1, hrest.2.1, hrest.2.2.1, hout⟩
    · rw [hout]
      split_ifs
      · refine ⟨h.tidy.held, ?_⟩
        intro _ hd
        cases hd
      · exact h.tidy
    · rw [hout]
      split_ifs with ha
      · intro hne
        rw [show w.view.activated = false from hne] at ha
        cases ha
      · exact h.quiet
  induction cs with
  | nil => exact fun _ _ _ _ _ hne => absurd rfl hne
  | cons c cs ih =>
    intro w emitted h hbatch hdirty _
    have hc := hone w emitted c h hbatch hdirty
    rw [foldl_cons]
    cases cs with
    | nil => exact hc
    | cons d ds =>
      have hact : (emit k w c).view.activated = w.view.activated := by
        rw [hc.2.2.2.2.2]
        split_ifs <;> rfl
      have hdirty' : (emit k w c).view.activated = true → (emit k w c).view.dirty = true := by
        intro ha
        rw [hc.2.2.2.2.2, if_pos (hact.symm.trans ha)]
      have hds := ih (emit k w c) (emitted ++ [c]) hc.1 hc.2.1 (fun _ => hdirty') (by simp)
      refine ⟨hds.1, ?_, hds.2.2.1.trans hc.2.2.1, hds.2.2.2.1.trans hc.2.2.2.1,
        hds.2.2.2.2.1, ?_⟩
      · rw [hds.2.1, append_assoc]
        rfl
      · rw [hds.2.2.2.2.2, hact, hc.2.2.2.2.2]
        split_ifs <;> rfl

variable {emitted : List (LogChange T)}

theorem call_open (h : Inv k w) (hbatch : w.batch = some emitted)
    (op : LogOp T) : Inv k (call maxSize k w op) := by
  rcases h.pending emitted hbatch with ⟨base, hp⟩
  by_cases hnil : versions maxSize w.content op = []
  · have hcall : call maxSize k w op = w := by
      have hcall' : call maxSize k w op = ((versions maxSize w.content op).map (·.1)).foldl (emit k)
          { w with content := after w.content (versions maxSize w.content op) } := rfl
      rw [hcall', hnil]
      rfl
    rw [hcall]
    exact h
  · have hcs : (versions maxSize w.content op).map (·.1) ≠ [] := by
      intro hne
      exact hnil (map_eq_nil_iff.mp hne)
    have hdirty : w.announced = true → w.view.activated = true → w.view.dirty = true := by
      intro hann ha
      by_cases he : emitted = []
      · rw [(hp.none he).2.1] at hann
        cases hann
      · exact (hp.some he).2 ha
    rcases foldl_emit_open (k := k) ((versions maxSize w.content op).map (·.1))
        { w with content := after w.content (versions maxSize w.content op) } emitted
        ⟨h.listens, h.tidy, h.quiet⟩ hbatch hdirty hcs with
      ⟨hsteady, hbatch', hcontent, hdelta, hann, hview⟩
    have hview' : (call maxSize k w op).view =
        if w.view.activated then { w.view with dirty := true } else w.view := hview
    have hcontent' : (call maxSize k w op).content =
        after w.content (versions maxSize w.content op) := hcontent
    have hdelta' : (call maxSize k w op).delta = w.delta := hdelta
    have hheld : (call maxSize k w op).batch =
        some (emitted ++ (versions maxSize w.content op).map (·.1)) := hbatch'
    have hact : (call maxSize k w op).view.activated = w.view.activated := by
      rw [hview']
      split_ifs <;> rfl
    refine ⟨hsteady, ?_, ?_⟩
    · intro hnone
      rw [hheld] at hnone
      cases hnone
    · intro emitted' he
      rw [hheld, Option.some.injEq] at he
      subst he
      refine ⟨base, ?_, ?_, ?_, ?_, ?_, ?_⟩
      · intro ha
        have hact' : w.view.activated = true := hact.symm.trans ha
        rw [hview', hdelta', if_pos hact']
        refine ⟨(hp.good hact').ready, ?_⟩
        intro _ hd
        cases hd
      · rw [hdelta']
        exact hp.greets
      · intro hne
        exact absurd (append_eq_nil_iff.mp hne).2 hcs
      · intro _
        refine ⟨hann, ?_⟩
        intro ha
        rw [hview', if_pos (hact.symm.trans ha)]
      · intro hreset
        rw [hcontent']
        rw [any_append, Bool.or_eq_false_iff] at hreset
        rcases call_cases maxSize w.content op with hnone | ⟨c, l, hone, hc, hgrown⟩ |
          ⟨front, c, l, hone, hc⟩
        · exact absurd hnone hnil
        · rw [hone, map_singleton, lastAppended_concat]
          exact grown_trans (hp.grown hreset.1) hgrown
        · rw [hone, map_append, any_append] at hreset
          have hfalse := (Bool.or_eq_false_iff.mp hreset.2).2
          rw [map_singleton, any_cons, hc] at hfalse
          cases hfalse
      · rw [hcontent']
        rcases call_cases maxSize w.content op with hnone | ⟨c, l, hone, hc, hgrown⟩ |
          ⟨front, c, l, hone, hc⟩
        · exact absurd hnone hnil
        · rw [hone, map_singleton, lastAppended_concat]
          exact grown_length hgrown
        · rw [hone, map_append, map_singleton, ← append_assoc, lastAppended_concat,
            appended_of_resets hc]
          exact Nat.zero_le _

/-- A batch that emitted nothing leaves nothing. -/
theorem close_empty (h : Inv k w) (hbatch : w.batch = some []) :
    Inv k { w with batch := none } := by
  rcases h.pending [] hbatch with ⟨base, hp⟩
  have hnone := hp.none rfl
  refine ⟨⟨h.listens, h.tidy, h.quiet⟩, ?_, ?_⟩
  · intro _
    refine ⟨hnone.2.1, hnone.2.2, ?_, ?_⟩
    · rw [hnone.1]
      exact hp.good
    · rw [hnone.1]
      exact hp.greets
  · intro emitted he
    cases he

theorem commit_inv (h : Inv k w) (hbatch : w.batch = some emitted)
    (hadmits : w.Admits .commit) : Inv k (commit k w emitted) := by
  rcases h.pending emitted hbatch with ⟨base, hp⟩
  have hok := hadmits emitted hbatch
  cases emitted using List.reverseRecOn with
  | nil => exact close_empty h hbatch
  | append_singleton front c =>
    have hcommit : commit k w (front ++ [c]) = downDelta k { w with batch := none } c := by
      unfold commit
      rw [committedDeltas_concat]
      rfl
    have hsteady : Steady { w with batch := none } := ⟨h.listens, h.tidy, h.quiet⟩
    have hlast := hp.last
    have hfits := hok.2
    rw [lastAppended_concat] at hlast
    rw [committedDeltas_concat] at hfits
    rw [hcommit]
    refine (downDelta_settled hsteady c).inv hsteady rfl ?_ (fun _ => hfits)
      (downDelta_greets hlast)
    intro ha
    by_cases hreset : (front ++ [c]).any LogChange.resets = true
    · rcases hok.1 hreset with ⟨d, hd, hdreset⟩
      rw [List.getLast?_concat, Option.some.injEq] at hd
      rw [← hd] at hdreset
      exact ready_reset hdreset
    · have hgrown := hp.grown (Bool.eq_false_of_not_eq_true hreset)
      rw [lastAppended_concat] at hgrown
      exact ready_grown (hp.good ha).ready hgrown (appendedBy_singleton c).le

theorem rollback_inv (h : Inv k w)
    (hbatch : w.batch = some emitted) (hadmits : w.Admits .rollback) :
    Inv k (rollback k w emitted) := by
  rcases h.pending emitted hbatch with ⟨base, hp⟩
  have hok := hadmits emitted hbatch
  cases emitted using List.reverseRecOn with
  | nil => exact close_empty h hbatch
  | append_singleton front c =>
    have hroll : rollback k w (front ++ [c]) = downResolved k { w with batch := none } := by
      unfold rollback
      rw [heldSlice_concat_ne]
      rfl
    have hsteady : Steady { w with batch := none } := ⟨h.listens, h.tidy, h.quiet⟩
    have hdelta : (downResolved k { w with batch := none }).delta = w.delta :=
      (tell_rest _ _ _).2.1
    have hgrown := hp.grown hok.1
    rw [hroll]
    refine (downResolved_settled hsteady).inv hsteady rfl ?_ (fun _ => hok.2) ?_
    · intro ha
      have hmore : k.Ready w.content (w.view.waiting ++ []) w.view.state :=
        ready_grown (hp.good ha).ready hgrown (Nat.zero_le _)
      rw [append_nil] at hmore
      exact hmore
    · rw [hdelta]
      intro d hd
      rcases hgrown with ⟨values, hcontent, _⟩
      have hle := hp.greets d hd
      rw [show ({ w with batch := none } : ScanWorld T A).content = base ++ values from hcontent,
        length_append]
      omega

/-- A change of the scan node alone, in a batch or not. -/
theorem inv_of_scan (h : Inv k w) {x : Node (Datum T A) (LogScanState A)} (hx : Listens x)
    (htidy : (scanView x).Tidy) (hact : (scanView x).activated = w.view.activated)
    (hdirty : (scanView x).dirty = w.view.dirty)
    (hquiet : (scanView x).activated = false → Quiet (scanView x))
    (hgood : ∀ base, (w.view.dirty = false → w.content = base) →
      w.view.activated = true → w.view.Good k base w.delta → (scanView x).Good k base w.delta) :
    Inv k { w with scan := x } := by
  refine ⟨⟨hx, htidy, hquiet⟩, ?_, ?_⟩
  · intro hbatch
    have hclosed := h.closed hbatch
    refine ⟨hclosed.1, hdirty.trans hclosed.2.1, ?_, hclosed.2.2.2⟩
    intro ha
    have ha' : w.view.activated = true := hact.symm.trans ha
    exact hgood w.content (fun _ => rfl) ha' (hclosed.2.2.1 ha')
  · intro emitted hbatch
    rcases h.pending emitted hbatch with ⟨base, hp⟩
    refine ⟨base, ?_, hp.greets, ?_, ?_, hp.grown, hp.last⟩
    · intro ha
      have ha' : w.view.activated = true := hact.symm.trans ha
      refine hgood base ?_ ha' (hp.good ha')
      intro hd
      by_cases he : emitted = []
      · exact (hp.none he).1
      · rw [(hp.some he).2 ha'] at hd
        cases hd
    · intro he
      exact ⟨(hp.none he).1, (hp.none he).2.1, hdirty.trans (hp.none he).2.2⟩
    · intro he
      refine ⟨(hp.some he).1, ?_⟩
      intro ha
      exact hdirty.trans ((hp.some he).2 (hact.symm.trans ha))

theorem pause_inv (h : Inv k w) (lock : LockId) :
    Inv k { w with scan := pauseScan w.scan lock } := by
  have hview := view_pauseScan h.listens lock
  have hpaused : scanView (pauseScan w.scan lock) = w.view.paused lock := hview.2
  have hrest : (w.view.paused lock).activated = w.view.activated ∧
      (w.view.paused lock).dirty = w.view.dirty ∧ (w.view.paused lock).waiting = w.view.waiting ∧
      (w.view.paused lock).skipped = w.view.skipped ∧ (w.view.paused lock).state = w.view.state ∧
      (w.view.paused lock).cache = w.view.cache := by
    unfold ScanView.paused
    split_ifs <;> exact ⟨rfl, rfl, rfl, rfl, rfl, rfl⟩
  rw [← hpaused] at hrest
  rcases hrest with ⟨hact, hdirty, hwaiting, hskipped, hstate, hcache⟩
  refine inv_of_scan h hview.1 ⟨?_, ?_⟩ hact hdirty ?_ ?_
  · intro hs
    have hne := h.tidy.held (hskipped.symm.trans hs)
    rw [hpaused]
    unfold ScanView.paused
    split_ifs
    · exact hne
    · simp
  · intro hs hd
    exact hwaiting.trans (h.tidy.empty (hskipped.symm.trans hs) (hdirty.symm.trans hd))
  · intro ha
    have hq := h.quiet (hact.symm.trans ha)
    exact ⟨hwaiting.trans hq.waiting, hdirty.trans hq.dirty, hskipped.trans hq.skipped,
      hstate.trans hq.state, hcache.trans hq.cache⟩
  · intro base _ _ hgood
    refine ⟨?_, ?_⟩
    · rw [hwaiting, hstate]
      exact hgood.ready
    · intro hs hd
      rw [hcache]
      exact hgood.value (hskipped.symm.trans hs) (hdirty.symm.trans hd)

theorem resume_inv (h : Inv k w) (lock : LockId) (hadmits : w.Admits (.resume lock)) :
    Inv k { w with scan := resumeScan k w.content w.scan lock } := by
  have hview : Listens (resumeScan k w.content w.scan lock) ∧
      scanView (resumeScan k w.content w.scan lock) = w.view.resumed k w.content lock :=
    view_resumeScan h.listens lock
  have hresumed := hview.2
  by_cases hlock : lock ∈ w.view.locks
  · by_cases hleft : (w.view.locks.filter (· ≠ lock)) = []
    · have hempty : (w.view.locks.filter (· ≠ lock)).isEmpty = true := List.isEmpty_iff.mpr hleft
      by_cases hfire : w.view.skipped = true ∧ w.view.dirty = false
      · -- The skipped wave fires now.
        have hrun : scanView (resumeScan k w.content w.scan lock) =
            ({ w.view with locks := w.view.locks.filter (· ≠ lock), skipped := false } :
              ScanView T A).run k w.content := by
          rw [hresumed, ScanView.resumed, if_pos hlock]
          dsimp only
          rw [if_pos hempty, if_pos hfire]
        have hact : w.view.activated = true := by
          by_contra hne
          have hq := h.quiet (Bool.eq_false_of_not_eq_true hne)
          rw [hq.skipped] at hfire
          cases hfire.1
        refine inv_of_scan h hview.1 ?_ ?_ ?_ ?_ ?_
        · rw [hrun]
          exact ScanView.run_tidy rfl
        · rw [hrun]
          rfl
        · rw [hrun]
          rfl
        · rw [hrun]
          intro hna
          rw [show w.view.activated = false from hna] at hact
          cases hact
        · intro base hbase _ hgood
          have hcontent := hbase hfire.2
          rw [hrun, ← hcontent]
          rw [← hcontent] at hgood
          exact ScanView.run_good hgood.ready (hadmits hlock hleft hfire.2)
      · have hsame : scanView (resumeScan k w.content w.scan lock) =
            { w.view with locks := w.view.locks.filter (· ≠ lock), skipped := false } := by
          rw [hresumed, ScanView.resumed, if_pos hlock]
          dsimp only
          rw [if_pos hempty, if_neg hfire]
        have hskip : w.view.dirty = false → w.view.skipped = false := by
          intro hd
          by_contra hne
          exact hfire ⟨Bool.eq_true_of_not_eq_false hne, hd⟩
        refine inv_of_scan h hview.1 ?_ ?_ ?_ ?_ ?_
        · rw [hsame]
          exact ⟨fun hs => absurd hs Bool.false_ne_true,
            fun _ hd => h.tidy.empty (hskip hd) hd⟩
        · rw [hsame]
        · rw [hsame]
        · rw [hsame]
          intro hna
          have hq := h.quiet hna
          exact ⟨hq.waiting, hq.dirty, rfl, hq.state, hq.cache⟩
        · intro base _ _ hgood
          rw [hsame]
          exact ⟨hgood.ready, fun _ hd => hgood.value (hskip hd) hd⟩
    · have hempty : ¬ (w.view.locks.filter (· ≠ lock)).isEmpty = true :=
        fun hne => hleft (List.isEmpty_iff.mp hne)
      have hsame : scanView (resumeScan k w.content w.scan lock) =
          { w.view with locks := w.view.locks.filter (· ≠ lock) } := by
        rw [hresumed, ScanView.resumed, if_pos hlock]
        dsimp only
        rw [if_neg hempty]
      refine inv_of_scan h hview.1 ?_ ?_ ?_ ?_ ?_
      · rw [hsame]
        exact ⟨fun _ => hleft, h.tidy.empty⟩
      · rw [hsame]
      · rw [hsame]
      · rw [hsame]
        intro hna
        have hq := h.quiet hna
        exact ⟨hq.waiting, hq.dirty, hq.skipped, hq.state, hq.cache⟩
      · intro base _ _ hgood
        rw [hsame]
        exact ⟨hgood.ready, hgood.value⟩
  · have hsame : scanView (resumeScan k w.content w.scan lock) = w.view := by
      rw [hresumed, ScanView.resumed, if_neg hlock]
    refine inv_of_scan h hview.1 ?_ ?_ ?_ ?_ ?_
    · rw [hsame]
      exact h.tidy
    · rw [hsame]
    · rw [hsame]
    · rw [hsame]
      exact h.quiet
    · intro base _ _ hgood
      rw [hsame]
      exact hgood

/-- The scan node, once somebody subscribes to it. -/
def activated (w : ScanWorld T A) : ScanWorld T A :=
  { w with scan := { w.scan with aux := { w.scan.aux with activated := true } } }

theorem activated_steady (h : Steady w) : Steady w.activated where
  listens := ⟨h.listens.deps, h.listens.handle, h.listens.config, h.listens.terminal,
    h.listens.settled, h.listens.handshake, h.listens.persist, h.listens.waves, h.listens.dirty⟩
  tidy := ⟨h.tidy.held, h.tidy.empty⟩
  quiet := fun hna => absurd (show true = false from hna) (by decide)

theorem subscribe_inv (h : Inv k w) (hadmits : w.Admits .subscribe) : Inv k (subscribe k w) := by
  by_cases ha : w.view.activated = true
  · have hsame : subscribe k w = w := by
      unfold subscribe
      exact if_pos ha
    rw [hsame]
    exact h
  · have hbatch : w.batch = none := hadmits
    have hclosed := h.closed hbatch
    have hq := h.quiet (Bool.eq_false_of_not_eq_true ha)
    have hsteady := activated_steady h.toSteady
    have hstate : w.activated.view.state = none := hq.state
    have hwaiting : w.activated.view.waiting = [] := hq.waiting
    cases hd : w.delta with
    | none =>
      -- The delta node has nothing to say yet.
      have hsub : subscribe k w = w.activated := by
        unfold subscribe
        refine (if_neg ha).trans ?_
        dsimp only
        split
        · rename_i c hc
          rw [hd] at hc
          cases hc
        · exact if_neg (fun hannounced => by rw [hclosed.1] at hannounced; cases hannounced)
      rw [hsub]
      refine ⟨hsteady, ?_, ?_⟩
      · intro _
        refine ⟨hclosed.1, hq.dirty, ?_, hclosed.2.2.2⟩
        intro _
        refine ⟨?_, ?_⟩
        · rw [hwaiting, hstate]
          exact ready_start k _
        · intro _ _
          have hcache : w.activated.view.cache = none := hq.cache
          have hdelta : w.activated.delta = none := hd
          rw [hcache, hdelta]
          exact ⟨fun a ha => absurd ha (by simp), fun hne => absurd rfl hne⟩
      · intro emitted he
        rw [show w.activated.batch = w.batch from rfl, hbatch] at he
        cases he
    | some c =>
      have hsub : subscribe k w = tell k w.activated false (.data (.change c)) := by
        unfold subscribe
        refine (if_neg ha).trans ?_
        dsimp only
        split
        · rename_i c' hc
          rw [Option.some.inj (hd.symm.trans hc)]
          rfl
        · rename_i hc
          rw [hd] at hc
          cases hc
      rw [hsub]
      have hview := tell_view (k := k) hsteady.listens false (m := .data (.change c))
        (Or.inr (Or.inr ⟨c, rfl⟩))
      have hrest := tell_rest (k := k) w.activated false (.data (.change c))
      have hle : c.appended ≤ w.content.length := hclosed.2.2.2 c hd
      have hsettled : Settled k w.activated (tell k w.activated false (.data (.change c)))
          (w.activated.view.waiting ++ [c]) :=
        ⟨hview.1, hview.2, hrest.1, hrest.2.2.1.trans hclosed.1, hrest.2.2.2⟩
      refine hsettled.inv hsteady hbatch ?_ ?_ ?_
      · intro _
        rw [hwaiting, hstate]
        refine Or.inr ⟨⟨Nat.zero_le _, rfl⟩, ?_⟩
        rw [Option.getD_none, nil_append, appendedBy_singleton, Nat.zero_add]
        exact hle
      · intro _ _
        rw [hwaiting]
        exact fits_singleton c
      · rw [hrest.2.1]
        exact hclosed.2.2.2

theorem unsubscribe_inv (h : Inv k w) : Inv k { w with scan := w.scan.deactivated } := by
  have hview := view_deactivated h.listens
  have hfresh : view { w with scan := w.scan.deactivated } =
      ⟨[], false, [], false, none, none, false⟩ := hview.2
  have hna : ∀ {P : Prop}, (view { w with scan := w.scan.deactivated }).activated = true → P := by
    intro P ha
    rw [hfresh] at ha
    cases ha
  refine ⟨⟨hview.1, ?_, ?_⟩, ?_, ?_⟩
  · rw [hfresh]
    exact ⟨fun hs => absurd hs Bool.false_ne_true, fun _ _ => rfl⟩
  · intro _
    rw [hfresh]
    exact ⟨rfl, rfl, rfl, rfl, rfl⟩
  · intro hbatch
    have hclosed := h.closed hbatch
    exact ⟨hclosed.1, by rw [hfresh], hna, hclosed.2.2.2⟩
  · intro emitted hbatch
    rcases h.pending emitted hbatch with ⟨base, hp⟩
    exact ⟨base, hna, hp.greets, fun he => ⟨(hp.none he).1, (hp.none he).2.1, by rw [hfresh]⟩,
      fun he => ⟨(hp.some he).1, hna⟩, hp.grown, hp.last⟩

theorem openBatch_inv (h : Inv k w) (hbatch : w.batch = none) :
    Inv k { w with batch := some [] } := by
  have hclosed := h.closed hbatch
  refine ⟨⟨h.listens, h.tidy, h.quiet⟩, ?_, ?_⟩
  · intro hnone
    cases hnone
  · intro emitted he
    rw [← Option.some.inj he]
    exact ⟨w.content, hclosed.2.2.1, hclosed.2.2.2, fun _ => ⟨rfl, hclosed.1, hclosed.2.1⟩,
      fun hne => absurd rfl hne, fun _ => grown_refl _, Nat.zero_le _⟩

/-- Every call that meets the condition keeps the invariant. -/
theorem step_inv (h : Inv k w) {act : ScanAct T} (hadmits : w.Admits act) :
    Inv k (step maxSize k w act) := by
  cases act with
  | call op =>
    cases hbatch : w.batch with
    | none => exact call_closed h hbatch op
    | some emitted => exact call_open h hbatch op
  | openBatch =>
    unfold step
    cases hbatch : w.batch with
    | none => exact openBatch_inv h hbatch
    | some emitted => exact h
  | commit =>
    unfold step
    cases hbatch : w.batch with
    | none => exact h
    | some emitted => exact commit_inv h hbatch hadmits
  | rollback =>
    unfold step
    cases hbatch : w.batch with
    | none => exact h
    | some emitted => exact rollback_inv h hbatch hadmits
  | pause lock => exact pause_inv h lock
  | resume lock => exact resume_inv h lock hadmits
  | subscribe => exact subscribe_inv h hadmits
  | unsubscribe =>
    unfold step
    dsimp only
    split_ifs
    · exact unsubscribe_inv h
    · exact h

/-! ### Whole runs -/

/-- A new log with a scan of it. -/
def new (maxSize : Option ℕ+) (values : List T) : ScanWorld T A where
  content := (trimHeadOverflow values maxSize).2
  scan := scanNode T A

/-- The value of the scan node. -/
def cached (w : ScanWorld T A) : Option A :=
  w.scan.value.cache.bind Datum.acc?

theorem new_inv (k : LogScan T A) (maxSize : Option ℕ+) (values : List T) :
    Inv k (new maxSize values : ScanWorld T A) := by
  refine ⟨⟨listens_scanNode T A, ?_, fun _ => ⟨rfl, rfl, rfl, rfl, rfl⟩⟩, ?_, ?_⟩
  · exact ⟨fun hs => absurd hs Bool.false_ne_true, fun _ _ => rfl⟩
  · intro _
    refine ⟨rfl, rfl, fun ha => absurd ha Bool.false_ne_true, ?_⟩
    intro c hc
    cases hc
  · intro emitted he
    cases he

/-- The calls of a run, all of which meet the condition. -/
inductive Runs (maxSize : Option ℕ+) (k : LogScan T A) (w : ScanWorld T A) :
    ScanWorld T A → Prop
  | refl : Runs maxSize k w w
  | tail {w' : ScanWorld T A} (hrun : Runs maxSize k w w') (act : ScanAct T)
      (hadmits : w'.Admits act) : Runs maxSize k w (step maxSize k w' act)

theorem runs_inv (h : Inv k w) (hrun : Runs maxSize k w w') : Inv k w' := by
  induction hrun with
  | refl => exact h
  | tail _ act hadmits ih => exact step_inv ih hadmits

/-- With no batch open and no lock held, the value of an active scan is the fold of
    the log, and there is one as soon as the log has emitted a delta. -/
theorem scan_eq_fold (maxSize : Option ℕ+) (k : LogScan T A) (values : List T)
    {w : ScanWorld T A} (hrun : Runs maxSize k (new maxSize values) w) (hbatch : w.batch = none)
    (hactive : w.scan.aux.activated = true) (hlocks : w.scan.aux.pauseLockset = []) :
    (∀ a, w.cached = some a → a = w.content.foldl k.step k.initial) ∧
      (w.delta ≠ none → w.cached = some (w.content.foldl k.step k.initial)) := by
  have hinv := runs_inv (new_inv k maxSize values) hrun
  have hclosed := hinv.closed hbatch
  have hskipped : w.view.skipped = false := by
    by_contra hne
    exact hinv.tidy.held (Bool.eq_true_of_not_eq_false hne) hlocks
  have hvalue := (hclosed.2.2.1 hactive).value hskipped hclosed.2.1
  refine ⟨hvalue.1, ?_⟩
  intro hdelta
  rcases Option.ne_none_iff_exists'.mp (hvalue.2 hdelta) with ⟨a, ha⟩
  have heq := hvalue.1 a ha
  rw [show w.cached = some a from ha, heq]
  rfl

-- Sums, for the runs below.
def sumScan : LogScan Nat Nat := ⟨0, (· + ·)⟩

/-- A trim and an append while the scan is paused. -/
def pausedScan : List (ScanAct Nat) :=
  [.subscribe, .call (.append 5), .pause ⟨"a"⟩, .call (.append 7), .call (.trimHead 1),
    .resume ⟨"a"⟩]

theorem scan_eq_fold_pausedScan :
    (pausedScan.foldl (step none sumScan) (new none [1] : ScanWorld Nat Nat)).cached =
      some 12 := by
  have hsub : Admits (new none [1] : ScanWorld Nat Nat) .subscribe :=
    (rfl : (new none [1] : ScanWorld Nat Nat).batch = none)
  have hresume : Admits ((pausedScan.take 5).foldl (step none sumScan)
      (new none [1] : ScanWorld Nat Nat)) (.resume ⟨"a"⟩) := by
    intro _ _ _
    decide +kernel
  have hrun : Runs none sumScan (new none [1])
      (pausedScan.foldl (step none sumScan) (new none [1] : ScanWorld Nat Nat)) :=
    .tail (.tail (.tail (.tail (.tail (.tail .refl .subscribe hsub) (.call (.append 5)) trivial)
      (.pause ⟨"a"⟩) trivial) (.call (.append 7)) trivial) (.call (.trimHead 1)) trivial)
      (.resume ⟨"a"⟩) hresume
  have hfold := scan_eq_fold none sumScan [1] hrun (by decide +kernel) (by decide +kernel)
    (by decide +kernel)
  rw [hfold.2 (by decide +kernel)]
  decide +kernel

/-- A paused scan that takes two appended values and a clear at once keeps the sum of
    what it had. -/
theorem scan_skips_after_clear :
    ¬ ∀ (k : LogScan Nat Nat) (acts : List (ScanAct Nat)),
      (acts.foldl (step none k) (new none [])).batch = none →
      (acts.foldl (step none k) (new none [])).scan.aux.activated = true →
      (acts.foldl (step none k) (new none [])).scan.aux.pauseLockset = [] →
      ∀ a, (acts.foldl (step none k) (new none [])).cached = some a →
        a = (acts.foldl (step none k) (new none [])).content.foldl k.step k.initial := by
  intro h
  have hzero := h sumScan [.subscribe, .call (.append 1), .pause ⟨"a"⟩, .call (.appendMany [2, 3]),
    .call .clear, .resume ⟨"a"⟩] (by decide +kernel) (by decide +kernel) (by decide +kernel) 1
    (by decide +kernel)
  revert hzero
  decide +kernel

end ScanWorld

end GraphRefly.Collections
