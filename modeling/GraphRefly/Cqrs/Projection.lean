import GraphRefly.Cqrs.Runtime

/-!
# Projections

A projection folds the events of a command runtime into a value. It sees them a
wave at a time, passes over those its filter does not select, and answers each of
the others with a frame: the value after the event, or the error of a reducer that
has panicked on it.

A panic ends the wave. What a projection does is therefore the fold of all events
only as long as a wave holds no selected event behind one the reducer panics on.

## Main definitions

* `CqrsProjectionOptions.project`: The function of the frames node.
* `ProjectionNodes`, `CqrsProjectionOptions.run`: The nodes after some waves.
* `CqrsProjectionOptions.fold`, `framesOf`: What the events alone determine.
* `CqrsProjectionOptions.Undisturbed`: No selected event stands behind a panic.

## Theorems

* `project_of_undisturbed`, `undisturbed_of_length`: One wave.
* `projection_is_fold_iff`: All waves.
-/

namespace GraphRefly.Cqrs

open List

variable {S E : Type}

/-! ### Frames -/

inductive CqrsProjectionErrorCode
  | projectionThrew
  deriving DecidableEq

structure CqrsProjectionError where
  code : CqrsProjectionErrorCode
  message : String
  eventId : String
  eventType : String
  cursor : CqrsCursor
  deriving DecidableEq

inductive CqrsProjectionFrame (S : Type)
  | value (state : S) (eventId : String) (cursor : CqrsCursor)
  | error (error : CqrsProjectionError)
  deriving DecidableEq

/-- The reducer answers with the next value or panics with a message. -/
structure CqrsProjectionOptions (S E : Type) where
  events : Option (Finset String)
  initial : S
  reducer : S → CqrsEvent E → Except String S

def CqrsProjectionOptions.selects (opts : CqrsProjectionOptions S E) (event : CqrsEvent E) :
    Bool :=
  opts.events.all fun filter => decide (event.eventType ∈ filter)

def valueFrame (state : S) (event : CqrsEvent E) : CqrsProjectionFrame S :=
  .value state event.id event.runtimeCursor

def errorFrame (message : String) (event : CqrsEvent E) : CqrsProjectionFrame S :=
  .error
    { code := .projectionThrew
      message
      eventId := event.id
      eventType := event.eventType
      cursor := event.runtimeCursor }

/-! ### Waves -/

/-- What a wave leaves: the value kept for the next one, the frames that were emitted, and the
    panic that goes on unwinding, if there is one. -/
structure Projected (S : Type) where
  state : S
  frames : List (CqrsProjectionFrame S)
  unwound : Option String

/-- The function of the frames node, over the events of a wave. -/
def CqrsProjectionOptions.project (opts : CqrsProjectionOptions S E) :
    S → List (CqrsEvent E) → Projected S
  | state, [] => ⟨state, [], none⟩
  | state, event :: events =>
    if opts.selects event then
      match opts.reducer state event with
      | .ok next =>
        let rest := opts.project next events
        { rest with frames := valueFrame next event :: rest.frames }
      -- A panic of either kind leaves the rest of the wave unread.
      | .error panic =>
        if isGraphRuntimePanic panic then ⟨state, [], some panic⟩
        else ⟨state, [errorFrame panic event], none⟩
    else opts.project state events

/-- What the value node emits for some frames. -/
def projectionValues (frames : List (CqrsProjectionFrame S)) : List S :=
  frames.filterMap fun
    | .value state _ _ => some state
    | .error _ => none

/-- The nodes of a projection: the value the frames node keeps, what it has emitted, and the
    value of the value node. -/
structure ProjectionNodes (S : Type) where
  state : S
  frames : List (CqrsProjectionFrame S)
  value : Option S

section

variable (opts : CqrsProjectionOptions S E)

/-- The nodes before the first wave. -/
def CqrsProjectionOptions.start : ProjectionNodes S :=
  ⟨opts.initial, [], none⟩

def CqrsProjectionOptions.wave (nodes : ProjectionNodes S)
    (events : List (CqrsEvent E)) : ProjectionNodes S :=
  let projected := opts.project nodes.state events
  { state := projected.state
    frames := nodes.frames ++ projected.frames
    value := (projectionValues projected.frames).getLast?.or nodes.value }

/-- The nodes after some waves. -/
def CqrsProjectionOptions.run (waves : List (List (CqrsEvent E))) : ProjectionNodes S :=
  waves.foldl opts.wave opts.start

end

/-! ### What the events determine -/

section

variable (opts : CqrsProjectionOptions S E) (state : S)

/-- The value after an event, which is passed over if the reducer panics on it. -/
def CqrsProjectionOptions.reduced (event : CqrsEvent E) : S :=
  match opts.reducer state event with
  | .ok next => next
  | .error _ => state

/-- The left fold of the reducer over the selected ones of some events. -/
def CqrsProjectionOptions.fold (events : List (CqrsEvent E)) : S :=
  (events.filter opts.selects).foldl opts.reduced state

/-- The frame of an event. -/
def CqrsProjectionOptions.frame (event : CqrsEvent E) : CqrsProjectionFrame S :=
  match opts.reducer state event with
  | .ok next => valueFrame next event
  | .error panic => errorFrame panic event

end

/-- One frame for each of some selected events, in order. -/
def CqrsProjectionOptions.framesOf (opts : CqrsProjectionOptions S E) :
    S → List (CqrsEvent E) → List (CqrsProjectionFrame S)
  | _, [] => []
  | state, event :: events =>
    opts.frame state event :: opts.framesOf (opts.reduced state event) events

/-- The nodes tell of all events: the value is their fold, and each of those that are selected
    has its frame. The value node has a value once an event has been reduced. -/
structure CqrsProjectionOptions.Faithful (opts : CqrsProjectionOptions S E)
    (events : List (CqrsEvent E)) (nodes : ProjectionNodes S) : Prop where
  state : nodes.state = opts.fold opts.initial events
  frames : nodes.frames = opts.framesOf opts.initial (events.filter opts.selects)
  value : nodes.value =
    if projectionValues nodes.frames = [] then none else some (opts.fold opts.initial events)

/-- The reducer panics on none of some selected events but the last one, and there not with a
    panic of the graph. -/
def CqrsProjectionOptions.Undisturbed (opts : CqrsProjectionOptions S E) :
    S → List (CqrsEvent E) → Prop
  | _, [] => True
  | state, event :: events =>
    match opts.reducer state event with
    | .ok next => opts.Undisturbed next events
    | .error panic => isGraphRuntimePanic panic = false ∧ events = []

variable {opts : CqrsProjectionOptions S E}

/-! ### One wave -/

theorem project_filter (state : S) (events : List (CqrsEvent E)) :
    opts.project state events = opts.project state (events.filter opts.selects) := by
  induction events generalizing state with
  | nil => rfl
  | cons event events ih =>
    cases hselects : opts.selects event with
    | false =>
      rw [filter_cons_of_neg (by rw [hselects]; exact Bool.false_ne_true), ← ih,
        CqrsProjectionOptions.project, if_neg (by rw [hselects]; exact Bool.false_ne_true)]
    | true =>
      rw [filter_cons_of_pos hselects, CqrsProjectionOptions.project,
        CqrsProjectionOptions.project, if_pos hselects, if_pos hselects]
      cases opts.reducer state event with
      | ok next => simp only [ih next]
      | error panic => rfl

section Selected

variable {events : List (CqrsEvent E)} (hselected : ∀ event ∈ events, opts.selects event = true)

include hselected

/-- A wave without an event behind a panic is folded to its end, a frame for each event. -/
theorem project_of_undisturbed {state : S} (h : opts.Undisturbed state events) :
    opts.project state events =
      ⟨events.foldl opts.reduced state, opts.framesOf state events, none⟩ := by
  induction events generalizing state with
  | nil => rfl
  | cons event events ih =>
    have hrest : ∀ event ∈ events, opts.selects event = true := fun event hmem =>
      hselected event (mem_cons_of_mem _ hmem)
    rw [CqrsProjectionOptions.project, if_pos (hselected event mem_cons_self),
      foldl_cons, CqrsProjectionOptions.framesOf, CqrsProjectionOptions.frame,
      CqrsProjectionOptions.reduced]
    rw [CqrsProjectionOptions.Undisturbed] at h
    cases hreduced : opts.reducer state event with
    | ok next =>
      rw [hreduced] at h
      simp only [ih hrest h]
    | error panic =>
      rw [hreduced] at h
      obtain ⟨hown, rfl⟩ := h
      simp only [hown, Bool.false_eq_true, if_false]
      rfl

/-- A wave has at most one frame for each event, and fewer if an event stands behind a panic or
    the panic is one of the graph. -/
theorem length_frames (state : S) :
    (opts.project state events).frames.length ≤ events.length ∧
      ((opts.project state events).frames.length = events.length →
        opts.Undisturbed state events) := by
  induction events generalizing state with
  | nil => exact ⟨le_rfl, fun _ => trivial⟩
  | cons event events ih =>
    have hrest : ∀ event ∈ events, opts.selects event = true := fun event hmem =>
      hselected event (mem_cons_of_mem _ hmem)
    rw [CqrsProjectionOptions.project, if_pos (hselected event mem_cons_self),
      CqrsProjectionOptions.Undisturbed]
    cases hreduced : opts.reducer state event with
    | ok next =>
      obtain ⟨hle, hall⟩ := ih hrest next
      simp only [length_cons]
      exact ⟨by omega, fun hlength => hall (by omega)⟩
    | error panic =>
      simp only []
      split_ifs with hgraph
      · exact ⟨Nat.zero_le _, fun hlength => absurd hlength (by simp)⟩
      · refine ⟨by simp, fun hlength => ⟨Bool.eq_false_of_not_eq_true hgraph, ?_⟩⟩
        rw [length_singleton, length_cons] at hlength
        exact length_eq_zero_iff.mp (by omega)

end Selected

theorem length_framesOf (state : S) (events : List (CqrsEvent E)) :
    (opts.framesOf state events).length = events.length := by
  induction events generalizing state with
  | nil => rfl
  | cons event events ih =>
    rw [CqrsProjectionOptions.framesOf, length_cons, ih, length_cons]

theorem framesOf_append (state : S) (events more : List (CqrsEvent E)) :
    opts.framesOf state (events ++ more) =
      opts.framesOf state events ++ opts.framesOf (events.foldl opts.reduced state) more := by
  induction events generalizing state with
  | nil => rfl
  | cons event events ih =>
    rw [cons_append, CqrsProjectionOptions.framesOf, CqrsProjectionOptions.framesOf, ih,
      cons_append, foldl_cons]

/-- The last value among the frames of some events is their fold; if there is none, the fold
    has stayed where it was. -/
theorem values_framesOf (state : S) (events : List (CqrsEvent E)) :
    (projectionValues (opts.framesOf state events)).getLast? =
        (if projectionValues (opts.framesOf state events) = [] then none
          else some (events.foldl opts.reduced state)) ∧
      (projectionValues (opts.framesOf state events) = [] →
        events.foldl opts.reduced state = state) := by
  induction events generalizing state with
  | nil => exact ⟨rfl, fun _ => rfl⟩
  | cons event events ih =>
    obtain ⟨hlast, hnone⟩ := ih (opts.reduced state event)
    rw [CqrsProjectionOptions.framesOf, CqrsProjectionOptions.frame, foldl_cons]
    rw [CqrsProjectionOptions.reduced] at hlast hnone ⊢
    cases hreduced : opts.reducer state event with
    | error panic =>
      rw [hreduced] at hlast hnone
      exact ⟨hlast, hnone⟩
    | ok next =>
      rw [hreduced] at hlast hnone
      simp only at hlast hnone ⊢
      have hvalues : projectionValues (valueFrame next event :: opts.framesOf next events) =
          next :: projectionValues (opts.framesOf next events) := rfl
      rw [hvalues, if_neg (cons_ne_nil _ _), List.getLast?_cons, hlast]
      refine ⟨?_, fun h => absurd h (cons_ne_nil _ _)⟩
      by_cases hempty : projectionValues (opts.framesOf next events) = []
      · rw [if_pos hempty, hnone hempty]
        rfl
      · rw [if_neg hempty]
        rfl

/-! ### All waves -/

theorem run_concat (waves : List (List (CqrsEvent E))) (wave : List (CqrsEvent E)) :
    opts.run (waves ++ [wave]) = opts.wave (opts.run waves) wave := by
  rw [CqrsProjectionOptions.run, foldl_append]
  rfl

theorem fold_append (state : S) (events more : List (CqrsEvent E)) :
    opts.fold state (events ++ more) = opts.fold (opts.fold state events) more := by
  rw [CqrsProjectionOptions.fold, filter_append, foldl_append]
  rfl

theorem run_value (waves : List (List (CqrsEvent E))) :
    (opts.run waves).value = (projectionValues (opts.run waves).frames).getLast? := by
  induction waves using List.reverseRecOn with
  | nil => rfl
  | append_singleton waves wave ih =>
    have hvalue : (opts.run (waves ++ [wave])).value =
        (projectionValues (opts.project (opts.run waves).state wave).frames).getLast?.or
          (opts.run waves).value := by rw [run_concat]; rfl
    have hframes : (opts.run (waves ++ [wave])).frames = (opts.run waves).frames ++
        (opts.project (opts.run waves).state wave).frames := by rw [run_concat]; rfl
    rw [hvalue, hframes, ih, projectionValues, projectionValues, projectionValues,
      filterMap_append, List.getLast?_append]

theorem faithful_of {events : List (CqrsEvent E)} {waves : List (List (CqrsEvent E))}
    (hstate : (opts.run waves).state = opts.fold opts.initial events)
    (hframes : (opts.run waves).frames =
      opts.framesOf opts.initial (events.filter opts.selects)) :
    opts.Faithful events (opts.run waves) := by
  refine ⟨hstate, hframes, ?_⟩
  rw [run_value, hframes]
  exact (values_framesOf opts.initial (events.filter opts.selects)).1

theorem concat_faithful_iff {waves : List (List (CqrsEvent E))} {wave : List (CqrsEvent E)}
    (h : opts.Faithful waves.flatten (opts.run waves)) :
    opts.Faithful (waves ++ [wave]).flatten (opts.run (waves ++ [wave])) ↔
      opts.Undisturbed (opts.fold opts.initial waves.flatten) (wave.filter opts.selects) := by
  have hselected : ∀ event ∈ wave.filter opts.selects, opts.selects event = true :=
    fun event hmem => (mem_filter.mp hmem).2
  have hflatten : (waves ++ [wave]).flatten = waves.flatten ++ wave := by simp
  have hstate : (opts.run (waves ++ [wave])).state =
      (opts.project (opts.fold opts.initial waves.flatten) (wave.filter opts.selects)).state := by
    rw [run_concat, ← project_filter, ← h.state]
    rfl
  have hframes : (opts.run (waves ++ [wave])).frames =
      opts.framesOf opts.initial (waves.flatten.filter opts.selects) ++
        (opts.project (opts.fold opts.initial waves.flatten)
          (wave.filter opts.selects)).frames := by
    rw [run_concat, ← project_filter, ← h.state, ← h.frames]
    rfl
  rw [hflatten]
  constructor
  · intro hfaithful
    have hlength := congrArg List.length (hframes.symm.trans hfaithful.frames)
    rw [length_append, length_framesOf, length_framesOf, filter_append,
      length_append] at hlength
    exact (length_frames hselected _).2 (by omega)
  · intro hundisturbed
    rw [project_of_undisturbed hselected hundisturbed] at hstate hframes
    rw [← hflatten]
    refine faithful_of ?_ ?_
    · rw [hstate, hflatten, fold_append]
      rfl
    · rw [hframes, hflatten, filter_append, framesOf_append]
      rfl

/-- After every wave the nodes tell of all events delivered so far, if and only if no wave holds a
    selected event behind one on which the reducer panics, and no panic is one of the graph. -/
theorem projection_is_fold_iff (opts : CqrsProjectionOptions S E)
    (waves : List (List (CqrsEvent E))) :
    (∀ k ≤ waves.length, opts.Faithful (waves.take k).flatten (opts.run (waves.take k))) ↔
      ∀ k wave, waves[k]? = some wave →
        opts.Undisturbed (opts.fold opts.initial (waves.take k).flatten)
          (wave.filter opts.selects) := by
  have hstart : opts.Faithful [] (opts.run []) := ⟨rfl, rfl, rfl⟩
  have htake {k : Nat} {wave : List (CqrsEvent E)} (hk : waves[k]? = some wave) :
      waves.take (k + 1) = waves.take k ++ [wave] := by
    rw [take_add_one, hk]
    rfl
  constructor
  · intro h k wave hk
    have hlength := (List.getElem?_eq_some_iff.mp hk).1
    have hafter := h (k + 1) hlength
    rw [htake hk] at hafter
    exact (concat_faithful_iff (h k (by omega))).mp hafter
  · intro h k
    induction k with
    | zero => exact fun _ => hstart
    | succ k ih =>
      intro hk
      have hwave := List.getElem?_eq_getElem (show k < waves.length by omega)
      rw [htake hwave]
      exact (concat_faithful_iff (ih (by omega))).mpr (h k _ hwave)

/-- Adds up amounts, and panics on an amount of zero. -/
def totalOptions : CqrsProjectionOptions Nat Nat :=
  { events := none
    initial := 0
    reducer := fun total event =>
      if event.payload = 0 then .error "amount is zero" else .ok (total + event.payload) }

def amountEvent (seq amount : Nat) : CqrsEvent Nat :=
  { id := "event"
    eventType := "amount"
    seq := seq
    cursor := seq
    runtimeCursor := ⟨seq, 0, 0, 0, none⟩
    commandId := "command"
    commandType := "pay"
    payload := amount
    timestampMs := 0
    aggregateId := none
    correlationId := none
    causationId := none }

/-- An amount behind one the reducer panics on is left out, in the value and in the frames. -/
theorem amount_behind_panic :
    (totalOptions.run [[amountEvent 1 0, amountEvent 2 5]]).state = 0 ∧
      totalOptions.fold 0 [amountEvent 1 0, amountEvent 2 5] = 5 ∧
      (totalOptions.run [[amountEvent 1 0, amountEvent 2 5]]).frames =
        [errorFrame "amount is zero" (amountEvent 1 0)] ∧
      ¬ totalOptions.Faithful [amountEvent 1 0, amountEvent 2 5]
        (totalOptions.run [[amountEvent 1 0, amountEvent 2 5]]) := by
  have hown : isGraphRuntimePanic "amount is zero" = false := by decide +kernel
  have hproject : totalOptions.project 0 [amountEvent 1 0, amountEvent 2 5] =
      ⟨0, [errorFrame "amount is zero" (amountEvent 1 0)], none⟩ := by
    rw [CqrsProjectionOptions.project]
    simp [totalOptions, CqrsProjectionOptions.selects, amountEvent, hown]
  have hrun : totalOptions.run [[amountEvent 1 0, amountEvent 2 5]] =
      ⟨0, [errorFrame "amount is zero" (amountEvent 1 0)], none⟩ := by
    have hwave : totalOptions.run [[amountEvent 1 0, amountEvent 2 5]] =
        totalOptions.wave totalOptions.start [amountEvent 1 0, amountEvent 2 5] := rfl
    have hstart : (totalOptions.start : ProjectionNodes Nat).state = 0 := rfl
    rw [hwave, CqrsProjectionOptions.wave, hstart, hproject]
    rfl
  rw [hrun]
  refine ⟨rfl, rfl, rfl, fun h => ?_⟩
  exact absurd h.state (by decide)

end GraphRefly.Cqrs
