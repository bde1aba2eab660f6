import GraphRefly.Process.Runtime
import GraphRefly.Lib.Numbered

/-!
# Atomic Steps

A command passes every check or fails one. If it fails one, nothing of the process
changes; if it passes, the process has the new state and exactly the events and effects
of the reducer. Over a run the events and the effects are each numbered without gaps,
and no identifier is given twice.

## Main definitions

* `Passed`: What a command that passes every check has computed.
* `Turn.Rejected`, `Turn.Accepted`: The two outcomes.
* `Atomic`: The accounts of a run.

## Theorems

* `reduceProcessCommandFact_cases`: What one command does.
* `Atomic.book`: One more turn keeps the accounts.
* `steps_atomic`: The accounts of every run.
-/

namespace GraphRefly.Process

open List GraphRefly.Lib GraphRefly.Json

variable {C S E X F : Type}

/-! ### One command -/

/-- What a command that passes every check has computed. -/
structure Passed (codec : StateCodec F S) (reduce : ProcessReducer C S E X)
    (now : Except String Nat) (state : RuntimeState F) (command : ProcessCommand C) where
  reducerState : S
  reduction : ProcessReduction S E X
  nextState : Value F
  visible : S
  events : List (PreparedDraft E)
  effects : List (PreparedDraft X)
  timestampMs : Nat
  id_ne : command.id ≠ ""
  type_ne : command.commandType ≠ ""
  read : stateFromJson codec state.state = .ok reducerState
  reduced : reduce command reducerState = .ok reduction
  written : stateToJson codec reduction.state = .ok nextState
  shown : stateFromJson codec nextState = .ok visible
  preparedEvents : prepareEvents command reduction.events state = .ok events
  preparedEffects : prepareEffects command reduction.effects state = .ok effects
  clock : processTimestamp now = .ok timestampMs

/-- The state with one more command counted. -/
def RuntimeState.count (state : RuntimeState F) : RuntimeState F :=
  { state with commandCount := state.commandCount + 1 }

/-- What one command can do. -/
inductive Reduced (codec : StateCodec F S) (reduce : ProcessReducer C S E X)
    (now : Except String Nat) (state : RuntimeState F) (command : ProcessCommand C) :
    RuntimeState F × List (ProcessRuntimeFact S E X C) → Prop
  | failed (code : ProcessErrorCode) (message : String)
      (fails : IsEmpty (Passed codec reduce now state command)) :
      Reduced codec reduce now state command (failure state.count (some command) code message)
  | accepted (passed : Passed codec reduce now state command) :
      Reduced codec reduce now state command
        (accept state.count command passed.nextState passed.visible passed.events passed.effects
          passed.timestampMs)

section Command

variable {codec : StateCodec F S} {reduce : ProcessReducer C S E X} {now : Except String Nat}
  {state : RuntimeState F} {command : ProcessCommand C}

theorem reduceProcessCommandFact_cases
    {out : RuntimeState F × List (ProcessRuntimeFact S E X C)}
    (h : reduceProcessCommandFact codec reduce now state command = .ok out) :
    Reduced codec reduce now state command out := by
  simp only [reduceProcessCommandFact] at h
  by_cases hid : command.id = ""
  · rw [if_pos hid] at h
    cases h
    exact .failed _ _ ⟨fun p => p.id_ne hid⟩
  rw [if_neg hid] at h
  by_cases htype : command.commandType = ""
  · rw [if_pos htype] at h
    cases h
    exact .failed _ _ ⟨fun p => p.type_ne htype⟩
  rw [if_neg htype] at h
  cases hread : stateFromJson codec state.state with
  | error message =>
    simp only [hread] at h
    cases h
    exact .failed _ _ ⟨fun p => nomatch hread.symm.trans p.read⟩
  | ok reducerState =>
  simp only [hread] at h
  cases hreduced : reduce command reducerState with
  | error panic =>
    simp only [hreduced] at h
    have hfails : IsEmpty (Passed codec reduce now state command) := by
      refine ⟨fun p => ?_⟩
      obtain rfl := Except.ok.inj (hread.symm.trans p.read)
      exact nomatch hreduced.symm.trans p.reduced
    split at h
    · cases h
    · cases h
      exact .failed _ _ hfails
  | ok reduction =>
  simp only [hreduced] at h
  -- What the reducer is given and what it answers are the same in every pass.
  have hsame : ∀ p : Passed codec reduce now state command, p.reduction = reduction := by
    intro p
    obtain rfl := Except.ok.inj (hread.symm.trans p.read)
    exact (Except.ok.inj (hreduced.symm.trans p.reduced)).symm
  have hwritten' : ∀ p : Passed codec reduce now state command,
      stateToJson codec reduction.state = .ok p.nextState := fun p => hsame p ▸ p.written
  have hevents' : ∀ p : Passed codec reduce now state command,
      prepareEvents command reduction.events state = .ok p.events :=
    fun p => hsame p ▸ p.preparedEvents
  have heffects' : ∀ p : Passed codec reduce now state command,
      prepareEffects command reduction.effects state = .ok p.effects :=
    fun p => hsame p ▸ p.preparedEffects
  cases hwritten : stateToJson codec reduction.state with
  | error message =>
    simp only [hwritten] at h
    cases h
    exact .failed _ _ ⟨fun p => nomatch hwritten.symm.trans (hwritten' p)⟩
  | ok nextState =>
  simp only [hwritten] at h
  cases hshown : stateFromJson codec nextState with
  | error message =>
    simp only [hshown] at h
    cases h
    refine .failed _ _ ⟨fun p => ?_⟩
    obtain rfl := Except.ok.inj (hwritten.symm.trans (hwritten' p))
    exact nomatch hshown.symm.trans p.shown
  | ok visible =>
  simp only [hshown] at h
  cases hevents : prepareEvents command reduction.events state.count with
  | error message =>
    simp only [RuntimeState.count] at hevents
    simp only [hevents] at h
    cases h
    exact .failed _ _ ⟨fun p => nomatch hevents.symm.trans (hevents' p)⟩
  | ok events =>
  simp only [RuntimeState.count] at hevents
  simp only [hevents] at h
  cases heffects : prepareEffects command reduction.effects state.count with
  | error message =>
    simp only [RuntimeState.count] at heffects
    simp only [heffects] at h
    cases h
    exact .failed _ _ ⟨fun p => nomatch heffects.symm.trans (heffects' p)⟩
  | ok effects =>
  simp only [RuntimeState.count] at heffects
  simp only [heffects] at h
  cases hclock : processTimestamp now with
  | error message =>
    simp only [hclock] at h
    cases h
    exact .failed _ _ ⟨fun p => nomatch hclock.symm.trans p.clock⟩
  | ok timestampMs =>
    simp only [hclock] at h
    cases h
    exact .accepted ⟨reducerState, reduction, nextState, visible, events, effects,
      timestampMs, hid,
      htype, hread, hreduced, hwritten, hshown, hevents, heffects, hclock⟩

theorem reduceProcessCommandFact_total (codec : StateCodec F S) (now : Except String Nat)
    (state : RuntimeState F)
    (hcalm : ∀ reducerState panic, reduce command reducerState = .error panic →
      isGraphRuntimePanic panic = false) :
    ∃ out, reduceProcessCommandFact codec reduce now state command = .ok out := by
  simp only [reduceProcessCommandFact]
  split
  · exact ⟨_, rfl⟩
  split
  · exact ⟨_, rfl⟩
  split
  · exact ⟨_, rfl⟩
  split
  case h_1 reducerState hread panic hpanic =>
    rw [hcalm _ _ hpanic]
    exact ⟨_, rfl⟩
  case h_2 =>
    split
    · exact ⟨_, rfl⟩
    split
    · exact ⟨_, rfl⟩
    split
    · exact ⟨_, rfl⟩
    split
    · exact ⟨_, rfl⟩
    split <;> exact ⟨_, rfl⟩

end Command

/-! ### The events and effects of a command -/

section Items

variable {T : Type} {command : ProcessCommand C}

/-- Drafts as they are emitted, numbered on from a counter. -/
def itemsFrom (command : ProcessCommand C) (timestampMs : Nat) :
    Nat → List (PreparedDraft T) → List (ProcessItem T)
  | _, [] => []
  | seq, draft :: drafts =>
    draft.item command timestampMs (seq + 1) :: itemsFrom command timestampMs (seq + 1) drafts

section

variable (timestampMs seq : Nat) (drafts : List (PreparedDraft T))

theorem itemsFrom_numbered :
    Numbered ProcessItem.seq (seq + 1) (itemsFrom command timestampMs seq drafts) := by
  induction drafts generalizing seq with
  | nil => exact Numbered.nil _
  | cons draft drafts ih => exact (ih (seq + 1)).cons rfl

@[simp] theorem itemsFrom_length :
    (itemsFrom command timestampMs seq drafts).length = drafts.length := by
  induction drafts generalizing seq with
  | nil => rfl
  | cons draft drafts ih => rw [itemsFrom, length_cons, ih, length_cons]

@[simp] theorem itemsFrom_ids : (itemsFrom command timestampMs seq drafts).map ProcessItem.id =
      drafts.map PreparedDraft.id := by
  induction drafts generalizing seq with
  | nil => rfl
  | cons draft drafts ih =>
    rw [itemsFrom, map_cons, ih, map_cons]
    rfl

end

theorem emitEvents_eq (timestampMs : Nat) (state : RuntimeState F)
    (drafts : List (PreparedDraft E)) :
    emitEvents command timestampMs state drafts =
      ({ state with
          eventSeq := state.eventSeq + drafts.length
          seenEventIds := state.seenEventIds ++ drafts.map PreparedDraft.id },
        itemsFrom command timestampMs state.eventSeq drafts) := by
  induction drafts generalizing state with
  | nil => simp [emitEvents, itemsFrom]
  | cons draft drafts ih =>
    rw [emitEvents, ih]
    simp only [itemsFrom, length_cons, map_cons, append_assoc, cons_append,
      nil_append]
    have hcount : ∀ seq : Nat, seq + 1 + drafts.length = seq + (drafts.length + 1) := by omega
    rw [hcount]

theorem emitEffects_eq (timestampMs : Nat) (state : RuntimeState F)
    (drafts : List (PreparedDraft X)) :
    emitEffects command timestampMs state drafts =
      ({ state with
          effectSeq := state.effectSeq + drafts.length
          seenEffectIds := state.seenEffectIds ++ drafts.map PreparedDraft.id },
        itemsFrom command timestampMs state.effectSeq drafts) := by
  induction drafts generalizing state with
  | nil => simp [emitEffects, itemsFrom]
  | cons draft drafts ih =>
    rw [emitEffects, ih]
    simp only [itemsFrom, length_cons, map_cons, append_assoc, cons_append,
      nil_append]
    have hcount : ∀ seq : Nat, seq + 1 + drafts.length = seq + (drafts.length + 1) := by omega
    rw [hcount]

/-- An item is made of the draft at a place among the drafts of a command. -/
def FromDraft (noun : String) (command : ProcessCommand C) (seq : Nat)
    (draft : ProcessDraft T × Nat) (item : ProcessItem T) : Prop :=
  item.id = (draft.1.id.filter fun id => id ≠ "").getD
      (compoundTupleKey ("process-" ++ noun) [command.id, toString (seq + draft.2 + 1)]) ∧
    item.itemType = draft.1.draftType ∧ item.payload = draft.1.payload ∧
      item.processId = draft.1.processId ∧ item.correlationId = draft.1.correlationId ∧
        item.causationId = draft.1.causationId ∧ item.commandId = command.id ∧
          item.commandType = command.commandType

theorem fromDraft {noun : String} {seq timestampMs start : Nat}
    {drafts : List (ProcessDraft T × Nat)}
    {prepared : List (PreparedDraft T)}
    (h : List.Forall₂ (fun draft item => prepareDraft noun command seq draft.2 draft.1 = .ok item)
      drafts prepared) :
    List.Forall₂ (FromDraft noun command seq) drafts
      (itemsFrom command timestampMs start prepared) := by
  induction h generalizing start with
  | nil => exact .nil
  | cons hhead _ ih =>
    refine .cons ?_ ih
    rw [prepareDraft] at hhead
    split at hhead
    · cases hhead
    · cases hhead
      exact ⟨rfl, rfl, rfl, rfl, rfl, rfl, rfl, rfl⟩

end Items

/-! ### A run of commands -/

/-- A command, with what the clock does when it comes, and whether the state is replaced by
    what its JSON value reads back as before. -/
structure CommandStep (C : Type) where
  command : ProcessCommand C
  now : Except String Nat
  reload : Bool

/-- A command with the states around it and the facts it emitted. -/
structure Turn (C S E X F : Type) where
  step : CommandStep C
  before : RuntimeState F
  facts : List (ProcessRuntimeFact S E X C)
  after : RuntimeState F

structure World (C S E X F : Type) where
  state : RuntimeState F
  turns : List (Turn C S E X F)

def World.initial (C S E X : Type) (state : Value F) : World C S E X F := ⟨.new state, []⟩

/-- One more command. -/
def World.step (codec : StateCodec F S) (reduce : ProcessReducer C S E X) (w : World C S E X F)
    (step : CommandStep C) : Except String (World C S E X F) :=
  match if step.reload then RuntimeState.fromJson w.state.toJson else .ok w.state with
  | .error message => .error message
  | .ok before =>
    match reduceProcessCommandFact codec reduce step.now before step.command with
    | .error panic => .error panic
    | .ok (after, facts) => .ok ⟨after, w.turns ++ [⟨step, before, facts, after⟩]⟩

def commandRun (codec : StateCodec F S) (reduce : ProcessReducer C S E X) :
    List (CommandStep C) → World C S E X F → Except String (World C S E X F)
  | [], w => .ok w
  | step :: steps, w => (w.step codec reduce step).bind (commandRun codec reduce steps)

section

variable (facts : List (ProcessRuntimeFact S E X C))

def statesOf : List S :=
  facts.filterMap fun
    | .state state _ => some state
    | _ => none

def eventsOf : List (ProcessEvent E) :=
  facts.filterMap fun
    | .event event => some event
    | _ => none

def effectsOf : List (ProcessEffectRequest X) :=
  facts.filterMap fun
    | .effectRequest effect => some effect
    | _ => none

def statusesOf : List ProcessStatus :=
  facts.filterMap fun
    | .status status => some status
    | _ => none

end

def World.facts (w : World C S E X F) : List (ProcessRuntimeFact S E X C) :=
  w.turns.flatMap Turn.facts

def Turn.hasStatus (state : ProcessStatusState) (t : Turn C S E X F) : Bool :=
  (statusesOf t.facts).any fun status => decide (status.state = state)

/-- A rejected command changes nothing of the process and emits nothing of it. -/
structure Turn.Rejected (t : Turn C S E X F) : Prop where
  status : (statusesOf t.facts).map (·.state) = [.rejected]
  state : t.after.state = t.before.state
  eventSeq : t.after.eventSeq = t.before.eventSeq
  effectSeq : t.after.effectSeq = t.before.effectSeq
  seenEventIds : t.after.seenEventIds = t.before.seenEventIds
  seenEffectIds : t.after.seenEffectIds = t.before.seenEffectIds
  states : statesOf t.facts = []
  events : eventsOf t.facts = []
  effects : effectsOf t.facts = []

/-- An accepted command leaves the reducer's state and emits it with exactly its events and
    effects. -/
structure Turn.Accepted (codec : StateCodec F S) (reduce : ProcessReducer C S E X)
    (t : Turn C S E X F) (passed : Passed codec reduce t.step.now t.before t.step.command) :
    Prop where
  status : (statusesOf t.facts).map (·.state) = [.accepted]
  state : t.after.state = passed.nextState
  states : statesOf t.facts = [passed.visible]
  events : List.Forall₂ (FromDraft "event" t.step.command t.before.eventSeq)
    passed.reduction.events.zipIdx (eventsOf t.facts)
  effects : List.Forall₂ (FromDraft "effect" t.step.command t.before.effectSeq)
    passed.reduction.effects.zipIdx (effectsOf t.facts)

/-- A command is rejected exactly when it fails a check. -/
def Turn.Decided (codec : StateCodec F S) (reduce : ProcessReducer C S E X)
    (t : Turn C S E X F) : Prop :=
  IsEmpty (Passed codec reduce t.step.now t.before t.step.command) ∧ t.Rejected ∨
    ∃ passed, t.Accepted codec reduce passed

/-- The accounts of a run. -/
structure Atomic (codec : StateCodec F S) (reduce : ProcessReducer C S E X)
    (w : World C S E X F) : Prop where
  decided : ∀ t ∈ w.turns, t.Decided codec reduce
  eventSeqs : Numbered ProcessItem.seq 1 (eventsOf w.facts)
  effectSeqs : Numbered ProcessItem.seq 1 (effectsOf w.facts)
  eventIds : ((eventsOf w.facts).map ProcessItem.id).Nodup
  effectIds : ((effectsOf w.facts).map ProcessItem.id).Nodup
  /-- The state that was shown last is what the persisted one reads back as. -/
  shown : ∀ visible, (statesOf w.facts).getLast? = some visible →
    stateFromJson codec w.state.state = .ok visible
  commandCount : w.state.commandCount =
    w.turns.countP (Turn.hasStatus .accepted) + w.state.errorCount
  errorCount : w.state.errorCount = w.turns.countP (Turn.hasStatus .rejected)
  counted : w.state.commandCount = w.turns.length
  auditSeq : w.state.auditSeq = w.state.commandCount
  eventSeq : w.state.eventSeq = (eventsOf w.facts).length
  effectSeq : w.state.effectSeq = (effectsOf w.facts).length
  seenEventIds : w.state.seenEventIds = (eventsOf w.facts).map ProcessItem.id
  seenEffectIds : w.state.seenEffectIds = (effectsOf w.facts).map ProcessItem.id

section Run

variable {codec : StateCodec F S} {reduce : ProcessReducer C S E X} {w w' : World C S E X F}

/-- What one turn adds to the accounts. -/
structure Booked (codec : StateCodec F S) (reduce : ProcessReducer C S E X)
    (t : Turn C S E X F) : Prop where
  decided : t.Decided codec reduce
  status : t.hasStatus .rejected = true ∧ t.hasStatus .accepted = false ∧
      t.after.errorCount = t.before.errorCount + 1 ∨
    t.hasStatus .rejected = false ∧ t.hasStatus .accepted = true ∧
      t.after.errorCount = t.before.errorCount
  commandCount : t.after.commandCount = t.before.commandCount + 1
  auditSeq : t.after.auditSeq = t.before.auditSeq + 1
  events : Numbered ProcessItem.seq (t.before.eventSeq + 1) (eventsOf t.facts)
  effects : Numbered ProcessItem.seq (t.before.effectSeq + 1) (effectsOf t.facts)
  eventIds : (t.before.seenEventIds).Nodup →
    (t.before.seenEventIds ++ (eventsOf t.facts).map ProcessItem.id).Nodup
  effectIds : (t.before.seenEffectIds).Nodup →
    (t.before.seenEffectIds ++ (effectsOf t.facts).map ProcessItem.id).Nodup
  shown : statesOf t.facts = [] ∧ t.after.state = t.before.state ∨
    ∃ visible, statesOf t.facts = [visible] ∧ stateFromJson codec t.after.state = .ok visible
  eventSeq : t.after.eventSeq = t.before.eventSeq + (eventsOf t.facts).length
  effectSeq : t.after.effectSeq = t.before.effectSeq + (effectsOf t.facts).length
  seenEventIds : t.after.seenEventIds =
    t.before.seenEventIds ++ (eventsOf t.facts).map ProcessItem.id
  seenEffectIds : t.after.seenEffectIds =
    t.before.seenEffectIds ++ (effectsOf t.facts).map ProcessItem.id

theorem accept_facts (state : RuntimeState F) (command : ProcessCommand C) (nextState : Value F)
    (visible : S) (events : List (PreparedDraft E)) (effects : List (PreparedDraft X))
    (timestampMs : Nat) :
    let out := accept state command nextState visible events effects timestampMs
    statesOf out.2 = [visible] ∧
      eventsOf out.2 = itemsFrom command timestampMs state.eventSeq events ∧
        effectsOf out.2 = itemsFrom command timestampMs state.effectSeq effects ∧
          (statusesOf out.2).map (·.state) = [.accepted] := by
  simp [accept, emitEvents_eq, emitEffects_eq, statesOf, eventsOf, effectsOf, statusesOf,
    filterMap_map]

theorem accept_state (state : RuntimeState F) (command : ProcessCommand C) (nextState : Value F)
    (visible : S) (events : List (PreparedDraft E)) (effects : List (PreparedDraft X))
    (timestampMs : Nat) :
    (accept state command nextState visible events effects timestampMs).1 =
      { state with
        state := nextState
        eventSeq := state.eventSeq + events.length
        seenEventIds := state.seenEventIds ++ events.map PreparedDraft.id
        effectSeq := state.effectSeq + effects.length
        seenEffectIds := state.seenEffectIds ++ effects.map PreparedDraft.id
        auditSeq := state.auditSeq + 1 } := by
  simp [accept, auditRecord, emitEvents_eq, emitEffects_eq]

theorem prepareDrafts_nodup {T : Type} {noun : String} {command : ProcessCommand C}
    {drafts : List (ProcessDraft T)} {seq : Nat} {seenIds : List String}
    {prepared : List (PreparedDraft T)}
    (h : prepareDrafts noun command drafts seq seenIds = .ok prepared) (hseen : seenIds.Nodup) :
    (seenIds ++ prepared.map PreparedDraft.id).Nodup := by
  have hprepared := prepareFresh_ok h
  refine hseen.append hprepared.nodup ?_
  intro id hid hnew
  obtain ⟨item, hitem, rfl⟩ := mem_map.mp hnew
  exact (hprepared.fresh item hitem).1 hid

theorem Reduced.booked {step : CommandStep C} {before : RuntimeState F}
    {out : RuntimeState F × List (ProcessRuntimeFact S E X C)}
    (h : Reduced codec reduce step.now before step.command out) :
    Booked codec reduce ⟨step, before, out.2, out.1⟩ := by
  cases h with
  | failed code message fails =>
    have hsame : ∀ ids : List String, ids.Nodup → (ids ++ []).Nodup := by
      intro ids hids
      rwa [append_nil]
    exact
      { decided := Or.inl ⟨fails, rfl, rfl, rfl, rfl, rfl, rfl, rfl, rfl, rfl⟩
        status := Or.inl ⟨rfl, rfl, rfl⟩
        commandCount := rfl
        auditSeq := rfl
        events := Numbered.nil _
        effects := Numbered.nil _
        eventIds := hsame _
        effectIds := hsame _
        shown := Or.inl ⟨rfl, rfl⟩
        eventSeq := rfl
        effectSeq := rfl
        seenEventIds := (append_nil _).symm
        seenEffectIds := (append_nil _).symm }
  | accepted passed =>
    obtain ⟨hstates, hevents, heffects, hstatus⟩ :=
      accept_facts (S := S) before.count step.command
      passed.nextState passed.visible passed.events passed.effects passed.timestampMs
    have hstate := accept_state (S := S) before.count step.command passed.nextState passed.visible
      passed.events passed.effects passed.timestampMs
    generalize accept before.count step.command passed.nextState passed.visible passed.events
      passed.effects passed.timestampMs = out at *
    obtain ⟨after, facts⟩ := out
    simp only at hstates hevents heffects hstatus hstate
    obtain ⟨status, hone, hstatus⟩ := map_eq_singleton_iff.mp hstatus
    have hpreparedEvents := passed.preparedEvents
    have hpreparedEffects := passed.preparedEffects
    subst hstate
    refine
      { decided := Or.inr ⟨passed, ?_, rfl, hstates, ?_, ?_⟩
        status := Or.inr ⟨?_, ?_, rfl⟩
        commandCount := rfl
        auditSeq := rfl
        events := ?_
        effects := ?_
        eventIds := fun hnodup => ?_
        effectIds := fun hnodup => ?_
        shown := Or.inr ⟨passed.visible, hstates, passed.shown⟩
        eventSeq := ?_
        effectSeq := ?_
        seenEventIds := ?_
        seenEffectIds := ?_ }
    · rw [hone, map_singleton, hstatus]
    · simp only [hevents]
      exact fromDraft (prepareFresh_ok hpreparedEvents).assigned
    · simp only [heffects]
      exact fromDraft (prepareFresh_ok hpreparedEffects).assigned
    · simp [Turn.hasStatus, hone, hstatus]
    · simp [Turn.hasStatus, hone, hstatus]
    · rw [hevents]
      exact itemsFrom_numbered _ _ _
    · rw [heffects]
      exact itemsFrom_numbered _ _ _
    · rw [hevents, itemsFrom_ids]
      exact prepareDrafts_nodup hpreparedEvents hnodup
    · rw [heffects, itemsFrom_ids]
      exact prepareDrafts_nodup hpreparedEffects hnodup
    · rw [hevents, itemsFrom_length]
      rfl
    · rw [heffects, itemsFrom_length]
      rfl
    · rw [hevents, itemsFrom_ids]
      rfl
    · rw [heffects, itemsFrom_ids]
      rfl

theorem Atomic.initial (codec : StateCodec F S) (reduce : ProcessReducer C S E X)
    (state : Value F) : Atomic codec reduce (World.initial C S E X state) where
  decided := fun _ ht => absurd ht not_mem_nil
  eventSeqs := Numbered.nil 1
  effectSeqs := Numbered.nil 1
  eventIds := nodup_nil
  effectIds := nodup_nil
  shown := fun _ h => nomatch h
  commandCount := rfl
  errorCount := rfl
  counted := rfl
  auditSeq := rfl
  eventSeq := rfl
  effectSeq := rfl
  seenEventIds := rfl
  seenEffectIds := rfl

/-- A booked turn keeps the accounts. -/
theorem Atomic.book {t : Turn C S E X F} (h : Atomic codec reduce w)
    (hbooked : Booked codec reduce t) (hbefore : t.before = w.state) :
    Atomic codec reduce ⟨t.after, w.turns ++ [t]⟩ := by
  have hfacts : World.facts (⟨t.after, w.turns ++ [t]⟩ : World C S E X F) = w.facts ++ t.facts := by
    simp [World.facts]
  have hevents : eventsOf (w.facts ++ t.facts) = eventsOf w.facts ++ eventsOf t.facts :=
    filterMap_append
  have heffects : effectsOf (w.facts ++ t.facts) = effectsOf w.facts ++ effectsOf t.facts :=
    filterMap_append
  have hstates : statesOf (w.facts ++ t.facts) = statesOf w.facts ++ statesOf t.facts :=
    filterMap_append
  have hcountOf : ∀ state, (w.turns ++ [t]).countP (Turn.hasStatus state) =
      w.turns.countP (Turn.hasStatus state) + if t.hasStatus state then 1 else 0 := by
    intro state
    rw [countP_append, countP_singleton]
  have hcommandCount := hbooked.commandCount
  have hstatus := hbooked.status
  have hcount := h.commandCount
  have herror := h.errorCount
  rw [hbefore] at hcommandCount hstatus
  constructor
  case decided =>
    intro u hu
    rcases mem_append.mp hu with hu | hu
    · exact h.decided u hu
    · rw [mem_singleton.mp hu]
      exact hbooked.decided
  case eventSeqs =>
    rw [hfacts, hevents]
    have hnumbered := hbooked.events
    rw [hbefore, h.eventSeq, Nat.add_comm] at hnumbered
    exact h.eventSeqs.append hnumbered
  case effectSeqs =>
    rw [hfacts, heffects]
    have hnumbered := hbooked.effects
    rw [hbefore, h.effectSeq, Nat.add_comm] at hnumbered
    exact h.effectSeqs.append hnumbered
  case eventIds =>
    rw [hfacts, hevents, map_append, ← h.seenEventIds, ← hbefore]
    exact hbooked.eventIds (hbefore ▸ h.seenEventIds ▸ h.eventIds)
  case effectIds =>
    rw [hfacts, heffects, map_append, ← h.seenEffectIds, ← hbefore]
    exact hbooked.effectIds (hbefore ▸ h.seenEffectIds ▸ h.effectIds)
  case shown =>
    intro visible hvisible
    rw [hfacts, hstates] at hvisible
    rcases hbooked.shown with ⟨hnone, hsame⟩ | ⟨last, hone, hread⟩
    · rw [hnone, append_nil] at hvisible
      rw [hsame, hbefore]
      exact h.shown visible hvisible
    · rw [hone, List.getLast?_concat] at hvisible
      obtain rfl := Option.some.inj hvisible
      exact hread
  case commandCount =>
    show t.after.commandCount = _ + t.after.errorCount
    rw [hcommandCount, hcountOf]
    rcases hstatus with ⟨-, haccepted, hcounted⟩ | ⟨-, haccepted, hcounted⟩
    · rw [haccepted, hcounted, hcount]
      simp only [Bool.false_eq_true, if_false]
      omega
    · rw [haccepted, hcounted, hcount, if_pos rfl]
      omega
  case errorCount =>
    show t.after.errorCount = _
    rw [hcountOf]
    rcases hstatus with ⟨hrejected, -, hcounted⟩ | ⟨hrejected, -, hcounted⟩
    · rw [hrejected, hcounted, herror, if_pos rfl]
    · rw [hrejected, hcounted, herror]
      rfl
  case counted =>
    show t.after.commandCount = _
    rw [hcommandCount, h.counted, length_append]
    rfl
  case auditSeq =>
    show t.after.auditSeq = t.after.commandCount
    rw [hbooked.auditSeq, hbooked.commandCount, hbefore, h.auditSeq]
  case eventSeq =>
    rw [hfacts, hevents, length_append, ← h.eventSeq, ← hbefore]
    exact hbooked.eventSeq
  case effectSeq =>
    rw [hfacts, heffects, length_append, ← h.effectSeq, ← hbefore]
    exact hbooked.effectSeq
  case seenEventIds =>
    rw [hfacts, hevents, map_append, ← h.seenEventIds, ← hbefore]
    exact hbooked.seenEventIds
  case seenEffectIds =>
    rw [hfacts, heffects, map_append, ← h.seenEffectIds, ← hbefore]
    exact hbooked.seenEffectIds

/-- One more command keeps the accounts, and is reduced unless the reducer panics with a
    message of the graph. -/
theorem Atomic.step (h : Atomic codec reduce w) (step : CommandStep C)
    (hcalm : ∀ command state panic, reduce command state = .error panic →
      isGraphRuntimePanic panic = false) :
    ∃ v, w.step codec reduce step = .ok v ∧ Atomic codec reduce v := by
  obtain ⟨out, hreduce⟩ := reduceProcessCommandFact_total codec step.now w.state
    fun reducerState panic hpanic => hcalm step.command reducerState panic hpanic
  have hbefore : (if step.reload then RuntimeState.fromJson w.state.toJson else .ok w.state) =
      .ok w.state := by
    rw [RuntimeState.fromJson_toJson, ite_self]
  refine ⟨⟨out.1, w.turns ++ [⟨step, w.state, out.2, out.1⟩]⟩, ?_, ?_⟩
  · simp only [World.step, hbefore, hreduce]
  · exact h.book (reduceProcessCommandFact_cases hreduce).booked rfl

/-- A step of a process is atomic, and the accounts of every run are exact. -/
theorem steps_atomic (codec : StateCodec F S) (reduce : ProcessReducer C S E X) (state : Value F)
    (steps : List (CommandStep C))
    (hcalm : ∀ command state panic, reduce command state = .error panic →
      isGraphRuntimePanic panic = false) :
    ∃ w, commandRun codec reduce steps (World.initial C S E X state) = .ok w ∧
      Atomic codec reduce w := by
  have hrun : ∀ w : World C S E X F, Atomic codec reduce w →
      ∃ v, commandRun codec reduce steps w = .ok v ∧ Atomic codec reduce v := by
    induction steps with
    | nil => exact fun w h => ⟨w, rfl, h⟩
    | cons step steps ih =>
      intro w h
      obtain ⟨v, hv, hatomic⟩ := h.step step hcalm
      rw [commandRun, hv]
      exact ih v hatomic
  exact hrun _ (Atomic.initial codec reduce state)

end Run

/-- A state that is a number, which cannot be written from a hundred on. -/
def smallCodec : StateCodec Empty Nat where
  serialize n := if n < 100 then .ok (.ofNat n) else .error "too large"
  deserialize value :=
    match value.asU64 with
    | some n => .ok n
    | none => .error "not a number"

/-- A reducer that adds what a command carries, with an event and an effect, and panics
    when there is nothing to add. -/
def adding : ProcessReducer Nat Nat Nat Nat := fun command total =>
  if command.payload = 0 then .error "nothing to add"
  else .ok ⟨total + command.payload, [⟨none, "added", command.payload, none, none, none⟩],
    [⟨some "effect", "notify", total, none, none, none⟩]⟩

def add (id : String) (n : Nat) (reload : Bool) : CommandStep Nat :=
  ⟨⟨id, "add", n, none, none, none⟩, .ok 7, reload⟩

/-- An accepted command, one that panics, one with a state too large to be written and one
    whose effect was requested before. -/
theorem steps_atomic_adding :
    ∃ w, commandRun smallCodec adding
        [add "a" 3 false, add "b" 0 true, add "c" 98 true, add "d" 4 false]
        (World.initial Nat Nat Nat Nat (.ofNat 0)) = .ok w ∧ Atomic smallCodec adding w := by
  refine steps_atomic smallCodec adding (.ofNat 0) _ ?_
  intro command state panic hpanic
  rw [adding] at hpanic
  split at hpanic
  · obtain rfl := Except.error.inj hpanic
    decide
  · cases hpanic

end GraphRefly.Process
