import GraphRefly.Cqrs.Runtime
import GraphRefly.Lib.Numbered

/-!
# Exact Accounting

Every command is accepted as a whole or rejected as a whole. Over a run of commands
the events and the audit records are numbered without gaps, the counters are exact,
and no identifier is given to an event while it is remembered. Reading the state back
from its JSON value between two commands makes no difference.

## Main definitions

* `CommandStep`, `Turn`, `commandRun`: A run of commands and what came of each.
* `Turn.Rejected`, `Turn.Accepted`: The two outcomes.
* `Exact`: The accounts of a run.

## Theorems

* `reduceCommandFact_cases`: What one command does.
* `Exact.step`: One more command keeps the accounts.
* `commands_exact`: The accounts of every run.
-/

namespace GraphRefly.Cqrs

open List GraphRefly.Lib GraphRefly.Json

variable {C E : Type}

/-! ### One command -/

/-- The state with one more command counted. -/
def RuntimeState.count (state : RuntimeState) : RuntimeState :=
  { state with commandCount := state.commandCount + 1 }

/-- The state with one more command counted and remembered. -/
def RuntimeState.record (state : RuntimeState) (dedupe : CqrsDedupePolicy) (id : String) :
    RuntimeState :=
  let window := trimWindow (dedupeMaxEntries dedupe.commands) (state.seenCommandIds ++ [id])
    state.commandDedupeEvicted
  { state.count with seenCommandIds := window.1, commandDedupeEvicted := window.2 }

/-- The codes of a command that is not remembered. -/
def CqrsErrorCode.isRefusal : CqrsErrorCode → Bool
  | .malformedCommand | .duplicateCommand => true
  | _ => false

/-- What one command can do. -/
inductive Reduced (handlers : String → Option (CqrsCommandHandler C E))
    (knownEvents : Option (Finset String)) (dedupe : CqrsDedupePolicy) (state : RuntimeState)
    (command : CqrsCommand C) : RuntimeState × List (CqrsRuntimeFact C E) → Prop
  /-- It is malformed or was seen before. -/
  | refused (code : CqrsErrorCode) (message : String) (refusal : code.isRefusal = true) :
      Reduced handlers knownEvents dedupe state command
        (failure state.count (some command) code message dedupe)
  /-- It is new, but has no handler, or its handler, its events or the clock fail. -/
  | failed (code : CqrsErrorCode) (message : String) (refusal : code.isRefusal = false)
      (new : command.id ∉ state.seenCommandIds) :
      Reduced handlers knownEvents dedupe state command
        (failure (state.record dedupe command.id) (some command) code message dedupe)
  | accepted (handler : CqrsCommandHandler C E) (drafts : List (CqrsEventDraft E))
      (prepared : List (PreparedEvent E)) (timestampMs : Nat)
      (new : command.id ∉ state.seenCommandIds)
      (found : handlers command.commandType = some handler) (answer : handler command = .ok drafts)
      (fresh : prepareEvents command drafts (state.record dedupe command.id) knownEvents =
        .ok prepared) :
      Reduced handlers knownEvents dedupe state command
        (accept (state.record dedupe command.id) command prepared timestampMs dedupe)

variable {handlers : String → Option (CqrsCommandHandler C E)}
  {knownEvents : Option (Finset String)} {now : Except String Nat} {dedupe : CqrsDedupePolicy}
  {state : RuntimeState} {command : CqrsCommand C}

variable {drafts : List (CqrsEventDraft E)} {code : CqrsErrorCode} {message : String}

theorem prepareEvents_error (h : prepareEvents command drafts state knownEvents =
      .error (code, message)) : code.isRefusal = false := by
  rcases prepareFresh_error h with ⟨i, draft, -, hassign⟩ | ⟨key, hkey⟩
  · rw [prepareEvent] at hassign
    split at hassign
    · cases hassign
      rfl
    · split at hassign
      · cases hassign
        rfl
      · cases hassign
  · obtain ⟨rfl, -⟩ := Prod.mk.inj hkey
    rfl

variable {out : RuntimeState × List (CqrsRuntimeFact C E)}

theorem reduceCommandFact_cases
    (h : reduceCommandFact handlers knownEvents now dedupe state command = .ok out) :
    Reduced handlers knownEvents dedupe state command out := by
  rw [reduceCommandFact] at h
  by_cases hid : command.id = ""
  · rw [if_pos hid] at h
    cases h
    exact .refused _ _ rfl
  rw [if_neg hid] at h
  by_cases htype : command.commandType = ""
  · rw [if_pos htype] at h
    cases h
    exact .refused _ _ rfl
  rw [if_neg htype] at h
  by_cases hseen : command.id ∈ state.seenCommandIds
  · rw [if_pos hseen] at h
    cases h
    exact .refused _ _ rfl
  rw [if_neg hseen] at h
  replace h : handleCommand handlers knownEvents now dedupe (state.record dedupe command.id)
      command = .ok out := h
  rw [handleCommand] at h
  cases hfound : handlers command.commandType with
  | none =>
    simp only [hfound] at h
    cases h
    exact .failed _ _ rfl hseen
  | some handler =>
    simp only [hfound] at h
    cases hanswer : handler command with
    | error panic =>
      simp only [hanswer] at h
      split at h
      · cases h
      · cases h
        exact .failed _ _ rfl hseen
    | ok drafts =>
      simp only [hanswer] at h
      cases hprepared : prepareEvents command drafts (state.record dedupe command.id)
          knownEvents with
      | error error =>
        simp only [hprepared] at h
        cases h
        exact .failed _ _ (prepareEvents_error hprepared) hseen
      | ok prepared =>
        simp only [hprepared] at h
        cases hclock : cqrsTimestamp now with
        | error message =>
          simp only [hclock] at h
          cases h
          exact .failed _ _ rfl hseen
        | ok timestampMs =>
          simp only [hclock] at h
          cases h
          exact .accepted handler drafts prepared timestampMs hseen hfound hanswer hprepared

theorem reduceCommandFact_total
    (hcalm : ∀ handler panic, handlers command.commandType = some handler →
      handler command = .error panic → isGraphRuntimePanic panic = false) :
    ∃ out, reduceCommandFact handlers knownEvents now dedupe state command = .ok out := by
  rw [reduceCommandFact]
  split
  · exact ⟨_, rfl⟩
  split
  · exact ⟨_, rfl⟩
  split
  · exact ⟨_, rfl⟩
  show ∃ out, handleCommand handlers knownEvents now dedupe (state.record dedupe command.id)
    command = .ok out
  rw [handleCommand]
  cases hfound : handlers command.commandType with
  | none => exact ⟨_, rfl⟩
  | some handler =>
    simp only
    cases hanswer : handler command with
    | error panic =>
      simp only [hcalm handler panic hfound hanswer, Bool.false_eq_true, if_false]
      exact ⟨_, rfl⟩
    | ok drafts =>
      simp only
      split
      · exact ⟨_, rfl⟩
      · split <;> exact ⟨_, rfl⟩

/-! ### The events of a command -/

/-- An event is made of a draft. -/
def MadeOf (command : CqrsCommand C) (draft : PreparedEvent E) (event : CqrsEvent E) : Prop :=
  event.id = draft.id ∧ event.eventType = draft.eventType ∧ event.payload = draft.payload ∧
    event.aggregateId = draft.aggregateId ∧ event.correlationId = draft.correlationId ∧
      event.causationId = draft.causationId ∧ event.commandId = command.id ∧
        event.commandType = command.commandType

theorem MadeOf.ids {drafts : List (PreparedEvent E)} {events : List (CqrsEvent E)}
    (h : List.Forall₂ (MadeOf command) drafts events) :
    events.map CqrsEvent.id = drafts.map PreparedEvent.id := by
  induction h with
  | nil => rfl
  | cons hhead _ ih => rw [map_cons, map_cons, hhead.1, ih]

/-- What emitting events does to the state. -/
structure Emitted (dedupe : CqrsDedupePolicy) (command : CqrsCommand C) (state : RuntimeState)
    (drafts : List (PreparedEvent E)) (out : RuntimeState × List (CqrsEvent E)) : Prop where
  made : List.Forall₂ (MadeOf command) drafts out.2
  numbered : Numbered CqrsEvent.seq (state.eventSeq + 1) out.2
  eventSeq : out.1.eventSeq = state.eventSeq + out.2.length
  seen : ∀ past, state.seenEventIds = newest (dedupeMaxEntries dedupe.events) past →
    out.1.seenEventIds = newest (dedupeMaxEntries dedupe.events) (past ++ out.2.map CqrsEvent.id)
  commandCount : out.1.commandCount = state.commandCount
  errorCount : out.1.errorCount = state.errorCount
  auditSeq : out.1.auditSeq = state.auditSeq
  seenCommandIds : out.1.seenCommandIds = state.seenCommandIds

theorem emitEvents_emitted (dedupe : CqrsDedupePolicy) (command : CqrsCommand C)
    (timestampMs : Nat) (state : RuntimeState) (drafts : List (PreparedEvent E)) :
    Emitted dedupe command state drafts (emitEvents dedupe command timestampMs state drafts) := by
  induction drafts generalizing state with
  | nil =>
    refine ⟨.nil, Numbered.nil _, rfl, fun past hpast => ?_, rfl, rfl, rfl, rfl⟩
    rw [emitEvents, map_nil, append_nil]
    exact hpast
  | cons draft drafts ih =>
    rw [emitEvents]
    have hrest := ih
      { state with
        eventSeq := state.eventSeq + 1
        seenEventIds := (trimWindow (dedupeMaxEntries dedupe.events)
          (state.seenEventIds ++ [draft.id]) state.eventDedupeEvicted).1
        eventDedupeEvicted := (trimWindow (dedupeMaxEntries dedupe.events)
          (state.seenEventIds ++ [draft.id]) state.eventDedupeEvicted).2 }
    refine ⟨.cons ⟨rfl, rfl, rfl, rfl, rfl, rfl, rfl, rfl⟩ hrest.made,
      hrest.numbered.cons rfl, ?_,
      fun past hpast => ?_, hrest.commandCount, hrest.errorCount, hrest.auditSeq,
      hrest.seenCommandIds⟩
    · rw [hrest.eventSeq, length_cons]
      show state.eventSeq + 1 + _ = _
      omega
    · rw [hrest.seen (past ++ [draft.id]), map_cons, append_assoc]
      · rfl
      · rw [trimWindow_fst, hpast, newest_concat]

/-! ### A run of commands -/

/-- A command, with what the handlers and the clock do when it comes, and whether the state
    is read back from its JSON value before. -/
structure CommandStep (C E : Type) where
  command : CqrsCommand C
  handlers : String → Option (CqrsCommandHandler C E)
  now : Except String Nat
  reload : Bool

/-- A command with the states around it and the facts it emitted. -/
structure Turn (C E : Type) where
  step : CommandStep C E
  before : RuntimeState
  facts : List (CqrsRuntimeFact C E)
  after : RuntimeState

structure World (C E : Type) where
  state : RuntimeState
  turns : List (Turn C E)

def World.initial (C E : Type) : World C E := ⟨.default, []⟩

/-- One more command. `F` is the type of the floats a JSON value could have. -/
def World.step (F : Type) (knownEvents : Option (Finset String)) (dedupe : CqrsDedupePolicy)
    (w : World C E) (step : CommandStep C E) : Except String (World C E) :=
  let before := if step.reload then .fromJson (w.state.toJson : Value F) else w.state
  match reduceCommandFact step.handlers knownEvents step.now dedupe before step.command with
  | .error panic => .error panic
  | .ok (after, facts) => .ok ⟨after, w.turns ++ [⟨step, before, facts, after⟩]⟩

def commandRun (F : Type) (knownEvents : Option (Finset String)) (dedupe : CqrsDedupePolicy) :
    List (CommandStep C E) → World C E → Except String (World C E)
  | [], w => .ok w
  | step :: steps, w => (w.step F knownEvents dedupe step).bind
    (commandRun F knownEvents dedupe steps)

section

variable (facts : List (CqrsRuntimeFact C E))

def eventsOf : List (CqrsEvent E) :=
  facts.filterMap fun
    | .event event => some event
    | _ => none

def statusesOf : List CqrsStatus :=
  facts.filterMap fun
    | .status status => some status
    | _ => none

def errorsOf : List (CqrsError C) :=
  facts.filterMap fun
    | .error error => some error
    | _ => none

def auditsOf : List CqrsAuditRecord :=
  facts.filterMap fun
    | .audit record => some record
    | _ => none

end

def World.facts (w : World C E) : List (CqrsRuntimeFact C E) :=
  w.turns.flatMap Turn.facts

def Turn.hasStatus (state : CqrsStatusState) (t : Turn C E) : Bool :=
  (statusesOf t.facts).any fun status => decide (status.state = state)

/-- A turn that does not remember the identifier of its command. -/
def Turn.isRefused (t : Turn C E) : Bool :=
  (errorsOf t.facts).any fun error => error.code.isRefusal

/-- The identifiers of the commands that were remembered, in order. -/
def recordedIds (turns : List (Turn C E)) : List String :=
  turns.filterMap fun t => if t.isRefused then none else some t.step.command.id

/-- A rejected command emits no event and leaves what concerns events as it was. -/
structure Turn.Rejected (t : Turn C E) : Prop where
  status : (statusesOf t.facts).map (·.state) = [.rejected]
  events : eventsOf t.facts = []
  eventSeq : t.after.eventSeq = t.before.eventSeq
  seenEventIds : t.after.seenEventIds = t.before.seenEventIds

/-- An event is made of the draft at a place among the drafts of a command. -/
def FromDraft (command : CqrsCommand C) (draft : CqrsEventDraft E) (index : Nat)
    (event : CqrsEvent E) : Prop :=
  event.id = (draft.id.filter fun id => id ≠ "").getD
      (compoundTupleKey "cqrs-event" [command.id, toString (index + 1)]) ∧
    event.eventType = draft.eventType ∧ event.payload = draft.payload ∧
      event.aggregateId = draft.aggregateId ∧ event.correlationId = draft.correlationId ∧
        event.causationId = draft.causationId ∧ event.commandId = command.id ∧
          event.commandType = command.commandType

/-- An accepted command emits one event for every draft of its handler, in order. -/
structure Turn.Accepted (t : Turn C E) : Prop where
  status : (statusesOf t.facts).map (·.state) = [.accepted]
  events : ∃ handler drafts, t.step.handlers t.step.command.commandType = some handler ∧
    handler t.step.command = .ok drafts ∧
      List.Forall₂ (fun draft event => FromDraft t.step.command draft.1 draft.2 event)
        drafts.zipIdx (eventsOf t.facts)

/-- The accounts of a run. -/
structure Exact (dedupe : CqrsDedupePolicy) (w : World C E) : Prop where
  decided : ∀ t ∈ w.turns, t.Rejected ∨ t.Accepted
  eventSeqs : Numbered CqrsEvent.seq 1 (eventsOf w.facts)
  auditSeqs : Numbered CqrsAuditRecord.seq 1 (auditsOf w.facts)
  audited : (auditsOf w.facts).length = w.turns.length
  commandCount : w.state.commandCount = w.turns.length
  counted : w.turns.countP (Turn.hasStatus .accepted) + w.turns.countP (Turn.hasStatus .rejected) =
    w.turns.length
  errorCount : w.state.errorCount = w.turns.countP (Turn.hasStatus .rejected)
  /-- An event has no identifier of one that is remembered. -/
  freshEvents : FreshIn (dedupeMaxEntries dedupe.events) ((eventsOf w.facts).map CqrsEvent.id)
  /-- A command whose identifier is remembered is rejected. -/
  freshCommands : ∀ earlier t later, w.turns = earlier ++ t :: later →
    t.step.command.id ∈ newest (dedupeMaxEntries dedupe.commands) (recordedIds earlier) → t.Rejected
  eventSeq : w.state.eventSeq = (eventsOf w.facts).length
  auditSeq : w.state.auditSeq = (auditsOf w.facts).length
  seenEventIds : w.state.seenEventIds =
    newest (dedupeMaxEntries dedupe.events) ((eventsOf w.facts).map CqrsEvent.id)
  seenCommandIds : w.state.seenCommandIds =
    newest (dedupeMaxEntries dedupe.commands) (recordedIds w.turns)

/-! ### One turn -/

/-- What one turn adds to the accounts. -/
structure Booked (dedupe : CqrsDedupePolicy) (t : Turn C E) : Prop where
  decided : t.Rejected ∧ t.after.errorCount = t.before.errorCount + 1 ∨
    t.Accepted ∧ t.after.errorCount = t.before.errorCount
  audits : ∃ record, auditsOf t.facts = [record] ∧ record.seq = t.before.auditSeq + 1
  auditSeq : t.after.auditSeq = t.before.auditSeq + 1
  commandCount : t.after.commandCount = t.before.commandCount + 1
  numbered : Numbered CqrsEvent.seq (t.before.eventSeq + 1) (eventsOf t.facts)
  eventSeq : t.after.eventSeq = t.before.eventSeq + (eventsOf t.facts).length
  nodup : ((eventsOf t.facts).map CqrsEvent.id).Nodup
  fresh : ∀ id ∈ (eventsOf t.facts).map CqrsEvent.id, id ∉ t.before.seenEventIds
  seenEventIds : ∀ past, t.before.seenEventIds = newest (dedupeMaxEntries dedupe.events) past →
    t.after.seenEventIds = newest (dedupeMaxEntries dedupe.events)
      (past ++ (eventsOf t.facts).map CqrsEvent.id)
  seenCommandIds : ∀ past,
    t.before.seenCommandIds = newest (dedupeMaxEntries dedupe.commands) past →
      t.after.seenCommandIds = newest (dedupeMaxEntries dedupe.commands)
        (past ++ if t.isRefused then [] else [t.step.command.id])
  known : t.step.command.id ∈ t.before.seenCommandIds → t.Rejected

variable {before middle : RuntimeState}

theorem Booked.failure {step : CommandStep C E}
    (hcount : middle.commandCount = before.commandCount + 1)
    (herror : middle.errorCount = before.errorCount) (haudit : middle.auditSeq = before.auditSeq)
    (heventSeq : middle.eventSeq = before.eventSeq)
    (hevents : middle.seenEventIds = before.seenEventIds)
    (hcommands : ∀ past, before.seenCommandIds = newest (dedupeMaxEntries dedupe.commands) past →
      middle.seenCommandIds = newest (dedupeMaxEntries dedupe.commands)
        (past ++ if code.isRefusal then [] else [step.command.id])) :
    let out := Cqrs.failure (E := E) middle (some step.command) code message dedupe
    Booked dedupe ⟨step, before, out.2, out.1⟩ := by
  have hrejected : Turn.Rejected
      (⟨step, before, (Cqrs.failure (E := E) middle (some step.command) code message dedupe).2,
        (Cqrs.failure (E := E) middle (some step.command) code message dedupe).1⟩ : Turn C E) :=
    ⟨rfl, rfl, heventSeq, hevents⟩
  have hrefused : Turn.isRefused
      (⟨step, before, (Cqrs.failure (E := E) middle (some step.command) code message dedupe).2,
        (Cqrs.failure (E := E) middle (some step.command) code message dedupe).1⟩ : Turn C E) =
      code.isRefusal := by
    simp [Turn.isRefused, errorsOf, Cqrs.failure]
  refine
    { decided := Or.inl ⟨hrejected, congrArg (· + 1) herror⟩
      audits := ⟨_, rfl, congrArg (· + 1) haudit⟩
      auditSeq := congrArg (· + 1) haudit
      commandCount := hcount
      numbered := Numbered.nil _
      eventSeq := heventSeq
      nodup := nodup_nil
      fresh := fun id hid => absurd hid not_mem_nil
      seenEventIds := fun past hpast => ?_
      seenCommandIds := fun past hpast => ?_
      known := fun _ => hrejected }
  · exact (hevents.trans hpast).trans (congrArg _ (append_nil past).symm)
  · rw [hrefused]
    exact hcommands past hpast

theorem accept_facts (state : RuntimeState) (command : CqrsCommand C)
    (prepared : List (PreparedEvent E)) (timestampMs : Nat) (dedupe : CqrsDedupePolicy) :
    let out := accept state command prepared timestampMs dedupe
    let emitted := emitEvents dedupe command timestampMs state prepared
    eventsOf out.2 = emitted.2 ∧ (statusesOf out.2).map (·.state) = [.accepted] ∧
      errorsOf out.2 = [] ∧ (auditsOf out.2).map (·.seq) = [emitted.1.auditSeq + 1] ∧
        out.1 = { emitted.1 with auditSeq := emitted.1.auditSeq + 1 } := by
  simp [accept, auditRecord, eventsOf, statusesOf, errorsOf, auditsOf, filterMap_map]

theorem forall₂_trans {α β γ : Type} {R : α → β → Prop} {Q : β → γ → Prop} {T : α → γ → Prop}
    (h : ∀ a b c, R a b → Q b c → T a c) {as : List α} {bs : List β} {cs : List γ}
    (hab : List.Forall₂ R as bs) (hbc : List.Forall₂ Q bs cs) : List.Forall₂ T as cs := by
  induction hab generalizing cs with
  | nil =>
    cases hbc
    exact .nil
  | cons hhead _ ih =>
    cases hbc with
    | cons hnext hrest => exact .cons (h _ _ _ hhead hnext) (ih hrest)

theorem fromDraft {draft : CqrsEventDraft E × Nat} {item : PreparedEvent E} {event : CqrsEvent E}
    (hassign : prepareEvent command knownEvents draft.2 draft.1 = .ok item)
    (hmade : MadeOf command item event) : FromDraft command draft.1 draft.2 event := by
  rw [prepareEvent] at hassign
  split at hassign
  · cases hassign
  · split at hassign
    · cases hassign
    · cases hassign
      exact hmade

theorem Booked.accept {step : CommandStep C E} {handler : CqrsCommandHandler C E}
    {prepared : List (PreparedEvent E)} {timestampMs : Nat}
    (hmiddle : middle = before.record dedupe step.command.id)
    (hnew : step.command.id ∉ before.seenCommandIds)
    (hfound : step.handlers step.command.commandType = some handler)
    (hanswer : handler step.command = .ok drafts)
    (hprepared : prepareEvents step.command drafts middle knownEvents = .ok prepared) :
    let out := Cqrs.accept middle step.command prepared timestampMs dedupe
    Booked dedupe ⟨step, before, out.2, out.1⟩ := by
  obtain ⟨hevents, hstatus, herrors, haudits, hout⟩ :=
    accept_facts middle step.command prepared timestampMs dedupe
  have hemitted := emitEvents_emitted dedupe step.command timestampMs middle prepared
  have hfresh := prepareFresh_ok hprepared
  generalize Cqrs.accept middle step.command prepared timestampMs dedupe = out at *
  generalize emitEvents dedupe step.command timestampMs middle prepared = emitted at *
  obtain ⟨after, facts⟩ := out
  simp only at hevents hstatus herrors haudits hout
  subst hout hmiddle
  have hids := MadeOf.ids hemitted.made
  refine
    { decided := Or.inr ⟨⟨hstatus, handler, drafts, hfound, hanswer, ?_⟩, hemitted.errorCount⟩
      audits := ?_
      auditSeq := congrArg (· + 1) hemitted.auditSeq
      commandCount := hemitted.commandCount
      numbered := ?_
      eventSeq := ?_
      nodup := ?_
      fresh := ?_
      seenEventIds := fun past hpast => ?_
      seenCommandIds := fun past hpast => ?_
      known := fun hknown => absurd hknown hnew }
  · simp only [hevents]
    exact forall₂_trans (fun _ _ _ => fromDraft) hfresh.assigned hemitted.made
  · obtain ⟨record, hrecord, hseq⟩ := map_eq_singleton_iff.mp haudits
    exact ⟨record, hrecord, hseq.trans (congrArg (· + 1) hemitted.auditSeq)⟩
  · rw [hevents]
    exact hemitted.numbered
  · rw [hevents]
    exact hemitted.eventSeq
  · rw [hevents, hids]
    exact hfresh.nodup
  · rw [hevents, hids]
    intro id hid
    obtain ⟨item, hitem, rfl⟩ := mem_map.mp hid
    exact (hfresh.fresh item hitem).1
  · rw [hevents]
    exact hemitted.seen past hpast
  · have hrefused : Turn.isRefused (⟨step, before, facts,
        { emitted.1 with auditSeq := emitted.1.auditSeq + 1 }⟩ : Turn C E) = false := by
      rw [Turn.isRefused, herrors]
      rfl
    rw [hrefused]
    refine hemitted.seenCommandIds.trans ?_
    simp only [RuntimeState.record, trimWindow_fst, Bool.false_eq_true, if_false]
    rw [hpast, newest_concat]

theorem Reduced.booked {step : CommandStep C E}
    (h : Reduced step.handlers knownEvents dedupe before step.command out) :
    Booked dedupe ⟨step, before, out.2, out.1⟩ := by
  cases h with
  | refused code message refusal =>
    refine Booked.failure rfl rfl rfl rfl rfl fun past hpast => ?_
    rw [if_pos refusal, append_nil]
    exact hpast
  | failed code message refusal new =>
    refine Booked.failure rfl rfl rfl rfl rfl fun past hpast => ?_
    simp only [refusal, Bool.false_eq_true, if_false, RuntimeState.record, trimWindow_fst]
    rw [hpast, newest_concat]
  | accepted handler drafts prepared timestampMs new found answer fresh =>
    exact Booked.accept rfl new found answer fresh

/-! ### The accounts of a run -/

theorem Exact.initial (dedupe : CqrsDedupePolicy) : Exact dedupe (World.initial C E) where
  decided := fun t ht => absurd ht not_mem_nil
  eventSeqs := Numbered.nil 1
  auditSeqs := Numbered.nil 1
  audited := rfl
  commandCount := rfl
  counted := rfl
  errorCount := rfl
  freshEvents := FreshIn.nil _
  freshCommands := fun earlier t later h => absurd h (by simp [World.initial])
  eventSeq := rfl
  auditSeq := rfl
  seenEventIds := (newest_nil _).symm
  seenCommandIds := (newest_nil _).symm

variable {t : Turn C E}

theorem Turn.Rejected.hasStatus (h : t.Rejected) :
    t.hasStatus .rejected = true ∧ t.hasStatus .accepted = false := by
  obtain ⟨status, hstatus, hstate⟩ := map_eq_singleton_iff.mp h.status
  simp [Turn.hasStatus, hstatus, hstate]

theorem Turn.Accepted.hasStatus (h : t.Accepted) :
    t.hasStatus .rejected = false ∧ t.hasStatus .accepted = true := by
  obtain ⟨status, hstatus, hstate⟩ := map_eq_singleton_iff.mp h.status
  simp [Turn.hasStatus, hstatus, hstate]

theorem Exact.book {w : World C E}
    (h : Exact dedupe w) (hbooked : Booked dedupe t) (hbefore : t.before = w.state) :
    Exact dedupe ⟨t.after, w.turns ++ [t]⟩ := by
  have hfacts : World.facts (⟨t.after, w.turns ++ [t]⟩ : World C E) = w.facts ++ t.facts := by
    simp [World.facts]
  have hevents : eventsOf (w.facts ++ t.facts) = eventsOf w.facts ++ eventsOf t.facts :=
    filterMap_append
  have haudits : auditsOf (w.facts ++ t.facts) = auditsOf w.facts ++ auditsOf t.facts :=
    filterMap_append
  have hrecorded : recordedIds (w.turns ++ [t]) =
      recordedIds w.turns ++ if t.isRefused then [] else [t.step.command.id] := by
    simp only [recordedIds, filterMap_append]
    cases hrefused : t.isRefused <;> simp [hrefused]
  obtain ⟨record, haudit, hseq⟩ := hbooked.audits
  have hcountOf : ∀ state, (w.turns ++ [t]).countP (Turn.hasStatus state) =
      w.turns.countP (Turn.hasStatus state) + if t.hasStatus state then 1 else 0 := by
    intro state
    rw [countP_append, countP_singleton]
  have hcommandCount := hbooked.commandCount
  have hauditSeq := hbooked.auditSeq
  have heventSeq := hbooked.eventSeq
  rw [hbefore] at hseq hcommandCount hauditSeq heventSeq
  constructor
  case decided =>
    intro u hu
    rcases mem_append.mp hu with hu | hu
    · exact h.decided u hu
    · rw [mem_singleton.mp hu]
      exact hbooked.decided.imp And.left And.left
  case eventSeqs =>
    rw [hfacts, hevents]
    have hnumbered := hbooked.numbered
    rw [hbefore, h.eventSeq, Nat.add_comm] at hnumbered
    exact h.eventSeqs.append hnumbered
  case auditSeqs =>
    rw [hfacts, haudits, haudit]
    refine h.auditSeqs.concat ?_
    rw [hseq, h.auditSeq, Nat.add_comm]
  case audited =>
    rw [hfacts, haudits, haudit, length_append, h.audited, length_append]
    rfl
  case commandCount =>
    rw [hcommandCount, h.commandCount, length_append]
    rfl
  case counted =>
    have hold := h.counted
    rw [hcountOf, hcountOf, length_append, length_singleton]
    rcases hbooked.decided with ⟨hrejected, -⟩ | ⟨haccepted, -⟩
    · simp only [hrejected.hasStatus]
      simp
      omega
    · simp only [haccepted.hasStatus]
      simp
      omega
  case errorCount =>
    have hold := h.errorCount
    rw [hcountOf]
    rcases hbooked.decided with ⟨hrejected, herror⟩ | ⟨haccepted, herror⟩
    · rw [herror, hbefore, hrejected.hasStatus.1, if_pos rfl, hold]
    · rw [herror, hbefore, haccepted.hasStatus.1, hold]
      rfl
  case freshEvents =>
    rw [hfacts, hevents, map_append]
    refine h.freshEvents.append hbooked.nodup fun id hid => ?_
    rw [← h.seenEventIds, ← hbefore]
    exact hbooked.fresh id hid
  case freshCommands =>
    intro earlier u later heq hknown
    rcases append_eq_append_iff.mp heq with ⟨first, hturns, hrest⟩ | ⟨last, hturns, hrest⟩
    · -- The command is the last one.
      have hlength := congrArg List.length hrest
      simp only [length_append, length_cons, length_nil] at hlength
      obtain rfl : first = [] := eq_nil_of_length_eq_zero (by omega)
      rw [append_nil] at hturns
      obtain rfl : t = u := (List.cons.inj hrest).1
      refine hbooked.known ?_
      rw [hbefore, h.seenCommandIds, ← hturns]
      exact hknown
    · cases last with
      | nil =>
        rw [append_nil] at hturns
        obtain rfl : u = t := (List.cons.inj hrest).1
        refine hbooked.known ?_
        rw [hbefore, h.seenCommandIds, hturns]
        exact hknown
      | cons head last =>
        obtain rfl : u = head := (List.cons.inj hrest).1
        exact h.freshCommands earlier u last hturns hknown
  case eventSeq =>
    rw [heventSeq, hfacts, hevents, length_append, h.eventSeq]
  case auditSeq =>
    rw [hauditSeq, hfacts, haudits, haudit, length_append, h.auditSeq]
    rfl
  case seenEventIds =>
    rw [hfacts, hevents, map_append]
    exact hbooked.seenEventIds _ (hbefore ▸ h.seenEventIds)
  case seenCommandIds =>
    show t.after.seenCommandIds = newest _ (recordedIds (w.turns ++ [t]))
    rw [hrecorded]
    exact hbooked.seenCommandIds _ (hbefore ▸ h.seenCommandIds)

/-- No handler panics with a message of the graph's own runtime. -/
def CommandStep.Calm (step : CommandStep C E) : Prop :=
  ∀ handler panic, step.handlers step.command.commandType = some handler →
    handler step.command = .error panic → isGraphRuntimePanic panic = false

/-- The same command, with the state kept as it is before. -/
def CommandStep.kept (step : CommandStep C E) : CommandStep C E := { step with reload := false }

variable {F : Type} {w w' : World C E}

/-- One more command keeps the accounts. -/
theorem Exact.step {step : CommandStep C E} (h : Exact dedupe w)
    (hstep : w.step F knownEvents dedupe step = .ok w') : Exact dedupe w' := by
  rw [World.step, RuntimeState.fromJson_toJson, ite_self] at hstep
  cases hreduce : reduceCommandFact step.handlers knownEvents step.now dedupe w.state
      step.command with
  | error panic =>
    simp only [hreduce] at hstep
    cases hstep
  | ok out =>
    simp only [hreduce, Except.ok.injEq] at hstep
    subst hstep
    exact h.book (reduceCommandFact_cases hreduce).booked rfl

variable {steps : List (CommandStep C E)}

theorem Exact.run (h : Exact dedupe w)
    (hrun : commandRun F knownEvents dedupe steps w = .ok w') : Exact dedupe w' := by
  induction steps generalizing w with
  | nil =>
    obtain rfl := Except.ok.inj hrun
    exact h
  | cons step steps ih =>
    rw [commandRun] at hrun
    cases hstep : w.step F knownEvents dedupe step with
    | error panic =>
      rw [hstep] at hrun
      cases hrun
    | ok w₁ =>
      rw [hstep] at hrun
      exact ih (h.step hstep) hrun

/-- A calm command is reduced, and to the same facts whether or not the state is read back
    before. -/
theorem World.step_kept (knownEvents : Option (Finset String)) (dedupe : CqrsDedupePolicy)
    {step : CommandStep C E} (hcalm : step.Calm) (hstate : w'.state = w.state)
    (hfacts : w'.facts = w.facts) :
    ∃ v v', w.step F knownEvents dedupe step = .ok v ∧
      w'.step F knownEvents dedupe step.kept = .ok v' ∧ v'.state = v.state ∧ v'.facts =
        v.facts := by
  obtain ⟨out, hreduce⟩ : ∃ out, reduceCommandFact step.handlers knownEvents step.now dedupe w.state
      step.command = .ok out := reduceCommandFact_total hcalm
  have hkept : reduceCommandFact step.kept.handlers knownEvents step.kept.now dedupe w'.state
      step.kept.command = .ok out := hstate ▸ hreduce
  refine ⟨⟨out.1, w.turns ++ [⟨step, w.state, out.2, out.1⟩]⟩,
    ⟨out.1, w'.turns ++ [⟨step.kept, w'.state, out.2, out.1⟩]⟩, ?_, ?_, rfl, ?_⟩
  · rw [World.step, RuntimeState.fromJson_toJson, ite_self]
    simp only [hreduce]
  · rw [World.step, RuntimeState.fromJson_toJson, ite_self]
    simp only [hkept]
  · have hsame : w'.turns.flatMap Turn.facts = w.turns.flatMap Turn.facts := hfacts
    simp [World.facts, hsame]

theorem commandRun_kept (knownEvents : Option (Finset String)) (dedupe : CqrsDedupePolicy)
    (hcalm : ∀ step ∈ steps, step.Calm)
    (hstate : w'.state = w.state) (hfacts : w'.facts = w.facts) :
    ∃ v v', commandRun F knownEvents dedupe steps w = .ok v ∧
      commandRun F knownEvents dedupe (steps.map CommandStep.kept) w' = .ok v' ∧
        v'.facts = v.facts := by
  induction steps generalizing w w' with
  | nil => exact ⟨w, w', rfl, rfl, hfacts⟩
  | cons step steps ih =>
    obtain ⟨v, v', hv, hv', hs, hf⟩ :=
      World.step_kept (F := F) knownEvents dedupe (hcalm step mem_cons_self) hstate hfacts
    simp only [map_cons, commandRun, hv, hv']
    exact ih (fun other hother => hcalm other (mem_cons_of_mem _ hother)) hs hf

/-- Commands are all-or-nothing and the accounts of every run are exact, whether or not the
    state is read back from its JSON value between the commands. -/
theorem commands_exact (F : Type) (knownEvents : Option (Finset String)) (dedupe : CqrsDedupePolicy)
    (steps : List (CommandStep C E)) (hcalm : ∀ step ∈ steps, step.Calm) :
    ∃ w, commandRun F knownEvents dedupe steps (World.initial C E) = .ok w ∧ Exact dedupe w ∧
      ∃ kept, commandRun F knownEvents dedupe (steps.map CommandStep.kept) (World.initial C E) =
        .ok kept ∧ kept.facts = w.facts := by
  obtain ⟨w, kept, hw, hkept, hfacts⟩ :=
    commandRun_kept (F := F) knownEvents dedupe hcalm (rfl : (World.initial C E).state = _) rfl
  exact ⟨w, hw, (Exact.initial dedupe).run hw, kept, hkept, hfacts⟩

def plainCommand (id commandType : String) : CqrsCommand Nat :=
  ⟨id, commandType, 0, none, none, none⟩

def plainDraft (id : Option String) : CqrsEventDraft Nat := ⟨id, "made", 1, none, none, none⟩

/-- One handler makes two events, another one panics. -/
def plainHandlers : String → Option (CqrsCommandHandler Nat Nat)
  | "make" => some fun _ => .ok [plainDraft none, plainDraft (some "e")]
  | "throw" => some fun _ => .error "no such account"
  | _ => none

/-- An accepted command, one whose handler panics, one that was seen before and one of
    whose events was. The state is read back every other time. -/
def plainSteps : List (CommandStep Nat Nat) :=
  [⟨plainCommand "a" "make", plainHandlers, .ok 7, false⟩,
    ⟨plainCommand "b" "throw", plainHandlers, .ok 7, true⟩,
    ⟨plainCommand "a" "make", plainHandlers, .ok 7, false⟩,
    ⟨plainCommand "c" "make", plainHandlers, .ok 7, true⟩]

theorem commands_exact_plain :
    ∃ w, commandRun Empty none (.bounded 2 1) plainSteps (World.initial Nat Nat) = .ok w ∧
      Exact (.bounded 2 1) w ∧
        ∃ kept, commandRun Empty none (.bounded 2 1) (plainSteps.map CommandStep.kept)
          (World.initial Nat Nat) = .ok kept ∧ kept.facts = w.facts := by
  refine commands_exact Empty none (.bounded 2 1) plainSteps fun step hstep => ?_
  intro handler panic hfound hpanic
  simp only [plainSteps, mem_cons, not_mem_nil, or_false] at hstep
  rcases hstep with rfl | rfl | rfl | rfl
  · obtain rfl := Option.some.inj hfound
    cases hpanic
  · obtain rfl := Option.some.inj hfound
    obtain rfl := Except.error.inj hpanic
    decide
  · obtain rfl := Option.some.inj hfound
    cases hpanic
  · obtain rfl := Option.some.inj hfound
    cases hpanic

end GraphRefly.Cqrs
