import GraphRefly.Core.Panic
import GraphRefly.Json.Access
import GraphRefly.Lib.Fresh

/-!
# The Process Runtime

A process is a reducer over commands: from a command and the state it makes a new state,
drafts of events and drafts of effects. The runtime checks all of them before it commits
to any. The state itself is kept as a JSON value, and it is what the value reads back as
that is shown.

Events and effects are prepared and numbered alike, under counters and identifiers of
their own.

## Main definitions

* `RuntimeState`, `RuntimeState.fromJson`, `RuntimeState.toJson`: The state.
* `prepareDrafts`: Drafts under fresh identifiers.
* `reduceProcessCommandFact`: One command.
-/

namespace GraphRefly.Process

open GraphRefly.Lib GraphRefly.Json

/-! ### Commands, events, effects and facts -/

structure ProcessCommand (C : Type) where
  id : String
  commandType : String
  payload : C
  processId : Option String
  correlationId : Option String
  causationId : Option String

/-- A draft of an event or of an effect. -/
structure ProcessDraft (T : Type) where
  id : Option String
  draftType : String
  payload : T
  processId : Option String
  correlationId : Option String
  causationId : Option String

abbrev ProcessEventDraft (E : Type) := ProcessDraft E

abbrev ProcessEffectRequestDraft (X : Type) := ProcessDraft X

/-- An event or an effect as it is emitted. -/
structure ProcessItem (T : Type) where
  id : String
  itemType : String
  seq : Nat
  cursor : Nat
  commandId : String
  commandType : String
  payload : T
  timestampMs : Nat
  processId : Option String
  correlationId : Option String
  causationId : Option String

abbrev ProcessEvent (E : Type) := ProcessItem E

abbrev ProcessEffectRequest (X : Type) := ProcessItem X

inductive ProcessErrorCode
  | malformedCommand
  | reducerThrew
  | clockThrew
  | malformedState
  | malformedEvent
  | malformedEffect
  deriving DecidableEq

structure ProcessCursor where
  eventSeq : Nat
  effectSeq : Nat
  commandCount : Nat
  errorCount : Nat
  auditSeq : Nat

structure ProcessError (C : Type) where
  code : ProcessErrorCode
  message : String
  command : Option (ProcessCommand C)
  cursor : ProcessCursor

inductive ProcessStatusState
  | accepted
  | rejected
  deriving DecidableEq

structure ProcessStatus where
  state : ProcessStatusState
  commandId : Option String
  commandType : Option String
  eventCount : Nat
  effectCount : Nat
  errorCode : Option ProcessErrorCode
  cursor : ProcessCursor

inductive ProcessAuditOutcome
  | success
  | failure
  deriving DecidableEq

structure ProcessAuditRecord where
  seq : Nat
  commandId : Option String
  commandType : Option String
  outcome : ProcessAuditOutcome
  eventIds : List String
  eventTypes : List String
  effectIds : List String
  effectTypes : List String
  errorCode : Option ProcessErrorCode
  errorMessage : Option String
  cursor : ProcessCursor

inductive ProcessRuntimeFact (S E X C : Type)
  | state (state : S) (cursor : ProcessCursor)
  | event (event : ProcessEvent E)
  | effectRequest (effect : ProcessEffectRequest X)
  | status (status : ProcessStatus)
  | error (error : ProcessError C)
  | audit (record : ProcessAuditRecord)
  | cursor (cursor : ProcessCursor)

structure ProcessReduction (S E X : Type) where
  state : S
  events : List (ProcessEventDraft E)
  effects : List (ProcessEffectRequestDraft X)

variable {C S E X F : Type}

/-- A reducer answers with a reduction or panics with a message. -/
abbrev ProcessReducer (C S E X : Type) := ProcessCommand C → S →
    Except String (ProcessReduction S E X)

/-- How the state of a process is written as JSON and read back. Either may fail. -/
structure StateCodec (F S : Type) where
  serialize : S → Except String (Value F)
  deserialize : Value F → Except String S

def stateToJson (codec : StateCodec F S) (state : S) : Except String (Value F) :=
  (codec.serialize state).mapError fun error => "state must serialize to JSON (" ++ error ++ ")"

def stateFromJson (codec : StateCodec F S) (state : Value F) : Except String S :=
  (codec.deserialize state).mapError fun error =>
    "state must deserialize from JSON (" ++ error ++ ")"

/-! ### The state -/

structure RuntimeState (F : Type) where
  eventSeq : Nat
  effectSeq : Nat
  commandCount : Nat
  errorCount : Nat
  auditSeq : Nat
  seenEventIds : List String
  seenEffectIds : List String
  state : Value F

def RuntimeState.new (state : Value F) : RuntimeState F := ⟨0, 0, 0, 0, 0, [], [], state⟩

def jsonRequiredU64 (value : Value F) (key : String) : Except String Nat :=
  match (value.get key).bind Value.asU64 with
  | some n => .ok n
  | none => .error
      ("process_bundle: runtime state field '" ++ key ++ "' must be an unsigned integer")

def jsonRequiredStringArray (value : Value F) (key : String) : Except String (List String) :=
  match ((value.get key).bind Value.asArray).bind fun items => items.mapM Value.asStr with
  | some items => .ok items
  | none => .error
      ("process_bundle: runtime state field '" ++ key ++ "' must be an array of strings")

def jsonRequiredState (value : Value F) : Except String (Value F) :=
  match value.get "state" with
  | some state => .ok state
  | none => .error "process_bundle: runtime state missing 'state'"

def RuntimeState.fromJson (value : Value F) : Except String (RuntimeState F) := do
  let eventSeq ← jsonRequiredU64 value "eventSeq"
  let effectSeq ← jsonRequiredU64 value "effectSeq"
  let commandCount ← jsonRequiredU64 value "commandCount"
  let errorCount ← jsonRequiredU64 value "errorCount"
  let auditSeq ← jsonRequiredU64 value "auditSeq"
  let seenEventIds ← jsonRequiredStringArray value "seenEventIds"
  let seenEffectIds ← jsonRequiredStringArray value "seenEffectIds"
  let state ← jsonRequiredState value
  .ok ⟨eventSeq, effectSeq, commandCount, errorCount, auditSeq, seenEventIds, seenEffectIds, state⟩

def RuntimeState.toJson (state : RuntimeState F) : Value F :=
  .object
    [("eventSeq", .ofNat state.eventSeq),
      ("effectSeq", .ofNat state.effectSeq),
      ("commandCount", .ofNat state.commandCount),
      ("errorCount", .ofNat state.errorCount),
      ("auditSeq", .ofNat state.auditSeq),
      ("seenEventIds", .ofStrings state.seenEventIds),
      ("seenEffectIds", .ofStrings state.seenEffectIds),
      ("state", state.state)]

@[simp] theorem RuntimeState.fromJson_toJson (state : RuntimeState F) :
    RuntimeState.fromJson state.toJson = .ok state := by
  have hevents : jsonRequiredStringArray state.toJson "seenEventIds" = .ok state.seenEventIds := by
    have hitems : ((state.toJson.get "seenEventIds").bind Value.asArray).bind
        (fun items => items.mapM Value.asStr) =
          (state.seenEventIds.map Value.string).mapM (Value.asStr (F := F)) := rfl
    rw [jsonRequiredStringArray, hitems, Value.mapM_asStr]
  have heffects : jsonRequiredStringArray state.toJson "seenEffectIds" =
      .ok state.seenEffectIds := by
    have hitems : ((state.toJson.get "seenEffectIds").bind Value.asArray).bind
        (fun items => items.mapM Value.asStr) =
          (state.seenEffectIds.map Value.string).mapM (Value.asStr (F := F)) := rfl
    rw [jsonRequiredStringArray, hitems, Value.mapM_asStr]
  rw [fromJson, hevents, heffects]
  rfl

def cursorOf (state : RuntimeState F) : ProcessCursor where
  eventSeq := state.eventSeq
  effectSeq := state.effectSeq
  commandCount := state.commandCount
  errorCount := state.errorCount
  auditSeq := state.auditSeq

/-! ### One command -/

structure PreparedDraft (T : Type) where
  id : String
  draftType : String
  payload : T
  processId : Option String
  correlationId : Option String
  causationId : Option String

/-- The check of one draft, and the identifier it gets. `noun` says what is drafted. -/
def prepareDraft {T : Type} (noun : String) (command : ProcessCommand C) (seq index : Nat)
    (draft : ProcessDraft T) : Except String (PreparedDraft T) :=
  if draft.draftType = "" then
    .error ("process_bundle: " ++ noun ++ " draft must have a non-empty type")
  else
    .ok
      { id := (draft.id.filter fun id => id ≠ "").getD
          (compoundTupleKey ("process-" ++ noun) [command.id, toString (seq + index + 1)])
        draftType := draft.draftType
        payload := draft.payload
        processId := draft.processId
        correlationId := draft.correlationId
        causationId := draft.causationId }

def prepareDrafts {T : Type} (noun : String) (command : ProcessCommand C)
    (drafts : List (ProcessDraft T)) (seq : Nat) (seenIds : List String) :
    Except String (List (PreparedDraft T)) :=
  prepareFresh (prepareDraft noun command seq) PreparedDraft.id
    (fun id => "process_bundle: duplicate " ++ noun ++ " '" ++ id ++ "'") seenIds 0 [] drafts

def prepareEvents (command : ProcessCommand C) (drafts : List (ProcessEventDraft E))
    (state : RuntimeState F) : Except String (List (PreparedDraft E)) :=
  prepareDrafts "event" command drafts state.eventSeq state.seenEventIds

def prepareEffects (command : ProcessCommand C) (drafts : List (ProcessEffectRequestDraft X))
    (state : RuntimeState F) : Except String (List (PreparedDraft X)) :=
  prepareDrafts "effect" command drafts state.effectSeq state.seenEffectIds

/-- What a draft is emitted as. -/
def PreparedDraft.item {T : Type} (command : ProcessCommand C) (timestampMs seq : Nat)
    (draft : PreparedDraft T) : ProcessItem T where
  id := draft.id
  itemType := draft.draftType
  seq := seq
  cursor := seq
  commandId := command.id
  commandType := command.commandType
  payload := draft.payload
  timestampMs := timestampMs
  processId := draft.processId
  correlationId := draft.correlationId
  causationId := draft.causationId

/-- The events of a command, numbered one after the other. -/
def emitEvents (command : ProcessCommand C) (timestampMs : Nat) :
    RuntimeState F → List (PreparedDraft E) → RuntimeState F × List (ProcessEvent E)
  | state, [] => (state, [])
  | state, draft :: drafts =>
    let state :=
      { state with
        eventSeq := state.eventSeq + 1
        seenEventIds := state.seenEventIds ++ [draft.id] }
    let event := draft.item command timestampMs state.eventSeq
    let (state, events) := emitEvents command timestampMs state drafts
    (state, event :: events)

/-- The effects of a command, numbered one after the other. -/
def emitEffects (command : ProcessCommand C) (timestampMs : Nat) :
    RuntimeState F → List (PreparedDraft X) → RuntimeState F × List (ProcessEffectRequest X)
  | state, [] => (state, [])
  | state, draft :: drafts =>
    let state :=
      { state with
        effectSeq := state.effectSeq + 1
        seenEffectIds := state.seenEffectIds ++ [draft.id] }
    let effect := draft.item command timestampMs state.effectSeq
    let (state, effects) := emitEffects command timestampMs state drafts
    (state, effect :: effects)

def auditRecord (state : RuntimeState F) (command : Option (ProcessCommand C))
    (outcome : ProcessAuditOutcome) (events : List (ProcessEvent E))
    (effects : List (ProcessEffectRequest X)) (errorCode : Option ProcessErrorCode)
    (errorMessage : Option String) : RuntimeState F × ProcessAuditRecord :=
  let state := { state with auditSeq := state.auditSeq + 1 }
  (state,
    { seq := state.auditSeq
      commandId := command.map (·.id)
      commandType := command.map (·.commandType)
      outcome
      eventIds := events.map (·.id)
      eventTypes := events.map (·.itemType)
      effectIds := effects.map (·.id)
      effectTypes := effects.map (·.itemType)
      errorCode
      errorMessage
      cursor := cursorOf state })

def failure (state : RuntimeState F) (command : Option (ProcessCommand C)) (code : ProcessErrorCode)
    (message : String) : RuntimeState F × List (ProcessRuntimeFact S E X C) :=
  let state := { state with errorCount := state.errorCount + 1 }
  let cursor := cursorOf state
  let (audited, record) :=
    auditRecord (E := E) (X := X) state command .failure [] [] (some code) (some message)
  (audited,
    [.error { code, message, command, cursor },
      .status
        { state := .rejected
          commandId := command.map (·.id)
          commandType := command.map (·.commandType)
          eventCount := 0
          effectCount := 0
          errorCode := some code
          cursor },
      .audit record,
      .cursor (cursorOf audited)])

/-- What an accepted command emits. -/
def accept (state : RuntimeState F) (command : ProcessCommand C) (nextState : Value F)
    (visible : S) (events : List (PreparedDraft E)) (effects : List (PreparedDraft X))
    (timestampMs : Nat) : RuntimeState F × List (ProcessRuntimeFact S E X C) :=
  let state := { state with state := nextState }
  let shown := cursorOf state
  let (state, events) := emitEvents command timestampMs state events
  let (state, effects) := emitEffects command timestampMs state effects
  let (audited, record) := auditRecord state (some command) .success events effects none none
  (audited,
    .state visible shown :: events.map .event ++ effects.map .effectRequest ++
      [.status
        { state := .accepted
          commandId := some command.id
          commandType := some command.commandType
          eventCount := events.length
          effectCount := effects.length
          errorCode := none
          cursor := cursorOf state },
      .audit record,
      .cursor (cursorOf audited)])

def processTimestamp (now : Except String Nat) : Except String Nat :=
  now.mapError fun panic => "process_bundle: now() threw: " ++ panic

/-- One command: the state it leaves and the facts it emits. The error is a panic that
    goes on unwinding. -/
def reduceProcessCommandFact (codec : StateCodec F S) (reduce : ProcessReducer C S E X)
    (now : Except String Nat) (state : RuntimeState F) (command : ProcessCommand C) :
    Except String (RuntimeState F × List (ProcessRuntimeFact S E X C)) :=
  let state := { state with commandCount := state.commandCount + 1 }
  let fail (code : ProcessErrorCode) (message : String) :=
    .ok (failure state (some command) code message)
  if command.id = "" then
    fail .malformedCommand "process_bundle: command id must be non-empty"
  else if command.commandType = "" then
    fail .malformedCommand "process_bundle: command type must be non-empty"
  else
    match stateFromJson codec state.state with
    | .error message => fail .malformedState message
    | .ok reducerState =>
    match reduce command reducerState with
    | .error panic =>
      if isGraphRuntimePanic panic then .error panic else fail .reducerThrew panic
    | .ok reduction =>
    match stateToJson codec reduction.state with
    | .error message => fail .malformedState message
    | .ok nextState =>
    match stateFromJson codec nextState with
    | .error message => fail .malformedState message
    | .ok visible =>
    match prepareEvents command reduction.events state with
    | .error message => fail .malformedEvent message
    | .ok events =>
    match prepareEffects command reduction.effects state with
    | .error message => fail .malformedEffect message
    | .ok effects =>
    match processTimestamp now with
    | .error message => fail .clockThrew message
    | .ok timestampMs => .ok (accept state command nextState visible events effects timestampMs)

end GraphRefly.Process
