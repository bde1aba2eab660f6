import GraphRefly.Core.Panic
import GraphRefly.Json.Access
import GraphRefly.Lib.Fresh
import Mathlib.Data.Finset.Basic

/-!
# The Command Runtime

Commands go to handlers, which answer with drafts of events. The runtime refuses a
command it has seen, runs the handler, and turns the drafts into events under fresh
identifiers, or into one error. Every command is answered with facts, the last of
which is the cursor.

Handlers and the clock may panic. A panic is caught and makes an error, unless its
message is that of the graph's own runtime, which goes on unwinding.

Between two waves the state of the runtime is a JSON value that is read with defaults.

## Main definitions

* `RuntimeState`, `RuntimeState.fromJson`, `RuntimeState.toJson`: The state.
* `prepareEvents`: The drafts of one command under fresh identifiers.
* `reduceCommandFact`: One command.
-/

namespace GraphRefly.Cqrs

open GraphRefly.Lib GraphRefly.Json

/-! ### Commands, events and facts -/

structure CqrsCommand (C : Type) where
  id : String
  commandType : String
  payload : C
  aggregateId : Option String
  correlationId : Option String
  causationId : Option String
  deriving DecidableEq

structure CqrsEventDraft (E : Type) where
  id : Option String
  eventType : String
  payload : E
  aggregateId : Option String
  correlationId : Option String
  causationId : Option String
  deriving DecidableEq

structure CqrsDedupeSnapshot where
  commandIdsRetained : Nat
  eventIdsRetained : Nat
  commandIdsEvicted : Nat
  eventIdsEvicted : Nat
  deriving DecidableEq

structure CqrsCursor where
  eventSeq : Nat
  commandCount : Nat
  errorCount : Nat
  auditSeq : Nat
  dedupe : Option CqrsDedupeSnapshot
  deriving DecidableEq

structure CqrsEvent (E : Type) where
  id : String
  eventType : String
  seq : Nat
  cursor : Nat
  runtimeCursor : CqrsCursor
  commandId : String
  commandType : String
  payload : E
  timestampMs : Nat
  aggregateId : Option String
  correlationId : Option String
  causationId : Option String
  deriving DecidableEq

inductive CqrsErrorCode
  | malformedCommand
  | duplicateCommand
  | unknownCommand
  | handlerThrew
  | clockThrew
  | malformedEvent
  | unknownEvent
  | duplicateEvent
  deriving DecidableEq

structure CqrsError (C : Type) where
  code : CqrsErrorCode
  message : String
  command : Option (CqrsCommand C)
  cursor : CqrsCursor
  deriving DecidableEq

inductive CqrsStatusState
  | accepted
  | rejected
  deriving DecidableEq

structure CqrsStatus where
  state : CqrsStatusState
  commandId : Option String
  commandType : Option String
  eventCount : Nat
  errorCode : Option CqrsErrorCode
  cursor : CqrsCursor
  deriving DecidableEq

inductive CqrsAuditOutcome
  | success
  | failure
  deriving DecidableEq

structure CqrsAuditRecord where
  seq : Nat
  commandId : Option String
  commandType : Option String
  outcome : CqrsAuditOutcome
  eventIds : List String
  eventTypes : List String
  errorCode : Option CqrsErrorCode
  errorMessage : Option String
  cursor : CqrsCursor
  deriving DecidableEq

inductive CqrsRuntimeFact (C E : Type)
  | event (event : CqrsEvent E)
  | status (status : CqrsStatus)
  | error (error : CqrsError C)
  | audit (record : CqrsAuditRecord)
  | cursor (cursor : CqrsCursor)
  deriving DecidableEq

/-! ### Duplicate windows -/

inductive CqrsDedupeWindow
  | unbounded
  | bounded (maxEntries : Nat)
  deriving DecidableEq

structure CqrsDedupePolicy where
  commands : CqrsDedupeWindow
  events : CqrsDedupeWindow
  deriving DecidableEq

/-- The default policy remembers everything. -/
def CqrsDedupePolicy.default : CqrsDedupePolicy := ⟨.unbounded, .unbounded⟩

def CqrsDedupePolicy.bounded (commandMaxEntries eventMaxEntries : Nat) : CqrsDedupePolicy :=
  ⟨.bounded commandMaxEntries, .bounded eventMaxEntries⟩

def CqrsDedupeWindow.isBounded : CqrsDedupeWindow → Bool
  | .unbounded => false
  | .bounded _ => true

def CqrsDedupePolicy.boundedAny (dedupe : CqrsDedupePolicy) : Bool :=
  dedupe.commands.isBounded || dedupe.events.isBounded

def dedupeMaxEntries : CqrsDedupeWindow → Option Nat
  | .unbounded => none
  | .bounded maxEntries => some maxEntries

/-! ### The state -/

structure RuntimeState where
  eventSeq : Nat
  commandCount : Nat
  errorCount : Nat
  auditSeq : Nat
  seenCommandIds : List String
  seenEventIds : List String
  commandDedupeEvicted : Nat
  eventDedupeEvicted : Nat
  deriving DecidableEq

def RuntimeState.default : RuntimeState := ⟨0, 0, 0, 0, [], [], 0, 0⟩

section Json

variable {F : Type}

def jsonU64 (value : Value F) (key : String) : Nat :=
  ((value.get key).bind Value.asU64).getD 0

def jsonStringArray (value : Value F) (key : String) : List String :=
  (((value.get key).bind Value.asArray).map fun items => items.filterMap Value.asStr).getD []

def RuntimeState.fromJson (value : Value F) : RuntimeState where
  eventSeq := jsonU64 value "eventSeq"
  commandCount := jsonU64 value "commandCount"
  errorCount := jsonU64 value "errorCount"
  auditSeq := jsonU64 value "auditSeq"
  seenCommandIds := jsonStringArray value "seenCommandIds"
  seenEventIds := jsonStringArray value "seenEventIds"
  commandDedupeEvicted := jsonU64 value "commandDedupeEvicted"
  eventDedupeEvicted := jsonU64 value "eventDedupeEvicted"

def RuntimeState.toJson (state : RuntimeState) : Value F :=
  .object
    [("eventSeq", .ofNat state.eventSeq),
      ("commandCount", .ofNat state.commandCount),
      ("errorCount", .ofNat state.errorCount),
      ("auditSeq", .ofNat state.auditSeq),
      ("seenCommandIds", .ofStrings state.seenCommandIds),
      ("seenEventIds", .ofStrings state.seenEventIds),
      ("commandDedupeEvicted", .ofNat state.commandDedupeEvicted),
      ("eventDedupeEvicted", .ofNat state.eventDedupeEvicted)]

/-- The state comes back from its JSON value as it was. -/
@[simp] theorem RuntimeState.fromJson_toJson (state : RuntimeState) :
    RuntimeState.fromJson (state.toJson : Value F) = state := by
  have hcommands : jsonStringArray (state.toJson : Value F) "seenCommandIds" =
      (state.seenCommandIds.map Value.string).filterMap (Value.asStr (F := F)) := rfl
  have hevents : jsonStringArray (state.toJson : Value F) "seenEventIds" =
      (state.seenEventIds.map Value.string).filterMap (Value.asStr (F := F)) := rfl
  rw [fromJson, hcommands, hevents, Value.filterMap_asStr, Value.filterMap_asStr]
  rfl

end Json

def cursorOf (state : RuntimeState) (dedupe : CqrsDedupePolicy) : CqrsCursor where
  eventSeq := state.eventSeq
  commandCount := state.commandCount
  errorCount := state.errorCount
  auditSeq := state.auditSeq
  dedupe :=
    if dedupe.boundedAny then
      some
        { commandIdsRetained := state.seenCommandIds.length
          eventIdsRetained := state.seenEventIds.length
          commandIdsEvicted := state.commandDedupeEvicted
          eventIdsEvicted := state.eventDedupeEvicted }
    else none

/-! ### One command -/

variable {C E : Type}

/-- A handler answers with drafts or panics with a message. -/
abbrev CqrsCommandHandler (C E : Type) := CqrsCommand C → Except String (List (CqrsEventDraft E))

structure PreparedEvent (E : Type) where
  id : String
  eventType : String
  payload : E
  aggregateId : Option String
  correlationId : Option String
  causationId : Option String

/-- The checks of one draft, and the identifier it gets. -/
def prepareEvent (command : CqrsCommand C) (knownEvents : Option (Finset String)) (index : Nat)
    (draft : CqrsEventDraft E) : Except (CqrsErrorCode × String) (PreparedEvent E) :=
  if draft.eventType = "" then
    .error (.malformedEvent, "cqrs: event draft must have a non-empty type")
  else if knownEvents.any fun known => draft.eventType ∉ known then
    .error (.unknownEvent, "cqrs: unknown event '" ++ draft.eventType ++ "'")
  else
    .ok
      { id := (draft.id.filter fun id => id ≠ "").getD
          (compoundTupleKey "cqrs-event" [command.id, toString (index + 1)])
        eventType := draft.eventType
        payload := draft.payload
        aggregateId := draft.aggregateId
        correlationId := draft.correlationId
        causationId := draft.causationId }

def prepareEvents (command : CqrsCommand C) (drafts : List (CqrsEventDraft E))
    (state : RuntimeState) (knownEvents : Option (Finset String)) :
    Except (CqrsErrorCode × String) (List (PreparedEvent E)) :=
  prepareFresh (prepareEvent command knownEvents) PreparedEvent.id
    (fun id => (.duplicateEvent, "cqrs: duplicate event '" ++ id ++ "'")) state.seenEventIds 0 []
    drafts

def auditRecord (state : RuntimeState) (command : Option (CqrsCommand C))
    (outcome : CqrsAuditOutcome) (events : List (CqrsEvent E)) (errorCode : Option CqrsErrorCode)
    (errorMessage : Option String) (dedupe : CqrsDedupePolicy) : RuntimeState × CqrsAuditRecord :=
  let state := { state with auditSeq := state.auditSeq + 1 }
  (state,
    { seq := state.auditSeq
      commandId := command.map (·.id)
      commandType := command.map (·.commandType)
      outcome
      eventIds := events.map (·.id)
      eventTypes := events.map (·.eventType)
      errorCode
      errorMessage
      cursor := cursorOf state dedupe })

def failure (state : RuntimeState) (command : Option (CqrsCommand C)) (code : CqrsErrorCode)
    (message : String) (dedupe : CqrsDedupePolicy) :
    RuntimeState × List (CqrsRuntimeFact C E) :=
  let state := { state with errorCount := state.errorCount + 1 }
  let cursor := cursorOf state dedupe
  let (audited, record) :=
    auditRecord (E := E) state command .failure [] (some code) (some message) dedupe
  (audited,
    [.error { code, message, command, cursor },
      .status
        { state := .rejected
          commandId := command.map (·.id)
          commandType := command.map (·.commandType)
          eventCount := 0
          errorCode := some code
          cursor },
      .audit record,
      .cursor (cursorOf audited dedupe)])

/-- The events of a command, numbered one after the other. -/
def emitEvents (dedupe : CqrsDedupePolicy) (command : CqrsCommand C) (timestampMs : Nat) :
    RuntimeState → List (PreparedEvent E) → RuntimeState × List (CqrsEvent E)
  | state, [] => (state, [])
  | state, draft :: drafts =>
    let (seenEventIds, eventDedupeEvicted) := trimWindow (dedupeMaxEntries dedupe.events)
      (state.seenEventIds ++ [draft.id]) state.eventDedupeEvicted
    let state :=
      { state with eventSeq := state.eventSeq + 1, seenEventIds, eventDedupeEvicted }
    let event : CqrsEvent E :=
      { id := draft.id
        eventType := draft.eventType
        seq := state.eventSeq
        cursor := state.eventSeq
        runtimeCursor := cursorOf state dedupe
        commandId := command.id
        commandType := command.commandType
        payload := draft.payload
        timestampMs
        aggregateId := draft.aggregateId
        correlationId := draft.correlationId
        causationId := draft.causationId }
    let (state, events) := emitEvents dedupe command timestampMs state drafts
    (state, event :: events)

/-- What an accepted command emits. -/
def accept (state : RuntimeState) (command : CqrsCommand C) (prepared : List (PreparedEvent E))
    (timestampMs : Nat) (dedupe : CqrsDedupePolicy) :
    RuntimeState × List (CqrsRuntimeFact C E) :=
  let (state, events) := emitEvents dedupe command timestampMs state prepared
  let (audited, record) := auditRecord state (some command) .success events none none dedupe
  (audited,
    events.map .event ++
      [.status
        { state := .accepted
          commandId := some command.id
          commandType := some command.commandType
          eventCount := events.length
          errorCode := none
          cursor := cursorOf state dedupe },
      .audit record,
      .cursor (cursorOf audited dedupe)])

def cqrsTimestamp (now : Except String Nat) : Except String Nat :=
  match now with
  | .ok timestampMs => .ok timestampMs
  | .error panic => .error ("cqrs: now() threw: " ++ panic)

/-- What becomes of a command that is counted, well-formed and new. -/
def handleCommand (handlers : String → Option (CqrsCommandHandler C E))
    (knownEvents : Option (Finset String)) (now : Except String Nat) (dedupe : CqrsDedupePolicy)
    (state : RuntimeState) (command : CqrsCommand C) :
    Except String (RuntimeState × List (CqrsRuntimeFact C E)) :=
  match handlers command.commandType with
  | none =>
    .ok (failure state (some command) .unknownCommand
      ("cqrs: unknown command '" ++ command.commandType ++ "'") dedupe)
  | some handler =>
    match handler command with
    | .error panic =>
      if isGraphRuntimePanic panic then .error panic
      else .ok (failure state (some command) .handlerThrew panic dedupe)
    | .ok drafts =>
      match prepareEvents command drafts state knownEvents with
      | .error (code, message) => .ok (failure state (some command) code message dedupe)
      | .ok prepared =>
        match cqrsTimestamp now with
        | .error message => .ok (failure state (some command) .clockThrew message dedupe)
        | .ok timestampMs => .ok (accept state command prepared timestampMs dedupe)

/-- One command: the state it leaves and the facts it emits. The error is a panic that
    goes on unwinding. -/
def reduceCommandFact (handlers : String → Option (CqrsCommandHandler C E))
    (knownEvents : Option (Finset String)) (now : Except String Nat) (dedupe : CqrsDedupePolicy)
    (state : RuntimeState) (command : CqrsCommand C) :
    Except String (RuntimeState × List (CqrsRuntimeFact C E)) :=
  let state := { state with commandCount := state.commandCount + 1 }
  if command.id = "" then
    .ok (failure state (some command) .malformedCommand "cqrs: command id must be non-empty" dedupe)
  else if command.commandType = "" then
    .ok (failure state (some command) .malformedCommand "cqrs: command type must be non-empty"
      dedupe)
  else if command.id ∈ state.seenCommandIds then
    .ok (failure state (some command) .duplicateCommand
      ("cqrs: duplicate command '" ++ command.id ++ "'") dedupe)
  else
    let (seenCommandIds, commandDedupeEvicted) := trimWindow (dedupeMaxEntries dedupe.commands)
      (state.seenCommandIds ++ [command.id]) state.commandDedupeEvicted
    handleCommand handlers knownEvents now dedupe
      { state with seenCommandIds, commandDedupeEvicted } command

end GraphRefly.Cqrs
