import GraphRefly.Bridge.Endpoint
import Mathlib.Data.Finset.Card

/-!
# Remote Calls

A remote call is a request sent through a wire bridge and the responses the peer
sends back. Three nodes follow the bridge's commands and events, the caller's
timeouts and each other: one lets responses through, one keeps the status, one
reports errors. Each of them keeps a table of its own of the calls in flight.

A node function is given the batch of every dependency. It is written here as the
function of the state it keeps and of those batches, in the order in which the
source goes through them.

## Main definitions

* `RemoteCallPendingState`: The table of calls in flight.
* `waveResponses`, `waveResults`, `waveStatus`, `waveErrors`: The four node functions.
-/

namespace GraphRefly.Bridge

structure RemoteCallRequest (T : Type) where
  operation : String
  requestId : String
  payload : T
  deriving DecidableEq

inductive RemoteCallResponse (U : Type)
  | result (operation requestId : String) (payload : U)
  | error (operation requestId error : String)
  | status (operation requestId status : String)
  deriving DecidableEq

structure RemoteCallResult (U : Type) where
  operation : String
  requestId : String
  payload : U
  deriving DecidableEq

structure RemoteCallError where
  operation : Option String
  requestId : Option String
  error : String
  deriving DecidableEq

inductive RemoteCallStatusState
  | idle
  | requested
  | responded
  | errored
  | timedOut
  | bridgeErrored
  deriving DecidableEq

structure RemoteCallStatus where
  state : RemoteCallStatusState
  operation : Option String
  requestId : Option String
  pending : Nat
  completed : Nat
  errors : Nat
  timeouts : Nat
  deriving DecidableEq

structure RemoteCallTimeout where
  operation : Option String
  requestId : String
  error : String
  deriving DecidableEq

/-! ### The table of calls in flight -/

/-- A call in flight. It is bound once the bridge has given it a number. -/
structure RemoteCallPendingRequest where
  operation : String
  requestId : String
  seq : Option Nat
  deriving DecidableEq

/-- The table of calls in flight. The two hash maps are functions here. -/
structure RemoteCallPendingState where
  requestIds : Finset String
  byRequestId : String → Option RemoteCallPendingRequest
  bySeq : Nat → Option RemoteCallPendingRequest

namespace RemoteCallPendingState

def default : RemoteCallPendingState where
  requestIds := ∅
  byRequestId := fun _ => none
  bySeq := fun _ => none

section

variable (state : RemoteCallPendingState)

/-- Enter a call. A call that is there unbound is bound to the number of the new
    one. The flag is false when nothing was entered. -/
def insert (state : RemoteCallPendingState) (request : RemoteCallPendingRequest) :
    RemoteCallPendingState × Bool :=
  match state.byRequestId request.requestId with
  | some existing =>
    if existing.operation = request.operation ∧ existing.seq = none then
      match request.seq with
      | some seq =>
        if (state.bySeq seq).isSome then (state, false)
        else
          let bound := { existing with seq := some seq }
          ({ state with
              byRequestId := Function.update state.byRequestId request.requestId (some bound)
              bySeq := Function.update state.bySeq seq (some bound) }, true)
      | none => (state, false)
    else (state, false)
  | none =>
    if request.seq.any fun seq => (state.bySeq seq).isSome then (state, false)
    else
      ({ requestIds := Insert.insert request.requestId state.requestIds
         byRequestId := Function.update state.byRequestId request.requestId (some request)
         bySeq :=
          match request.seq with
          | some seq => Function.update state.bySeq seq (some request)
          | none => state.bySeq }, true)

def removeByRequestId (requestId : String) :
    RemoteCallPendingState × Option RemoteCallPendingRequest :=
  if requestId ∉ state.requestIds then (state, none)
  else
    let requestIds := state.requestIds.erase requestId
    match state.byRequestId requestId with
    | none => ({ state with requestIds }, none)
    | some request =>
      ({ requestIds
         byRequestId := Function.update state.byRequestId requestId none
         bySeq :=
          match request.seq with
          | some seq => Function.update state.bySeq seq none
          | none => state.bySeq }, some request)

def removeBySeq (seq : Nat) :
    RemoteCallPendingState × Option RemoteCallPendingRequest :=
  match state.bySeq seq with
  | none => (state, none)
  | some request =>
    ({ requestIds := state.requestIds.erase request.requestId
       byRequestId := Function.update state.byRequestId request.requestId none
       bySeq := Function.update state.bySeq seq none }, some request)

/-- Whether the table holds an unbound call under an identifier. -/
def unbound (requestId : String) : Bool :=
  (state.byRequestId requestId).any fun request => request.seq.isNone

def removeAllUnbound : RemoteCallPendingState :=
  { state with
    requestIds := state.requestIds.filter fun requestId => state.unbound requestId = false
    byRequestId := fun requestId =>
      if state.unbound requestId then none else state.byRequestId requestId }

def len : Nat := state.requestIds.card

end

end RemoteCallPendingState

variable {T U : Type}

def pendingRequestFromEnvelope (envelope : WireBridgeEnvelope (RemoteCallRequest T)) :
    Option RemoteCallPendingRequest :=
  match envelope.payload with
  | some (.data request) =>
    some ⟨request.operation, request.requestId, some envelope.metadata.seq⟩
  | _ => none

def pendingRequestFromCommand :
    WireBridgeCommand (RemoteCallRequest T) → Option RemoteCallPendingRequest
  | .send payload _ _ => some ⟨payload.operation, payload.requestId, none⟩
  | _ => none

namespace RemoteCallResponse

def requestId : RemoteCallResponse U → String
  | .result _ requestId _ | .error _ requestId _ | .status _ requestId _ => requestId

def isTerminal : RemoteCallResponse U → Bool
  | .result .. | .error .. => true
  | .status .. => false

def operation : RemoteCallResponse U → String
  | .result operation _ _ | .error operation _ _ | .status operation _ _ => operation

def matchesPending (response : RemoteCallResponse U) (request : RemoteCallPendingRequest) : Bool :=
  decide (response.operation = request.operation)

def key (response : RemoteCallResponse U) : String :=
  response.operation ++ "\x00" ++ response.requestId

end RemoteCallResponse

def RemoteCallPendingRequest.key (request : RemoteCallPendingRequest) : String :=
  request.operation ++ "\x00" ++ request.requestId

/-- The facts of a bridge that remote calls go through. -/
abbrev RemoteCallEvent (T U : Type) := WireBridgeEvent (RemoteCallRequest T) (RemoteCallResponse U)

/-- The call an outbound fact carries. -/
def RemoteCallEvent.request? : RemoteCallEvent T U → Option RemoteCallPendingRequest
  | .outbound envelope => pendingRequestFromEnvelope envelope
  | _ => none

/-- The response an inbound fact carries. -/
def RemoteCallEvent.response? : RemoteCallEvent T U → Option (RemoteCallResponse U)
  | .inbound envelope =>
    match envelope.payload with
    | some (.data response) => some response
    | _ => none
  | _ => none

/-! ### The responses node -/

/-- Whether a fact makes the responses node look at no command of its wave. -/
def RemoteCallEvent.hasInvalid : RemoteCallEvent T U → Bool
  | .invalid _ | .sessionMismatch _ _ | .outOfOrder _ _ | .lateReceipt _ _ => true
  | _ => false

/-- The last loop over the events: what is removed and what is let through. -/
def responsesEvent (acc : RemoteCallPendingState × List (RemoteCallResponse U))
    (event : RemoteCallEvent T U) : RemoteCallPendingState × List (RemoteCallResponse U) :=
  let (pending, ready) := acc
  match event with
  | .invalid _ => (pending.removeAllUnbound, ready)
  | .inbound _ =>
    match event.response? with
    | none => acc
    | some response =>
      match pending.byRequestId response.requestId with
      | none => acc
      | some request =>
        if response.matchesPending request = false then acc
        else if response.isTerminal then
          ((pending.removeByRequestId response.requestId).1, ready ++ [response])
        else (pending, ready ++ [response])
  | .nack _ _ outbound _ => ((pending.removeBySeq outbound.metadata.seq).1, ready)
  | .exhausted seq _ _ => ((pending.removeBySeq seq).1, ready)
  | _ => acc

def waveResponses (pending : RemoteCallPendingState)
    (commands : List (WireBridgeCommand (RemoteCallRequest T)))
      (events : List (RemoteCallEvent T U))
    (timeouts : List RemoteCallTimeout) :
    RemoteCallPendingState × List (RemoteCallResponse U) :=
  let previewRequests := commands.filterMap pendingRequestFromCommand
  let previewed :=
    if events.any RemoteCallEvent.hasInvalid then pending
    else previewRequests.foldl (fun p request => (p.insert request).1) pending
  let sent :=
    (events.filterMap RemoteCallEvent.request?).foldl (fun p request => (p.insert request).1)
      previewed
  let (removed, ready) := events.foldl responsesEvent (sent, [])
  (timeouts.foldl (fun p timeout => (p.removeByRequestId timeout.requestId).1) removed, ready)

/-! ### The results node -/

def waveResults (responses : List (RemoteCallResponse U)) : List (RemoteCallResult U) :=
  responses.filterMap fun
    | .result operation requestId payload => some ⟨operation, requestId, payload⟩
    | _ => none

/-! ### The status node -/

structure RemoteCallStatusReducer where
  status : RemoteCallStatus
  pending : RemoteCallPendingState
  terminalBeforeRequest : Finset String

def initialRemoteCallStatus : RemoteCallStatus where
  state := .idle
  operation := none
  requestId := none
  pending := 0
  completed := 0
  errors := 0
  timeouts := 0

namespace RemoteCallStatusReducer

def default : RemoteCallStatusReducer where
  status := initialRemoteCallStatus
  pending := .default
  terminalBeforeRequest := ∅

section

variable (reducer : RemoteCallStatusReducer)

/-- Name the state and the call that the status is about. -/
def about (state : RemoteCallStatusState)
    (operation requestId : Option String) : RemoteCallStatusReducer :=
  { reducer with status := { reducer.status with state, operation, requestId } }

/-- Count an error. -/
def countError : RemoteCallStatusReducer :=
  { reducer with
    status := { reducer.status with errors := saturatingAdd u64Max reducer.status.errors 1 } }

/-- A command of the caller. -/
def command (reducer : RemoteCallStatusReducer)
    (command : WireBridgeCommand (RemoteCallRequest T)) : RemoteCallStatusReducer :=
  match pendingRequestFromCommand command with
  | none => reducer
  | some request =>
    let reducer := reducer.about .requested (some request.operation) (some request.requestId)
    if request.key ∈ reducer.terminalBeforeRequest then reducer
    else { reducer with pending := (reducer.pending.insert request).1 }

/-- A call the bridge sends. -/
def request (reducer : RemoteCallStatusReducer) (request : RemoteCallPendingRequest) :
    RemoteCallStatusReducer :=
  let reducer := reducer.about .requested (some request.operation) (some request.requestId)
  if request.key ∈ reducer.terminalBeforeRequest then
    { reducer with terminalBeforeRequest := reducer.terminalBeforeRequest.erase request.key }
  else
    let (pending, inserted) := reducer.pending.insert request
    let reducer := { reducer with pending }
    if inserted then reducer
    else { reducer with status := { reducer.status with state := .errored } }.countError

/-- A call the bridge gave up, if the table knows it. -/
def bridgeError (request : Option RemoteCallPendingRequest)
    (error : String) : RemoteCallStatusReducer :=
  let reducer := { reducer with status := { reducer.status with state := .bridgeErrored } }
  let reducer :=
    match request with
    | some request =>
      reducer.about reducer.status.state (some request.operation) (some request.requestId)
    | none => reducer
  if error ≠ "" then reducer.countError else reducer

/-- The last loop over the events. -/
def event (reducer : RemoteCallStatusReducer) (event : RemoteCallEvent T U) :
    RemoteCallStatusReducer :=
  match event with
  | .invalid _ =>
    { reducer with
      pending := reducer.pending.removeAllUnbound
      status := { reducer.status with state := .bridgeErrored } }.countError
  | .sessionMismatch _ _ | .outOfOrder _ _ | .lateReceipt _ _ =>
    { reducer with status := { reducer.status with state := .bridgeErrored } }.countError
  | .nack _ _ outbound error =>
    let (pending, removed) := reducer.pending.removeBySeq outbound.metadata.seq
    { reducer with pending }.bridgeError (removed <|> pendingRequestFromEnvelope outbound) error
  | .exhausted seq _ error =>
    let (pending, removed) := reducer.pending.removeBySeq seq
    { reducer with pending }.bridgeError removed error
  | .inbound _ =>
    match event.response? with
    | none => reducer
    | some response =>
      match reducer.pending.byRequestId response.requestId with
      | none =>
        (reducer.about .errored (some response.operation)
          (some response.requestId)).countError
      | some request =>
        if response.matchesPending request = false then
          (reducer.about .errored (some request.operation)
            (some request.requestId)).countError
        else
          match response with
          | .result .. | .error .. => reducer
          | .status operation requestId _ =>
            reducer.about reducer.status.state (some operation) (some requestId)
  | _ => reducer

/-- A call that ended. One that was never bound is remembered. -/
def terminal (operation requestId : String) :
    RemoteCallStatusReducer :=
  let (pending, removed) := reducer.pending.removeByRequestId requestId
  { reducer with
    pending
    terminalBeforeRequest :=
      if removed.all fun request => request.seq.isNone then
        insert (operation ++ "\x00" ++ requestId) reducer.terminalBeforeRequest
      else reducer.terminalBeforeRequest }

/-- A response the responses node let through. -/
def response :
    RemoteCallResponse U → RemoteCallStatusReducer
  | .result .. => reducer
  | .error operation requestId _ =>
    ((reducer.terminal operation requestId).about .errored (some operation)
      (some requestId)).countError
  | .status operation requestId _ =>
    if (reducer.pending.byRequestId requestId).isSome then
      reducer.about reducer.status.state (some operation) (some requestId)
    else reducer

/-- A result. -/
def result (reducer : RemoteCallStatusReducer) (result : RemoteCallResult U) :
    RemoteCallStatusReducer :=
  let reducer := (reducer.terminal result.operation result.requestId).about .responded
    (some result.operation) (some result.requestId)
  { reducer with
    status := { reducer.status with completed := saturatingAdd u64Max reducer.status.completed 1 } }

/-- A timeout of the caller. -/
def timeout (reducer : RemoteCallStatusReducer) (timeout : RemoteCallTimeout) :
    RemoteCallStatusReducer :=
  let reducer := (reducer.about .timedOut timeout.operation (some timeout.requestId)).countError
  { reducer with
    pending := (reducer.pending.removeByRequestId timeout.requestId).1
    status := { reducer.status with timeouts := saturatingAdd u64Max reducer.status.timeouts 1 } }

/-- The size of the table is read at the end of a wave. -/
def counted : RemoteCallStatusReducer :=
  { reducer with status := { reducer.status with pending := reducer.pending.len } }

end

end RemoteCallStatusReducer

def waveStatus (reducer : RemoteCallStatusReducer)
    (commands : List (WireBridgeCommand (RemoteCallRequest T)))
      (events : List (RemoteCallEvent T U))
    (responses : List (RemoteCallResponse U)) (results : List (RemoteCallResult U))
    (timeouts : List RemoteCallTimeout) : RemoteCallStatusReducer :=
  let requested := commands.foldl RemoteCallStatusReducer.command reducer
  let sent :=
    (events.filterMap RemoteCallEvent.request?).foldl RemoteCallStatusReducer.request requested
  let seen := events.foldl RemoteCallStatusReducer.event sent
  let answered := responses.foldl RemoteCallStatusReducer.response seen
  let completed := results.foldl RemoteCallStatusReducer.result answered
  (timeouts.foldl RemoteCallStatusReducer.timeout completed).counted

/-! ### The errors node -/

/-- A second call under an identifier that is in flight. -/
def duplicateError (request : RemoteCallPendingRequest) : RemoteCallError where
  operation := some request.operation
  requestId := some request.requestId
  error := "remote_call: duplicate in-flight request_id '" ++ request.requestId ++ "'"

section

variable (acc : RemoteCallPendingState × List RemoteCallError)

/-- The first loop over the events: what is entered, and what is a duplicate. -/
def errorsRequest
    (request : RemoteCallPendingRequest) : RemoteCallPendingState × List RemoteCallError :=
  let (pending, inserted) := acc.1.insert request
  (pending, if inserted then acc.2 else acc.2 ++ [duplicateError request])

/-- A response the responses node let through. -/
def errorsResponse
    (response : RemoteCallResponse U) : RemoteCallPendingState × List RemoteCallError :=
  match response with
  | .error operation requestId error =>
    ((acc.1.removeByRequestId requestId).1,
      acc.2 ++ [⟨some operation, some requestId, error⟩])
  | .result _ requestId _ => ((acc.1.removeByRequestId requestId).1, acc.2)
  | .status .. => acc

def errorsTimeout (timeout : RemoteCallTimeout) : RemoteCallPendingState × List RemoteCallError :=
  ((acc.1.removeByRequestId timeout.requestId).1,
    acc.2 ++ [⟨timeout.operation, some timeout.requestId, timeout.error⟩])

end

def remoteCallBridgeErrorMessage : RemoteCallEvent T U → String
  | .sessionMismatch expected actual => expected ++ ": session mismatch: " ++ actual
  | .outOfOrder seq expected =>
    "wireBridge: out-of-order seq " ++ toString seq ++ ", expected " ++ toString expected
  | .lateReceipt receipt ackForSeq =>
    "wireBridge: late " ++ (match receipt with | .ack => "Ack" | .nack => "Nack") ++
      " for seq " ++ toString ackForSeq
  | .invalid error => error
  | _ => "wireBridge: bridge error"

/-- What the last loop over the events keeps: the table, how many accepted responses
    of each key have not been met yet, and the errors. -/
abbrev ErrorsLoop := RemoteCallPendingState × (String → Nat) × List RemoteCallError

/-- The last loop over the events. -/
def errorsEvent (acc : ErrorsLoop) (event : RemoteCallEvent T U) : ErrorsLoop :=
  let (pending, counts, errors) := acc
  match event with
  | .nack _ _ outbound error =>
    let (pending, removed) := pending.removeBySeq outbound.metadata.seq
    let request := removed <|> pendingRequestFromEnvelope outbound
    (pending, counts,
      errors ++ [⟨request.map (·.operation), request.map (·.requestId), error⟩])
  | .exhausted seq _ error =>
    let (pending, request) := pending.removeBySeq seq
    (pending, counts,
      errors ++ [⟨request.map (·.operation), request.map (·.requestId), error⟩])
  | .invalid error => (pending, counts, errors ++ [⟨none, none, error⟩])
  | .inbound _ =>
    match event.response? with
    | none => acc
    | some response =>
      if 0 < counts response.key then
        (pending, Function.update counts response.key (counts response.key - 1), errors)
      else
        match pending.byRequestId response.requestId with
        | some request =>
          if response.matchesPending request then acc
          else
            (pending, counts, errors ++ [⟨some request.operation, some request.requestId,
              "remote_call: response operation '" ++ response.operation ++
                "' did not match pending operation '" ++ request.operation ++ "'"⟩])
        | none =>
          (pending, counts, errors ++ [⟨some response.operation, some response.requestId,
            "remote_call: orphan response for unknown or completed request"⟩])
  | .sessionMismatch _ _ | .outOfOrder _ _ | .lateReceipt _ _ =>
    (pending, counts, errors ++ [⟨none, none, remoteCallBridgeErrorMessage event⟩])
  | _ => acc

/-- What the errors node leaves behind. The duplicates come first among its errors
    and are kept apart. -/
structure ErrorsWave where
  pending : RemoteCallPendingState
  duplicates : List RemoteCallError
  others : List RemoteCallError

/-- How many accepted responses there are of a key. -/
def acceptedResponseCounts (responses : List (RemoteCallResponse U)) (key : String) : Nat :=
  responses.countP fun response => response.key = key

def waveErrors (pending : RemoteCallPendingState) (responses : List (RemoteCallResponse U))
    (timeouts : List RemoteCallTimeout) (events : List (RemoteCallEvent T U)) : ErrorsWave :=
  let (entered, duplicates) :=
    (events.filterMap RemoteCallEvent.request?).foldl errorsRequest (pending, [])
  let (pending, errors) := timeouts.foldl errorsTimeout
    (responses.foldl errorsResponse (entered, []))
  let (pending, _, others) :=
    events.foldl errorsEvent (pending, acceptedResponseCounts responses, errors)
  ⟨pending, duplicates, others⟩

end GraphRefly.Bridge
