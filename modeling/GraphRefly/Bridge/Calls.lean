import GraphRefly.Bridge.CallTable
import GraphRefly.Bridge.Session

/-!
# Runs Of Remote Calls

A bridge with the nodes of remote calls behind it. Every fact of the bridge reaches
the nodes in a wave of its own, and the first one together with the command that
made it. What is seen and what is said is kept in one list of facts, so that which
calls are outstanding can be read off that list alone.

## Main definitions

* `RemoteCallNodes.wave`: The nodes over one wave.
* `outstanding`: The calls sent that nothing has settled since.
* `Accounted`: One outcome for each call, an exact count, and no false duplicate.
* `remoteRun`: Commands, envelopes of the peer and timeouts, in any order.

## Theorems

* `Holds.wave`: What a wave does to the tables and says.
-/

namespace GraphRefly.Bridge

open List

variable {T U : Type}

/-! ### What is seen and said -/

inductive RemoteFact (T U : Type)
  | event (event : RemoteCallEvent T U)
  | timeout (timeout : RemoteCallTimeout)
  | response (response : RemoteCallResponse U)
  | status (status : RemoteCallStatus)
  | duplicate (error : RemoteCallError)
  | error (error : RemoteCallError)

/-- A terminal response settles the calls of its identifier. -/
def RemoteCallResponse.settle (calls : List RemoteCall) (r : RemoteCallResponse U) :
    List RemoteCall :=
  if r.isTerminal then withoutId r.requestId calls else calls

/-- The call an envelope sends. It is sent by the first attempt; a later attempt of the
    envelope sends nothing new. -/
def WireBridgeEnvelope.call? (envelope : WireBridgeEnvelope (RemoteCallRequest T)) :
    Option RemoteCall :=
  match envelope.payload with
  | some (.data request) =>
    if envelope.metadata.attempt = 1 then
      some ⟨request.operation, request.requestId, envelope.metadata.seq⟩
    else none
  | _ => none

/-- What a fact does to the calls that are outstanding. -/
def RemoteFact.settle (calls : List RemoteCall) : RemoteFact T U → List RemoteCall
  | .event (.outbound envelope) => calls ++ envelope.call?.toList
  | .event (.nack _ _ outbound _) => withoutSeq outbound.metadata.seq calls
  | .event (.exhausted seq _ _) => withoutSeq seq calls
  | .response r => r.settle calls
  | .timeout t => withoutId t.requestId calls
  | _ => calls

/-- The calls a list of facts sends. -/
def sentCalls (facts : List (RemoteFact T U)) : List RemoteCall :=
  facts.filterMap fun
    | .event (.outbound envelope) => envelope.call?
    | _ => none

/-- The calls that were sent and have had no terminal response, nack, exhaustion or
    timeout since. -/
def outstanding (log : List (RemoteFact T U)) : List RemoteCall :=
  log.foldl RemoteFact.settle []

/-- The identifiers of the terminal responses let through. -/
def answeredIds (log : List (RemoteFact T U)) : List String :=
  log.filterMap fun
    | .response r => if r.isTerminal then some r.requestId else none
    | _ => none

/-- Every call has at most one outcome and only while it is outstanding, every status
    counts the calls outstanding, and no call is reported as a duplicate. -/
structure Accounted (log : List (RemoteFact T U)) : Prop where
  once : (answeredIds log).Nodup
  answers : ∀ before response after, log = before ++ .response response :: after →
    response.isTerminal = true → ∃ call ∈ outstanding before,
      call.requestId = response.requestId ∧ call.operation = response.operation
  pending : ∀ before status after, log = before ++ .status status :: after →
    status.pending = (outstanding before).length
  unique : ∀ error, .duplicate error ∉ log

/-- What a fact may be when given calls are outstanding. -/
def RemoteFact.Fair (calls : List RemoteCall) : RemoteFact T U → Prop
  | .response r => r.isTerminal = true → ∃ call ∈ calls,
      call.requestId = r.requestId ∧ call.operation = r.operation
  | .status s => s.pending = calls.length
  | .duplicate _ => False
  | _ => True

/-- Every fact is fair where it stands. -/
def Fair (calls : List RemoteCall) (facts : List (RemoteFact T U)) : Prop :=
  match facts with
  | [] => True
  | fact :: facts => fact.Fair calls ∧ Fair (fact.settle calls) facts

theorem fair_append (calls : List RemoteCall) (fs gs : List (RemoteFact T U)) :
    Fair calls (fs ++ gs) ↔ Fair calls fs ∧ Fair (fs.foldl RemoteFact.settle calls) gs := by
  induction fs generalizing calls with
  | nil => simp [Fair]
  | cons f fs ih =>
    simp only [cons_append, Fair, ih, foldl_cons]
    exact and_assoc.symm

variable {calls : List RemoteCall}

theorem fair_at {before after : List (RemoteFact T U)}
    {fact : RemoteFact T U} (h : Fair calls (before ++ fact :: after)) :
    fact.Fair (before.foldl RemoteFact.settle calls) :=
  ((fair_append calls before (fact :: after)).mp h).2.1

theorem fair_of_at (facts : List (RemoteFact T U))
    (h : ∀ before fact after, facts = before ++ fact :: after →
      fact.Fair (before.foldl RemoteFact.settle calls)) : Fair calls facts := by
  induction facts generalizing calls with
  | nil => trivial
  | cons fact facts ih =>
    refine ⟨h [] fact facts rfl, ih ?_⟩
    intro before f after heq
    exact h (fact :: before) f after (by rw [heq]; rfl)

theorem accounted_iff (log : List (RemoteFact T U)) :
    Accounted log ↔ (answeredIds log).Nodup ∧ Fair [] log := by
  constructor
  · intro h
    refine ⟨h.once, fair_of_at log ?_⟩
    intro before fact after heq
    cases fact with
    | response response => exact h.answers before response after heq
    | status status => exact h.pending before status after heq
    | duplicate error => exact h.unique error (heq ▸ by simp)
    | event event => trivial
    | timeout timeout => trivial
    | error error => trivial
  · rintro ⟨honce, hfair⟩
    refine ⟨honce, ?_, ?_, ?_⟩
    · intro before response after heq
      exact fair_at (heq ▸ hfair)
    · intro before status after heq
      exact fair_at (heq ▸ hfair)
    · intro error hmem
      obtain ⟨before, after, heq⟩ := append_of_mem hmem
      exact fair_at (heq ▸ hfair)

theorem Accounted.left {fs gs : List (RemoteFact T U)} (h : Accounted (fs ++ gs)) :
    Accounted fs := by
  obtain ⟨honce, hfair⟩ := (accounted_iff _).mp h
  refine (accounted_iff _).mpr ⟨?_, ((fair_append [] fs gs).mp hfair).1⟩
  rw [answeredIds, filterMap_append] at honce
  exact honce.of_append_left

/-! ### The nodes over one wave -/

structure RemoteCallNodes where
  responses : RemoteCallPendingState
  status : RemoteCallStatusReducer
  errors : RemoteCallPendingState

def RemoteCallNodes.initial : RemoteCallNodes := ⟨.default, .default, .default⟩

/-- What arrives in one wave. -/
structure RemoteCallWave (T U : Type) where
  commands : List (WireBridgeCommand (RemoteCallRequest T))
  events : List (RemoteCallEvent T U)
  timeouts : List RemoteCallTimeout

/-- The nodes over one wave: the responses node, the results node, the status node and
    the errors node. -/
def RemoteCallNodes.wave (nodes : RemoteCallNodes) (wave : RemoteCallWave T U) :
    RemoteCallNodes × List (RemoteFact T U) :=
  let (responses, ready) := waveResponses nodes.responses wave.commands wave.events wave.timeouts
  let status := waveStatus nodes.status wave.commands wave.events ready (waveResults ready)
    wave.timeouts
  let errors := waveErrors nodes.errors ready wave.timeouts wave.events
  (⟨responses, status, errors.pending⟩,
    wave.events.map .event ++ wave.timeouts.map .timeout ++ ready.map .response ++
      .status status.status :: (errors.duplicates.map .duplicate ++ errors.others.map .error))

/-- The three tables hold the same calls, no two of them alike, and none has ended
    before its request. -/
structure Holds (calls : List RemoteCall) (nodes : RemoteCallNodes) : Prop where
  distinct : Distinct calls
  responses : nodes.responses = .of calls
  status : nodes.status.pending = .of calls
  calm : nodes.status.terminalBeforeRequest = ∅
  errors : nodes.errors = .of calls

theorem Holds.initial : Holds [] .initial :=
  ⟨Distinct.nil, RemoteCallPendingState.default_eq, RemoteCallPendingState.default_eq, rfl,
    RemoteCallPendingState.default_eq⟩

/-! ### A fact of the bridge that sends no call -/

/-- The response of a fact that the responses node lets through. -/
def accepted (calls : List RemoteCall) (event : RemoteCallEvent T U) :
    List (RemoteCallResponse U) :=
  match event.response? with
  | none => []
  | some r =>
    match callOf calls r.requestId with
    | some call => if r.operation = call.operation then [r] else []
    | none => []

/-- The calls outstanding after a fact and the response it brings. -/
def settled (calls : List RemoteCall) (event : RemoteCallEvent T U) : List RemoteCall :=
  (accepted calls event).foldl RemoteCallResponse.settle ((RemoteFact.event event).settle calls)

theorem accepted_eq_nil {event : RemoteCallEvent T U}
    (h : event.response? = none) : accepted calls event = [] := by
  rw [accepted, h]

theorem accepted_cases (calls : List RemoteCall) (event : RemoteCallEvent T U) :
    accepted calls event = [] ∨ ∃ r call, event.response? = some r ∧ accepted calls event = [r] ∧
      callOf calls r.requestId = some call ∧ r.operation = call.operation := by
  cases hr : event.response? with
  | none => exact Or.inl (accepted_eq_nil hr)
  | some r =>
    cases hc : callOf calls r.requestId with
    | none => exact Or.inl (by simp only [accepted, hr, hc])
    | some call =>
      by_cases hop : r.operation = call.operation
      · exact Or.inr ⟨r, call, rfl, by simp only [accepted, hr, hc, if_pos hop], hc, hop⟩
      · exact Or.inl (by simp only [accepted, hr, hc, if_neg hop])

variable {envelope : WireBridgeEnvelope (RemoteCallRequest T)}

theorem call?_of_request?_none
    (h : pendingRequestFromEnvelope envelope = none) : envelope.call? = none := by
  unfold pendingRequestFromEnvelope at h
  unfold WireBridgeEnvelope.call?
  split
  · simp_all
  · rfl

theorem settle_of_request?_none
    (h : RemoteCallEvent.request? (U := U) (.outbound envelope) = none) (calls : List RemoteCall) :
    (RemoteFact.event (U := U) (.outbound envelope)).settle calls = calls := by
  rw [RemoteFact.settle, call?_of_request?_none h]
  exact append_nil calls

namespace RemoteCallStatusReducer

variable (reducer : RemoteCallStatusReducer)

@[simp] theorem bridgeError_pending (request : Option RemoteCallPendingRequest) (error : String) :
    (reducer.bridgeError request error).pending = reducer.pending := by
  cases request <;> simp only [bridgeError] <;> split <;> rfl

@[simp] theorem bridgeError_terminalBeforeRequest (request : Option RemoteCallPendingRequest)
    (error : String) :
    (reducer.bridgeError request error).terminalBeforeRequest = reducer.terminalBeforeRequest := by
  cases request <;> simp only [bridgeError] <;> split <;> rfl

@[simp] theorem counted_pending : reducer.counted.pending = reducer.pending := rfl

@[simp] theorem counted_terminalBeforeRequest :
    reducer.counted.terminalBeforeRequest = reducer.terminalBeforeRequest := rfl

@[simp] theorem counted_status_pending : reducer.counted.status.pending = reducer.pending.len := rfl

@[simp] theorem event_outbound (envelope : WireBridgeEnvelope (RemoteCallRequest T)) :
    reducer.event (.outbound envelope : RemoteCallEvent T U) = reducer :=
  rfl

variable {reducer} {calls : List RemoteCall}

theorem event_of (hd : Distinct calls) (hp : reducer.pending = .of calls)
    (event : RemoteCallEvent T U) (hr : event.request? = none) :
    (reducer.event event).pending = .of ((RemoteFact.event event).settle calls) ∧
      (reducer.event event).terminalBeforeRequest = reducer.terminalBeforeRequest := by
  cases event with
  | outbound envelope =>
    exact ⟨hp.trans (congrArg _ (settle_of_request?_none hr calls).symm), rfl⟩
  | inbound envelope =>
    simp only [RemoteCallStatusReducer.event]
    split
    · exact ⟨hp, rfl⟩
    · split
      · exact ⟨hp, rfl⟩
      · split
        · exact ⟨hp, rfl⟩
        · split <;> exact ⟨hp, rfl⟩
  | nack ackForSeq envelope outbound error =>
    simp only [RemoteCallStatusReducer.event, bridgeError_pending,
      bridgeError_terminalBeforeRequest, hp, RemoteCallPendingState.removeBySeq_of hd]
    exact ⟨rfl, trivial⟩
  | exhausted seq attempt error =>
    simp only [RemoteCallStatusReducer.event, bridgeError_pending,
      bridgeError_terminalBeforeRequest, hp, RemoteCallPendingState.removeBySeq_of hd]
    exact ⟨rfl, trivial⟩
  | invalid error =>
    refine ⟨?_, rfl⟩
    exact (congrArg RemoteCallPendingState.removeAllUnbound hp).trans
      (RemoteCallPendingState.removeAllUnbound_of calls)
  | ack ackForSeq envelope outbound => exact ⟨hp, rfl⟩
  | timeout seq attempt => exact ⟨hp, rfl⟩
  | retry seq attempt delayMs error => exact ⟨hp, rfl⟩
  | cursor cursor => exact ⟨hp, rfl⟩
  | duplicate seq cursor => exact ⟨hp, rfl⟩
  | outOfOrder seq expected => exact ⟨hp, rfl⟩
  | sessionMismatch expected actual => exact ⟨hp, rfl⟩
  | lateReceipt receipt ackForSeq => exact ⟨hp, rfl⟩

variable {call : RemoteCall}

theorem terminal_of (hd : Distinct calls) (hp : reducer.pending = .of calls)
    {id : String} (hc : callOf calls id = some call) (operation : String) :
    (reducer.terminal operation id).pending = .of (withoutId id calls) ∧
      (reducer.terminal operation id).terminalBeforeRequest = reducer.terminalBeforeRequest := by
  simp only [terminal, hp, RemoteCallPendingState.removeByRequestId_of hd, hc, Option.map_some]
  exact ⟨trivial, by simp [RemoteCall.request]⟩

/-- What a response to an outstanding call does, with the result made of it. -/
theorem response_of (hd : Distinct calls) (hp : reducer.pending = .of calls)
    (r : RemoteCallResponse U) (hc : callOf calls r.requestId = some call) :
    ((waveResults [r]).foldl result (reducer.response r)).pending =
        .of (r.settle calls) ∧
      ((waveResults [r]).foldl result (reducer.response r)).terminalBeforeRequest =
        reducer.terminalBeforeRequest := by
  cases r with
  | result operation id payload =>
    obtain ⟨h₁, h₂⟩ := terminal_of hd hp hc operation
    exact ⟨h₁, h₂⟩
  | error operation id error =>
    obtain ⟨h₁, h₂⟩ := terminal_of hd hp hc operation
    exact ⟨h₁, h₂⟩
  | status operation id status =>
    simp only [waveResults, filterMap_cons, filterMap_nil, foldl_nil, response]
    split <;> exact ⟨hp, rfl⟩

end RemoteCallStatusReducer

section Quiet

variable {calls : List RemoteCall}

theorem responsesEvent_of (hd : Distinct calls) (event : RemoteCallEvent T U)
    (hr : event.request? = none) :
    responsesEvent (.of calls, []) event = (.of (settled calls event), accepted calls event) := by
  cases event with
  | inbound envelope =>
    simp only [responsesEvent, settled]
    cases hres : RemoteCallEvent.response? (T := T) (.inbound envelope) with
    | none => simp only [accepted, hres]; rfl
    | some r =>
      cases hc : callOf calls r.requestId with
      | none => simp only [RemoteCallPendingState.of, accepted, hres, hc]; rfl
      | some call =>
        have hlookup : (RemoteCallPendingState.of calls).byRequestId r.requestId =
            some call.request := by
          simp only [RemoteCallPendingState.of, hc, Option.map_some]
        by_cases hop : r.operation = call.operation
        · by_cases hterm : r.isTerminal = true
          · simp [accepted, hres, hc, hlookup, hop, hterm, RemoteCallResponse.matchesPending,
              RemoteCall.request, RemoteFact.settle,
              RemoteCallResponse.settle, RemoteCallPendingState.removeByRequestId_of hd]
          · simp [accepted, hres, hc, hlookup, hop, hterm, RemoteCallResponse.matchesPending,
              RemoteCall.request, RemoteFact.settle, RemoteCallResponse.settle]
        · simp [accepted, hres, hc, hlookup, hop, RemoteCallResponse.matchesPending,
            RemoteCall.request, RemoteFact.settle]
  | nack ackForSeq envelope outbound error =>
    simp only [responsesEvent, RemoteCallPendingState.removeBySeq_of hd]
    rfl
  | exhausted seq attempt error =>
    simp only [responsesEvent, RemoteCallPendingState.removeBySeq_of hd]
    rfl
  | invalid error =>
    simp only [responsesEvent, RemoteCallPendingState.removeAllUnbound_of]
    rfl
  | outbound envelope =>
    simp only [settled, accepted, RemoteCallEvent.response?, settle_of_request?_none hr calls]
    rfl
  | ack ackForSeq envelope outbound => rfl
  | timeout seq attempt => rfl
  | retry seq attempt delayMs error => rfl
  | cursor cursor => rfl
  | duplicate seq cursor => rfl
  | outOfOrder seq expected => rfl
  | sessionMismatch expected actual => rfl
  | lateReceipt receipt ackForSeq => rfl

/-- A response to an outstanding call takes it from the errors node's table. -/
theorem errorsResponse_of (hd : Distinct calls) (errors : List RemoteCallError)
    (r : RemoteCallResponse U) :
    (errorsResponse (.of calls, errors) r).1 = .of (r.settle calls) := by
  cases r with
  | result operation id payload =>
    exact congrArg Prod.fst (RemoteCallPendingState.removeByRequestId_of hd id)
  | error operation id error =>
    exact congrArg Prod.fst (RemoteCallPendingState.removeByRequestId_of hd id)
  | status operation id status => rfl

theorem errorsEvent_of (hd : Distinct calls) (counts : String → Nat)
    (errors : List RemoteCallError) (event : RemoteCallEvent T U) (hr : event.request? = none) :
    (errorsEvent (.of calls, counts, errors) event).1 =
      .of ((RemoteFact.event event).settle calls) := by
  cases event with
  | inbound envelope =>
    simp only [errorsEvent]
    split
    · rfl
    · split
      · rfl
      · split
        · split <;> rfl
        · rfl
  | nack ackForSeq envelope outbound error =>
    simp only [errorsEvent, RemoteCallPendingState.removeBySeq_of hd]
    rfl
  | exhausted seq attempt error =>
    simp only [errorsEvent, RemoteCallPendingState.removeBySeq_of hd]
    rfl
  | outbound envelope =>
    exact congrArg RemoteCallPendingState.of (settle_of_request?_none hr calls).symm
  | invalid error => rfl
  | ack ackForSeq envelope outbound => rfl
  | timeout seq attempt => rfl
  | retry seq attempt delayMs error => rfl
  | cursor cursor => rfl
  | duplicate seq cursor => rfl
  | outOfOrder seq expected => rfl
  | sessionMismatch expected actual => rfl
  | lateReceipt receipt ackForSeq => rfl

theorem settle_event_of_response {event : RemoteCallEvent T U} {r : RemoteCallResponse U}
    (h : event.response? = some r) (calls : List RemoteCall) :
    (RemoteFact.event event).settle calls = calls := by
  cases event with
  | inbound envelope => rfl
  | _ => exact absurd h (by simp [RemoteCallEvent.response?])

theorem RemoteCallResponse.settle_distinct (hd : Distinct calls) (r : RemoteCallResponse U) :
    Distinct (r.settle calls) := by
  unfold RemoteCallResponse.settle
  split
  · exact hd.filter _
  · exact hd

theorem settled_distinct (hd : Distinct calls) (event : RemoteCallEvent T U)
    (hr : event.request? = none) : Distinct ((RemoteFact.event event).settle calls) := by
  cases event with
  | outbound envelope =>
    rw [settle_of_request?_none hr]
    exact hd
  | nack ackForSeq envelope outbound error => exact hd.filter _
  | exhausted seq attempt error => exact hd.filter _
  | _ => exact hd

end Quiet

/-! ### The waves -/

/-- What a wave leaves when its facts are fair: the tables follow the facts. -/
structure Kept (calls : List RemoteCall) (nodes : RemoteCallNodes) (facts : List (RemoteFact T U))
    (sent : List RemoteCall) : Prop where
  holds : Holds (facts.foldl RemoteFact.settle calls) nodes
  fair : Fair calls facts
  sent : sentCalls facts = sent

theorem foldl_settle_tail (calls : List RemoteCall) (status : RemoteCallStatus)
    (others : List RemoteCallError) :
    (RemoteFact.status status :: others.map (RemoteFact.error (T := T) (U := U))).foldl
      RemoteFact.settle calls = calls := by
  have herrors : (others.map (RemoteFact.error (T := T) (U := U))).foldl RemoteFact.settle calls =
      calls := by
    induction others with
    | nil => rfl
    | cons e es ih => exact ih
  exact herrors

theorem fair_tail {status : RemoteCallStatus}
    (h : status.pending = calls.length) (others : List RemoteCallError) :
    Fair calls (RemoteFact.status status :: others.map (RemoteFact.error (T := T) (U := U))) := by
  refine ⟨h, ?_⟩
  show Fair calls _
  induction others with
  | nil => trivial
  | cons e es ih => exact ⟨trivial, ih⟩

theorem sentCalls_append (fs gs : List (RemoteFact T U)) :
    sentCalls (fs ++ gs) = sentCalls fs ++ sentCalls gs :=
  filterMap_append

theorem sentCalls_tail (status : RemoteCallStatus) (others : List RemoteCallError) :
    sentCalls (RemoteFact.status status :: others.map
      (RemoteFact.error (T := T) (U := U))) = [] := by
  simp [sentCalls, filterMap_map]

theorem RemoteCallNodes.wave_commands (nodes : RemoteCallNodes)
    {commands : List (WireBridgeCommand (RemoteCallRequest T))}
    (h : ∀ command ∈ commands, pendingRequestFromCommand command = none)
    (events : List (RemoteCallEvent T U)) (timeouts : List RemoteCallTimeout) :
    nodes.wave ⟨commands, events, timeouts⟩ = nodes.wave ⟨[], events, timeouts⟩ := by
  have hnone : commands.filterMap pendingRequestFromCommand = [] :=
    filterMap_eq_nil_iff.mpr h
  have hstatus : commands.foldl RemoteCallStatusReducer.command nodes.status = nodes.status := by
    induction commands with
    | nil => rfl
    | cons command commands ih =>
      have hhead : nodes.status.command command = nodes.status := by
        rw [RemoteCallStatusReducer.command, h command mem_cons_self]
      rw [foldl_cons, hhead]
      exact ih (fun c hc => h c (mem_cons_of_mem command hc))
        (filterMap_eq_nil_iff.mpr fun c hc => h c (mem_cons_of_mem command hc))
  simp only [RemoteCallNodes.wave, waveResponses, waveStatus, hnone, hstatus, filterMap_nil,
    foldl_nil]

variable {calls : List RemoteCall} {nodes : RemoteCallNodes}

theorem Holds.silent (h : Holds calls nodes) :
    Kept calls (nodes.wave (T := T) (U := U) ⟨[], [], []⟩).1
      (nodes.wave (T := T) (U := U) ⟨[], [], []⟩).2
      [] := by
  have hcount : nodes.status.counted.status.pending = calls.length := by
    rw [RemoteCallStatusReducer.counted_status_pending, h.status,
      RemoteCallPendingState.len_of h.distinct]
  exact ⟨⟨h.distinct, h.responses, h.status, h.calm, h.errors⟩, fair_tail hcount [], rfl⟩

theorem Holds.expire (h : Holds calls nodes) (t : RemoteCallTimeout) :
    Kept calls (nodes.wave (T := T) (U := U) ⟨[], [], [t]⟩).1
      (nodes.wave (T := T) (U := U) ⟨[], [], [t]⟩).2 [] := by
  have hd := h.distinct
  have hremove : ((RemoteCallPendingState.of calls).removeByRequestId t.requestId).1 =
      .of (withoutId t.requestId calls) := by
    rw [RemoteCallPendingState.removeByRequestId_of hd]
  have hd' : Distinct (withoutId t.requestId calls) := hd.filter _
  have hpending : (nodes.status.timeout t).pending = .of (withoutId t.requestId calls) :=
    (congrArg (fun p => (p.removeByRequestId t.requestId).1) h.status).trans hremove
  have hcount : (nodes.status.timeout t).counted.status.pending =
      (withoutId t.requestId calls).length := by
    rw [RemoteCallStatusReducer.counted_status_pending, hpending,
      RemoteCallPendingState.len_of hd']
  refine ⟨⟨hd', ?_, hpending, h.calm, ?_⟩, ⟨trivial, fair_tail hcount _⟩, rfl⟩
  · exact (congrArg (fun p => (p.removeByRequestId t.requestId).1) h.responses).trans hremove
  · exact (congrArg (fun p => (p.removeByRequestId t.requestId).1) h.errors).trans hremove

theorem waveStatus_count (reducer : RemoteCallStatusReducer)
    (commands : List (WireBridgeCommand (RemoteCallRequest T)))
      (events : List (RemoteCallEvent T U))
    (responses : List (RemoteCallResponse U)) (results : List (RemoteCallResult U))
    (timeouts : List RemoteCallTimeout) :
    (waveStatus reducer commands events responses results timeouts).status.pending =
      (waveStatus reducer commands events responses results timeouts).pending.len :=
  rfl

section Event

variable {event : RemoteCallEvent T U}

/-- Without a response only the fact settles; with one only the response does. -/
theorem settled_cases (calls : List RemoteCall) (event : RemoteCallEvent T U) :
    accepted calls event = [] ∧ settled calls event = (RemoteFact.event event).settle calls ∨
      ∃ r call, accepted calls event = [r] ∧ settled calls event = r.settle calls ∧
        (∀ cs, (RemoteFact.event event).settle cs = cs) ∧ callOf calls r.requestId = some call ∧
          r.operation = call.operation := by
  rcases accepted_cases calls event with hacc | ⟨r, call, hres, hacc, hcall, hop⟩
  · refine Or.inl ⟨hacc, ?_⟩
    rw [settled, hacc]
    rfl
  · refine Or.inr ⟨r, call, hacc, ?_, settle_event_of_response hres, hcall, hop⟩
    rw [settled, hacc, settle_event_of_response hres]
    rfl

theorem waveResponses_of (h : Holds calls nodes) (hr : event.request? = none) :
    waveResponses nodes.responses [] [event] [] =
      (.of (settled calls event), accepted calls event) := by
  have hnone : [event].filterMap RemoteCallEvent.request? = [] := by simp [hr]
  simp only [waveResponses, hnone, filterMap_nil, foldl_nil, foldl_cons, ite_self,
    h.responses, responsesEvent_of h.distinct event hr]

theorem distinct_settled (hd : Distinct calls) (hr : event.request? = none) :
    Distinct (settled calls event) := by
  rcases settled_cases calls event with ⟨_, hset⟩ | ⟨r, _, _, hset, _⟩
  · rw [hset]
    exact settled_distinct hd event hr
  · rw [hset]
    exact RemoteCallResponse.settle_distinct hd r

theorem waveStatus_of (h : Holds calls nodes) (hr : event.request? = none) :
    (waveStatus nodes.status [] [event] (accepted calls event)
        (waveResults (accepted calls event)) []).pending = .of (settled calls event) ∧
      (waveStatus nodes.status [] [event] (accepted calls event)
        (waveResults (accepted calls event)) []).terminalBeforeRequest = ∅ := by
  have hnone : [event].filterMap RemoteCallEvent.request? = [] := by simp [hr]
  obtain ⟨hp, hc⟩ := RemoteCallStatusReducer.event_of h.distinct h.status event hr
  simp only [waveStatus, hnone, foldl_nil, foldl_cons,
    RemoteCallStatusReducer.counted_pending, RemoteCallStatusReducer.counted_terminalBeforeRequest]
  rcases settled_cases calls event with ⟨hacc, hset⟩ | ⟨r, call, hacc, hset, hsame, hcall, _⟩
  · rw [hacc, hset]
    exact ⟨hp, hc.trans h.calm⟩
  · rw [hacc, hset]
    rw [hsame] at hp
    obtain ⟨hp', hc'⟩ := RemoteCallStatusReducer.response_of h.distinct hp r hcall
    exact ⟨hp', hc'.trans (hc.trans h.calm)⟩

/-- The errors node sees the response first and then the fact that brings it. -/
theorem waveErrors_of (h : Holds calls nodes) (hr : event.request? = none) :
    (waveErrors nodes.errors (accepted calls event) [] [event]).pending =
        .of (settled calls event) ∧
      (waveErrors nodes.errors (accepted calls event) [] [event]).duplicates = [] := by
  have hd := h.distinct
  have hnone : [event].filterMap RemoteCallEvent.request? = [] := by simp [hr]
  simp only [waveErrors, hnone, foldl_nil, foldl_cons, h.errors, and_true]
  rcases settled_cases calls event with ⟨hacc, hset⟩ | ⟨r, call, hacc, hset, hsame, _⟩
  · rw [hacc, hset]
    exact errorsEvent_of hd _ _ event hr
  · rw [hacc, hset, ← hsame (r.settle calls)]
    have hfirst := errorsResponse_of hd [] r
    rw [foldl_cons, foldl_nil]
    generalize errorsResponse (RemoteCallPendingState.of calls, []) r = acc at hfirst ⊢
    obtain ⟨pending, errors⟩ := acc
    obtain rfl : pending = .of (r.settle calls) := hfirst
    exact errorsEvent_of (RemoteCallResponse.settle_distinct hd r) _ _ event hr

theorem accepted_fair (calls : List RemoteCall) (event : RemoteCallEvent T U) :
    Fair ((RemoteFact.event event).settle calls)
      ((accepted calls event).map (RemoteFact.response (T := T))) := by
  rcases settled_cases calls event with ⟨hacc, _⟩ | ⟨r, call, hacc, _, hsame, hcall, hop⟩
  · rw [hacc]
    trivial
  · obtain ⟨hmem, hid⟩ := callOf_eq_some hcall
    rw [hacc, hsame]
    exact ⟨fun _ => ⟨call, hmem, hid, hop.symm⟩, trivial⟩

theorem Holds.report (h : Holds calls nodes) (hr : event.request? = none) :
    Kept calls (nodes.wave ⟨[], [event], []⟩).1 (nodes.wave ⟨[], [event], []⟩).2 [] := by
  obtain ⟨hp, hc⟩ := waveStatus_of h hr
  obtain ⟨herrors, hdup⟩ := waveErrors_of h hr
  have hd := distinct_settled h.distinct hr
  have hcount := (waveStatus_count nodes.status [] [event] (accepted calls event)
    (waveResults (accepted calls event)) []).trans
      ((congrArg RemoteCallPendingState.len hp).trans (RemoteCallPendingState.len_of hd))
  -- The facts are the bridge's, what is let through, and what is said at the end.
  simp only [RemoteCallNodes.wave, waveResponses_of h hr, hdup, map_nil, nil_append,
    map_cons, append_nil, cons_append]
  have hresponses : ((accepted calls event).map (RemoteFact.response (T := T))).foldl
      RemoteFact.settle ((RemoteFact.event event).settle calls) = settled calls event := by
    rw [foldl_map]
    rfl
  refine ⟨?_, ⟨trivial, ?_⟩, ?_⟩
  · rw [foldl_cons, foldl_append, hresponses, foldl_settle_tail]
    exact ⟨hd, rfl, hp, hc, herrors⟩
  · rw [fair_append, hresponses]
    exact ⟨accepted_fair calls event, fair_tail hcount _⟩
  · have hhead : sentCalls [RemoteFact.event event] = [] := by
      cases event with
      | outbound envelope => simp [sentCalls, call?_of_request?_none hr]
      | _ => rfl
    rw [← singleton_append, sentCalls_append, sentCalls_append, sentCalls_tail, hhead]
    simp [sentCalls, filterMap_map]

end Event

section Request

variable {call : RemoteCall} {command : WireBridgeCommand (RemoteCallRequest T)}
  {envelope : WireBridgeEnvelope (RemoteCallRequest T)}

variable {reducer : RemoteCallStatusReducer}

/-- The status node's table after a command and what comes of it. Nothing is
    remembered, so the command is entered as in the other tables. -/
theorem RemoteCallStatusReducer.command_of
    (hcommand : pendingRequestFromCommand command = some call.preview)
    (hcalm : reducer.terminalBeforeRequest = ∅) :
    (reducer.command command).pending = (reducer.pending.insert call.preview).1 ∧
      (reducer.command command).terminalBeforeRequest = ∅ := by
  simp [RemoteCallStatusReducer.command, hcommand, about, hcalm]

theorem RemoteCallStatusReducer.request_of
    (hcalm : reducer.terminalBeforeRequest = ∅) (request : RemoteCallPendingRequest) :
    (reducer.request request).pending = (reducer.pending.insert request).1 ∧
      (reducer.request request).terminalBeforeRequest = ∅ := by
  by_cases hin : (reducer.pending.insert request).2 = true <;>
    simp [RemoteCallStatusReducer.request, about, hcalm, countError, hin]

theorem Holds.refuse (h : Holds calls nodes)
    (hcommand : pendingRequestFromCommand command = some call.preview) (error : String) :
    Kept calls (nodes.wave (U := U) ⟨[command], [.invalid error], []⟩).1
      (nodes.wave (U := U) ⟨[command], [.invalid error], []⟩).2 [] := by
  obtain ⟨hp, hc⟩ := RemoteCallStatusReducer.command_of hcommand h.calm
  -- Only the status node looks at the command, and forgets it at once.
  have hpending : (waveStatus (U := U) nodes.status [command] [.invalid error] [] [] []).pending =
      .of calls := by
    have hgone := RemoteCallPendingState.removeAllUnbound_insert_preview calls call
    rw [← h.status, ← hp] at hgone
    exact hgone.trans h.status
  have hcount := (waveStatus_count (U := U) nodes.status [command] [.invalid error] [] [] []).trans
    ((congrArg RemoteCallPendingState.len hpending).trans
      (RemoteCallPendingState.len_of h.distinct))
  have hresponses : waveResponses (U := U) nodes.responses [command] [.invalid error] [] =
      (.of calls, []) := by
    have hkept := RemoteCallPendingState.removeAllUnbound_of calls
    rw [← h.responses] at hkept ⊢
    exact congrArg (·, []) hkept
  simp only [RemoteCallNodes.wave, hresponses]
  exact ⟨⟨h.distinct, rfl, hpending, hc, h.errors⟩, ⟨trivial, fair_tail hcount _⟩, rfl⟩

theorem Holds.send (h : Holds calls nodes)
    (hcommand : pendingRequestFromCommand command = some call.preview)
    (hrequest : pendingRequestFromEnvelope envelope = some call.request)
    (hcall : envelope.call? = some call)
    (hid : call.requestId ∉ calls.map RemoteCall.requestId)
    (hseq : call.seq ∉ calls.map RemoteCall.seq) :
    Kept calls (nodes.wave (U := U) ⟨[command], [.outbound envelope], []⟩).1
      (nodes.wave (U := U) ⟨[command], [.outbound envelope], []⟩).2 [call] := by
  have hone : [(.outbound envelope : RemoteCallEvent T U)].filterMap RemoteCallEvent.request? =
      [call.request] := by
    simp [RemoteCallEvent.request?, hrequest]
  have hd := h.distinct.concat hid hseq
  have hinsert := RemoteCallPendingState.insert_of_new hid hseq
  have hbind := RemoteCallPendingState.insert_preview_of_new hid hseq
  obtain ⟨hp₁, hc₁⟩ := RemoteCallStatusReducer.command_of hcommand h.calm
  obtain ⟨hp₂, hc₂⟩ := RemoteCallStatusReducer.request_of hc₁ call.request
  have hpending : (waveStatus (U := U) nodes.status [command] [.outbound envelope] [] []
    []).pending =
      .of (calls ++ [call]) := by
    simp only [waveStatus, hone, foldl_cons, foldl_nil,
      RemoteCallStatusReducer.counted_pending, RemoteCallStatusReducer.event_outbound]
    rw [hp₂, hp₁, h.status, hbind]
  have hcalm : (waveStatus (U := U) nodes.status [command] [.outbound envelope] [] []
      []).terminalBeforeRequest = ∅ := by
    simp only [waveStatus, hone, foldl_cons, foldl_nil,
      RemoteCallStatusReducer.counted_terminalBeforeRequest]
    exact hc₂
  have hcount := (waveStatus_count (U := U) nodes.status [command] [.outbound envelope] [] []
    []).trans ((congrArg RemoteCallPendingState.len hpending).trans
      (RemoteCallPendingState.len_of hd))
  have hresponses : waveResponses (U := U) nodes.responses [command] [.outbound envelope] [] =
      (.of (calls ++ [call]), []) := by
    simp only [waveResponses, hone, filterMap_cons, filterMap_nil, hcommand,
      foldl_cons, foldl_nil, h.responses]
    simp only [any_cons, any_nil, RemoteCallEvent.hasInvalid, Bool.or_false,
      Bool.false_eq_true, if_false, hbind]
    rfl
  have herrors : waveErrors (U := U) nodes.errors [] [] [.outbound envelope] =
      ⟨.of (calls ++ [call]), [], []⟩ := by
    simp only [waveErrors, hone, foldl_cons, foldl_nil, errorsRequest, h.errors, hinsert]
    rfl
  have hsettle : (RemoteFact.event (U := U) (.outbound envelope)).settle calls = calls ++
    [call] := by
    rw [RemoteFact.settle, hcall]
    rfl
  simp only [RemoteCallNodes.wave, hresponses, waveResults, filterMap_nil, herrors,
    map_cons, map_nil, append_nil, singleton_append]
  refine ⟨?_, ⟨trivial, ?_⟩, ?_⟩
  · rw [foldl_cons, hsettle]
    exact ⟨hd, rfl, hpending, hcalm, rfl⟩
  · rw [hsettle]
    exact fair_tail hcount []
  · simp [sentCalls, hcall]

/-- A wave with another attempt of a request is not fair: either the errors node takes
    it for a duplicate or the status node counts a call that was settled. -/
theorem Holds.repeat (h : Holds calls nodes)
    (hrequest : pendingRequestFromEnvelope envelope = some call.request)
    (hcall : envelope.call? = none) :
    ¬ Fair calls (nodes.wave (U := U) ⟨[], [.outbound envelope], []⟩).2 := by
  have hone : [(.outbound envelope : RemoteCallEvent T U)].filterMap RemoteCallEvent.request? =
      [call.request] := by
    simp [RemoteCallEvent.request?, hrequest]
  have hsettle : (RemoteFact.event (U := U) (.outbound envelope)).settle calls = calls := by
    rw [RemoteFact.settle, hcall]
    exact append_nil calls
  have hready : (waveResponses (U := U) nodes.responses [] [.outbound envelope] []).2 = [] := rfl
  intro hfair
  have htail : Fair calls (.status (waveStatus (U := U) nodes.status [] [.outbound envelope] [] []
      []).status :: ((waveErrors (U := U) nodes.errors [] [] [.outbound envelope]).duplicates.map
        .duplicate ++ (waveErrors (U := U) nodes.errors [] [] [.outbound envelope]).others.map
          (RemoteFact.error (T := T) (U := U)))) := by
    have hrest := hfair.2
    rw [hsettle] at hrest
    exact hrest
  obtain ⟨hcount, hrest⟩ := htail
  by_cases hknown : call.requestId ∈ calls.map RemoteCall.requestId ∨
      call.seq ∈ calls.map RemoteCall.seq
  · have hdup : (waveErrors (U := U) nodes.errors [] [] [.outbound envelope]).duplicates =
        [duplicateError call.request] := by
      simp only [waveErrors, hone, foldl_cons, foldl_nil, errorsRequest, h.errors,
        RemoteCallPendingState.insert_of_known hknown]
      rfl
    rw [hdup] at hrest
    exact hrest.1
  · obtain ⟨hid, hseq⟩ := not_or.mp hknown
    have hpending : (waveStatus (U := U) nodes.status [] [.outbound envelope] [] [] []).pending =
        .of (calls ++ [call]) := by
      simp only [waveStatus, hone, foldl_cons, foldl_nil,
        RemoteCallStatusReducer.counted_pending, RemoteCallStatusReducer.event_outbound]
      rw [(RemoteCallStatusReducer.request_of h.calm _).1, h.status,
        RemoteCallPendingState.insert_of_new hid hseq]
    have hlength := (waveStatus_count (U := U) nodes.status [] [.outbound envelope] [] [] []).trans
      ((congrArg RemoteCallPendingState.len hpending).trans
        (RemoteCallPendingState.len_of (h.distinct.concat hid hseq)))
    rw [length_append, length_singleton] at hlength
    exact absurd (hcount.symm.trans hlength) (by omega)

end Request

end GraphRefly.Bridge
