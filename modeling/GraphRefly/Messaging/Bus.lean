import GraphRefly.Json.Text
import GraphRefly.Lib.SortedMap
import Mathlib.Data.Finset.Insert
import Mathlib.Data.String.Basic

/-!
# The Message Bus

Topics with numbered messages, subscriptions with a cursor, and the commands
that move them. Every command is answered with a list of facts: a message that
was published, a status or an issue. An issue is also kept as a dead letter.

The clock of the bus is a function the application hands in. Nothing is assumed
of it: it may go back, and a call that panics counts as zero. A reading is the
answer of the clock to one call, so the state counts the calls made so far.

Two sets keep a command from being carried out twice. A command id is entered as
soon as a well-formed command is looked at, whatever becomes of it; the
idempotency key of a publish is entered when its message is.

## Main definitions

* `MessageBusState`: The state of a bus.
* `reduceMessageBusCommand`: A command, with the facts it is answered with.
* `ensureSubscription`, `MessageBusState.subscription`: Opening a subscription.
* `availablePage`: The messages a subscription can read.
* `BusStep`, `busStep`, `busRun`: Commands and openings, one after another.
-/

namespace GraphRefly.Messaging

open GraphRefly.Lib

variable {T : Type}

/-! ### Facts and commands -/

structure DataIssue where
  kind : String
  code : String
  message : String
  severity : String
  source : String
  topic : Option String
  details : Option String
deriving DecidableEq

structure MessageEnvelope (T : Type) where
  topic : String
  seq : Nat
  payload : T
  key : Option String
  timestampMs : Nat
  commandId : Option String
  idempotencyKey : Option String
deriving DecidableEq

/-- What a publish to an unknown topic does. -/
inductive MessageBusTopicPolicy where
  | strict
  | createAsFact
deriving DecidableEq

structure MessageBusRetentionPolicy where
  maxMessages : Option Nat
  maxAgeMs : Option Nat
deriving DecidableEq

/-- How a repeated command is answered. -/
inductive MessageBusDedupeAction where
  | status
  | issue
deriving DecidableEq

inductive MessageBusCommand (T : Type) where
  | ensureTopic (topic : String) (commandId : Option String)
  | closeTopic (topic : String) (commandId : Option String)
  | publish (topic : String) (payload : T) (key commandId idempotencyKey : Option String)
  | topicPolicy (topicPolicy : MessageBusTopicPolicy) (commandId : Option String)
  | ack (topic subscriptionId : String) (seq : Nat) (commandId : Option String)
  | seek (topic subscriptionId : String) (nextSeq : Nat) (commandId : Option String)
  | closeSubscription (topic subscriptionId : String) (commandId : Option String)
deriving DecidableEq

namespace MessageBusCommand

def topic? : MessageBusCommand T → Option String
  | ensureTopic topic _ | closeTopic topic _ | publish topic _ _ _ _ | ack topic _ _ _
  | seek topic _ _ _ | closeSubscription topic _ _ => some topic
  | topicPolicy _ _ => none

def commandId : MessageBusCommand T → Option String
  | ensureTopic _ id | closeTopic _ id | publish _ _ _ id _ | topicPolicy _ id | ack _ _ _ id
  | seek _ _ _ id | closeSubscription _ _ id => id

def subscriptionId : MessageBusCommand T → Option String
  | ack _ id _ _ | seek _ id _ _ | closeSubscription _ id _ => some id
  | _ => none

end MessageBusCommand

inductive MessageBusStatusKind where
  | topicCreated
  | topicClosed
  | messagePublished
  | retentionTrimmed
  | duplicateCommand
  | subscriptionOpened
  | subscriptionAcked
  | subscriptionSought
  | subscriptionClosed
deriving DecidableEq

structure MessageBusStatus where
  kind : MessageBusStatusKind
  topic : Option String
  seq : Option Nat
  headSeq : Option Nat
  subscriptionId : Option String
  nextSeq : Option Nat
  commandId : Option String
  issueCode : Option String
  timestampMs : Nat
  details : Option String
deriving DecidableEq

structure MessageBusDeadLetterEntry (T : Type) where
  entrySeq : Nat
  topic : Option String
  command : Option (MessageBusCommand T)
  message : Option (MessageEnvelope T)
  issue : DataIssue
  timestampMs : Nat
deriving DecidableEq

/-- A fact a command is answered with. -/
inductive RuntimeEvent (T : Type) where
  | message (message : MessageEnvelope T)
  | status (status : MessageBusStatus)
  | issue (issue : DataIssue)
deriving DecidableEq

/-! ### State -/

structure TopicState (T : Type) where
  closed : Bool
  headSeq : Nat
  nextSeq : Nat
  messages : List (MessageEnvelope T)

structure SubscriptionState where
  topic : String
  subscriptionId : String
  nextSeq : Nat
  closed : Bool
  retentionGap : Bool
deriving DecidableEq

structure MessageBusState (T : Type) where
  /-- The answer of the clock to each call, and none where the call panics. -/
  now : Nat → Option Nat
  /-- The calls of the clock so far. -/
  reads : Nat
  topicPolicy : MessageBusTopicPolicy
  retention : MessageBusRetentionPolicy
  dedupe : MessageBusDedupeAction
  topics : SortedMap String (TopicState T)
  subscriptions : SortedMap String SubscriptionState
  seenCommandIds : Finset String
  seenIdempotencyKeys : Finset String
  deadLetters : List (MessageBusDeadLetterEntry T)
  deadLetterSeq : Nat

/-- A state with the facts that were reported on the way to it. -/
abbrev Reduced (T : Type) : Type := MessageBusState T × List (RuntimeEvent T)

def subscriptionKey (topic subscriptionId : String) : String :=
  Json.canonicalTupleKey [topic, subscriptionId]

def idempotencyKeyFor (topic idempotencyKey : String) : String :=
  Json.canonicalTupleKey [topic, idempotencyKey]

def makeTopicState : TopicState T :=
  { closed := false, headSeq := 1, nextSeq := 1, messages := [] }

/-- What a call of the clock is read as. -/
def clockReading (now : Nat → Option Nat) (call : Nat) : Nat := (now call).getD 0

def MessageBusState.timestampOrZero (s : MessageBusState T) : Nat := clockReading s.now s.reads

/-- The state after a call of the clock. -/
def MessageBusState.tick (s : MessageBusState T) : MessageBusState T :=
  { s with reads := s.reads + 1 }

structure StatusFields where
  topic : Option String := none
  seq : Option Nat := none
  headSeq : Option Nat := none
  subscriptionId : Option String := none
  nextSeq : Option Nat := none
  commandId : Option String := none
  details : Option String := none

section

variable (s : MessageBusState T)

/-- A status stamped with the next reading of the clock; the state is ticked by
    the caller. -/
def statusFact (kind : MessageBusStatusKind) (fields : StatusFields) :
    MessageBusStatus :=
  { kind := kind
    topic := fields.topic
    seq := fields.seq
    headSeq := fields.headSeq
    subscriptionId := fields.subscriptionId
    nextSeq := fields.nextSeq
    commandId := fields.commandId
    issueCode := none
    timestampMs := s.timestampOrZero
    details := fields.details }

/-- Report one status. -/
def reportStatus (kind : MessageBusStatusKind) (fields : StatusFields) :
    Reduced T :=
  (s.tick, [.status (statusFact s kind fields)])

/-- Keep an issue as the next dead letter. -/
def MessageBusState.deadLetter (topic : Option String)
    (command : Option (MessageBusCommand T)) (message : Option (MessageEnvelope T))
    (issue : DataIssue) : MessageBusState T :=
  { s.tick with
    deadLetterSeq := s.deadLetterSeq + 1
    deadLetters := s.deadLetters ++
      [{ entrySeq := s.deadLetterSeq + 1
         topic := topic
         command := command
         message := message
         issue := issue
         timestampMs := s.timestampOrZero }] }

def issueEvents (command : Option (MessageBusCommand T))
    (message : Option (MessageEnvelope T)) (code issueMessage : String) : Reduced T :=
  let topic := (command.bind MessageBusCommand.topic?).or (message.map (·.topic))
  let issue : DataIssue :=
    { kind := "issue"
      code := code
      message := issueMessage
      severity := "error"
      source := "messageBus"
      topic := topic
      details := none }
  (s.deadLetter topic command message issue, [.issue issue])

def rejectCommand (command : MessageBusCommand T) (reason : String) :
    Reduced T :=
  issueEvents s (some command) none "malformed-command" reason

/-- A repeated command. The status is stamped even where an issue takes its
    place. -/
def duplicateCommandEvents (command : MessageBusCommand T) (message : String) : Reduced T :=
  let status := reportStatus s .duplicateCommand
    { topic := command.topic?, commandId := command.commandId }
  if s.dedupe = .issue then
    issueEvents status.1 (some command) none "duplicate-command" message
  else status

end

/-! ### Topics -/

def MessageBusState.setTopic (s : MessageBusState T) (topic : String) (t : TopicState T) :
    MessageBusState T :=
  { s with topics := s.topics.insert topic t }

def ensureTopic (s : MessageBusState T) (topic : String) (commandId : Option String) :
    Reduced T :=
  let s := match s.topics.lookup topic with
    | some _ => s
    | none => s.setTopic topic makeTopicState
  reportStatus s .topicCreated { topic := some topic, commandId := commandId }

def closeTopic (s : MessageBusState T) (topic : String) (commandId : Option String) :
    Reduced T :=
  match s.topics.lookup topic with
  | none => issueEvents s (some (.closeTopic topic commandId)) none "unknown-topic" "unknown topic"
  | some t =>
    reportStatus (s.setTopic topic { t with closed := true }) .topicClosed
      { topic := some topic, commandId := commandId }

/-! ### Retention -/

/-- A message young enough to be kept. -/
def MessageBusRetentionPolicy.fresh (retention : MessageBusRetentionPolicy)
    (now timestampMs : Nat) :
    Bool :=
  match retention.maxAgeMs with
  | none => true
  | some maxAgeMs => now - timestampMs ≤ maxAgeMs

/-- The messages that are kept: those young enough, and of these the last
    ones. -/
def MessageBusRetentionPolicy.kept (retention : MessageBusRetentionPolicy) (now : Nat)
    (messages : List (MessageEnvelope T)) : List (MessageEnvelope T) :=
  let messages := messages.filter fun message => retention.fresh now message.timestampMs
  match retention.maxMessages with
  | none => messages
  | some maxMessages => messages.drop (messages.length - maxMessages)

/-- A subscription that the new head of its topic leaves behind. -/
def SubscriptionState.leftBehind (topic : String) (headSeq : Nat) (sub : SubscriptionState) :
    Bool :=
  !sub.closed && sub.topic == topic && decide (sub.nextSeq < headSeq) && !sub.retentionGap

/-- Flag the subscriptions left behind, and report each of them. -/
def flagRetentionGaps (s : MessageBusState T) (topic : String) (headSeq : Nat) : Reduced T :=
  let affected := (s.subscriptions.entries.filter fun e => e.2.leftBehind topic headSeq).map
    (·.2.subscriptionId)
  let s := { s with subscriptions := s.subscriptions.mapValues fun sub =>
    if sub.leftBehind topic headSeq then { sub with retentionGap := true } else sub }
  affected.foldl (fun r subscriptionId =>
    let issued := issueEvents r.1 none none "retention-gap"
      s!"subscription '{subscriptionId}' is before retained headSeq"
    (issued.1, r.2 ++ issued.2)) (s, [])

def trimRetention (s : MessageBusState T) (topic : String) : Reduced T :=
  let now := s.timestampOrZero
  let s := s.tick
  match s.topics.lookup topic with
  | none => (s, [])
  | some t =>
    if s.retention.maxMessages = some 0 then
      -- The messages that are too old are gone by now, the head stays.
      let fresh := t.messages.filter fun message => s.retention.fresh now message.timestampMs
      issueEvents (s.setTopic topic { t with messages := fresh }) none none "policy-rejected"
        "retention.maxMessages must be positive"
    else
      let messages := s.retention.kept now t.messages
      let headSeq := (messages.head?.map (·.seq)).getD t.nextSeq
      let s := s.setTopic topic { t with messages := messages, headSeq := headSeq }
      if headSeq = t.headSeq then (s, [])
      else
        let trimmed := reportStatus s .retentionTrimmed
          { topic := some topic
            headSeq := some headSeq
            details := some s!"trimCount={headSeq - t.headSeq}" }
        let flagged := flagRetentionGaps trimmed.1 topic headSeq
        (flagged.1, trimmed.2 ++ flagged.2)

/-! ### Publishing -/

section

variable (s : MessageBusState T) (topic : String)

/-- Append a message to an open topic. -/
def appendMessage (t : TopicState T) (payload : T)
    (key commandId idempotencyKey : Option String) : Reduced T :=
  let message : MessageEnvelope T :=
    { topic := topic
      seq := t.nextSeq
      payload := payload
      key := key
      timestampMs := s.timestampOrZero
      commandId := commandId
      idempotencyKey := idempotencyKey }
  let s := s.tick
  let s := s.setTopic topic
    { t with nextSeq := t.nextSeq + 1, messages := t.messages ++ [message] }
  let s := match idempotencyKey with
    | none => s
    | some idempotencyKey =>
      { s with seenIdempotencyKeys :=
          insert (idempotencyKeyFor topic idempotencyKey) s.seenIdempotencyKeys }
  let published := reportStatus s .messagePublished
    { topic := some topic, seq := some message.seq, commandId := commandId }
  let trimmed := trimRetention published.1 topic
  (trimmed.1, .message message :: published.2 ++ trimmed.2)

/-- Publish to a topic that exists unless it is closed. -/
def publishToTopic (payload : T) (key commandId idempotencyKey : Option String) : Reduced T :=
  match s.topics.lookup topic with
  | none => issueEvents s none none "unknown-topic" "unknown topic"
  | some t =>
    if t.closed then
      issueEvents s (some (.publish topic payload key commandId idempotencyKey)) none
        "closed-topic" "closed topic"
    else appendMessage s topic t payload key commandId idempotencyKey

def publishMessage (payload : T) (key commandId idempotencyKey : Option String) : Reduced T :=
  if (s.topics.lookup topic).isSome then
    publishToTopic s topic payload key commandId idempotencyKey
  else if s.topicPolicy ≠ .createAsFact then
    issueEvents s (some (.publish topic payload key commandId idempotencyKey)) none
      "unknown-topic" "unknown topic"
  else
    let created := ensureTopic s topic commandId
    let published := publishToTopic created.1 topic payload key commandId idempotencyKey
    (published.1, created.2 ++ published.2)

end

/-! ### Subscriptions -/

section

variable (s : MessageBusState T)

def MessageBusState.setSubscription (sub : SubscriptionState) :
    MessageBusState T :=
  { s with subscriptions :=
      s.subscriptions.insert (subscriptionKey sub.topic sub.subscriptionId) sub }

def ackSubscription (topic subscriptionId : String) (seq : Nat)
    (commandId : Option String) : Reduced T :=
  match s.topics.lookup topic with
  | none => issueEvents s none none "unknown-topic" "unknown topic"
  | some t =>
    let key := subscriptionKey topic subscriptionId
    match s.subscriptions.lookup key with
    | none => issueEvents s none none "unknown-subscription" "unknown subscription"
    | some sub =>
      if sub.closed then
        issueEvents s none none "subscription-closed" "subscription is closed"
      else if sub.retentionGap then
        issueEvents s none none "retention-gap" "subscription must seek before ack"
      else if seq < sub.nextSeq then
        issueEvents s none none "source-cursor-stale" "ack is behind subscription cursor"
      else if seq ≥ t.nextSeq then
        issueEvents s none none "cursor-out-of-range" "ack is beyond topic tail"
      else
        reportStatus
          { s with subscriptions := s.subscriptions.insert key { sub with nextSeq := seq + 1 } }
          .subscriptionAcked
          { topic := some topic
            subscriptionId := some subscriptionId
            nextSeq := some (seq + 1)
            commandId := commandId }

def seekSubscription (topic subscriptionId : String) (nextSeq : Nat)
    (commandId : Option String) : Reduced T :=
  match s.topics.lookup topic with
  | none => issueEvents s none none "unknown-topic" "unknown topic"
  | some t =>
    let key := subscriptionKey topic subscriptionId
    match s.subscriptions.lookup key with
    | none => issueEvents s none none "unknown-subscription" "unknown subscription"
    | some sub =>
      if sub.closed then
        issueEvents s none none "subscription-closed" "subscription is closed"
      else if nextSeq < t.headSeq then
        issueEvents s none none "retention-gap" "seek is before retained headSeq"
      else if nextSeq > t.nextSeq then
        issueEvents s none none "cursor-out-of-range" "seek is beyond topic tail"
      else
        let sought := { sub with nextSeq := nextSeq, retentionGap := false }
        reportStatus { s with subscriptions := s.subscriptions.insert key sought }
          .subscriptionSought
          { topic := some topic
            subscriptionId := some subscriptionId
            nextSeq := some nextSeq
            commandId := commandId }

def closeSubscription (topic subscriptionId : String) (commandId : Option String) : Reduced T :=
  if (s.topics.lookup topic).isNone then
    issueEvents s none none "unknown-topic" "unknown topic"
  else
    let key := subscriptionKey topic subscriptionId
    match s.subscriptions.lookup key with
    | none => issueEvents s none none "unknown-subscription" "unknown subscription"
    | some sub =>
      reportStatus
        { s with subscriptions := s.subscriptions.insert key { sub with closed := true } }
        .subscriptionClosed
        { topic := some topic
          subscriptionId := some subscriptionId
          nextSeq := some sub.nextSeq
          commandId := commandId }

end

/-! ### Commands -/

def validateTopicKey (topic owner : String) : Option String :=
  if topic = "" then some s!"{owner}: topic must be a non-empty string" else none

/-- What is wrong with the shape of a command. -/
def MessageBusCommand.malformed (command : MessageBusCommand T) : Option String :=
  match command.topic?.bind (validateTopicKey · "messageBus") with
  | some error => some error
  | none =>
    if command.subscriptionId = some "" then
      some "subscriptionId must be a non-empty string"
    else none

section

variable (s : MessageBusState T)

/-- A publish whose message has been published under the same key. -/
def MessageBusState.published : MessageBusCommand T → Bool
  | .publish topic _ _ _ (some idempotencyKey) =>
    decide (idempotencyKeyFor topic idempotencyKey ∈ s.seenIdempotencyKeys)
  | _ => false

/-- Carry out a command that has passed the checks for repetition. -/
def dispatchCommand : MessageBusCommand T → Reduced T
  | .ensureTopic topic commandId => ensureTopic s topic commandId
  | .closeTopic topic commandId => closeTopic s topic commandId
  | .topicPolicy topicPolicy _ => ({ s with topicPolicy := topicPolicy }, [])
  | .publish topic payload key commandId idempotencyKey =>
    publishMessage s topic payload key commandId idempotencyKey
  | .ack topic subscriptionId seq commandId => ackSubscription s topic subscriptionId seq commandId
  | .seek topic subscriptionId nextSeq commandId =>
    seekSubscription s topic subscriptionId nextSeq commandId
  | .closeSubscription topic subscriptionId commandId =>
    closeSubscription s topic subscriptionId commandId

/-- A command whose id has been seen. -/
def MessageBusState.seen (command : MessageBusCommand T) : Bool :=
  match command.commandId with
  | none => false
  | some commandId => decide (commandId ∈ s.seenCommandIds)

/-- Remember the id of a command. -/
def MessageBusState.note (command : MessageBusCommand T) :
    MessageBusState T :=
  match command.commandId with
  | none => s
  | some commandId => { s with seenCommandIds := insert commandId s.seenCommandIds }

def reduceMessageBusCommand (command : MessageBusCommand T) : Reduced T :=
  match command.malformed with
  | some reason => rejectCommand s command reason
  | none =>
    if s.seen command then duplicateCommandEvents s command "duplicate commandId"
    else if (s.note command).published command then
      duplicateCommandEvents (s.note command) command "duplicate idempotencyKey"
    else dispatchCommand (s.note command) command

end

/-! ### Opening and reading a subscription -/

inductive MessageBusSubscriptionFrom where
  | earliest
  | latest
  | seq (seq : Nat)
deriving DecidableEq

/-- The debug spelling of a starting position. -/
def MessageBusSubscriptionFrom.text : MessageBusSubscriptionFrom → String
  | earliest => "Earliest"
  | latest => "Latest"
  | seq n => s!"Seq({n})"

structure MessageBusSubscriptionOptions where
  topic : String
  subscriptionId : String
  start : MessageBusSubscriptionFrom

/-- Where a subscription asks to start, on a topic with the given head and tail. -/
def MessageBusSubscriptionFrom.position (start : MessageBusSubscriptionFrom)
    (range : Option (Nat × Nat)) : Nat :=
  match start with
  | earliest => (range.map (·.1)).getD 1
  | latest => (range.map (·.2)).getD 1
  | seq n => n

/-- The issue of a start outside the retained range of its topic. -/
def startIssue (opts : MessageBusSubscriptionOptions) (nextSeq : Nat) :
    Option (Nat × Nat) → Option DataIssue
  | none => none
  | some (headSeq, tailSeq) =>
    if nextSeq < headSeq ∨ nextSeq > tailSeq then
      some
        { kind := "issue"
          code := "cursor-out-of-range"
          message :=
            s!"subscription start seq {nextSeq} is outside retained range {headSeq}..={tailSeq}"
          severity := "error"
          source := "messageBus"
          topic := some opts.topic
          details := some s!"subscriptionId={opts.subscriptionId}" }
    else none

/-- The subscription under its key, whether it was opened now, and the issue of
    its starting position. -/
def ensureSubscription (s : MessageBusState T) (opts : MessageBusSubscriptionOptions) :
    MessageBusState T × SubscriptionState × Bool × Option DataIssue :=
  match s.subscriptions.lookup (subscriptionKey opts.topic opts.subscriptionId) with
  | some existing => (s, existing, false, none)
  | none =>
    let range := (s.topics.lookup opts.topic).map fun t => (t.headSeq, t.nextSeq)
    let asked := opts.start.position range
    let issue := startIssue opts asked range
    let nextSeq := if issue.isSome then (range.map (·.1)).getD 1 else asked
    let s := match issue with
      | none => s
      | some issue => s.deadLetter (some opts.topic) none none issue
    let sub : SubscriptionState :=
      { topic := opts.topic
        subscriptionId := opts.subscriptionId
        nextSeq := nextSeq
        closed := false
        retentionGap := range.any fun r => decide (nextSeq < r.1) }
    (s.setSubscription sub, sub, true, issue)

/-- Open a subscription; an empty name is refused before anything is touched. -/
def MessageBusState.subscription (s : MessageBusState T) (opts : MessageBusSubscriptionOptions) :
    Reduced T :=
  if opts.topic = "" ∨ opts.subscriptionId = "" then (s, [])
  else
    match ensureSubscription s opts with
    | (s, sub, opened, issue) =>
      let reported : Reduced T :=
        if opened then
          reportStatus s .subscriptionOpened
            { topic := some sub.topic
              subscriptionId := some sub.subscriptionId
              nextSeq := some sub.nextSeq
              details := some s!"from={opts.start.text}" }
        else (s, [])
      (reported.1, reported.2 ++ (issue.map RuntimeEvent.issue).toList)

structure MessageBusCursor where
  topic : String
  subscriptionId : String
  nextSeq : Nat
  closed : Bool
  retentionGap : Bool
  headSeq : Nat
deriving DecidableEq

structure MessageBusAvailablePage (T : Type) where
  topic : String
  subscriptionId : String
  cursor : MessageBusCursor
  messages : List (MessageEnvelope T)
  fromSeq : Nat
  throughSeq : Option Nat
  nextAfterSeq : Option Nat
  hasMore : Bool

/-- A limit is positive, and a hundred unless said otherwise. -/
structure MessageBusAvailableParams where
  limit : Option Nat
  afterSeq : Option Nat

def positiveLimit (limit : Option Nat) : Nat := limit.getD 100

section

variable (s : MessageBusState T) (sub : SubscriptionState)

/-- The current state of a subscription, or the one it was opened with. -/
def MessageBusState.current : SubscriptionState :=
  (s.subscriptions.lookup (subscriptionKey sub.topic sub.subscriptionId)).getD sub

def cursorSnapshot : MessageBusCursor :=
  let sub := s.current sub
  { topic := sub.topic
    subscriptionId := sub.subscriptionId
    nextSeq := sub.nextSeq
    closed := sub.closed
    retentionGap := sub.retentionGap
    headSeq := ((s.topics.lookup sub.topic).map (·.headSeq)).getD 1 }

def availablePage (params : MessageBusAvailableParams) : MessageBusAvailablePage T :=
  let sub := s.current sub
  let start := (params.afterSeq.map (· + 1)).getD sub.nextSeq
  let all :=
    if sub.retentionGap then []
    else ((s.topics.lookup sub.topic).map fun t =>
      t.messages.filter fun message => decide (start ≤ message.seq)).getD []
  let limit := positiveLimit params.limit
  let messages := all.take limit
  let throughSeq := messages.getLast?.map (·.seq)
  { topic := sub.topic
    subscriptionId := sub.subscriptionId
    cursor := cursorSnapshot s sub
    messages := messages
    fromSeq := start
    throughSeq := throughSeq
    nextAfterSeq := if all.length > limit then throughSeq else none
    hasMore := decide (all.length > limit) }

end

/-! ### Runs -/

structure MessageBusOptions where
  topics : List String
  topicPolicy : MessageBusTopicPolicy
  retention : MessageBusRetentionPolicy
  dedupe : MessageBusDedupeAction
  now : Nat → Option Nat

/-- A new bus with its initial topics, none of which has a message. -/
def MessageBusState.new (opts : MessageBusOptions) : MessageBusState T :=
  { now := opts.now
    reads := 0
    topicPolicy := opts.topicPolicy
    retention := opts.retention
    dedupe := opts.dedupe
    topics := SortedMap.ofList (opts.topics.map fun topic => (topic, makeTopicState))
    subscriptions := SortedMap.empty
    seenCommandIds := ∅
    seenIdempotencyKeys := ∅
    deadLetters := []
    deadLetterSeq := 0 }

/-- What happens to a bus. -/
inductive BusStep (T : Type) where
  | command (command : MessageBusCommand T)
  | subscription (opts : MessageBusSubscriptionOptions)

def busStep (s : MessageBusState T) : BusStep T → Reduced T
  | .command command => reduceMessageBusCommand s command
  | .subscription opts => s.subscription opts

/-- Commands and openings one after another, with all facts reported. -/
def busRun (s : MessageBusState T) : List (BusStep T) → Reduced T
  | [] => (s, [])
  | step :: steps =>
    let first := busStep s step
    let rest := busRun first.1 steps
    (rest.1, first.2 ++ rest.2)

end GraphRefly.Messaging
