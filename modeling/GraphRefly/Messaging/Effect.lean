import GraphRefly.Lib.Numbered
import GraphRefly.Messaging.Bus

/-!
# What a Command Does to the Bus

A command does one of four things: it touches neither topics nor subscriptions,
it creates or closes a topic, it moves or closes a subscription, or it publishes
a message and trims the topic. This module says once, for every command, which
it is and what exactly has changed. The properties of whole runs are read off
these four effects and never off the reducers.

Publishing to a topic that is created on the way is one effect: the topic starts
empty and has one message afterwards.

## Main definitions

* `messagesOf`, `Repeats`: The messages among some facts, and an answer that
  names the command a duplicate.
* `Steady`, `Quiet`: What stays as it is.
* `Published`: A message appended and the topic trimmed.
* `Effect`: What one command does.

## Theorems

* `trimRetention_trimmed`: What a trim leaves.
* `dispatch_effect`: Every command has one of the four effects.
* `reduce_cases`: A command is turned away or carried out.
* `closed_stays_closed`: Closed topics and subscriptions stay as they are.
-/

namespace GraphRefly.Messaging

open GraphRefly.Lib

variable {T : Type}

/-! ### Facts -/

section

variable (events : List (RuntimeEvent T))

/-- The messages among some facts, in order. -/
def messagesOf : List (MessageEnvelope T) :=
  events.filterMap fun
    | .message message => some message
    | _ => none

/-- Some fact names the command a duplicate. -/
def Repeats : Prop :=
  ∃ status, RuntimeEvent.status status ∈ events ∧ status.kind = .duplicateCommand

/-- Some fact is an issue. -/
def Complains : Prop :=
  ∃ issue, RuntimeEvent.issue issue ∈ events

end

@[simp] theorem messagesOf_nil : messagesOf ([] : List (RuntimeEvent T)) = [] := rfl

@[simp] theorem messagesOf_message (message : MessageEnvelope T)
    (events : List (RuntimeEvent T)) :
    messagesOf (.message message :: events) = message :: messagesOf events := rfl

@[simp] theorem messagesOf_status (status : MessageBusStatus) (events : List (RuntimeEvent T)) :
    messagesOf (.status status :: events) = messagesOf events := rfl

@[simp] theorem messagesOf_append (events later : List (RuntimeEvent T)) :
    messagesOf (events ++ later) = messagesOf events ++ messagesOf later :=
  List.filterMap_append

variable {events : List (RuntimeEvent T)}

theorem repeats_append {later : List (RuntimeEvent T)} :
    Repeats (events ++ later) ↔ Repeats events ∨ Repeats later := by
  simp only [Repeats, List.mem_append]
  constructor
  · rintro ⟨status, hmem | hmem, hkind⟩
    · exact Or.inl ⟨status, hmem, hkind⟩
    · exact Or.inr ⟨status, hmem, hkind⟩
  · rintro (⟨status, hmem, hkind⟩ | ⟨status, hmem, hkind⟩)
    · exact ⟨status, Or.inl hmem, hkind⟩
    · exact ⟨status, Or.inr hmem, hkind⟩

/-! ### What stays as it is -/

/-- The clock goes on, and what a command never changes stays. -/
structure Steady (s s' : MessageBusState T) : Prop where
  now : s'.now = s.now
  retention : s'.retention = s.retention
  ids : s'.seenCommandIds = s.seenCommandIds
  reads : s.reads ≤ s'.reads

theorem Steady.refl (s : MessageBusState T) : Steady s s := ⟨rfl, rfl, rfl, le_rfl⟩

variable {a b c : MessageBusState T}

theorem Steady.trans (h : Steady a b) (h' : Steady b c) :
    Steady a c :=
  ⟨h'.now.trans h.now, h'.retention.trans h.retention, h'.ids.trans h.ids,
    h.reads.trans h'.reads⟩

/-- Neither topics nor subscriptions nor the published keys change. -/
structure Quiet (s s' : MessageBusState T) : Prop extends Steady s s' where
  topics : s'.topics = s.topics
  subscriptions : s'.subscriptions = s.subscriptions
  keys : s'.seenIdempotencyKeys = s.seenIdempotencyKeys

section

variable (s : MessageBusState T)

theorem Quiet.refl : Quiet s s := ⟨Steady.refl s, rfl, rfl, rfl⟩

theorem Quiet.trans (h : Quiet a b) (h' : Quiet b c) : Quiet a c :=
  ⟨h.toSteady.trans h'.toSteady, h'.topics.trans h.topics,
    h'.subscriptions.trans h.subscriptions, h'.keys.trans h.keys⟩

theorem tick_quiet : Quiet s s.tick :=
  ⟨⟨rfl, rfl, rfl, Nat.le_succ _⟩, rfl, rfl, rfl⟩

theorem reportStatus_quiet (kind : MessageBusStatusKind)
    (fields : StatusFields) : Quiet s (reportStatus s kind fields).1 :=
  tick_quiet s

theorem deadLetter_quiet (topic : Option String)
    (command : Option (MessageBusCommand T)) (message : Option (MessageEnvelope T))
    (issue : DataIssue) : Quiet s (s.deadLetter topic command message issue) :=
  ⟨⟨rfl, rfl, rfl, Nat.le_succ _⟩, rfl, rfl, rfl⟩

theorem issueEvents_quiet (command : Option (MessageBusCommand T))
    (message : Option (MessageEnvelope T)) (code text : String) :
    Quiet s (issueEvents s command message code text).1 :=
  deadLetter_quiet s _ _ _ _

@[simp] theorem messagesOf_issueEvents
    (command : Option (MessageBusCommand T)) (message : Option (MessageEnvelope T))
    (code text : String) : messagesOf (issueEvents s command message code text).2 = [] := rfl

theorem not_repeats_issueEvents (command : Option (MessageBusCommand T))
    (message : Option (MessageEnvelope T)) (code text : String) :
    ¬ Repeats (issueEvents s command message code text).2 := by
  rintro ⟨status, hmem, _⟩
  simp [issueEvents] at hmem

end

variable {kind : MessageBusStatusKind}

theorem not_repeats_reportStatus (s : MessageBusState T)
    (fields : StatusFields) (hkind : kind ≠ .duplicateCommand) :
    ¬ Repeats (reportStatus s kind fields).2 := by
  rintro ⟨status, hmem, heq⟩
  simp only [reportStatus, List.mem_singleton, RuntimeEvent.status.injEq] at hmem
  exact hkind (by rw [← heq, hmem, statusFact])

theorem duplicateCommandEvents_quiet (s : MessageBusState T) (command : MessageBusCommand T)
    (text : String) : Quiet s (duplicateCommandEvents s command text).1 := by
  rw [duplicateCommandEvents]
  split_ifs
  · exact (reportStatus_quiet s _ _).trans (issueEvents_quiet _ _ _ _ _)
  · exact reportStatus_quiet s _ _

@[simp] theorem messagesOf_duplicateCommandEvents (s : MessageBusState T)
    (command : MessageBusCommand T) (text : String) :
    messagesOf (duplicateCommandEvents s command text).2 = [] := by
  rw [duplicateCommandEvents]
  split_ifs <;> rfl

/-! ### Retention -/

section

variable (retention : MessageBusRetentionPolicy) (now : Nat)

theorem kept_eq_trim (messages : List (MessageEnvelope T)) :
    retention.kept now messages =
      trim (fun message => retention.fresh now message.timestampMs) retention.maxMessages
        messages := by
  rw [MessageBusRetentionPolicy.kept]
  cases retention.maxMessages <;> rfl

/-- A topic after a trim at a reading of the clock. -/
def trimmedTopic (t : TopicState T) :
    TopicState T :=
  if retention.maxMessages = some 0 then
    { t with messages := t.messages.filter fun m => retention.fresh now m.timestampMs }
  else
    { t with
      messages := retention.kept now t.messages
      headSeq := ((retention.kept now t.messages).head?.map (·.seq)).getD t.nextSeq }

@[simp] theorem trimmedTopic_nextSeq
    (t : TopicState T) : (trimmedTopic retention now t).nextSeq = t.nextSeq := by
  rw [trimmedTopic]
  split_ifs <;> rfl

end

/-- A subscription after the head of a topic has moved. -/
def flagged (topic : String) (before after : Nat) (sub : SubscriptionState) : SubscriptionState :=
  if before ≠ after ∧ sub.leftBehind topic after = true then { sub with retentionGap := true }
  else sub

theorem foldl_issueEvents {α : Type} (text : α → String) (items : List α) (r : Reduced T) :
    let after := items.foldl (fun r item =>
      ((issueEvents r.1 none none "retention-gap" (text item)).1,
        r.2 ++ (issueEvents r.1 none none "retention-gap" (text item)).2)) r
    Quiet r.1 after.1 ∧ messagesOf after.2 = messagesOf r.2 ∧ (Repeats after.2 → Repeats r.2) := by
  induction items generalizing r with
  | nil => exact ⟨Quiet.refl _, rfl, id⟩
  | cons item items ih =>
    obtain ⟨hquiet, hmessages, hrepeats⟩ := ih
      ((issueEvents r.1 none none "retention-gap" (text item)).1,
        r.2 ++ (issueEvents r.1 none none "retention-gap" (text item)).2)
    refine ⟨(issueEvents_quiet _ _ _ _ _).trans hquiet, ?_, fun hafter => ?_⟩
    · rw [List.foldl_cons, hmessages, messagesOf_append, messagesOf_issueEvents,
        List.append_nil]
    · rcases repeats_append.mp (hrepeats hafter) with hbefore | hissue
      · exact hbefore
      · exact absurd hissue (not_repeats_issueEvents _ _ _ _ _)

theorem flagged_self (topic : String) (head : Nat) (sub : SubscriptionState) :
    flagged topic head head sub = sub := by
  simp [flagged]

/-- The state with the subscriptions flagged that are left behind. -/
def MessageBusState.flag (s : MessageBusState T) (topic : String) (headSeq : Nat) :
    MessageBusState T :=
  { s with subscriptions := s.subscriptions.mapValues fun sub =>
      if sub.leftBehind topic headSeq then { sub with retentionGap := true } else sub }

theorem flagRetentionGaps_quiet (s : MessageBusState T) (topic : String) (headSeq : Nat) :
    Quiet (s.flag topic headSeq) (flagRetentionGaps s topic headSeq).1 ∧
      messagesOf (flagRetentionGaps s topic headSeq).2 = [] ∧
      ¬ Repeats (flagRetentionGaps s topic headSeq).2 := by
  obtain ⟨hquiet, hmessages, hrepeats⟩ := foldl_issueEvents
    (fun id : String => s!"subscription '{id}' is before retained headSeq")
    ((s.subscriptions.entries.filter fun e => e.2.leftBehind topic headSeq).map
      (·.2.subscriptionId)) (s.flag topic headSeq, [])
  refine ⟨hquiet, hmessages, fun h => ?_⟩
  obtain ⟨status, hmem, _⟩ := hrepeats h
  exact absurd hmem List.not_mem_nil

/-- What a trim of a topic leaves: the topic is trimmed at the reading, and the
    subscriptions its new head leaves behind are flagged. -/
structure Trimmed (s : MessageBusState T) (topic : String) (t : TopicState T) (r : Reduced T) :
    Prop extends Steady s r.1 where
  topics : r.1.topics = s.topics.insert topic (trimmedTopic s.retention s.timestampOrZero t)
  subscriptions : ∀ key, r.1.subscriptions.lookup key = (s.subscriptions.lookup key).map
    (flagged topic t.headSeq (trimmedTopic s.retention s.timestampOrZero t).headSeq)
  keys : r.1.seenIdempotencyKeys = s.seenIdempotencyKeys
  messages : messagesOf r.2 = []
  distinct : ¬ Repeats r.2
  later : s.reads < r.1.reads

variable {s : MessageBusState T} {topic : String} {t : TopicState T}

/-- What a trim leaves. -/
theorem trimRetention_trimmed
    (ht : s.topics.lookup topic = some t) : Trimmed s topic t (trimRetention s topic) := by
  have hlook : s.tick.topics.lookup topic = some t := ht
  rw [trimRetention]
  simp only [hlook]
  by_cases hmax : s.retention.maxMessages = some 0
  · -- The policy is refused: the old messages are gone and the head stays.
    have htrim : trimmedTopic s.retention s.timestampOrZero t =
        { t with messages :=
            t.messages.filter fun m => s.retention.fresh s.timestampOrZero m.timestampMs } := by
      rw [trimmedTopic, if_pos hmax]
    have hmax' : s.tick.retention.maxMessages = some 0 := hmax
    rw [if_pos hmax']
    refine ⟨⟨rfl, rfl, rfl, ?_⟩, ?_, ?_, rfl, rfl, not_repeats_issueEvents _ _ _ _ _, ?_⟩
    · exact Nat.le_add_right s.reads 2
    · rw [htrim]
      rfl
    · intro key
      have hid : flagged topic t.headSeq t.headSeq = id := funext (flagged_self topic t.headSeq)
      rw [htrim, hid, Option.map_id]
      rfl
    · exact Nat.lt_add_of_pos_right (Nat.zero_lt_two)
  · have hmax' : ¬ s.tick.retention.maxMessages = some 0 := hmax
    rw [if_neg hmax']
    have htrim : trimmedTopic s.retention s.timestampOrZero t =
        { t with
          messages := s.retention.kept s.timestampOrZero t.messages
          headSeq := ((s.retention.kept s.timestampOrZero t.messages).head?.map (·.seq)).getD
            t.nextSeq } := by
      rw [trimmedTopic, if_neg hmax]
    by_cases hhead : ((s.retention.kept s.timestampOrZero t.messages).head?.map (·.seq)).getD
        t.nextSeq = t.headSeq
    · have hhead' : ((s.tick.retention.kept s.timestampOrZero t.messages).head?.map
          (·.seq)).getD t.nextSeq = t.headSeq := hhead
      rw [if_pos hhead']
      refine ⟨⟨rfl, rfl, rfl, Nat.le_succ _⟩, ?_, ?_, rfl, rfl, ?_, Nat.lt_succ_self _⟩
      · rw [htrim]
        rfl
      · intro key
        have hid : flagged topic t.headSeq t.headSeq = id := funext (flagged_self topic t.headSeq)
        rw [htrim, hhead, hid, Option.map_id]
        rfl
      · rintro ⟨status, hmem, _⟩
        exact absurd hmem List.not_mem_nil
    · have hhead' : ¬ ((s.tick.retention.kept s.timestampOrZero t.messages).head?.map
          (·.seq)).getD t.nextSeq = t.headSeq := hhead
      rw [if_neg hhead']
      -- The head has moved: one status, then an issue for every subscription left behind.
      have hflag (s' : MessageBusState T) := flagRetentionGaps_quiet s' topic
        (trimmedTopic s.retention s.timestampOrZero t).headSeq
      have hmoved : t.headSeq ≠ (trimmedTopic s.retention s.timestampOrZero t).headSeq := by
        rw [htrim]
        exact fun heq => hhead heq.symm
      rw [htrim] at hflag hmoved
      refine ⟨⟨(hflag _).1.now, (hflag _).1.retention, (hflag _).1.ids, ?_⟩, ?_, ?_,
        (hflag _).1.keys, (hflag _).2.1, ?_, ?_⟩
      · refine le_trans ?_ (hflag _).1.reads
        exact Nat.le_add_right s.reads 2
      · rw [htrim]
        exact (hflag _).1.topics
      · intro key
        rw [htrim]
        refine (congrArg (·.lookup key) (hflag _).1.subscriptions).trans ?_
        refine (SortedMap.lookup_mapValues _ _ key).trans ?_
        refine congrArg (fun f => (s.subscriptions.lookup key).map f) (funext fun sub => ?_)
        rw [flagged]
        simp only [hmoved, ne_eq, not_false_eq_true, true_and]
      · intro hrep
        rcases repeats_append.mp hrep with hstatus | hissue
        · exact not_repeats_reportStatus _ _ (by decide) hstatus
        · exact (hflag _).2.2 hissue
      · refine lt_of_lt_of_le ?_ (hflag _).1.reads
        exact Nat.lt_add_of_pos_right (Nat.zero_lt_two)

/-! ### The effects -/

/-- The facts report a success and nothing else. -/
structure Plain (events : List (RuntimeEvent T)) : Prop where
  messages : messagesOf events = []
  distinct : ¬ Repeats events
  content : ¬ Complains events

theorem reportStatus_plain (s : MessageBusState T)
    (fields : StatusFields) (hkind : kind ≠ .duplicateCommand) :
    Plain (reportStatus s kind fields).2 := by
  refine ⟨rfl, not_repeats_reportStatus s fields hkind, ?_⟩
  rintro ⟨issue, hmem⟩
  simp [reportStatus] at hmem

/-- One topic is written. -/
structure TopicSet (s s' : MessageBusState T) (topic : String) (t : TopicState T) : Prop extends
    Steady s s' where
  topics : s'.topics = s.topics.insert topic t
  subscriptions : s'.subscriptions = s.subscriptions
  keys : s'.seenIdempotencyKeys = s.seenIdempotencyKeys

/-- One subscription is written. -/
structure SubscriptionSet (s s' : MessageBusState T) (key : String) (sub : SubscriptionState) :
    Prop extends Steady s s' where
  topics : s'.topics = s.topics
  subscriptions : s'.subscriptions = s.subscriptions.insert key sub
  keys : s'.seenIdempotencyKeys = s.seenIdempotencyKeys

/-- A topic with one message more, before it is trimmed. -/
def TopicState.append (t : TopicState T) (message : MessageEnvelope T) : TopicState T :=
  { t with nextSeq := t.nextSeq + 1, messages := t.messages ++ [message] }

/-- A message stamped at one call of the clock is appended to an open topic,
    which is trimmed at a later call. -/
structure Published (s s' : MessageBusState T) (topic : String) (t : TopicState T)
    (message : MessageEnvelope T) (stamp trimAt : Nat) : Prop extends Steady s s' where
  opened : t.closed = false
  seq : message.seq = t.nextSeq
  name : message.topic = topic
  stamped : message.timestampMs = clockReading s.now stamp
  started : s.reads ≤ stamp
  ordered : stamp ≤ trimAt
  ended : trimAt < s'.reads
  topics : ∀ name, s'.topics.lookup name =
    if name = topic then
      some (trimmedTopic s.retention (clockReading s.now trimAt) (t.append message))
    else s.topics.lookup name
  subscriptions : ∀ key, s'.subscriptions.lookup key = (s.subscriptions.lookup key).map
    (flagged topic t.headSeq
      (trimmedTopic s.retention (clockReading s.now trimAt) (t.append message)).headSeq)
  keys : s'.seenIdempotencyKeys =
    match message.idempotencyKey with
    | none => s.seenIdempotencyKeys
    | some key => insert (idempotencyKeyFor topic key) s.seenIdempotencyKeys

/-- What one command does. -/
inductive Effect (s s' : MessageBusState T) : MessageBusCommand T → List (RuntimeEvent T) → Prop
  | quiet {command : MessageBusCommand T} {events : List (RuntimeEvent T)}
      (hquiet : Quiet s s') (hmessages : messagesOf events = []) : Effect s s' command events
  | created {topic : String} {commandId : Option String} {events : List (RuntimeEvent T)}
      (hnew : s.topics.lookup topic = none) (hset : TopicSet s s' topic makeTopicState)
      (hplain : Plain events) : Effect s s' (.ensureTopic topic commandId) events
  | closed {topic : String} {commandId : Option String} {events : List (RuntimeEvent T)}
      {t : TopicState T} (ht : s.topics.lookup topic = some t)
      (hset : TopicSet s s' topic { t with closed := true }) (hplain : Plain events) :
      Effect s s' (.closeTopic topic commandId) events
  | acked {topic subscriptionId : String} {seq : Nat} {commandId : Option String}
      {events : List (RuntimeEvent T)} {t : TopicState T} {sub : SubscriptionState}
      (ht : s.topics.lookup topic = some t)
      (hsub : s.subscriptions.lookup (subscriptionKey topic subscriptionId) = some sub)
      (hopen : sub.closed = false) (hgap : sub.retentionGap = false)
      (hlow : sub.nextSeq ≤ seq) (hhigh : seq < t.nextSeq)
      (hset : SubscriptionSet s s' (subscriptionKey topic subscriptionId)
        { sub with nextSeq := seq + 1 })
      (hplain : Plain events) : Effect s s' (.ack topic subscriptionId seq commandId) events
  | sought {topic subscriptionId : String} {nextSeq : Nat} {commandId : Option String}
      {events : List (RuntimeEvent T)} {t : TopicState T} {sub : SubscriptionState}
      (ht : s.topics.lookup topic = some t)
      (hsub : s.subscriptions.lookup (subscriptionKey topic subscriptionId) = some sub)
      (hopen : sub.closed = false) (hlow : t.headSeq ≤ nextSeq) (hhigh : nextSeq ≤ t.nextSeq)
      (hset : SubscriptionSet s s' (subscriptionKey topic subscriptionId)
        { sub with nextSeq := nextSeq, retentionGap := false })
      (hplain : Plain events) : Effect s s' (.seek topic subscriptionId nextSeq commandId) events
  | left {topic subscriptionId : String} {commandId : Option String}
      {events : List (RuntimeEvent T)} {sub : SubscriptionState}
      (hsub : s.subscriptions.lookup (subscriptionKey topic subscriptionId) = some sub)
      (hset : SubscriptionSet s s' (subscriptionKey topic subscriptionId)
        { sub with closed := true })
      (hplain : Plain events) : Effect s s' (.closeSubscription topic subscriptionId
        commandId) events
  | published {topic : String} {payload : T} {key commandId idempotencyKey : Option String}
      {events : List (RuntimeEvent T)} {t : TopicState T} {message : MessageEnvelope T}
      {stamp trimAt : Nat}
      (ht : s.topics.lookup topic = some t ∧ stamp = s.reads ∧ trimAt = s.reads + 2 ∨
        s.topics.lookup topic = none ∧ t = makeTopicState ∧ s.topicPolicy = .createAsFact ∧
          stamp = s.reads + 1 ∧ trimAt = s.reads + 3)
      (hset : Published s s' topic t message stamp trimAt)
      (hpayload : message.payload = payload) (hkey : message.key = key)
      (hcommand : message.commandId = commandId)
      (hidempotency : message.idempotencyKey = idempotencyKey)
      (hmessages : messagesOf events = [message]) (hdistinct : ¬ Repeats events) :
      Effect s s' (.publish topic payload key commandId idempotencyKey) events

variable {s' : MessageBusState T} {command : MessageBusCommand T}

theorem Effect.steady (h : Effect s s' command events) : Steady s s' := by
  cases h with
  | quiet hquiet => exact hquiet.toSteady
  | created _ hset => exact hset.toSteady
  | closed _ hset => exact hset.toSteady
  | acked _ _ _ _ _ _ hset => exact hset.toSteady
  | sought _ _ _ _ _ hset => exact hset.toSteady
  | left _ hset => exact hset.toSteady
  | published _ hset => exact hset.toSteady

/-! ### Every command has an effect -/

section

variable (s : MessageBusState T)

theorem issueEvents_effect (command : MessageBusCommand T)
    (about : Option (MessageBusCommand T)) (code text : String) :
    Effect s (issueEvents s about none code text).1 command
      (issueEvents s about none code text).2 :=
  .quiet (issueEvents_quiet s _ _ _ _) rfl

/-- The message a publish appends. -/
def nextMessage (topic : String) (t : TopicState T) (payload : T)
    (key commandId idempotencyKey : Option String) : MessageEnvelope T :=
  { topic := topic
    seq := t.nextSeq
    payload := payload
    key := key
    timestampMs := s.timestampOrZero
    commandId := commandId
    idempotencyKey := idempotencyKey }

/-- The state in which a topic with a new message is trimmed. -/
def appended (topic : String) (t : TopicState T)
    (message : MessageEnvelope T) : MessageBusState T :=
  let s := s.tick.setTopic topic (t.append message)
  let s := match message.idempotencyKey with
    | none => s
    | some key =>
      { s with seenIdempotencyKeys := insert (idempotencyKeyFor topic key) s.seenIdempotencyKeys }
  s.tick

theorem appendMessage_published (topic : String)
    (hopen : t.closed = false) (payload : T) (key commandId idempotencyKey : Option String) :
    let message := nextMessage s topic t payload key commandId idempotencyKey
    let r := appendMessage s topic t payload key commandId idempotencyKey
    Published s r.1 topic t message s.reads (s.reads + 2) ∧ messagesOf r.2 = [message] ∧
      ¬ Repeats r.2 := by
  intro message r
  -- The topic is trimmed two calls of the clock after the message was stamped.
  have hsame : (appended s topic t message).now = s.now ∧
      (appended s topic t message).retention = s.retention ∧
      (appended s topic t message).seenCommandIds = s.seenCommandIds ∧
      (appended s topic t message).reads = s.reads + 2 ∧
      (appended s topic t message).topics = s.topics.insert topic (t.append message) ∧
      (appended s topic t message).subscriptions = s.subscriptions := by
    rw [appended]
    cases message.idempotencyKey <;> exact ⟨rfl, rfl, rfl, rfl, rfl, rfl⟩
  obtain ⟨hnow, hretention, hids, hreads, htopics, hsubs⟩ := hsame
  have hkeys : (appended s topic t message).seenIdempotencyKeys =
      match message.idempotencyKey with
      | none => s.seenIdempotencyKeys
      | some key => insert (idempotencyKeyFor topic key) s.seenIdempotencyKeys := by
    rw [appended]
    cases message.idempotencyKey <;> rfl
  have hstamp : (appended s topic t message).timestampOrZero =
      clockReading s.now (s.reads + 2) := by
    rw [MessageBusState.timestampOrZero, hnow, hreads]
  have hlook : (appended s topic t message).topics.lookup topic = some (t.append message) := by
    rw [htopics, SortedMap.lookup_insert_self]
  have htrim := trimRetention_trimmed hlook
  have hfirst : r.1 = (trimRetention (appended s topic t message) topic).1 := by
    cases idempotencyKey <;> rfl
  have hsecond : ∃ status : MessageBusStatus, status.kind = .messagePublished ∧
      r.2 = .message message :: .status status ::
        (trimRetention (appended s topic t message) topic).2 := by
    cases idempotencyKey <;> exact ⟨_, rfl, rfl⟩
  obtain ⟨status, hkind, hsecond⟩ := hsecond
  refine ⟨?_, ?_, ?_⟩
  · rw [hfirst]
    exact {
      now := htrim.now.trans hnow
      retention := htrim.retention.trans hretention
      ids := htrim.ids.trans hids
      reads := le_trans (by omega) htrim.reads
      opened := hopen
      seq := rfl
      name := rfl
      stamped := rfl
      started := le_rfl
      ordered := Nat.le_add_right _ 2
      ended := hreads ▸ htrim.later
      topics := by
        intro name
        rw [htrim.topics, htopics, hretention, hstamp, SortedMap.lookup_insert,
          SortedMap.lookup_insert]
        split_ifs <;> rfl
      subscriptions := by
        intro key
        rw [htrim.subscriptions, hsubs, hretention, hstamp]
        rfl
      keys := htrim.keys.trans hkeys }
  · rw [hsecond, messagesOf_message, messagesOf_status, htrim.messages]
  · rintro ⟨other, hmem, hother⟩
    rw [hsecond, List.mem_cons, List.mem_cons] at hmem
    rcases hmem with hmem | hmem | hmem
    · exact absurd hmem (by simp)
    · rw [RuntimeEvent.status.injEq] at hmem
      rw [hmem, hkind] at hother
      exact absurd hother (by decide)
    · exact htrim.distinct ⟨other, hmem, hother⟩

end

theorem Published.of_created {created : MessageBusState T}
    {message : MessageEnvelope T} {stamp trimAt : Nat}
    (hcreated : created = (s.setTopic topic makeTopicState).tick)
    (h : Published created s' topic makeTopicState message stamp trimAt) :
    Published s s' topic makeTopicState message stamp trimAt := by
  subst hcreated
  exact {
    now := h.now
    retention := h.retention
    ids := h.ids
    reads := (Nat.le_succ _).trans h.reads
    opened := h.opened
    seq := h.seq
    name := h.name
    stamped := h.stamped
    started := (Nat.le_succ _).trans h.started
    ordered := h.ordered
    ended := h.ended
    topics := by
      intro name
      refine (h.topics name).trans ?_
      split_ifs with hname
      · rfl
      · exact SortedMap.lookup_insert_of_ne _ _ hname
    subscriptions := h.subscriptions
    keys := h.keys }

theorem publishToTopic_effect (ht : s.topics.lookup topic = some t) (payload : T)
    (key commandId idempotencyKey : Option String) :
    Effect s (publishToTopic s topic payload key commandId idempotencyKey).1
      (.publish topic payload key commandId idempotencyKey)
      (publishToTopic s topic payload key commandId idempotencyKey).2 := by
  simp only [publishToTopic, ht]
  split_ifs with hclosed
  · exact issueEvents_effect s _ _ _ _
  · obtain ⟨hset, hmessages, hdistinct⟩ := appendMessage_published s topic
      (Bool.not_eq_true _ ▸ hclosed) payload key commandId idempotencyKey
    exact .published (Or.inl ⟨ht, rfl, rfl⟩) hset rfl rfl rfl rfl hmessages hdistinct

section

variable (s : MessageBusState T)

theorem publishMessage_effect (topic : String) (payload : T)
    (key commandId idempotencyKey : Option String) :
    Effect s (publishMessage s topic payload key commandId idempotencyKey).1
      (.publish topic payload key commandId idempotencyKey)
      (publishMessage s topic payload key commandId idempotencyKey).2 := by
  rw [publishMessage]
  split_ifs with hsome hpolicy
  · obtain ⟨t, ht⟩ := Option.isSome_iff_exists.mp hsome
    exact publishToTopic_effect ht payload key commandId idempotencyKey
  · exact issueEvents_effect s _ _ _ _
  · -- The topic is created, and its first message appended at once.
    have hnew : s.topics.lookup topic = none := by simpa using hsome
    have hcreated : (ensureTopic s topic commandId).1 = (s.setTopic topic makeTopicState).tick := by
      rw [ensureTopic, hnew]
      rfl
    have hstatus : Plain (ensureTopic s topic commandId).2 :=
      reportStatus_plain _ _ (by decide)
    have hlook : (ensureTopic s topic commandId).1.topics.lookup topic =
        some makeTopicState := by
      rw [hcreated]
      exact SortedMap.lookup_insert_self _ _ _
    have happend : publishToTopic (ensureTopic s topic commandId).1 topic payload key commandId
        idempotencyKey = appendMessage (ensureTopic s topic commandId).1 topic makeTopicState
          payload key commandId idempotencyKey := by
      simp only [publishToTopic, hlook]
      exact if_neg (by simp [makeTopicState])
    obtain ⟨hset, hmessages, hdistinct⟩ := appendMessage_published
      (ensureTopic s topic commandId).1 topic (t := makeTopicState) rfl payload key commandId
      idempotencyKey
    rw [← happend] at hset hmessages hdistinct
    have hreads : (ensureTopic s topic commandId).1.reads = s.reads + 1 := by rw [hcreated]; rfl
    refine .published (Or.inr ⟨hnew, rfl, not_not.mp hpolicy, by rw [hreads], by rw [hreads]⟩)
      (hset.of_created hcreated) rfl rfl rfl rfl ?_ ?_
    · rw [messagesOf_append, hstatus.messages, hmessages, List.nil_append]
    · intro hrep
      exact (repeats_append.mp hrep).elim hstatus.distinct hdistinct

theorem ensureTopic_effect (topic : String) (commandId : Option String) :
    Effect s (ensureTopic s topic commandId).1 (.ensureTopic topic commandId)
      (ensureTopic s topic commandId).2 := by
  rw [ensureTopic]
  cases ht : s.topics.lookup topic with
  | none =>
    exact .created ht ⟨⟨rfl, rfl, rfl, Nat.le_succ _⟩, rfl, rfl, rfl⟩
      (reportStatus_plain _ _ (by decide))
  | some t => exact .quiet (reportStatus_quiet s _ _) rfl

theorem closeTopic_effect (topic : String) (commandId : Option String) :
    Effect s (closeTopic s topic commandId).1 (.closeTopic topic commandId)
      (closeTopic s topic commandId).2 := by
  rw [closeTopic]
  cases ht : s.topics.lookup topic with
  | none => exact issueEvents_effect s _ _ _ _
  | some t =>
    exact .closed ht ⟨⟨rfl, rfl, rfl, Nat.le_succ _⟩, rfl, rfl, rfl⟩
      (reportStatus_plain _ _ (by decide))

theorem ackSubscription_effect (topic subscriptionId : String) (seq : Nat)
    (commandId : Option String) :
    Effect s (ackSubscription s topic subscriptionId seq commandId).1
      (.ack topic subscriptionId seq commandId)
      (ackSubscription s topic subscriptionId seq commandId).2 := by
  rw [ackSubscription]
  cases ht : s.topics.lookup topic with
  | none => exact issueEvents_effect s _ _ _ _
  | some t =>
    cases hsub : s.subscriptions.lookup (subscriptionKey topic subscriptionId) with
    | none =>
      simp only [hsub]
      exact issueEvents_effect s _ _ _ _
    | some sub =>
      simp only [hsub]
      split_ifs with hclosed hgap hlow hhigh
      · exact issueEvents_effect s _ _ _ _
      · exact issueEvents_effect s _ _ _ _
      · exact issueEvents_effect s _ _ _ _
      · exact issueEvents_effect s _ _ _ _
      · exact .acked ht hsub (Bool.not_eq_true _ ▸ hclosed) (Bool.not_eq_true _ ▸ hgap)
          (not_lt.mp hlow) (not_le.mp hhigh) ⟨⟨rfl, rfl, rfl, Nat.le_succ _⟩, rfl, rfl, rfl⟩
          (reportStatus_plain _ _ (by decide))

theorem seekSubscription_effect (topic subscriptionId : String)
    (nextSeq : Nat) (commandId : Option String) :
    Effect s (seekSubscription s topic subscriptionId nextSeq commandId).1
      (.seek topic subscriptionId nextSeq commandId)
      (seekSubscription s topic subscriptionId nextSeq commandId).2 := by
  rw [seekSubscription]
  cases ht : s.topics.lookup topic with
  | none => exact issueEvents_effect s _ _ _ _
  | some t =>
    cases hsub : s.subscriptions.lookup (subscriptionKey topic subscriptionId) with
    | none =>
      simp only [hsub]
      exact issueEvents_effect s _ _ _ _
    | some sub =>
      simp only [hsub]
      split_ifs with hclosed hlow hhigh
      · exact issueEvents_effect s _ _ _ _
      · exact issueEvents_effect s _ _ _ _
      · exact issueEvents_effect s _ _ _ _
      · exact .sought ht hsub (Bool.not_eq_true _ ▸ hclosed) (not_lt.mp hlow)
          (not_lt.mp hhigh) ⟨⟨rfl, rfl, rfl, Nat.le_succ _⟩, rfl, rfl, rfl⟩
          (reportStatus_plain _ _ (by decide))

theorem closeSubscription_effect (topic subscriptionId : String) (commandId : Option String) :
    Effect s (closeSubscription s topic subscriptionId commandId).1
      (.closeSubscription topic subscriptionId commandId)
      (closeSubscription s topic subscriptionId commandId).2 := by
  rw [closeSubscription]
  split_ifs with ht
  · exact issueEvents_effect s _ _ _ _
  · cases hsub : s.subscriptions.lookup (subscriptionKey topic subscriptionId) with
    | none =>
      simp only [hsub]
      exact issueEvents_effect s _ _ _ _
    | some sub =>
      simp only [hsub]
      exact .left hsub ⟨⟨rfl, rfl, rfl, Nat.le_succ _⟩, rfl, rfl, rfl⟩
        (reportStatus_plain _ _ (by decide))

/-- Every command has one of the effects. -/
theorem dispatch_effect (command : MessageBusCommand T) :
    Effect s (dispatchCommand s command).1 command (dispatchCommand s command).2 := by
  cases command with
  | ensureTopic topic commandId => exact ensureTopic_effect s topic commandId
  | closeTopic topic commandId => exact closeTopic_effect s topic commandId
  | publish topic payload key commandId idempotencyKey =>
    exact publishMessage_effect s topic payload key commandId idempotencyKey
  | topicPolicy topicPolicy commandId =>
    exact .quiet ⟨⟨rfl, rfl, rfl, le_rfl⟩, rfl, rfl, rfl⟩ rfl
  | ack topic subscriptionId seq commandId =>
    exact ackSubscription_effect s topic subscriptionId seq commandId
  | seek topic subscriptionId nextSeq commandId =>
    exact seekSubscription_effect s topic subscriptionId nextSeq commandId
  | closeSubscription topic subscriptionId commandId =>
    exact closeSubscription_effect s topic subscriptionId commandId

end

/-! ### Commands that are turned away -/

/-- A command that is carried out. -/
structure MessageBusState.Accepts (s : MessageBusState T) (command : MessageBusCommand T) :
    Prop where
  wellFormed : command.malformed = none
  unseen : s.seen command = false
  unpublished : s.published command = false

theorem note_same (s : MessageBusState T) (command : MessageBusCommand T) :
    (s.note command).now = s.now ∧ (s.note command).retention = s.retention ∧
      (s.note command).reads = s.reads ∧ (s.note command).topics = s.topics ∧
      (s.note command).subscriptions = s.subscriptions ∧
      (s.note command).seenIdempotencyKeys = s.seenIdempotencyKeys ∧
      (s.note command).topicPolicy = s.topicPolicy := by
  rw [MessageBusState.note]
  cases command.commandId <;> exact ⟨rfl, rfl, rfl, rfl, rfl, rfl, rfl⟩

theorem note_published (s : MessageBusState T) (command : MessageBusCommand T) :
    (s.note command).published command = s.published command := by
  obtain ⟨_, _, _, _, _, hkeys, _⟩ := note_same s command
  cases command with
  | publish topic payload key commandId idempotencyKey =>
    cases idempotencyKey with
    | none => rfl
    | some idempotencyKey => simp only [MessageBusState.published, hkeys]
  | _ => rfl

theorem mem_note_ids {id : String} :
    id ∈ (s.note command).seenCommandIds ↔
      command.commandId = some id ∨ id ∈ s.seenCommandIds := by
  rw [MessageBusState.note]
  cases hid : command.commandId with
  | none => simp
  | some other => simp [eq_comm]

/-- A command is turned away or carried out. -/
theorem reduce_cases (s : MessageBusState T) (command : MessageBusCommand T) :
    (s.Accepts command ∧ reduceMessageBusCommand s command =
        dispatchCommand (s.note command) command) ∨
      (¬ s.Accepts command ∧ messagesOf (reduceMessageBusCommand s command).2 = [] ∧
        ((command.malformed ≠ none ∨ s.seen command = true) ∧
            Quiet s (reduceMessageBusCommand s command).1 ∨
          command.malformed = none ∧
            Quiet (s.note command) (reduceMessageBusCommand s command).1)) := by
  rw [reduceMessageBusCommand]
  cases hmalformed : command.malformed with
  | some reason =>
    refine Or.inr ⟨fun h => ?_, rfl, Or.inl ⟨Or.inl (by simp),
      issueEvents_quiet s _ _ _ _⟩⟩
    rw [h.wellFormed] at hmalformed
    exact absurd hmalformed (by simp)
  | none =>
    simp only []
    split_ifs with hseen hpublished
    · refine Or.inr ⟨fun h => ?_, messagesOf_duplicateCommandEvents _ _ _,
        Or.inl ⟨Or.inr hseen, duplicateCommandEvents_quiet s _ _⟩⟩
      rw [h.unseen] at hseen
      exact absurd hseen (by simp)
    · refine Or.inr ⟨fun h => ?_, messagesOf_duplicateCommandEvents _ _ _,
        Or.inr ⟨trivial, duplicateCommandEvents_quiet _ _ _⟩⟩
      rw [note_published, h.unpublished] at hpublished
      exact absurd hpublished (by simp)
    · refine Or.inl ⟨⟨hmalformed, by simpa using hseen, ?_⟩, rfl⟩
      rw [note_published] at hpublished
      simpa using hpublished

/-! ### Openings -/

/-- A subscription opened now, at a position its topic has if there is one. -/
structure Opened (s : MessageBusState T) (opts : MessageBusSubscriptionOptions)
    (sub : SubscriptionState) : Prop where
  fresh : s.subscriptions.lookup (subscriptionKey opts.topic opts.subscriptionId) = none
  topic : sub.topic = opts.topic
  subscriptionId : sub.subscriptionId = opts.subscriptionId
  closed : sub.closed = false
  absent : s.topics.lookup opts.topic = none → sub.retentionGap = false ∧
    sub.nextSeq = opts.start.position none
  range : ∀ t, s.topics.lookup opts.topic = some t → t.headSeq ≤ t.nextSeq →
    t.headSeq ≤ sub.nextSeq ∧ sub.nextSeq ≤ t.nextSeq ∧ sub.retentionGap = false

theorem subscription_cases (s : MessageBusState T) (opts : MessageBusSubscriptionOptions) :
    messagesOf (s.subscription opts).2 = [] ∧
      (Quiet s (s.subscription opts).1 ∨
        ∃ sub, Opened s opts sub ∧
          SubscriptionSet s (s.subscription opts).1
            (subscriptionKey opts.topic opts.subscriptionId) sub) := by
  rw [MessageBusState.subscription]
  split_ifs with hempty
  · exact ⟨rfl, Or.inl (Quiet.refl s)⟩
  cases hlook : s.subscriptions.lookup (subscriptionKey opts.topic opts.subscriptionId) with
  | some existing =>
    rw [ensureSubscription, hlook]
    exact ⟨rfl, Or.inl (Quiet.refl s)⟩
  | none =>
    rw [ensureSubscription, hlook]
    cases ht : s.topics.lookup opts.topic with
    | none =>
      refine ⟨rfl, Or.inr ⟨_, ⟨hlook, rfl, rfl, rfl, fun _ => ⟨rfl, rfl⟩, ?_⟩,
        ⟨⟨rfl, rfl, rfl, Nat.le_succ _⟩, rfl, rfl, rfl⟩⟩⟩
      intro t ht'
      exact absurd (ht.symm.trans ht') (by simp)
    | some t =>
      -- A start outside the range is reported and moved to the head.
      by_cases hrange : opts.start.position (some (t.headSeq, t.nextSeq)) < t.headSeq ∨
          opts.start.position (some (t.headSeq, t.nextSeq)) > t.nextSeq
      · simp only [Option.map_some, startIssue, if_pos hrange]
        refine ⟨rfl, Or.inr ⟨_, ⟨hlook, rfl, rfl, rfl, ?_, ?_⟩,
          ⟨⟨rfl, rfl, rfl, Nat.le_add_right s.reads 2⟩, rfl, rfl, rfl⟩⟩⟩
        · intro hnone
          exact absurd (ht.symm.trans hnone) (by simp)
        · intro t' ht' hle
          obtain rfl : t = t' := Option.some.inj (ht.symm.trans ht')
          exact ⟨le_rfl, hle, decide_eq_false (lt_irrefl _)⟩
      · simp only [Option.map_some, startIssue, if_neg hrange]
        obtain ⟨hlow, hhigh⟩ := not_or.mp hrange
        refine ⟨rfl, Or.inr ⟨_, ⟨hlook, rfl, rfl, rfl, ?_, ?_⟩,
          ⟨⟨rfl, rfl, rfl, Nat.le_succ _⟩, rfl, rfl, rfl⟩⟩⟩
        · intro hnone
          exact absurd (ht.symm.trans hnone) (by simp)
        · intro t' ht' _
          obtain rfl : t = t' := Option.some.inj (ht.symm.trans ht')
          exact ⟨not_lt.mp hlow, not_lt.mp hhigh, decide_eq_false hlow⟩

/-! ### What is never taken back -/

/-- Every entry stays under its key, and a closed one stays closed and where it is. -/
def ClosedStay {V : Type} (closed : V → Bool) (position : V → Nat) (m m' : SortedMap String V) :
    Prop :=
  ∀ key v, m.lookup key = some v → ∃ v', m'.lookup key = some v' ∧
    (closed v = true → closed v' = true ∧ position v' = position v)

section

variable {V : Type} {closed : V → Bool} {position : V → Nat} {m m' m'' : SortedMap String V}

theorem ClosedStay.refl : ClosedStay closed position m m :=
  fun _ v h => ⟨v, h, fun hc => ⟨hc, rfl⟩⟩

theorem ClosedStay.trans (h : ClosedStay closed position m m')
    (h' : ClosedStay closed position m' m'') : ClosedStay closed position m m'' := by
  intro key v hv
  rcases h key v hv with ⟨u, hu, hc⟩
  rcases h' key u hu with ⟨w, hw, hc'⟩
  refine ⟨w, hw, fun hclosed => ?_⟩
  exact ⟨(hc' (hc hclosed).1).1, (hc' (hc hclosed).1).2.trans (hc hclosed).2⟩

theorem ClosedStay.insert {k : String} {w : V} (h : ∀ v, m.lookup k = some v → closed v = true →
    closed w = true ∧ position w = position v) : ClosedStay closed position m (m.insert k w) := by
  intro key v hv
  rw [SortedMap.lookup_insert]
  split_ifs with hk
  · exact ⟨w, rfl, h v (hk ▸ hv)⟩
  · exact ⟨v, hv, fun hc => ⟨hc, rfl⟩⟩

end

/-- No topic and no subscription is taken back. -/
def Onward (s s' : MessageBusState T) : Prop :=
  ClosedStay TopicState.closed TopicState.nextSeq s.topics s'.topics ∧
    ClosedStay SubscriptionState.closed SubscriptionState.nextSeq s.subscriptions s'.subscriptions

theorem Onward.of_eq {s s' : MessageBusState T} (ht : s'.topics = s.topics)
    (hs : s'.subscriptions = s.subscriptions) : Onward s s' := by
  rw [Onward, ht, hs]
  exact ⟨.refl, .refl⟩

/-- No command takes anything back. -/
theorem Effect.onward {s s' : MessageBusState T} {command : MessageBusCommand T}
    {events : List (RuntimeEvent T)} (h : Effect s s' command events) : Onward s s' := by
  cases h with
  | quiet hquiet => exact .of_eq hquiet.topics hquiet.subscriptions
  | created hnew hset =>
    rw [Onward, hset.topics, hset.subscriptions]
    exact ⟨.insert fun _ ht => absurd (hnew.symm.trans ht) (by simp), .refl⟩
  | closed ht hset =>
    rw [Onward, hset.topics, hset.subscriptions]
    refine ⟨.insert fun old hold _ => ?_, .refl⟩
    rw [Option.some.inj (hold.symm.trans ht)]
    exact ⟨rfl, rfl⟩
  | acked _ hsub hopen _ _ _ hset | sought _ hsub hopen _ _ hset =>
    rw [Onward, hset.topics, hset.subscriptions]
    refine ⟨.refl, .insert fun old hold hclosed => ?_⟩
    rw [Option.some.inj (hold.symm.trans hsub), hopen] at hclosed
    cases hclosed
  | left hsub hset =>
    rw [Onward, hset.topics, hset.subscriptions]
    refine ⟨.refl, .insert fun old hold _ => ?_⟩
    rw [Option.some.inj (hold.symm.trans hsub)]
    exact ⟨rfl, rfl⟩
  | published ht hset =>
    constructor
    · intro name old hold
      rw [hset.topics]
      split_ifs with hname
      · -- Only an open topic is published to.
        refine ⟨_, rfl, fun hclosed => ?_⟩
        rw [hname] at hold
        rcases ht with ⟨ht, _⟩ | ⟨ht, _⟩
        · rw [Option.some.inj (hold.symm.trans ht), hset.opened] at hclosed
          cases hclosed
        · rw [ht] at hold
          cases hold
      · exact ⟨old, hold, fun hc => ⟨hc, rfl⟩⟩
    · intro key sub hsub
      rw [hset.subscriptions, hsub]
      refine ⟨_, rfl, fun hc => ?_⟩
      rw [flagged]
      split_ifs <;> exact ⟨hc, rfl⟩

/-- Over every run from every state topics and subscriptions stay, a closed
    topic gets no more messages, and a closed subscription does not move. -/
theorem closed_stays_closed (s : MessageBusState T) (steps : List (BusStep T)) :
    Onward s (busRun s steps).1 := by
  induction steps generalizing s with
  | nil => exact .of_eq rfl rfl
  | cons step steps ih =>
    suffices h : Onward s (busStep s step).1 from ⟨h.1.trans (ih _).1, h.2.trans (ih _).2⟩
    cases step with
    | subscription opts =>
      rcases (subscription_cases s opts).2 with hquiet | ⟨sub, hopened, hset⟩
      · exact .of_eq hquiet.topics hquiet.subscriptions
      · rw [Onward, busStep, hset.topics, hset.subscriptions]
        exact ⟨.refl, .insert fun _ h => absurd (hopened.fresh.symm.trans h) (by simp)⟩
    | command command =>
      rcases note_same s command with ⟨_, _, _, htopics, hsubs, _⟩
      have hnote : Onward s (s.note command) := .of_eq htopics hsubs
      rcases reduce_cases s command with ⟨_, heq⟩ | ⟨_, _, ⟨_, hquiet⟩ | ⟨_, hquiet⟩⟩
      · have heffect := (dispatch_effect (s.note command) command).onward
        rw [busStep, heq]
        exact ⟨hnote.1.trans heffect.1, hnote.2.trans heffect.2⟩
      · exact .of_eq hquiet.topics hquiet.subscriptions
      · exact .of_eq (hquiet.topics.trans htopics) (hquiet.subscriptions.trans hsubs)

end GraphRefly.Messaging
