import GraphRefly.Lib.Paging
import GraphRefly.Messaging.Publish

/-!
# Pages of the Bus

The bus is read in pages: the catalog of its topics, the messages a topic
retains, those a subscription can read, and the dead letters. Each page names
the place behind which the next one starts, as the name of a topic or as a
number, and where a reader names no place the page starts at the head of the
topic or at the cursor of the subscription.

What makes the pages complete is the order in which a bus keeps what it lists.
Topics are kept by name. Messages are appended under the next number of their
topic and only ever dropped, so those that are retained stand in order, none
before the head; this holds for every trim, also one by age under a clock that
goes back, which may leave a gap. Dead letters are numbered and kept for good.

## Main definitions

* `catalogPage`, `topicPage`, `deadLetterPage`: The pages, beside `availablePage`.
* `TopicState.Filed`, `Counted`: Messages and dead letters are kept in order.
* `BusHistory`: What readers may see: the states of a bus, one after another.

## Theorems

* `filed_run`, `counted_run`: Every run keeps messages and dead letters in order.
* `topicPages_complete`, `availablePages_complete`, `catalogPages_complete`,
  `deadLetterPages_complete`: Readers of the bus miss nothing and see nothing twice.
-/

namespace GraphRefly.Messaging

open List GraphRefly.Lib GraphRefly.Lib.Paging

variable {T : Type}

/-! ### The pages -/

structure MessageBusCatalogEntry where
  topic : String
  closed : Bool
  headSeq : Nat
  nextSeq : Nat
  messageCount : Nat
deriving DecidableEq

structure MessageBusCatalogParams where
  limit : Option Nat
  afterTopic : Option String
  includeClosed : Bool

structure MessageBusCatalogPage where
  topics : List MessageBusCatalogEntry
  nextAfterTopic : Option String
  hasMore : Bool

def catalogEntry (topic : String) (value : TopicState T) : MessageBusCatalogEntry :=
  { topic := topic
    closed := value.closed
    headSeq := value.headSeq
    nextSeq := value.nextSeq
    messageCount := value.messages.length }

def catalogPage (s : MessageBusState T) (params : MessageBusCatalogParams) :
    MessageBusCatalogPage :=
  let limit := positiveLimit params.limit
  let topics := s.topics.entries.filter fun e =>
    (params.includeClosed || !e.2.closed) && params.afterTopic.all fun after => decide (after < e.1)
  let page := (topics.take limit).map fun e => catalogEntry e.1 e.2
  { topics := page
    nextAfterTopic := if topics.length > limit then page.getLast?.map (·.topic) else none
    hasMore := decide (topics.length > limit) }

structure MessageBusTopicParams where
  limit : Option Nat
  afterSeq : Option Nat

structure MessageBusTopicPage (T : Type) where
  topic : String
  messages : List (MessageEnvelope T)
  fromSeq : Nat
  throughSeq : Option Nat
  nextAfterSeq : Option Nat
  hasMore : Bool

def topicPage (s : MessageBusState T) (topicName : String) (params : MessageBusTopicParams) :
    MessageBusTopicPage T :=
  let start := match params.afterSeq with
    | none => ((s.topics.lookup topicName).map (·.headSeq)).getD 1
    | some seq => seq + 1
  let limit := positiveLimit params.limit
  let all := ((s.topics.lookup topicName).map fun t =>
    t.messages.filter fun message => decide (start ≤ message.seq)).getD []
  let messages := all.take limit
  let throughSeq := messages.getLast?.map (·.seq)
  { topic := topicName
    messages := messages
    fromSeq := start
    throughSeq := throughSeq
    nextAfterSeq := if all.length > limit then throughSeq else none
    hasMore := decide (all.length > limit) }

structure MessageBusDeadLetterParams where
  limit : Option Nat
  afterEntrySeq : Option Nat
  topic : Option String
  code : Option String

structure MessageBusDeadLetterPage (T : Type) where
  entries : List (MessageBusDeadLetterEntry T)
  nextAfterEntrySeq : Option Nat
  hasMore : Bool

def deadLetterPage (s : MessageBusState T) (params : MessageBusDeadLetterParams) :
    MessageBusDeadLetterPage T :=
  let limit := positiveLimit params.limit
  let entries := s.deadLetters.filter fun entry =>
    (params.afterEntrySeq.all fun after => decide (after < entry.entrySeq)) &&
      (params.topic.all fun topic => decide (entry.topic = some topic)) &&
      params.code.all fun code => decide (entry.issue.code = code)
  let page := entries.take limit
  { entries := page
    nextAfterEntrySeq := if entries.length > limit then page.getLast?.map (·.entrySeq) else none
    hasMore := decide (entries.length > limit) }

/-! ### Messages in order -/

/-- The messages of a topic are in order, between its head and its tail. -/
structure TopicState.Filed (t : TopicState T) : Prop where
  ordered : t.messages.Pairwise fun a b => a.seq < b.seq
  head : t.headSeq ≤ t.nextSeq
  bounds : ∀ message ∈ t.messages, t.headSeq ≤ message.seq ∧ message.seq < t.nextSeq

theorem filed_new : (makeTopicState : TopicState T).Filed :=
  ⟨List.Pairwise.nil, le_rfl, fun _ hm => absurd hm not_mem_nil⟩

variable {t : TopicState T}

theorem TopicState.Filed.append (h : t.Filed) {message : MessageEnvelope T}
    (hseq : message.seq = t.nextSeq) : (t.append message).Filed where
  ordered := by
    refine pairwise_append.mpr ⟨h.ordered, pairwise_singleton _ _, ?_⟩
    intro a ha b hb
    rw [mem_singleton.mp hb, hseq]
    exact (h.bounds a ha).2
  head := Nat.le_succ_of_le h.head
  bounds := by
    intro m hm
    rcases mem_append.mp hm with hm | hm
    · exact ⟨(h.bounds m hm).1, Nat.lt_succ_of_lt (h.bounds m hm).2⟩
    · rw [mem_singleton.mp hm, hseq]
      exact ⟨h.head, Nat.lt_succ_self _⟩

theorem kept_sublist (retention : MessageBusRetentionPolicy) (now : Nat)
    (messages : List (MessageEnvelope T)) :
    (retention.kept now messages).Sublist messages := by
  rw [MessageBusRetentionPolicy.kept]
  cases retention.maxMessages with
  | none => exact filter_sublist
  | some maxMessages => exact (drop_sublist _ _).trans filter_sublist

theorem TopicState.Filed.trimmed (h : t.Filed) (retention : MessageBusRetentionPolicy) (now : Nat) :
    (trimmedTopic retention now t).Filed := by
  rw [trimmedTopic]
  split_ifs with hmax
  · exact ⟨h.ordered.filter _, h.head, fun m hm => h.bounds m (mem_filter.mp hm).1⟩
  · have hsub := kept_sublist retention now t.messages
    have hordered := h.ordered.sublist hsub
    have hbounds (m : MessageEnvelope T) (hm : m ∈ retention.kept now t.messages) :=
      h.bounds m (hsub.subset hm)
    -- The head is the first message that is kept.
    cases hkept : retention.kept now t.messages with
    | nil => exact ⟨List.Pairwise.nil, le_rfl, fun m hm => absurd hm not_mem_nil⟩
    | cons first rest =>
      rw [hkept] at hordered hbounds
      have hfirst := hbounds first mem_cons_self
      refine ⟨hordered, le_of_lt hfirst.2, fun m hm => ⟨?_, (hbounds m hm).2⟩⟩
      rcases mem_cons.mp hm with rfl | hm
      · exact le_rfl
      · exact le_of_lt ((pairwise_cons.mp hordered).1 m hm)

/-- Every topic keeps its messages in order. -/
def Filed (s : MessageBusState T) : Prop :=
  ∀ topic t, s.topics.lookup topic = some t → t.Filed

variable {s s' : MessageBusState T}

theorem Filed.of_eq (h : Filed s) (htopics : s'.topics = s.topics) :
    Filed s' := by
  intro topic t ht
  rw [htopics] at ht
  exact h topic t ht

theorem Filed.set (h : Filed s) {topic : String}
    (hset : TopicSet s s' topic t) (ht : t.Filed) : Filed s' := by
  intro name t' ht'
  rw [hset.topics, SortedMap.lookup_insert] at ht'
  split_ifs at ht' with hname
  · rw [← Option.some.inj ht']
    exact ht
  · exact h name t' ht'

theorem Filed.effect (h : Filed s) {command : MessageBusCommand T}
    {events : List (RuntimeEvent T)} (heffect : Effect s s' command events) : Filed s' := by
  cases heffect with
  | quiet hquiet => exact h.of_eq hquiet.topics
  | created _ hset => exact h.set hset filed_new
  | closed ht hset =>
    have hfiled := h _ _ ht
    exact h.set hset ⟨hfiled.ordered, hfiled.head, hfiled.bounds⟩
  | acked _ _ _ _ _ _ hset => exact h.of_eq hset.topics
  | sought _ _ _ _ _ hset => exact h.of_eq hset.topics
  | left _ hset => exact h.of_eq hset.topics
  | @published topic _ _ _ _ _ t _ _ _ ht hset =>
    have hfiled : t.Filed := by
      rcases ht with ⟨ht, _⟩ | ⟨_, rfl, _⟩
      · exact h topic t ht
      · exact filed_new
    intro name t' ht'
    rw [hset.topics] at ht'
    split_ifs at ht' with hname
    · rw [← Option.some.inj ht']
      exact (hfiled.append hset.seq).trimmed _ _
    · exact h name t' ht'

theorem Filed.step (h : Filed s) (step : BusStep T) :
    Filed (busStep s step).1 := by
  cases step with
  | subscription opts =>
    obtain ⟨_, hquiet | ⟨sub, _, hset⟩⟩ := subscription_cases s opts
    · exact h.of_eq hquiet.topics
    · exact h.of_eq hset.topics
  | command command =>
    obtain ⟨_, _, _, htopics, _⟩ := note_same s command
    have hnote : Filed (s.note command) := h.of_eq htopics
    rcases reduce_cases s command with ⟨_, heq⟩ | ⟨_, _, ⟨_, hquiet⟩ | ⟨_, hquiet⟩⟩
    · rw [busStep, heq]
      exact hnote.effect (dispatch_effect (s.note command) command)
    · exact h.of_eq hquiet.topics
    · exact hnote.of_eq hquiet.topics

/-! ### Dead letters in order -/

/-- The dead letters are numbered from one, and their number is known. -/
structure Counted (s : MessageBusState T) : Prop where
  numbered : Numbered (·.entrySeq) 1 s.deadLetters
  count : s.deadLetterSeq = s.deadLetters.length

namespace Counted

variable {s : MessageBusState T}

theorem deadLetter (h : Counted s) (topic : Option String)
    (command : Option (MessageBusCommand T)) (message : Option (MessageEnvelope T))
    (issue : DataIssue) : Counted (s.deadLetter topic command message issue) where
  numbered := h.numbered.concat (by rw [h.count, Nat.add_comm])
  count := by
    have hseq : (s.deadLetter topic command message issue).deadLetterSeq = s.deadLetterSeq + 1 :=
      rfl
    rw [hseq, h.count, MessageBusState.deadLetter, length_append, length_singleton]

theorem of_eq (h : Counted s) (hletters : s'.deadLetters = s.deadLetters)
    (hseq : s'.deadLetterSeq = s.deadLetterSeq) : Counted s' :=
  ⟨hletters ▸ h.numbered, by rw [hseq, hletters, h.count]⟩

theorem tick (h : Counted s) : Counted s.tick := h.of_eq rfl rfl

theorem setTopic (h : Counted s) (topic : String) (t : TopicState T) :
    Counted (s.setTopic topic t) :=
  h.of_eq rfl rfl

theorem setSubscriptions (h : Counted s) (subscriptions : SortedMap String SubscriptionState) :
    Counted { s with subscriptions := subscriptions } :=
  h.of_eq rfl rfl

theorem issueEvents (h : Counted s) (command : Option (MessageBusCommand T))
    (message : Option (MessageEnvelope T)) (code text : String) :
    Counted (issueEvents s command message code text).1 :=
  h.deadLetter _ _ _ _

theorem reportStatus (h : Counted s) (kind : MessageBusStatusKind) (fields : StatusFields) :
    Counted (reportStatus s kind fields).1 :=
  h.of_eq rfl rfl

theorem duplicateCommandEvents (h : Counted s) (command : MessageBusCommand T) (text : String) :
    Counted (duplicateCommandEvents s command text).1 := by
  rw [Messaging.duplicateCommandEvents]
  split_ifs
  · exact (h.reportStatus _ _).issueEvents _ _ _ _
  · exact h.reportStatus _ _

theorem ensureTopic (h : Counted s) (topic : String) (commandId : Option String) :
    Counted (ensureTopic s topic commandId).1 := by
  rw [Messaging.ensureTopic]
  refine Counted.reportStatus ?_ _ _
  split
  · exact h
  · exact h.setTopic _ _

theorem closeTopic (h : Counted s) (topic : String) (commandId : Option String) :
    Counted (closeTopic s topic commandId).1 := by
  rw [Messaging.closeTopic]
  split
  · exact h.issueEvents _ _ _ _
  · exact (h.setTopic _ _).reportStatus _ _

theorem foldl_issueEvents {α : Type} (text : α → String) (items : List α) (r : Reduced T)
    (h : Counted r.1) :
    Counted (items.foldl (fun r item =>
      ((Messaging.issueEvents r.1 none none "retention-gap" (text item)).1,
        r.2 ++ (Messaging.issueEvents r.1 none none "retention-gap" (text item)).2)) r).1 := by
  induction items generalizing r with
  | nil => exact h
  | cons item items ih =>
    rw [foldl_cons]
    exact ih _ (h.issueEvents _ _ _ _)

theorem flagRetentionGaps (h : Counted s) (topic : String) (headSeq : Nat) :
    Counted (flagRetentionGaps s topic headSeq).1 := by
  rw [Messaging.flagRetentionGaps]
  exact foldl_issueEvents (fun id => s!"subscription '{id}' is before retained headSeq") _ _
    (h.setSubscriptions _)

theorem trimRetention (h : Counted s) (topic : String) : Counted (trimRetention s topic).1 := by
  rw [Messaging.trimRetention]
  simp only []
  split
  · exact h.tick
  · split_ifs
    · exact (h.tick.setTopic _ _).issueEvents _ _ _ _
    · exact h.tick.setTopic _ _
    · exact ((h.tick.setTopic _ _).reportStatus _ _).flagRetentionGaps _ _

theorem appendMessage (h : Counted s) (topic : String) (t : TopicState T) (payload : T)
    (key commandId idempotencyKey : Option String) :
    Counted (appendMessage s topic t payload key commandId idempotencyKey).1 := by
  refine (Counted.reportStatus ?_ _ _).trimRetention topic
  cases idempotencyKey with
  | none => exact h.tick.setTopic _ _
  | some idempotencyKey => exact h.of_eq rfl rfl

theorem publishToTopic (h : Counted s) (topic : String) (payload : T)
    (key commandId idempotencyKey : Option String) :
    Counted (publishToTopic s topic payload key commandId idempotencyKey).1 := by
  rw [Messaging.publishToTopic]
  split
  · exact h.issueEvents _ _ _ _
  · split_ifs
    · exact h.issueEvents _ _ _ _
    · exact h.appendMessage _ _ _ _ _ _

theorem publishMessage (h : Counted s) (topic : String) (payload : T)
    (key commandId idempotencyKey : Option String) :
    Counted (publishMessage s topic payload key commandId idempotencyKey).1 := by
  rw [Messaging.publishMessage]
  split_ifs
  · exact h.publishToTopic _ _ _ _ _
  · exact h.issueEvents _ _ _ _
  · exact (h.ensureTopic _ _).publishToTopic _ _ _ _ _

theorem ackSubscription (h : Counted s) (topic subscriptionId : String) (seq : Nat)
    (commandId : Option String) :
    Counted (ackSubscription s topic subscriptionId seq commandId).1 := by
  rw [Messaging.ackSubscription]
  split
  · exact h.issueEvents _ _ _ _
  · simp only []
    split
    · exact h.issueEvents _ _ _ _
    · split_ifs
      case neg => exact (h.setSubscriptions _).reportStatus _ _
      all_goals exact h.issueEvents _ _ _ _

theorem seekSubscription (h : Counted s) (topic subscriptionId : String) (nextSeq : Nat)
    (commandId : Option String) :
    Counted (seekSubscription s topic subscriptionId nextSeq commandId).1 := by
  rw [Messaging.seekSubscription]
  split
  · exact h.issueEvents _ _ _ _
  · simp only []
    split
    · exact h.issueEvents _ _ _ _
    · split_ifs
      case neg => exact (h.setSubscriptions _).reportStatus _ _
      all_goals exact h.issueEvents _ _ _ _

theorem closeSubscription (h : Counted s) (topic subscriptionId : String)
    (commandId : Option String) :
    Counted (closeSubscription s topic subscriptionId commandId).1 := by
  rw [Messaging.closeSubscription]
  split_ifs
  · exact h.issueEvents _ _ _ _
  · simp only []
    split
    · exact h.issueEvents _ _ _ _
    · exact (h.setSubscriptions _).reportStatus _ _

theorem dispatchCommand (h : Counted s) (command : MessageBusCommand T) :
    Counted (dispatchCommand s command).1 := by
  cases command with
  | ensureTopic topic commandId => exact h.ensureTopic topic commandId
  | closeTopic topic commandId => exact h.closeTopic topic commandId
  | publish topic payload key commandId idempotencyKey =>
    exact h.publishMessage topic payload key commandId idempotencyKey
  | topicPolicy topicPolicy commandId => exact h.of_eq rfl rfl
  | ack topic subscriptionId seq commandId =>
    exact h.ackSubscription topic subscriptionId seq commandId
  | seek topic subscriptionId nextSeq commandId =>
    exact h.seekSubscription topic subscriptionId nextSeq commandId
  | closeSubscription topic subscriptionId commandId =>
    exact h.closeSubscription topic subscriptionId commandId

theorem note (h : Counted s) (command : MessageBusCommand T) : Counted (s.note command) := by
  rw [MessageBusState.note]
  cases command.commandId with
  | none => exact h
  | some commandId => exact h.of_eq rfl rfl

theorem subscription (h : Counted s) (opts : MessageBusSubscriptionOptions) :
    Counted (s.subscription opts).1 := by
  rw [MessageBusState.subscription]
  split_ifs with hempty
  · exact h
  · rw [ensureSubscription]
    cases s.subscriptions.lookup (subscriptionKey opts.topic opts.subscriptionId) with
    | some existing => exact h
    | none =>
      -- A start outside the range is a dead letter before the subscription is opened.
      simp only [if_true]
      refine Counted.reportStatus (Counted.setSubscriptions ?_ _) _ _
      split
      · exact h
      · exact h.deadLetter _ _ _ _

theorem step (h : Counted s) (step : BusStep T) : Counted (busStep s step).1 := by
  cases step with
  | subscription opts => exact h.subscription opts
  | command command =>
    rw [busStep, reduceMessageBusCommand]
    cases command.malformed with
    | some reason => exact h.issueEvents _ _ _ _
    | none =>
      simp only []
      split_ifs
      · exact h.duplicateCommandEvents _ _
      · exact (h.note command).duplicateCommandEvents _ _
      · exact (h.note command).dispatchCommand command

end Counted

/-! ### Runs -/

theorem filed_run (h : Filed s) (steps : List (BusStep T)) :
    Filed (busRun s steps).1 := by
  induction steps generalizing s with
  | nil => exact h
  | cons step steps ih => exact ih (h.step step)

theorem counted_run (h : Counted s) (steps : List (BusStep T)) :
    Counted (busRun s steps).1 := by
  induction steps generalizing s with
  | nil => exact h
  | cons step steps ih => exact ih (h.step step)

/-- States of a bus, one after another, with commands and openings between them. -/
structure BusHistory (bus : Nat → MessageBusState T) : Prop where
  start : ∃ opts steps, bus 0 = (busRun (MessageBusState.new opts) steps).1
  onward : ∀ n, ∃ steps, bus (n + 1) = (busRun (bus n) steps).1

theorem BusHistory.kept {bus : Nat → MessageBusState T} (h : BusHistory bus) (n : Nat) :
    Filed (bus n) ∧ Counted (bus n) := by
  induction n with
  | zero =>
    obtain ⟨opts, steps, heq⟩ := h.start
    have hfiled : Filed (MessageBusState.new opts : MessageBusState T) := fun topic t ht =>
      new_topics ht ▸ filed_new
    have hcounted : Counted (MessageBusState.new opts : MessageBusState T) :=
      ⟨Numbered.nil 1, rfl⟩
    rw [heq]
    exact ⟨filed_run hfiled steps, counted_run hcounted steps⟩
  | succ n ih =>
    obtain ⟨steps, heq⟩ := h.onward n
    rw [heq]
    exact ⟨filed_run ih.1 steps, counted_run ih.2 steps⟩

/-! ### Readers -/

section Readers

variable (bus : Nat → MessageBusState T) (limits : Nat → Option Nat)

section

variable (s : MessageBusState T)

/-- The messages a topic retains. -/
def MessageBusState.messagesOn (topic : String) :
    List (MessageEnvelope T) :=
  ((s.topics.lookup topic).map (·.messages)).getD []

/-- The messages of a subscription's topic, and none while the subscription has a gap. -/
def MessageBusState.readable (sub : SubscriptionState) :
    List (MessageEnvelope T) :=
  if (s.current sub).retentionGap then [] else s.messagesOn (s.current sub).topic

/-- The topics of a bus by name, or the open ones of them. -/
def MessageBusState.catalog (includeClosed : Bool) :
    List MessageBusCatalogEntry :=
  (s.topics.entries.filter fun e => includeClosed || !e.2.closed).map fun e => catalogEntry e.1 e.2

/-- The dead letters about a topic, with a code. -/
def MessageBusState.deadLettersAbout (topic code : Option String) :
    List (MessageBusDeadLetterEntry T) :=
  s.deadLetters.filter fun entry =>
    (topic.all fun topic => decide (entry.topic = some topic)) &&
      code.all fun code => decide (entry.issue.code = code)

end

/-- A reader's call for a page of a topic. -/
def topicReads (topic : String) (n : Nat) (after : Option Nat) : Page (MessageEnvelope T) Nat :=
  let page := topicPage (bus n) topic { limit := limits n, afterSeq := after }
  { items := page.messages, next := page.nextAfterSeq, hasMore := page.hasMore }

/-- A reader's call for a page of a subscription. -/
def availableReads (sub : SubscriptionState) (n : Nat) (after : Option Nat) :
    Page (MessageEnvelope T) Nat :=
  let page := availablePage (bus n) sub { limit := limits n, afterSeq := after }
  { items := page.messages, next := page.nextAfterSeq, hasMore := page.hasMore }

/-- A reader's call for a page of the catalog. -/
def catalogReads (includeClosed : Bool) (n : Nat) (after : Option String) :
    Page MessageBusCatalogEntry String :=
  let page := catalogPage (bus n)
    { limit := limits n, afterTopic := after, includeClosed := includeClosed }
  { items := page.topics, next := page.nextAfterTopic, hasMore := page.hasMore }

/-- A reader's call for a page of the dead letters. -/
def deadLetterReads (topic code : Option String) (n : Nat) (after : Option Nat) :
    Page (MessageBusDeadLetterEntry T) Nat :=
  let page := deadLetterPage (bus n)
    { limit := limits n, afterEntrySeq := after, topic := topic, code := code }
  { items := page.entries, next := page.nextAfterEntrySeq, hasMore := page.hasMore }

/-- Where a reader of a subscription starts. -/
def availableStart (sub : SubscriptionState) (after : Option Nat) : Nat :=
  (after.map (· + 1)).getD ((bus 0).current sub).nextSeq

variable {bus limits}

theorem Filed.messagesOn (h : Filed s) (topic : String) :
    (s.messagesOn topic).Pairwise fun a b => a.seq < b.seq := by
  rw [MessageBusState.messagesOn]
  cases ht : s.topics.lookup topic with
  | none => exact List.Pairwise.nil
  | some t => exact (h topic t ht).ordered

/-- Readers of a topic miss nothing and see nothing twice. -/
theorem topicPages_complete (hbus : BusHistory bus) (hlimits : ∀ n, 0 < positiveLimit (limits n))
    (topic : String) (after : Option Nat) :
    Complete MessageEnvelope.seq
      (fun n => ((bus n).messagesOn topic).filter fun message => past after message.seq)
      (follow (topicReads bus limits topic) after) := by
  have hcut (n c : Nat) : topicReads bus limits topic n (some c) = cutPage MessageEnvelope.seq
      (positiveLimit (limits n))
      (((bus n).messagesOn topic).filter fun message => decide (c < message.seq)) := by
    rw [MessageBusState.messagesOn, topicReads, topicPage]
    cases (bus n).topics.lookup topic <;> rfl
  have hreads : Reads MessageEnvelope.seq (fun n => positiveLimit (limits n)) (past after)
      (fun n => (bus n).messagesOn topic) (follow (topicReads bus limits topic) after) := by
    refine ⟨fun n => (hbus.kept n).1.messagesOn topic, past_upward after, hlimits, ?_, ?_⟩
    · cases after with
      | some c => exact hcut 0 c
      | none =>
        -- A reader that names no place starts at the head, and no message stands before it.
        rw [follow, MessageBusState.messagesOn, topicReads, topicPage]
        cases ht : (bus 0).topics.lookup topic with
        | none => rfl
        | some t =>
          have hhead : t.messages.filter (fun message => decide (t.headSeq ≤ message.seq)) =
              t.messages.filter fun message => past none message.seq := by
            refine filter_congr fun message hm => ?_
            exact decide_eq_true (((hbus.kept 0).1 topic t ht).bounds message hm).1
          simp only [Option.map_some, Option.getD_some, hhead]
          rfl
    · intro n c hnext
      rw [follow, hnext]
      exact hcut (n + 1) c
  exact hreads.complete fun _ _ _ _ _ _ => Iff.rfl

/-- Readers of a subscription miss nothing and see nothing twice. -/
theorem availablePages_complete (hbus : BusHistory bus)
    (hlimits : ∀ n, 0 < positiveLimit (limits n)) (sub : SubscriptionState)
    (after : Option Nat) :
    Complete MessageEnvelope.seq
      (fun n => ((bus n).readable sub).filter fun message =>
        decide (availableStart bus sub after ≤ message.seq))
      (follow (availableReads bus limits sub) after) := by
  have hcut (n : Nat) (after : Option Nat) : availableReads bus limits sub n after =
      cutPage MessageEnvelope.seq (positiveLimit (limits n))
        (((bus n).readable sub).filter fun message =>
          decide ((after.map (· + 1)).getD ((bus n).current sub).nextSeq ≤ message.seq)) := by
    rw [MessageBusState.readable, MessageBusState.messagesOn, availableReads, availablePage]
    cases ((bus n).current sub).retentionGap with
    | true => rfl
    | false => cases (bus n).topics.lookup ((bus n).current sub).topic <;> rfl
  have hsorted (n : Nat) : ((bus n).readable sub).Pairwise fun a b => a.seq < b.seq := by
    rw [MessageBusState.readable]
    split_ifs
    · exact List.Pairwise.nil
    · exact (hbus.kept n).1.messagesOn _
  have hreads : Reads MessageEnvelope.seq (fun n => positiveLimit (limits n))
      (fun seq => decide (availableStart bus sub after ≤ seq)) (fun n => (bus n).readable sub)
      (follow (availableReads bus limits sub) after) := by
    refine ⟨hsorted, fun k l hkl hk => ?_, hlimits, hcut 0 after, fun n c hnext => ?_⟩
    · exact decide_eq_true ((of_decide_eq_true hk).trans (le_of_lt hkl))
    · rw [follow, hnext]
      exact hcut (n + 1) (some c)
  exact hreads.complete fun _ _ _ _ _ _ => Iff.rfl

/-- Readers of the catalog miss nothing and see nothing twice. -/
theorem catalogPages_complete (hlimits : ∀ n, 0 < positiveLimit (limits n)) (includeClosed : Bool)
    (after : Option String) :
    Complete MessageBusCatalogEntry.topic
      (fun n => ((bus n).catalog includeClosed).filter fun entry => past after entry.topic)
      (follow (catalogReads bus limits includeClosed) after) := by
  have hcut (n : Nat) (after : Option String) : catalogReads bus limits includeClosed n after =
      cutPage MessageBusCatalogEntry.topic (positiveLimit (limits n))
        (((bus n).catalog includeClosed).filter fun entry => past after entry.topic) := by
    have hfilter : ((bus n).catalog includeClosed).filter (fun entry => past after entry.topic) =
        ((bus n).topics.entries.filter fun e => (includeClosed || !e.2.closed) &&
          after.all fun after => decide (after < e.1)).map fun e => catalogEntry e.1 e.2 := by
      rw [MessageBusState.catalog, filter_map, filter_filter]
      refine congrArg _ (filter_congr fun e _ => ?_)
      rw [Bool.and_comm]
      rfl
    rw [hfilter, catalogReads, catalogPage, cutPage]
    simp only [map_take, length_map]
  have hsorted (n : Nat) :
      ((bus n).catalog includeClosed).Pairwise fun a b => a.topic < b.topic := by
    rw [MessageBusState.catalog, pairwise_map]
    exact (bus n).topics.sorted.filter _
  have hreads : Reads MessageBusCatalogEntry.topic (fun n => positiveLimit (limits n)) (past after)
      (fun n => (bus n).catalog includeClosed) (follow (catalogReads bus limits includeClosed)
        after) := by
    refine ⟨hsorted, past_upward after, hlimits, hcut 0 after, fun n c hnext => ?_⟩
    rw [follow, hnext]
    exact hcut (n + 1) (some c)
  exact hreads.complete fun _ _ _ _ _ _ => Iff.rfl

/-- Readers of the dead letters miss nothing and see nothing twice. -/
theorem deadLetterPages_complete (hbus : BusHistory bus)
    (hlimits : ∀ n, 0 < positiveLimit (limits n)) (topic code : Option String)
    (after : Option Nat) :
    Complete MessageBusDeadLetterEntry.entrySeq
      (fun n => ((bus n).deadLettersAbout topic code).filter fun entry =>
        past after entry.entrySeq)
      (follow (deadLetterReads bus limits topic code) after) := by
  have hcut (n : Nat) (after : Option Nat) : deadLetterReads bus limits topic code n after =
      cutPage MessageBusDeadLetterEntry.entrySeq (positiveLimit (limits n))
        (((bus n).deadLettersAbout topic code).filter fun entry => past after entry.entrySeq) := by
    have hfilter : ((bus n).deadLettersAbout topic code).filter
          (fun entry => past after entry.entrySeq) =
        (bus n).deadLetters.filter fun entry =>
          (after.all fun after => decide (after < entry.entrySeq)) &&
            (topic.all fun topic => decide (entry.topic = some topic)) &&
            code.all fun code => decide (entry.issue.code = code) := by
      rw [MessageBusState.deadLettersAbout, filter_filter]
      refine filter_congr fun entry _ => ?_
      rw [Bool.and_assoc]
      rfl
    rw [hfilter, deadLetterReads, deadLetterPage, cutPage]
  have hsorted (n : Nat) : ((bus n).deadLettersAbout topic code).Pairwise fun a b =>
      a.entrySeq < b.entrySeq :=
    (hbus.kept n).2.numbered.pairwise.filter _
  have hreads : Reads MessageBusDeadLetterEntry.entrySeq (fun n => positiveLimit (limits n))
      (past after) (fun n => (bus n).deadLettersAbout topic code)
      (follow (deadLetterReads bus limits topic code) after) := by
    refine ⟨hsorted, past_upward after, hlimits, hcut 0 after, fun n c hnext => ?_⟩
    rw [follow, hnext]
    exact hcut (n + 1) (some c)
  exact hreads.complete fun _ _ _ _ _ _ => Iff.rfl

end Readers

end GraphRefly.Messaging
