import GraphRefly.Json.Identity
import GraphRefly.Messaging.Effect

/-!
# Publishing Once

Publishers resend what they are not sure of. What a topic then publishes is
judged by the message facts of a whole run: their numbers, their command ids and
their idempotency keys.

The two sets of the bus mean different things. An id is seen when a well-formed
command carries it, whether or not the command has succeeded. A key is seen when
a message has been published under it, and tuples of topic and key have distinct
spellings, so a key of one topic never blocks another. A publish that was turned
away can therefore be sent again under its key, but not under its id.

## Main definitions

* `publishedOn`: The messages a topic has published.
* `Ledger`: The state agrees with what has been published.
* `Spent`: The command ids a run has used up.

## Theorems

* `Ledger.step`, `Ledger.run`: A run keeps the ledger.
* `spent_run`: The ids that are seen are those of well-formed commands.
* `publishing_exactly_once`: What resending does, over every run.
-/

namespace GraphRefly.Messaging

open List GraphRefly.Lib

variable {T : Type}

/-- The messages a topic has published, in order. -/
def publishedOn (topic : String) (events : List (RuntimeEvent T)) : List (MessageEnvelope T) :=
  (messagesOf events).filter fun message => decide (message.topic = topic)

variable {topic : String} {events : List (RuntimeEvent T)} {message : MessageEnvelope T}

theorem mem_publishedOn :
    message ∈ publishedOn topic events ↔ message ∈ messagesOf events ∧ message.topic = topic := by
  rw [publishedOn, mem_filter, decide_eq_true_iff]

theorem publishedOn_append (topic : String) (events later : List (RuntimeEvent T)) :
    publishedOn topic (events ++ later) = publishedOn topic events ++ publishedOn topic later := by
  rw [publishedOn, messagesOf_append, filter_append, publishedOn, publishedOn]

variable {later : List (RuntimeEvent T)}

theorem publishedOn_silent (h : messagesOf later = []) : publishedOn topic (events ++ later) =
      publishedOn topic events := by
  rw [publishedOn_append, publishedOn, publishedOn, h, filter_nil, append_nil]

theorem publishedOn_self (h : messagesOf later = [message]) (htopic : message.topic = topic) :
    publishedOn topic (events ++ later) = publishedOn topic events ++ [message] := by
  rw [publishedOn_append, publishedOn, publishedOn, h,
    filter_cons_of_pos (by simpa using htopic), filter_nil]

theorem publishedOn_other {name : String} (h : messagesOf later = [message])
    (hname : name ≠ message.topic) :
    publishedOn name (events ++ later) = publishedOn name events := by
  rw [publishedOn_append, publishedOn, publishedOn, h,
    filter_cons_of_neg (by simpa using hname.symm), filter_nil, append_nil]

/-- The state agrees with what has been published. -/
structure Ledger (s : MessageBusState T) (events : List (RuntimeEvent T)) : Prop where
  numbered : ∀ topic, Numbered (·.seq) 1 (publishedOn topic events)
  tail : ∀ topic t, s.topics.lookup topic = some t →
    t.nextSeq = 1 + (publishedOn topic events).length
  absent : ∀ topic, s.topics.lookup topic = none → publishedOn topic events = []
  ids : ∀ message ∈ messagesOf events, ∀ id, message.commandId = some id → id ∈ s.seenCommandIds
  distinctIds : (messagesOf events).Pairwise fun a b =>
    ∀ id, a.commandId = some id → b.commandId ≠ some id
  keys : ∀ text, text ∈ s.seenIdempotencyKeys ↔ ∃ message ∈ messagesOf events, ∃ key,
    message.idempotencyKey = some key ∧ text = idempotencyKeyFor message.topic key
  distinctKeys : (messagesOf events).Pairwise fun a b =>
    a.topic = b.topic → ∀ key, a.idempotencyKey = some key → b.idempotencyKey ≠ some key

variable {s s' : MessageBusState T}

/-- Facts without a message leave the ledger, whatever topics are created. -/
theorem Ledger.silent (h : Ledger s events) (hmessages : messagesOf later = [])
    (htopics : ∀ topic t, s'.topics.lookup topic = some t →
      (∃ t₀, s.topics.lookup topic = some t₀ ∧ t.nextSeq = t₀.nextSeq) ∨
        s.topics.lookup topic = none ∧ t.nextSeq = 1)
    (habsent : ∀ topic, s'.topics.lookup topic = none → s.topics.lookup topic = none)
    (hids : ∀ id ∈ s.seenCommandIds, id ∈ s'.seenCommandIds)
    (hkeys : s'.seenIdempotencyKeys = s.seenIdempotencyKeys) : Ledger s' (events ++ later) := by
  have hsame : messagesOf (events ++ later) = messagesOf events := by
    rw [messagesOf_append, hmessages, append_nil]
  constructor
  · intro topic
    rw [publishedOn_silent hmessages]
    exact h.numbered topic
  · intro topic t ht
    rw [publishedOn_silent hmessages]
    rcases htopics topic t ht with ⟨t₀, ht₀, hnext⟩ | ⟨hnone, hnext⟩
    · rw [hnext]
      exact h.tail topic t₀ ht₀
    · rw [hnext, h.absent topic hnone]
      rfl
  · intro topic ht
    rw [publishedOn_silent hmessages]
    exact h.absent topic (habsent topic ht)
  · rw [hsame]
    exact fun message hmem id hid => hids id (h.ids message hmem id hid)
  · rw [hsame]
    exact h.distinctIds
  · rw [hsame, hkeys]
    exact h.keys
  · rw [hsame]
    exact h.distinctKeys

/-- What changes neither topics nor keys leaves the ledger. -/
theorem Ledger.same
    (h : Ledger s events) (hmessages : messagesOf later = []) (htopics : s'.topics = s.topics)
    (hids : ∀ id ∈ s.seenCommandIds, id ∈ s'.seenCommandIds)
    (hkeys : s'.seenIdempotencyKeys = s.seenIdempotencyKeys) : Ledger s' (events ++ later) := by
  refine h.silent hmessages ?_ ?_ hids hkeys
  · intro topic t ht
    rw [htopics] at ht
    exact Or.inl ⟨t, ht, rfl⟩
  · intro topic ht
    rwa [htopics] at ht

variable {t : TopicState T}

/-- A message that carries a fresh id and a fresh key goes into the ledger. -/
theorem Ledger.publish {stamp trimAt : Nat}
    (h : Ledger s events) (hset : Published s s' topic t message stamp trimAt)
    (ht : s.topics.lookup topic = some t ∨ s.topics.lookup topic = none ∧ t = makeTopicState)
    (hmessages : messagesOf later = [message])
    (hid : ∀ id, message.commandId = some id →
      id ∈ s.seenCommandIds ∧ ∀ m ∈ messagesOf events, m.commandId ≠ some id)
    (hkey : ∀ key, message.idempotencyKey = some key →
      idempotencyKeyFor topic key ∉ s.seenIdempotencyKeys) : Ledger s' (events ++ later) := by
  have hall : messagesOf (events ++ later) = messagesOf events ++ [message] := by
    rw [messagesOf_append, hmessages]
  have hother {name : String} (hne : name ≠ topic) :
      publishedOn name (events ++ later) = publishedOn name events :=
    publishedOn_other hmessages (hset.name.symm ▸ hne)
  have hthis : publishedOn topic (events ++ later) = publishedOn topic events ++ [message] :=
    publishedOn_self hmessages hset.name
  -- The topic had as many messages as its tail says, also when it is new.
  have htail : t.nextSeq = 1 + (publishedOn topic events).length := by
    rcases ht with ht | ⟨hnone, rfl⟩
    · exact h.tail topic t ht
    · rw [h.absent topic hnone]
      rfl
  constructor
  · intro name
    by_cases hname : name = topic
    · subst hname
      rw [hthis]
      exact (h.numbered name).concat (hset.seq.trans htail)
    · rw [hother hname]
      exact h.numbered name
  · intro name t' ht'
    rw [hset.topics name] at ht'
    by_cases hname : name = topic
    · subst hname
      rw [if_pos rfl, Option.some.injEq] at ht'
      rw [← ht', hthis, trimmedTopic_nextSeq, length_append, TopicState.append]
      simp only [htail, length_singleton]
      omega
    · rw [if_neg hname] at ht'
      rw [hother hname]
      exact h.tail name t' ht'
  · intro name ht'
    rw [hset.topics name] at ht'
    by_cases hname : name = topic
    · rw [if_pos hname] at ht'
      exact absurd ht' (by simp)
    · rw [if_neg hname] at ht'
      rw [hother hname]
      exact h.absent name ht'
  · intro m hm id hmid
    rw [hset.ids]
    rw [hall, mem_append, mem_singleton] at hm
    rcases hm with hm | rfl
    · exact h.ids m hm id hmid
    · exact (hid id hmid).1
  · rw [hall, pairwise_append]
    refine ⟨h.distinctIds, pairwise_singleton _ _, ?_⟩
    intro a ha b hb id haid hbid
    rw [mem_singleton] at hb
    subst hb
    exact (hid id hbid).2 a ha haid
  · intro text
    rw [hset.keys, hall]
    cases hk : message.idempotencyKey with
    | none => simp [hk, h.keys]
    | some key =>
      simp only [Finset.mem_insert, h.keys, mem_append, mem_singleton]
      constructor
      · rintro (rfl | ⟨m, hm, key', hkey', htext⟩)
        · exact ⟨message, Or.inr rfl, key, hk, by rw [hset.name]⟩
        · exact ⟨m, Or.inl hm, key', hkey', htext⟩
      · rintro ⟨m, hm | rfl, key', hkey', htext⟩
        · exact Or.inr ⟨m, hm, key', hkey', htext⟩
        · rw [hk, Option.some.injEq] at hkey'
          subst hkey'
          rw [hset.name] at htext
          exact Or.inl htext
  · rw [hall, pairwise_append]
    refine ⟨h.distinctKeys, pairwise_singleton _ _, ?_⟩
    intro a ha b hb htopic key hakey hbkey
    rw [mem_singleton] at hb
    subst hb
    refine hkey key hbkey ((h.keys _).mpr ⟨a, ha, key, hakey, ?_⟩)
    rw [htopic, hset.name]

/-! ### Steps and runs -/

variable {command : MessageBusCommand T}

theorem seen_eq_false :
    s.seen command = false ↔ ∀ id, command.commandId = some id → id ∉ s.seenCommandIds := by
  rw [MessageBusState.seen]
  cases command.commandId <;> simp

theorem mem_note {id : String} (h : id ∈ s.seenCommandIds) : id ∈ (s.note command).seenCommandIds :=
  mem_note_ids.mpr (Or.inr h)

theorem Ledger.note (h : Ledger s events)
    (command : MessageBusCommand T) : Ledger (s.note command) events := by
  obtain ⟨_, _, _, htopics, _, hkeys, _⟩ := note_same s command
  have hnoted : Ledger (s.note command) (events ++ []) :=
    h.same rfl htopics (fun id hid => mem_note hid) hkeys
  rwa [append_nil] at hnoted

/-- Carrying out a command keeps the ledger. -/
theorem Ledger.accepted (h : Ledger s events) (haccepts : s.Accepts command) :
    Ledger (dispatchCommand (s.note command) command).1
      (events ++ (dispatchCommand (s.note command) command).2) := by
  have hnoted := h.note command
  have heffect := dispatch_effect (s.note command) command
  have hunseen := seen_eq_false.mp haccepts.unseen
  have hunpublished : (s.note command).published command = false := by
    rw [note_published]
    exact haccepts.unpublished
  have hids := heffect.steady.ids
  have hmono : ∀ id ∈ (s.note command).seenCommandIds,
      id ∈ (dispatchCommand (s.note command) command).1.seenCommandIds := by
    rw [hids]
    exact fun id hid => hid
  revert heffect hunpublished
  generalize hr : dispatchCommand (s.note command) command = r at hids hmono ⊢
  intro heffect hunpublished
  cases heffect with
  | quiet hquiet hmessages => exact hnoted.same hmessages hquiet.topics hmono hquiet.keys
  | @created topic _ _ hnew hset hplain =>
    refine hnoted.silent hplain.messages ?_ ?_ hmono hset.keys
    · intro name t ht
      rw [hset.topics, SortedMap.lookup_insert] at ht
      split_ifs at ht with hname
      · rw [Option.some.injEq] at ht
        exact Or.inr ⟨hname ▸ hnew, by rw [← ht, makeTopicState]⟩
      · exact Or.inl ⟨t, ht, rfl⟩
    · intro name ht
      rw [hset.topics, SortedMap.lookup_insert] at ht
      split_ifs at ht
      exact ht
  | @closed topic _ _ t₀ ht₀ hset hplain =>
    refine hnoted.silent hplain.messages ?_ ?_ hmono hset.keys
    · intro name t ht
      rw [hset.topics, SortedMap.lookup_insert] at ht
      split_ifs at ht with hname
      · rw [Option.some.injEq] at ht
        exact Or.inl ⟨t₀, hname ▸ ht₀, by rw [← ht]⟩
      · exact Or.inl ⟨t, ht, rfl⟩
    · intro name ht
      rw [hset.topics, SortedMap.lookup_insert] at ht
      split_ifs at ht
      exact ht
  | acked _ _ _ _ _ _ hset hplain =>
    exact hnoted.same hplain.messages hset.topics hmono hset.keys
  | sought _ _ _ _ _ hset hplain =>
    exact hnoted.same hplain.messages hset.topics hmono hset.keys
  | left _ hset hplain => exact hnoted.same hplain.messages hset.topics hmono hset.keys
  | published ht hset _ _ hcommand hidempotency hmessages _ =>
    refine hnoted.publish hset ?_ hmessages ?_ ?_
    · exact ht.imp (fun h => h.1) (fun h => ⟨h.1, h.2.1⟩)
    · intro id hid
      rw [hcommand] at hid
      refine ⟨mem_note_ids.mpr (Or.inl hid), fun m hm hmid => ?_⟩
      exact hunseen id hid (h.ids m hm id hmid)
    · intro key hkey
      rw [hidempotency] at hkey
      subst hkey
      simpa [MessageBusState.published] using hunpublished

/-- One step keeps the ledger. -/
theorem Ledger.step (h : Ledger s events)
    (step : BusStep T) : Ledger (busStep s step).1 (events ++ (busStep s step).2) := by
  cases step with
  | command command =>
    rcases reduce_cases s command with ⟨haccepts, heq⟩ | ⟨_, hmessages, ⟨_, hquiet⟩ | ⟨_, hquiet⟩⟩
    · rw [busStep, heq]
      exact h.accepted haccepts
    · refine h.same hmessages hquiet.topics ?_ hquiet.keys
      rw [busStep, hquiet.ids]
      exact fun id hid => hid
    · have hnoted := h.note command
      refine hnoted.same hmessages hquiet.topics ?_ hquiet.keys
      rw [busStep, hquiet.ids]
      exact fun id hid => hid
  | subscription opts =>
    obtain ⟨hmessages, hquiet | ⟨sub, _, hset⟩⟩ := subscription_cases s opts
    · refine h.same hmessages hquiet.topics ?_ hquiet.keys
      rw [busStep, hquiet.ids]
      exact fun id hid => hid
    · refine h.same hmessages hset.topics ?_ hset.keys
      rw [busStep, hset.ids]
      exact fun id hid => hid

/-- A run keeps the ledger. -/
theorem Ledger.run (h : Ledger s events)
    (steps : List (BusStep T)) : Ledger (busRun s steps).1 (events ++ (busRun s steps).2) := by
  induction steps generalizing s events with
  | nil =>
    rw [busRun, append_nil]
    exact h
  | cons step steps ih =>
    rw [busRun, ← append_assoc]
    exact ih (h.step step)

theorem new_topics {opts : MessageBusOptions}
    (h : (MessageBusState.new opts : MessageBusState T).topics.lookup topic = some t) :
    t = makeTopicState := by
  have hmem := SortedMap.mem_ofList (SortedMap.lookup_eq_some h)
  obtain ⟨name, _, heq⟩ := mem_map.mp hmem
  exact (Prod.mk.inj heq).2.symm

theorem ledger_new (opts : MessageBusOptions) :
    Ledger (MessageBusState.new opts : MessageBusState T) [] where
  numbered _ := Numbered.nil 1
  tail topic t ht := by
    rw [new_topics ht]
    rfl
  absent _ _ := rfl
  ids _ hm := absurd hm not_mem_nil
  distinctIds := List.Pairwise.nil
  keys text := by simp [MessageBusState.new]
  distinctKeys := List.Pairwise.nil

/-! ### Ids that have been used up -/

/-- A well-formed command among some steps carries the id. -/
def Spent (steps : List (BusStep T)) (id : String) : Prop :=
  ∃ command, BusStep.command command ∈ steps ∧ command.malformed = none ∧
    command.commandId = some id

theorem spent_cons {step : BusStep T} {steps : List (BusStep T)} {id : String} :
    Spent (step :: steps) id ↔ Spent [step] id ∨ Spent steps id := by
  simp only [Spent, mem_cons, not_mem_nil, or_false]
  constructor
  · rintro ⟨command, hmem | hmem, hrest⟩
    · exact Or.inl ⟨command, hmem, hrest⟩
    · exact Or.inr ⟨command, hmem, hrest⟩
  · rintro (⟨command, hmem, hrest⟩ | ⟨command, hmem, hrest⟩)
    · exact ⟨command, Or.inl hmem, hrest⟩
    · exact ⟨command, Or.inr hmem, hrest⟩

theorem spent_step (s : MessageBusState T) (step : BusStep T) (id : String) :
    id ∈ (busStep s step).1.seenCommandIds ↔ Spent [step] id ∨ id ∈ s.seenCommandIds := by
  cases step with
  | subscription opts =>
    have hnone : ¬ Spent [BusStep.subscription (T := T) opts] id := by
      rintro ⟨command, hmem, _⟩
      simp at hmem
    have hids : (busStep s (.subscription opts)).1.seenCommandIds = s.seenCommandIds := by
      obtain ⟨_, hquiet | ⟨sub, _, hset⟩⟩ := subscription_cases s opts
      · exact hquiet.ids
      · exact hset.ids
    rw [hids]
    exact ⟨Or.inr, fun h => h.resolve_left hnone⟩
  | command command =>
    have hspent : Spent [BusStep.command command] id ↔
        command.malformed = none ∧ command.commandId = some id := by
      simp [Spent]
    rw [hspent, busStep]
    rcases reduce_cases s command with ⟨haccepts, heq⟩ |
      ⟨_, _, ⟨hwhy, hquiet⟩ | ⟨hformed, hquiet⟩⟩
    · rw [heq, (dispatch_effect _ command).steady.ids, mem_note_ids]
      simp only [haccepts.wellFormed, true_and]
    · rw [hquiet.ids]
      refine ⟨Or.inr, fun h => h.elim (fun hid => ?_) fun hseen => hseen⟩
      rcases hwhy with hmalformed | hseen
      · exact absurd hid.1 hmalformed
      · -- The id had been seen before.
        rw [MessageBusState.seen, hid.2] at hseen
        exact of_decide_eq_true hseen
    · rw [hquiet.ids, mem_note_ids]
      simp only [hformed, true_and]

/-- The ids that are seen are those of well-formed commands. -/
theorem spent_run (s : MessageBusState T) (steps : List (BusStep T)) (id : String) :
    id ∈ (busRun s steps).1.seenCommandIds ↔ Spent steps id ∨ id ∈ s.seenCommandIds := by
  induction steps generalizing s with
  | nil => simp [busRun, Spent]
  | cons step steps ih =>
    have hcons : Spent (step :: steps) id ↔ Spent [step] id ∨ Spent steps id := spent_cons
    rw [busRun, ih, spent_step, hcons, or_left_comm, or_assoc]

/-! ### What resending does -/

/-- A command that is answered as a duplicate, or by an issue without a message,
    changes neither topics nor subscriptions. -/
theorem turned_away (s : MessageBusState T) (command : MessageBusCommand T)
    (h : Repeats (reduceMessageBusCommand s command).2 ∨
      Complains (reduceMessageBusCommand s command).2 ∧
        messagesOf (reduceMessageBusCommand s command).2 = []) :
    (reduceMessageBusCommand s command).1.topics = s.topics ∧
      (reduceMessageBusCommand s command).1.subscriptions = s.subscriptions := by
  obtain ⟨_, _, _, htopics, hsubs, _, _⟩ := note_same s command
  rcases reduce_cases s command with ⟨_, heq⟩ | ⟨_, _, ⟨_, hquiet⟩ | ⟨_, hquiet⟩⟩
  · have heffect := dispatch_effect (s.note command) command
    rw [heq] at h ⊢
    rw [← htopics, ← hsubs]
    -- An effect that reports a success reports neither a duplicate nor an issue alone.
    have hplain (hplain : Plain (dispatchCommand (s.note command) command).2) : False :=
      h.elim hplain.distinct fun hissue => hplain.content hissue.1
    revert heffect h hplain
    generalize dispatchCommand (s.note command) command = r
    intro h heffect hplain
    cases heffect with
    | quiet hquiet => exact ⟨hquiet.topics, hquiet.subscriptions⟩
    | created _ _ hp => exact (hplain hp).elim
    | closed _ _ hp => exact (hplain hp).elim
    | acked _ _ _ _ _ _ _ hp => exact (hplain hp).elim
    | sought _ _ _ _ _ _ hp => exact (hplain hp).elim
    | left _ _ hp => exact (hplain hp).elim
    | published _ _ _ _ _ _ hmessages hdistinct =>
      rcases h with hrepeats | ⟨_, hnone⟩
      · exact absurd hrepeats hdistinct
      · rw [hmessages] at hnone
        exact absurd hnone (by simp)
  · exact ⟨hquiet.topics, hquiet.subscriptions⟩
  · exact ⟨hquiet.topics.trans htopics, hquiet.subscriptions.trans hsubs⟩

/-- A publish that no set stands against appends its message to an open topic. -/
theorem publish_accepted {payload : T} {key commandId idempotencyKey : Option String}
    (haccepts : s.Accepts (.publish topic payload key commandId idempotencyKey))
    (ht : s.topics.lookup topic = some t) (hopen : t.closed = false) :
    messagesOf (reduceMessageBusCommand s
        (.publish topic payload key commandId idempotencyKey)).2 =
      [nextMessage s topic t payload key commandId idempotencyKey] := by
  obtain ⟨hnow, _, hreads, htopics, _, _, _⟩ :=
    note_same s (.publish topic payload key commandId idempotencyKey)
  rcases reduce_cases s (.publish topic payload key commandId idempotencyKey) with
    ⟨_, heq⟩ | ⟨hnot, _⟩
  · rw [heq, dispatchCommand, publishMessage]
    generalize s.note (.publish topic payload key commandId idempotencyKey) = s' at *
    rw [← htopics] at ht
    have hsome : (s'.topics.lookup topic).isSome = true := by
      rw [ht]
      rfl
    rw [if_pos hsome]
    simp only [publishToTopic, ht, hopen, Bool.false_eq_true, if_false]
    obtain ⟨_, hmessages, _⟩ :=
      appendMessage_published s' topic hopen payload key commandId idempotencyKey
    rw [hmessages, nextMessage, nextMessage, MessageBusState.timestampOrZero, hnow, hreads]
    rfl
  · exact absurd haccepts hnot

/-- Over every run of a new bus: the messages of a topic are numbered from one
    on, no two messages share an id, and none on one topic share a key. A command
    that is answered as a duplicate, or by an issue without a message, changes
    neither topics nor subscriptions. A publish to an open topic is published
    when nothing has been published there under its key and no well-formed
    command has carried its id. -/
theorem publishing_exactly_once (opts : MessageBusOptions) (steps : List (BusStep T)) :
    let r := busRun (MessageBusState.new opts) steps
    (∀ topic, (publishedOn topic r.2).map (·.seq) =
      List.range' 1 (publishedOn topic r.2).length) ∧
    ((messagesOf r.2).Pairwise fun a b => ∀ id, a.commandId = some id → b.commandId ≠ some id) ∧
    ((messagesOf r.2).Pairwise fun a b => a.topic = b.topic →
      ∀ key, a.idempotencyKey = some key → b.idempotencyKey ≠ some key) ∧
    (∀ command, Repeats (reduceMessageBusCommand r.1 command).2 ∨
        Complains (reduceMessageBusCommand r.1 command).2 ∧
          messagesOf (reduceMessageBusCommand r.1 command).2 = [] →
      (reduceMessageBusCommand r.1 command).1.topics = r.1.topics ∧
        (reduceMessageBusCommand r.1 command).1.subscriptions = r.1.subscriptions) ∧
    (∀ topic t payload key commandId idempotencyKey, topic ≠ "" →
      r.1.topics.lookup topic = some t → t.closed = false →
      (∀ id, commandId = some id → ¬ Spent steps id) →
      (∀ k, idempotencyKey = some k →
        ∀ message ∈ publishedOn topic r.2, message.idempotencyKey ≠ some k) →
      ∃ message, messagesOf (reduceMessageBusCommand r.1
          (.publish topic payload key commandId idempotencyKey)).2 = [message] ∧
        message.topic = topic ∧ message.payload = payload ∧ message.key = key ∧
        message.commandId = commandId ∧ message.idempotencyKey = idempotencyKey) := by
  intro r
  have hledger : Ledger r.1 r.2 := (ledger_new opts).run steps
  refine ⟨hledger.numbered, hledger.distinctIds, hledger.distinctKeys, turned_away r.1, ?_⟩
  intro topic t payload key commandId idempotencyKey hname ht hopen hid hkey
  refine ⟨_, publish_accepted ⟨?_, ?_, ?_⟩ ht hopen, rfl, rfl, rfl, rfl, rfl⟩
  · simp [MessageBusCommand.malformed, MessageBusCommand.topic?, validateTopicKey, hname,
      MessageBusCommand.subscriptionId]
  · refine seen_eq_false.mpr fun id hcommand hmem => ?_
    rcases (spent_run _ steps id).mp hmem with hspent | hnew
    · exact hid id hcommand hspent
    · exact absurd hnew (by simp [MessageBusState.new])
  · cases idempotencyKey with
    | none => rfl
    | some k =>
      -- Were the key seen, a message of this topic would carry it.
      refine decide_eq_false fun hmem => ?_
      obtain ⟨message, hmessage, k', hk', heq⟩ := (hledger.keys _).mp hmem
      have hparts := Json.canonicalTupleKey_injective heq
      simp only [List.cons.injEq, and_true] at hparts
      refine hkey k rfl message (mem_publishedOn.mpr ⟨hmessage, hparts.1.symm⟩) ?_
      rw [hk', hparts.2]

/-- A bus without topics whose clock stands still. -/
def strictBus : MessageBusOptions :=
  { topics := []
    topicPolicy := .strict
    retention := { maxMessages := some 1, maxAgeMs := none }
    dedupe := .status
    now := fun _ => some 0 }

/-- A publish is turned away for its unknown topic, and sent again under its id
    when the topic exists: it is answered as a duplicate and nothing has been
    published. And a publish that trims the topic is answered by its message and
    by the issue of a subscription left behind, and has changed both. -/
theorem resent_id_is_a_duplicate :
    (let publish : BusStep Nat := .command (.publish "orders" 7 none (some "c1") (some "k1"))
      let r := busRun (MessageBusState.new strictBus)
        [publish, .command (.ensureTopic "orders" none), publish]
      messagesOf r.2 = [] ∧
        (r.1.topics.lookup "orders").map (·.closed) = some false) ∧
    (let publish : BusStep Nat := .command (.publish "orders" 7 none none none)
      let r := busRun (MessageBusState.new strictBus)
        [.command (.ensureTopic "orders" none),
          .subscription { topic := "orders", subscriptionId := "s", start := .earliest }, publish]
      let after := busStep r.1 publish
      Complains after.2 ∧
        (r.1.subscriptions.lookup (subscriptionKey "orders" "s")).map (·.retentionGap) =
          some false ∧
        (after.1.subscriptions.lookup (subscriptionKey "orders" "s")).map (·.retentionGap) =
          some true) := by
  refine ⟨⟨by decide +kernel, by decide +kernel⟩, ⟨?_, ?_⟩, by decide +kernel, by decide +kernel⟩
  · exact
      { kind := "issue"
        code := "retention-gap"
        message := "subscription 's' is before retained headSeq"
        severity := "error"
        source := "messageBus"
        topic := none
        details := none }
  · decide +kernel

end GraphRefly.Messaging
