import GraphRefly.Messaging.Publish

/-!
# Retention and Gaps

What a subscription is promised: it sees every message from its cursor on, or it
is told of a gap. A topic keeps a window of what it has published, and the head
of the window is compared with the cursors whenever it moves.

Two things break the promise. A trim by age drops the old messages wherever they
stand, so when the clock has gone back it may take a message out of the middle
of the window; the head stays, and nobody is told. And a subscription may be
opened at any number before its topic exists; when the topic is then created,
the cursor stands beyond its tail, and the messages up to the cursor are skipped.

A run in which neither happens keeps the promise. The condition is on what a
step starts from: the stamps and the reading a trim will be done with, and the
cursors that wait for a topic.

## Main definitions

* `Retained`: Windows and cursors fit together.
* `Orderly`, `OrderlyRun`: A step, or every step of a run, meets the condition.
* `readPages`: Reading on, page after page.

## Theorems

* `Retained.step`, `Retained.run`: An orderly run keeps windows and cursors.
* `readPages_eq`: Reading page after page gives all messages from the cursor on.
* `no_message_missed`: The promise, over every orderly run.
* `middle_message_dropped`: Two runs that break it.
-/

namespace GraphRefly.Messaging

open List GraphRefly.Lib

variable {T : Type}

/-! ### The condition -/

/-- The open subscriptions of a topic without a gap stand at or before a number. -/
def CursorsWithin (s : MessageBusState T) (topic : String) (bound : Nat) : Prop :=
  ∀ key sub, s.subscriptions.lookup key = some sub → sub.topic = topic → sub.closed = false →
    sub.retentionGap = false → sub.nextSeq ≤ bound

/-- The stamps of a topic's messages, with that of a message published next. -/
def stamps (s : MessageBusState T) (t : TopicState T) : List Nat :=
  t.messages.map (·.timestampMs) ++ [clockReading s.now s.reads]

/-- A step that breaks no promise. A topic is created when no cursor on it stands
    beyond the tail it then has; and when a publish trims its topic, two calls of
    the clock after the message was stamped, a message that is kept is followed by
    kept messages only. -/
def Orderly (s : MessageBusState T) : BusStep T → Prop
  | .command (.ensureTopic topic commandId) =>
    s.Accepts (.ensureTopic topic commandId) → s.topics.lookup topic = none →
      CursorsWithin s topic 1
  | .command (.publish topic payload key commandId idempotencyKey) =>
    s.Accepts (.publish topic payload key commandId idempotencyKey) →
      (s.topics.lookup topic = none → s.topicPolicy = .createAsFact →
        CursorsWithin s topic 2) ∧
      ∀ t, s.topics.lookup topic = some t → t.closed = false →
        KeepsTail (s.retention.fresh (clockReading s.now (s.reads + 2)))
          s.retention.maxMessages (stamps s t)
  | _ => True

/-- Every step of a run meets the condition in the state it starts from. -/
def OrderlyRun (s : MessageBusState T) : List (BusStep T) → Prop
  | [] => True
  | step :: steps => Orderly s step ∧ OrderlyRun (busStep s step).1 steps

/-! ### Windows and cursors -/

/-- Windows and cursors fit together: a topic holds what it has published from
    its head on, and an open cursor without a gap stands in the window or at its
    ends. -/
structure Retained (s : MessageBusState T) (events : List (RuntimeEvent T)) : Prop where
  window : ∀ topic t, s.topics.lookup topic = some t → 1 ≤ t.headSeq ∧ t.headSeq ≤ t.nextSeq ∧
    t.messages = (publishedOn topic events).drop (t.headSeq - 1)
  keyed : ∀ key sub, s.subscriptions.lookup key = some sub →
    key = subscriptionKey sub.topic sub.subscriptionId
  cursor : ∀ key sub, s.subscriptions.lookup key = some sub → sub.closed = false →
    sub.retentionGap = false → ∀ t, s.topics.lookup sub.topic = some t →
      (t.headSeq ≤ sub.nextSeq ∨ t.headSeq = 1) ∧ sub.nextSeq ≤ t.nextSeq

variable {s : MessageBusState T} {events : List (RuntimeEvent T)} {topic : String}
  {t : TopicState T}

theorem Retained.numbered (h : Retained s events) (hledger : Ledger s events)
    (ht : s.topics.lookup topic = some t) :
    Numbered (·.seq) t.headSeq t.messages ∧ t.headSeq + t.messages.length = t.nextSeq := by
  obtain ⟨hone, hle, hmessages⟩ := h.window topic t ht
  have htail := hledger.tail topic t ht
  have hdrop := (hledger.numbered topic).drop (t.headSeq - 1)
  rw [← hmessages] at hdrop
  have hfirst : 1 + (t.headSeq - 1) = t.headSeq := by omega
  rw [hfirst] at hdrop
  refine ⟨hdrop, ?_⟩
  rw [hmessages, length_drop]
  omega

variable {n : Nat}

/-- A window onto numbered messages holds all of them from a number on that it reaches. -/
theorem filter_window {published window : List (MessageEnvelope T)} {head : Nat}
    (h : Numbered (·.seq) 1 published) (hone : 1 ≤ head)
      (hwindow : window = published.drop (head - 1)) (hn : head ≤ n ∨ head = 1) :
    (window.filter fun message => decide (n ≤ message.seq)) =
      published.filter fun message => decide (n ≤ message.seq) := by
  have hdrop := h.drop (head - 1)
  rw [← hwindow] at hdrop
  rw [hdrop.filter_le, h.filter_le, hwindow, drop_drop]
  refine congrArg (fun k => published.drop k) ?_
  omega

theorem Retained.filter_le (h : Retained s events) (hledger : Ledger s events)
    (ht : s.topics.lookup topic = some t) (hn : t.headSeq ≤ n ∨ t.headSeq = 1) :
    (t.messages.filter fun message => decide (n ≤ message.seq)) =
      (publishedOn topic events).filter fun message => decide (n ≤ message.seq) := by
  obtain ⟨hone, hle, hmessages⟩ := h.window topic t ht
  exact filter_window (hledger.numbered topic) hone hmessages hn

/-! ### Reading page after page -/

/-- Read on from a number, page after page. -/
def readPages (s : MessageBusState T) (sub : SubscriptionState) (limit : Option Nat) :
    Nat → Option Nat → List (MessageEnvelope T)
  | 0, _ => []
  | fuel + 1, afterSeq =>
    let page := availablePage s sub { limit := limit, afterSeq := afterSeq }
    page.messages ++ if page.hasMore then readPages s sub limit fuel page.nextAfterSeq else []

variable {first : Nat}

theorem filter_after_take {messages : List (MessageEnvelope T)}
    (h : Numbered (·.seq) first messages) {start limit : Nat} (hlimit : 0 < limit)
    (hmore : limit < (messages.filter fun m => decide (start ≤ m.seq)).length) :
    ∃ last, ((messages.filter fun m => decide (start ≤ m.seq)).take limit).getLast?.map (·.seq) =
        some last ∧ (messages.filter fun m => decide (last + 1 ≤ m.seq)) =
        (messages.filter fun m => decide (start ≤ m.seq)).drop limit := by
  rw [h.filter_le] at hmore ⊢
  rw [length_drop] at hmore
  have hsub := h.drop (start - first)
  have hlast : limit - 1 < (messages.drop (start - first)).length := by
    rw [length_drop]
    omega
  refine ⟨(messages.drop (start - first))[limit - 1].seq, ?_, ?_⟩
  · rw [List.getLast?_take, if_neg (by omega), List.getElem?_eq_getElem hlast]
    rfl
  · rw [h.filter_le, hsub.getElem hlast, drop_drop]
    refine congrArg (fun k => messages.drop k) ?_
    omega

variable {sub : SubscriptionState}

theorem availablePage_messages (hcurrent : s.current sub = sub) (hgap : sub.retentionGap = false)
    (ht : s.topics.lookup sub.topic = some t) (params : MessageBusAvailableParams) :
    let start := (params.afterSeq.map (· + 1)).getD sub.nextSeq
    let all := t.messages.filter fun message => decide (start ≤ message.seq)
    let page := availablePage s sub params
    page.messages = all.take (positiveLimit params.limit) ∧
      page.hasMore = decide (all.length > positiveLimit params.limit) ∧
      (all.length > positiveLimit params.limit →
        page.nextAfterSeq = (all.take (positiveLimit params.limit)).getLast?.map (·.seq)) := by
  simp only [availablePage, hcurrent, hgap, ht, Option.map_some, Option.getD_some,
    Bool.false_eq_true, if_false, true_and]
  intro hmore
  rw [if_pos hmore]

/-- Reading page after page gives everything from the cursor on. -/
theorem readPages_eq (hcurrent : s.current sub = sub) (hgap : sub.retentionGap = false)
    (ht : s.topics.lookup sub.topic = some t) (hnumbered : Numbered (·.seq) first t.messages)
    {limit : Option Nat} (hlimit : 0 < positiveLimit limit) (fuel : Nat) (afterSeq : Option Nat)
    (hfuel : (t.messages.filter fun message =>
      decide ((afterSeq.map (· + 1)).getD sub.nextSeq ≤ message.seq)).length < fuel) :
    readPages s sub limit fuel afterSeq = t.messages.filter fun message =>
      decide ((afterSeq.map (· + 1)).getD sub.nextSeq ≤ message.seq) := by
  induction fuel generalizing afterSeq with
  | zero => omega
  | succ fuel ih =>
    obtain ⟨hpage, hmore, hnext⟩ := availablePage_messages hcurrent hgap ht
      { limit := limit, afterSeq := afterSeq }
    rw [readPages]
    simp only [hpage, hmore]
    by_cases hlong : (t.messages.filter fun message =>
        decide ((afterSeq.map (· + 1)).getD sub.nextSeq ≤ message.seq)).length >
          positiveLimit limit
    · -- The next page starts behind the last message of this one.
      obtain ⟨last, hlast, hrest⟩ := filter_after_take hnumbered hlimit hlong
      have hafter : (availablePage s sub { limit := limit, afterSeq := afterSeq }).nextAfterSeq =
          some last := (hnext hlong).trans hlast
      have hread := ih (some last) (by
        simp only [Option.map_some, Option.getD_some, hrest, length_drop]
        omega)
      simp only [Option.map_some, Option.getD_some, hrest] at hread
      rw [if_pos (decide_eq_true hlong), hafter, hread, take_append_drop]
    · rw [if_neg (by simpa using hlong), append_nil]
      exact take_of_length_le (not_lt.mp hlong)

/-! ### What a step keeps -/

variable {s' : MessageBusState T} {later : List (RuntimeEvent T)}

theorem Retained.silent (h : Retained s events) (hmessages : messagesOf later = [])
    (htopics : s'.topics = s.topics) (hsubs : s'.subscriptions = s.subscriptions) :
    Retained s' (events ++ later) := by
  constructor
  · intro topic t ht
    rw [htopics] at ht
    rw [publishedOn_silent hmessages]
    exact h.window topic t ht
  · intro key sub hsub
    rw [hsubs] at hsub
    exact h.keyed key sub hsub
  · intro key sub hsub hopen hgap t ht
    rw [hsubs] at hsub
    rw [htopics] at ht
    exact h.cursor key sub hsub hopen hgap t ht

theorem Retained.setTopic (h : Retained s events) (hmessages : messagesOf later = [])
    (hset : TopicSet s s' topic t)
    (hwindow : 1 ≤ t.headSeq ∧ t.headSeq ≤ t.nextSeq ∧
      t.messages = (publishedOn topic events).drop (t.headSeq - 1))
    (hcursor : ∀ key sub, s.subscriptions.lookup key = some sub → sub.topic = topic →
      sub.closed = false → sub.retentionGap = false →
        (t.headSeq ≤ sub.nextSeq ∨ t.headSeq = 1) ∧ sub.nextSeq ≤ t.nextSeq) :
    Retained s' (events ++ later) := by
  constructor
  · intro name t' ht'
    rw [hset.topics, SortedMap.lookup_insert] at ht'
    rw [publishedOn_silent hmessages]
    split_ifs at ht' with hname
    · rw [Option.some.injEq] at ht'
      rw [← ht', hname]
      exact hwindow
    · exact h.window name t' ht'
  · intro key sub hsub
    rw [hset.subscriptions] at hsub
    exact h.keyed key sub hsub
  · intro key sub hsub hopen hgap t' ht'
    rw [hset.subscriptions] at hsub
    rw [hset.topics, SortedMap.lookup_insert] at ht'
    split_ifs at ht' with hname
    · rw [Option.some.injEq] at ht'
      rw [← ht']
      exact hcursor key sub hsub hname hopen hgap
    · exact h.cursor key sub hsub hopen hgap t' ht'

theorem Retained.setSubscription {key : String} (h : Retained s events)
    (hmessages : messagesOf later = []) (hset : SubscriptionSet s s' key sub)
    (hkey : key = subscriptionKey sub.topic sub.subscriptionId)
    (hcursor : sub.closed = false → sub.retentionGap = false →
      ∀ t, s.topics.lookup sub.topic = some t →
        (t.headSeq ≤ sub.nextSeq ∨ t.headSeq = 1) ∧ sub.nextSeq ≤ t.nextSeq) :
    Retained s' (events ++ later) := by
  constructor
  · intro topic t ht
    rw [hset.topics] at ht
    rw [publishedOn_silent hmessages]
    exact h.window topic t ht
  · intro key' sub' hsub'
    rw [hset.subscriptions, SortedMap.lookup_insert] at hsub'
    split_ifs at hsub' with hname
    · rw [Option.some.injEq] at hsub'
      rw [← hsub', hname]
      exact hkey
    · exact h.keyed key' sub' hsub'
  · intro key' sub' hsub' hopen hgap t ht
    rw [hset.topics] at ht
    rw [hset.subscriptions, SortedMap.lookup_insert] at hsub'
    split_ifs at hsub' with hname
    · rw [Option.some.injEq] at hsub'
      subst hsub'
      exact hcursor hopen hgap t ht
    · exact h.cursor key' sub' hsub' hopen hgap t ht

/-- Trimming a window that keeps its tail leaves a window, whose head is where it
    begins. -/
theorem trimmedTopic_window {retention : MessageBusRetentionPolicy} {now : Nat}
    {all : List (MessageEnvelope T)} (hmax : retention.maxMessages ≠ some 0)
    (hnumbered : Numbered (·.seq) 1 all) (hnext : t.nextSeq = 1 + all.length)
    (hsuffix : t.messages <:+ all)
    (hkeeps : KeepsTail (fun m : MessageEnvelope T => retention.fresh now m.timestampMs)
      retention.maxMessages t.messages) :
    let t' := trimmedTopic retention now t
    1 ≤ t'.headSeq ∧ t'.headSeq ≤ t'.nextSeq ∧ t'.messages = all.drop (t'.headSeq - 1) := by
  intro t'
  have ht' : t' = { t with
      messages := retention.kept now t.messages
      headSeq := ((retention.kept now t.messages).head?.map (·.seq)).getD t.nextSeq } :=
    if_neg hmax
  have hkept : retention.kept now t.messages <:+ all := by
    rw [kept_eq_trim]
    exact hkeeps.trim_suffix.trans hsuffix
  obtain ⟨heq, hwindow⟩ := hnumbered.eq_drop_of_suffix hkept
  have hlength := hkept.length_le
  -- The head is the number of the first message kept, or the tail if none is.
  have hhead : t'.headSeq = 1 + (all.length - (retention.kept now t.messages).length) := by
    have htail : 1 + (all.length - (retention.kept now t.messages).length) +
        (retention.kept now t.messages).length = t.nextSeq := by omega
    have hfirst := hwindow.head_getD
    rw [htail] at hfirst
    rw [ht']
    exact hfirst
  have hmessages : t'.messages = retention.kept now t.messages := by rw [ht']
  have hnext' : t'.nextSeq = t.nextSeq := by rw [ht']
  refine ⟨by omega, by omega, ?_⟩
  rw [hmessages, hhead, Nat.add_sub_cancel_left]
  exact heq

variable {message : MessageEnvelope T} {stamp trimAt : Nat}

/-- A message is published and its topic trimmed: the cursors that are left behind
    are flagged. -/
theorem Retained.publish (h : Retained s events) (hledger' : Ledger s' (events ++ later))
    (hset : Published s s' topic t message stamp trimAt) (hmessages : messagesOf later = [message])
    (hmax : s.retention.maxMessages ≠ some 0)
    (hwindow : 1 ≤ t.headSeq ∧ t.headSeq ≤ t.nextSeq ∧
      t.messages = (publishedOn topic events).drop (t.headSeq - 1))
    (htail : t.nextSeq = 1 + (publishedOn topic events).length)
    (hkeeps : KeepsTail
      (fun m : MessageEnvelope T => s.retention.fresh (clockReading s.now trimAt) m.timestampMs)
      s.retention.maxMessages (t.append message).messages)
    (hcursor : ∀ key sub, s.subscriptions.lookup key = some sub → sub.topic = topic →
      sub.closed = false → sub.retentionGap = false →
        (t.headSeq ≤ sub.nextSeq ∨ t.headSeq = 1) ∧ sub.nextSeq ≤ t.nextSeq + 1) :
    Retained s' (events ++ later) := by
  obtain ⟨hone, hle, hmsgs⟩ := hwindow
  have hother {name : String} (hne : name ≠ topic) :
      publishedOn name (events ++ later) = publishedOn name events :=
    publishedOn_other hmessages (hset.name.symm ▸ hne)
  have hthis : publishedOn topic (events ++ later) = publishedOn topic events ++ [message] :=
    publishedOn_self hmessages hset.name
  have hsuffix : (t.append message).messages <:+ publishedOn topic (events ++ later) := by
    rw [hthis, TopicState.append, hmsgs]
    exact ⟨(publishedOn topic events).take (t.headSeq - 1), by
      rw [← append_assoc, take_append_drop]⟩
  have hnext : (t.append message).nextSeq = 1 + (publishedOn topic (events ++ later)).length := by
    rw [hthis, TopicState.append, length_append, length_singleton]
    simp only [htail]
    omega
  have htrimmed := trimmedTopic_window hmax (hledger'.numbered topic) hnext hsuffix hkeeps
  generalize htrim : trimmedTopic s.retention (clockReading s.now trimAt) (t.append message) =
    t' at htrimmed
  have hnext' : t'.nextSeq = t.nextSeq + 1 := by
    rw [← htrim, trimmedTopic_nextSeq, TopicState.append]
  constructor
  · intro name u hu
    rw [hset.topics, htrim] at hu
    split_ifs at hu with hname
    · rw [Option.some.injEq] at hu
      rw [← hu, hname]
      exact htrimmed
    · rw [hother hname]
      exact h.window name u hu
  · intro key sub hsub
    rw [hset.subscriptions, Option.map_eq_some_iff] at hsub
    obtain ⟨sub₀, hsub₀, hflag⟩ := hsub
    have hkeyed := h.keyed key sub₀ hsub₀
    rw [← hflag, flagged]
    split_ifs <;> exact hkeyed
  · intro key sub hsub hopen hgap u hu
    rw [hset.subscriptions, Option.map_eq_some_iff, htrim] at hsub
    obtain ⟨sub₀, hsub₀, hflag⟩ := hsub
    rw [flagged] at hflag
    split_ifs at hflag with hbehind
    · -- A flagged subscription has a gap.
      rw [← hflag] at hgap
      exact absurd hgap (by simp)
    · subst hflag
      rw [hset.topics, htrim] at hu
      split_ifs at hu with hname
      · rw [Option.some.injEq] at hu
        subst hu
        obtain ⟨hlow, hhigh⟩ := hcursor key sub₀ hsub₀ hname hopen hgap
        refine ⟨?_, by omega⟩
        -- Either the head has stayed, or the cursor was not left behind.
        by_cases hmoved : t.headSeq = t'.headSeq
        · rw [← hmoved]
          exact hlow
        · refine Or.inl (not_lt.mp fun hlt => hbehind ⟨hmoved, ?_⟩)
          simp [SubscriptionState.leftBehind, hopen, hgap, hname, hlt]
      · exact h.cursor key sub₀ hsub₀ hopen hgap u hu

theorem Retained.named (h : Retained s events) {subscriptionId : String}
    (hsub : s.subscriptions.lookup (subscriptionKey topic subscriptionId) = some sub) :
    sub.topic = topic ∧ sub.subscriptionId = subscriptionId := by
  have hparts := Json.canonicalTupleKey_injective (h.keyed _ sub hsub)
  simp only [List.cons.injEq, and_true] at hparts
  exact ⟨hparts.1.symm, hparts.2.symm⟩

theorem Retained.accepted_publish
    (h : Retained s events) (hledger : Ledger s events) (hledger' : Ledger s' (events ++ later))
    (ht : s.topics.lookup topic = some t ∧ stamp = s.reads ∧ trimAt = s.reads + 2 ∨
      s.topics.lookup topic = none ∧ t = makeTopicState ∧ s.topicPolicy = .createAsFact ∧
        stamp = s.reads + 1 ∧ trimAt = s.reads + 3)
    (hset : Published s s' topic t message stamp trimAt) (hmessages : messagesOf later = [message])
    (hmax : s.retention.maxMessages ≠ some 0)
    (hnew : s.topics.lookup topic = none → s.topicPolicy = .createAsFact →
      CursorsWithin s topic 2)
    (hold : ∀ t, s.topics.lookup topic = some t → t.closed = false →
      KeepsTail (s.retention.fresh (clockReading s.now (s.reads + 2)))
        s.retention.maxMessages (stamps s t)) :
    Retained s' (events ++ later) := by
  rcases ht with ⟨ht, rfl, rfl⟩ | ⟨hnone, rfl, hpolicy, _⟩
  · refine h.publish hledger' hset hmessages hmax (h.window topic t ht)
      (hledger.tail topic t ht) ?_ ?_
    · refine KeepsTail.of_map (f := fun m : MessageEnvelope T => m.timestampMs) ?_
      have hkeeps := hold t ht hset.opened
      rw [stamps, ← hset.stamped] at hkeeps
      rw [TopicState.append, map_append, map_singleton]
      exact hkeeps
    · intro key sub hsub hname hopen hgap
      obtain ⟨hlow, hhigh⟩ := h.cursor key sub hsub hopen hgap t (hname ▸ ht)
      exact ⟨hlow, hhigh.trans (Nat.le_succ _)⟩
  · have hempty := hledger.absent topic hnone
    refine h.publish hledger' hset hmessages hmax ⟨le_rfl, le_rfl, ?_⟩ ?_ ?_ ?_
    · rw [hempty]
      rfl
    · rw [hempty]
      rfl
    · exact KeepsTail.of_pairwise (pairwise_singleton _ message)
    · intro key sub hsub hname hopen hgap
      exact ⟨Or.inr rfl, hnew hnone hpolicy key sub hsub hname hopen hgap⟩

theorem Retained.effect {command : MessageBusCommand T} (h : Retained s events)
    (hledger : Ledger s events)
    (hledger' : Ledger s' (events ++ later)) (hmax : s.retention.maxMessages ≠ some 0)
    (hcreate : ∀ topic id, command = .ensureTopic topic id → s.topics.lookup topic = none →
      CursorsWithin s topic 1)
    (hpublish : ∀ topic payload key id idem, command = .publish topic payload key id idem →
      (s.topics.lookup topic = none → s.topicPolicy = .createAsFact → CursorsWithin s topic 2) ∧
      ∀ t, s.topics.lookup topic = some t → t.closed = false →
        KeepsTail (s.retention.fresh (clockReading s.now (s.reads + 2)))
          s.retention.maxMessages (stamps s t))
    (heffect : Effect s s' command later) : Retained s' (events ++ later) := by
  cases heffect with
  | quiet hquiet hmessages => exact h.silent hmessages hquiet.topics hquiet.subscriptions
  | @created topic id _ hnew hset hplain =>
    refine h.setTopic hplain.messages hset ⟨le_rfl, le_rfl, ?_⟩ ?_
    · rw [hledger.absent topic hnew]
      rfl
    · intro key sub hsub hname hopen hgap
      exact ⟨Or.inr rfl, hcreate topic id rfl hnew key sub hsub hname hopen hgap⟩
  | @closed topic _ _ t ht hset hplain =>
    refine h.setTopic hplain.messages hset (h.window topic t ht) ?_
    intro key sub hsub hname hopen hgap
    exact h.cursor key sub hsub hopen hgap t (hname ▸ ht)
  | @acked topic subscriptionId seq _ _ t sub ht hsub hopen hgap hlow hhigh hset hplain =>
    obtain ⟨hname, hid⟩ := h.named hsub
    refine h.setSubscription hplain.messages hset (by rw [← hname, ← hid]) ?_
    intro _ _ t' ht'
    have heq : t = t' := Option.some.inj ((hname ▸ ht : s.topics.lookup sub.topic =
      some t).symm.trans ht')
    subst heq
    obtain ⟨hwindow, _⟩ := h.cursor _ sub hsub hopen hgap t ht'
    exact ⟨hwindow.imp (fun hle => hle.trans (hlow.trans (Nat.le_succ _))) fun hone => hone,
      hhigh⟩
  | @sought topic subscriptionId nextSeq _ _ t sub ht hsub hopen hlow hhigh hset hplain =>
    obtain ⟨hname, hid⟩ := h.named hsub
    refine h.setSubscription hplain.messages hset (by rw [← hname, ← hid]) ?_
    intro _ _ t' ht'
    have heq : t = t' := Option.some.inj ((hname ▸ ht : s.topics.lookup sub.topic =
      some t).symm.trans ht')
    subst heq
    exact ⟨Or.inl hlow, hhigh⟩
  | @left topic subscriptionId _ _ sub hsub hset hplain =>
    obtain ⟨hname, hid⟩ := h.named hsub
    refine h.setSubscription hplain.messages hset (by rw [← hname, ← hid]) ?_
    intro hopen
    exact absurd hopen (by simp)
  | @published topic payload key id idem _ t message stamp trimAt ht hset _ _ _ _ hmessages _ =>
    obtain ⟨hnew, hold⟩ := hpublish topic payload key id idem rfl
    exact h.accepted_publish hledger hledger' ht hset hmessages hmax hnew hold

/-- An orderly step keeps windows and cursors. -/
theorem Retained.step
    (h : Retained s events) (hledger : Ledger s events) (hmax : s.retention.maxMessages ≠ some 0)
    {step : BusStep T} (horderly : Orderly s step) :
    Retained (busStep s step).1 (events ++ (busStep s step).2) := by
  have hledger' := hledger.step step
  cases step with
  | subscription opts =>
    obtain ⟨hmessages, hquiet | ⟨sub, hopened, hset⟩⟩ := subscription_cases s opts
    · exact h.silent hmessages hquiet.topics hquiet.subscriptions
    · refine h.setSubscription hmessages hset
        (by rw [hopened.topic, hopened.subscriptionId]) fun _ _ t ht => ?_
      rw [hopened.topic] at ht
      obtain ⟨hlow, hhigh, _⟩ := hopened.range t ht (h.window _ t ht).2.1
      exact ⟨Or.inl hlow, hhigh⟩
  | command command =>
    obtain ⟨hnow, hretention, hreads, htopics, hsubs, _, hpolicy⟩ := note_same s command
    have hnoted : Retained (s.note command) events := by
      have hsilent : Retained (s.note command) (events ++ []) := h.silent rfl htopics hsubs
      rwa [append_nil] at hsilent
    rcases reduce_cases s command with ⟨haccepts, heq⟩ |
      ⟨_, hmessages, ⟨_, hquiet⟩ | ⟨_, hquiet⟩⟩
    · rw [busStep, heq] at hledger' ⊢
      refine hnoted.effect (hledger.note command) hledger' (hretention ▸ hmax) ?_ ?_
        (dispatch_effect _ command)
      · -- Noting a command changes nothing the condition speaks of.
        intro topic id hcommand hnone
        rw [htopics] at hnone
        subst hcommand
        have hwithin := horderly haccepts hnone
        rw [CursorsWithin] at hwithin ⊢
        rwa [hsubs]
      · intro topic payload key id idem hcommand
        subst hcommand
        obtain ⟨hcreate, hkeeps⟩ := horderly haccepts
        rw [htopics, hpolicy, hretention, hnow, hreads]
        refine ⟨fun hnone has => ?_, fun t ht hopen => ?_⟩
        · have hwithin := hcreate hnone has
          rw [CursorsWithin] at hwithin ⊢
          rwa [hsubs]
        · have htail := hkeeps t ht hopen
          rw [stamps] at htail ⊢
          rwa [hnow, hreads]
    · exact h.silent hmessages hquiet.topics hquiet.subscriptions
    · exact hnoted.silent hmessages hquiet.topics hquiet.subscriptions

theorem busStep_same (s : MessageBusState T) (step : BusStep T) :
    (busStep s step).1.now = s.now ∧ (busStep s step).1.retention = s.retention ∧
      s.reads ≤ (busStep s step).1.reads := by
  cases step with
  | subscription opts =>
    obtain ⟨_, hquiet | ⟨sub, _, hset⟩⟩ := subscription_cases s opts
    · exact ⟨hquiet.now, hquiet.retention, hquiet.reads⟩
    · exact ⟨hset.now, hset.retention, hset.reads⟩
  | command command =>
    obtain ⟨hnow, hretention, hreads, _⟩ := note_same s command
    rcases reduce_cases s command with ⟨_, heq⟩ | ⟨_, _, ⟨_, hquiet⟩ | ⟨_, hquiet⟩⟩
    · have hsteady := (dispatch_effect (s.note command) command).steady
      rw [busStep, heq]
      exact ⟨hsteady.now.trans hnow, hsteady.retention.trans hretention,
        hreads ▸ hsteady.reads⟩
    · exact ⟨hquiet.now, hquiet.retention, hquiet.reads⟩
    · exact ⟨hquiet.now.trans hnow, hquiet.retention.trans hretention,
        hreads ▸ hquiet.reads⟩

/-- An orderly run keeps windows and cursors. -/
theorem Retained.run
    (h : Retained s events) (hledger : Ledger s events) (hmax : s.retention.maxMessages ≠ some 0)
    {steps : List (BusStep T)} (horderly : OrderlyRun s steps) :
    Retained (busRun s steps).1 (events ++ (busRun s steps).2) := by
  induction steps generalizing s events with
  | nil =>
    rw [busRun, append_nil]
    exact h
  | cons step steps ih =>
    obtain ⟨hfirst, hrest⟩ := horderly
    rw [busRun, ← append_assoc]
    refine ih (h.step hledger hmax hfirst) (hledger.step step) ?_ hrest
    rw [(busStep_same s step).2.1]
    exact hmax

theorem retained_new (opts : MessageBusOptions) :
    Retained (MessageBusState.new opts : MessageBusState T) [] where
  window topic t ht := by
    rw [new_topics ht]
    exact ⟨le_rfl, le_rfl, rfl⟩
  keyed key sub hsub := absurd hsub (by simp [MessageBusState.new])
  cursor key sub hsub := absurd hsub (by simp [MessageBusState.new])

/-- In every state an orderly run reaches, the messages a topic retains carry the
    numbers from its head up to its tail; and an open subscription without a gap
    stands at or before the tail, every message published from its cursor on is
    retained, and reading the available pages gives all of them. -/
theorem no_message_missed (opts : MessageBusOptions) (hmax : opts.retention.maxMessages ≠ some 0)
    (steps : List (BusStep T))
    (horderly : OrderlyRun (MessageBusState.new opts : MessageBusState T) steps) :
    let r := busRun (MessageBusState.new opts) steps
    (∀ topic t, r.1.topics.lookup topic = some t →
      t.messages.map (·.seq) = List.range' t.headSeq (t.nextSeq - t.headSeq)) ∧
    (∀ key sub, r.1.subscriptions.lookup key = some sub → sub.closed = false →
      sub.retentionGap = false → ∀ t, r.1.topics.lookup sub.topic = some t →
        sub.nextSeq ≤ t.nextSeq ∧
        (∀ message ∈ publishedOn sub.topic r.2, sub.nextSeq ≤ message.seq →
          message ∈ t.messages) ∧
        ∀ limit, limit ≠ some 0 → ∃ fuel, readPages r.1 sub limit fuel none =
          (publishedOn sub.topic r.2).filter fun message =>
            decide (sub.nextSeq ≤ message.seq)) := by
  intro r
  have hledger : Ledger r.1 r.2 := (ledger_new opts).run steps
  have hretained : Retained r.1 r.2 := (retained_new opts).run (ledger_new opts) hmax horderly
  refine ⟨fun topic t ht => ?_, fun key sub hsub hopen hgap t ht => ?_⟩
  · obtain ⟨hnumbered, hlength⟩ := hretained.numbered hledger ht
    have hcount : t.messages.length = t.nextSeq - t.headSeq := by omega
    rw [← hcount]
    exact hnumbered
  · obtain ⟨hlow, hhigh⟩ := hretained.cursor key sub hsub hopen hgap t ht
    have hread := hretained.filter_le hledger ht hlow
    refine ⟨hhigh, fun message hmessage hseq => ?_, fun limit hlimit => ?_⟩
    · have hmem : message ∈ t.messages.filter fun m => decide (sub.nextSeq ≤ m.seq) := by
        rw [hread]
        exact mem_filter.mpr ⟨hmessage, decide_eq_true hseq⟩
      exact mem_of_mem_filter hmem
    · have hcurrent : r.1.current sub = sub := by
        rw [MessageBusState.current, ← hretained.keyed key sub hsub, hsub]
        rfl
      have hpositive : 0 < positiveLimit limit := by
        cases limit with
        | none => exact Nat.zero_lt_succ 99
        | some n => exact Nat.pos_of_ne_zero fun hzero => hlimit (congrArg some hzero)
      refine ⟨_, (readPages_eq hcurrent hgap ht (hretained.numbered hledger ht).1 hpositive _ none
        (Nat.lt_succ_self _)).trans hread⟩

/-- Messages are kept for five milliseconds, on a topic that exists from the start. -/
def agingBus (now : Nat → Option Nat) : MessageBusOptions :=
  { topics := ["orders"]
    topicPolicy := .strict
    retention := { maxMessages := none, maxAgeMs := some 5 }
    dedupe := .status
    now := now }

/-- Subscribe from the start and publish three messages. -/
def threeOrders : List (BusStep Nat) :=
  [.subscription { topic := "orders", subscriptionId := "s", start := .earliest },
    .command (.publish "orders" 1 none none none),
    .command (.publish "orders" 2 none none none),
    .command (.publish "orders" 3 none none none)]

/-- A clock that stands at ten but goes back to zero for the second message. -/
def backwardClock (call : Nat) : Option Nat :=
  some (if 4 ≤ call ∧ call < 7 then 0 else 10)

/-- The clock goes back, and the message in the middle is dropped without a word;
    and a subscription that was opened before its topic stands beyond the tail. -/
theorem middle_message_dropped :
    (let r := busRun (MessageBusState.new (agingBus backwardClock)) threeOrders
     (r.1.topics.lookup "orders").map
        (fun t => (t.headSeq, t.nextSeq, t.messages.map (·.seq))) = some (1, 4, [1, 3]) ∧
      (r.1.subscriptions.lookup (subscriptionKey "orders" "s")).map
        (fun sub => (sub.nextSeq, sub.closed, sub.retentionGap)) = some (1, false, false) ∧
      (publishedOn "orders" r.2).map (·.seq) = [1, 2, 3]) ∧
    (let r := busRun (MessageBusState.new (agingBus fun _ => some 0))
        [.subscription { topic := "late", subscriptionId := "s", start := .seq 5 },
          .command (.ensureTopic "late" none),
          .command (.publish "late" (1 : Nat) none none none)]
     (r.1.subscriptions.lookup (subscriptionKey "late" "s")).map
        (fun sub => (sub.nextSeq, sub.closed, sub.retentionGap)) = some (5, false, false) ∧
      (r.1.topics.lookup "late").map (·.nextSeq) = some 2) := by
  decide +kernel

/-- With a clock that stands still the same run keeps its promise. -/
theorem no_message_missed_threeOrders :
    let r := busRun (MessageBusState.new (agingBus fun _ => some 0)) threeOrders
    (∀ topic t, r.1.topics.lookup topic = some t →
      t.messages.map (·.seq) = List.range' t.headSeq (t.nextSeq - t.headSeq)) ∧
    (r.1.topics.lookup "orders").map (fun t => t.messages.map (·.seq)) = some [1, 2, 3] := by
  -- A publish to an existing topic at a clock that reads zero keeps everything.
  have horderly (s : MessageBusState Nat) (payload : Nat) (hnow : s.now = fun _ => some 0)
      (hretention : s.retention = { maxMessages := none, maxAgeMs := some 5 })
      (htopic : (s.topics.lookup "orders").isSome = true) :
      Orderly s (.command (.publish "orders" payload none none none)) := by
    refine fun _ => ⟨fun hnone => ?_, fun t _ _ before item after _ _ _ later _ => ?_⟩
    · rw [hnone] at htopic
      exact absurd htopic (by simp)
    · rw [hnow, hretention]
      simp [MessageBusRetentionPolicy.fresh, clockReading]
  have hrun : OrderlyRun (MessageBusState.new (agingBus fun _ => some 0)) threeOrders :=
    ⟨trivial, horderly _ 1 rfl rfl (by decide +kernel), horderly _ 2 rfl rfl (by decide +kernel),
      horderly _ 3 rfl rfl (by decide +kernel), trivial⟩
  exact ⟨(no_message_missed (agingBus fun _ => some 0) (by decide) threeOrders hrun).1,
    by decide +kernel⟩

end GraphRefly.Messaging
