import GraphRefly.Messaging.Retention

/-!
# Serving a Subscription

What the reader of one subscription can rely on when the clock of the bus never
goes back. As long as the subscription is open and has no gap, a page begins at
its cursor and leaves nothing out. When the head of the topic passes the cursor,
the subscription has a gap and its pages are empty.

This needs neither a bound on the cursors nor a condition on other topics. One
thing is in the way: a policy that keeps no message at all is refused, but its
age limit has been applied by then, and the head of the topic stays where it
was. A trim under such a policy may take messages away unnoticed.

## Main definitions

* `Spared`: A step that takes no message away under a refused policy.
* `Serving`: The topic and the subscription fit together.

## Theorems

* `Serving.step`: A spared step keeps them so.
* `Serving.page`: A page reads on from the cursor.
-/

namespace GraphRefly.Messaging

open List GraphRefly.Lib

variable {T : Type}

/-- The step takes no message of the topic away under a policy that is refused. -/
def Spared (topic : String) (s : MessageBusState T) : BusStep T → Prop
  | .command (.publish name payload key commandId idempotencyKey) =>
    name = topic → s.Accepts (.publish name payload key commandId idempotencyKey) →
      s.retention.maxMessages = some 0 →
      (∀ t, s.topics.lookup topic = some t → t.closed = false → ∀ stamp ∈ stamps s t,
        s.retention.fresh (clockReading s.now (s.reads + 2)) stamp = true) ∧
      (s.topics.lookup topic = none → s.topicPolicy = .createAsFact →
        s.retention.fresh (clockReading s.now (s.reads + 3))
          (clockReading s.now (s.reads + 1)) = true)
  | _ => True

/-- A topic holds what it has published from its head on, a subscription that is open
    and has no gap stands at or behind the head, and the messages are stamped in
    order, none of them in the future. -/
structure Serving (topic subscriptionId : String) (s : MessageBusState T)
    (events : List (RuntimeEvent T)) : Prop where
  window : ∀ t, s.topics.lookup topic = some t → 1 ≤ t.headSeq ∧ t.headSeq ≤ t.nextSeq ∧
    t.messages = (publishedOn topic events).drop (t.headSeq - 1)
  named : ∀ sub, s.subscriptions.lookup (subscriptionKey topic subscriptionId) = some sub →
    sub.topic = topic ∧ sub.subscriptionId = subscriptionId
  reach : ∀ sub, s.subscriptions.lookup (subscriptionKey topic subscriptionId) = some sub →
    sub.closed = false → sub.retentionGap = false → ∀ t, s.topics.lookup topic = some t →
      t.headSeq ≤ sub.nextSeq ∨ t.headSeq = 1
  ordered : (publishedOn topic events).Pairwise fun a b => a.timestampMs ≤ b.timestampMs
  past : ∀ message ∈ publishedOn topic events, message.timestampMs ≤ clockReading s.now s.reads

theorem fresh_of_le {retention : MessageBusRetentionPolicy} {now a b : Nat} (hab : a ≤ b)
    (ha : retention.fresh now a = true) : retention.fresh now b = true := by
  rw [MessageBusRetentionPolicy.fresh] at ha ⊢
  cases hage : retention.maxAgeMs with
  | none => rfl
  | some maxAgeMs =>
    rw [hage] at ha
    simp only [decide_eq_true_eq] at ha ⊢
    omega

section Steps

variable {topic subscriptionId : String} {s s' : MessageBusState T}
  {events later : List (RuntimeEvent T)}

/-- Facts without a message on the topic. -/
theorem Serving.quiet (h : Serving topic subscriptionId s events)
    (hclock : Monotone (clockReading s.now)) (hsteady : Steady s s')
    (hsame : publishedOn topic (events ++ later) = publishedOn topic events)
    (hwindow : ∀ t, s'.topics.lookup topic = some t → 1 ≤ t.headSeq ∧ t.headSeq ≤ t.nextSeq ∧
      t.messages = (publishedOn topic events).drop (t.headSeq - 1))
    (hsub : ∀ sub, s'.subscriptions.lookup (subscriptionKey topic subscriptionId) = some sub →
      (sub.topic = topic ∧ sub.subscriptionId = subscriptionId) ∧
      (sub.closed = false → sub.retentionGap = false → ∀ t, s'.topics.lookup topic = some t →
        t.headSeq ≤ sub.nextSeq ∨ t.headSeq = 1)) :
    Serving topic subscriptionId s' (events ++ later) := by
  refine ⟨?_, fun sub hlook => (hsub sub hlook).1, fun sub hlook => (hsub sub hlook).2, ?_, ?_⟩
  · rw [hsame]
    exact hwindow
  · rw [hsame]
    exact h.ordered
  · rw [hsame, hsteady.now]
    intro message hmem
    exact (h.past message hmem).trans (hclock hsteady.reads)

/-- Neither the topic nor the subscription changes. -/
theorem Serving.same (h : Serving topic subscriptionId s events)
    (hclock : Monotone (clockReading s.now)) (hsteady : Steady s s')
    (hsame : publishedOn topic (events ++ later) = publishedOn topic events)
    (htopic : s'.topics.lookup topic = s.topics.lookup topic)
    (hsub : s'.subscriptions.lookup (subscriptionKey topic subscriptionId) =
      s.subscriptions.lookup (subscriptionKey topic subscriptionId)) :
    Serving topic subscriptionId s' (events ++ later) := by
  refine h.quiet hclock hsteady hsame ?_ fun sub hlook => ⟨?_, ?_⟩
  · rw [htopic]
    exact h.window
  · exact h.named sub (hsub ▸ hlook)
  · rw [htopic]
    exact h.reach sub (hsub ▸ hlook)

theorem Serving.of_quiet (h : Serving topic subscriptionId s events)
    (hclock : Monotone (clockReading s.now)) (hquiet : Quiet s s')
    (hmessages : messagesOf later = []) : Serving topic subscriptionId s' (events ++ later) := by
  refine h.same hclock hquiet.toSteady (publishedOn_silent hmessages) ?_ ?_
  · rw [hquiet.topics]
  · rw [hquiet.subscriptions]

variable {t : TopicState T}

variable {name : String}

/-- A topic is written that has the window it had, or is new and empty. -/
theorem Serving.setTopic (h : Serving topic subscriptionId s events)
    (hclock : Monotone (clockReading s.now)) (hmessages : messagesOf later = [])
    (hset : TopicSet s s' name t)
    (hwindow : name = topic → 1 ≤ t.headSeq ∧ t.headSeq ≤ t.nextSeq ∧
      t.messages = (publishedOn topic events).drop (t.headSeq - 1))
    (hhead : name = topic → t.headSeq = 1 ∨
      ∃ t₀, s.topics.lookup topic = some t₀ ∧ t.headSeq = t₀.headSeq) :
    Serving topic subscriptionId s' (events ++ later) := by
  have hsubs := congrArg (·.lookup (subscriptionKey topic subscriptionId)) hset.subscriptions
  by_cases hname : name = topic
  · have hlook : s'.topics.lookup topic = some t := by
      rw [hset.topics, hname, SortedMap.lookup_insert_self]
    refine h.quiet hclock hset.toSteady (publishedOn_silent hmessages) ?_ fun sub hfound => ?_
    · intro t' ht'
      obtain rfl := Option.some.inj (hlook.symm.trans ht')
      exact hwindow hname
    · refine ⟨h.named sub (hsubs ▸ hfound), fun hopen hgap t' ht' => ?_⟩
      obtain rfl := Option.some.inj (hlook.symm.trans ht')
      rcases hhead hname with hone | ⟨t₀, ht₀, heq⟩
      · exact Or.inr hone
      · rw [heq]
        exact h.reach sub (hsubs ▸ hfound) hopen hgap t₀ ht₀
  · refine h.same hclock hset.toSteady (publishedOn_silent hmessages) ?_ hsubs
    rw [hset.topics, SortedMap.lookup_insert_of_ne _ _ (Ne.symm hname)]

variable {sub : SubscriptionState}

/-- A subscription is written. If it is this one, it stands in the window or has a gap. -/
theorem Serving.setSubscription (h : Serving topic subscriptionId s events)
    (hclock : Monotone (clockReading s.now)) (hmessages : messagesOf later = []) {key : String}
    (hset : SubscriptionSet s s' key sub)
    (hown : key = subscriptionKey topic subscriptionId →
      (sub.topic = topic ∧ sub.subscriptionId = subscriptionId) ∧
      (sub.closed = false → sub.retentionGap = false → ∀ t, s.topics.lookup topic = some t →
        t.headSeq ≤ sub.nextSeq ∨ t.headSeq = 1)) :
    Serving topic subscriptionId s' (events ++ later) := by
  have htopic := congrArg (·.lookup topic) hset.topics
  by_cases hkey : key = subscriptionKey topic subscriptionId
  · refine h.quiet hclock hset.toSteady (publishedOn_silent hmessages) ?_ fun sub' hfound => ?_
    · rw [htopic]
      exact h.window
    · rw [hset.subscriptions, hkey, SortedMap.lookup_insert_self, Option.some.injEq] at hfound
      rw [← hfound, htopic]
      exact hown hkey
  · refine h.same hclock hset.toSteady (publishedOn_silent hmessages) htopic ?_
    rw [hset.subscriptions, SortedMap.lookup_insert_of_ne _ _ (Ne.symm hkey)]

/-- A trim that takes nothing away leaves the topic as it was. -/
theorem trimmedTopic_of_fresh {retention : MessageBusRetentionPolicy} {now : Nat}
    (hzero : retention.maxMessages = some 0)
    (hfresh : ∀ m ∈ t.messages, retention.fresh now m.timestampMs = true) :
    trimmedTopic retention now t = t := by
  have hall : (t.messages.filter fun m => retention.fresh now m.timestampMs) = t.messages :=
    filter_eq_self.mpr hfresh
  rw [trimmedTopic, if_pos hzero, hall]

variable {message : MessageEnvelope T} {stamp trimAt : Nat}

theorem Serving.publish (h : Serving topic subscriptionId s events)
    (hledger' : Ledger s' (events ++ later)) (hclock : Monotone (clockReading s.now))
    (hset : Published s s' topic t message stamp trimAt) (hmessages : messagesOf later = [message])
    (hwindow : 1 ≤ t.headSeq ∧ t.headSeq ≤ t.nextSeq ∧
      t.messages = (publishedOn topic events).drop (t.headSeq - 1))
    (htail : t.nextSeq = 1 + (publishedOn topic events).length)
    (hhead : t.headSeq = 1 ∨ s.topics.lookup topic = some t)
    (hfresh : s.retention.maxMessages = some 0 → ∀ m ∈ (t.append message).messages,
      s.retention.fresh (clockReading s.now trimAt) m.timestampMs = true) :
    Serving topic subscriptionId s' (events ++ later) := by
  obtain ⟨hone, hle, hmsgs⟩ := hwindow
  have hthis : publishedOn topic (events ++ later) = publishedOn topic events ++ [message] :=
    publishedOn_self hmessages hset.name
  have hstamp (m : MessageEnvelope T) (hm : m ∈ publishedOn topic events) :
      m.timestampMs ≤ message.timestampMs := by
    rw [hset.stamped]
    exact (h.past m hm).trans (hclock hset.started)
  have hordered : (publishedOn topic (events ++ later)).Pairwise
      fun a b => a.timestampMs ≤ b.timestampMs := by
    rw [hthis, pairwise_append]
    refine ⟨h.ordered, pairwise_singleton _ _, fun a ha b hb => ?_⟩
    rw [mem_singleton.mp hb]
    exact hstamp a ha
  have hsuffix : (t.append message).messages <:+ publishedOn topic (events ++ later) := by
    rw [hthis, TopicState.append, hmsgs]
    exact ⟨(publishedOn topic events).take (t.headSeq - 1), by
      rw [← append_assoc, take_append_drop]⟩
  have hnext : (t.append message).nextSeq = 1 + (publishedOn topic (events ++ later)).length := by
    rw [hthis, TopicState.append, length_append, length_singleton]
    simp only [htail]
    omega
  -- The trim leaves a window: it takes nothing away, or only what stands at the front.
  have htrimmed : let t' := trimmedTopic s.retention (clockReading s.now trimAt) (t.append message)
      1 ≤ t'.headSeq ∧ t'.headSeq ≤ t'.nextSeq ∧
        t'.messages = (publishedOn topic (events ++ later)).drop (t'.headSeq - 1) := by
    by_cases hzero : s.retention.maxMessages = some 0
    · rw [trimmedTopic_of_fresh hzero (hfresh hzero)]
      refine ⟨hone, hle.trans (Nat.le_succ _), ?_⟩
      have hshort : t.headSeq - 1 ≤ (publishedOn topic events).length := by omega
      rw [hthis, TopicState.append, drop_append_of_le_length hshort, ← hmsgs]
    · refine trimmedTopic_window hzero (hledger'.numbered topic) hnext hsuffix ?_
      refine KeepsTail.of_pairwise ((hordered.sublist hsuffix.sublist).imp ?_)
      intro a b hab ha
      exact fresh_of_le hab ha
  generalize htrim : trimmedTopic s.retention (clockReading s.now trimAt) (t.append message) =
    t' at htrimmed
  have hlook : s'.topics.lookup topic = some t' := by
    rw [hset.topics, if_pos rfl, htrim]
  have hflagged (sub : SubscriptionState)
      (hsub : s'.subscriptions.lookup (subscriptionKey topic subscriptionId) = some sub) :
      ∃ sub₀, s.subscriptions.lookup (subscriptionKey topic subscriptionId) = some sub₀ ∧
        flagged topic t.headSeq t'.headSeq sub₀ = sub := by
    rw [hset.subscriptions, htrim, Option.map_eq_some_iff] at hsub
    exact hsub
  refine ⟨?_, fun sub hsub => ?_, fun sub hsub hopen hgap u hu => ?_, hordered, fun m hm => ?_⟩
  · intro u hu
    obtain rfl := Option.some.inj (hlook.symm.trans hu)
    exact htrimmed
  · obtain ⟨sub₀, hsub₀, hflag⟩ := hflagged sub hsub
    have hnamed := h.named sub₀ hsub₀
    rw [← hflag, flagged]
    split_ifs <;> exact hnamed
  · obtain ⟨sub₀, hsub₀, hflag⟩ := hflagged sub hsub
    obtain rfl := Option.some.inj (hlook.symm.trans hu)
    rw [flagged] at hflag
    split_ifs at hflag with hbehind
    · rw [← hflag] at hgap
      exact absurd hgap (by simp)
    · subst hflag
      -- Either the head has stayed, or the cursor was not left behind.
      by_cases hmoved : t.headSeq = t'.headSeq
      · rw [← hmoved]
        rcases hhead with hhead | hfound
        · exact Or.inr hhead
        · exact h.reach sub₀ hsub₀ hopen hgap t hfound
      · refine Or.inl (not_lt.mp fun hlt => hbehind ⟨hmoved, ?_⟩)
        simp [SubscriptionState.leftBehind, hopen, hgap, (h.named sub₀ hsub₀).1, hlt]
  · rw [hthis, mem_append, mem_singleton] at hm
    rw [hset.now]
    rcases hm with hm | rfl
    · exact (h.past m hm).trans (hclock hset.reads)
    · rw [hset.stamped]
      exact hclock (hset.ordered.trans hset.ended.le)

/-- A message published on another topic. -/
theorem Serving.publish_other (h : Serving topic subscriptionId s events)
    (hclock : Monotone (clockReading s.now)) (hname : name ≠ topic)
    (hset : Published s s' name t message stamp trimAt) (hmessages : messagesOf later = [message]) :
    Serving topic subscriptionId s' (events ++ later) := by
  have htopic : s'.topics.lookup topic = s.topics.lookup topic := by
    rw [hset.topics, if_neg (Ne.symm hname)]
  refine h.quiet hclock hset.toSteady
    (publishedOn_other hmessages (hset.name.symm ▸ Ne.symm hname)) ?_ fun sub hsub => ?_
  · rw [htopic]
    exact h.window
  · rw [hset.subscriptions, Option.map_eq_some_iff] at hsub
    obtain ⟨sub₀, hsub₀, hflag⟩ := hsub
    have hnamed := h.named sub₀ hsub₀
    -- A subscription of this topic is not flagged by the trim of another.
    rw [flagged, if_neg] at hflag
    · rw [← hflag, htopic]
      exact ⟨hnamed, h.reach sub₀ hsub₀⟩
    · simp [SubscriptionState.leftBehind, hnamed.1, Ne.symm hname]

theorem Serving.effect {command : MessageBusCommand T} (h : Serving topic subscriptionId s events)
    (hledger : Ledger s events) (hledger' : Ledger s' (events ++ later))
    (hclock : Monotone (clockReading s.now))
    (hspared : ∀ name payload key id idem, command = .publish name payload key id idem →
      name = topic → s.retention.maxMessages = some 0 →
      (∀ t, s.topics.lookup topic = some t → t.closed = false → ∀ stamp ∈ stamps s t,
        s.retention.fresh (clockReading s.now (s.reads + 2)) stamp = true) ∧
      (s.topics.lookup topic = none → s.topicPolicy = .createAsFact →
        s.retention.fresh (clockReading s.now (s.reads + 3))
          (clockReading s.now (s.reads + 1)) = true))
    (heffect : Effect s s' command later) : Serving topic subscriptionId s' (events ++ later) := by
  have hown {name id : String} {sub : SubscriptionState}
      (hsub : s.subscriptions.lookup (subscriptionKey name id) = some sub)
      (hkey : subscriptionKey name id = subscriptionKey topic subscriptionId) :
      name = topic ∧ s.subscriptions.lookup (subscriptionKey topic subscriptionId) = some sub := by
    have hparts := Json.canonicalTupleKey_injective hkey
    rw [List.cons.injEq] at hparts
    exact ⟨hparts.1, hkey ▸ hsub⟩
  cases heffect with
  | quiet hquiet hmessages =>
    exact h.of_quiet hclock hquiet hmessages
  | @created name _ _ hnew hset hplain =>
    refine h.setTopic hclock hplain.messages hset (fun hname => ⟨le_rfl, le_rfl, ?_⟩)
      fun _ => Or.inl rfl
    rw [hledger.absent topic (hname ▸ hnew)]
    rfl
  | @closed name _ _ t ht hset hplain =>
    refine h.setTopic hclock hplain.messages hset (fun hname => h.window t (hname ▸ ht))
      fun hname => Or.inr ⟨t, hname ▸ ht, rfl⟩
  | @acked name id seq _ _ t sub ht hsub hopen hgap hlow hhigh hset hplain =>
    refine h.setSubscription hclock hplain.messages hset fun hkey => ?_
    obtain ⟨hname, hfound⟩ := hown hsub hkey
    refine ⟨h.named sub hfound, fun _ _ t' ht' => ?_⟩
    refine (h.reach sub hfound hopen hgap t' ht').imp (fun hle => ?_) fun hone => hone
    exact hle.trans (hlow.trans (Nat.le_succ seq))
  | @sought name id nextSeq _ _ t sub ht hsub hopen hlow hhigh hset hplain =>
    refine h.setSubscription hclock hplain.messages hset fun hkey => ?_
    obtain ⟨hname, hfound⟩ := hown hsub hkey
    refine ⟨h.named sub hfound, fun _ _ t' ht' => Or.inl ?_⟩
    obtain rfl := Option.some.inj (ht.symm.trans (hname ▸ ht'))
    exact hlow
  | @left name id _ _ sub hsub hset hplain =>
    refine h.setSubscription hclock hplain.messages hset fun hkey => ?_
    obtain ⟨_, hfound⟩ := hown hsub hkey
    exact ⟨h.named sub hfound, fun hopen => absurd hopen (by simp)⟩
  | @published name payload key id idem _ t message stamp trimAt ht hset _ _ _ _ hmessages _ =>
    by_cases hname : name = topic
    · subst hname
      rcases ht with ⟨ht, rfl, rfl⟩ | ⟨hnone, rfl, hpolicy, rfl, rfl⟩
      · refine h.publish hledger' hclock hset hmessages (h.window t ht)
          (hledger.tail name t ht) (Or.inr ht) fun hzero m hm => ?_
        refine (hspared name payload key id idem rfl rfl hzero).1 t ht hset.opened _ ?_
        rw [stamps, ← hset.stamped, ← map_singleton, ← map_append]
        exact mem_map_of_mem hm
      · have hempty := hledger.absent name hnone
        refine h.publish hledger' hclock hset hmessages ⟨le_rfl, le_rfl, ?_⟩ ?_ (Or.inl rfl)
          fun hzero m hm => ?_
        · rw [hempty]
          rfl
        · rw [hempty]
          rfl
        · have heq : m = message := mem_singleton.mp hm
          rw [heq, hset.stamped]
          exact (hspared name payload key id idem rfl rfl hzero).2 hnone hpolicy
    · exact h.publish_other hclock hname hset hmessages

/-- A spared step keeps a subscription served. -/
theorem Serving.step (h : Serving topic subscriptionId s events) (hledger : Ledger s events)
    (hclock : Monotone (clockReading s.now)) {step : BusStep T} (hspared : Spared topic s step) :
    Serving topic subscriptionId (busStep s step).1 (events ++ (busStep s step).2) := by
  have hledger' := hledger.step step
  cases step with
  | subscription opts =>
    obtain ⟨hmessages, hquiet | ⟨sub, hopened, hset⟩⟩ := subscription_cases s opts
    · exact h.of_quiet hclock hquiet hmessages
    · refine h.setSubscription hclock hmessages hset fun hkey => ?_
      have hparts := Json.canonicalTupleKey_injective hkey
      simp only [List.cons.injEq, and_true] at hparts
      refine ⟨⟨hopened.topic.trans hparts.1, hopened.subscriptionId.trans hparts.2⟩, ?_⟩
      intro _ _ t ht
      exact Or.inl (hopened.range t (hparts.1 ▸ ht) (h.window t ht).2.1).1
  | command command =>
    obtain ⟨hnow, hretention, hreads, htopics, hsubs, _, hpolicy⟩ := note_same s command
    have hnoted : Serving topic subscriptionId (s.note command) events := by
      have hwindow := h.window
      have hpast := h.past
      rw [← hnow, ← hreads] at hpast
      refine ⟨htopics ▸ h.window, hsubs ▸ h.named, ?_, h.ordered, hpast⟩
      rw [htopics, hsubs]
      exact h.reach
    rcases reduce_cases s command with ⟨haccepts, heq⟩ |
      ⟨_, hmessages, ⟨_, hquiet⟩ | ⟨_, hquiet⟩⟩
    · rw [busStep, heq] at hledger' ⊢
      refine hnoted.effect (hledger.note command) hledger' (hnow ▸ hclock) ?_
        (dispatch_effect _ command)
      intro name payload key id idem hcommand hname hzero
      subst hcommand
      have hboth := hspared hname haccepts (hretention ▸ hzero)
      simp only [stamps, htopics, hpolicy, hretention, hnow, hreads]
      exact hboth
    · exact h.of_quiet hclock hquiet hmessages
    · exact hnoted.of_quiet (hnow ▸ hclock) hquiet hmessages

/-- A page reads on from the cursor and leaves nothing out. -/
theorem Serving.page (h : Serving topic subscriptionId s events) (hledger : Ledger s events)
    {handle : SubscriptionState}
    (hhandle : handle.topic = topic ∧ handle.subscriptionId = subscriptionId)
    (hsub : s.subscriptions.lookup (subscriptionKey topic subscriptionId) = some sub)
    (hopen : sub.closed = false) (limit : Option Nat) :
    (availablePage s handle { limit := limit, afterSeq := none }).messages <+:
      (publishedOn topic events).filter fun message => decide (sub.nextSeq ≤ message.seq) := by
  have hcurrent : s.current handle = sub := by
    rw [MessageBusState.current, hhandle.1, hhandle.2, hsub]
    rfl
  have htopic := (h.named sub hsub).1
  simp only [availablePage, hcurrent, Option.map_none, Option.getD_none, htopic]
  by_cases hgap : sub.retentionGap = true
  · rw [if_pos hgap, take_nil]
    exact nil_prefix
  · rw [if_neg hgap]
    cases ht : s.topics.lookup topic with
    | none =>
      rw [Option.map_none, Option.getD_none, take_nil]
      exact nil_prefix
    | some t =>
      obtain ⟨hone, _, hwindow⟩ := h.window t ht
      have hreach := h.reach sub hsub hopen (by simpa using hgap) t ht
      rw [Option.map_some, Option.getD_some,
        filter_window (hledger.numbered topic) hone hwindow hreach]
      exact take_prefix _ _

/-- A page holds messages of the topic. -/
theorem Serving.page_subset (h : Serving topic subscriptionId s events)
    {handle : SubscriptionState}
    (hhandle : handle.topic = topic ∧ handle.subscriptionId = subscriptionId)
    (params : MessageBusAvailableParams) :
    ∀ message ∈ (availablePage s handle params).messages, message ∈ publishedOn topic events := by
  have htopic : (s.current handle).topic = topic := by
    rw [MessageBusState.current, hhandle.1, hhandle.2]
    cases hsub : s.subscriptions.lookup (subscriptionKey topic subscriptionId) with
    | none => exact hhandle.1
    | some sub => exact (h.named sub hsub).1
  intro message hmem
  simp only [availablePage, htopic] at hmem
  have hall := mem_of_mem_take hmem
  split_ifs at hall with hgap
  · exact absurd hall not_mem_nil
  · cases ht : s.topics.lookup topic with
    | none =>
      rw [ht] at hall
      exact absurd hall not_mem_nil
    | some t =>
      rw [ht, Option.map_some, Option.getD_some, (h.window t ht).2.2] at hall
      exact mem_of_mem_drop (mem_of_mem_filter hall)

end Steps

/-! ### What becomes of a subscription -/

/-- A subscription that was there: it is still there, and once closed it is closed. -/
def Follows (s s' : MessageBusState T) (key : String) : Prop :=
  ∀ sub, s.subscriptions.lookup key = some sub →
    ∃ sub', s'.subscriptions.lookup key = some sub' ∧ (sub'.closed = false → sub.closed = false)

variable {s s' : MessageBusState T}

theorem Follows.of_eq {key : String}
    (h : s'.subscriptions.lookup key = s.subscriptions.lookup key) : Follows s s' key :=
  fun sub hsub => ⟨sub, h.trans hsub, id⟩

theorem Follows.of_quiet (h : Quiet s s') (key : String) :
    Follows s s' key :=
  Follows.of_eq (by rw [h.subscriptions])

/-- Writing one subscription: it is new, or as closed as it was. -/
theorem Follows.of_set {name : String} {written : SubscriptionState}
    (hset : SubscriptionSet s s' name written)
    (hwritten : ∀ sub, s.subscriptions.lookup name = some sub →
      written.closed = false → sub.closed = false) (key : String) : Follows s s' key := by
  intro sub hsub
  by_cases hkey : key = name
  · subst hkey
    refine ⟨written, ?_, hwritten sub hsub⟩
    rw [hset.subscriptions, SortedMap.lookup_insert_self]
  · refine ⟨sub, ?_, id⟩
    rw [hset.subscriptions, SortedMap.lookup_insert_of_ne _ _ hkey, hsub]

variable {events : List (RuntimeEvent T)}

theorem Effect.follows {command : MessageBusCommand T} (h : Effect s s' command events)
    (key : String) :
    Follows s s' key := by
  have hsame {sub sub' : SubscriptionState} {name : String}
      (hsub : s.subscriptions.lookup name = some sub)
      (hsub' : s.subscriptions.lookup name = some sub') : sub = sub' :=
    Option.some.inj (hsub.symm.trans hsub')
  cases h with
  | quiet hquiet => exact Follows.of_quiet hquiet key
  | created _ hset => exact Follows.of_eq (by rw [hset.subscriptions])
  | closed _ hset => exact Follows.of_eq (by rw [hset.subscriptions])
  | acked _ hsub hopen _ _ _ hset =>
    exact Follows.of_set hset (fun sub' hsub' _ => hsame hsub hsub' ▸ hopen) key
  | sought _ hsub hopen _ _ hset =>
    exact Follows.of_set hset (fun sub' hsub' _ => hsame hsub hsub' ▸ hopen) key
  | left _ hset => exact Follows.of_set hset (fun _ _ hopen => absurd hopen (by simp)) key
  | published _ hset =>
    intro sub hsub
    have hafter := hset.subscriptions key
    rw [hsub, Option.map_some] at hafter
    refine ⟨_, hafter, fun hopen => ?_⟩
    rw [flagged] at hopen
    split_ifs at hopen <;> exact hopen

theorem busStep_follows (s : MessageBusState T) (step : BusStep T) (key : String) :
    Follows s (busStep s step).1 key := by
  cases step with
  | subscription opts =>
    obtain ⟨_, hquiet | ⟨sub, hopened, hset⟩⟩ := subscription_cases s opts
    · exact Follows.of_quiet hquiet key
    · refine Follows.of_set hset (fun sub' hsub' => ?_) key
      rw [hopened.fresh] at hsub'
      exact absurd hsub' (Option.some_ne_none _).symm
  | command command =>
    obtain ⟨_, _, _, _, hsubs, _, _⟩ := note_same s command
    rcases reduce_cases s command with ⟨_, heq⟩ | ⟨_, _, ⟨_, hquiet⟩ | ⟨_, hquiet⟩⟩
    · rw [busStep, heq]
      have hfollows := (dispatch_effect (s.note command) command).follows key
      rw [Follows, hsubs] at hfollows
      exact hfollows
    · exact Follows.of_quiet hquiet key
    · have hfollows := Follows.of_quiet hquiet key
      rw [Follows, hsubs] at hfollows
      exact hfollows

/-- An ack moves the cursor of an open subscription behind the acked number, or leaves
    all cursors where they are. -/
theorem ack_subscriptions (s : MessageBusState T) (topic subscriptionId : String) (seq : Nat)
    (id : Option String) :
    let s' := (busStep s (.command (.ack topic subscriptionId seq id))).1
    s'.subscriptions = s.subscriptions ∨
      ∃ sub, s.subscriptions.lookup (subscriptionKey topic subscriptionId) = some sub ∧
        sub.closed = false ∧ s'.subscriptions = s.subscriptions.insert
          (subscriptionKey topic subscriptionId) { sub with nextSeq := seq + 1 } := by
  intro s'
  obtain ⟨_, _, _, _, hsubs, _, _⟩ := note_same s (.ack topic subscriptionId seq id)
  rcases reduce_cases s (.ack topic subscriptionId seq id) with
    ⟨_, heq⟩ | ⟨_, _, ⟨_, hquiet⟩ | ⟨_, hquiet⟩⟩
  · have heffect := dispatch_effect (s.note (.ack topic subscriptionId seq id))
      (.ack topic subscriptionId seq id)
    have hs' : s' = (dispatchCommand (s.note (.ack topic subscriptionId seq id))
        (.ack topic subscriptionId seq id)).1 := congrArg Prod.fst heq
    rw [hs']
    cases heffect with
    | quiet hquiet => exact Or.inl (hquiet.subscriptions.trans hsubs)
    | acked _ hsub hopen _ _ _ hset =>
      rw [hsubs] at hsub
      exact Or.inr ⟨_, hsub, hopen, by rw [hset.subscriptions, hsubs]⟩
  · exact Or.inl hquiet.subscriptions
  · exact Or.inl (hquiet.subscriptions.trans hsubs)

/-! ### Runs -/

/-- Every step of a run is spared. -/
def SparedRun (topic : String) (s : MessageBusState T) : List (BusStep T) → Prop
  | [] => True
  | step :: steps => Spared topic s step ∧ SparedRun topic (busStep s step).1 steps

theorem busRun_now (s : MessageBusState T) (steps : List (BusStep T)) :
    (busRun s steps).1.now = s.now := by
  induction steps generalizing s with
  | nil => rfl
  | cons step steps ih => rw [busRun, ih, (busStep_same s step).1]

theorem Serving.run {topic subscriptionId : String} (h : Serving topic subscriptionId s events)
    (hledger : Ledger s events) (hclock : Monotone (clockReading s.now)) {steps : List (BusStep T)}
    (hspared : SparedRun topic s steps) :
    Serving topic subscriptionId (busRun s steps).1 (events ++ (busRun s steps).2) := by
  induction steps generalizing s events with
  | nil =>
    rw [busRun, append_nil]
    exact h
  | cons step steps ih =>
    rw [busRun, ← append_assoc]
    refine ih (h.step hledger hclock hspared.1) (hledger.step step) ?_ hspared.2
    rw [(busStep_same s step).1]
    exact hclock

theorem serving_new (opts : MessageBusOptions) (topic subscriptionId : String) :
    Serving topic subscriptionId (MessageBusState.new opts : MessageBusState T) [] where
  window t ht := by
    rw [new_topics ht]
    exact ⟨le_rfl, le_rfl, rfl⟩
  named sub hsub := absurd hsub (by simp [MessageBusState.new])
  reach sub hsub := absurd hsub (by simp [MessageBusState.new])
  ordered := List.Pairwise.nil
  past message hmem := absurd hmem not_mem_nil

end GraphRefly.Messaging
