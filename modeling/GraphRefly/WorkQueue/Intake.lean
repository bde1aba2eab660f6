import GraphRefly.WorkQueue.Admission

/-!
# Intake

A queue, the bus its submits are published on, and what is on the way between
them. The queue reads pages of at most a hundred messages from its subscription.
Pages may arrive late and more than once, and the acks for what has been recorded
are applied to the bus by a command sink, in order and some time later. Meanwhile
everything else goes on: publishers, other subscriptions, trims and workers.

No submit is skipped since a page begins at a cursor below which everything is
recorded and leaves nothing out, and since the cursor moves by the acks alone. A
trim under a refused policy takes messages away that no page will show; the steps
of a run are to be spared that.

## Main definitions

* `AdmissionOptions`: A queue and where it gets its submits from.
* `AdmissionWorld`, `admissionStep`, `admissionRun`: Everything that can happen.
* `Undisturbed`: Only the queue's own acks move its cursor, and no trim cheats.
* `Safe`: The invariant of bus, queue and what is between them.

## Theorems

* `Safe.step`, `Safe.run`: A run keeps the invariant.
* `no_submit_skipped`: Nothing is skipped and nothing is repeated.
* `dropped_submit_is_skipped`: A run under a refused policy.
-/

namespace GraphRefly.WorkQueue

open List GraphRefly.Lib GraphRefly.Messaging

variable {T : Type}

/-! ### Everything that can happen -/

/-- A queue and where it gets its submits from. The names are not empty. -/
structure AdmissionOptions where
  runtime : RuntimeOptions
  topic : String
  start : MessageBusSubscriptionFrom
  topic_ne : topic ≠ ""
  subscription_ne : runtime.subscriptionId ≠ ""

def AdmissionOptions.subscription (opts : AdmissionOptions) : MessageBusSubscriptionOptions :=
  { topic := opts.topic, subscriptionId := opts.runtime.subscriptionId, start := opts.start }

/-- A bus, a queue and what is between them: the pages that have been read, each of
    which may arrive at any time and again, and the acks in their order. The facts of
    the bus are kept to tell what has been published. -/
structure AdmissionWorld (T : Type) where
  bus : MessageBusState (WorkQueueSubmit T)
  events : List (RuntimeEvent (WorkQueueSubmit T))
  handle : SubscriptionState
  queue : RuntimeState T
  pages : List (MessageBusAvailablePage (WorkQueueSubmit T))
  acks : List (MessageBusCommand (WorkQueueSubmit T))

/-- A queue is set up on a bus: it opens its subscription and has nothing yet. -/
def startAdmission (opts : AdmissionOptions) (bus : MessageBusState (WorkQueueSubmit T))
    (events : List (RuntimeEvent (WorkQueueSubmit T))) : AdmissionWorld T :=
  { bus := (bus.subscription opts.subscription).1
    events := events ++ (bus.subscription opts.subscription).2
    handle := (ensureSubscription bus opts.subscription).2.1
    queue := RuntimeState.default
    pages := []
    acks := [] }

inductive AdmissionStep (T : Type) where
  /-- Something else happens to the bus. -/
  | bus (step : BusStep (WorkQueueSubmit T))
  /-- A page is read. -/
  | read
  /-- A page arrives, by its place among those read. -/
  | deliver (page : Nat) (now : Nat → Nat)
  /-- The next ack is applied to the bus. -/
  | ack
  /-- A worker's command. -/
  | command (command : WorkQueueCommand T) (nowMs : Nat)

section

variable (opts : AdmissionOptions)

def admissionStep (w : AdmissionWorld T) :
    AdmissionStep T → AdmissionWorld T
  | .bus step =>
    let r := busStep w.bus step
    { w with bus := r.1, events := w.events ++ r.2 }
  | .read =>
    { w with
      pages := w.pages ++ [availablePage w.bus w.handle { limit := some 100, afterSeq := none }] }
  | .deliver page now =>
    match w.pages[page]? with
    | none => w
    | some page =>
      let r := admitPage opts.runtime now w.queue page.messages
      { w with queue := r.1, acks := w.acks ++ admissionAcks r.2 }
  | .ack =>
    match w.acks with
    | [] => w
    | ack :: acks =>
      let r := busStep w.bus (.command ack)
      { w with bus := r.1, events := w.events ++ r.2, acks := acks }
  | .command command nowMs =>
    let r := reduceQueueCommand opts.runtime w.queue command nowMs
    { w with queue := r.1, acks := w.acks ++ admissionAcks r.2 }

def admissionRun (w : AdmissionWorld T) (steps : List (AdmissionStep T)) :
    AdmissionWorld T :=
  steps.foldl (admissionStep opts) w

/-- The key of the queue's subscription. -/
def AdmissionOptions.key : String :=
  subscriptionKey opts.topic opts.runtime.subscriptionId

/-- Where the queue's subscription stands. -/
def AdmissionOptions.cursor (bus : MessageBusState (WorkQueueSubmit T)) :
    Option Nat :=
  (bus.subscriptions.lookup opts.key).map (·.nextSeq)

/-- What else happens to the bus leaves the queue's cursor where it is, and takes no
    message away under a refused policy. -/
def Undisturbed (w : AdmissionWorld T) : AdmissionStep T → Prop
  | .bus step =>
    opts.cursor (busStep w.bus step).1 = opts.cursor w.bus ∧ Spared opts.topic w.bus step
  | _ => True

end

def UndisturbedRun (opts : AdmissionOptions) (w : AdmissionWorld T) :
    List (AdmissionStep T) → Prop
  | [] => True
  | step :: steps => Undisturbed opts w step ∧ UndisturbedRun opts (admissionStep opts w step) steps

/-! ### The invariant -/

/-- What has been published on the queue's topic. -/
def AdmissionOptions.submits (opts : AdmissionOptions) (w : AdmissionWorld T) :
    List (MessageEnvelope (WorkQueueSubmit T)) :=
  publishedOn opts.topic w.events

/-- The bus is in order, and so is the log of the queue. What the cursor, an ack or a
    page stands for is recorded up to there. A closed subscription moves no more, so
    nothing is asked of the acks that are still on their way to it. -/
structure Safe (opts : AdmissionOptions) (start : Nat) (w : AdmissionWorld T) : Prop where
  ledger : Ledger w.bus w.events
  serving : Serving opts.topic opts.runtime.subscriptionId w.bus w.events
  clock : Monotone (clockReading w.bus.now)
  handle : w.handle.topic = opts.topic ∧
    w.handle.subscriptionId = opts.runtime.subscriptionId
  opened : (w.bus.subscriptions.lookup opts.key).isSome
  keyed : Keyed w.queue.journal
  deduped : Deduped opts.runtime w.queue
  accounted : Accounted w.queue.journal
  cursor : ∀ sub, w.bus.subscriptions.lookup opts.key = some sub →
    Covers (opts.submits w) opts.topic w.queue start sub.nextSeq
  acks : ∀ ack ∈ w.acks, ∃ seq id, ack = .ack opts.topic opts.runtime.subscriptionId seq id ∧
    ∀ sub, w.bus.subscriptions.lookup opts.key = some sub → sub.closed = false →
      Covers (opts.submits w) opts.topic w.queue start (seq + 1)
  pages : ∀ page ∈ w.pages, (∀ message ∈ page.messages, message ∈ opts.submits w) ∧
    ∀ sub, w.bus.subscriptions.lookup opts.key = some sub → sub.closed = false →
      ∃ stop, Covers (opts.submits w) opts.topic w.queue start stop ∧
        page.messages <+: (opts.submits w).filter fun message => decide (stop ≤ message.seq)

section Steps

variable {opts : AdmissionOptions} {start : Nat} {w : AdmissionWorld T}

variable {acks : List (MessageBusCommand (WorkQueueSubmit T))}

/-- Something happens to the bus: what was covered stays so, and the subscription is the
    same or has been closed. -/
theorem Safe.bus (h : Safe opts start w) {step : BusStep (WorkQueueSubmit T)}
    (hspared : Spared opts.topic w.bus step) (hacks : ∀ ack ∈ acks, ack ∈ w.acks)
    (hcursor : ∀ sub, (busStep w.bus step).1.subscriptions.lookup opts.key = some sub →
      Covers (opts.submits w) opts.topic w.queue start sub.nextSeq) :
    Safe opts start
      { w with
        bus := (busStep w.bus step).1
        events := w.events ++ (busStep w.bus step).2
        acks := acks } := by
  have hledger := h.ledger.step step
  have hsubmits : opts.submits { w with
      bus := (busStep w.bus step).1
      events := w.events ++ (busStep w.bus step).2
      acks := acks } = opts.submits w ++ publishedOn opts.topic (busStep w.bus step).2 :=
    publishedOn_append opts.topic _ _
  have hnumbered := hledger.numbered opts.topic
  rw [publishedOn_append] at hnumbered
  have hcovers {stop : Nat} (hbefore : Covers (opts.submits w) opts.topic w.queue start stop) :=
    hbefore.append hnumbered
  obtain ⟨sub, hsub⟩ := Option.isSome_iff_exists.mp h.opened
  obtain ⟨sub', hsub', hclosed⟩ := busStep_follows w.bus step opts.key sub hsub
  have hopen {other : SubscriptionState}
      (hother : (busStep w.bus step).1.subscriptions.lookup opts.key = some other)
      (hopen' : other.closed = false) : sub.closed = false := by
    obtain rfl := Option.some.inj (hsub'.symm.trans hother)
    exact hclosed hopen'
  constructor
  · exact hledger
  · exact h.serving.step h.ledger h.clock hspared
  · rw [(busStep_same w.bus step).1]
    exact h.clock
  · exact h.handle
  · exact Option.isSome_iff_exists.mpr ⟨sub', hsub'⟩
  · exact h.keyed
  · exact h.deduped
  · exact h.accounted
  · intro other hother
    rw [hsubmits]
    exact hcovers (hcursor other hother)
  · intro ack hack
    obtain ⟨seq, id, heq, hcovered⟩ := h.acks ack (hacks ack hack)
    refine ⟨seq, id, heq, fun other hother hopen' => ?_⟩
    rw [hsubmits]
    exact hcovers (hcovered sub hsub (hopen hother hopen'))
  · intro page hpage
    obtain ⟨hmem, hcovered⟩ := h.pages page hpage
    rw [hsubmits]
    refine ⟨fun message hmessage => mem_append_left _ (hmem message hmessage), ?_⟩
    intro other hother hopen'
    obtain ⟨stop, hstop, hprefix⟩ := hcovered sub hsub (hopen hother hopen')
    refine ⟨stop, hcovers hstop, ?_⟩
    rw [filter_append]
    exact hprefix.trans (prefix_append _ _)

theorem Safe.queue (h : Safe opts start w) {queue : RuntimeState T}
    (hkeyed : Keyed queue.journal) (hdeduped : Deduped opts.runtime queue)
    (haccounted : Accounted queue.journal)
    (hmono : ∀ topic seq, w.queue.admitted topic seq → queue.admitted topic seq)
    (hacks : ∀ ack ∈ acks, ∃ seq id, ack = .ack opts.topic opts.runtime.subscriptionId seq id ∧
      ∀ sub, w.bus.subscriptions.lookup opts.key = some sub → sub.closed = false →
        Covers (opts.submits w) opts.topic queue start (seq + 1)) :
    Safe opts start { w with queue := queue, acks := w.acks ++ acks } := by
  refine ⟨h.ledger, h.serving, h.clock, h.handle, h.opened, hkeyed, hdeduped, haccounted,
    fun sub hsub => (h.cursor sub hsub).mono hmono, fun ack hack => ?_, fun page hpage => ?_⟩
  · rcases mem_append.mp hack with hack | hack
    · obtain ⟨seq, id, heq, hcovered⟩ := h.acks ack hack
      exact ⟨seq, id, heq, fun sub hsub hopen => (hcovered sub hsub hopen).mono hmono⟩
    · exact hacks ack hack
  · obtain ⟨hmem, hcovered⟩ := h.pages page hpage
    refine ⟨hmem, fun sub hsub hopen => ?_⟩
    obtain ⟨stop, hstop, hprefix⟩ := hcovered sub hsub hopen
    exact ⟨stop, hstop.mono hmono, hprefix⟩

theorem Safe.read (h : Safe opts start w) : Safe opts start (admissionStep opts w .read) := by
  refine ⟨h.ledger, h.serving, h.clock, h.handle, h.opened, h.keyed, h.deduped, h.accounted,
    h.cursor, h.acks, fun page hpage => ?_⟩
  rcases mem_append.mp hpage with hpage | hpage
  · exact h.pages page hpage
  · rw [mem_singleton.mp hpage]
    refine ⟨h.serving.page_subset h.handle _, fun sub hsub hopen => ?_⟩
    exact ⟨sub.nextSeq, h.cursor sub hsub, h.serving.page h.ledger h.handle hsub hopen (some 100)⟩

theorem Safe.deliver (h : Safe opts start w) (page : Nat) (now : Nat → Nat) :
    Safe opts start (admissionStep opts w (.deliver page now)) := by
  rw [admissionStep]
  cases hpage : w.pages[page]? with
  | none => exact h
  | some page =>
    obtain ⟨hmem, hcovered⟩ := h.pages page (mem_of_getElem? hpage)
    have htopic (message : MessageEnvelope (WorkQueueSubmit T))
        (hmessage : message ∈ opts.submits w) : message.topic = opts.topic :=
      (mem_publishedOn.mp hmessage).2
    have hwrites := admitPage_writes opts.runtime now w.queue page.messages
    obtain ⟨hdeduped, hmono⟩ := h.deduped.admitPage now page.messages
    refine h.queue (hwrites.keyed h.keyed) hdeduped (h.accounted.writes hwrites) hmono ?_
    intro ack hack
    obtain ⟨sub, hsub⟩ := Option.isSome_iff_exists.mp h.opened
    cases hclosed : sub.closed with
    | true =>
      obtain ⟨seq, id, heq⟩ := admitPage_acks now w.queue
        (fun message hmessage => htopic message (hmem message hmessage)) ack hack
      refine ⟨seq, id, heq, fun other hother hopen => ?_⟩
      obtain rfl := Option.some.inj (hsub.symm.trans hother)
      exact absurd (hclosed.symm.trans hopen) Bool.false_ne_true.symm
    | false =>
      obtain ⟨stop, hstop, hprefix⟩ := hcovered sub hsub hclosed
      obtain ⟨seq, id, heq, hcovers⟩ := admitPage_covers (h.ledger.numbered opts.topic) htopic
        now h.deduped hprefix hstop ack hack
      exact ⟨seq, id, heq, fun _ _ _ => hcovers⟩

theorem Safe.ack (h : Safe opts start w) : Safe opts start (admissionStep opts w .ack) := by
  rw [admissionStep]
  cases hacks : w.acks with
  | nil => exact h
  | cons ack acks =>
    have hmem : ack ∈ w.acks := by
      rw [hacks]
      exact mem_cons_self
    obtain ⟨seq, id, rfl, hcovered⟩ := h.acks ack hmem
    have hspared : Spared opts.topic w.bus
        (.command (.ack opts.topic opts.runtime.subscriptionId seq id)) := trivial
    refine h.bus hspared (fun other hother => ?_) fun sub hsub => ?_
    · rw [hacks]
      exact mem_cons_of_mem _ hother
    · -- The cursor stays, or goes to where the ack stands for.
      rcases ack_subscriptions w.bus opts.topic opts.runtime.subscriptionId seq id with
        hsame | ⟨before, hbefore, hopen, hset⟩
      · rw [hsame] at hsub
        exact h.cursor sub hsub
      · rw [hset, AdmissionOptions.key, SortedMap.lookup_insert_self, Option.some.injEq] at hsub
        rw [← hsub]
        exact hcovered before hbefore hopen

/-- One step of everything keeps the invariant. -/
theorem Safe.step (h : Safe opts start w) {step : AdmissionStep T}
    (hstep : Undisturbed opts w step) : Safe opts start (admissionStep opts w step) := by
  cases step with
  | bus step =>
    obtain ⟨hcursor, hspared⟩ := hstep
    refine h.bus hspared (fun _ hack => hack) fun sub hsub => ?_
    rw [AdmissionOptions.cursor, AdmissionOptions.cursor, hsub, Option.map_some] at hcursor
    obtain ⟨before, hbefore, heq⟩ := Option.map_eq_some_iff.mp hcursor.symm
    rw [← heq]
    exact h.cursor before hbefore
  | read => exact h.read
  | deliver page now => exact h.deliver page now
  | ack => exact h.ack
  | command command nowMs =>
    have hwrites : Writes opts.runtime (fun _ => True) w.queue.journal
        (reduceQueueCommand opts.runtime w.queue command nowMs).1.journal :=
      queueStep_writes opts.runtime h.keyed (.command command nowMs)
    obtain ⟨hdeduped, hadmissions⟩ := h.deduped.command h.keyed command nowMs
    refine h.queue (hwrites.keyed h.keyed) hdeduped (h.accounted.writes hwrites) ?_ ?_
    · intro topic seq had
      rw [RuntimeState.admitted, hadmissions]
      exact had
    · rw [(reduceQueueCommand_aside opts.runtime w.queue command nowMs).acks]
      exact fun _ h => absurd h not_mem_nil

end Steps

variable {opts : AdmissionOptions}

theorem Safe.run {start : Nat} {w : AdmissionWorld T}
    (h : Safe opts start w) {steps : List (AdmissionStep T)}
    (hsteps : UndisturbedRun opts w steps) : Safe opts start (admissionRun opts w steps) := by
  induction steps generalizing w with
  | nil => exact h
  | cons step steps ih => exact ih (h.step hsteps.1) hsteps.2

theorem lookup_subscription {P : Type} (s : MessageBusState P)
    (opts : MessageBusSubscriptionOptions) (hnames : opts.topic ≠ "" ∧ opts.subscriptionId ≠ "") :
    (s.subscription opts).1.subscriptions.lookup
      (subscriptionKey opts.topic opts.subscriptionId) = some (ensureSubscription s opts).2.1 := by
  rw [MessageBusState.subscription, if_neg (by simp [hnames])]
  cases hlook : s.subscriptions.lookup (subscriptionKey opts.topic opts.subscriptionId) with
  | some existing =>
    simp only [ensureSubscription, hlook]
    exact hlook
  | none =>
    simp only [ensureSubscription, hlook]
    exact SortedMap.lookup_insert_self _ _ _

theorem Safe.start {bus : MessageBusState (WorkQueueSubmit T)}
    {events : List (RuntimeEvent (WorkQueueSubmit T))} (hledger : Ledger bus events)
    (hserving : Serving opts.topic opts.runtime.subscriptionId bus events)
    (hclock : Monotone (clockReading bus.now)) :
    Safe opts (startAdmission opts bus events).handle.nextSeq (startAdmission opts bus events) := by
  have hlook := lookup_subscription bus opts.subscription
    ⟨opts.topic_ne, opts.subscription_ne⟩
  have hspared : Spared opts.topic bus (.subscription opts.subscription) := trivial
  have hserving' := hserving.step hledger hclock hspared
  refine ⟨hledger.step (.subscription opts.subscription), hserving', ?_, hserving'.named _ hlook,
    Option.isSome_iff_exists.mpr ⟨_, hlook⟩, keyed_default, deduped_default _, accounted_default,
    fun sub hsub => ?_, fun _ h => absurd h not_mem_nil,
    fun _ h => absurd h not_mem_nil⟩
  · have hnow := (busStep_same bus (.subscription opts.subscription)).1
    rw [startAdmission]
    exact hnow ▸ hclock
  · obtain rfl := Option.some.inj (hlook.symm.trans hsub)
    exact ⟨Or.inl le_rfl, fun _ _ hlow hhigh => absurd hhigh (not_lt.mpr hlow)⟩

/-- A queue is set up on a bus that has been running, and then anything happens that
    leaves its cursor alone and takes no message away under a refused policy. Then no
    message has two admission records, every work is admitted by exactly one record,
    every message from where the subscription began up to where it stands is recorded,
    and a message that is recorded changes nothing when it comes again. -/
theorem no_submit_skipped (busOpts : MessageBusOptions) (opts : AdmissionOptions)
    (hclock : Monotone (clockReading busOpts.now)) (before : List (BusStep (WorkQueueSubmit T)))
    (hbefore : SparedRun opts.topic (MessageBusState.new busOpts) before)
    (steps : List (AdmissionStep T)) :
    let r := busRun (MessageBusState.new busOpts) before
    let first := startAdmission opts r.1 r.2
    UndisturbedRun opts first steps →
    let w := admissionRun opts first steps
    (∀ source, (w.queue.records.countP fun record =>
      decide (record.body.admissionMessageBus = some source)) ≤ 1) ∧
    (∀ record ∈ w.queue.records, record.body.admissionMessageBus.isSome →
      (w.queue.records.countP fun other =>
        decide (other.workId = record.workId) && other.body.admits) = 1) ∧
    (∀ cursor, opts.cursor w.bus = some cursor → ∀ message ∈ opts.submits w,
      first.handle.nextSeq ≤ message.seq → message.seq < cursor →
        ∃ record ∈ w.queue.records,
          record.body.admissionMessageBus = some (sourceOf opts.runtime message)) ∧
    (∀ message, (∃ record ∈ w.queue.records,
        record.body.admissionMessageBus = some (sourceOf opts.runtime message)) →
      ∀ nowMs, admitMessage opts.runtime w.queue message nowMs = (w.queue, [])) := by
  intro r first hsteps w
  have hledger : Ledger r.1 r.2 := (ledger_new busOpts).run before
  have hserving : Serving opts.topic opts.runtime.subscriptionId r.1 r.2 :=
    (serving_new busOpts _ _).run (ledger_new busOpts) hclock hbefore
  have hnow : r.1.now = busOpts.now := busRun_now _ before
  have hfirst : Safe opts first.handle.nextSeq first :=
    Safe.start hledger hserving (hnow.symm ▸ hclock)
  have hsafe : Safe opts first.handle.nextSeq w := hfirst.run hsteps
  have hin {source : WorkQueueMessageBusRef} : source ∈ w.queue.admissions ↔
      ∃ record ∈ w.queue.records, record.body.admissionMessageBus = some source :=
    mem_filterMap
  refine ⟨fun source => ?_, fun record hmem hsome => ?_, ?_, ?_⟩
  · have hcount := nodup_iff_count_le_one.mp hsafe.deduped.once source
    rw [RuntimeState.admissions, count_filterMap] at hcount
    refine le_trans (le_of_eq (countP_congr fun record _ => ?_)) hcount
    simp
  · have hentry : record.entry ∈ w.queue.journal.entries := mem_map_of_mem hmem
    have hknown : (w.queue.journal.works.lookup record.workId).isSome :=
      hsafe.accounted.known record.entry hentry hsome
    have honce := hsafe.accounted.once record.workId
    rw [if_pos hknown, about, countP_map, countP_filter, Journal.entries,
      countP_map] at honce
    refine (countP_congr fun other _ => ?_).trans honce
    simp [WorkQueueRecord.entry, and_comm]
  · intro cursor hcursor message hmessage hlow hhigh
    obtain ⟨sub, hsub, rfl⟩ := Option.map_eq_some_iff.mp hcursor
    obtain ⟨source, hsource, htopic, hseq⟩ :=
      (hsafe.cursor sub hsub).recorded message hmessage hlow hhigh
    have hname := (mem_publishedOn.mp hmessage).2
    have heq : source = sourceOf opts.runtime message := by
      rw [sourceOf, hname, ← htopic, ← hseq, ← hsafe.deduped.named source hsource]
    exact hin.mp (heq ▸ hsource)
  · intro message hrecorded nowMs
    have hseen := (hsafe.deduped.seen message.topic message.seq).mpr (hin.mpr hrecorded)
    rcases admitMessage_cases opts.runtime w.queue message nowMs with ⟨_, heq⟩ | ⟨hnew, _⟩
    · exact heq
    · exact absurd hseen hnew

/-- A queue that takes numbers for payloads from a topic of its own. -/
def numbersQueue : AdmissionOptions :=
  { runtime :=
      { queueId := "q"
        subscriptionId := "s"
        leaseDurationMs := 1000
        retry := { maxAttempts := 1, backoff := .none } }
    topic := "work"
    start := .earliest
    topic_ne := by decide
    subscription_ne := by decide }

/-- A bus that keeps messages for five milliseconds, and at most so many of them. -/
def agingTopic (maxMessages : Option Nat) : MessageBusOptions :=
  { topics := ["work"]
    topicPolicy := .strict
    retention := { maxMessages := maxMessages, maxAgeMs := some 5 }
    dedupe := .status
    now := fun call => some (if call < 4 then 0 else 10) }

def submitNumber (n : Nat) : AdmissionStep Nat :=
  .bus (.command (.publish "work"
    { payload := n
      workId := none
      priority := none
      tags := []
      requirements := []
      notBeforeMs := none
      deadlineMs := none } none none none))

/-- Two submits, ten milliseconds apart, and a page read after both. -/
def twoSubmits : List (AdmissionStep Nat) :=
  [submitNumber 1, submitNumber 2, .read, .deliver 0 fun _ => 0, .ack]

theorem agingTopic_clock (maxMessages : Option Nat) :
    Monotone (clockReading (agingTopic maxMessages).now) := by
  intro a b hab
  simp only [clockReading, agingTopic, Option.getD_some]
  split_ifs <;> omega

/-- A bus that is to keep no message at all drops the first submit for its age before it
    refuses to. The head of the topic stays, the second submit is acked, and the first
    is behind the cursor without a record. -/
theorem dropped_submit_is_skipped :
    Monotone (clockReading (agingTopic (some 0)).now) ∧
      (let first := startAdmission numbersQueue (MessageBusState.new (agingTopic (some 0))) []
       let published := admissionRun numbersQueue first [submitNumber 1, submitNumber 2]
       let w := admissionRun numbersQueue first twoSubmits
       numbersQueue.cursor published.bus = numbersQueue.cursor first.bus ∧
        first.handle.nextSeq = 1 ∧ numbersQueue.cursor w.bus = some 3 ∧
        (numbersQueue.submits w).map (·.seq) = [1, 2] ∧
        w.queue.records.map (fun record => record.body.admissionMessageBus.map (·.seq)) =
          [some 2]) := by
  refine ⟨agingTopic_clock (some 0), ?_⟩
  decide +kernel

/-- Without the limit on their number, the first submit is dropped as well, but the queue
    is told of the gap: its cursor does not move. -/
theorem no_submit_skipped_twoSubmits :
    let first := startAdmission numbersQueue (MessageBusState.new (agingTopic none)) []
    let w := admissionRun numbersQueue first twoSubmits
    (∀ cursor, numbersQueue.cursor w.bus = some cursor → ∀ message ∈ numbersQueue.submits w,
      first.handle.nextSeq ≤ message.seq → message.seq < cursor →
        ∃ record ∈ w.queue.records,
          record.body.admissionMessageBus = some (sourceOf numbersQueue.runtime message)) ∧
      numbersQueue.cursor w.bus = some 1 := by
  have hundisturbed : UndisturbedRun numbersQueue
      (startAdmission numbersQueue (MessageBusState.new (agingTopic none)) []) twoSubmits := by
    refine ⟨⟨by decide +kernel, fun _ _ hzero => ?_⟩, ⟨by decide +kernel, fun _ _ hzero => ?_⟩,
      trivial, trivial, trivial, trivial⟩
    · exact absurd hzero (by decide +kernel)
    · exact absurd hzero (by decide +kernel)
  exact ⟨(no_submit_skipped (agingTopic none) numbersQueue (agingTopic_clock none) [] trivial
    twoSubmits hundisturbed).2.2.1, by decide +kernel⟩

end GraphRefly.WorkQueue
