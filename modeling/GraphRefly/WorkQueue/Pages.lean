import GraphRefly.Messaging.Pages
import GraphRefly.WorkQueue.Admission
import GraphRefly.WorkQueue.Replay
import GraphRefly.WorkQueue.Schedule
import Mathlib.Data.Prod.Lex

/-!
# Pages of the Queue

A queue is read in pages as the bus is: the works that are ready, in the order
of their admission, and the dead letters, in the order of the log. A page of
works names its last one by two fields, its number and its id, since works from
different topics may share a number; a page of dead letters names a number.

A work may be leased, come back and be given up while a reader is on its way.
What the reader relies on is that the place of a work in the order of admission
never changes, so that it cannot slip from before the cursor to behind it.

## Main definitions

* `availablePage`, `deadLetterPage`: The pages.
* `QueueHistory`: The states of a queue, one after another.

## Theorems

* `Writes.admissionSeq`: A work keeps its place in the order of admission.
* `availablePages_complete`, `deadLetterPages_complete`: Readers of the queue miss
  nothing and see nothing twice.
* `pages_complete`: The pages of the bus and of the queue together.
-/

namespace GraphRefly.WorkQueue

open List GraphRefly.Lib GraphRefly.Lib.Paging GraphRefly.Messaging

variable {T : Type}

/-! ### The pages -/

structure WorkQueueAvailableItem (T : Type) where
  workId : String
  state : WorkQueueDerivedState
  payload : T
  admissionSeq : Nat
  priority : Option Int
  tags : List String
  requirements : List String
  notBeforeMs : Option Nat
  retryAtMs : Option Nat
  deadlineMs : Option Nat
deriving DecidableEq

structure WorkQueueAvailableParams where
  limit : Option Nat
  afterWorkId : Option String
  afterAdmissionSeq : Option Nat
  nowMs : Option Nat

structure WorkQueueAvailablePage (T : Type) where
  items : List (WorkQueueAvailableItem T)
  nextAfterWorkId : Option String
  nextAfterAdmissionSeq : Option Nat
  hasMore : Bool
  asOfRecordSeq : Nat

/-- A reader that names no time is not shown works that wait for one. -/
def WorkState.isReadyForProjection (work : WorkState T) (nowMs : Option Nat) : Bool :=
  match work.state with
  | .scheduled | .retryWait => nowMs.any fun now => work.isReady now
  | .ready => true
  | _ => false

def WorkState.availableItem (work : WorkState T) : WorkQueueAvailableItem T :=
  { workId := work.workId
    state := work.state
    payload := work.payload
    admissionSeq := work.admissionSeq
    priority := work.priority
    tags := work.tags
    requirements := work.requirements
    notBeforeMs := work.notBeforeMs
    retryAtMs := work.retryAtMs
    deadlineMs := work.deadlineMs }

/-- The works behind the place that a number and an id name; either may be left out. -/
def WorkState.isAfter (work : WorkState T) (afterSeq : Option Nat) (afterId : Option String) :
    Bool :=
  match afterSeq, afterId with
  | some afterSeq, some afterId =>
    decide (afterSeq < work.admissionSeq ∨
      afterSeq = work.admissionSeq ∧ afterId < work.workId)
  | some afterSeq, none => decide (afterSeq < work.admissionSeq)
  | none, some afterId => decide (afterId < work.workId)
  | none, none => true

def WorkQueueAvailableItem.rank (item : WorkQueueAvailableItem T) : Nat × String :=
  (item.admissionSeq, item.workId)

def itemLe (a b : WorkQueueAvailableItem T) : Prop := candidateLe a.rank b.rank

instance : DecidableRel (@itemLe T) := fun a b =>
  inferInstanceAs (Decidable (candidateLe a.rank b.rank))

/-- A limit of zero is refused before a page is made. -/
def availablePage (s : RuntimeState T) (params : WorkQueueAvailableParams) :
    WorkQueueAvailablePage T :=
  let limit := params.limit.getD 100
  let works := (s.works.values.filter (·.isReadyForProjection params.nowMs)).filter
    (·.isAfter params.afterAdmissionSeq params.afterWorkId)
  let items := (works.map WorkState.availableItem).insertionSort itemLe
  let page := items.take limit
  { items := page
    nextAfterWorkId := if items.length > limit then page.getLast?.map (·.workId) else none
    nextAfterAdmissionSeq :=
      if items.length > limit then page.getLast?.map (·.admissionSeq) else none
    hasMore := decide (items.length > limit)
    asOfRecordSeq := s.recordSeq }

structure WorkQueueDeadLetterParams where
  limit : Option Nat
  afterDeadLetterSeq : Option Nat
  afterWorkId : Option String

structure WorkQueueDeadLetterPage (T : Type) where
  entries : List (WorkQueueRecord T)
  nextAfterDeadLetterSeq : Option Nat
  hasMore : Bool
  asOfRecordSeq : Nat

def deadLetterPage (s : RuntimeState T) (params : WorkQueueDeadLetterParams) :
    WorkQueueDeadLetterPage T :=
  let limit := params.limit.getD 100
  let entries := s.deadLetters.filter fun record =>
    (params.afterDeadLetterSeq.all fun after => decide (after < record.recordSeq)) &&
      params.afterWorkId.all fun after => decide (after < record.workId)
  let page := entries.take limit
  { entries := page
    nextAfterDeadLetterSeq :=
      if entries.length > limit then page.getLast?.map (·.recordSeq) else none
    hasMore := decide (entries.length > limit)
    asOfRecordSeq := s.recordSeq }

/-! ### Places that never change -/

theorem change_admissionSeq (body : RecordBody T) (work : WorkState T) :
    (body.change work).admissionSeq = work.admissionSeq := by
  cases body <;> rfl

/-- Every work of one journal has the same place in another. -/
def Places (j j' : Journal T) : Prop :=
  ∀ workId work, j.works.lookup workId = some work →
    ∃ work', j'.works.lookup workId = some work' ∧ work'.admissionSeq = work.admissionSeq

theorem Places.trans {a b c : Journal T} (h : Places a b) (h' : Places b c) : Places a c := by
  intro workId work hwork
  obtain ⟨mid, hmid, hseq⟩ := h workId work hwork
  obtain ⟨last, hlast, hseq'⟩ := h' workId mid hmid
  exact ⟨last, hlast, hseq'.trans hseq⟩

variable {j : Journal T}

theorem places_write (opts : RuntimeOptions) (entry : Entry T)
    (hnew : entry.2.admits = true → j.works.lookup entry.1 = none) :
    Places j (j.write opts entry) := by
  intro workId work hwork
  have hwritten : (j.write opts entry).works = applyRecord j.works (j.nextRecord opts entry) := rfl
  rw [hwritten]
  by_cases hid : workId = (j.nextRecord opts entry).workId
  · subst hid
    have hadmits : entry.2.admits = false := by
      cases hadmits : entry.2.admits with
      | false => rfl
      | true => exact absurd (hwork.symm.trans (hnew hadmits)) (Option.some_ne_none work)
    refine ⟨entry.2.change work, ?_, change_admissionSeq entry.2 work⟩
    rw [lookup_applyRecord_self _ _ hadmits, hwork]
    rfl
  · exact ⟨work, by rw [lookup_applyRecord _ _ hid, hwork], rfl⟩

theorem places_writeAll (opts : RuntimeOptions) {entries : List (Entry T)}
    (hquiet : ∀ entry ∈ entries, entry.2.admits = false) : Places j (j.writeAll opts entries) := by
  induction entries generalizing j with
  | nil => exact fun _ work hwork => ⟨work, hwork, rfl⟩
  | cons entry entries ih =>
    have hentry := hquiet entry mem_cons_self
    refine (places_write opts entry fun hadmits => ?_).trans
      (ih fun entry hmem => hquiet entry (mem_cons_of_mem _ hmem))
    rw [hentry] at hadmits
    exact Bool.noConfusion hadmits

/-- A work keeps its place in the order of admission, whatever is written. -/
theorem Writes.admissionSeq {opts : RuntimeOptions} {kind : Entry T → Prop} {j' : Journal T}
    (h : Writes opts kind j j') : Places j j' := by
  refine h.invariant (fun mid entries hjust hmid => hmid.trans ?_)
    fun _ work hwork => ⟨work, hwork, rfl⟩
  rcases justified_admits hjust with ⟨workId, body, rfl, _, hnew⟩ | hquiet
  · exact places_write opts _ fun _ => hnew
  · exact places_writeAll opts fun entry hmem => (hquiet entry hmem).1

/-! ### Histories -/

/-- States of a queue, one after another, with admissions and commands between them. -/
structure QueueHistory (opts : RuntimeOptions) (queue : Nat → RuntimeState T) : Prop where
  start : ∃ steps, queue 0 = queueRun opts RuntimeState.default steps
  onward : ∀ n, ∃ steps, queue (n + 1) = queueRun opts (queue n) steps

section Readers

variable {opts : RuntimeOptions} {queue : Nat → RuntimeState T}

theorem queueRun_append (s : RuntimeState T) (steps more : List (QueueStep T)) :
    queueRun opts s (steps ++ more) = queueRun opts (queueRun opts s steps) more :=
  foldl_append

theorem QueueHistory.reached (h : QueueHistory opts queue) (n : Nat) :
    ∃ steps, queue n = queueRun opts RuntimeState.default steps := by
  induction n with
  | zero => exact h.start
  | succ n ih =>
    obtain ⟨steps, hsteps⟩ := ih
    obtain ⟨more, hmore⟩ := h.onward n
    exact ⟨steps ++ more, by rw [queueRun_append, ← hsteps, hmore]⟩

theorem QueueHistory.keyed (h : QueueHistory opts queue) (n : Nat) : Keyed (queue n).journal := by
  obtain ⟨steps, hsteps⟩ := h.reached n
  rw [hsteps]
  exact (queueRun_writes opts keyed_default steps).keyed keyed_default

theorem QueueHistory.told (h : QueueHistory opts queue) (n : Nat) : Told (queue n).journal := by
  obtain ⟨steps, hsteps⟩ := h.reached n
  rw [hsteps]
  exact told_run opts steps

variable {m n : Nat}

theorem QueueHistory.places (h : QueueHistory opts queue) (hmn : m ≤ n) :
    Places (queue m).journal (queue n).journal := by
  induction n, hmn using Nat.le_induction with
  | base => exact fun _ work hwork => ⟨work, hwork, rfl⟩
  | succ n _ ih =>
    obtain ⟨steps, hsteps⟩ := h.onward n
    rw [hsteps]
    exact ih.trans (queueRun_writes opts (h.keyed n) steps).admissionSeq

theorem QueueHistory.place (h : QueueHistory opts queue) {workId : String}
    {work work' : WorkState T} (hwork : (queue m).works.lookup workId = some work)
    (hwork' : (queue n).works.lookup workId = some work') :
    work.admissionSeq = work'.admissionSeq := by
  rcases Nat.le_total m n with hmn | hnm
  · obtain ⟨found, hfound, hseq⟩ := h.places hmn workId work hwork
    rw [← hseq, Option.some.inj (hfound.symm.trans hwork')]
  · obtain ⟨found, hfound, hseq⟩ := h.places hnm workId work' hwork'
    rw [← hseq, Option.some.inj (hwork.symm.trans hfound)]

/-! ### Readers -/

/-- Some works in the order of their admission. -/
def RuntimeState.listed (s : RuntimeState T) (p : WorkState T → Bool) :
    List (WorkQueueAvailableItem T) :=
  ((s.works.values.filter p).map WorkState.availableItem).insertionSort itemLe

/-- The ready works in the order of their admission. -/
def RuntimeState.available (s : RuntimeState T) (nowMs : Option Nat) :
    List (WorkQueueAvailableItem T) :=
  s.listed (·.isReadyForProjection nowMs)

/-- The dead letters of works with an id behind some id. -/
def RuntimeState.deadLettersOf (s : RuntimeState T) (afterWorkId : Option String) :
    List (WorkQueueRecord T) :=
  s.deadLetters.filter fun record => afterWorkId.all fun after => decide (after < record.workId)

/-- Where an item stands in the order of admission. -/
def WorkQueueAvailableItem.place (item : WorkQueueAvailableItem T) : Nat ×ₗ String :=
  toLex item.rank

/-- A reader's call for a page of works. It names the last work of the page before by both
    fields, or no work. -/
def availableReads (queue : Nat → RuntimeState T) (limits : Nat → Option Nat)
    (nowMs : Option Nat) (n : Nat) (after : Option (Nat ×ₗ String)) :
    Page (WorkQueueAvailableItem T) (Nat ×ₗ String) :=
  let page := availablePage (queue n)
    { limit := limits n
      afterWorkId := after.map fun place => (ofLex place).2
      afterAdmissionSeq := after.map fun place => (ofLex place).1
      nowMs := nowMs }
  { items := page.items
    next := page.nextAfterAdmissionSeq.bind fun seq =>
      page.nextAfterWorkId.map fun workId => toLex (seq, workId)
    hasMore := page.hasMore }

/-- A reader's call for a page of dead letters. -/
def deadLetterReads (queue : Nat → RuntimeState T) (limits : Nat → Option Nat)
    (afterWorkId : Option String) (n : Nat) (after : Option Nat) :
    Page (WorkQueueRecord T) Nat :=
  let page := deadLetterPage (queue n)
    { limit := limits n, afterDeadLetterSeq := after, afterWorkId := afterWorkId }
  { items := page.entries, next := page.nextAfterDeadLetterSeq, hasMore := page.hasMore }

instance : IsTrans (WorkQueueAvailableItem T) itemLe :=
  ⟨fun a b c hab hbc => IsTrans.trans (r := candidateLe) a.rank b.rank c.rank hab hbc⟩

instance : Std.Total (@itemLe T) := ⟨fun a b => Std.Total.total (r := candidateLe) a.rank b.rank⟩

theorem candidateLe_iff (a b : Nat × String) : candidateLe a b ↔ toLex a ≤ toLex b :=
  Prod.Lex.toLex_le_toLex.symm

variable {s : RuntimeState T} {p : WorkState T → Bool}

theorem mem_listed (hkeyed : Keyed s.journal) {item : WorkQueueAvailableItem T} :
    item ∈ s.listed p ↔ ∃ work, s.works.lookup item.workId = some work ∧ p work = true ∧
      item = work.availableItem := by
  rw [RuntimeState.listed, mem_insertionSort, mem_map]
  constructor
  · rintro ⟨work, hwork, rfl⟩
    obtain ⟨hin, hp⟩ := mem_filter.mp hwork
    obtain ⟨entry, hentry, rfl⟩ := mem_map.mp hin
    have hfound := SortedMap.lookup_eq_some_iff.mpr hentry
    have hid : entry.2.workId = entry.1 := hkeyed entry.1 entry.2 hfound
    exact ⟨entry.2, by rw [← hfound, ← hid]; rfl, hp, rfl⟩
  · rintro ⟨work, hfound, hp, heq⟩
    refine ⟨work, mem_filter.mpr ⟨?_, hp⟩, heq.symm⟩
    exact mem_map_of_mem (SortedMap.lookup_eq_some_iff.mp hfound)

theorem listed_sorted (hkeyed : Keyed s.journal) (p : WorkState T → Bool) :
    (s.listed p).Pairwise fun a b => a.place < b.place := by
  obtain ⟨hnodup, _⟩ := selected_ids hkeyed p
  have hids : ((s.listed p).map (·.workId)).Nodup := by
    refine ((perm_insertionSort itemLe _).map (·.workId)).nodup_iff.mpr ?_
    rw [map_map]
    exact hnodup
  have hdistinct : (s.listed p).Pairwise fun a b => a.workId ≠ b.workId :=
    pairwise_map.mp hids
  have hle : (s.listed p).Pairwise itemLe := pairwise_insertionSort itemLe _
  refine (hle.and hdistinct).imp fun {a b} h => ?_
  refine lt_of_le_of_ne ((candidateLe_iff a.rank b.rank).mp h.1) fun hsame => ?_
  exact h.2 (congrArg Prod.snd (toLex.injective hsame))

theorem listed_filter (hkeyed : Keyed s.journal) {q : WorkState T → Bool}
    {r : WorkQueueAvailableItem T → Bool} (hr : ∀ work, r work.availableItem = q work) :
    s.listed (fun work => q work && p work) = (s.listed p).filter r := by
  refine eq_of_ordered (listed_sorted hkeyed _) ((listed_sorted hkeyed p).filter _) fun item => ?_
  rw [mem_filter, mem_listed hkeyed, mem_listed hkeyed]
  constructor
  · rintro ⟨work, hfound, hboth, rfl⟩
    rw [Bool.and_eq_true] at hboth
    exact ⟨⟨work, hfound, hboth.2, rfl⟩, by rw [hr, hboth.1]⟩
  · rintro ⟨⟨work, hfound, hp, rfl⟩, hitem⟩
    rw [hr] at hitem
    exact ⟨work, hfound, by rw [hitem, hp]; rfl, rfl⟩

theorem availableReads_eq (hqueue : QueueHistory opts queue) (limits : Nat → Option Nat)
    (nowMs : Option Nat) (n : Nat) (after : Option (Nat ×ₗ String)) :
    availableReads queue limits nowMs n after =
      cutPage WorkQueueAvailableItem.place ((limits n).getD 100)
        (((queue n).available nowMs).filter fun item => past after item.place) := by
  have hafter (work : WorkState T) : past after work.availableItem.place =
      work.isAfter (after.map fun place => (ofLex place).1)
        (after.map fun place => (ofLex place).2) := by
    cases after with
    | none => rfl
    | some place =>
      refine decide_eq_decide.mpr ?_
      exact Prod.Lex.toLex_lt_toLex (x := ofLex place) (y := work.availableItem.rank)
  rw [RuntimeState.available, ← listed_filter (hqueue.keyed n) hafter, availableReads,
    availablePage, cutPage]
  simp only [filter_filter]
  rw [← RuntimeState.listed]
  split_ifs with hmore
  · cases hlast : (((queue n).listed fun work =>
        work.isAfter (after.map fun place => (ofLex place).1)
          (after.map fun place => (ofLex place).2) &&
          work.isReadyForProjection nowMs).take ((limits n).getD 100)).getLast? <;> rfl
  · rfl

variable {limits : Nat → Option Nat}

/-- Readers of the ready works miss nothing and see nothing twice. -/
theorem availablePages_complete (hqueue : QueueHistory opts queue)
    (hlimits : ∀ n, 0 < (limits n).getD 100) (nowMs : Option Nat) (after : Option (Nat ×ₗ String)) :
    Complete WorkQueueAvailableItem.workId
      (fun n => ((queue n).available nowMs).filter fun item => past after item.place)
      (follow (availableReads queue limits nowMs) after) := by
  have hreads : Reads WorkQueueAvailableItem.place (fun n => (limits n).getD 100) (past after)
      (fun n => (queue n).available nowMs) (follow (availableReads queue limits nowMs) after) := by
    refine ⟨fun n => listed_sorted (hqueue.keyed n) _, past_upward after, hlimits,
      availableReads_eq hqueue limits nowMs 0 after, fun n c hnext => ?_⟩
    rw [follow, hnext]
    exact availableReads_eq hqueue limits nowMs (n + 1) (some c)
  -- An id names one work, and the work one place, throughout the history.
  refine hreads.complete fun m n a ha b hb => ⟨fun hid => ?_, fun hplace => ?_⟩
  · obtain ⟨work, hwork, _, rfl⟩ := (mem_listed (hqueue.keyed m)).mp ha
    obtain ⟨work', hwork', _, rfl⟩ := (mem_listed (hqueue.keyed n)).mp hb
    rw [hid] at hwork
    exact congrArg toLex (Prod.ext (hqueue.place hwork hwork') hid)
  · exact congrArg Prod.snd (toLex.injective hplace)

/-- Readers of the dead letters miss nothing and see nothing twice. -/
theorem deadLetterPages_complete (hqueue : QueueHistory opts queue)
    (hlimits : ∀ n, 0 < (limits n).getD 100) (afterWorkId : Option String) (after : Option Nat) :
    Complete WorkQueueRecord.recordSeq
      (fun n => ((queue n).deadLettersOf afterWorkId).filter fun record =>
        past after record.recordSeq) (follow (deadLetterReads queue limits afterWorkId) after) := by
  have hcut (n : Nat) (after : Option Nat) : deadLetterReads queue limits afterWorkId n after =
      cutPage WorkQueueRecord.recordSeq ((limits n).getD 100)
        (((queue n).deadLettersOf afterWorkId).filter fun record =>
          past after record.recordSeq) := by
    rw [RuntimeState.deadLettersOf, filter_filter]
    rfl
  have hsorted (n : Nat) : ((queue n).deadLettersOf afterWorkId).Pairwise fun a b =>
      a.recordSeq < b.recordSeq := by
    have htold := hqueue.told n
    have hnumbered : Numbered WorkQueueRecord.recordSeq 1 (queue n).records := htold.numbers
    have hdead : (queue n).deadLetters = (queue n).records.filter (·.isDeadLetter) :=
      htold.deadLetters
    rw [RuntimeState.deadLettersOf, hdead]
    exact (hnumbered.pairwise.filter _).filter _
  have hreads : Reads WorkQueueRecord.recordSeq (fun n => (limits n).getD 100) (past after)
      (fun n => (queue n).deadLettersOf afterWorkId)
      (follow (deadLetterReads queue limits afterWorkId) after) := by
    refine ⟨hsorted, past_upward after, hlimits, hcut 0 after, fun n c hnext => ?_⟩
    rw [follow, hnext]
    exact hcut (n + 1) (some c)
  exact hreads.complete fun _ _ _ _ _ _ => Iff.rfl

end Readers

/-! ### All pages -/

/-- Whatever happens to a bus and to a queue between two pages, and whatever the limits,
    readers of topics, subscriptions, the catalog and dead letters, of ready works and of
    works that were given up end if the listing stays as it is, having read just the
    listing in order; they see nothing twice, and miss nothing that is listed throughout. -/
theorem pages_complete {U : Type} {bus : Nat → MessageBusState U} (hbus : BusHistory bus)
    {opts : RuntimeOptions} {queue : Nat → RuntimeState T} (hqueue : QueueHistory opts queue)
    {limits : Nat → Option Nat} (hlimits : ∀ n, 0 < (limits n).getD 100) :
    (∀ topic after, Complete MessageEnvelope.seq
      (fun n => ((bus n).messagesOn topic).filter fun message => past after message.seq)
      (follow (topicReads bus limits topic) after)) ∧
    (∀ sub after, Complete MessageEnvelope.seq
      (fun n => ((bus n).readable sub).filter fun message =>
        decide (availableStart bus sub after ≤ message.seq))
      (follow (Messaging.availableReads bus limits sub) after)) ∧
    (∀ includeClosed after, Complete MessageBusCatalogEntry.topic
      (fun n => ((bus n).catalog includeClosed).filter fun entry => past after entry.topic)
      (follow (catalogReads bus limits includeClosed) after)) ∧
    (∀ topic code after, Complete MessageBusDeadLetterEntry.entrySeq
      (fun n => ((bus n).deadLettersAbout topic code).filter fun entry =>
        past after entry.entrySeq)
      (follow (Messaging.deadLetterReads bus limits topic code) after)) ∧
    (∀ nowMs after, Complete WorkQueueAvailableItem.workId
      (fun n => ((queue n).available nowMs).filter fun item => past after item.place)
      (follow (availableReads queue limits nowMs) after)) ∧
    ∀ afterWorkId after, Complete WorkQueueRecord.recordSeq
      (fun n => ((queue n).deadLettersOf afterWorkId).filter fun record =>
        past after record.recordSeq)
      (follow (deadLetterReads queue limits afterWorkId) after) := by
  refine ⟨fun topic after => ?_, fun sub after => ?_, fun includeClosed after => ?_,
    fun topic code after => ?_, fun nowMs after => ?_, fun afterWorkId after => ?_⟩
  · exact topicPages_complete hbus hlimits topic after
  · exact Messaging.availablePages_complete hbus hlimits sub after
  · exact catalogPages_complete hlimits includeClosed after
  · exact Messaging.deadLetterPages_complete hbus hlimits topic code after
  · exact availablePages_complete hqueue hlimits nowMs after
  · exact deadLetterPages_complete hqueue hlimits afterWorkId after

/-- A bus with two topics. -/
def twoTopics : MessageBusState Nat :=
  MessageBusState.new { strictBus with topics := ["orders", "refunds"] }

/-- Two topics of a bus that stays as it is, listed one at a time. -/
theorem pages_complete_twoTopics :
    Complete MessageBusCatalogEntry.topic
      (fun _ => (twoTopics.catalog true).filter fun entry => past none entry.topic)
      (follow (catalogReads (fun _ => twoTopics) (fun _ => some 1) true) none) := by
  have hbus : BusHistory fun _ => twoTopics := ⟨⟨_, [], rfl⟩, fun _ => ⟨[], rfl⟩⟩
  have hqueue : QueueHistory (⟨"queue", "workers", 1, ⟨1, .none⟩⟩ : RuntimeOptions)
      fun _ => (RuntimeState.default : RuntimeState Nat) := ⟨⟨[], rfl⟩, fun _ => ⟨[], rfl⟩⟩
  have hlimits : ∀ n : Nat, 0 < ((fun _ => some 1 : Nat → Option Nat) n).getD 100 :=
    fun _ => Nat.one_pos
  exact (pages_complete hbus hqueue hlimits).2.2.1 true none

end GraphRefly.WorkQueue
