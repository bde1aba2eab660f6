import GraphRefly.WorkQueue.Log

/-!
# Replaying the Log

The works of a queue are the replay of its records, from nothing and in order.
What a replica has to be told is the log and nothing else: there is no change of
a work that no record speaks of, and none that a record tells only in part.

## Main definitions

* `replay`: The works that records tell of.
* `Told`: A journal whose log tells everything.

## Theorems

* `Told.write`: Writing an entry keeps it so.
* `records_determine_works`: The log of every run determines its works.
-/

namespace GraphRefly.WorkQueue

open GraphRefly.Lib

variable {T : Type}

/-- The works that records tell of, from nothing. -/
def replay (records : List (WorkQueueRecord T)) : SortedMap String (WorkState T) :=
  records.foldl applyRecord SortedMap.empty

/-- The log of a journal tells everything: its works, its numbers and the works that
    were given up. -/
structure Told (j : Journal T) : Prop where
  works : j.works = replay j.records
  numbers : j.records.map (·.recordSeq) = List.range' 1 j.records.length
  recordSeq : j.recordSeq = j.records.length
  deadLetters : j.deadLetters = j.records.filter (·.isDeadLetter)

/-- The works change by the record that is appended, and by nothing else. -/
theorem Told.write {j : Journal T} (h : Told j) (opts : RuntimeOptions) (entry : Entry T) :
    Told (j.write opts entry) := by
  have hrecords : (j.write opts entry).records = j.records ++ [j.nextRecord opts entry] := rfl
  constructor
  · have hworks : (j.write opts entry).works = applyRecord j.works (j.nextRecord opts entry) := rfl
    rw [hrecords, hworks, replay, List.foldl_append, h.works]
    rfl
  · have hnext : (j.nextRecord opts entry).recordSeq = 1 + j.records.length := by
      rw [Journal.nextRecord, h.recordSeq, Nat.add_comm]
    rw [hrecords, List.map_append, h.numbers, List.length_append, List.length_singleton,
      List.range'_concat, List.map_singleton, hnext, Nat.one_mul]
  · have hseq : (j.write opts entry).recordSeq = j.recordSeq + 1 := rfl
    rw [hrecords, hseq, h.recordSeq, List.length_append, List.length_singleton]
  · have hdead : (j.write opts entry).deadLetters =
        if (j.nextRecord opts entry).isDeadLetter then j.deadLetters ++ [j.nextRecord opts entry]
        else j.deadLetters := rfl
    rw [hrecords, hdead, List.filter_append, h.deadLetters]
    cases hgiven : (j.nextRecord opts entry).isDeadLetter with
    | true => rw [if_pos rfl, List.filter_singleton, hgiven, cond_true]
    | false =>
      rw [if_neg Bool.false_ne_true, List.filter_singleton, hgiven, cond_false,
        List.append_nil]

theorem Told.writeAll {j : Journal T} (h : Told j) (opts : RuntimeOptions)
    (entries : List (Entry T)) : Told (j.writeAll opts entries) := by
  induction entries generalizing j with
  | nil => exact h
  | cons entry entries ih => exact ih (h.write opts entry)

theorem told_default : Told (RuntimeState.default : RuntimeState T).journal :=
  ⟨rfl, rfl, rfl, rfl⟩

theorem told_run (opts : RuntimeOptions) (steps : List (QueueStep T)) :
    Told (queueRun opts RuntimeState.default steps).journal := by
  have hstep (j : Journal T) (entries : List (Entry T)) (_ : Justified j entries)
      (htold : Told j) : Told (j.writeAll opts entries) :=
    htold.writeAll opts entries
  exact (queueRun_writes opts keyed_default steps).invariant hstep told_default

/-- After admissions and commands in any order, the works are the replay of the log, the
    records are numbered from one without a gap, and the works that were given up are
    the records that say so. -/
theorem records_determine_works (opts : RuntimeOptions) (steps : List (QueueStep T)) :
    (queueRun opts RuntimeState.default steps).works =
        replay (queueRun opts RuntimeState.default steps).records ∧
      (queueRun opts RuntimeState.default steps).records.map (·.recordSeq) =
        List.range' 1 (queueRun opts RuntimeState.default steps).records.length ∧
      (queueRun opts RuntimeState.default steps).deadLetters =
        (queueRun opts RuntimeState.default steps).records.filter (·.isDeadLetter) := by
  have htold := told_run opts steps
  exact ⟨htold.works, htold.numbers, htold.deadLetters⟩

end GraphRefly.WorkQueue
