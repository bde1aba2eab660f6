import GraphRefly.Lib.SortedMap
import Mathlib.Data.List.Pairwise
import Mathlib.Data.String.Basic

/-!
# Outcomes of Consolidation Requests

Every accepted outcome of a consolidation request becomes a result and a command, and the
records it proposes become drafts. Their ids are the ids of the request, the outcome and the
record with colons between them. Nothing keeps a colon out of an id, and only the ids of
outcomes are checked for repetition. So two results have one id when a part of the text can
belong to the request of one and to the outcome of the other.

## Main definitions

* `projectConsolidationOutcomes`: The outcomes of a list of requests.
* `accepted`: The outcomes that are accepted.
* `Confusable`: Two pairs of texts that look alike when a colon joins each.
* `Identified`, `Separable`: What the ids are for, and the condition on the inputs.

## Theorems

* `joined_inj`: When two joined texts are equal.
* `projectFrom_spec`: What the outcomes leave behind.
* `consolidation_identified_iff`: The ids tell results, commands and drafts apart just when the
  inputs are separable.
-/

namespace GraphRefly.Solutions

open List

open GraphRefly.Lib (SortedMap)

/-! ### Records -/

abbrev FactId := String

/-- What the checks ask of a float. -/
class MemoryFloat (F : Type) where
  isFinite : F → Bool
  inUnitRange : F → Bool

/-- The rational numbers among the floats. -/
instance : MemoryFloat Rat where
  isFinite _ := true
  inUnitRange value := decide (0 ≤ value ∧ value ≤ 1)

variable {F T : Type}

/-- A fragment; its times are in nanoseconds. -/
structure MemoryFragment (F T : Type) where
  id : FactId
  payload : T
  validFrom : Option Nat
  validTo : Option Nat
  confidence : F
  embedding : Option (List F)

structure AgenticMemoryScope where
  sessionId : Option String
  projectId : Option String
  userId : Option String
  tenantId : Option String

structure AgenticMemoryRecord (F T : Type) where
  id : FactId
  fragment : MemoryFragment F T
  scope : Option AgenticMemoryScope

/-- The error, if there is one. -/
def errorIf (condition : Bool) (error : String) : List String :=
  if condition then [error] else []

def validateFragment [MemoryFloat F] (fragment : MemoryFragment F T) : List String :=
  errorIf (fragment.id = "") "id must be a non-empty string" ++
  errorIf (!MemoryFloat.isFinite fragment.confidence ||
    !MemoryFloat.inUnitRange fragment.confidence) "confidence must be finite in [0, 1]" ++
  errorIf (match fragment.validFrom, fragment.validTo with
    | some validFrom, some validTo => validTo ≤ validFrom
    | _, _ => false) "valid_from must be earlier than valid_to" ++
  errorIf (fragment.embedding.any (·.any (!MemoryFloat.isFinite ·)))
    "embedding must be a finite number array when present"

def validateAgenticMemoryScope (scope : AgenticMemoryScope) : List String :=
  errorIf (scope.sessionId = some "") "scope.session_id must be a non-empty string when present" ++
  errorIf (scope.projectId = some "") "scope.project_id must be a non-empty string when present" ++
  errorIf (scope.userId = some "") "scope.user_id must be a non-empty string when present" ++
  errorIf (scope.tenantId = some "") "scope.tenant_id must be a non-empty string when present"

def validateAgenticMemoryRecord [MemoryFloat F] (record : AgenticMemoryRecord F T) :
    List String :=
  errorIf (record.id = "") "id must be a non-empty string" ++
  (validateFragment record.fragment).map ("fragment." ++ ·) ++
  record.scope.elim [] validateAgenticMemoryScope

/-! ### Requests and outcomes -/

structure AgenticMemoryConsolidationRequest where
  commandId : FactId
  recordId : FactId

inductive AgenticMemoryConsolidationOutcome (F T : Type)
  | proposedRecords (id requestId : FactId) (records : List (AgenticMemoryRecord F T))
      (provenance : Option String)
  | failed (id requestId : FactId) (message : String) (provenance : Option String)

namespace AgenticMemoryConsolidationOutcome

def id : AgenticMemoryConsolidationOutcome F T → FactId
  | proposedRecords id _ _ _ => id
  | failed id _ _ _ => id

def requestId : AgenticMemoryConsolidationOutcome F T → FactId
  | proposedRecords _ requestId _ _ => requestId
  | failed _ requestId _ _ => requestId

def records : AgenticMemoryConsolidationOutcome F T → List (AgenticMemoryRecord F T)
  | proposedRecords _ _ records _ => records
  | failed _ _ _ _ => []

end AgenticMemoryConsolidationOutcome

def validateConsolidationOutcome [MemoryFloat F] :
    AgenticMemoryConsolidationOutcome F T → List String
  | .proposedRecords id requestId records provenance =>
    errorIf (id = "") "id must be a non-empty string" ++
    errorIf (requestId = "") "request_id must be a non-empty string" ++
    errorIf records.isEmpty "records must be non-empty" ++
    errorIf (provenance = some "") "provenance must be non-empty when present" ++
    (records.zipIdx.map fun record => (validateAgenticMemoryRecord record.1).map fun error =>
      "records[" ++ toString record.2 ++ "]: " ++ error).flatten
  | .failed id requestId message provenance =>
    errorIf (id = "") "id must be a non-empty string" ++
    errorIf (requestId = "") "request_id must be a non-empty string" ++
    errorIf (message = "") "message must be a non-empty string" ++
    errorIf (provenance = some "") "provenance must be non-empty when present"

inductive AgenticMemoryConsolidationResultState
  | proposed
  | failed

structure AgenticMemoryConsolidationResult where
  id : FactId
  requestId : FactId
  outcomeId : FactId
  state : AgenticMemoryConsolidationResultState
  sourceRecordIds : List FactId
  proposedRecordIds : List FactId
  message : Option String
  provenance : Option String

inductive AgenticMemoryConsolidationCommandKind
  | proposeRecords
  | markFailed

structure AgenticMemoryConsolidationCommand where
  id : FactId
  kind : AgenticMemoryConsolidationCommandKind
  requestId : FactId
  outcomeId : FactId
  draftIds : List FactId
  message : Option String

structure AgenticMemoryConsolidationRecordDraft (F T : Type) where
  id : FactId
  requestId : FactId
  outcomeId : FactId
  record : AgenticMemoryRecord F T

inductive AgenticMemoryErrorCode
  | invalidConsolidationOutcome
  | duplicateConsolidationOutcomeId
  | missingConsolidationRequest

structure PendingAgenticMemoryError where
  code : AgenticMemoryErrorCode
  index : Option Nat
  recordId : Option FactId
  validationErrors : List String

structure ProjectedConsolidation (F T : Type) where
  results : List AgenticMemoryConsolidationResult := []
  proposedRecordDrafts : List (AgenticMemoryConsolidationRecordDraft F T) := []
  commands : List AgenticMemoryConsolidationCommand := []
  errors : List PendingAgenticMemoryError := []
  validRequests : Nat := 0
  validOutcomes : Nat := 0
  invalidOutcomes : Nat := 0

/-! ### The projection -/

/-- Two texts with a colon between them. -/
def joined (first second : String) : String := first ++ ":" ++ second

/-- Some text can end the first pair's first half or begin its second half, or the other way
    round. -/
def Confusable (x y x' y' : String) : Prop :=
  ∃ w, (x' = joined x w ∧ y = joined w y') ∨ (x = joined x' w ∧ y' = joined w y)

@[simp] theorem toList_joined (x y : String) :
    (joined x y).toList = x.toList ++ ':' :: y.toList := by
  simp [joined]

theorem joined_inj {x y x' y' : String} :
    joined x y = joined x' y' ↔ (x = x' ∧ y = y') ∨ Confusable x y x' y' := by
  refine ⟨fun h => ?_, fun h => ?_⟩
  · have hlist := congrArg String.toList h
    rw [toList_joined, toList_joined, append_eq_append_iff] at hlist
    -- What one first half has beyond the other is nothing, or it starts with the colon.
    rcases hlist with ⟨as, hx, hy⟩ | ⟨as, hx, hy⟩
    · rcases as with _ | ⟨c, w⟩
      · rw [append_nil, String.toList_inj] at hx
        rw [nil_append, cons_inj_right, String.toList_inj] at hy
        exact Or.inl ⟨hx.symm, hy⟩
      · obtain ⟨rfl, hy⟩ := cons_eq_cons.mp hy
        refine Or.inr ⟨String.ofList w, Or.inl ⟨?_, ?_⟩⟩ <;> rw [← String.toList_inj, toList_joined]
        · simpa using hx
        · simpa using hy
    · rcases as with _ | ⟨c, w⟩
      · rw [append_nil, String.toList_inj] at hx
        rw [nil_append, cons_inj_right, String.toList_inj] at hy
        exact Or.inl ⟨hx, hy.symm⟩
      · obtain ⟨rfl, hy⟩ := cons_eq_cons.mp hy
        refine Or.inr ⟨String.ofList w, Or.inr ⟨?_, ?_⟩⟩ <;> rw [← String.toList_inj, toList_joined]
        · simpa using hx
        · simpa using hy
  · rcases h with ⟨rfl, rfl⟩ | ⟨w, ⟨rfl, rfl⟩ | ⟨rfl, rfl⟩⟩
    · rfl
    all_goals simp [joined, String.append_assoc]

theorem joined_left_inj {x x' y : String} : joined x y = joined x' y ↔ x = x' := by
  rw [← String.toList_inj, toList_joined, toList_joined, append_cancel_right_eq,
    String.toList_inj]

theorem joined_right_inj {x y y' : String} : joined x y = joined x y' ↔ y = y' := by
  rw [← String.toList_inj, toList_joined, toList_joined, append_cancel_left_eq,
    cons_inj_right, String.toList_inj]

section

variable (outcome : AgenticMemoryConsolidationOutcome F T)

def resultId : FactId := joined outcome.requestId outcome.id

/-- The id of the draft of a record. -/
def draftId (record : AgenticMemoryRecord F T) : FactId :=
  joined outcome.requestId (joined outcome.id record.id)

def draftsOf : List (AgenticMemoryConsolidationRecordDraft F T) :=
  outcome.records.map fun record =>
    ⟨draftId outcome record, outcome.requestId, outcome.id, record⟩

def resultOf (request : AgenticMemoryConsolidationRequest) : AgenticMemoryConsolidationResult :=
  match outcome with
  | .failed id requestId message provenance =>
    ⟨resultId outcome, requestId, id, .failed, [request.recordId], [], some message, provenance⟩
  | .proposedRecords id requestId records provenance =>
    ⟨resultId outcome, requestId, id, .proposed, [request.recordId], records.map (·.id), none,
      provenance⟩

def commandOf : AgenticMemoryConsolidationCommand :=
  match outcome with
  | .failed id requestId message _ =>
    ⟨joined (resultId outcome) "mark_failed", .markFailed, requestId, id, [], some message⟩
  | .proposedRecords id requestId _ _ =>
    ⟨joined (resultId outcome) "propose_records", .proposeRecords, requestId, id,
      (draftsOf outcome).map (·.id), none⟩

end

section

variable {a b : AgenticMemoryConsolidationOutcome F T} {r s : AgenticMemoryRecord F T}

theorem resultId_eq_iff (h : a.id ≠ b.id) :
    resultId a = resultId b ↔ Confusable a.requestId a.id b.requestId b.id := by
  rw [resultId, resultId, joined_inj, or_iff_right fun heq => h heq.2]

theorem draftId_eq_iff (h : a.id ≠ b.id) :
    draftId a r = draftId b s ↔
      (a.requestId = b.requestId ∧ Confusable a.id r.id b.id s.id) ∨
        Confusable a.requestId (joined a.id r.id) b.requestId (joined b.id s.id) := by
  rw [draftId, draftId, joined_inj]
  have hinner : joined a.id r.id = joined b.id s.id ↔ Confusable a.id r.id b.id s.id := by
    rw [joined_inj, or_iff_right fun heq => h heq.1]
  rw [hinner]

theorem draftId_inj : draftId a r = draftId a s ↔ r.id = s.id := by
  rw [draftId, draftId, joined_right_inj, joined_right_inj]

/-- Commands of different results have different ids, whatever their kinds: the id of one kind
    ends in `d`, of the other in `s`. -/
theorem commandOf_id_inj (h : (commandOf a).id = (commandOf b).id) : resultId a = resultId b := by
  have hlast := congrArg (fun id => id.toList.getLast?) h
  cases a <;> cases b
  · exact joined_left_inj.mp h
  · simp [commandOf] at hlast
  · simp [commandOf] at hlast
  · exact joined_left_inj.mp h

theorem map_draftsOf_id (a : AgenticMemoryConsolidationOutcome F T) :
    (draftsOf a).map (·.id) = a.records.map (draftId a) := by
  rw [draftsOf, map_map]
  rfl

theorem of_mem_draftsOf {draft : AgenticMemoryConsolidationRecordDraft F T}
    (h : draft ∈ draftsOf a) :
    draft.id ∈ (draftsOf a).map (·.id) ∧ draft.requestId = a.requestId ∧
      draft.outcomeId = a.id := by
  refine ⟨mem_map_of_mem h, ?_⟩
  obtain ⟨record, -, rfl⟩ := mem_map.mp h
  exact ⟨rfl, rfl⟩

end

/-- The requests by their command ids; the last one of an id stays. -/
def byRequest (requests : List AgenticMemoryConsolidationRequest) :
    SortedMap FactId AgenticMemoryConsolidationRequest :=
  SortedMap.ofList (requests.map fun request => (request.commandId, request))

variable [MemoryFloat F] (requests : List AgenticMemoryConsolidationRequest)

/-- Everything that is wrong with an outcome behind others of the given ids. -/
def outcomeErrors (seen : List FactId) (outcome : AgenticMemoryConsolidationOutcome F T) :
    List String :=
  validateConsolidationOutcome outcome ++
  errorIf (outcome.id ∈ seen) ("duplicate consolidation outcome id '" ++ outcome.id ++ "'") ++
  errorIf ((byRequest requests).lookup outcome.requestId).isNone
    ("request_id '" ++ outcome.requestId ++ "' does not reference a projected request")

def outcomeErrorCode (errors : List String) : AgenticMemoryErrorCode :=
  if errors.any ("duplicate consolidation outcome id".toList.isPrefixOf ·.toList) then
    .duplicateConsolidationOutcomeId
  else if errors.any ("request_id".toList.isPrefixOf ·.toList) then .missingConsolidationRequest
  else .invalidConsolidationOutcome

/-- One outcome. -/
def projectOutcome (seen : List FactId) (index : Nat)
    (outcome : AgenticMemoryConsolidationOutcome F T) (out : ProjectedConsolidation F T) :
    ProjectedConsolidation F T :=
  match outcomeErrors requests seen outcome, (byRequest requests).lookup outcome.requestId with
  | [], some request =>
    { out with
      validOutcomes := out.validOutcomes + 1
      results := out.results ++ [resultOf outcome request]
      proposedRecordDrafts := out.proposedRecordDrafts ++ draftsOf outcome
      commands := out.commands ++ [commandOf outcome] }
  | errors, _ =>
    { out with
      invalidOutcomes := out.invalidOutcomes + 1
      errors := out.errors ++ [⟨outcomeErrorCode errors, some index, some outcome.id, errors⟩] }

def projectFrom : List FactId → Nat → List (AgenticMemoryConsolidationOutcome F T) →
    ProjectedConsolidation F T → ProjectedConsolidation F T
  | _, _, [], out => out
  | seen, index, outcome :: outcomes, out =>
    projectFrom (outcome.id :: seen) (index + 1) outcomes
      (projectOutcome requests seen index outcome out)

def projectConsolidationOutcomes (outcomes : List (AgenticMemoryConsolidationOutcome F T)) :
    ProjectedConsolidation F T :=
  projectFrom requests [] 0 outcomes { validRequests := (byRequest requests).length }

/-! ### Accepted outcomes -/

/-- The accepted outcomes behind others of the given ids. -/
def acceptedFrom : List FactId → List (AgenticMemoryConsolidationOutcome F T) →
    List (AgenticMemoryConsolidationOutcome F T)
  | _, [] => []
  | seen, outcome :: outcomes =>
    if outcomeErrors requests seen outcome = [] then
      outcome :: acceptedFrom (outcome.id :: seen) outcomes
    else acceptedFrom (outcome.id :: seen) outcomes

def accepted (outcomes : List (AgenticMemoryConsolidationOutcome F T)) :
    List (AgenticMemoryConsolidationOutcome F T) :=
  acceptedFrom requests [] outcomes

@[simp] theorem errorIf_eq_nil {condition : Bool} {error : String} :
    errorIf condition error = [] ↔ condition = false := by
  cases condition <;> simp [errorIf]

variable {requests} {seen : List FactId} {outcome : AgenticMemoryConsolidationOutcome F T}
  {outcomes : List (AgenticMemoryConsolidationOutcome F T)}

theorem id_notMem_of_errors (h : outcomeErrors requests seen outcome = []) :
    outcome.id ∉ seen := by
  rw [outcomeErrors, append_eq_nil_iff, append_eq_nil_iff, errorIf_eq_nil] at h
  exact of_decide_eq_false h.1.2

theorem lookup_of_errors (h : outcomeErrors requests seen outcome = []) :
    ∃ request, (byRequest requests).lookup outcome.requestId = some request := by
  rw [outcomeErrors, append_eq_nil_iff, errorIf_eq_nil] at h
  exact Option.isSome_iff_exists.mp (Option.isNone_eq_false_iff.mp h.2)

theorem acceptedFrom_ids (seen : List FactId)
    (outcomes : List (AgenticMemoryConsolidationOutcome F T)) :
    (∀ outcome ∈ acceptedFrom requests seen outcomes, outcome.id ∉ seen) ∧
      (acceptedFrom requests seen outcomes).Pairwise fun a b => a.id ≠ b.id := by
  induction outcomes generalizing seen with
  | nil => simp [acceptedFrom]
  | cons outcome outcomes ih =>
    obtain ⟨hfresh, hpair⟩ := ih (outcome.id :: seen)
    have hseen (b) (hb : b ∈ acceptedFrom requests (outcome.id :: seen) outcomes) : b.id ∉ seen :=
      fun hmem => hfresh b hb (mem_cons_of_mem _ hmem)
    rw [acceptedFrom]
    split_ifs with herr
    · refine ⟨fun b hb => ?_, pairwise_cons.mpr ⟨fun b hb heq => ?_, hpair⟩⟩
      · rcases mem_cons.mp hb with rfl | hb
        · exact id_notMem_of_errors herr
        · exact hseen b hb
      · exact hfresh b hb (heq ▸ mem_cons_self)
    · exact ⟨hseen, hpair⟩

/-- What accepted outcomes leave in a projection. -/
structure Projects (before out : ProjectedConsolidation F T)
    (kept : List (AgenticMemoryConsolidationOutcome F T)) (count : Nat) : Prop where
  results : out.results.map (fun result => (result.id, result.requestId, result.outcomeId)) =
    before.results.map (fun result => (result.id, result.requestId, result.outcomeId)) ++
      kept.map fun outcome => (resultId outcome, outcome.requestId, outcome.id)
  commands : out.commands = before.commands ++ kept.map commandOf
  drafts : out.proposedRecordDrafts = before.proposedRecordDrafts ++ kept.flatMap draftsOf
  valid : out.validOutcomes = before.validOutcomes + kept.length
  all : out.validOutcomes + out.invalidOutcomes =
    before.validOutcomes + before.invalidOutcomes + count

theorem projectOutcome_spec (index : Nat) (out : ProjectedConsolidation F T) :
    Projects out (projectOutcome requests seen index outcome out)
      (if outcomeErrors requests seen outcome = [] then [outcome] else []) 1 := by
  by_cases herr : outcomeErrors requests seen outcome = []
  · obtain ⟨request, hlook⟩ := lookup_of_errors herr
    rw [if_pos herr, projectOutcome, herr, hlook]
    constructor <;> simp [Nat.add_right_comm]
    cases outcome <;> exact ⟨rfl, rfl, rfl⟩
  · rw [if_neg herr, projectOutcome]
    split
    · exact absurd ‹_› herr
    · constructor <;> simp [Nat.add_assoc]

theorem projectFrom_spec (seen : List FactId) (index : Nat)
    (outcomes : List (AgenticMemoryConsolidationOutcome F T)) (out : ProjectedConsolidation F T) :
    Projects out (projectFrom requests seen index outcomes out)
      (acceptedFrom requests seen outcomes) outcomes.length := by
  induction outcomes generalizing seen index out with
  | nil => constructor <;> simp [projectFrom, acceptedFrom]
  | cons outcome outcomes ih =>
    have hone : Projects out (projectOutcome requests seen index outcome out) _ 1 :=
      projectOutcome_spec index out
    have hrest := ih (outcome.id :: seen) (index + 1)
      (projectOutcome requests seen index outcome out)
    have hsplit : acceptedFrom requests seen (outcome :: outcomes) =
        (if outcomeErrors requests seen outcome = [] then [outcome] else []) ++
          acceptedFrom requests (outcome.id :: seen) outcomes := by
      rw [acceptedFrom]
      split_ifs <;> rfl
    rw [projectFrom, hsplit]
    refine ⟨?_, ?_, ?_, ?_, ?_⟩
    · rw [hrest.results, hone.results, map_append, append_assoc]
    · rw [hrest.commands, hone.commands, map_append, append_assoc]
    · rw [hrest.drafts, hone.drafts, flatMap_append, append_assoc]
    · rw [hrest.valid, hone.valid, length_append, Nat.add_assoc]
    · rw [hrest.all, hone.all, length_cons]
      omega

/-! ### What the ids are for -/

/-- The ids tell the results, commands and drafts apart, and a command names its own drafts. -/
structure Identified (requests : List AgenticMemoryConsolidationRequest)
    (outcomes : List (AgenticMemoryConsolidationOutcome F T)) : Prop where
  results : (projectConsolidationOutcomes requests outcomes).results.map
    (fun result => (result.requestId, result.outcomeId)) =
      (accepted requests outcomes).map fun outcome => (outcome.requestId, outcome.id)
  commands : (projectConsolidationOutcomes requests outcomes).commands.map
    (fun command => (command.requestId, command.outcomeId)) =
      (accepted requests outcomes).map fun outcome => (outcome.requestId, outcome.id)
  counts : (projectConsolidationOutcomes requests outcomes).validOutcomes +
    (projectConsolidationOutcomes requests outcomes).invalidOutcomes = outcomes.length
  resultIds : ((projectConsolidationOutcomes requests outcomes).results.map (·.id)).Nodup
  commandIds : ((projectConsolidationOutcomes requests outcomes).commands.map (·.id)).Nodup
  draftIds : ((projectConsolidationOutcomes requests outcomes).proposedRecordDrafts.map
    (·.id)).Nodup
  own : ∀ command ∈ (projectConsolidationOutcomes requests outcomes).commands,
    command.kind = .proposeRecords →
      ∀ draft ∈ (projectConsolidationOutcomes requests outcomes).proposedRecordDrafts,
        draft.id ∈ command.draftIds ↔
          draft.requestId = command.requestId ∧ draft.outcomeId = command.outcomeId

/-- No two ids of accepted outcomes and their records are confused. -/
structure Separable (requests : List AgenticMemoryConsolidationRequest)
    (outcomes : List (AgenticMemoryConsolidationOutcome F T)) : Prop where
  results : (accepted requests outcomes).Pairwise fun a b =>
    ¬ Confusable a.requestId a.id b.requestId b.id
  records : ∀ a ∈ accepted requests outcomes, (a.records.map (·.id)).Nodup
  drafts : (accepted requests outcomes).Pairwise fun a b =>
    ∀ r ∈ a.records, ∀ s ∈ b.records,
      (a.requestId = b.requestId → ¬ Confusable a.id r.id b.id s.id) ∧
        ¬ Confusable a.requestId (joined a.id r.id) b.requestId (joined b.id s.id)

theorem accepted_ids (requests : List AgenticMemoryConsolidationRequest)
    (outcomes : List (AgenticMemoryConsolidationOutcome F T)) :
    (accepted requests outcomes).Pairwise fun a b => a.id ≠ b.id :=
  (acceptedFrom_ids [] outcomes).2

/-- What all outcomes together leave. -/
theorem project_spec (requests : List AgenticMemoryConsolidationRequest)
    (outcomes : List (AgenticMemoryConsolidationOutcome F T)) :
    Projects { validRequests := (byRequest requests).length }
      (projectConsolidationOutcomes requests outcomes) (accepted requests outcomes)
      outcomes.length :=
  projectFrom_spec [] 0 outcomes _

theorem resultIds_nodup_iff :
    ((accepted requests outcomes).map resultId).Nodup ↔
      (accepted requests outcomes).Pairwise fun a b =>
        ¬ Confusable a.requestId a.id b.requestId b.id := by
  rw [List.Nodup, pairwise_map]
  refine ⟨fun h => ?_, fun h => ?_⟩
  · refine (h.and (accepted_ids requests outcomes)).imp fun hab hconf => ?_
    exact hab.1 ((resultId_eq_iff hab.2).mpr hconf)
  · refine (h.and (accepted_ids requests outcomes)).imp fun hab heq => ?_
    exact hab.1 ((resultId_eq_iff hab.2).mp heq)

theorem commandIds_nodup (h : ((accepted requests outcomes).map resultId).Nodup) :
    ((accepted requests outcomes).map fun a => (commandOf a).id).Nodup := by
  rw [List.Nodup, pairwise_map] at h ⊢
  exact h.imp fun hne heq => hne (commandOf_id_inj heq)

theorem draftIds_nodup_iff :
    ((accepted requests outcomes).flatMap fun a => (draftsOf a).map (·.id)).Nodup ↔
      (∀ a ∈ accepted requests outcomes, (a.records.map (·.id)).Nodup) ∧
        (accepted requests outcomes).Pairwise fun a b =>
          ∀ r ∈ a.records, ∀ s ∈ b.records,
            (a.requestId = b.requestId → ¬ Confusable a.id r.id b.id s.id) ∧
              ¬ Confusable a.requestId (joined a.id r.id) b.requestId (joined b.id s.id) := by
  rw [nodup_flatMap]
  have hinner (a : AgenticMemoryConsolidationOutcome F T) :
      ((draftsOf a).map (·.id)).Nodup ↔ (a.records.map (·.id)).Nodup := by
    rw [map_draftsOf_id]
    simp only [List.Nodup, pairwise_map, ne_eq, draftId_inj]
  have houter (a b : AgenticMemoryConsolidationOutcome F T) (hne : a.id ≠ b.id) :
      List.Disjoint ((draftsOf a).map (·.id)) ((draftsOf b).map (·.id)) ↔
        ∀ r ∈ a.records, ∀ s ∈ b.records,
          (a.requestId = b.requestId → ¬ Confusable a.id r.id b.id s.id) ∧
            ¬ Confusable a.requestId (joined a.id r.id) b.requestId (joined b.id s.id) := by
    rw [map_draftsOf_id, map_draftsOf_id, disjoint_iff_ne]
    simp only [mem_map, forall_exists_index, and_imp, forall_apply_eq_imp_iff₂, ne_eq,
      draftId_eq_iff hne, not_or, not_and]
  refine and_congr (forall₂_congr fun a _ => hinner a) ⟨fun h => ?_, fun h => ?_⟩
  · exact (h.and (accepted_ids requests outcomes)).imp fun hab => (houter _ _ hab.2).mp hab.1
  · exact (h.and (accepted_ids requests outcomes)).imp fun hab => (houter _ _ hab.2).mpr hab.1

/-- The outcome of an id is one, so the drafts of a command are those of its outcome. -/
theorem own_drafts
    (hnodup : ((accepted requests outcomes).flatMap fun a => (draftsOf a).map (·.id)).Nodup)
    (ha : a ∈ accepted requests outcomes)
    {draft : AgenticMemoryConsolidationRecordDraft F T}
    (hdraft : draft ∈ (accepted requests outcomes).flatMap draftsOf) :
    draft.id ∈ (draftsOf a).map (·.id) ↔
      draft.requestId = a.requestId ∧ draft.outcomeId = a.id := by
  obtain ⟨b, hb, hmem⟩ := mem_flatMap.mp hdraft
  obtain ⟨hid, hreq, hout⟩ := of_mem_draftsOf hmem
  refine ⟨fun hin => ?_, fun heq => ?_⟩
  · -- Ids of drafts of different outcomes are different.
    have hsymm : Std.Symm (Function.onFun List.Disjoint
        fun c : AgenticMemoryConsolidationOutcome F T => (draftsOf c).map (·.id)) :=
      ⟨fun _ _ hdis => disjoint_symm hdis⟩
    obtain rfl : b = a := by
      by_contra hne
      exact (nodup_flatMap.mp hnodup).2.forall hb ha hne hid hin
    exact ⟨hreq, hout⟩
  · have hids := pairwise_map.mpr (accepted_ids requests outcomes)
    obtain rfl := inj_on_of_nodup_map hids hb ha (hout.symm.trans heq.2)
    exact hid

theorem consolidation_identified_iff (requests : List AgenticMemoryConsolidationRequest)
    (outcomes : List (AgenticMemoryConsolidationOutcome F T)) :
    Identified requests outcomes ↔ Separable requests outcomes := by
  have hspec := project_spec requests outcomes
  have hresults : (projectConsolidationOutcomes requests outcomes).results.map (·.id) =
      (accepted requests outcomes).map resultId := by
    have h := congrArg (List.map Prod.fst) hspec.results
    simpa [Function.comp_def] using h
  have hcommands : (projectConsolidationOutcomes requests outcomes).commands =
      (accepted requests outcomes).map commandOf := by
    rw [hspec.commands, nil_append]
  have hdrafts : (projectConsolidationOutcomes requests outcomes).proposedRecordDrafts =
      (accepted requests outcomes).flatMap draftsOf := by
    rw [hspec.drafts, nil_append]
  have hids : ((accepted requests outcomes).flatMap draftsOf).map (·.id) =
      (accepted requests outcomes).flatMap fun a => (draftsOf a).map (·.id) :=
    map_flatMap
  refine ⟨fun h => ?_, fun h => ?_⟩
  · have hnodup := h.draftIds
    rw [hdrafts, hids, draftIds_nodup_iff] at hnodup
    exact ⟨resultIds_nodup_iff.mp (hresults ▸ h.resultIds), hnodup.1, hnodup.2⟩
  · have hresultIds := resultIds_nodup_iff.mpr h.results
    have hnodup := draftIds_nodup_iff.mpr ⟨h.records, h.drafts⟩
    refine ⟨?_, ?_, ?_, ?_, ?_, ?_, ?_⟩
    · have hmap := congrArg (List.map Prod.snd) hspec.results
      simpa [Function.comp_def] using hmap
    · rw [hcommands, map_map]
      refine map_congr_left fun a _ => ?_
      cases a <;> rfl
    · simpa using hspec.all
    · rw [hresults]
      exact hresultIds
    · rw [hcommands, map_map]
      exact commandIds_nodup hresultIds
    · rw [hdrafts, hids]
      exact hnodup
    · intro command hcommand hkind draft hdraft
      rw [hcommands] at hcommand
      obtain ⟨a, ha, rfl⟩ := mem_map.mp hcommand
      rw [hdrafts] at hdraft
      have hown := own_drafts hnodup ha hdraft
      cases a with
      | proposedRecords id requestId records provenance => exact hown
      | failed => cases hkind

/-- A failed outcome of the request `a` and one of the request `a:b` whose results have one id. -/
theorem two_results_of_one_id :
    ([⟨"a", "r1"⟩, ⟨"a:b", "r2"⟩] :
      List AgenticMemoryConsolidationRequest).Pairwise (·.commandId ≠ ·.commandId) ∧
    ¬ Identified [⟨"a", "r1"⟩, ⟨"a:b", "r2"⟩]
      ([.failed "b:c" "a" "no" none, .failed "c" "a:b" "no" none] :
        List (AgenticMemoryConsolidationOutcome Rat Unit)) := by
  refine ⟨by decide, fun h => ?_⟩
  exact absurd h.resultIds (by decide +kernel)

end GraphRefly.Solutions
