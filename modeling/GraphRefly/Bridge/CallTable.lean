import GraphRefly.Bridge.RemoteCall

/-!
# The Calls In Flight

The table of calls in flight is a set of identifiers and two maps that have to
agree with each other. Between two waves it is the table of a plain list of calls,
all of them bound and no two of them alike, and what the node functions do to the
table is what one would do to the list.

## Main definitions

* `RemoteCall`: A call the bridge has sent.
* `RemoteCallPendingState.of`: The table that holds a list of calls.
* `Distinct`: No two calls share an identifier or a number.

## Theorems

* `insert_of_new`, `insert_preview_of_new`: A new call goes to the end of the list.
* `insert_of_known`: A call that is there is not entered again.
* `removeByRequestId_of`, `removeBySeq_of`: A removal filters the list.
-/

namespace GraphRefly.Bridge

open List

/-- A call the bridge has sent. -/
structure RemoteCall where
  operation : String
  requestId : String
  seq : Nat
  deriving DecidableEq

/-- The entry of a call that was sent. -/
def RemoteCall.request (call : RemoteCall) : RemoteCallPendingRequest :=
  ⟨call.operation, call.requestId, some call.seq⟩

/-- The entry of a call before it is sent. -/
def RemoteCall.preview (call : RemoteCall) : RemoteCallPendingRequest :=
  ⟨call.operation, call.requestId, none⟩

/-- No two calls share an identifier or a number. -/
structure Distinct (calls : List RemoteCall) : Prop where
  ids : (calls.map RemoteCall.requestId).Nodup
  seqs : (calls.map RemoteCall.seq).Nodup

theorem Distinct.nil : Distinct [] :=
  ⟨nodup_nil, nodup_nil⟩

variable {calls : List RemoteCall}

theorem Distinct.filter (h : Distinct calls) (p : RemoteCall → Bool) :
    Distinct (calls.filter p) :=
  ⟨h.ids.sublist (filter_sublist.map _), h.seqs.sublist (filter_sublist.map _)⟩

theorem Distinct.concat (h : Distinct calls) {call : RemoteCall}
    (hid : call.requestId ∉ calls.map RemoteCall.requestId)
    (hseq : call.seq ∉ calls.map RemoteCall.seq) : Distinct (calls ++ [call]) := by
  refine ⟨?_, ?_⟩
  · rw [map_append]
    exact h.ids.append (nodup_singleton _) (by simpa using hid)
  · rw [map_append]
    exact h.seqs.append (nodup_singleton _) (by simpa using hseq)

variable {c d : RemoteCall}

theorem Distinct.eq_of_id (h : Distinct calls)
    (hc : c ∈ calls) (hd : d ∈ calls) (hid : c.requestId = d.requestId) : c = d :=
  inj_on_of_nodup_map h.ids hc hd hid

theorem Distinct.eq_of_seq (h : Distinct calls)
    (hc : c ∈ calls) (hd : d ∈ calls) (hseq : c.seq = d.seq) : c = d :=
  inj_on_of_nodup_map h.seqs hc hd hseq

/-- The calls but those of an identifier. -/
def withoutId (id : String) (calls : List RemoteCall) : List RemoteCall :=
  calls.filter fun call => call.requestId ≠ id

/-- The calls but those of a number. -/
def withoutSeq (seq : Nat) (calls : List RemoteCall) : List RemoteCall :=
  calls.filter fun call => call.seq ≠ seq

/-- The call of an identifier. -/
def callOf (calls : List RemoteCall) (id : String) : Option RemoteCall :=
  calls.find? fun call => call.requestId = id

/-- The call of a number. -/
def callAt (calls : List RemoteCall) (seq : Nat) : Option RemoteCall :=
  calls.find? fun call => call.seq = seq

section Lookup

variable {calls : List RemoteCall} {call : RemoteCall} {id : String} {seq : Nat}

theorem callOf_eq_some (h : callOf calls id = some call) : call ∈ calls ∧ call.requestId = id :=
  ⟨mem_of_find?_eq_some h, by simpa using List.find?_some h⟩

theorem callAt_eq_some (h : callAt calls seq = some call) : call ∈ calls ∧ call.seq = seq :=
  ⟨mem_of_find?_eq_some h, by simpa using List.find?_some h⟩

theorem callOf_eq_none : callOf calls id = none ↔ id ∉ calls.map RemoteCall.requestId := by
  simp [callOf, List.find?_eq_none]

theorem callAt_eq_none : callAt calls seq = none ↔ seq ∉ calls.map RemoteCall.seq := by
  simp [callAt, List.find?_eq_none]

theorem callOf_concat (calls : List RemoteCall) (call : RemoteCall) (id : String) :
    callOf (calls ++ [call]) id =
      (callOf calls id).or (if call.requestId = id then some call else none) := by
  simp [callOf, List.find?_append, List.find?_singleton]

theorem callAt_concat (calls : List RemoteCall) (call : RemoteCall) (seq : Nat) :
    callAt (calls ++ [call]) seq =
      (callAt calls seq).or (if call.seq = seq then some call else none) := by
  simp [callAt, List.find?_append, List.find?_singleton]

variable {p q : RemoteCall → Bool}

theorem find?_filter_of (calls : List RemoteCall) (h : ∀ c ∈ calls, p c = true → q c = true) :
    (calls.filter q).find? p = calls.find? p := by
  induction calls with
  | nil => rfl
  | cons c cs ih =>
    have hrest := ih fun d hd => h d (mem_cons_of_mem c hd)
    by_cases hp : p c = true
    · have hq := h c mem_cons_self hp
      simp [hp, hq]
    · by_cases hq : q c = true <;> simp [hp, hq, hrest]

theorem find?_filter_none (calls : List RemoteCall) (h : ∀ c ∈ calls, p c = true → q c = false) :
    (calls.filter q).find? p = none := by
  rw [List.find?_eq_none]
  intro c hc hp
  have hmem := mem_filter.mp hc
  rw [h c hmem.1 hp] at hmem
  exact absurd hmem.2 (by simp)

end Lookup

namespace RemoteCallPendingState

/-- The table that holds a list of calls, all of them bound. -/
def of (calls : List RemoteCall) : RemoteCallPendingState where
  requestIds := (calls.map RemoteCall.requestId).toFinset
  byRequestId := fun id => (callOf calls id).map RemoteCall.request
  bySeq := fun seq => (callAt calls seq).map RemoteCall.request

theorem default_eq : default = of [] := rfl

theorem len_of (h : Distinct calls) : (of calls).len = calls.length := by
  simp only [len, of, toFinset_card_of_nodup h.ids, length_map]

variable {calls : List RemoteCall} {call : RemoteCall}

theorem unbound_of (calls : List RemoteCall) (id : String) : (of calls).unbound id = false := by
  cases h : callOf calls id <;> simp [unbound, of, h, RemoteCall.request]

theorem removeAllUnbound_of (calls : List RemoteCall) : (of calls).removeAllUnbound = of calls := by
  simp [removeAllUnbound, unbound_of]

/-- A call the table knows, by its identifier or by its number, is not entered. -/
theorem insert_of_known (h : call.requestId ∈ calls.map RemoteCall.requestId ∨
    call.seq ∈ calls.map RemoteCall.seq) :
    (of calls).insert call.request = (of calls, false) := by
  cases hid : callOf calls call.requestId with
  | some c => simp [insert, of, hid, RemoteCall.request]
  | none =>
    have hseq : call.seq ∈ calls.map RemoteCall.seq :=
      h.resolve_left (callOf_eq_none.mp hid)
    cases hat : callAt calls call.seq with
    | none => exact absurd hseq (callAt_eq_none.mp hat)
    | some c => simp [insert, of, hid, hat, RemoteCall.request]

theorem of_concat (hid : call.requestId ∉ calls.map RemoteCall.requestId)
    (hseq : call.seq ∉ calls.map RemoteCall.seq) :
    of (calls ++ [call]) =
      { requestIds := Insert.insert call.requestId (of calls).requestIds
        byRequestId := Function.update (of calls).byRequestId call.requestId (some call.request)
        bySeq := Function.update (of calls).bySeq call.seq (some call.request) } := by
  have hids : ((calls ++ [call]).map RemoteCall.requestId).toFinset =
      Insert.insert call.requestId (calls.map RemoteCall.requestId).toFinset := by
    ext id
    simp only [map_append, map_cons, map_nil, mem_toFinset, mem_append,
      mem_singleton, Finset.mem_insert]
    exact or_comm
  have hbyId : (fun id => (callOf (calls ++ [call]) id).map RemoteCall.request) =
      Function.update (fun id => (callOf calls id).map RemoteCall.request) call.requestId
        (some call.request) := by
    funext id
    rw [callOf_concat]
    by_cases heq : id = call.requestId
    · subst heq
      rw [Function.update_self, callOf_eq_none.mpr hid]
      simp
    · rw [Function.update_of_ne heq, if_neg (Ne.symm heq), Option.or_none]
  have hbySeq : (fun seq => (callAt (calls ++ [call]) seq).map RemoteCall.request) =
      Function.update (fun seq => (callAt calls seq).map RemoteCall.request) call.seq
        (some call.request) := by
    funext seq
    rw [callAt_concat]
    by_cases heq : seq = call.seq
    · subst heq
      rw [Function.update_self, callAt_eq_none.mpr hseq]
      simp
    · rw [Function.update_of_ne heq, if_neg (Ne.symm heq), Option.or_none]
  simp only [of, hids, hbyId, hbySeq]

/-- A new call goes to the end of the list. -/
theorem insert_of_new (hid : call.requestId ∉ calls.map RemoteCall.requestId)
    (hseq : call.seq ∉ calls.map RemoteCall.seq) :
    (of calls).insert call.request = (of (calls ++ [call]), true) := by
  have hnone := callOf_eq_none.mpr hid
  have hfree := callAt_eq_none.mpr hseq
  rw [of_concat hid hseq]
  simp [insert, of, hnone, hfree, RemoteCall.request]

/-- So does one that was entered before it had a number. -/
theorem insert_preview_of_new (hid : call.requestId ∉ calls.map RemoteCall.requestId)
    (hseq : call.seq ∉ calls.map RemoteCall.seq) :
    ((of calls).insert call.preview).1.insert call.request = (of (calls ++ [call]), true) := by
  have hnone := callOf_eq_none.mpr hid
  have hfree := callAt_eq_none.mpr hseq
  rw [of_concat hid hseq]
  simp [insert, of, hnone, hfree, RemoteCall.request, RemoteCall.preview]

theorem removeAllUnbound_insert_preview (calls : List RemoteCall) (call : RemoteCall) :
    ((of calls).insert call.preview).1.removeAllUnbound = of calls := by
  cases hid : callOf calls call.requestId with
  | some c =>
    have hsame : ((of calls).insert call.preview).1 = of calls := by
      simp [insert, of, hid, RemoteCall.request, RemoteCall.preview]
    rw [hsame, removeAllUnbound_of]
  | none =>
    have hnot := callOf_eq_none.mp hid
    have hentered : ((of calls).insert call.preview).1 =
        { requestIds := Insert.insert call.requestId (of calls).requestIds
          byRequestId := Function.update (of calls).byRequestId call.requestId (some call.preview)
          bySeq := (of calls).bySeq } := by
      simp [insert, of, hid, RemoteCall.preview]
    rw [hentered]
    have hunbound : ∀ id, unbound
        { requestIds := Insert.insert call.requestId (of calls).requestIds
          byRequestId := Function.update (of calls).byRequestId call.requestId (some call.preview)
          bySeq := (of calls).bySeq } id = decide (id = call.requestId) := by
      intro id
      by_cases heq : id = call.requestId
      · subst heq
        simp [unbound, RemoteCall.preview]
      · have hold := unbound_of calls id
        simp only [unbound] at hold ⊢
        rw [Function.update_of_ne heq, hold, decide_eq_false heq]
    simp only [removeAllUnbound, hunbound]
    have hids : (Insert.insert call.requestId (of calls).requestIds).filter
        (fun id => decide (id = call.requestId) = false) = (of calls).requestIds := by
      ext id
      simp only [Finset.mem_filter, Finset.mem_insert, decide_eq_false_iff_not]
      constructor
      · rintro ⟨hmem, hne⟩
        exact hmem.resolve_left hne
      · intro hmem
        refine ⟨Or.inr hmem, ?_⟩
        rintro rfl
        exact hnot (mem_toFinset.mp hmem)
    have hbyId : (fun id => if decide (id = call.requestId) = true then none
        else Function.update (of calls).byRequestId call.requestId (some call.preview) id) =
          (of calls).byRequestId := by
      funext id
      by_cases heq : id = call.requestId
      · subst heq
        simp [of, hid]
      · rw [if_neg (by simpa using heq), Function.update_of_ne heq]
    rw [hids, hbyId]

theorem of_without (hd : Distinct calls) (hcall : call ∈ calls) :
    { requestIds := (of calls).requestIds.erase call.requestId
      byRequestId := Function.update (of calls).byRequestId call.requestId none
      bySeq := Function.update (of calls).bySeq call.seq none } =
        of (calls.filter fun c => c ≠ call) := by
  have hids : ((calls.filter fun c => c ≠ call).map RemoteCall.requestId).toFinset =
      (calls.map RemoteCall.requestId).toFinset.erase call.requestId := by
    ext id
    simp only [mem_toFinset, mem_map, mem_filter, Finset.mem_erase, ne_eq,
      decide_not, Bool.not_eq_true', decide_eq_false_iff_not]
    constructor
    · rintro ⟨c, ⟨hc, hne⟩, rfl⟩
      exact ⟨fun h => hne (hd.eq_of_id hc hcall h), c, hc, rfl⟩
    · rintro ⟨hne, c, hc, rfl⟩
      exact ⟨c, ⟨hc, fun h => hne (h ▸ rfl)⟩, rfl⟩
  have hbyId : (fun id => (callOf (calls.filter fun c => c ≠ call) id).map RemoteCall.request) =
      Function.update (fun id => (callOf calls id).map RemoteCall.request) call.requestId none := by
    funext id
    by_cases heq : id = call.requestId
    · subst heq
      rw [Function.update_self, callOf, find?_filter_none]
      · rfl
      · intro c hc hp
        have := hd.eq_of_id hc hcall (by simpa using hp)
        simp [this]
    · rw [Function.update_of_ne heq, callOf, find?_filter_of]
      · rfl
      · intro c hc hp
        have hid : c.requestId = id := by simpa using hp
        have hne : c ≠ call := fun h => heq (hid ▸ h ▸ rfl)
        simp [hne]
  have hbySeq : (fun seq => (callAt (calls.filter fun c => c ≠ call) seq).map RemoteCall.request) =
      Function.update (fun seq => (callAt calls seq).map RemoteCall.request) call.seq none := by
    funext seq
    by_cases heq : seq = call.seq
    · subst heq
      rw [Function.update_self, callAt, find?_filter_none]
      · rfl
      · intro c hc hp
        have := hd.eq_of_seq hc hcall (by simpa using hp)
        simp [this]
    · rw [Function.update_of_ne heq, callAt, find?_filter_of]
      · rfl
      · intro c hc hp
        have hseq : c.seq = seq := by simpa using hp
        have hne : c ≠ call := fun h => heq (hseq ▸ h ▸ rfl)
        simp [hne]
  simp only [of, hids, hbyId, hbySeq]

/-- A removal by identifier filters the list. -/
theorem removeByRequestId_of (hd : Distinct calls) (id : String) :
    (of calls).removeByRequestId id =
      (of (withoutId id calls), (callOf calls id).map RemoteCall.request) := by
  cases hid : callOf calls id with
  | none =>
    have hnot := callOf_eq_none.mp hid
    have hsame : withoutId id calls = calls :=
      filter_eq_self.mpr fun c hc => by
        simpa using fun h => hnot (mem_map.mpr ⟨c, hc, h⟩)
    have hout : id ∉ (of calls).requestIds := fun h => hnot (mem_toFinset.mp h)
    rw [hsame, removeByRequestId, if_pos hout]
    rfl
  | some call =>
    obtain ⟨hcall, rfl⟩ := callOf_eq_some hid
    have hin : call.requestId ∈ (of calls).requestIds :=
      mem_toFinset.mpr (mem_map_of_mem hcall)
    have hfilter : withoutId call.requestId calls = calls.filter fun c => c ≠ call :=
      filter_congr fun c hc => by
        simpa using ⟨hd.eq_of_id hc hcall, fun h => h ▸ rfl⟩
    have hlookup : (of calls).byRequestId call.requestId = some call.request := by
      simp only [of, hid, Option.map_some]
    rw [removeByRequestId, if_neg (not_not.mpr hin), hlookup, hfilter, ← of_without hd hcall]
    rfl

/-- A removal by number filters the list. -/
theorem removeBySeq_of (hd : Distinct calls) (seq : Nat) :
    (of calls).removeBySeq seq =
      (of (withoutSeq seq calls), (callAt calls seq).map RemoteCall.request) := by
  cases hat : callAt calls seq with
  | none =>
    have hnot := callAt_eq_none.mp hat
    have hsame : withoutSeq seq calls = calls :=
      filter_eq_self.mpr fun c hc => by
        simpa using fun h => hnot (mem_map.mpr ⟨c, hc, h⟩)
    rw [hsame]
    simp [removeBySeq, of, hat]
  | some call =>
    obtain ⟨hcall, rfl⟩ := callAt_eq_some hat
    have hfilter : withoutSeq call.seq calls = calls.filter fun c => c ≠ call :=
      filter_congr fun c hc => by
        simpa using ⟨hd.eq_of_seq hc hcall, fun h => h ▸ rfl⟩
    have hlookup : (of calls).bySeq call.seq = some call.request := by
      simp only [of, hat, Option.map_some]
    rw [removeBySeq, hlookup, hfilter, ← of_without hd hcall]
    rfl

end RemoteCallPendingState

end GraphRefly.Bridge
