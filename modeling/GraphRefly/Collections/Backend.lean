import GraphRefly.Collections.Change
import GraphRefly.Lib.SortedMap

/-!
# Backends of the Collections

What the public mutations of the four collections do to their backends. A
backend counts its versions, and every version is announced by one delta; a
mutation is therefore the list of the versions it makes, each with its delta.
Appending to a full log makes two, one for the push and one for the trim.

A call that panics, such as a `pop` of an empty list, changes nothing and emits
nothing. `append_from` binds a source and does for each of its values what
`append` does.

## Main definitions

* `Backend`: A type of contents with its mutations.
* `Backend.call`, `Backend.calls`: The versions of one and of many mutations.
* `listBackend`, `logBackend`, `mapBackend`, `indexBackend`: The four backends.

## Theorems

* `Backend.final_calls_append`: Running on from where a run ended.
-/

namespace GraphRefly.Collections

open GraphRefly.Lib

/-- The contents of a collection, its mutations and its deltas. -/
structure Backend where
  Content : Type
  Op : Type
  Change : Type
  /-- The versions that a mutation makes, or the message of its panic. -/
  mutate : Content → Op → Except String (List (Change × Content))

namespace Backend

variable {B : Backend}

/-- The versions a caller sees: a panic makes none. -/
def call (B : Backend) (c : B.Content) (op : B.Op) : List (B.Change × B.Content) :=
  match B.mutate c op with
  | .ok versions => versions
  | .error _ => []

/-- The content after a list of versions. -/
def final (c : B.Content) (versions : List (B.Change × B.Content)) : B.Content :=
  versions.foldl (fun _ version => version.2) c

/-- The versions of mutations issued one after another. -/
def calls (B : Backend) : B.Content → List B.Op → List (B.Change × B.Content)
  | _, [] => []
  | c, op :: ops => B.call c op ++ calls B (final c (B.call c op)) ops

@[simp] theorem final_nil (c : B.Content) : final c [] = c := rfl

@[simp] theorem final_cons (c : B.Content) (version : B.Change × B.Content)
    (versions : List (B.Change × B.Content)) :
    final c (version :: versions) = final version.2 versions := rfl

theorem final_append (c : B.Content) (xs ys : List (B.Change × B.Content)) :
    final c (xs ++ ys) = final (final c xs) ys := by
  rw [final, List.foldl_append]
  rfl

theorem final_calls_append (c : B.Content) (ops ops' : List B.Op) :
    B.calls c (ops ++ ops') = B.calls c ops ++ B.calls (final c (B.calls c ops)) ops' := by
  induction ops generalizing c with
  | nil => rfl
  | cons op ops ih =>
    simp only [List.cons_append, calls, ih, final_append, List.append_assoc]

end Backend

variable {T K S V : Type}

/-! ### Lists and logs -/

/-- How many elements are over the capacity, and the buffer without them. -/
def trimHeadOverflow (buf : List T) (maxSize : Option ℕ+) : Nat × List T :=
  match maxSize with
  | none => (0, buf)
  | some max =>
    if buf.length ≤ max then (0, buf) else (buf.length - max, buf.drop (buf.length - max))

/-- The position an index names, where a negative one counts from the end. -/
def normalizeReadIndex (index : Int) (len : Nat) : Option Nat :=
  let i := if 0 ≤ index then index else len + index
  if 0 ≤ i ∧ i < len then some i.toNat else none

inductive ListOp (T : Type)
  | append (value : T)
  | appendMany (values : List T)
  | insert (index : Nat) (value : T)
  | insertMany (index : Nat) (values : List T)
  | pop (index : Option Int)
  | clear

namespace ReactiveList

/-- The version that brings a buffer back to its capacity. -/
def emitTrimmed (maxSize : Option ℕ+) (buf : List T) : List (ListChange T × List T) :=
  let (n, rest) := trimHeadOverflow buf maxSize
  if 0 < n then [(.trimHead n, rest)] else []

/-- The version of a change that can grow the buffer, and the trim after it. -/
def grow (maxSize : Option ℕ+) (change : ListChange T) (buf : List T) :
    List (ListChange T × List T) :=
  (change, buf) :: emitTrimmed maxSize buf

def mutate (maxSize : Option ℕ+) (buf : List T) :
    ListOp T → Except String (List (ListChange T × List T))
  | .append value => .ok (grow maxSize (.append value) (buf ++ [value]))
  | .appendMany values =>
    if values.isEmpty then .ok [] else .ok (grow maxSize (.appendMany values) (buf ++ values))
  | .insert index value =>
    if index ≤ buf.length then
      .ok (grow maxSize (.insert index value) (buf.insertIdx index value))
    else .error s!"insert: index {index} out of range [0, {buf.length}]"
  | .insertMany index values =>
    if index ≤ buf.length then
      if values.isEmpty then .ok []
      else .ok (grow maxSize (.insertMany index values)
        (buf.take index ++ values ++ buf.drop index))
    else .error s!"insert_many: index {index} out of range [0, {buf.length}]"
  | .pop index =>
    if buf.isEmpty then .error "pop from empty list"
    else
      let raw := index.getD (-1)
      match (normalizeReadIndex raw buf.length).bind fun i => buf[i]?.map (i, ·) with
      | none => .error s!"pop: index {raw} out of range"
      | some (i, value) => .ok [(.pop i value, buf.eraseIdx i)]
  | .clear => if buf.length = 0 then .ok [] else .ok [(.clear buf.length, [])]

end ReactiveList

/-- The backend of a list with a capacity. -/
def listBackend (T : Type) (maxSize : Option ℕ+) : Backend where
  Content := List T
  Op := ListOp T
  Change := ListChange T
  mutate := ReactiveList.mutate maxSize

inductive LogOp (T : Type)
  | append (value : T)
  | appendMany (values : List T)
  | clear
  | trimHead (n : Nat)

namespace ReactiveLog

/-- The version that brings a buffer back to its capacity. -/
def emitTrimmed (maxSize : Option ℕ+) (buf : List T) : List (LogChange T × List T) :=
  let (n, rest) := trimHeadOverflow buf maxSize
  if 0 < n then [(.trimHead n, rest)] else []

def mutate (maxSize : Option ℕ+) (buf : List T) :
    LogOp T → Except String (List (LogChange T × List T))
  | .append value =>
    .ok ((.append value, buf ++ [value]) :: emitTrimmed maxSize (buf ++ [value]))
  | .appendMany values =>
    if values.isEmpty then .ok []
    else .ok ((.appendMany values, buf ++ values) :: emitTrimmed maxSize (buf ++ values))
  | .clear => if buf.length = 0 then .ok [] else .ok [(.clear buf.length, [])]
  | .trimHead n =>
    let removed := min n buf.length
    if removed = 0 then .ok [] else .ok [(.trimHead removed, buf.drop removed)]

end ReactiveLog

/-- The backend of a log with a capacity. -/
def logBackend (T : Type) (maxSize : Option ℕ+) : Backend where
  Content := List T
  Op := LogOp T
  Change := LogChange T
  mutate := ReactiveLog.mutate maxSize

/-! ### Maps and indexes -/

variable [LinearOrder K] [LinearOrder S]

inductive MapOp (K V : Type)
  | set (key : K) (value : V)
  | setMany (entries : List (K × V))
  | delete (key : K)
  | deleteMany (keys : List K)
  | clear

namespace ReactiveMap

def set (rows : SortedMap K V) (key : K) (value : V) : List (MapChange K V × SortedMap K V) :=
  [(.set key value, rows.insert key value)]

def delete (rows : SortedMap K V) (key : K) : List (MapChange K V × SortedMap K V) :=
  match rows.lookup key with
  | none => []
  | some previous => [(.delete key previous, rows.erase key)]

def setMany (rows : SortedMap K V) : List (K × V) → List (MapChange K V × SortedMap K V)
  | [] => []
  | (key, value) :: entries => set rows key value ++ setMany (rows.insert key value) entries

def deleteMany (rows : SortedMap K V) : List K → List (MapChange K V × SortedMap K V)
  | [] => []
  | key :: keys => delete rows key ++ deleteMany (rows.erase key) keys

def mutate (rows : SortedMap K V) :
    MapOp K V → Except String (List (MapChange K V × SortedMap K V))
  | .set key value => .ok (set rows key value)
  | .setMany entries => .ok (setMany rows entries)
  | .delete key => .ok (delete rows key)
  | .deleteMany keys => .ok (deleteMany rows keys)
  | .clear => if rows.length = 0 then .ok [] else .ok [(.clear rows.length, .empty)]

end ReactiveMap

def mapBackend (K V : Type) [LinearOrder K] : Backend where
  Content := SortedMap K V
  Op := MapOp K V
  Change := MapChange K V
  mutate := ReactiveMap.mutate

inductive IndexOp (K S V : Type)
  | upsert (primary : K) (secondary : S) (value : V)
  | delete (primary : K)
  | deleteMany (primaries : List K)
  | clear

namespace ReactiveIndex

/-- Remove keys one after another, and collect those that were there. -/
def removeMany (rows : SortedMap K (S × V)) : List K → List K × SortedMap K (S × V)
  | [] => ([], rows)
  | primary :: primaries =>
    let (removed, rest) := removeMany (rows.erase primary) primaries
    if (rows.lookup primary).isSome then (primary :: removed, rest) else (removed, rest)

def mutate (rows : SortedMap K (S × V)) :
    IndexOp K S V → Except String (List (IndexChange K S V × SortedMap K (S × V)))
  | .upsert primary secondary value =>
    .ok [(.upsert primary secondary value, rows.insert primary (secondary, value))]
  | .delete primary =>
    if (rows.lookup primary).isSome then .ok [(.delete primary, rows.erase primary)] else .ok []
  | .deleteMany primaries =>
    let (removed, rest) := removeMany rows primaries
    if removed.isEmpty then .ok [] else .ok [(.deleteMany removed, rest)]
  | .clear => if rows.length = 0 then .ok [] else .ok [(.clear rows.length, .empty)]

/-- The row of an entry. -/
def row (entry : K × (S × V)) : IndexRow K S V := ⟨entry.1, entry.2.1, entry.2.2⟩

/-- The order of the rows that `to_vec` returns. -/
def rowLe (a b : IndexRow K S V) : Prop :=
  a.secondary < b.secondary ∨ (a.secondary = b.secondary ∧ a.primary ≤ b.primary)

instance : DecidableRel (@rowLe K S V _ _) := fun a b =>
  inferInstanceAs (Decidable (a.secondary < b.secondary ∨
    (a.secondary = b.secondary ∧ a.primary ≤ b.primary)))

/-- The rows in the order of their secondary keys. -/
def toVec (rows : SortedMap K (S × V)) : List (IndexRow K S V) :=
  (rows.entries.map row).insertionSort rowLe

end ReactiveIndex

def indexBackend (K S V : Type) [LinearOrder K] : Backend where
  Content := SortedMap K (S × V)
  Op := IndexOp K S V
  Change := IndexChange K S V
  mutate := ReactiveIndex.mutate

end GraphRefly.Collections
