import GraphRefly.Collections.Backend

/-!
# Applying Changes to Rows

How a list of rows follows the deltas of a collection. The same case analysis is
written twice in the program, once for loading a stored collection and once for
the mirror that a persistence keeps; the two differ in the texts of their errors
and are one definition here, with the texts as a parameter.

Lists and logs follow a change by position. Maps and indexes keep their rows in
the order of their first insertion and find a row by the strict JSON bytes of
its key.

## Main definitions

* `strictJsonIdentity`, `strictJsonEqual`: Elements compared by their bytes.
* `findRow`, `upsertRow`, `deleteRow`, `removeRows`: Rows found by their keys.
* `assertUniqueRows`: The check for duplicate keys.
* `applyListChange`, `applyLogChange`, `applyMapChange`, `applyIndexChange`:
  One change.

## Theorems

* `findRow_eq`: Bytes find the row whose key is equal.
* `upsertRow_perm`: An upsert as a list of rows.
* `deleteRow_eq`: A delete is a filter.
* `removeRows_eq`: So is a delete of many.
-/

namespace GraphRefly.Collections

open List GraphRefly.Json GraphRefly.Storage

variable {F T K S V ρ : Type}

/-! ### Identity of elements -/

/-- The text of a codec error. -/
def codecErrorText : JsonCodecError → String
  | .encode message => "json encode failed: " ++ message
  | .decode message => "json decode failed: " ++ message
  | .validation message => message

section Identity

variable (F) [Float64 F] (label : String) [Serde F K]

/-- The strict JSON bytes of a value, or an error under a label. -/
def strictJsonIdentity (x : K) : Except StorageError ByteArray :=
  (strictCanonicalJsonBytes (toValue x : Value F)).mapError fun e =>
    .backend (label ++ codecErrorText e)

def strictJsonEqual (x y : K) : Except StorageError Bool := do
  let left ← strictJsonIdentity F label x
  let right ← strictJsonIdentity F label y
  return left = right

/-- The bytes of a value that has them. -/
def identityBytes (x : K) : ByteArray :=
  match strictCanonicalJsonBytes (toValue x : Value F) with
  | .ok b => b
  | .error _ => ByteArray.empty

variable [StrictJson F K]

theorem strictJsonIdentity_eq (x : K) :
    strictJsonIdentity F label x = .ok (identityBytes F x) := by
  obtain ⟨b, hb⟩ := StrictJson.strict (F := F) x
  simp [strictJsonIdentity, identityBytes, hb, Except.mapError]

theorem identityBytes_inj {x y : K} : identityBytes F x = identityBytes F y ↔ x = y := by
  constructor
  · intro h
    obtain ⟨b, hb⟩ := StrictJson.strict (F := F) x
    obtain ⟨b', hb'⟩ := StrictJson.strict (F := F) y
    have hbytes : b = b' := by simpa [identityBytes, hb, hb'] using h
    exact StrictJson.injective x y b hb (hbytes ▸ hb')
  · exact fun h => congrArg _ h

theorem strictJsonEqual_self (x : K) : strictJsonEqual F label x x = .ok true := by
  simp [strictJsonEqual, strictJsonIdentity_eq, bind, Except.bind, pure, Except.pure]

end Identity

/-! ### Rows found by their keys -/

section Rows

variable (F) [Float64 F] (label : String) [Serde F K] (key : ρ → K)

/-- The first position from `i` on whose key has the given bytes. -/
def findFrom (target : ByteArray) : Nat → List ρ → Except StorageError (Option Nat)
  | _, [] => .ok none
  | i, r :: rows => do
      if (← strictJsonIdentity F label (key r)) = target then return some i
      findFrom target (i + 1) rows

/-- The position of the row with a key. -/
def findRow (rows : List ρ) (k : K) : Except StorageError (Option Nat) := do
  findFrom F label key (← strictJsonIdentity F label k) 0 rows

/-- Replace the row with the key of a new one, or add the new one. -/
def upsertRow (rows : List ρ) (r : ρ) : Except StorageError (List ρ) := do
  match ← findRow F label key rows (key r) with
  | some i => return rows.set i r
  | none => return rows ++ [r]

/-- Take out the row with a key. -/
def deleteRow (missing : String) (rows : List ρ) (k : K) :
    Except StorageError (ρ × List ρ) := do
  match (← findRow F label key rows k).bind fun i => rows[i]?.map (·, rows.eraseIdx i) with
  | some found => return found
  | none => .error (.backend missing)

/-- The positions of keys, which must be distinct and present. -/
def findRows (text : String) (rows : List ρ) :
    Nat → List ByteArray → List K → Except StorageError (List Nat)
  | _, _, [] => .ok []
  | index, seen, k :: ks => do
      let id ← strictJsonIdentity F label k
      if seen.any (fun existing => decide (existing = id)) then
        .error (.backend s!"{text} {index} duplicates an earlier primary")
      else
        match ← findRow F label key rows k with
        | none => .error (.backend s!"{text} {index} is missing")
        | some i => return i :: (← findRows text rows (index + 1) (seen ++ [id]) ks)

/-- Take out the rows with given keys, the last one first. -/
def removeRows (text : String) (rows : List ρ) (ks : List K) : Except StorageError (List ρ) := do
  let indexes ← findRows F label key text rows 0 [] ks
  return (indexes.insertionSort (· ≥ ·)).foldl List.eraseIdx rows

/-- Check that no two rows have the same key. -/
def assertUniqueRows (duplicate : Nat → String) :
    Nat → List ByteArray → List ρ → Except StorageError Unit
  | _, _, [] => .ok ()
  | index, seen, r :: rows => do
      let id ← strictJsonIdentity F label (key r)
      if seen.any (fun existing => decide (existing = id)) then .error (.backend (duplicate index))
      else assertUniqueRows duplicate (index + 1) (seen ++ [id]) rows

end Rows

/-! ### One change -/

/-- The texts of the errors of a list change, of an index or a count and the
    length of the state. -/
structure ListTexts where
  label : String
  insert : Nat → Nat → String
  insertMany : Nat → Nat → String
  pop : Nat → Nat → String
  popValue : String
  trimHead : Nat → Nat → String
  clear : Nat → Nat → String

def backendError {α : Type} (message : String) : Except StorageError α := .error (.backend message)

def applyListChange (F : Type) [Float64 F] [Serde F T] (texts : ListTexts) (state : List T) :
    ListChange T → Except StorageError (List T)
  | .append value => .ok (state ++ [value])
  | .appendMany values => .ok (state ++ values)
  | .insert index value =>
    if state.length < index then backendError (texts.insert index state.length)
    else .ok (state.insertIdx index value)
  | .insertMany index values =>
    if state.length < index then backendError (texts.insertMany index state.length)
    else .ok (state.take index ++ values ++ state.drop index)
  | .pop index value =>
    match state[index]? with
    | none => backendError (texts.pop index state.length)
    | some actual => do
        if ← strictJsonEqual F texts.label actual value then return state.eraseIdx index
        else backendError texts.popValue
  | .trimHead n =>
    if state.length < n then backendError (texts.trimHead n state.length)
    else .ok (state.drop n)
  | .clear count =>
    if count ≠ state.length then backendError (texts.clear count state.length) else .ok []

structure LogTexts where
  trimHead : Nat → Nat → String
  clear : Nat → Nat → String

def applyLogChange (texts : LogTexts) (state : List T) :
    LogChange T → Except StorageError (List T)
  | .append value => .ok (state ++ [value])
  | .appendMany values => .ok (state ++ values)
  | .trimHead n =>
    if state.length < n then backendError (texts.trimHead n state.length)
    else .ok (state.drop n)
  | .clear count =>
    if count ≠ state.length then backendError (texts.clear count state.length) else .ok []

structure MapTexts where
  label : String
  missing : String
  previous : String
  clear : Nat → Nat → String

def applyMapChange (F : Type) [Float64 F] [Serde F K] [Serde F V] (texts : MapTexts)
    (state : List (K × V)) : MapChange K V → Except StorageError (List (K × V))
  | .set key value => upsertRow F texts.label Prod.fst state (key, value)
  | .delete key previous => do
      let (actual, rest) ← deleteRow F texts.label Prod.fst texts.missing state key
      if ← strictJsonEqual F texts.label actual.2 previous then return rest
      else backendError texts.previous
  | .clear count =>
    if count ≠ state.length then backendError (texts.clear count state.length) else .ok []

structure IndexTexts where
  label : String
  missing : String
  deleteMany : String
  clear : Nat → Nat → String

def applyIndexChange (F : Type) [Float64 F] [Serde F K] (texts : IndexTexts)
    (state : List (IndexRow K S V)) :
    IndexChange K S V → Except StorageError (List (IndexRow K S V))
  | .upsert primary secondary value =>
    upsertRow F texts.label IndexRow.primary state ⟨primary, secondary, value⟩
  | .delete primary => do
      return (← deleteRow F texts.label IndexRow.primary texts.missing state primary).2
  | .deleteMany primaries =>
    removeRows F texts.label IndexRow.primary texts.deleteMany state primaries
  | .clear count =>
    if count ≠ state.length then backendError (texts.clear count state.length) else .ok []

/-! ### Rows as lists -/

section RowLemmas

variable [Float64 F] {label : String} [Serde F K] [StrictJson F K] [DecidableEq K] {key : ρ → K}

theorem findFrom_eq (k : K) (i : Nat) (rows : List ρ) :
    findFrom F label key (identityBytes F k) i rows =
      .ok ((rows.findIdx? fun r => decide (key r = k)).map (· + i)) := by
  induction rows generalizing i with
  | nil => rfl
  | cons r rows ih =>
    rw [findFrom, strictJsonIdentity_eq]
    simp only [bind, Except.bind, identityBytes_inj, List.findIdx?_cons]
    by_cases hk : key r = k
    · simp [hk, pure, Except.pure]
    · simp only [hk, if_false, ih, decide_false, Bool.false_eq_true, Option.map_map]
      congr 2
      funext n
      simp only [Function.comp_apply]
      omega

/-- Bytes find the row whose key is equal. -/
theorem findRow_eq (rows : List ρ) (k : K) :
    findRow F label key rows k = .ok (rows.findIdx? fun r => decide (key r = k)) := by
  rw [findRow, strictJsonIdentity_eq]
  simp [bind, Except.bind, findFrom_eq]

variable {rows : List ρ} {i : Nat}

theorem findIdx_key {k : K} (h : rows.findIdx? (fun r => decide (key r = k)) = some i) :
    ∃ r, rows[i]? = some r ∧ key r = k := by
  obtain ⟨hlt, hkey, -⟩ := List.findIdx?_eq_some_iff_getElem.mp h
  exact ⟨rows[i], List.getElem?_eq_getElem hlt, by simpa using hkey⟩

variable {r : ρ}

theorem eraseIdx_eq_filter (hnodup : (rows.map key).Nodup) (h : rows[i]? = some r) :
    rows.eraseIdx i = rows.filter fun x => decide (key x ≠ key r) := by
  induction rows generalizing i with
  | nil => simp at h
  | cons x rows ih =>
    rw [map_cons, nodup_cons] at hnodup
    cases i with
    | zero =>
      obtain rfl : x = r := by simpa using h
      have hkeep : rows.filter (fun y => decide (key y ≠ key x)) = rows := by
        refine filter_eq_self.mpr fun y hy => decide_eq_true fun heq => ?_
        exact hnodup.1 (heq ▸ mem_map_of_mem hy)
      rw [eraseIdx_cons_zero, filter_cons_of_neg (by simp), hkeep]
    | succ i =>
      rw [List.getElem?_cons_succ] at h
      have hne : key x ≠ key r := fun heq =>
        hnodup.1 (heq ▸ mem_map_of_mem (mem_of_getElem? h))
      rw [eraseIdx_cons_succ, filter_cons_of_pos (by simpa using hne),
        ih hnodup.2 h]

theorem set_perm (hi : i < rows.length) (r : ρ) : (rows.set i r).Perm (r :: rows.eraseIdx i) := by
  induction rows generalizing i with
  | nil => simp at hi
  | cons x rows ih =>
    cases i with
    | zero => simp
    | succ i =>
      rw [set_cons_succ, eraseIdx_cons_succ]
      exact ((ih (by simpa using hi)).cons x).trans (List.Perm.swap r x _)

variable (F label) in
/-- Up to order, an upsert puts the new row before all with another key. -/
theorem upsertRow_perm (hnodup : (rows.map key).Nodup) (r : ρ) :
    ∃ rows', upsertRow F label key rows r = .ok rows' ∧
      rows'.Perm (r :: rows.filter fun x => decide (key x ≠ key r)) := by
  cases hfind : rows.findIdx? fun x => decide (key x = key r) with
  | none =>
    refine ⟨rows ++ [r], by simp [upsertRow, findRow_eq, hfind, bind, Except.bind, pure,
      Except.pure], ?_⟩
    have hkeep : rows.filter (fun x => decide (key x ≠ key r)) = rows := by
      refine filter_eq_self.mpr fun x hx => ?_
      simpa using List.findIdx?_eq_none_iff.mp hfind x hx
    rw [hkeep]
    exact perm_append_singleton r rows
  | some i =>
    obtain ⟨x, hx, hkey⟩ := findIdx_key hfind
    refine ⟨rows.set i r, by simp [upsertRow, findRow_eq, hfind, bind, Except.bind, pure,
      Except.pure], ?_⟩
    rw [← hkey, ← eraseIdx_eq_filter hnodup hx]
    exact set_perm (List.getElem?_eq_some_iff.mp hx).1 r

variable (F label) in
/-- Deleting a key that is there returns its row and filters it out. -/
theorem deleteRow_eq (hnodup : (rows.map key).Nodup) (hr : r ∈ rows) (missing : String) :
    deleteRow F label key missing rows (key r) =
      .ok (r, rows.filter fun x => decide (key x ≠ key r)) := by
  cases hfind : rows.findIdx? fun x => decide (key x = key r) with
  | none => simpa using List.findIdx?_eq_none_iff.mp hfind r hr
  | some i =>
    obtain ⟨x, hx, hkey⟩ := findIdx_key hfind
    obtain rfl : x = r := inj_on_of_nodup_map hnodup (mem_of_getElem? hx) hr hkey
    rw [deleteRow, findRow_eq, hfind]
    simp [bind, Except.bind, hx, eraseIdx_eq_filter hnodup hx, pure, Except.pure]

/-- The keys at a list of positions. -/
def keysAt (key : ρ → K) (rows : List ρ) (is : List Nat) : List K :=
  is.filterMap fun i => rows[i]?.map key

omit [DecidableEq K] in
theorem keysAt_cons (h : rows[i]? = some r) (is : List Nat) :
    keysAt key rows (i :: is) = key r :: keysAt key rows is := by
  simp [keysAt, h]

theorem findRows_eq {text : String} {ks : List K} (hks : ks.Nodup)
    (hmem : ∀ k ∈ ks, k ∈ rows.map key) (index : Nat) (seen : List K) (hseen : ∀ k ∈ ks, k ∉ seen) :
    ∃ is, findRows F label key text rows index (seen.map (identityBytes F)) ks = .ok is ∧
      (∀ i ∈ is, i < rows.length) ∧ keysAt key rows is = ks := by
  induction ks generalizing index seen with
  | nil => exact ⟨[], rfl, by simp, rfl⟩
  | cons k ks ih =>
    obtain ⟨hk, hks⟩ := nodup_cons.mp hks
    obtain ⟨r, hr, hkey⟩ := mem_map.mp (hmem k mem_cons_self)
    cases hfind : rows.findIdx? fun x => decide (key x = k) with
    | none => exact absurd hkey (by simpa using List.findIdx?_eq_none_iff.mp hfind r hr)
    | some i =>
      -- The rest is searched with this key among the seen ones.
      obtain ⟨is, his, hrange, hkeys⟩ := ih hks
        (fun k' h' => hmem k' (mem_cons_of_mem _ h')) (index + 1) (seen ++ [k])
        (fun k' h' hin => by
          rcases mem_append.mp hin with hin | hin
          · exact hseen k' (mem_cons_of_mem _ h') hin
          · rw [mem_singleton.mp hin] at h'
            exact hk h')
      have hnew : ((seen.map (identityBytes F)).any
          fun existing => decide (existing = identityBytes F k)) = false := by
        simp only [any_eq_false, mem_map, decide_eq_true_eq]
        rintro _ ⟨k', hin, rfl⟩ heq
        exact hseen k mem_cons_self ((identityBytes_inj F).mp heq ▸ hin)
      obtain ⟨x, hx, hxkey⟩ := findIdx_key hfind
      rw [map_append, map_singleton] at his
      refine ⟨i :: is, ?_, ?_, by rw [keysAt_cons hx, hkeys, hxkey]⟩
      · rw [findRows, strictJsonIdentity_eq]
        simp [bind, Except.bind, hnew, findRow_eq, hfind, his, pure, Except.pure]
      · intro j hj
        rcases mem_cons.mp hj with rfl | hj
        · exact (List.getElem?_eq_some_iff.mp hx).1
        · exact hrange j hj

theorem foldl_eraseIdx (hnodup : (rows.map key).Nodup) {is : List Nat}
    (hdesc : is.Pairwise (· > ·)) (hrange : ∀ i ∈ is, i < rows.length) :
    is.foldl List.eraseIdx rows = rows.filter fun x => decide (key x ∉ keysAt key rows is) := by
  induction is generalizing rows with
  | nil => simp [keysAt]
  | cons i is ih =>
    obtain ⟨hlt, hdesc⟩ := pairwise_cons.mp hdesc
    have hi := hrange i mem_cons_self
    have hr : rows[i]? = some rows[i] := List.getElem?_eq_getElem hi
    have hfilter := eraseIdx_eq_filter hnodup hr
    -- The positions that are left stand before the one taken out.
    have hsame : keysAt key (rows.eraseIdx i) is = keysAt key rows is := by
      refine filterMap_congr fun j hj => ?_
      rw [List.getElem?_eraseIdx_of_lt (hlt j hj)]
    rw [foldl_cons, ih ?_ hdesc ?_, hsame, hfilter, filter_filter, keysAt_cons hr]
    · refine filter_congr fun x _ => ?_
      simp [and_comm]
    · rw [hfilter]
      exact hnodup.sublist (filter_sublist.map _)
    · intro j hj
      have := hlt j hj
      rw [length_eraseIdx_of_lt hi]
      omega

omit [DecidableEq K] in
theorem nodup_of_keysAt {is : List Nat} (hrange : ∀ i ∈ is, i < rows.length)
    (h : (keysAt key rows is).Nodup) : is.Nodup := by
  induction is with
  | nil => exact nodup_nil
  | cons i is ih =>
    have hi := hrange i mem_cons_self
    have hr : rows[i]? = some rows[i] := List.getElem?_eq_getElem hi
    rw [keysAt_cons hr, nodup_cons] at h
    refine nodup_cons.mpr ⟨fun hi => h.1 ?_, ih (fun j hj => hrange j (.tail _ hj)) h.2⟩
    exact mem_filterMap.mpr ⟨i, hi, by rw [hr]; rfl⟩

variable (F label) in
/-- A delete of many distinct keys that are there filters them out. -/
theorem removeRows_eq (hnodup : (rows.map key).Nodup) {ks : List K}
    (hks : ks.Nodup) (hmem : ∀ k ∈ ks, k ∈ rows.map key) (text : String) :
    removeRows F label key text rows ks = .ok (rows.filter fun x => decide (key x ∉ ks)) := by
  have hfound : ∃ is, findRows F label key text rows 0 [] ks = .ok is ∧
      (∀ i ∈ is, i < rows.length) ∧ keysAt key rows is = ks :=
    findRows_eq hks hmem 0 [] (by simp)
  obtain ⟨is, his, hrange, hkeys⟩ := hfound
  have hperm := perm_insertionSort (· ≥ ·) is
  -- Sorted positions without repetition are strictly descending.
  have hdesc : (is.insertionSort (· ≥ ·)).Pairwise (· > ·) := by
    have hnodup' := hperm.nodup_iff.mpr (nodup_of_keysAt hrange (hkeys ▸ hks))
    refine ((pairwise_insertionSort (· ≥ ·) is).and hnodup').imp fun hab => ?_
    omega
  have hrange' : ∀ i ∈ is.insertionSort (· ≥ ·), i < rows.length := fun i hi =>
    hrange i (hperm.mem_iff.mp hi)
  have hmemkeys : ∀ k, k ∈ keysAt key rows (is.insertionSort (· ≥ ·)) ↔ k ∈ ks := by
    intro k
    rw [← hkeys]
    exact (hperm.filterMap _).mem_iff
  rw [removeRows, his]
  simp only [bind, Except.bind, pure, Except.pure, foldl_eraseIdx hnodup hdesc hrange', hmemkeys]

variable (F label) in
omit [DecidableEq K] in
theorem assertUniqueRows_eq (hnodup : (rows.map key).Nodup)
    (duplicate : Nat → String) (index : Nat) (seen : List K) (hseen : ∀ r ∈ rows, key r ∉ seen) :
    assertUniqueRows F label key duplicate index (seen.map (identityBytes F)) rows = .ok () := by
  induction rows generalizing index seen with
  | nil => rfl
  | cons r rows ih =>
    rw [map_cons, nodup_cons] at hnodup
    have hnew : ((seen.map (identityBytes F)).any
        fun existing => decide (existing = identityBytes F (key r))) = false := by
      simp only [any_eq_false, mem_map, decide_eq_true_eq]
      rintro _ ⟨k', hin, rfl⟩ heq
      exact hseen r mem_cons_self ((identityBytes_inj F).mp heq ▸ hin)
    have hrest := ih hnodup.2 (index + 1) (seen ++ [key r]) fun x hx hin => by
      rcases mem_append.mp hin with hin | hin
      · exact hseen x (mem_cons_of_mem _ hx) hin
      · rw [← mem_singleton.mp hin] at hnodup
        exact hnodup.1 (mem_map_of_mem hx)
    rw [map_append, map_singleton] at hrest
    rw [assertUniqueRows, strictJsonIdentity_eq]
    simp only [bind, Except.bind, hnew, Bool.false_eq_true, if_false, hrest]

end RowLemmas

end GraphRefly.Collections
