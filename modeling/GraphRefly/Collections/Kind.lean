import GraphRefly.Collections.Frame

/-!
# The Four Collections

What a list, a log, a map and an index have in common. A `Collection` is a
backend with rows: how its content is written as rows, how rows follow a change
when a stored collection is loaded and when a persistence mirrors it, and the
laws that tie the two to the backend. Rows that represent a content follow every
version that a mutation makes.

For a list and a log the rows are the content. For a map and an index the rows
represent the content up to their order, since a stored map keeps the order in
which its keys were first inserted.

## Main definitions

* `Collection`: A backend with its rows and their laws.
* `Follows`: Rows follow a list of versions.
* `Collection.load`: Loading a stored collection.
* `reactiveList`, `reactiveLog`, `reactiveMap`, `reactiveIndex`: The collections.

## Theorems

* `Follows.append`: Following one list of versions after another.
* `Collection.follows_calls`: Rows follow every run of mutations.
-/

namespace GraphRefly.Collections

open List GraphRefly.Json GraphRefly.Storage GraphRefly.Lib

/-- Rows that represent a content follow versions, one change at a time. -/
def Follows {B : Backend} {ρ : Type} (apply : List ρ → B.Change → Except StorageError (List ρ))
    (Represents : List ρ → B.Content → Prop) :
    B.Content → List (B.Change × B.Content) → Prop
  | _, [] => True
  | c, (change, c') :: versions =>
    (∀ state, Represents state c → ∃ state', apply state change = .ok state' ∧
      Represents state' c') ∧ Follows apply Represents c' versions

/-- A backend with its rows. -/
structure Collection (F : Type) [Float64 F] extends Backend where
  kind : ReactiveCollectionKind
  Row : Type
  serdeRow : Serde F Row
  lawfulRow : LawfulSerde F Row
  serdeChange : Serde F Change
  lawfulChange : LawfulSerde F Change
  /-- The content as the collection returns it. -/
  toRows : Content → List Row
  /-- The rows after a change, as loading applies it. -/
  fold : List Row → Change → Except StorageError (List Row)
  /-- The rows after a change, as a persistence applies it to its mirror. -/
  mirror : List Row → Change → Except StorageError (List Row)
  /-- The check of loaded rows, under a label. -/
  assertUnique : String → List Row → Except StorageError Unit
  /-- The rows are those of a content. -/
  Represents : List Row → Content → Prop
  represents_toRows : ∀ c, Represents (toRows c) c
  unique_of_represents : ∀ label state c, Represents state c → assertUnique label state = .ok ()
  unique_nil : ∀ label, assertUnique label [] = .ok ()
  fold_follows : ∀ c op, Follows (B := toBackend) fold Represents c (toBackend.call c op)
  mirror_follows : ∀ c op, Follows (B := toBackend) mirror Represents c (toBackend.call c op)

attribute [instance] Collection.serdeRow Collection.lawfulRow Collection.serdeChange
  Collection.lawfulChange

section Follows

variable {B : Backend} {ρ : Type} {apply : List ρ → B.Change → Except StorageError (List ρ)}
  {Represents : List ρ → B.Content → Prop}

variable {c : B.Content}

/-- Following one list of versions after another. -/
theorem Follows.append {xs ys : List (B.Change × B.Content)} (hxs : Follows apply Represents c xs)
    (hys : Follows apply Represents (Backend.final c xs) ys) :
    Follows apply Represents c (xs ++ ys) := by
  induction xs generalizing c with
  | nil => exact hys
  | cons version xs ih =>
    obtain ⟨change, c'⟩ := version
    exact ⟨hxs.1, ih hxs.2 hys⟩

theorem follows_calls (h : ∀ c op, Follows apply Represents c (B.call c op)) (c : B.Content)
    (ops : List B.Op) : Follows apply Represents c (B.calls c ops) := by
  induction ops generalizing c with
  | nil => trivial
  | cons op ops ih => exact (h c op).append (ih _)

theorem Follows.foldlM {versions : List (B.Change × B.Content)}
    (h : Follows apply Represents c versions) {state : List ρ} (hstate : Represents state c) :
    ∃ state', (versions.map (·.1)).foldlM apply state = .ok state' ∧
      Represents state' (Backend.final c versions) := by
  induction versions generalizing c state with
  | nil => exact ⟨state, rfl, hstate⟩
  | cons version versions ih =>
    obtain ⟨change, c'⟩ := version
    obtain ⟨next, hnext, hrep⟩ := h.1 state hstate
    obtain ⟨state', hfold, hfinal⟩ := ih h.2 hrep
    refine ⟨state', ?_, hfinal⟩
    rw [map_cons, foldlM_cons, hnext]
    exact hfold

end Follows

namespace Collection

variable {F : Type} [Float64 F]

/-- One stored change, applied to rows. -/
def foldChange (C : Collection F) (state : List C.Row) (change : Value F) :
    Except StorageError (List C.Row) := do
  C.fold state (← (fromValue change).mapError serdeError)

/-- Load a stored collection. -/
def load (C : Collection F)
    (snapshotStore : String → Except StorageError (Option (SnapshotFrame F)))
    (options : LoadOptions F) : Except StorageError (RestoreState C.Row) :=
  loadReactiveState C.kind C.foldChange C.assertUnique snapshotStore options

@[simp] theorem foldChange_toValue (C : Collection F) (state : List C.Row) (change : C.Change) :
    C.foldChange state (toValue change) = C.fold state change := by
  rw [foldChange, LawfulSerde.fromValue_toValue]
  rfl

end Collection

/-! ### Lists and logs -/

section Vec

variable (F : Type) {T : Type} [Float64 F] [Serde F T]

/-- A list change of a stored collection. -/
def foldListChange : List T → ListChange T → Except StorageError (List T) :=
  applyListChange F
    { label := ""
      insert := fun index len =>
        s!"reactiveList fold: insert index {index} is out of bounds for len {len}"
      insertMany := fun index len =>
        s!"reactiveList fold: insertMany index {index} is out of bounds for len {len}"
      pop := fun index len =>
        s!"reactiveList fold: pop index {index} is out of bounds for len {len}"
      popValue := "reactiveList fold: pop value does not match stored state"
      trimHead := fun n len => s!"reactiveList fold: trimHead {n} exceeds len {len}"
      clear := fun count len =>
        s!"reactiveList fold: clear count {count} does not match len {len}" }

/-- The label of the mirror's JSON errors. -/
def mirrorLabel : String := "reactiveCollection JSON error: "

/-- A list change of a mirror. -/
def applyListSnapshotChange : List T → ListChange T → Except StorageError (List T) :=
  applyListChange F
    { label := mirrorLabel
      insert := fun _ _ => "reactiveList persistence mirror: insert index out of bounds"
      insertMany := fun _ _ => "reactiveList persistence mirror: insertMany index out of bounds"
      pop := fun _ _ => "reactiveList persistence mirror: pop index out of bounds"
      popValue := "reactiveList persistence mirror: pop value does not match stored state"
      trimHead := fun _ _ => "reactiveList persistence mirror: trimHead out of bounds"
      clear := fun _ _ =>
        "reactiveList persistence mirror: clear count does not match stored state" }

/-- A log change of a stored collection. -/
def foldLogChange : List T → LogChange T → Except StorageError (List T) :=
  applyLogChange
    { trimHead := fun n len => s!"reactiveLog fold: trimHead {n} exceeds len {len}"
      clear := fun count len =>
        s!"reactiveLog fold: clear count {count} does not match len {len}" }

/-- A log change of a mirror. -/
def applyLogSnapshotChange : List T → LogChange T → Except StorageError (List T) :=
  applyLogChange
    { trimHead := fun _ _ => "reactiveLog persistence mirror: trimHead out of bounds"
      clear := fun _ _ =>
        "reactiveLog persistence mirror: clear count does not match stored state" }

theorem trimHeadOverflow_eq (buf : List T) (maxSize : Option ℕ+) :
    (trimHeadOverflow buf maxSize).1 ≤ buf.length ∧
      (trimHeadOverflow buf maxSize).2 = buf.drop (trimHeadOverflow buf maxSize).1 := by
  unfold trimHeadOverflow
  cases maxSize with
  | none => simp
  | some max =>
    simp only
    split_ifs
    · simp
    · exact ⟨by omega, rfl⟩

variable {F}

theorem emitTrimmed_follows (texts : ListTexts) (maxSize : Option ℕ+) (buf : List T) :
    Follows (B := listBackend T maxSize) (applyListChange F texts) Eq buf
      (ReactiveList.emitTrimmed maxSize buf) := by
  obtain ⟨hle, hdrop⟩ := trimHeadOverflow_eq buf maxSize
  rw [ReactiveList.emitTrimmed]
  simp only
  split_ifs
  · refine ⟨?_, trivial⟩
    rintro _ rfl
    refine ⟨_, ?_, hdrop.symm⟩
    rw [applyListChange, if_neg (by omega)]
  · trivial

theorem grow_follows {texts : ListTexts} {maxSize : Option ℕ+} {buf buf' : List T}
    {change : ListChange T} (h : applyListChange F texts buf change = .ok buf') :
    Follows (B := listBackend T maxSize) (applyListChange F texts) Eq buf
      (ReactiveList.grow maxSize change buf') := by
  refine ⟨?_, emitTrimmed_follows texts maxSize buf'⟩
  rintro _ rfl
  exact ⟨buf', h, rfl⟩

theorem list_follows [StrictJson F T] (texts : ListTexts) (maxSize : Option ℕ+) (buf : List T)
    (op : ListOp T) :
    Follows (B := listBackend T maxSize) (applyListChange F texts) Eq buf
      ((listBackend T maxSize).call buf op) := by
  cases op with
  | append value => exact grow_follows rfl
  | appendMany values =>
    by_cases hvalues : values.isEmpty
    · simp [Backend.call, listBackend, ReactiveList.mutate, hvalues, Follows]
    · simp only [Backend.call, listBackend, ReactiveList.mutate, hvalues]
      exact grow_follows rfl
  | insert index value =>
    by_cases hindex : index ≤ buf.length
    · simp only [Backend.call, listBackend, ReactiveList.mutate, hindex, if_true]
      exact grow_follows (by rw [applyListChange, if_neg (by omega)])
    · simp [Backend.call, listBackend, ReactiveList.mutate, hindex, Follows]
  | insertMany index values =>
    by_cases hindex : index ≤ buf.length
    · by_cases hvalues : values.isEmpty
      · simp [Backend.call, listBackend, ReactiveList.mutate, hindex, hvalues, Follows]
      · simp only [Backend.call, listBackend, ReactiveList.mutate, hindex, hvalues, if_true]
        exact grow_follows (by rw [applyListChange, if_neg (by omega)])
    · simp [Backend.call, listBackend, ReactiveList.mutate, hindex, Follows]
  | pop index =>
    simp only [Backend.call, listBackend, ReactiveList.mutate]
    by_cases hempty : buf.isEmpty
    · simp [hempty, Follows]
    · simp only [hempty, Bool.false_eq_true, if_false]
      cases hfound : (normalizeReadIndex (index.getD (-1)) buf.length).bind
          fun i => buf[i]?.map (i, ·) with
      | none => trivial
      | some found =>
        -- The popped value is the one the rows have at that position.
        obtain ⟨i, value⟩ := found
        obtain ⟨j, -, hj⟩ := Option.bind_eq_some_iff.mp hfound
        obtain ⟨x, hx, hpair⟩ := Option.map_eq_some_iff.mp hj
        obtain ⟨rfl, rfl⟩ := Prod.mk.inj hpair
        refine ⟨?_, trivial⟩
        rintro state rfl
        refine ⟨state.eraseIdx j, ?_, rfl⟩
        simp [applyListChange, hx, strictJsonEqual_self, bind, Except.bind, pure, Except.pure]
  | clear =>
    by_cases hlen : buf.length = 0
    · simp [Backend.call, listBackend, ReactiveList.mutate, hlen, Follows]
    · simp only [Backend.call, listBackend, ReactiveList.mutate, hlen, if_false]
      refine ⟨?_, trivial⟩
      rintro _ rfl
      exact ⟨[], by simp [applyListChange], rfl⟩

omit [Float64 F] [Serde F T] in
theorem log_follows (texts : LogTexts) (maxSize : Option ℕ+) (buf : List T) (op : LogOp T) :
    Follows (B := logBackend T maxSize) (applyLogChange texts) Eq buf
      ((logBackend T maxSize).call buf op) := by
  have htrim (buf : List T) : Follows (B := logBackend T maxSize) (applyLogChange texts) Eq buf
      (ReactiveLog.emitTrimmed maxSize buf) := by
    obtain ⟨hle, hdrop⟩ := trimHeadOverflow_eq buf maxSize
    rw [ReactiveLog.emitTrimmed]
    simp only
    split_ifs
    · refine ⟨?_, trivial⟩
      rintro _ rfl
      refine ⟨_, ?_, hdrop.symm⟩
      rw [applyLogChange, if_neg (by omega)]
    · trivial
  cases op with
  | append value =>
    refine ⟨?_, htrim _⟩
    rintro _ rfl
    exact ⟨_, rfl, rfl⟩
  | appendMany values =>
    by_cases hvalues : values.isEmpty
    · simp [Backend.call, logBackend, ReactiveLog.mutate, hvalues, Follows]
    · simp only [Backend.call, logBackend, ReactiveLog.mutate, hvalues]
      refine ⟨?_, htrim _⟩
      rintro _ rfl
      exact ⟨_, rfl, rfl⟩
  | clear =>
    by_cases hlen : buf.length = 0
    · simp [Backend.call, logBackend, ReactiveLog.mutate, hlen, Follows]
    · simp only [Backend.call, logBackend, ReactiveLog.mutate, hlen, if_false]
      refine ⟨?_, trivial⟩
      rintro _ rfl
      exact ⟨[], by simp [applyLogChange], rfl⟩
  | trimHead n =>
    by_cases hzero : min n buf.length = 0
    · simp [Backend.call, logBackend, ReactiveLog.mutate, hzero, Follows]
    · simp only [Backend.call, logBackend, ReactiveLog.mutate, hzero, if_false]
      refine ⟨?_, trivial⟩
      rintro _ rfl
      refine ⟨_, ?_, rfl⟩
      rw [applyLogChange, if_neg (by omega)]

end Vec

/-- A list over a type of elements, with a capacity. -/
def reactiveList (F T : Type) [Float64 F] [Serde F T] [StrictJson F T] (maxSize : Option ℕ+) :
    Collection F where
  toBackend := listBackend T maxSize
  kind := .reactiveList
  Row := T
  serdeRow := inferInstance
  lawfulRow := inferInstance
  serdeChange := ListChange.serde
  lawfulChange := ListChange.lawfulSerde
  toRows := id
  fold := foldListChange F
  mirror := applyListSnapshotChange F
  assertUnique := fun _ _ => .ok ()
  Represents := Eq
  represents_toRows := fun _ => rfl
  unique_of_represents := fun _ _ _ _ => rfl
  unique_nil := fun _ => rfl
  fold_follows := list_follows _ maxSize
  mirror_follows := list_follows _ maxSize

/-- A log over a type of elements, with a capacity. -/
def reactiveLog (F T : Type) [Float64 F] [Serde F T] [StrictJson F T] (maxSize : Option ℕ+) :
    Collection F where
  toBackend := logBackend T maxSize
  kind := .reactiveLog
  Row := T
  serdeRow := inferInstance
  lawfulRow := inferInstance
  serdeChange := LogChange.serde
  lawfulChange := LogChange.lawfulSerde
  toRows := id
  fold := foldLogChange
  mirror := applyLogSnapshotChange
  assertUnique := fun _ _ => .ok ()
  Represents := Eq
  represents_toRows := fun _ => rfl
  unique_of_represents := fun _ _ _ _ => rfl
  unique_nil := fun _ => rfl
  fold_follows := log_follows _ maxSize
  mirror_follows := log_follows _ maxSize

/-! ### Maps and indexes -/

section Rows

variable (F : Type) {K S V : Type} [Float64 F] [Serde F K] [Serde F V]

/-- A map change of a stored collection. -/
def foldMapChange : List (K × V) → MapChange K V → Except StorageError (List (K × V)) :=
  applyMapChange F
    { label := ""
      missing := "reactiveMap fold: delete key is missing"
      previous := "reactiveMap fold: delete previous value does not match stored state"
      clear := fun count len =>
        s!"reactiveMap fold: clear count {count} does not match len {len}" }

/-- A map change of a mirror. -/
def applyMapSnapshotChange : List (K × V) → MapChange K V → Except StorageError (List (K × V)) :=
  applyMapChange F
    { label := mirrorLabel
      missing := "reactiveMap persistence mirror: delete key is missing"
      previous :=
        "reactiveMap persistence mirror: delete previous value does not match stored state"
      clear := fun _ _ =>
        "reactiveMap persistence mirror: clear count does not match stored state" }

/-- An index change of a stored collection. -/
def foldIndexChange : List (IndexRow K S V) → IndexChange K S V →
    Except StorageError (List (IndexRow K S V)) :=
  applyIndexChange F
    { label := ""
      missing := "reactiveIndex fold: delete primary is missing"
      deleteMany := "reactiveIndex fold: deleteMany primary"
      clear := fun count len =>
        s!"reactiveIndex fold: clear count {count} does not match len {len}" }

/-- An index change of a mirror. -/
def applyIndexSnapshotChange : List (IndexRow K S V) → IndexChange K S V →
    Except StorageError (List (IndexRow K S V)) :=
  applyIndexChange F
    { label := mirrorLabel
      missing := "reactiveIndex persistence mirror: delete primary is missing"
      deleteMany := "reactiveIndex persistence mirror: deleteMany primary"
      clear := fun _ _ =>
        "reactiveIndex persistence mirror: clear count does not match stored state" }

/-- No two entries of a loaded map have the same key. -/
def assertUniqueMapKeys (label : String) (entries : List (K × V)) : Except StorageError Unit :=
  assertUniqueRows F "" Prod.fst
    (fun index => s!"{label}: entry {index} duplicates an earlier key") 0 [] entries

/-- No two rows of a loaded index have the same primary key. -/
def assertUniqueIndexPrimaries (label : String) (rows : List (IndexRow K S V)) :
    Except StorageError Unit :=
  assertUniqueRows F "" IndexRow.primary
    (fun index => s!"{label}: row {index} duplicates an earlier primary") 0 [] rows

variable {F} [LinearOrder K] [LinearOrder S]

/-- The rows of a map, in any order. -/
def MapRows (state : List (K × V)) (rows : SortedMap K V) : Prop := state.Perm rows.entries

/-- The rows of an index, in any order. -/
def IndexRows (state : List (IndexRow K S V)) (rows : SortedMap K (S × V)) : Prop :=
  state.Perm (rows.entries.map ReactiveIndex.row)

theorem MapRows.nodup {state : List (K × V)} {rows : SortedMap K V} (h : MapRows state rows) :
    (state.map Prod.fst).Nodup :=
  (h.map _).nodup_iff.mpr rows.nodup_keys

variable {state : List (IndexRow K S V)} {rows : SortedMap K (S × V)}

theorem IndexRows.nodup (h : IndexRows state rows) : (state.map IndexRow.primary).Nodup := by
  refine (h.map _).nodup_iff.mpr ?_
  rw [map_map]
  exact rows.nodup_keys

theorem IndexRows.filter (h : IndexRows state rows) (p : K → Bool) :
    (state.filter fun r => p r.primary).Perm
      ((rows.entries.filter fun e => p e.1).map ReactiveIndex.row) := by
  refine (List.Perm.filter _ h).trans ?_
  rw [filter_map]
  exact List.Perm.refl _

variable [StrictJson F K] [StrictJson F V]

section

variable (texts : MapTexts) (rows : SortedMap K V)

theorem map_set_follows (key : K) (value : V) :
    Follows (B := mapBackend K V) (applyMapChange F texts) MapRows rows
      (ReactiveMap.set rows key value) := by
  refine ⟨fun state hstate => ?_, trivial⟩
  obtain ⟨state', hupsert, hperm⟩ :=
    upsertRow_perm F texts.label hstate.nodup (key, value)
  refine ⟨state', hupsert, hperm.trans ?_⟩
  exact ((hstate.filter _).cons _).trans (rows.insert_perm key value).symm

theorem map_delete_follows (key : K) :
    Follows (B := mapBackend K V) (applyMapChange F texts) MapRows rows
      (ReactiveMap.delete rows key) := by
  cases hlookup : rows.lookup key with
  | none => simp [ReactiveMap.delete, hlookup, Follows]
  | some previous =>
    simp only [ReactiveMap.delete, hlookup]
    refine ⟨fun state hstate => ?_, trivial⟩
    have hmem : (key, previous) ∈ state :=
      hstate.mem_iff.mpr (SortedMap.lookup_eq_some hlookup)
    have hdelete := deleteRow_eq F texts.label hstate.nodup hmem texts.missing
    refine ⟨state.filter fun e => decide (e.1 ≠ key), ?_, hstate.filter _⟩
    simp [applyMapChange, hdelete, strictJsonEqual_self, bind, Except.bind, pure, Except.pure]

theorem map_setMany_follows (entries : List (K × V)) :
    Follows (B := mapBackend K V) (applyMapChange F texts) MapRows rows
      (ReactiveMap.setMany rows entries) := by
  induction entries generalizing rows with
  | nil => trivial
  | cons entry entries ih => exact (map_set_follows texts rows entry.1 entry.2).append (ih _)

theorem map_deleteMany_follows (keys : List K) :
    Follows (B := mapBackend K V) (applyMapChange F texts) MapRows rows
      (ReactiveMap.deleteMany rows keys) := by
  induction keys generalizing rows with
  | nil => trivial
  | cons key keys ih =>
    refine (map_delete_follows texts rows key).append ?_
    -- After a delete, found or not, the key is gone.
    have hfinal : Backend.final (B := mapBackend K V) rows (ReactiveMap.delete rows key) =
        rows.erase key := by
      cases hlookup : rows.lookup key with
      | some previous =>
        simp only [ReactiveMap.delete, hlookup]
        rfl
      | none =>
        simp only [ReactiveMap.delete, hlookup]
        refine SortedMap.ext (filter_eq_self.mpr fun e he => ?_).symm
        exact decide_eq_true (SortedMap.lookup_eq_none.mp hlookup e he)
    rw [hfinal]
    exact ih _

theorem clear_follows {B : Backend} {ρ : Type}
    {apply : List ρ → B.Change → Except StorageError (List ρ)}
    {Represents : List ρ → B.Content → Prop} {c c' : B.Content} {change : B.Change} {n : Nat}
    (hlen : ∀ state, Represents state c → state.length = n)
    (happly : ∀ state, state.length = n → apply state change = .ok [])
    (hempty : Represents [] c') : Follows apply Represents c [(change, c')] :=
  ⟨fun state hstate => ⟨[], happly state (hlen state hstate), hempty⟩, trivial⟩

theorem map_follows (op : MapOp K V) :
    Follows (B := mapBackend K V) (applyMapChange F texts) MapRows rows
      ((mapBackend K V).call rows op) := by
  cases op with
  | set key value => exact map_set_follows texts rows key value
  | setMany entries => exact map_setMany_follows texts rows entries
  | delete key => exact map_delete_follows texts rows key
  | deleteMany keys => exact map_deleteMany_follows texts rows keys
  | clear =>
    by_cases hlen : rows.length = 0
    · simp [Backend.call, mapBackend, ReactiveMap.mutate, hlen, Follows]
    · simp only [Backend.call, mapBackend, ReactiveMap.mutate, hlen, if_false]
      refine clear_follows (n := rows.length) (fun state hstate => hstate.length_eq)
        (fun state hstate => by simp [applyMapChange, hstate]) (List.Perm.refl [])

end

omit [Float64 F] [Serde F K] [Serde F V] [LinearOrder S] [StrictJson F K] [StrictJson F V] in
/-- A delete of many returns distinct keys that were there, and the map without
    them. -/
theorem removeMany_spec (rows : SortedMap K (S × V)) (primaries : List K) :
    (ReactiveIndex.removeMany rows primaries).1.Nodup ∧
      (∀ k ∈ (ReactiveIndex.removeMany rows primaries).1, k ∈ rows.entries.map (·.1)) ∧
      (ReactiveIndex.removeMany rows primaries).2.entries =
        rows.entries.filter fun e => decide (e.1 ∉ (ReactiveIndex.removeMany rows
          primaries).1) := by
  induction primaries generalizing rows with
  | nil => simp [ReactiveIndex.removeMany]
  | cons primary primaries ih =>
    obtain ⟨hnodup, hmem, hrest⟩ := ih (rows.erase primary)
    -- What is removed later is another key of the map.
    have hlater : ∀ k ∈ (ReactiveIndex.removeMany (rows.erase primary) primaries).1,
        k ∈ rows.entries.map (·.1) ∧ k ≠ primary := by
      intro k hk
      obtain ⟨e, he, rfl⟩ := mem_map.mp (hmem k hk)
      obtain ⟨he, hne⟩ := mem_filter.mp he
      exact ⟨mem_map_of_mem he, of_decide_eq_true hne⟩
    rw [SortedMap.entries_erase, filter_filter] at hrest
    cases hlookup : rows.lookup primary with
    | some found =>
      simp only [ReactiveIndex.removeMany, hlookup, Option.isSome_some, if_true]
      refine ⟨nodup_cons.mpr ⟨fun hin => (hlater primary hin).2 rfl, hnodup⟩, ?_, ?_⟩
      · intro k hk
        rcases mem_cons.mp hk with rfl | hk
        · exact mem_map.mpr ⟨_, SortedMap.lookup_eq_some hlookup, rfl⟩
        · exact (hlater k hk).1
      · rw [hrest]
        refine filter_congr fun e _ => ?_
        rw [← Bool.decide_and, decide_eq_decide, mem_cons, not_or, and_comm]
    | none =>
      simp only [ReactiveIndex.removeMany, hlookup, Option.isSome_none, Bool.false_eq_true,
        if_false]
      refine ⟨hnodup, fun k hk => (hlater k hk).1, ?_⟩
      rw [hrest]
      refine filter_congr fun e he => ?_
      simp [SortedMap.lookup_eq_none.mp hlookup e he]

omit [Serde F V] [StrictJson F V] in
theorem index_follows (texts : IndexTexts) (rows : SortedMap K (S × V)) (op : IndexOp K S V) :
    Follows (B := indexBackend K S V) (applyIndexChange F texts) IndexRows rows
      ((indexBackend K S V).call rows op) := by
  cases op with
  | upsert primary secondary value =>
    refine ⟨fun state hstate => ?_, trivial⟩
    obtain ⟨state', hupsert, hperm⟩ :=
      upsertRow_perm F texts.label hstate.nodup ⟨primary, secondary, value⟩
    refine ⟨state', hupsert, hperm.trans ?_⟩
    have hinsert := (rows.insert_perm primary (secondary, value)).map ReactiveIndex.row
    rw [map_cons] at hinsert
    exact ((hstate.filter fun k => decide (k ≠ primary)).cons _).trans hinsert.symm
  | delete primary =>
    cases hlookup : rows.lookup primary with
    | none => simp [Backend.call, indexBackend, ReactiveIndex.mutate, hlookup, Follows]
    | some found =>
      simp only [Backend.call, indexBackend, ReactiveIndex.mutate, hlookup,
        Option.isSome_some, if_true]
      refine ⟨fun state hstate => ?_, trivial⟩
      have hmem : (⟨primary, found.1, found.2⟩ : IndexRow K S V) ∈ state :=
        hstate.mem_iff.mpr (mem_map.mpr ⟨_, SortedMap.lookup_eq_some hlookup, rfl⟩)
      have hdelete := deleteRow_eq F texts.label hstate.nodup hmem texts.missing
      refine ⟨state.filter fun r => decide (r.primary ≠ primary), ?_,
        hstate.filter fun k => decide (k ≠ primary)⟩
      simp [applyIndexChange, hdelete, bind, Except.bind, pure, Except.pure]
  | deleteMany primaries =>
    obtain ⟨hnodup, hmem, hrest⟩ := removeMany_spec rows primaries
    simp only [Backend.call, indexBackend, ReactiveIndex.mutate]
    by_cases hempty : (ReactiveIndex.removeMany rows primaries).1.isEmpty
    · simp [hempty, Follows]
    · simp only [hempty, Bool.false_eq_true, if_false]
      refine ⟨fun state hstate => ?_, trivial⟩
      have hin : ∀ k ∈ (ReactiveIndex.removeMany rows primaries).1,
          k ∈ state.map IndexRow.primary := by
        intro k hk
        refine (hstate.map IndexRow.primary).mem_iff.mpr ?_
        rw [map_map]
        exact hmem k hk
      refine ⟨_, removeRows_eq F texts.label hstate.nodup hnodup hin texts.deleteMany, ?_⟩
      rw [IndexRows, hrest]
      exact hstate.filter fun k => decide (k ∉ (ReactiveIndex.removeMany rows primaries).1)
  | clear =>
    by_cases hlen : rows.length = 0
    · simp [Backend.call, indexBackend, ReactiveIndex.mutate, hlen, Follows]
    · simp only [Backend.call, indexBackend, ReactiveIndex.mutate, hlen, if_false]
      refine clear_follows (n := rows.length)
        (fun state hstate => by rw [hstate.length_eq, length_map]; rfl)
        (fun state hstate => by simp [applyIndexChange, hstate]) (List.Perm.refl [])

end Rows

/-- A map over types of keys and values. -/
def reactiveMap (F K V : Type) [Float64 F] [LinearOrder K] [Serde F K] [Serde F V]
    [StrictJson F K] [StrictJson F V] : Collection F where
  toBackend := mapBackend K V
  kind := .reactiveMap
  Row := K × V
  serdeRow := inferInstance
  lawfulRow := inferInstance
  serdeChange := MapChange.serde
  lawfulChange := MapChange.lawfulSerde
  toRows := SortedMap.entries
  fold := foldMapChange F
  mirror := applyMapSnapshotChange F
  assertUnique := assertUniqueMapKeys F
  Represents := MapRows
  represents_toRows := fun _ => List.Perm.refl _
  unique_of_represents := fun _ _ _ h => assertUniqueRows_eq F "" h.nodup _ 0 [] (by simp)
  unique_nil := fun _ => rfl
  fold_follows := map_follows _
  mirror_follows := map_follows _

/-- An index over types of primary keys, secondary keys and values. -/
def reactiveIndex (F K S V : Type) [Float64 F] [LinearOrder K] [LinearOrder S] [Serde F K]
    [Serde F S] [Serde F V] [StrictJson F K] [StrictJson F S] [StrictJson F V] :
    Collection F where
  toBackend := indexBackend K S V
  kind := .reactiveIndex
  Row := IndexRow K S V
  serdeRow := inferInstance
  lawfulRow := inferInstance
  serdeChange := IndexChange.serde
  lawfulChange := IndexChange.lawfulSerde
  toRows := ReactiveIndex.toVec
  fold := foldIndexChange F
  mirror := applyIndexSnapshotChange F
  assertUnique := assertUniqueIndexPrimaries F
  Represents := IndexRows
  represents_toRows := fun _ => perm_insertionSort _ _
  unique_of_represents := fun _ _ _ h => assertUniqueRows_eq F "" h.nodup _ 0 [] (by simp)
  unique_nil := fun _ => rfl
  fold_follows := index_follows _
  mirror_follows := index_follows _

end GraphRefly.Collections
