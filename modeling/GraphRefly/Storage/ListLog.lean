import GraphRefly.Storage.LogRead
import GraphRefly.Storage.Versioned

/-!
# The Append Log as a List

The append log keeps nothing but its keys. Every operation lists them, reads
their numbers and works on what it finds. What comes out is a list of numbered
values in the order of their numbers: an append puts a value behind the last
number, a read takes a stretch, a truncation cuts the end off.

`ListLog.step` is that list; `runLog` runs either of the two through the same
operations. A tier may hold keys under the log's head that are no keys of a log.
Then every operation of the log fails and leaves the tier as it was.

## Main definitions

* `ErasableTier`: A tier that also deletes.
* `LogOp`, `AppendLogStorage.step`: The operations of a log over a tier.
* `ListLog.step`: The same operations on a list.
* `runLog`: Some operations in a row.

## Theorems

* `Stores.step`: An operation of the log is the operation of the list.
* `stores_or_foreign`: A tier holds a log, or a key that is none of a log.
* `append_log_refines_list`: Every run over every tier is the run of the list.
-/

namespace GraphRefly.Storage

open List

variable {σ V : Type}

/-- A tier that also deletes. -/
structure ErasableTier (σ V : Type) extends KvStorageTier σ V where
  delete : σ → String → σ
  get_delete : ∀ s key k, get (delete s key) k = if k = key then none else get s k

/-- Delete the entries after a number. -/
def deleteAppendLogEntriesAfter (kv : ErasableTier σ V) (pre : String) (s : σ) (seq : Nat) :
    Except StorageError σ := do
  let keys ← (kv.list s (logHead pre)).mapM fun key =>
    (seqFromKey pre key).map fun parsed => (key, parsed)
  return keys.foldl (fun s k => if seq < k.2 then kv.delete s k.1 else s) s

/-- How many keys a listing has, if all of them spell numbers. -/
def sizeFromKeys (pre : String) (keys : List String) : Except StorageError Nat := do
  forM keys fun key => (seqFromKey pre key).map fun _ => ()
  return keys.length

/-- What a log is asked. -/
inductive LogOp (V : Type)
  | append (value : V)
  | truncateAfter (seq : Nat)
  | read (after limit : Option Nat)
  | size

/-- What a log answers. -/
inductive LogReply (V : Type)
  | appended (entry : AppendLogEntry V)
  | truncated
  | entries (entries : List (AppendLogEntry V))
  | size (size : Nat)

/-- One operation of a log over a tier. -/
def AppendLogStorage.step (kv : ErasableTier σ V) (pre : String) (s : σ) :
    LogOp V → Except StorageError (LogReply V × σ)
  | .append value => do
      let (entry, s') ← AppendLogStorage.append kv.toKvStorageTier pre s value
      return (.appended entry, s')
  | .truncateAfter seq => do
      let s' ← deleteAppendLogEntriesAfter kv pre s seq
      return (.truncated, s')
  | .read after limit => do
      let entries ← readAppendLogEntries kv.toKvStorageTier pre s after limit
      return (.entries entries, s)
  | .size => do
      let size ← sizeFromKeys pre (kv.list s (logHead pre))
      return (.size size, s)

/-- The stretch of a log after a number, cut to a limit. -/
def stretch (es : List (Nat × V)) (after limit : Option Nat) : List (Nat × V) :=
  limit.elim (es.filter fun e => isAfter after e.1) (es.filter fun e => isAfter after e.1).take

/-- One operation on a list of numbered values. -/
def ListLog.step (pre : String) (es : List (Nat × V)) :
    LogOp V → Except StorageError (LogReply V × List (Nat × V))
  | .append value =>
    match (es.map (·.1)).max? with
    | none => .ok (.appended (entryOf pre (0, value)), es ++ [(0, value)])
    | some last =>
      if last = u64Max then .error (outOfRange pre)
      else .ok (.appended (entryOf pre (last + 1, value)), es ++ [(last + 1, value)])
  | .truncateAfter seq => .ok (.truncated, es.filter fun e => decide (e.1 ≤ seq))
  | .read after limit => .ok (.entries ((stretch es after limit).map (entryOf pre)), es)
  | .size => .ok (.size es.length, es)

/-- Some operations in a row. One that fails leaves the state as it was. -/
def runLog {τ : Type} (step : τ → LogOp V → Except StorageError (LogReply V × τ)) :
    τ → List (LogOp V) → List (Except StorageError (LogReply V)) × τ
  | s, [] => ([], s)
  | s, op :: ops =>
    match step s op with
    | .ok (reply, s') => (.ok reply :: (runLog step s' ops).1, (runLog step s' ops).2)
    | .error e => (.error e :: (runLog step s ops).1, (runLog step s ops).2)

/-! ### One operation -/

variable {kv : ErasableTier σ V} {pre : String} {s : σ} {es : List (Nat × V)}

theorem Stores.nextSeq (h : Stores kv.toKvStorageTier pre s es) :
    nextSeqFromKeys pre (kv.list s (logHead pre)) =
      match (es.map (·.1)).max? with
      | none => .ok 0
      | some last => if last = u64Max then .error (outOfRange pre) else .ok (last + 1) := by
  obtain ⟨seqs, hread, hsound, hcomplete⟩ := mapM_seqFromKey pre fun key hkey => by
    obtain ⟨e, he, heq⟩ := (h.mem_list key).mp hkey
    exact ⟨e.1, h.bound e he, heq⟩
  have hmem : ∀ seq, seq ∈ seqs ↔ seq ∈ es.map (·.1) := by
    intro seq
    rw [mem_map]
    constructor
    · intro hseq
      obtain ⟨hle, hkey⟩ := hsound seq hseq
      obtain ⟨e, he, heq⟩ := (h.mem_list _).mp hkey
      exact ⟨e, he, (appendLogKey_inj pre hle (h.bound e he) heq).symm⟩
    · rintro ⟨e, he, rfl⟩
      exact hcomplete e.1 (h.bound e he) ((h.mem_list _).mpr ⟨e, he, rfl⟩)
  have hmax : seqs.max? = (es.map (·.1)).max? := by
    cases hes : (es.map (·.1)).max? with
    | none =>
      rw [List.max?_eq_none_iff] at hes ⊢
      refine eq_nil_iff_forall_not_mem.mpr fun seq hseq => ?_
      have := (hmem seq).mp hseq
      rw [hes] at this
      exact absurd this not_mem_nil
    | some last =>
      obtain ⟨hlast, hle⟩ := List.max?_eq_some_iff.mp hes
      exact List.max?_eq_some_iff.mpr
        ⟨(hmem last).mpr hlast, fun seq hseq => hle seq ((hmem seq).mp hseq)⟩
  cases hlast : (es.map (·.1)).max? with
  | none => simp only [nextSeqFromKeys, hread, hmax, hlast]
  | some last => simp only [nextSeqFromKeys, hread, hmax, hlast]

theorem Stores.concat (h : Stores kv.toKvStorageTier pre s es) {seq : Nat} (hle : seq ≤ u64Max)
    (hlast : ∀ e ∈ es, e.1 < seq) (v : V) :
    Stores kv.toKvStorageTier pre (kv.set s (appendLogKey pre seq) v) (es ++ [(seq, v)]) where
  sorted := by
    refine pairwise_append.mpr ⟨h.sorted, pairwise_singleton _ _, ?_⟩
    intro a ha b hb
    rw [mem_singleton.mp hb]
    exact hlast a ha
  bound := by
    intro e he
    rcases mem_append.mp he with he | he
    · exact h.bound e he
    · rw [mem_singleton.mp he]
      exact hle
  keys := by
    intro key hsome hhead
    rw [kv.get_set] at hsome
    by_cases hkey : key = appendLogKey pre seq
    · exact ⟨(seq, v), mem_append_right _ (mem_singleton_self _), hkey⟩
    · rw [if_neg hkey] at hsome
      obtain ⟨e, he, heq⟩ := h.keys key hsome hhead
      exact ⟨e, mem_append_left _ he, heq⟩
  values := by
    intro e he
    rw [kv.get_set]
    rcases mem_append.mp he with he | he
    · have hne : appendLogKey pre e.1 ≠ appendLogKey pre seq := fun heq =>
        absurd (appendLogKey_inj pre (h.bound e he) hle heq) (Nat.ne_of_lt (hlast e he))
      rw [if_neg hne, h.values e he]
    · rw [mem_singleton.mp he, if_pos rfl]

theorem get_foldl_delete (keys : List (String × Nat)) (seq : Nat) (s : σ) (key : String) :
    kv.get (keys.foldl (fun s k => if seq < k.2 then kv.delete s k.1 else s) s) key =
      if ∃ k ∈ keys, seq < k.2 ∧ k.1 = key then none else kv.get s key := by
  induction keys generalizing s with
  | nil => simp
  | cons k keys ih =>
    rw [foldl_cons, ih]
    by_cases hrest : ∃ k' ∈ keys, seq < k'.2 ∧ k'.1 = key
    · obtain ⟨k', hk', hafter⟩ := hrest
      rw [if_pos ⟨k', hk', hafter⟩, if_pos ⟨k', mem_cons_of_mem _ hk', hafter⟩]
    · rw [if_neg hrest]
      by_cases hk : seq < k.2 ∧ k.1 = key
      · rw [if_pos hk.1, if_pos ⟨k, mem_cons_self, hk⟩, kv.get_delete, if_pos hk.2.symm]
      · have hnone : ¬ ∃ k' ∈ k :: keys, seq < k'.2 ∧ k'.1 = key := by
          rintro ⟨k', hk', hafter⟩
          rcases mem_cons.mp hk' with rfl | hk'
          · exact hk hafter
          · exact hrest ⟨k', hk', hafter⟩
        rw [if_neg hnone]
        by_cases hafter : seq < k.2
        · have hne : key ≠ k.1 := fun heq => hk ⟨hafter, heq.symm⟩
          rw [if_pos hafter, kv.get_delete, if_neg hne]
        · rw [if_neg hafter]

theorem Stores.truncate (h : Stores kv.toKvStorageTier pre s es) (seq : Nat) :
    ∃ s', deleteAppendLogEntriesAfter kv pre s seq = .ok s' ∧
      Stores kv.toKvStorageTier pre s' (es.filter fun e => decide (e.1 ≤ seq)) := by
  obtain ⟨keys, hkeys, -, hperm⟩ := h.keys_perm
  refine ⟨_, by rw [deleteAppendLogEntriesAfter, hkeys]; rfl, ?_⟩
  -- A key is deleted when it is the key of an entry after the number.
  have hgone : ∀ key, (∃ k ∈ keys, seq < k.2 ∧ k.1 = key) ↔
      ∃ e ∈ es, seq < e.1 ∧ appendLogKey pre e.1 = key := by
    intro key
    constructor
    · rintro ⟨k, hk, hafter, rfl⟩
      obtain ⟨e, he, rfl⟩ := mem_map.mp (hperm.mem_iff.mp hk)
      exact ⟨e, he, hafter, rfl⟩
    · rintro ⟨e, he, hafter, rfl⟩
      exact ⟨keyOf pre e, hperm.mem_iff.mpr (mem_map_of_mem he), hafter, rfl⟩
  refine ⟨h.sorted.filter _, fun e he => h.bound e (mem_filter.mp he).1, ?_, ?_⟩
  · intro key hsome hhead
    rw [get_foldl_delete] at hsome
    split_ifs at hsome with hdel
    · cases hsome
    · obtain ⟨e, he, rfl⟩ := h.keys key hsome hhead
      refine ⟨e, mem_filter.mpr ⟨he, ?_⟩, rfl⟩
      by_contra hle
      refine hdel ((hgone _).mpr ⟨e, he, ?_, rfl⟩)
      simpa using hle
  · intro e he
    obtain ⟨hmem, hle⟩ := mem_filter.mp he
    have hkept : ¬ ∃ k ∈ keys, seq < k.2 ∧ k.1 = appendLogKey pre e.1 := by
      intro hdel
      obtain ⟨e', he', hafter, heq⟩ := (hgone _).mp hdel
      have := appendLogKey_inj pre (h.bound e' he') (h.bound e hmem) heq
      have hle' : e.1 ≤ seq := by simpa using hle
      omega
    rw [get_foldl_delete, if_neg hkept, h.values e hmem]

theorem forM_parse {keys : List String}
    (h : ∀ key ∈ keys, ∃ seq ≤ u64Max, key = appendLogKey pre seq) :
    (forM keys fun key => (seqFromKey pre key).map fun _ => ()) = .ok () := by
  induction keys with
  | nil => rfl
  | cons key keys ih =>
    obtain ⟨seq, hle, rfl⟩ := h key mem_cons_self
    rw [forM_cons, seqFromKey_appendLogKey pre hle]
    exact ih fun k hk => h k (mem_cons_of_mem _ hk)

theorem Stores.size (h : Stores kv.toKvStorageTier pre s es) :
    sizeFromKeys pre (kv.list s (logHead pre)) = .ok es.length := by
  obtain ⟨keys, -, hmap, hperm⟩ := h.keys_perm
  have hparse : (forM (kv.list s (logHead pre)) fun key =>
      (seqFromKey pre key).map fun _ => ()) = .ok () := forM_parse fun key hkey => by
    obtain ⟨e, he, heq⟩ := (h.mem_list key).mp hkey
    exact ⟨e.1, h.bound e he, heq⟩
  have hlen : (kv.list s (logHead pre)).length = es.length := by
    rw [← hmap, length_map, hperm.length_eq, length_map]
  rw [sizeFromKeys, hparse, hlen]
  rfl

/-- An operation of the log is the operation of the list. -/
theorem Stores.step (h : Stores kv.toKvStorageTier pre s es) (op : LogOp V) :
    (∃ e, AppendLogStorage.step kv pre s op = .error e ∧ ListLog.step pre es op = .error e) ∨
    ∃ reply s' es', AppendLogStorage.step kv pre s op = .ok (reply, s') ∧
      ListLog.step pre es op = .ok (reply, es') ∧ Stores kv.toKvStorageTier pre s' es' := by
  cases op with
  | append v =>
    have hnext := h.nextSeq
    unfold AppendLogStorage.step AppendLogStorage.append ListLog.step
    cases hmax : (es.map (·.1)).max? with
    | none =>
      rw [hmax] at hnext
      rw [List.max?_eq_none_iff, map_eq_nil_iff] at hmax
      subst hmax
      refine .inr ⟨_, _, _, by rw [hnext]; rfl, rfl, h.concat (Nat.zero_le _) ?_ v⟩
      exact fun e he => absurd he not_mem_nil
    | some last =>
      rw [hmax] at hnext
      simp only at hnext ⊢
      obtain ⟨hlast, hle⟩ := List.max?_eq_some_iff.mp hmax
      obtain ⟨e, he, rfl⟩ := mem_map.mp hlast
      have hbound := h.bound e he
      by_cases hfull : e.1 = u64Max
      · -- Behind the largest number there is none.
        rw [if_pos hfull] at hnext ⊢
        exact .inl ⟨_, by rw [hnext]; rfl, rfl⟩
      · rw [if_neg hfull] at hnext ⊢
        refine .inr ⟨_, _, _, by rw [hnext]; rfl, rfl, h.concat (by omega) ?_ v⟩
        exact fun e' he' => Nat.lt_succ_of_le (hle e'.1 (mem_map_of_mem he'))
  | truncateAfter seq =>
    obtain ⟨s', hs', hstores⟩ := h.truncate seq
    exact .inr ⟨_, s', _, by rw [AppendLogStorage.step, hs']; rfl, rfl, hstores⟩
  | read after limit =>
    exact .inr ⟨_, s, es, by rw [AppendLogStorage.step, h.read after limit]; rfl, rfl, h⟩
  | size => exact .inr ⟨_, s, es, by rw [AppendLogStorage.step, h.size]; rfl, rfl, h⟩

theorem Stores.run (h : Stores kv.toKvStorageTier pre s es) (ops : List (LogOp V)) :
    (runLog (AppendLogStorage.step kv pre) s ops).1 = (runLog (ListLog.step pre) es ops).1 ∧
      Stores kv.toKvStorageTier pre (runLog (AppendLogStorage.step kv pre) s ops).2
        (runLog (ListLog.step pre) es ops).2 := by
  induction ops generalizing s es with
  | nil => exact ⟨rfl, h⟩
  | cons op ops ih =>
    rcases h.step op with ⟨e, hlog, hlist⟩ | ⟨reply, s', es', hlog, hlist, hstores⟩
    · simp only [runLog, hlog, hlist]
      exact ⟨congrArg _ (ih h).1, (ih h).2⟩
    · simp only [runLog, hlog, hlist]
      exact ⟨congrArg _ (ih hstores).1, (ih hstores).2⟩

/-! ### Every tier -/

theorem mapM_error {α β : Type} {f : α → Except StorageError β} {l : List α}
    (h : ∃ a ∈ l, ∃ e, f a = .error e) : ∃ e, l.mapM f = .error e := by
  induction l with
  | nil =>
    obtain ⟨a, ha, -⟩ := h
    exact absurd ha not_mem_nil
  | cons b l ih =>
    cases hb : f b with
    | error e => exact ⟨e, by rw [mapM_cons, hb]; rfl⟩
    | ok y =>
      obtain ⟨a, ha, e, he⟩ := h
      rcases mem_cons.mp ha with rfl | ha
      · rw [hb] at he
        cases he
      · obtain ⟨e', he'⟩ := ih ⟨a, ha, e, he⟩
        exact ⟨e', by rw [mapM_cons, hb, he']; rfl⟩

theorem forM_error {keys : List String} (h : ∃ key ∈ keys, ∃ e, seqFromKey pre key = .error e) :
    ∃ e, (forM keys fun key => (seqFromKey pre key).map fun _ => ()) = .error e := by
  induction keys with
  | nil =>
    obtain ⟨a, ha, -⟩ := h
    exact absurd ha not_mem_nil
  | cons k keys ih =>
    cases hk : seqFromKey pre k with
    | error e => exact ⟨e, by rw [forM_cons, hk]; rfl⟩
    | ok seq =>
      obtain ⟨key, hkey, e, he⟩ := h
      rcases mem_cons.mp hkey with rfl | hkey
      · rw [hk] at he
        cases he
      · obtain ⟨e', he'⟩ := ih ⟨key, hkey, e, he⟩
        exact ⟨e', by rw [forM_cons, hk]; exact he'⟩

/-- The tier lists a key under the log's head that is no key of the log. -/
def Foreign (kv : ErasableTier σ V) (pre : String) (s : σ) : Prop :=
  ∃ key ∈ kv.list s (logHead pre), ∃ e, seqFromKey pre key = .error e

theorem Foreign.step (h : Foreign kv pre s) (op : LogOp V) :
    ∃ e, AppendLogStorage.step kv pre s op = .error e := by
  obtain ⟨e₁, hseqs⟩ := mapM_error h
  have hparse : ∃ e, ((kv.list s (logHead pre)).mapM fun key =>
      (seqFromKey pre key).map fun seq => (key, seq)) = .error e := by
    obtain ⟨key, hkey, e, he⟩ := h
    exact mapM_error ⟨key, hkey, e, by rw [he]; rfl⟩
  obtain ⟨e₂, hkeys⟩ := hparse
  cases op with
  | append v =>
    refine ⟨e₁, ?_⟩
    unfold AppendLogStorage.step AppendLogStorage.append nextSeqFromKeys
    rw [hseqs]
    rfl
  | truncateAfter seq =>
    exact ⟨e₂, by rw [AppendLogStorage.step, deleteAppendLogEntriesAfter, hkeys]; rfl⟩
  | read after limit => exact ⟨e₂, by rw [AppendLogStorage.step, readAppendLogEntries, hkeys]; rfl⟩
  | size =>
    obtain ⟨e₃, hsize⟩ := forM_error h
    exact ⟨e₃, by rw [AppendLogStorage.step, sizeFromKeys, hsize]; rfl⟩

theorem Foreign.run (h : Foreign kv pre s) (ops : List (LogOp V)) :
    (runLog (AppendLogStorage.step kv pre) s ops).2 = s ∧
      ∀ reply ∈ (runLog (AppendLogStorage.step kv pre) s ops).1, ∃ e, reply = .error e := by
  induction ops with
  | nil => exact ⟨rfl, by simp [runLog]⟩
  | cons op ops ih =>
    obtain ⟨e, he⟩ := h.step op
    simp only [runLog, he]
    refine ⟨ih.1, fun reply hreply => ?_⟩
    rcases mem_cons.mp hreply with rfl | hreply
    · exact ⟨e, rfl⟩
    · exact ih.2 reply hreply

/-- A tier holds a log under the log's head, or a key that is none of a log. -/
theorem stores_or_foreign (kv : ErasableTier σ V) (pre : String) (s : σ) :
    (∃ es, Stores kv.toKvStorageTier pre s es) ∨ Foreign kv pre s := by
  by_cases hforeign : Foreign kv pre s
  · exact .inr hforeign
  · -- Every listed key spells a number and has a value.
    have hkey : ∀ key ∈ kv.list s (logHead pre), ∃ e : Nat × V,
        e.1 ≤ u64Max ∧ key = appendLogKey pre e.1 ∧ kv.get s key = some e.2 := by
      intro key hkey
      obtain ⟨v, hv⟩ := Option.isSome_iff_exists.mp ((kv.mem_list s _ key).mp hkey).1
      cases hseq : seqFromKey pre key with
      | error e => exact absurd ⟨key, hkey, e, hseq⟩ hforeign
      | ok seq =>
        obtain ⟨hle, heq⟩ := eq_appendLogKey hseq
        exact ⟨(seq, v), hle, heq, hv⟩
    choose entry hle heq hget using hkey
    have hperm := perm_insertionSort (fun a b : Nat × V => a.1 ≤ b.1)
      ((kv.list s (logHead pre)).pmap entry fun _ h => h)
    have hmem : ∀ e, e ∈ ((kv.list s (logHead pre)).pmap entry fun _ h => h).insertionSort
        (fun a b => a.1 ≤ b.1) ↔ ∃ key h, entry key h = e := by
      intro e
      rw [hperm.mem_iff, mem_pmap]
    refine .inl ⟨((kv.list s (logHead pre)).pmap entry fun _ h => h).insertionSort
      (fun a b => a.1 ≤ b.1), ?_, ?_, ?_, ?_⟩
    · have : Std.Total fun a b : Nat × V => a.1 ≤ b.1 := ⟨fun a b => Nat.le_total a.1 b.1⟩
      have : IsTrans (Nat × V) fun a b => a.1 ≤ b.1 := ⟨fun _ _ _ => Nat.le_trans⟩
      -- Two listed keys spell different numbers.
      have hne : ((kv.list s (logHead pre)).pmap entry fun _ h => h).Pairwise
          fun a b => a.1 ≠ b.1 := by
        rw [pairwise_pmap]
        refine (kv.nodup_list s (logHead pre)).imp fun hab ha hb hseq => hab ?_
        rw [heq _ ha, heq _ hb, hseq]
      have hne' := (hperm.pairwise_iff fun {a b} hab => Ne.symm hab).mpr hne
      refine ((pairwise_insertionSort _ _).and hne').imp fun hab => ?_
      exact Nat.lt_of_le_of_ne hab.1 hab.2
    · intro e he
      obtain ⟨key, h, rfl⟩ := (hmem e).mp he
      exact hle key h
    · intro key hsome hhead
      have h := (kv.mem_list s _ key).mpr ⟨hsome, hhead⟩
      exact ⟨entry key h, (hmem _).mpr ⟨key, h, rfl⟩, heq key h⟩
    · intro e he
      obtain ⟨key, h, rfl⟩ := (hmem e).mp he
      rw [← heq key h, hget key h]

/-- Every run of the log over every tier is the run of the list, unless the tier
    holds a key under the log's head that is no key of a log: then every operation
    fails and nothing changes. A key spells its number, and the order of the keys
    is the order of the numbers. -/
theorem append_log_refines_list (kv : ErasableTier σ V) (pre : String) (s : σ) :
    ((∃ es, Stores kv.toKvStorageTier pre s es ∧ ∀ ops : List (LogOp V),
        (runLog (AppendLogStorage.step kv pre) s ops).1 = (runLog (ListLog.step pre) es ops).1 ∧
        Stores kv.toKvStorageTier pre (runLog (AppendLogStorage.step kv pre) s ops).2
          (runLog (ListLog.step pre) es ops).2) ∨
      (Foreign kv pre s ∧ ∀ ops : List (LogOp V),
        (runLog (AppendLogStorage.step kv pre) s ops).2 = s ∧
        ∀ reply ∈ (runLog (AppendLogStorage.step kv pre) s ops).1, ∃ e, reply = .error e)) ∧
    (∀ seq ≤ u64Max, seqFromKey pre (appendLogKey pre seq) = .ok seq) ∧
    (∀ m ≤ u64Max, ∀ n ≤ u64Max, appendLogKey pre m < appendLogKey pre n ↔ m < n) := by
  refine ⟨?_, fun seq => seqFromKey_appendLogKey pre, fun m hm n => appendLogKey_lt_iff pre hm⟩
  rcases stores_or_foreign kv pre s with ⟨es, hes⟩ | hforeign
  · exact .inl ⟨es, hes, hes.run⟩
  · exact .inr ⟨hforeign, hforeign.run⟩

/-! ### The memory tier -/

/-- A store of the memory tier with its entries under distinct keys. -/
abbrev ErasableStore (V : Type) : Type :=
  { kv : MemoryKvInner V // (kv.entries.map (·.1)).Nodup }

namespace ErasableStore

/-- A store without entries. -/
def empty (V : Type) : ErasableStore V := ⟨MemoryKvInner.new V 1, nodup_nil⟩

theorem nodup_set {kv : MemoryKvInner V} (h : (kv.entries.map (·.1)).Nodup) (key : String)
    (v : V) : ((kv.set key v).entries.map (·.1)).Nodup := by
  refine nodup_cons.mpr ⟨?_, h.sublist (filter_sublist.map _)⟩
  simp

theorem nodup_delete {kv : MemoryKvInner V} (h : (kv.entries.map (·.1)).Nodup) (key : String) :
    ((kv.delete key).entries.map (·.1)).Nodup := by
  unfold MemoryKvInner.delete
  split_ifs
  · exact h.sublist (filter_sublist.map _)
  · exact h

theorem get_delete (kv : MemoryKvInner V) (key k : String) :
    (kv.delete key).get k = if k = key then none else kv.get k := by
  unfold MemoryKvInner.delete MemoryKvInner.get
  by_cases hs : (kv.entries.lookup key).isSome = true
  · rw [if_pos hs]
    by_cases hk : k = key
    · subst hk
      simp only [MemoryKvInner.bumpVersion, MemoryKvInner.lookup_filter_self, if_true,
        Option.map_none]
    · simp only [MemoryKvInner.bumpVersion, MemoryKv.lookup_filter_ne _ _ _ hk, hk, if_false]
  · rw [if_neg hs]
    by_cases hk : k = key
    · subst hk
      rw [if_pos rfl, Option.map_eq_none_iff, ← Option.not_isSome_iff_eq_none]
      exact hs
    · rw [if_neg hk]

theorem get_set (kv : MemoryKvInner V) (key k : String) (v : V) :
    (kv.set key v).get k = if k = key then some v else kv.get k := by
  unfold MemoryKvInner.set MemoryKvInner.get MemoryKvInner.bumpVersion
  simp only [MemoryKvInner.lookup_cons_filter]
  by_cases hk : k = key <;> simp [hk]

/-- The memory tier keeps the laws. -/
def tier (V : Type) : ErasableTier (ErasableStore V) V where
  get := fun kv key => kv.val.get key
  list := fun kv head => (⟨kv.val.entries, kv.val.nextVersion⟩ : MemoryKv V).list head
  set := fun kv key v => ⟨kv.val.set key v, nodup_set kv.property key v⟩
  delete := fun kv key => ⟨kv.val.delete key, nodup_delete kv.property key⟩
  mem_list := fun kv head key => MemoryKv.mem_list ⟨kv.val.entries, kv.val.nextVersion⟩ head key
  nodup_list := fun kv _ =>
    (mergeSort_perm _ _).nodup_iff.mpr (kv.property.sublist filter_sublist)
  get_set := fun kv key v k => get_set kv.val key k v
  get_delete := fun kv key k => get_delete kv.val key k

/-- The log whose only entry has the largest number. -/
def full : ErasableStore Nat := (tier Nat).set (empty Nat) (appendLogKey "log" u64Max) 7

theorem stores_empty (pre : String) : Stores (tier V).toKvStorageTier pre (empty V) [] :=
  ⟨List.Pairwise.nil, fun e he => absurd he not_mem_nil,
    fun key hsome => absurd hsome Bool.false_ne_true, fun e he => absurd he not_mem_nil⟩

theorem stores_full : Stores (tier Nat).toKvStorageTier "log" full [(u64Max, 7)] :=
  (stores_empty "log").concat (le_refl _) (by simp) 7

/-- Behind the largest number there is no next one: the append fails. -/
theorem append_full_fails :
    Stores (tier Nat).toKvStorageTier "log" full [(u64Max, 7)] ∧
      AppendLogStorage.append (tier Nat).toKvStorageTier "log" full 8 =
        .error (outOfRange "log") := by
  refine ⟨stores_full, ?_⟩
  have hnext := stores_full.nextSeq
  unfold AppendLogStorage.append
  rw [hnext]
  rfl

end ErasableStore

end GraphRefly.Storage
