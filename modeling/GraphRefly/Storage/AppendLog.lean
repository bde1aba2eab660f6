import GraphRefly.Storage.Kv
import Mathlib.Tactic.IntervalCases
import Mathlib.Data.List.Induction
import Mathlib.Data.String.Basic

/-!
# Append Log Keys

The keys of an append log and the sequence numbers they spell. A key is the
log's head, a slash, and the number in decimal, padded to twenty digits; that
is enough for every `u64`, so the keys of different numbers differ and their
order as strings is the order of the numbers. A log finds its next number by
reading all its keys back.

## Main definitions

* `appendLogKey`: The key of a sequence number.
* `seqFromKey`: The sequence number of a key, or why it has none.
* `nextSeqFromKeys`: One more than the largest number of a listing.
* `AppendLogEntry`: What an append returns.

## Theorems

* `parseDigits_padDigits`: Reading padded digits back.
* `seqFromKey_appendLogKey`: A key spells its number.
* `appendLogKey_inj`: Different numbers have different keys.
* `eq_appendLogKey`: A key that spells a number is the key of that number.
* `appendLogKey_lt_iff`: The order of the keys is the order of the numbers.
* `nextSeqFromKeys_eq`: The next number of a log without gaps is its length.
-/

namespace GraphRefly.Storage

open List

/-- How many digits a key spends on its number. -/
def appendLogSeqPad : Nat := 20

/-- The character of a decimal digit. -/
def digitChar (d : Nat) : Char := Char.ofNat (48 + d)

/-- The last `k` decimal digits of a number, the first one first. -/
def padDigits : Nat → Nat → List Char
  | 0, _ => []
  | k + 1, n => padDigits k (n / 10) ++ [digitChar (n % 10)]

/-- The value of a string of decimal digits. -/
def parseDigits (ds : List Char) : Nat :=
  ds.foldl (fun n c => n * 10 + (c.toNat - 48)) 0

/-- What stands before the number in every key of a log. -/
def logHead (pre : String) : String := pre ++ "/"

/-- The key of a sequence number. -/
def appendLogKey (pre : String) (seq : Nat) : String :=
  logHead pre ++ String.ofList (padDigits appendLogSeqPad seq)

/-- The text after a head. -/
def stripHead (head text : List Char) : Option (List Char) :=
  if head.isPrefixOf text then some (text.drop head.length) else none

/-- The sequence number a key spells. -/
def seqFromKey (pre key : String) : Except StorageError Nat :=
  match stripHead (logHead pre).toList key.toList with
  | none => .error (.backend ("append log key outside prefix: " ++ key))
  | some raw =>
    if raw.all (fun c => '0' ≤ c && c ≤ '9') = false then
      .error (.backend ("append log key has a non-numeric sequence: " ++ key))
    else if raw.length ≠ appendLogSeqPad then
      .error (.backend ("append log key sequence must be " ++ toString appendLogSeqPad ++
        " padded digits: " ++ key))
    else if u64Max < parseDigits raw then
      .error (.backend ("append log key sequence is outside the u64 range: " ++ key))
    else .ok (parseDigits raw)

/-- The text of a number that does not fit. -/
def outOfRange (pre : String) : StorageError :=
  .backend ("append log next sequence is outside the u64 range: " ++ pre)

/-- One more than the largest number of a listing. -/
def nextSeqFromKeys (pre : String) (keys : List String) : Except StorageError Nat :=
  match keys.mapM (seqFromKey pre) with
  | .error e => .error e
  | .ok seqs =>
    match seqs.max? with
    | none => .ok 0
    | some maxSeq => if maxSeq = u64Max then .error (outOfRange pre) else .ok (maxSeq + 1)

structure AppendLogEntry (V : Type) where
  key : String
  seq : Nat
  value : V

/-! ### Keys spell their numbers -/

variable {d : Nat}

theorem digitChar_toNat (h : d < 10) : (digitChar d).toNat = 48 + d := by
  interval_cases d <;> rfl

theorem digitChar_isDigit (h : d < 10) : ('0' ≤ digitChar d && digitChar d ≤ '9') = true := by
  interval_cases d <;> rfl

theorem padDigits_length (k n : Nat) : (padDigits k n).length = k := by
  induction k generalizing n with
  | zero => rfl
  | succ k ih => simp [padDigits, ih]

theorem padDigits_all (k n : Nat) :
    (padDigits k n).all (fun c => '0' ≤ c && c ≤ '9') = true := by
  induction k generalizing n with
  | zero => rfl
  | succ k ih =>
    rw [padDigits, all_append, ih (n / 10), all_cons, all_nil,
      digitChar_isDigit (Nat.mod_lt n (by omega))]
    rfl

/-- Reading padded digits back gives the number, cut to as many digits. -/
theorem parseDigits_padDigits (k n : Nat) : parseDigits (padDigits k n) = n % 10 ^ k := by
  induction k generalizing n with
  | zero => simp [padDigits, parseDigits, Nat.mod_one]
  | succ k ih =>
    have hlast : (digitChar (n % 10)).toNat = 48 + n % 10 :=
      digitChar_toNat (Nat.mod_lt n (by omega))
    have hfirst : parseDigits (padDigits k (n / 10)) = n / 10 % 10 ^ k := ih (n / 10)
    unfold parseDigits at hfirst ⊢
    rw [padDigits, foldl_append, hfirst, foldl_cons, foldl_nil, hlast,
      Nat.pow_succ, Nat.mul_comm (10 ^ k) 10, Nat.mod_mul]
    omega

variable {seq : Nat}

theorem parseDigits_seq (h : seq ≤ u64Max) :
    parseDigits (padDigits appendLogSeqPad seq) = seq := by
  rw [parseDigits_padDigits, Nat.mod_eq_of_lt]
  unfold u64Max at h
  unfold appendLogSeqPad
  omega

theorem appendLogKey_toList (pre : String) (seq : Nat) :
    (appendLogKey pre seq).toList = (logHead pre).toList ++ padDigits appendLogSeqPad seq := by
  simp [appendLogKey]

theorem startsWith_appendLogKey (pre : String) (seq : Nat) :
    startsWith (appendLogKey pre seq) (logHead pre) = true := by
  rw [startsWith, appendLogKey_toList, isPrefixOf_iff_prefix]
  exact prefix_append _ _

/-- A key spells its number. -/
theorem seqFromKey_appendLogKey (pre : String) (h : seq ≤ u64Max) :
    seqFromKey pre (appendLogKey pre seq) = .ok seq := by
  have hstrip : stripHead (logHead pre).toList (appendLogKey pre seq).toList =
      some (padDigits appendLogSeqPad seq) := by
    have hhead := startsWith_appendLogKey pre seq
    rw [startsWith] at hhead
    rw [stripHead, if_pos hhead, appendLogKey_toList, drop_left]
  unfold seqFromKey
  simp only [hstrip, padDigits_all, padDigits_length, parseDigits_seq h, ne_eq,
    not_true_eq_false, if_false, Bool.true_eq_false]
  exact if_neg (by omega)

variable {m n : Nat}

/-- Different numbers have different keys. -/
theorem appendLogKey_inj (pre : String) (hm : m ≤ u64Max) (hn : n ≤ u64Max)
    (h : appendLogKey pre m = appendLogKey pre n) : m = n := by
  have hm' := seqFromKey_appendLogKey pre hm
  rw [h, seqFromKey_appendLogKey pre hn] at hm'
  exact (Except.ok.inj hm').symm

theorem digitChar_of_digit {c : Char} (h : ('0' ≤ c && c ≤ '9') = true) :
    c.toNat - 48 < 10 ∧ digitChar (c.toNat - 48) = c := by
  rw [Bool.and_eq_true, decide_eq_true_eq, decide_eq_true_eq] at h
  have hc : 48 ≤ c.toNat ∧ c.toNat ≤ 57 := h
  refine ⟨by omega, Char.toNat_inj.mp ?_⟩
  rw [digitChar_toNat (by omega)]
  omega

theorem parseDigits_concat (ds : List Char) (c : Char) :
    parseDigits (ds ++ [c]) = parseDigits ds * 10 + (c.toNat - 48) := by
  rw [parseDigits, foldl_append]
  rfl

-- The digits are taken from the last one on, as `padDigits` writes them.
theorem padDigits_parseDigits (ds : List Char) (h : ds.all (fun c => '0' ≤ c && c ≤ '9') = true) :
    padDigits ds.length (parseDigits ds) = ds := by
  induction ds using List.reverseRecOn with
  | nil => rfl
  | append_singleton ds c ih =>
    rw [all_append, Bool.and_eq_true, all_cons, all_nil, Bool.and_true] at h
    obtain ⟨hlt, hchar⟩ := digitChar_of_digit h.2
    have hdiv : (parseDigits ds * 10 + (c.toNat - 48)) / 10 = parseDigits ds := by omega
    have hmod : (parseDigits ds * 10 + (c.toNat - 48)) % 10 = c.toNat - 48 := by omega
    rw [length_append, length_singleton, parseDigits_concat, padDigits, hdiv, hmod,
      ih h.1, hchar]

/-- A key that spells a number is the key of that number. -/
theorem eq_appendLogKey {pre key : String} (h : seqFromKey pre key = .ok seq) :
    seq ≤ u64Max ∧ key = appendLogKey pre seq := by
  unfold seqFromKey stripHead at h
  by_cases hhead : (logHead pre).toList.isPrefixOf key.toList = true
  · rw [if_pos hhead] at h
    generalize hraw : key.toList.drop (logHead pre).toList.length = raw at h
    simp only at h
    split_ifs at h with hdigits hlen hmax
    obtain rfl := Except.ok.inj h
    refine ⟨by omega, String.toList_inj.mp ?_⟩
    have hpad := padDigits_parseDigits raw (by simpa using hdigits)
    push Not at hlen
    rw [appendLogKey_toList, ← hlen, hpad, ← hraw]
    obtain ⟨rest, hrest⟩ := isPrefixOf_iff_prefix.mp hhead
    rw [← hrest, drop_left]
  · rw [if_neg hhead] at h
    cases h

theorem append_lt_append {as bs : List Char} (h : as < bs) (hlen : as.length = bs.length)
    (cs ds : List Char) : as ++ cs < bs ++ ds := by
  induction as generalizing bs with
  | nil =>
    rw [length_nil, eq_comm, length_eq_zero_iff] at hlen
    exact absurd h (hlen ▸ lt_irrefl _)
  | cons a as ih =>
    cases bs with
    | nil => cases hlen
    | cons b bs =>
      rcases cons_lt_cons_iff.mp h with hab | ⟨rfl, hab⟩
      · exact cons_lt_cons_iff.mpr (.inl hab)
      · exact cons_lt_cons_iff.mpr (.inr ⟨rfl, ih hab (Nat.succ.inj hlen)⟩)

theorem padDigits_lt {k : Nat} (hn : n < 10 ^ k) (h : m < n) :
    padDigits k m < padDigits k n := by
  induction k generalizing m n with
  | zero => omega
  | succ k ih =>
    rw [Nat.pow_succ] at hn
    by_cases hdiv : m / 10 = n / 10
    · -- The numbers differ in the last digit only.
      rw [padDigits, padDigits, hdiv]
      refine append_left_lt (cons_lt_cons_iff.mpr (.inl ?_))
      have hm := digitChar_toNat (Nat.mod_lt m (by omega : 10 > 0))
      have hn' := digitChar_toNat (Nat.mod_lt n (by omega : 10 > 0))
      show (digitChar (m % 10)).toNat < (digitChar (n % 10)).toNat
      omega
    · have hlt : padDigits k (m / 10) < padDigits k (n / 10) := ih (by omega) (by omega)
      exact append_lt_append hlt (by rw [padDigits_length, padDigits_length]) _ _

/-- The order of the keys is the order of the numbers. -/
theorem appendLogKey_lt_iff (pre : String) (hm : m ≤ u64Max) (hn : n ≤ u64Max) :
    appendLogKey pre m < appendLogKey pre n ↔ m < n := by
  have hlt : ∀ {a b : Nat}, b ≤ u64Max → a < b → appendLogKey pre a < appendLogKey pre b := by
    intro a b hb hab
    rw [String.lt_iff_toList_lt, appendLogKey_toList, appendLogKey_toList]
    refine append_left_lt (padDigits_lt ?_ hab)
    unfold u64Max at hb
    unfold appendLogSeqPad
    omega
  refine ⟨fun h => ?_, hlt hn⟩
  rcases Nat.lt_trichotomy m n with hmn | hmn | hmn
  · exact hmn
  · exact absurd h (hmn ▸ lt_irrefl _)
  · exact absurd (h.trans (hlt hm hmn)) (lt_irrefl _)

variable {keys : List String}

theorem mapM_seqFromKey (pre : String)
    (h : ∀ key ∈ keys, ∃ seq ≤ u64Max, key = appendLogKey pre seq) :
    ∃ seqs, keys.mapM (seqFromKey pre) = .ok seqs ∧
      (∀ seq ∈ seqs, seq ≤ u64Max ∧ appendLogKey pre seq ∈ keys) ∧
      ∀ seq ≤ u64Max, appendLogKey pre seq ∈ keys → seq ∈ seqs := by
  induction keys with
  | nil => exact ⟨[], rfl, by simp, by simp⟩
  | cons key keys ih =>
    obtain ⟨seq, hle, rfl⟩ := h key mem_cons_self
    obtain ⟨seqs, hread, hsound, hcomplete⟩ := ih fun k hk => h k (mem_cons_of_mem _ hk)
    refine ⟨seq :: seqs, ?_, ?_, ?_⟩
    · rw [mapM_cons, seqFromKey_appendLogKey pre hle, hread]
      rfl
    · intro n hn
      rcases mem_cons.mp hn with rfl | hn
      · exact ⟨hle, mem_cons_self⟩
      · exact ⟨(hsound n hn).1, mem_cons_of_mem _ (hsound n hn).2⟩
    · intro n hn hmem
      rcases mem_cons.mp hmem with heq | hmem
      · rw [appendLogKey_inj pre hn hle heq]
        exact mem_cons_self
      · exact mem_cons_of_mem _ (hcomplete n hn hmem)

/-- The next number of a log without gaps is its length, while that is a `u64`. -/
theorem nextSeqFromKeys_eq (pre : String) (hn : n ≤ u64Max + 1)
    (h : ∀ key, key ∈ keys ↔ ∃ seq < n, key = appendLogKey pre seq) :
    nextSeqFromKeys pre keys = if n = u64Max + 1 then .error (outOfRange pre) else .ok n := by
  obtain ⟨seqs, hread, hsound, hcomplete⟩ := mapM_seqFromKey pre fun key hkey => by
    obtain ⟨seq, hlt, heq⟩ := (h key).mp hkey
    exact ⟨seq, by omega, heq⟩
  have hmem : ∀ seq, seq ∈ seqs ↔ seq < n := by
    intro seq
    constructor
    · intro hseq
      obtain ⟨hle, hkey⟩ := hsound seq hseq
      obtain ⟨m, hlt, heq⟩ := (h _).mp hkey
      rw [appendLogKey_inj pre hle (by omega) heq]
      exact hlt
    · exact fun hlt => hcomplete seq (by omega) ((h _).mpr ⟨seq, hlt, rfl⟩)
  unfold nextSeqFromKeys
  rw [hread]
  cases hmax : seqs.max? with
  | none =>
    -- Without entries the next number is zero.
    have hzero : n = 0 := by
      by_contra hpos
      rw [List.max?_eq_none_iff] at hmax
      have := (hmem 0).mpr (by omega)
      rw [hmax] at this
      exact absurd this (by simp)
    simp [hmax, hzero]
  | some m =>
    have hlt : m < n := (hmem m).mp (List.max?_mem hmax)
    have hlast : m = n - 1 := by
      have hle := (List.max?_eq_some_iff.mp hmax).2 (n - 1) ((hmem (n - 1)).mpr (by omega))
      omega
    simp only [hmax]
    split_ifs <;> first | rfl | omega | (rw [hlast]; congr 1; omega)

end GraphRefly.Storage
