import GraphRefly.Core.Topology
import Mathlib.Data.List.Induction
import Mathlib.Data.List.NodupEquivFin

/-!
# Matching New Deps against Old Ones

A rewire keeps a dep that stands in both lists. Its new position takes over the
record of its first old position; later repeats in the old list are removed like
any dep that is gone.

Short lists are matched by trying every pair, long ones through a map from deps
to old positions, and lists that share no dep are not matched at all. All three
ways give the same matching.

## Main definitions

* `Config.Keeps`: A new position keeps an old one.
* `Config.Matching`: The two index lists of a matching.
* `Config.matchSmall`, `Config.matchHashed`: The two ways to fill them.
* `Config.Matching.Pairs`: A matching records exactly these pairs.

## Theorems

* `keeps_iff`: A position keeps the first old position of its dep.
* `keeps_injective`: No old position is kept twice.
* `mem_removedIdxs_iff`: The old positions that nobody keeps.
* `matchSmall_pairs`, `matchHashed_pairs`: Both ways record the kept positions.
* `matchings_agree`: They are equal, and so are the lists read off them.
-/

namespace GraphRefly

open List

namespace Config

variable {oldDeps newDeps : List NodeId} {i j : Nat}

theorem length_newToOld (oldDeps newDeps : List NodeId) :
    (newToOld oldDeps newDeps).length = newDeps.length :=
  length_map _

/-- New position `j` keeps the record of old position `i`. -/
def Keeps (oldDeps newDeps : List NodeId) (j i : Nat) : Prop :=
  (newToOld oldDeps newDeps)[j]? = some (some i)

/-- A kept position is the first one of the dep that the new position names. -/
theorem keeps_iff : Keeps oldDeps newDeps j i ↔
    ∃ d, newDeps[j]? = some d ∧ oldDeps[i]? = some d ∧ ∀ k < i, oldDeps[k]? ≠ some d := by
  unfold Keeps newToOld
  rw [List.getElem?_map]
  constructor
  · intro h
    cases hj : newDeps[j]? with
    | none =>
      rw [hj] at h
      cases h
    | some d =>
      rw [hj, Option.map_some, Option.some.injEq, List.findIdx?_eq_some_iff_getElem] at h
      rcases h with ⟨hi, hd, hfirst⟩
      refine ⟨d, rfl, ?_, ?_⟩
      · rw [List.getElem?_eq_getElem hi, eq_of_beq hd]
      · intro k hk hkd
        have hlt : k < oldDeps.length := Nat.lt_trans hk hi
        rw [List.getElem?_eq_getElem hlt, Option.some.injEq] at hkd
        exact hfirst k hk (by rw [hkd, beq_self_eq_true])
  · rintro ⟨d, hj, hi, hfirst⟩
    rw [hj, Option.map_some, Option.some.injEq, List.findIdx?_eq_some_iff_getElem]
    rcases List.getElem?_eq_some_iff.mp hi with ⟨hlt, hd⟩
    refine ⟨hlt, by rw [hd, beq_self_eq_true], ?_⟩
    intro k hk hkd
    refine hfirst k hk ?_
    rw [List.getElem?_eq_getElem (Nat.lt_trans hk hlt), eq_of_beq hkd]

theorem newToOld_eq_none (hj : newDeps[j]? = some i) :
    (newToOld oldDeps newDeps)[j]? = some none ↔ i ∉ oldDeps := by
  unfold newToOld
  rw [List.getElem?_map, hj, Option.map_some, Option.some.injEq, List.findIdx?_eq_none_iff]
  constructor
  · intro h hmem
    have := h i hmem
    rw [beq_self_eq_true] at this
    cases this
  · intro h d hd
    rw [beq_eq_false_iff_ne]
    rintro rfl
    exact h hd

theorem Keeps.lt (h : Keeps oldDeps newDeps j i) : j < newDeps.length ∧ i < oldDeps.length := by
  rcases keeps_iff.mp h with ⟨d, hj, hi, _⟩
  exact ⟨(List.getElem?_eq_some_iff.mp hj).1, (List.getElem?_eq_some_iff.mp hi).1⟩

/-- Without repeats in the new list no old position is kept twice. -/
theorem keeps_injective (hnew : newDeps.Nodup) {j' : Nat} (h : Keeps oldDeps newDeps j i)
    (h' : Keeps oldDeps newDeps j' i) : j = j' := by
  rcases keeps_iff.mp h with ⟨d, hj, hi, _⟩
  rcases keeps_iff.mp h' with ⟨d', hj', hi', _⟩
  rw [hi, Option.some.injEq] at hi'
  rw [← hi'] at hj'
  exact (List.getElem?_inj (List.getElem?_eq_some_iff.mp hj).1 hnew).mp (hj.trans hj'.symm)

theorem keeps_functional {i' : Nat} (h : Keeps oldDeps newDeps j i)
    (h' : Keeps oldDeps newDeps j i') : i = i' := by
  unfold Keeps at h h'
  rw [h, Option.some.injEq, Option.some.injEq] at h'
  exact h'

/-- The removed positions are the old ones that nobody keeps. -/
theorem mem_removedIdxs_iff : i ∈ removedIdxs oldDeps newDeps ↔
    i < oldDeps.length ∧ ∀ j, ¬ Keeps oldDeps newDeps j i := by
  unfold removedIdxs Keeps
  rw [mem_filter, mem_range, decide_eq_true_eq, mem_iff_getElem?, not_exists]

theorem nodup_removedIdxs (oldDeps newDeps : List NodeId) :
    (removedIdxs oldDeps newDeps).Nodup :=
  nodup_range.filter _

/-! ### Filling the index lists -/

/-- The index lists of a matching. -/
structure Matching where
  oldToNew : List (Option Nat)
  newToOld : List (Option Nat)
  deriving DecidableEq

namespace Matching

/-- Nothing is matched yet. -/
def start (oldDeps newDeps : List NodeId) : Matching where
  oldToNew := List.replicate oldDeps.length none
  newToOld := List.replicate newDeps.length none

/-- Match old position `i` with new position `j`. -/
def pair (m : Matching) (i j : Nat) : Matching where
  oldToNew := m.oldToNew.set i (some j)
  newToOld := m.newToOld.set j (some i)

/-- The old positions left unmatched. -/
def removed (m : Matching) (oldDeps : List NodeId) : List Nat :=
  (List.range oldDeps.length).filter fun i => (m.oldToNew.getD i none).isNone

/-- The new deps left unmatched, with their positions. -/
def added (m : Matching) (newDeps : List NodeId) : List (Nat × NodeId) :=
  (newDeps.mapIdx fun j d => (j, d)).filter fun p => (m.newToOld.getD p.1 none).isNone

end Matching

/-- One round of the small loop: the first new position of the same dep that is
    still free. -/
def matchOne (newDeps : List NodeId) (m : Matching) (p : NodeId × Nat) : Matching :=
  match (List.range newDeps.length).find? fun j =>
      newDeps[j]? == some p.1 && (m.newToOld.getD j none).isNone with
  | some j => m.pair p.2 j
  | none => m

section

variable (oldDeps newDeps : List NodeId)

/-- Match by trying every pair. -/
def matchSmall : Matching :=
  oldDeps.zipIdx.foldl (matchOne newDeps) (.start oldDeps newDeps)

/-- The first old position of every dep. -/
def firstOldByKey (oldDeps : List NodeId) : Std.HashMap NodeId Nat :=
  oldDeps.zipIdx.foldl (fun m p => m.insertIfNew p.1 p.2) ∅

/-- One round over the new deps: take the old position out of the map. -/
def takeOne (s : Std.HashMap NodeId Nat × Matching) (p : NodeId × Nat) :
    Std.HashMap NodeId Nat × Matching :=
  match s.1[p.1]? with
  | some i => (s.1.erase p.1, s.2.pair i p.2)
  | none => s

/-- Match through a map. -/
def matchHashed : Matching :=
  (newDeps.zipIdx.foldl takeOne (firstOldByKey oldDeps, .start oldDeps newDeps)).2

/-- The matching of a rewire. -/
def rewireMatching : Matching :=
  if oldDeps.length * newDeps.length ≤ 64 then matchSmall oldDeps newDeps
  else matchHashed oldDeps newDeps

/-- No dep stands in both lists. -/
def sameGraphNoOverlap : Bool :=
  !(newDeps.any fun d => d ∈ oldDeps)

end

namespace Matching

/-- The matching records exactly the given pairs of a new and an old position. -/
structure Pairs (oldDeps newDeps : List NodeId) (P : Nat → Nat → Prop) (m : Matching) : Prop where
  oldLength : m.oldToNew.length = oldDeps.length
  newLength : m.newToOld.length = newDeps.length
  old : ∀ i j, m.oldToNew[i]? = some (some j) ↔ P j i
  new : ∀ j i, m.newToOld[j]? = some (some i) ↔ P j i

variable {P Q : Nat → Nat → Prop} {m m' : Matching}

theorem Pairs.congr (h : m.Pairs oldDeps newDeps P) (hPQ : ∀ j i, P j i ↔ Q j i) :
    m.Pairs oldDeps newDeps Q where
  oldLength := h.oldLength
  newLength := h.newLength
  old := fun i j => (h.old i j).trans (hPQ j i)
  new := fun j i => (h.new j i).trans (hPQ j i)

theorem start_pairs (oldDeps newDeps : List NodeId) :
    (start oldDeps newDeps).Pairs oldDeps newDeps fun _ _ => False := by
  have hnone : ∀ k i j : Nat, (List.replicate k (none : Option Nat))[i]? ≠ some (some j) := by
    intro k i j h
    rw [List.getElem?_replicate] at h
    split_ifs at h
    cases h
  refine ⟨length_replicate, length_replicate, ?_, ?_⟩
  · exact fun i j => iff_false_intro (hnone _ i j)
  · exact fun j i => iff_false_intro (hnone _ j i)

variable {l : List (Option Nat)}

theorem ext_of_some {l' : List (Option Nat)} (hlen : l.length = l'.length)
    (h : ∀ i a : Nat, l[i]? = some (some a) ↔ l'[i]? = some (some a)) : l = l' := by
  refine ext_getElem? ?_
  intro i
  by_cases hi : i < l.length
  · have hi' : i < l'.length := hlen ▸ hi
    have hiff := h i
    rw [List.getElem?_eq_getElem hi, List.getElem?_eq_getElem hi'] at hiff ⊢
    cases hv : l[i] with
    | some a => exact ((hiff a).mp (by rw [hv])).symm
    | none =>
      cases hv' : l'[i] with
      | none => rfl
      | some a =>
        have := (hiff a).mpr (by rw [hv'])
        rw [hv] at this
        cases this
  · rw [List.getElem?_eq_none (Nat.le_of_not_lt hi),
      List.getElem?_eq_none (by rw [← hlen]; exact Nat.le_of_not_lt hi)]

-- The pairs determine the matching.
theorem Pairs.unique (h : m.Pairs oldDeps newDeps P) (h' : m'.Pairs oldDeps newDeps P) :
    m = m' := by
  have hold : m.oldToNew = m'.oldToNew :=
    ext_of_some (h.oldLength.trans h'.oldLength.symm) fun i j => (h.old i j).trans (h'.old i j).symm
  have hnew : m.newToOld = m'.newToOld :=
    ext_of_some (h.newLength.trans h'.newLength.symm) fun j i => (h.new j i).trans (h'.new j i).symm
  cases m
  cases m'
  cases hold
  cases hnew
  rfl

theorem getElem?_set_some {a : Nat} (hi : i < l.length)
    (hfree : ∀ b, l[i]? ≠ some (some b)) (k b : Nat) :
    (l.set i (some a))[k]? = some (some b) ↔ l[k]? = some (some b) ∨ k = i ∧ b = a := by
  rw [List.getElem?_set]
  by_cases hik : i = k
  · subst hik
    rw [if_pos rfl, if_pos hi]
    constructor
    · intro h
      cases h
      exact Or.inr ⟨rfl, rfl⟩
    · rintro (h | ⟨_, rfl⟩)
      · exact absurd h (hfree b)
      · rfl
  · rw [if_neg hik]
    constructor
    · exact Or.inl
    · rintro (h | ⟨h, _⟩)
      · exact h
      · exact absurd h.symm hik

theorem Pairs.pair (h : m.Pairs oldDeps newDeps P) (hi : i < oldDeps.length)
    (hj : j < newDeps.length) (hfreei : ∀ j', ¬ P j' i) (hfreej : ∀ i', ¬ P j i') :
    (m.pair i j).Pairs oldDeps newDeps fun j' i' => P j' i' ∨ i' = i ∧ j' = j := by
  refine ⟨?_, ?_, ?_, ?_⟩
  · exact length_set.trans h.oldLength
  · exact length_set.trans h.newLength
  · intro i' j'
    have hfree : ∀ b, m.oldToNew[i]? ≠ some (some b) := fun b hb => hfreei b ((h.old i b).mp hb)
    refine (getElem?_set_some (by rw [h.oldLength]; exact hi) hfree i' j').trans ?_
    rw [h.old]
  · intro j' i'
    have hfree : ∀ b, m.newToOld[j]? ≠ some (some b) := fun b hb => hfreej b ((h.new j b).mp hb)
    refine (getElem?_set_some (by rw [h.newLength]; exact hj) hfree j' i').trans ?_
    rw [h.new, and_comm]

theorem getD_isNone_iff : (l.getD i none).isNone = true ↔ ∀ a, l[i]? ≠ some (some a) := by
  rw [getD_eq_getElem?_getD]
  cases h : l[i]? with
  | none => simp
  | some o => cases o <;> simp

end Matching

theorem foldl_zipIdx {σ : Type} {f : σ → NodeId × Nat → σ} {P : Nat → σ → Prop}
    {l : List NodeId} (hstep : ∀ k d s, l[k]? = some d → P k s → P (k + 1) (f s (d, k)))
    {s : σ} (hs : P 0 s) : P l.length (l.zipIdx.foldl f s) := by
  induction l using List.reverseRecOn with
  | nil => exact hs
  | append_singleton l a ih =>
    have hbelow : P l.length (l.zipIdx.foldl f s) := by
      refine ih ?_
      intro k d t hk
      have hlt := (List.getElem?_eq_some_iff.mp hk).1
      exact hstep k d t (by rw [List.getElem?_append_left hlt, hk])
    have hlast : (l ++ [a])[l.length]? = some a := by
      rw [List.getElem?_append_right (Nat.le_refl _), Nat.sub_self]
      rfl
    rw [zipIdx_append, foldl_append, length_append, Nat.zero_add]
    exact hstep l.length a _ hlast hbelow

/-- The first position of a dep. -/
def First (deps : List NodeId) (i : Nat) (d : NodeId) : Prop :=
  deps[i]? = some d ∧ ∀ k < i, deps[k]? ≠ some d

variable {d : NodeId}

theorem exists_first {deps : List NodeId} {l : Nat} (h : deps[l]? = some d) :
    ∃ i ≤ l, First deps i d := by
  classical
  have hex : ∃ k, deps[k]? = some d := ⟨l, h⟩
  exact ⟨Nat.find hex, Nat.find_min' hex h, Nat.find_spec hex, fun k hk => Nat.find_min hex hk⟩

theorem keeps_iff_first : Keeps oldDeps newDeps j i ↔
    ∃ d, newDeps[j]? = some d ∧ First oldDeps i d :=
  keeps_iff

theorem keeps_of_first (hj : newDeps[j]? = some d) (hi : oldDeps[i]? = some d)
    (hfirst : ∀ k < i, ¬ Keeps oldDeps newDeps j k) : Keeps oldDeps newDeps j i := by
  rcases exists_first hi with ⟨k, hle, hk⟩
  have hkeeps : Keeps oldDeps newDeps j k := keeps_iff_first.mpr ⟨d, hj, hk⟩
  rcases Nat.lt_or_eq_of_le hle with hlt | rfl
  · exact absurd hkeeps (hfirst k hlt)
  · exact hkeeps

variable {k : Nat}

theorem matchOne_pairs (hnew : newDeps.Nodup) {m : Matching} (hk : oldDeps[k]? = some d)
    (h : m.Pairs oldDeps newDeps fun j i => i < k ∧ Keeps oldDeps newDeps j i) :
    (matchOne newDeps m (d, k)).Pairs oldDeps newDeps
      fun j i => i < k + 1 ∧ Keeps oldDeps newDeps j i := by
  have hfree : ∀ j, (m.newToOld.getD j none).isNone = true →
      ∀ i < k, ¬ Keeps oldDeps newDeps j i := by
    intro j hj i hi hkeeps
    exact Matching.getD_isNone_iff.mp hj i ((h.new j i).mpr ⟨hi, hkeeps⟩)
  unfold matchOne
  split
  · rename_i j hfound
    have hj := List.find?_some hfound
    have hmem := mem_range.mp (mem_of_find?_eq_some hfound)
    rw [Bool.and_eq_true, beq_iff_eq] at hj
    have hkeeps := keeps_of_first hj.1 hk (hfree j hj.2)
    have hpair := h.pair (i := k) (j := j) (List.getElem?_eq_some_iff.mp hk).1 hmem
      (fun _ hlt => Nat.lt_irrefl k hlt.1) (fun i hi => hfree j hj.2 i hi.1 hi.2)
    refine hpair.congr ?_
    intro j' i'
    rw [Nat.lt_succ_iff_lt_or_eq]
    constructor
    · rintro (⟨hlt, hold⟩ | ⟨rfl, rfl⟩)
      · exact ⟨Or.inl hlt, hold⟩
      · exact ⟨Or.inr rfl, hkeeps⟩
    · rintro ⟨hlt | rfl, hold⟩
      · exact Or.inl ⟨hlt, hold⟩
      · exact Or.inr ⟨rfl, keeps_injective hnew hold hkeeps⟩
  · rename_i hnone
    rw [List.find?_eq_none] at hnone
    -- No new position keeps this one.
    refine h.congr ?_
    intro j i
    rw [Nat.lt_succ_iff_lt_or_eq]
    refine ⟨fun ⟨hlt, hold⟩ => ⟨Or.inl hlt, hold⟩, ?_⟩
    rintro ⟨hlt | rfl, hold⟩
    · exact ⟨hlt, hold⟩
    · exfalso
      rcases keeps_iff.mp hold with ⟨d', hj, hi, _⟩
      rw [hk, Option.some.injEq] at hi
      subst hi
      refine hnone j (mem_range.mpr hold.lt.1) ?_
      rw [Bool.and_eq_true, beq_iff_eq]
      refine ⟨hj, Matching.getD_isNone_iff.mpr ?_⟩
      intro i' hi'
      have hother := (h.new j i').mp hi'
      exact Nat.ne_of_lt hother.1 (keeps_functional hother.2 hold)

theorem matchSmall_pairs (hnew : newDeps.Nodup) :
    (matchSmall oldDeps newDeps).Pairs oldDeps newDeps (Keeps oldDeps newDeps) := by
  have hstart : (Matching.start oldDeps newDeps).Pairs oldDeps newDeps
      fun j i => i < 0 ∧ Keeps oldDeps newDeps j i :=
    (Matching.start_pairs oldDeps newDeps).congr
      fun j i => ⟨False.elim, fun h => Nat.not_lt_zero i h.1⟩
  have hall := foldl_zipIdx (f := matchOne newDeps)
    (P := fun k (m : Matching) => m.Pairs oldDeps newDeps
      fun j i => i < k ∧ Keeps oldDeps newDeps j i)
    (fun k d m hk h => matchOne_pairs hnew hk h) hstart
  exact hall.congr fun j i => ⟨fun h => h.2, fun h => ⟨h.lt.2, h⟩⟩

theorem insertIfNew_first {a : NodeId} {m : Std.HashMap NodeId Nat} (hk : oldDeps[k]? = some a)
    (h : ∀ (d : NodeId) (i : Nat), m[d]? = some i ↔ i < k ∧ First oldDeps i d) (d : NodeId)
    (i : Nat) : (m.insertIfNew a k)[d]? = some i ↔ i < k + 1 ∧ First oldDeps i d := by
  have hin : a ∈ m ↔ ∃ i, m[a]? = some i := by
    rw [Std.HashMap.mem_iff_isSome_getElem?, Option.isSome_iff_exists]
  rw [Std.HashMap.getElem?_insertIfNew, Nat.lt_succ_iff_lt_or_eq]
  split
  · rename_i hnew
    rcases hnew with ⟨heq, hfresh⟩
    have had := eq_of_beq heq
    subst had
    have hfirst : First oldDeps k a := by
      refine ⟨hk, ?_⟩
      -- An earlier occurrence would be in the map.
      intro l hl hla
      rcases exists_first hla with ⟨i, hle, hi⟩
      exact hfresh (hin.mpr ⟨i, (h a i).mpr ⟨Nat.lt_of_le_of_lt hle hl, hi⟩⟩)
    constructor
    · intro hi
      cases hi
      exact ⟨Or.inr rfl, hfirst⟩
    · rintro ⟨hlt | rfl, hi⟩
      · exact absurd (hin.mpr ⟨i, (h a i).mpr ⟨hlt, hi⟩⟩) hfresh
      · rfl
  · rename_i hold
    rw [h d i]
    constructor
    · exact fun hi => ⟨Or.inl hi.1, hi.2⟩
    · rintro ⟨hlt | rfl, hi⟩
      · exact ⟨hlt, hi⟩
      · exfalso
        have had : a = d := by
          rw [hi.1, Option.some.injEq] at hk
          exact hk.symm
        subst had
        have hmem : a ∈ m := by
          by_contra hfresh
          exact hold ⟨beq_self_eq_true a, hfresh⟩
        rcases hin.mp hmem with ⟨l, hl⟩
        have hl := (h a l).mp hl
        exact hi.2 l hl.1 hl.2.1

theorem getElem?_firstOldByKey (oldDeps : List NodeId) (d : NodeId) (i : Nat) :
    (firstOldByKey oldDeps)[d]? = some i ↔ First oldDeps i d := by
  have hstart : ∀ (d : NodeId) (i : Nat),
      (∅ : Std.HashMap NodeId Nat)[d]? = some i ↔ i < 0 ∧ First oldDeps i d := by
    intro d i
    rw [Std.HashMap.getElem?_empty]
    exact ⟨fun h => (by cases h), fun h => absurd h.1 (Nat.not_lt_zero i)⟩
  have hall := foldl_zipIdx (f := fun m p => m.insertIfNew p.1 p.2)
    (P := fun k (m : Std.HashMap NodeId Nat) => ∀ (d : NodeId) (i : Nat),
      m[d]? = some i ↔ i < k ∧ First oldDeps i d)
    (fun k a m hk h => insertIfNew_first hk h) hstart
  refine (hall d i).trans ⟨fun h => h.2, fun h => ⟨?_, h⟩⟩
  exact (List.getElem?_eq_some_iff.mp h.1).1

/-- The first positions not yet taken by `k` new deps, and the pairs made. -/
structure Taken (oldDeps newDeps : List NodeId) (k : Nat)
    (s : Std.HashMap NodeId Nat × Matching) : Prop where
  left : ∀ (d : NodeId) (i : Nat), s.1[d]? = some i ↔
    First oldDeps i d ∧ ∀ j < k, newDeps[j]? ≠ some d
  pairs : s.2.Pairs oldDeps newDeps fun j i => j < k ∧ Keeps oldDeps newDeps j i

theorem takeOne_taken (hnew : newDeps.Nodup)
    {s : Std.HashMap NodeId Nat × Matching} (hk : newDeps[k]? = some d)
    (h : Taken oldDeps newDeps k s) : Taken oldDeps newDeps (k + 1) (takeOne s (d, k)) := by
  have hlt := (List.getElem?_eq_some_iff.mp hk).1
  have hfresh : ∀ j < k, newDeps[j]? ≠ some d := by
    intro j hj hjd
    have hjlt := Nat.lt_trans hj hlt
    exact Nat.ne_of_lt hj ((List.getElem?_inj hjlt hnew).mp (hjd.trans hk.symm))
  unfold takeOne
  split
  · rename_i i hi
    have hfirst := ((h.left d i).mp hi).1
    have hkeeps : Keeps oldDeps newDeps k i := keeps_iff_first.mpr ⟨d, hk, hfirst⟩
    refine ⟨?_, ?_⟩
    · intro e l
      rw [Std.HashMap.getElem?_erase]
      split
      · rename_i heq
        have hde := eq_of_beq heq
        subst hde
        exact ⟨fun h => (by cases h), fun h => absurd hk (h.2 k (Nat.lt_succ_self k))⟩
      · rename_i hne
        refine (h.left e l).trans (and_congr_right fun _ => ⟨?_, ?_⟩)
        · intro hj j hjk hje
          rcases Nat.lt_succ_iff_lt_or_eq.mp hjk with hjk | rfl
          · exact hj j hjk hje
          · rw [hk, Option.some.injEq] at hje
            exact hne (by rw [hje, beq_self_eq_true])
        · exact fun hj j hjk => hj j (Nat.lt_succ_of_lt hjk)
    · have hpair := h.pairs.pair (i := i) (j := k) hkeeps.lt.2 hlt
        (fun j hj => Nat.ne_of_lt hj.1 (keeps_injective hnew hj.2 hkeeps))
        (fun i' hi' => Nat.lt_irrefl k hi'.1)
      refine hpair.congr ?_
      intro j' i'
      rw [Nat.lt_succ_iff_lt_or_eq]
      constructor
      · rintro (⟨hj, hold⟩ | ⟨rfl, rfl⟩)
        · exact ⟨Or.inl hj, hold⟩
        · exact ⟨Or.inr rfl, hkeeps⟩
      · rintro ⟨hj | rfl, hold⟩
        · exact Or.inl ⟨hj, hold⟩
        · exact Or.inr ⟨keeps_functional hold hkeeps, rfl⟩
  · rename_i hnone
    have hgone : ∀ i, ¬ First oldDeps i d := by
      intro i hi
      have := (h.left d i).mpr ⟨hi, hfresh⟩
      rw [hnone] at this
      cases this
    refine ⟨?_, h.pairs.congr ?_⟩
    · intro e l
      refine (h.left e l).trans ⟨fun he => ⟨he.1, ?_⟩, fun he => ⟨he.1, ?_⟩⟩
      · intro j hjk hje
        rcases Nat.lt_succ_iff_lt_or_eq.mp hjk with hjk | rfl
        · exact he.2 j hjk hje
        · rw [hk, Option.some.injEq] at hje
          exact hgone l (hje ▸ he.1)
      · exact fun j hjk => he.2 j (Nat.lt_succ_of_lt hjk)
    · intro j i
      rw [Nat.lt_succ_iff_lt_or_eq]
      refine ⟨fun ⟨hj, hold⟩ => ⟨Or.inl hj, hold⟩, ?_⟩
      rintro ⟨hj | rfl, hold⟩
      · exact ⟨hj, hold⟩
      · rcases keeps_iff_first.mp hold with ⟨e, hje, hi⟩
        rw [hk, Option.some.injEq] at hje
        exact absurd (hje ▸ hi) (hgone i)

theorem matchHashed_pairs (hnew : newDeps.Nodup) :
    (matchHashed oldDeps newDeps).Pairs oldDeps newDeps (Keeps oldDeps newDeps) := by
  have hstart : Taken oldDeps newDeps 0 (firstOldByKey oldDeps, .start oldDeps newDeps) := by
    refine ⟨?_, (Matching.start_pairs oldDeps newDeps).congr ?_⟩
    · intro d i
      refine (getElem?_firstOldByKey oldDeps d i).trans ⟨fun h => ⟨h, ?_⟩, fun h => h.1⟩
      exact fun j hj => absurd hj (Nat.not_lt_zero j)
    · exact fun j i => ⟨False.elim, fun h => Nat.not_lt_zero j h.1⟩
  have hall := foldl_zipIdx (f := takeOne) (P := Taken oldDeps newDeps)
    (fun k d s hk h => takeOne_taken hnew hk h) hstart
  exact hall.pairs.congr fun j i => ⟨fun h => h.2, fun h => ⟨h.lt.1, h⟩⟩

/-! ### The three ways agree -/

theorem rewireMatching_pairs (hnew : newDeps.Nodup) :
    (rewireMatching oldDeps newDeps).Pairs oldDeps newDeps (Keeps oldDeps newDeps) := by
  unfold rewireMatching
  split_ifs
  · exact matchSmall_pairs hnew
  · exact matchHashed_pairs hnew

theorem keeps_of_noOverlap (h : sameGraphNoOverlap oldDeps newDeps = true) (j i : Nat) :
    ¬ Keeps oldDeps newDeps j i := by
  intro hkeeps
  rcases keeps_iff.mp hkeeps with ⟨d, hj, hi, _⟩
  have hany : newDeps.any (fun d => d ∈ oldDeps) = true := by
    rw [any_eq_true]
    exact ⟨d, mem_of_getElem? hj, decide_eq_true (mem_of_getElem? hi)⟩
  rw [sameGraphNoOverlap, hany] at h
  cases h

theorem Matching.Pairs.lists {m : Matching}
    (h : m.Pairs oldDeps newDeps (Keeps oldDeps newDeps)) :
    m.newToOld = Config.newToOld oldDeps newDeps ∧
      m.removed oldDeps = removedIdxs oldDeps newDeps ∧
      m.added newDeps = addedDeps oldDeps newDeps := by
  have hn : m.newToOld = Config.newToOld oldDeps newDeps :=
    ext_of_some (h.newLength.trans (length_newToOld oldDeps newDeps).symm) h.new
  refine ⟨hn, ?_, ?_⟩
  · unfold Matching.removed removedIdxs
    refine filter_congr ?_
    intro i _
    rw [Bool.eq_iff_iff, getD_isNone_iff, decide_eq_true_eq, mem_iff_getElem?, not_exists]
    exact forall_congr' fun j => not_congr (h.old i j)
  · unfold Matching.added addedDeps
    refine filter_congr ?_
    rintro ⟨j, d⟩ hp
    rcases mem_mapIdx.mp hp with ⟨k, hk, heq⟩
    cases heq
    have hj : newDeps[j]? = some newDeps[j] := List.getElem?_eq_getElem hk
    rw [Bool.eq_iff_iff, getD_isNone_iff, decide_eq_true_eq, ← newToOld_eq_none hj, ← hn]
    constructor
    · intro hnone
      have hlt : j < m.newToOld.length := by rw [h.newLength]; exact hk
      rw [List.getElem?_eq_getElem hlt, Option.some.injEq]
      cases hv : m.newToOld[j] with
      | none => rfl
      | some i => exact absurd (by rw [List.getElem?_eq_getElem hlt, hv]) (hnone i)
    · intro hnone i hi
      rw [hnone] at hi
      cases hi

/-- The small loop and the map give the same matching, which keeps nothing when
    the lists share no dep, and what is read off it are the removed and the added
    deps. -/
theorem matchings_agree (hnew : newDeps.Nodup) :
    matchSmall oldDeps newDeps = matchHashed oldDeps newDeps ∧
      (sameGraphNoOverlap oldDeps newDeps = true →
        matchSmall oldDeps newDeps = .start oldDeps newDeps) ∧
      (rewireMatching oldDeps newDeps).newToOld = newToOld oldDeps newDeps ∧
      (rewireMatching oldDeps newDeps).removed oldDeps = removedIdxs oldDeps newDeps ∧
      (rewireMatching oldDeps newDeps).added newDeps = addedDeps oldDeps newDeps := by
  have hsmall : (matchSmall oldDeps newDeps).Pairs oldDeps newDeps (Keeps oldDeps newDeps) :=
    matchSmall_pairs hnew
  refine ⟨hsmall.unique (matchHashed_pairs hnew), ?_, (rewireMatching_pairs hnew).lists⟩
  intro hoverlap
  have hnone := keeps_of_noOverlap hoverlap
  exact (hsmall.congr fun j i => iff_false_intro (hnone j i)).unique
    (Matching.start_pairs oldDeps newDeps)

end Config

end GraphRefly
