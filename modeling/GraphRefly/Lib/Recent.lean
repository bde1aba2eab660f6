import Mathlib.Data.Finset.Card

/-!
# A Bounded Memory

A memory that holds a limited number of things, each once, and forgets the
oldest. Seeing a thing again does not make it younger. What has just been put
in is therefore safe until the limit is reached by other things: they are all
distinct, because none of them can be forgotten before it.

## Main definitions

* `remember`: Put one thing in.

## Theorems

* `nodup_remember`: Everything is held once.
* `mem_foldl_remember`: What was put in stays while few others follow.
-/

namespace Recent

open List

variable {α : Type*} [DecidableEq α] {limit : Nat} {order older newer : List α} {a b : α}

/-- Put one thing in, and forget the oldest ones over the limit. -/
def remember (limit : Nat) (order : List α) (a : α) : List α :=
  if a ∈ order then order else (order ++ [a]).drop ((order ++ [a]).length - limit)

theorem nodup_remember (h : order.Nodup) : (remember limit order a).Nodup := by
  unfold remember
  by_cases ha : a ∈ order
  · rw [if_pos ha]
    exact h
  · rw [if_neg ha]
    have hconcat : (order ++ [a]).Nodup := h.append (nodup_singleton a) (by simpa using ha)
    exact hconcat.sublist (drop_sublist _ _)

theorem remember_eq (hb : b ∉ older ++ a :: newer) (hroom : newer.length + 1 < limit) :
    ∃ kept, remember limit (older ++ a :: newer) b = kept ++ a :: (newer ++ [b]) := by
  refine ⟨older.drop ((older ++ a :: newer ++ [b]).length - limit), ?_⟩
  unfold remember
  rw [if_neg hb]
  have hlength : (older ++ a :: newer ++ [b]).length - limit ≤ older.length := by
    simp only [length_append, length_cons, length_nil]
    omega
  rw [append_assoc, cons_append, drop_append_of_le_length (by simpa using hlength)]

-- The induction keeps apart what is older and what is younger: every new thing is one more of
-- the younger, and all of these are distinct.
theorem mem_foldl_remember_of_newer {xs : List α} (hnodup : (older ++ a :: newer).Nodup)
    (h : (newer.toFinset ∪ xs.toFinset.erase a).card < limit) :
    a ∈ xs.foldl (remember limit) (older ++ a :: newer) := by
  induction xs generalizing older newer with
  | nil => simp
  | cons b xs ih =>
    rw [foldl_cons]
    by_cases hb : b ∈ older ++ a :: newer
    · have hsame : remember limit (older ++ a :: newer) b = older ++ a :: newer := if_pos hb
      rw [hsame]
      refine ih hnodup (Nat.lt_of_le_of_lt (Finset.card_le_card ?_) h)
      exact Finset.union_subset_union_right (Finset.erase_subset_erase a (by simp))
    · have hne : b ≠ a := by
        rintro rfl
        exact hb (by simp)
      have hsub : (newer ++ [b]).toFinset ∪ xs.toFinset.erase a ⊆
          newer.toFinset ∪ (b :: xs).toFinset.erase a := by
        intro c hc
        simp only [Finset.mem_union, mem_toFinset, mem_append, Finset.mem_erase,
          mem_cons, not_mem_nil, or_false] at hc ⊢
        rcases hc with (hc | rfl) | ⟨hca, hc⟩
        · exact .inl hc
        · exact .inr ⟨hne, .inl rfl⟩
        · exact .inr ⟨hca, .inr hc⟩
      have hcard := Nat.lt_of_le_of_lt (Finset.card_le_card hsub) h
      -- The younger ones are distinct, so their number is that of a set.
      have hyounger : (newer ++ [b]).Nodup := by
        have hnewer : newer.Nodup := (hnodup.sublist (sublist_append_right _ _)).of_cons
        refine hnewer.append (nodup_singleton b) ?_
        intro c hc hcb
        rw [mem_singleton.mp hcb] at hc
        exact hb (by simp [hc])
      have hroom : newer.length + 1 < limit := by
        have hcount := toFinset_card_of_nodup hyounger
        have hsub' : (newer ++ [b]).toFinset ⊆ (newer ++ [b]).toFinset ∪ xs.toFinset.erase a :=
          Finset.subset_union_left
        have hle := Finset.card_le_card hsub'
        rw [length_append, length_singleton] at hcount
        omega
      obtain ⟨kept, hkept⟩ := remember_eq hb hroom
      rw [hkept]
      refine ih ?_ hcard
      rw [← hkept]
      exact nodup_remember hnodup

/-- What was put in is still held while fewer than the limit of others follow. -/
theorem mem_foldl_remember {xs : List α} (hnodup : order.Nodup) (ha : a ∉ order)
    (hlimit : 0 < limit) (h : (xs.toFinset.erase a).card < limit) :
    a ∈ (a :: xs).foldl (remember limit) order := by
  rw [foldl_cons]
  have hfirst : remember limit order a =
      order.drop ((order ++ [a]).length - limit) ++ a :: [] := by
    unfold remember
    rw [if_neg ha, drop_append_of_le_length]
    simp only [length_append, length_singleton]
    omega
  rw [hfirst]
  refine mem_foldl_remember_of_newer ?_ (by simpa using h)
  rw [← hfirst]
  exact nodup_remember hnodup

end Recent
