import Mathlib.Data.List.Nodup
import Mathlib.Data.List.Induction
import Mathlib.Data.List.TakeWhile

/-!
# First Occurrences

A list with every later repeat dropped. Collecting from the left keeps the
order in which the elements are first seen; it commutes with appending an
element that is new and with filtering, and an element keeps its position when
nothing before it repeats.

## Main definitions

* `addNew`: Append an element unless it is there.
* `firstSeen`: The first occurrence of every element.

## Theorems

* `firstSeen_append`: What a second list adds.
* `firstSeen_filter`, `firstSeen_addNew`: What it commutes with.
* `takeWhile_addNew`: What stands before an element.
* `getElem?_idxOf_firstSeen`: When an element keeps its position.
-/

namespace FirstSeen

open List

variable {α : Type*} [DecidableEq α]

/-- Append an element unless it is there. -/
def addNew (out : List α) (a : α) : List α :=
  if a ∈ out then out else out ++ [a]

/-- The first occurrence of every element, in order. -/
def firstSeen (xs : List α) : List α :=
  xs.foldl addNew []

@[simp] theorem firstSeen_nil : firstSeen ([] : List α) = [] := rfl

theorem firstSeen_concat (xs : List α) (a : α) :
    firstSeen (xs ++ [a]) = addNew (firstSeen xs) a := by
  rw [firstSeen, foldl_append]
  rfl

variable {a b : α}

theorem mem_addNew {out : List α} : b ∈ addNew out a ↔ b ∈ out ∨ b = a := by
  unfold addNew
  split_ifs with h
  · constructor
    · exact Or.inl
    · rintro (hb | rfl)
      · exact hb
      · exact h
  · rw [mem_append, mem_singleton]

variable {xs : List α}

@[simp] theorem mem_firstSeen : b ∈ firstSeen xs ↔ b ∈ xs := by
  induction xs using List.reverseRecOn with
  | nil => rfl
  | append_singleton xs a ih =>
    rw [firstSeen_concat, mem_addNew, ih, mem_append, mem_singleton]

theorem nodup_firstSeen (xs : List α) : (firstSeen xs).Nodup := by
  induction xs using List.reverseRecOn with
  | nil => exact nodup_nil
  | append_singleton xs a ih =>
    rw [firstSeen_concat, addNew]
    split_ifs with h
    · exact ih
    · rw [nodup_append_comm]
      exact nodup_cons.mpr ⟨h, ih⟩

theorem firstSeen_sublist (xs : List α) : (firstSeen xs).Sublist xs := by
  induction xs using List.reverseRecOn with
  | nil => exact List.Sublist.refl _
  | append_singleton xs a ih =>
    rw [firstSeen_concat, addNew]
    split_ifs with h
    · exact ih.trans (sublist_append_left xs [a])
    · exact ih.append (List.Sublist.refl [a])

theorem length_firstSeen_iff (xs : List α) : (firstSeen xs).length = xs.length ↔ xs.Nodup := by
  constructor
  · intro h
    rw [← (firstSeen_sublist xs).eq_of_length h]
    exact nodup_firstSeen xs
  · intro h
    induction xs using List.reverseRecOn with
    | nil => rfl
    | append_singleton xs a ih =>
      rw [nodup_append_comm] at h
      have hn := nodup_cons.mp h
      have ha : a ∉ firstSeen xs := by rw [mem_firstSeen]; exact hn.1
      rw [firstSeen_concat, addNew, if_neg ha, length_append, ih hn.2, length_append]

theorem firstSeen_of_nodup (h : xs.Nodup) : firstSeen xs = xs :=
  (firstSeen_sublist xs).eq_of_length ((length_firstSeen_iff xs).mpr h)

theorem firstSeen_idem (xs : List α) : firstSeen (firstSeen xs) = firstSeen xs :=
  firstSeen_of_nodup (nodup_firstSeen xs)

/-- Whether a list has an element does not depend on its repeats. -/
theorem firstSeen_addNew (xs : List α) (a : α) :
    firstSeen (addNew xs a) = addNew (firstSeen xs) a := by
  by_cases h : a ∈ xs
  · rw [addNew, if_pos h, addNew, if_pos (mem_firstSeen.mpr h)]
  · rw [addNew, if_neg h, firstSeen_concat]

theorem firstSeen_filter (p : α → Bool) (xs : List α) :
    firstSeen (xs.filter p) = (firstSeen xs).filter p := by
  induction xs using List.reverseRecOn with
  | nil => rfl
  | append_singleton xs a ih =>
    rw [filter_append, firstSeen_concat]
    by_cases hp : p a
    · rw [filter_cons_of_pos hp, filter_nil, firstSeen_concat, ih, addNew, addNew]
      by_cases ha : a ∈ firstSeen xs
      · rw [if_pos ha, if_pos (mem_filter.mpr ⟨ha, hp⟩)]
      · have hn : a ∉ (firstSeen xs).filter p := fun hm => ha (mem_filter.mp hm).1
        rw [if_neg ha, if_neg hn, filter_append, filter_cons_of_pos hp, filter_nil]
    · rw [filter_cons_of_neg hp, filter_nil, append_nil, ih, addNew]
      split_ifs
      · rfl
      · rw [filter_append, filter_cons_of_neg hp, filter_nil, append_nil]

/-- A second list adds what the first one does not have. -/
theorem firstSeen_append (xs ys : List α) :
    firstSeen (xs ++ ys) = firstSeen xs ++ (firstSeen ys).filter (· ∉ xs) := by
  induction ys using List.reverseRecOn with
  | nil => rw [append_nil, firstSeen_nil, filter_nil, append_nil]
  | append_singleton ys a ih =>
    rw [← append_assoc, firstSeen_concat, firstSeen_concat, ih]
    -- The new element may be in the first list, in the second, or in neither.
    by_cases hx : a ∈ xs
    · have hl : a ∈ firstSeen xs ++ (firstSeen ys).filter (· ∉ xs) :=
        mem_append_left _ (mem_firstSeen.mpr hx)
      rw [addNew, if_pos hl, addNew]
      split_ifs
      · rfl
      · rw [filter_append, filter_cons_of_neg (by simpa using hx), filter_nil,
          append_nil]
    · by_cases hy : a ∈ firstSeen ys
      · have hl : a ∈ firstSeen xs ++ (firstSeen ys).filter (· ∉ xs) :=
          mem_append_right _ (mem_filter.mpr ⟨hy, by simpa using hx⟩)
        rw [addNew, if_pos hl, addNew, if_pos hy]
      · have hl : a ∉ firstSeen xs ++ (firstSeen ys).filter (· ∉ xs) := by
          simp only [mem_append, mem_firstSeen, mem_filter, not_or, not_and]
          exact ⟨hx, fun h => absurd (mem_firstSeen.mpr h) hy⟩
        rw [addNew, if_neg hl, addNew, if_neg hy, filter_append,
          filter_cons_of_pos (by simpa using hx), filter_nil, append_assoc]

theorem firstSeen_cons (a : α) (xs : List α) :
    firstSeen (a :: xs) = a :: (firstSeen xs).filter (· ∉ [a]) :=
  firstSeen_append [a] xs

/-- The first occurrence of an element comes after those of the elements before
    it. -/
theorem firstSeen_split {front : List α} (h : a ∉ front) (back : List α) :
    ∃ rest, firstSeen (front ++ a :: back) = firstSeen front ++ a :: rest := by
  rw [firstSeen_append, firstSeen_cons, filter_cons, if_pos (by simpa using h)]
  exact ⟨_, rfl⟩

/-- Appending an element changes nothing before its first occurrence. -/
theorem takeWhile_addNew (xs : List α) (a : α) :
    (addNew xs a).takeWhile (· ≠ a) = xs.takeWhile (· ≠ a) := by
  unfold addNew
  split_ifs with h
  · rfl
  · have hne : ∀ b ∈ xs, decide (b ≠ a) = true := by
      intro b hb
      exact decide_eq_true fun hba => h (hba ▸ hb)
    rw [takeWhile_append_of_pos hne, takeWhile_cons_of_neg (by simp), append_nil,
      takeWhile_eq_self_iff.mpr hne]

/-- An element keeps its position exactly when nothing before it repeats. -/
theorem getElem?_idxOf_firstSeen (h : a ∈ xs) :
    (firstSeen xs)[xs.idxOf a]? = some a ↔ (xs.takeWhile (· ≠ a)).Nodup := by
  rcases eq_append_cons_of_mem h with ⟨front, back, rfl, hfront⟩
  have htake : (front ++ a :: back).takeWhile (· ≠ a) = front := by
    rw [takeWhile_append_of_pos, takeWhile_cons_of_neg (by simp), append_nil]
    intro b hb
    exact decide_eq_true fun hba => hfront (hba ▸ hb)
  have hidx : (front ++ a :: back).idxOf a = front.length := by
    rw [idxOf_append_of_notMem hfront, idxOf_cons_self, Nat.add_zero]
  have hnodup := nodup_firstSeen (front ++ a :: back)
  rcases firstSeen_split hfront back with ⟨rest, hsplit⟩
  rw [hsplit] at hnodup
  rw [htake, hidx, hsplit, ← length_firstSeen_iff front]
  have hat : (firstSeen front ++ a :: rest)[(firstSeen front).length]? = some a := by
    rw [List.getElem?_append_right (Nat.le_refl _), Nat.sub_self, List.getElem?_cons_zero]
  constructor
  · intro hk
    refine (List.getElem?_inj ?_ hnodup).mp (hat.trans hk.symm)
    rw [length_append, length_cons]
    omega
  · intro hk
    rw [← hk]
    exact hat

end FirstSeen
