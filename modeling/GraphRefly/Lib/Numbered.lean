import Mathlib.Data.List.Range
import Mathlib.Data.List.Infix

/-!
# Numbered Lists

Lists whose items carry consecutive numbers, as a log does that counts its
entries, and windows onto such a list from which old items have been dropped.

An item is found by its number, so that a reader who remembers the number it
has come to reads on from there: filtering by number is dropping a prefix.

`KeepsTail` is what a trim by an arbitrary test has to meet for the trimmed list
to be a window again: an item that is kept is followed by kept items only.

## Main definitions

* `Numbered`: Consecutive numbers from a first one on.
* `KeepsTail`: The items a trim keeps stand at the end.

## Theorems

* `Numbered.concat`: Appending the next number.
* `Numbered.drop`: Dropping a prefix moves the first number.
* `Numbered.filter_le`: Reading on from a number.
* `KeepsTail.trim_suffix`: What a trim keeps is a suffix.
-/

namespace GraphRefly.Lib

open List

variable {α : Type} {number : α → Nat}

/-- The items carry the numbers `first`, `first + 1` and so on. -/
def Numbered (number : α → Nat) (first : Nat) (items : List α) : Prop :=
  items.map number = List.range' first items.length

namespace Numbered

theorem nil (first : Nat) : Numbered number first [] := rfl

variable {first : Nat} {items : List α} {item : α}

theorem concat (h : Numbered number first items)
    (hitem : number item = first + items.length) : Numbered number first (items ++ [item]) := by
  rw [Numbered, map_append, h, length_append, length_singleton,
    List.range'_concat, map_singleton, hitem, Nat.one_mul]

theorem cons (h : Numbered number (first + 1) items)
    (hitem : number item = first) : Numbered number first (item :: items) := by
  rw [Numbered, map_cons, h, hitem, length_cons, List.range'_succ]

theorem append {more : List α} (h : Numbered number first items)
    (hmore : Numbered number (first + items.length) more) :
    Numbered number first (items ++ more) := by
  rw [Numbered, map_append, h, hmore, length_append, List.range'_append_1]

theorem getElem (h : Numbered number first items) {i : Nat}
    (hi : i < items.length) : number items[i] = first + i := by
  have hget := congrArg (fun numbers => numbers[i]?) h
  simpa [List.getElem?_range', hi] using hget

theorem bounds (h : Numbered number first items)
    (hitem : item ∈ items) : first ≤ number item ∧ number item < first + items.length := by
  obtain ⟨i, hi, rfl⟩ := getElem_of_mem hitem
  rw [h.getElem hi]
  omega

theorem pairwise (h : Numbered number first items) :
    items.Pairwise fun a b => number a < number b := by
  have hrange : (items.map number).Pairwise (· < ·) := by
    rw [h]
    exact pairwise_lt_range'
  exact pairwise_map.mp hrange

theorem drop (h : Numbered number first items) (k : Nat) :
    Numbered number (first + k) (items.drop k) := by
  rw [Numbered, map_drop, h, drop_range', length_drop, Nat.mul_one]

theorem tail (h : Numbered number first (item :: items)) :
    Numbered number (first + 1) items := by
  have hdrop := h.drop 1
  simpa using hdrop

theorem head (h : Numbered number first (item :: items)) :
    number item = first :=
  h.getElem (i := 0) (by simp)

theorem head_getD (h : Numbered number first items) :
    (items.head?.map number).getD (first + items.length) = first := by
  cases items with
  | nil => rfl
  | cons item items => exact h.head

theorem filter_le (h : Numbered number first items) (n : Nat) :
    (items.filter fun item => decide (n ≤ number item)) = items.drop (n - first) := by
  induction items generalizing first with
  | nil => simp
  | cons item items ih =>
    have hhead := h.head
    have hrest := ih h.tail
    by_cases hle : n ≤ first
    · -- Nothing is dropped: the first item carries a large enough number.
      have hzero : n - first = 0 := by omega
      have hzero' : n - (first + 1) = 0 := by omega
      rw [filter_cons_of_pos (by simpa [hhead] using hle), hrest, hzero, hzero']
      rfl
    · have hsucc : n - first = (n - (first + 1)) + 1 := by omega
      rw [filter_cons_of_neg (by simpa [hhead] using hle), hrest, hsucc]
      rfl

theorem eq_drop_of_suffix {window : List α} (h : Numbered number first items)
    (hsuffix : window <:+ items) :
    window = items.drop (items.length - window.length) ∧
      Numbered number (first + (items.length - window.length)) window := by
  have heq := suffix_iff_eq_drop.mp hsuffix
  refine ⟨heq, ?_⟩
  have hdrop := h.drop (items.length - window.length)
  rwa [← heq] at hdrop

end Numbered

/-! ### Trims -/

/-- The items a trim keeps stand at the end: one that passes the test, with
    fewer than `limit` passing items after it, is followed by passing items
    only. -/
def KeepsTail (test : α → Bool) (limit : Option Nat) (items : List α) : Prop :=
  ∀ before item after, items = before ++ item :: after → test item = true →
    (∀ n, limit = some n → (after.filter test).length < n) → ∀ later ∈ after, test later = true

/-- The items that pass the test, and of these the last ones. -/
def trim (test : α → Bool) (limit : Option Nat) (items : List α) : List α :=
  match limit with
  | none => items.filter test
  | some n => (items.filter test).drop ((items.filter test).length - n)

variable {test : α → Bool} {limit : Option Nat} {items : List α}

theorem KeepsTail.tail {item : α}
    (h : KeepsTail test limit (item :: items)) : KeepsTail test limit items := by
  intro before other after heq
  exact h (item :: before) other after (by rw [heq, cons_append])

/-- What a trim keeps is a suffix. -/
theorem KeepsTail.trim_suffix
    (h : KeepsTail test limit items) : trim test limit items <:+ items := by
  induction items with
  | nil => cases limit <;> simp [trim]
  | cons item items ih =>
    have hrest := ih h.tail
    have hcons : items <:+ item :: items := suffix_cons item items
    by_cases htest : test item = true
    · -- The first item passes. It is kept unless enough passing items follow.
      have hkeep (hfew : ∀ n, limit = some n → (items.filter test).length < n) :
          trim test limit (item :: items) = item :: items := by
        have hall : items.filter test = items :=
          filter_eq_self.mpr (h [] item items rfl htest hfew)
        have hfilter : (item :: items).filter test = item :: items := by
          rw [filter_cons_of_pos htest, hall]
        cases limit with
        | none => exact hfilter
        | some n =>
          have hn := hfew n rfl
          rw [hall] at hn
          have hzero : (item :: items).length - n = 0 := by
            rw [length_cons]
            omega
          rw [trim, hfilter, hzero, drop_zero]
      cases limit with
      | none => rw [hkeep (by simp)]
      | some n =>
        by_cases hn : (items.filter test).length < n
        · rw [hkeep (by rintro m ⟨⟩; exact hn)]
        · -- The limit is filled by what follows.
          have heq : trim test (some n) (item :: items) = trim test (some n) items := by
            have hsucc : (items.filter test).length + 1 - n =
                ((items.filter test).length - n) + 1 := by omega
            rw [trim, trim, filter_cons_of_pos htest, length_cons, hsucc,
              drop_succ_cons]
          rw [heq]
          exact hrest.trans hcons
    · have heq : trim test limit (item :: items) = trim test limit items := by
        cases limit <;> simp only [trim, filter_cons_of_neg htest]
      rw [heq]
      exact hrest.trans hcons

theorem KeepsTail.of_pairwise (h : items.Pairwise fun a b => test a = true → test b = true) :
    KeepsTail test limit items := by
  intro before item after heq htest _ later hlater
  rw [heq, pairwise_append] at h
  exact (pairwise_cons.mp h.2.1).1 later hlater htest

theorem KeepsTail.of_map {β : Type} {test : β → Bool} {f : α → β}
    (h : KeepsTail test limit (items.map f)) :
    KeepsTail (fun item => test (f item)) limit items := by
  intro before item after heq htest hfew later hlater
  refine h (before.map f) (f item) (after.map f) (by simp [heq]) htest ?_ _
    (mem_map_of_mem hlater)
  intro n hn
  rw [filter_map, length_map]
  exact hfew n hn

end GraphRefly.Lib
