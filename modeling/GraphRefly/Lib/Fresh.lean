import Mathlib.Data.List.Nodup
import Mathlib.Data.List.Infix

/-!
# Fresh Identifiers

Two ways to keep identifiers apart. A window holds the newest of the identifiers
that were seen, at most as many as a bound allows, and is trimmed after every
one that is added. A batch is prepared as a whole: every item gets its identifier,
and the first one whose identifier is taken, by an earlier batch or within this
one, refuses the batch.

## Main definitions

* `newest`: The newest entries of a list.
* `trimWindow`: A window after a trim, with the count of what was evicted.
* `FreshIn`: Every entry is new to the window of those before it.
* `prepareFresh`: A batch under fresh identifiers.

## Theorems

* `newest_concat`: Trimming now or later leaves the same window.
* `mem_newest_append`: What is in the window of a longer list.
* `FreshIn.append`: What may follow a list of fresh entries.
* `prepareFresh_ok`, `prepareFresh_error`: What a prepared batch is.
-/

namespace GraphRefly.Lib

open List

section Window

variable {α : Type}

/-- The newest entries of a list, the oldest first. Without a bound these are all. -/
def newest (bound : Option Nat) (items : List α) : List α :=
  match bound with
  | none => items
  | some n => items.drop (items.length - n)

theorem newest_some (n : Nat) (items : List α) :
    newest (some n) items = items.drop (items.length - n) := rfl

@[simp] theorem newest_nil (bound : Option Nat) : newest bound ([] : List α) = [] := by
  cases bound <;> simp [newest]

/-- Dropping what a trim has dropped already changes nothing. -/
theorem newest_concat (bound : Option Nat) (items : List α) (item : α) :
    newest bound (newest bound items ++ [item]) = newest bound (items ++ [item]) := by
  cases bound with
  | none => rfl
  | some n =>
    simp only [newest_some, length_append, length_drop, length_singleton]
    by_cases hle : items.length ≤ n
    · have hzero : items.length - n = 0 := by omega
      rw [hzero, drop_zero, Nat.sub_zero]
    · have hkept : items.length - (items.length - n) = n := by omega
      rw [hkept]
      by_cases hn : n = 0
      · subst hn
        rw [drop_of_length_le (by simp), drop_of_length_le (by simp)]
      · have hone : n + 1 - n = 1 := by omega
        have hsplit : items.length + 1 - n = (items.length - n) + 1 := by omega
        rw [hone, hsplit, drop_append_of_le_length (by rw [length_drop]; omega),
          drop_append_of_le_length (by omega), drop_drop]

variable {bound : Option Nat} {items more : List α}

/-- The window of a longer list reaches back into the window of the shorter one. -/
theorem mem_newest_append {a : α}
    (h : a ∈ newest bound (items ++ more)) : a ∈ newest bound items ∨ a ∈ more := by
  cases bound with
  | none => exact mem_append.mp h
  | some n =>
    rw [newest_some, length_append, drop_append, mem_append] at h
    rcases h with h | h
    · exact Or.inl ((drop_sublist_drop_left items (by omega)).subset h)
    · exact Or.inr (mem_of_mem_drop h)

/-- Every entry is new to the window of those before it. -/
def FreshIn (bound : Option Nat) (items : List α) : Prop :=
  ∀ earlier item later, items = earlier ++ item :: later → item ∉ newest bound earlier

theorem FreshIn.nil (bound : Option Nat) : FreshIn bound ([] : List α) :=
  fun earlier item later h => absurd h (by simp)

/-- Entries that are new to the window and different from each other may follow. -/
theorem FreshIn.append (h : FreshIn bound items)
    (hnodup : more.Nodup) (hnew : ∀ item ∈ more, item ∉ newest bound items) :
    FreshIn bound (items ++ more) := by
  intro earlier item later heq
  rcases append_eq_append_iff.mp heq with ⟨first, rfl, hmore⟩ | ⟨last, hitems, hlater⟩
  · -- The entry is one of those that follow.
    intro hmem
    rw [hmore] at hnodup hnew
    rcases mem_newest_append hmem with hold | hfirst
    · exact hnew item (by simp) hold
    · exact disjoint_of_nodup_append hnodup hfirst mem_cons_self
  · cases last with
    | nil =>
      rw [append_nil] at hitems
      subst hitems
      exact hnew item (by rw [← nil_append more, ← hlater]; exact mem_cons_self)
    | cons head last =>
      obtain ⟨rfl, -⟩ := List.cons.inj hlater
      exact h earlier item last hitems

/-- A window after a trim, and how many entries have been evicted from it so far. -/
def trimWindow (bound : Option Nat) (items : List α) (evicted : Nat) : List α × Nat :=
  match bound with
  | none => (items, evicted)
  | some n =>
    if items.length ≤ n then (items, evicted)
    else (items.drop (items.length - n), evicted + (items.length - n))

@[simp] theorem trimWindow_fst (bound : Option Nat) (items : List α) (evicted : Nat) :
    (trimWindow bound items evicted).1 = newest bound items := by
  cases bound with
  | none => rfl
  | some n =>
    rw [trimWindow, newest_some]
    split
    case isTrue hle => rw [Nat.sub_eq_zero_of_le hle, drop_zero]
    case isFalse => rfl

end Window

section Prepare

variable {δ π ε : Type}

/-- A batch under fresh identifiers. An item is turned into what is prepared by `assign`,
    which is told its place in the batch. -/
def prepareFresh (assign : Nat → δ → Except ε π) (id : π → String) (duplicate : String → ε)
    (taken : List String) : Nat → List String → List δ → Except ε (List π)
  | _, _, [] => .ok []
  | index, seen, draft :: drafts =>
    match assign index draft with
    | .error error => .error error
    | .ok item =>
      if id item ∈ taken ∨ id item ∈ seen then .error (duplicate (id item))
      else
        match prepareFresh assign id duplicate taken (index + 1) (seen ++ [id item]) drafts with
        | .error error => .error error
        | .ok items => .ok (item :: items)

/-- What was prepared is assigned item by item, under identifiers that were not taken and
    are different from each other. -/
structure Prepared (assign : Nat → δ → Except ε π) (id : π → String) (taken : List String)
    (index : Nat) (seen : List String) (drafts : List δ) (items : List π) : Prop where
  assigned : List.Forall₂ (fun draft item => assign draft.2 draft.1 = .ok item)
    (drafts.zipIdx index) items
  nodup : (items.map id).Nodup
  fresh : ∀ item ∈ items, id item ∉ taken ∧ id item ∉ seen

variable {assign : Nat → δ → Except ε π} {id : π → String} {duplicate : String → ε}
  {taken seen : List String} {index : Nat} {drafts : List δ}

theorem prepareFresh_ok {items : List π}
    (h : prepareFresh assign id duplicate taken index seen drafts = .ok items) :
    Prepared assign id taken index seen drafts items := by
  induction drafts generalizing index seen items with
  | nil =>
    cases h
    exact ⟨.nil, nodup_nil, fun item hitem => absurd hitem not_mem_nil⟩
  | cons draft drafts ih =>
    rw [prepareFresh] at h
    cases hassign : assign index draft with
    | error error =>
      rw [hassign] at h
      cases h
    | ok item =>
      simp only [hassign] at h
      by_cases htaken : id item ∈ taken ∨ id item ∈ seen
      · rw [if_pos htaken] at h
        cases h
      · rw [if_neg htaken] at h
        cases hrest : prepareFresh assign id duplicate taken (index + 1) (seen ++ [id item])
            drafts with
        | error error =>
          simp only [hrest] at h
          cases h
        | ok rest =>
          simp only [hrest, Except.ok.injEq] at h
          subst h
          have hih := ih hrest
          rw [not_or] at htaken
          refine ⟨.cons hassign hih.assigned, ?_, ?_⟩
          · rw [map_cons, nodup_cons]
            refine ⟨fun hmem => ?_, hih.nodup⟩
            obtain ⟨other, hother, heq⟩ := mem_map.mp hmem
            exact (hih.fresh other hother).2 (heq ▸ by simp)
          · intro other hother
            rcases mem_cons.mp hother with rfl | hother
            · exact htaken
            · obtain ⟨hnot, hseen⟩ := hih.fresh other hother
              exact ⟨hnot, fun hin => hseen (mem_append_left _ hin)⟩

/-- A batch is refused by the checks of an item or by an identifier that is taken. -/
theorem prepareFresh_error {error : ε}
    (h : prepareFresh assign id duplicate taken index seen drafts = .error error) :
    (∃ i, ∃ draft ∈ drafts, assign i draft = .error error) ∨ ∃ key, error = duplicate key := by
  induction drafts generalizing index seen with
  | nil => cases h
  | cons draft drafts ih =>
    rw [prepareFresh] at h
    cases hassign : assign index draft with
    | error other =>
      simp only [hassign, Except.error.injEq] at h
      subst h
      exact Or.inl ⟨index, draft, mem_cons_self, hassign⟩
    | ok item =>
      simp only [hassign] at h
      by_cases htaken : id item ∈ taken ∨ id item ∈ seen
      · rw [if_pos htaken, Except.error.injEq] at h
        exact Or.inr ⟨id item, h.symm⟩
      · rw [if_neg htaken] at h
        cases hrest : prepareFresh assign id duplicate taken (index + 1) (seen ++ [id item])
            drafts with
        | error other =>
          simp only [hrest, Except.error.injEq] at h
          subst h
          rcases ih hrest with ⟨i, d, hd, hi⟩ | hkey
          · exact Or.inl ⟨i, d, mem_cons_of_mem _ hd, hi⟩
          · exact Or.inr hkey
        | ok rest =>
          simp only [hrest] at h
          cases h

end Prepare

end GraphRefly.Lib
