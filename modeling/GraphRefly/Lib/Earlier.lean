import Mathlib.Data.List.Induction

/-!
# What Precedes an Element

A property of every element of a list and the elements before it, for lists that grow
at their end: it holds of the longer list exactly when it holds of the shorter one and
of the new element after all the others.

## Theorems

* `forall_split_nil`, `forall_split_concat`: The property by the last element.
* `exists_split_concat`: The same for some element, with the elements after it.
-/

namespace GraphRefly.Lib

open List

variable {T : Type} {P : List T → T → Prop}

theorem forall_split_nil : ∀ before y later, ([] : List T) = before ++ y :: later → P before y := by
  intro before y later heq
  exact absurd heq (by simp)

/-- What holds of every element of a list and those before it, by its last element. -/
theorem forall_split_concat {l : List T} {x : T} :
    (∀ before y later, l ++ [x] = before ++ y :: later → P before y) ↔
      (∀ before y later, l = before ++ y :: later → P before y) ∧ P l x := by
  constructor
  · refine fun h => ⟨fun before y later heq => h before y (later ++ [x]) ?_, h l x [] rfl⟩
    rw [heq, append_assoc, cons_append]
  · rintro ⟨hinit, hlast⟩ before y later heq
    cases later using List.reverseRecOn with
    | nil =>
      obtain ⟨rfl, hsame⟩ := append_inj' heq rfl
      obtain rfl := singleton_inj.mp hsame
      exact hlast
    | append_singleton later z =>
      rw [← cons_append, ← append_assoc] at heq
      exact hinit before y later (append_inj' heq rfl).1

/-- Some element of a list and those before and after it, by the last element. -/
theorem exists_split_concat {Q : List T → T → List T → Prop} {l : List T} {x : T} :
    (∃ before y later, l ++ [x] = before ++ y :: later ∧ Q before y later) ↔
      (∃ before y later, l = before ++ y :: later ∧ Q before y (later ++ [x])) ∨ Q l x [] := by
  constructor
  · rintro ⟨before, y, later, heq, hQ⟩
    cases later using List.reverseRecOn with
    | nil =>
      have hsplit := append_inj' heq rfl
      rw [← hsplit.1, ← singleton_inj.mp hsplit.2] at hQ
      exact Or.inr hQ
    | append_singleton later z =>
      rw [← cons_append, ← append_assoc] at heq
      have hsplit := append_inj' heq rfl
      rw [← singleton_inj.mp hsplit.2] at hQ
      exact Or.inl ⟨before, y, later, hsplit.1, hQ⟩
  · rintro (⟨before, y, later, heq, hQ⟩ | hQ)
    · refine ⟨before, y, later ++ [x], ?_, hQ⟩
      rw [heq, append_assoc, cons_append]
    · exact ⟨l, x, [], rfl, hQ⟩

end GraphRefly.Lib
