import Mathlib.Data.List.Infix

/-!
# Patterns with Stars

A pattern is a word in which one letter, the star, stands for any word; every other letter
stands for itself.

## Main definitions

* `Glob`: The words of a pattern.

## Theorems

* `glob_literal`: A pattern begins with letters other than the star exactly when its words do.
* `glob_star`: After a star some end of the word is a word of the rest.
* `Glob.of_suffix`: A pattern that begins with a star has every longer word.
* `glob_nil`: The empty word belongs to the patterns of stars only.
-/

namespace GraphRefly.Lib

variable {A : Type} {star : A}

/-- The words obtained from a pattern by replacing each star by some word. -/
inductive Glob (star : A) : List A → List A → Prop
  | nil : Glob star [] []
  | star (filling : List A) {p v : List A} :
      Glob star p v → Glob star (star :: p) (filling ++ v)
  | letter {a : A} {p v : List A} : a ≠ star → Glob star p v → Glob star (a :: p) (a :: v)

variable {p v : List A}

theorem glob_letter {a : A} (ha : a ≠ star) :
    Glob star (a :: p) v ↔ ∃ rest, v = a :: rest ∧ Glob star p rest := by
  constructor
  · intro h
    cases h with
    | star filling h => exact absurd rfl ha
    | letter _ h => exact ⟨_, rfl, h⟩
  · rintro ⟨rest, rfl, h⟩
    exact .letter ha h

theorem glob_literal {segment : List A} (hsegment : star ∉ segment) :
    Glob star (segment ++ p) v ↔ ∃ rest, v = segment ++ rest ∧ Glob star p rest := by
  induction segment generalizing v with
  | nil => simp
  | cons a segment ih =>
    rw [List.mem_cons, not_or] at hsegment
    rw [List.cons_append, glob_letter (Ne.symm hsegment.1)]
    constructor
    · rintro ⟨tail, rfl, h⟩
      obtain ⟨rest, rfl, hrest⟩ := (ih hsegment.2).mp h
      exact ⟨rest, rfl, hrest⟩
    · rintro ⟨rest, rfl, hrest⟩
      exact ⟨segment ++ rest, rfl, (ih hsegment.2).mpr ⟨rest, rfl, hrest⟩⟩

theorem glob_star :
    Glob star (star :: p) v ↔ ∃ rest, rest <:+ v ∧ Glob star p rest := by
  constructor
  · intro h
    cases h with
    | star filling h => exact ⟨_, List.suffix_append _ _, h⟩
    | letter hne h => exact absurd rfl hne
  · rintro ⟨rest, ⟨filling, rfl⟩, h⟩
    exact .star filling h

theorem Glob.of_suffix {w : List A} (h : Glob star (star :: p) v) (hvw : v <:+ w) :
    Glob star (star :: p) w := by
  obtain ⟨rest, hrest, hglob⟩ := glob_star.mp h
  exact glob_star.mpr ⟨rest, hrest.trans hvw, hglob⟩

theorem glob_nil : Glob star p [] ↔ ∀ a ∈ p, a = star := by
  induction p with
  | nil => exact ⟨fun _ a ha => absurd ha List.not_mem_nil, fun _ => .nil⟩
  | cons a p ih =>
    by_cases ha : a = star
    · rw [ha, glob_star, List.forall_mem_cons, ← ih]
      simp
    · rw [glob_letter ha, List.forall_mem_cons]
      simp [ha]

theorem not_glob_of_head (hstar : p.head? ≠ some star) (hv : v ≠ [])
    (hne : p.head? ≠ v.head?) : ¬Glob star p v := by
  intro h
  cases h with
  | nil => exact hv rfl
  | star filling h => exact hstar rfl
  | letter _ h => exact hne rfl

end GraphRefly.Lib
