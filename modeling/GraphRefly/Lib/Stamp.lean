import Mathlib.Order.Basic

/-!
# Stamps

A run whose steps carry a stamp. A step that changes what the stamp is about
moves it strictly up, and every other step leaves it where it is. Then two
readings of the stamp agree if and only if nothing changed between them: what
was left is never come back to.

## Main definitions

* `Quiet`: No step of a run changes anything.

## Theorems

* `le_run`: A run never moves the stamp down.
* `run_eq_iff_quiet`: The stamp is where it was if and only if the run was quiet.
-/

namespace Stamp

variable {σ α τ : Type*}

/-- No step of a run changes anything. -/
def Quiet (step : σ → α → σ) (changes : σ → α → Prop) : σ → List α → Prop
  | _, [] => True
  | s, a :: as => ¬ changes s a ∧ Quiet step changes (step s a) as

/-- What the steps of a system do to a stamp, in the states that satisfy an
    invariant. -/
structure Stamped [Preorder τ] (step : σ → α → σ) (changes : σ → α → Prop) (inv : σ → Prop)
    (stamp : σ → τ) : Prop where
  kept : ∀ s a, inv s → inv (step s a)
  same : ∀ s a, inv s → ¬ changes s a → stamp (step s a) = stamp s
  up : ∀ s a, inv s → changes s a → stamp s < stamp (step s a)

variable {step : σ → α → σ} {changes : σ → α → Prop} {inv : σ → Prop} {stamp : σ → τ}

theorem Stamped.le_run [Preorder τ] (h : Stamped step changes inv stamp) (as : List α) {s : σ}
    (hs : inv s) : stamp s ≤ stamp (as.foldl step s) := by
  induction as generalizing s with
  | nil => exact le_refl _
  | cons a as ih =>
    refine le_trans ?_ (ih (h.kept s a hs))
    by_cases hc : changes s a
    · exact le_of_lt (h.up s a hs hc)
    · exact le_of_eq (h.same s a hs hc).symm

theorem Stamped.run_eq_iff_quiet [PartialOrder τ] (h : Stamped step changes inv stamp)
    (as : List α) {s : σ} (hs : inv s) :
    stamp (as.foldl step s) = stamp s ↔ Quiet step changes s as := by
  induction as generalizing s with
  | nil => exact iff_of_true rfl trivial
  | cons a as ih =>
    rw [List.foldl_cons, Quiet]
    by_cases hc : changes s a
    · -- Once the stamp has moved up, the rest of the run does not bring it back.
      have hlt : stamp s < stamp (as.foldl step (step s a)) :=
        lt_of_lt_of_le (h.up s a hs hc) (h.le_run as (h.kept s a hs))
      exact iff_of_false (ne_of_gt hlt) fun hq => hq.1 hc
    · rw [← h.same s a hs hc, ih (h.kept s a hs)]
      exact ⟨fun hq => ⟨hc, hq⟩, fun hq => hq.2⟩

end Stamp
