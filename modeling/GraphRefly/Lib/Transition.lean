import Mathlib.Logic.Relation

/-!
# Guarded Runs

Reachability in a transition system whose steps may be required to start in a
state that meets a guard, and the invariant rule that goes with it. With the
guard `fun _ => True` this is plain reachability.

## Main definitions

* `GuardedReach`: Reachability by steps that start in guarded states.

## Theorems

* `GuardedReach.invariant`: What one guarded step preserves, a run preserves.
* `GuardedReach.of_iterate`: A deterministic run is a guarded run.
* `GuardedReach.mono`: A run under a stronger guard is one under a weaker guard.
* `GuardedReach.exit_unique`: A deterministic run leaves its guard in one place.
-/

namespace Transition

variable {σ : Type*}

/-- Reachability by steps that all start in a state meeting the guard. -/
def GuardedReach (step : σ → σ → Prop) (guard : σ → Prop) : σ → σ → Prop :=
  Relation.ReflTransGen fun a b => step a b ∧ guard a

variable {step : σ → σ → Prop} {guard : σ → Prop}

/-- What one guarded step preserves, a run preserves. -/
theorem GuardedReach.invariant {inv : σ → Prop}
    (hstep : ∀ a b, step a b → guard a → inv a → inv b)
    {a b : σ} (h : GuardedReach step guard a b) (ha : inv a) : inv b := by
  induction h with
  | refl => exact ha
  | tail _ hlast ih => exact hstep _ _ hlast.1 hlast.2 ih

/-- A deterministic run of `k` steps that meets the guard on the way. -/
theorem GuardedReach.of_iterate {next : σ → Option σ}
    (hnext : ∀ a b, next a = some b → step a b) (run : Nat → σ → σ)
    (hzero : ∀ a, run 0 a = a)
    (hsucc : ∀ k a, run (k + 1) a = (next a).elim a (run k)) :
    ∀ (k : Nat) (a : σ), (∀ j < k, guard (run j a)) → GuardedReach step guard a (run k a) := by
  intro k
  induction k with
  | zero =>
    intro a _
    rw [hzero]
    exact Relation.ReflTransGen.refl
  | succ k ih =>
    intro a hguard
    rw [hsucc]
    cases hn : next a with
    | none => exact Relation.ReflTransGen.refl
    | some b =>
      rw [Option.elim_some]
      have ha : guard a := by
        have := hguard 0 (Nat.succ_pos k)
        rwa [hzero] at this
      refine Relation.ReflTransGen.head ⟨hnext a b hn, ha⟩ (ih b ?_)
      intro j hj
      have := hguard (j + 1) (Nat.succ_lt_succ hj)
      rw [hsucc, hn] at this
      exact this

/-- A run under a stronger guard is one under a weaker guard. -/
theorem GuardedReach.mono {guard' : σ → Prop} (hguard : ∀ a, guard a → guard' a) {a b : σ}
    (h : GuardedReach step guard a b) : GuardedReach step guard' a b := by
  induction h with
  | refl => exact Relation.ReflTransGen.refl
  | tail _ hlast ih => exact ih.tail ⟨hlast.1, hguard _ hlast.2⟩

/-- A deterministic run leaves its guard in one place. -/
theorem GuardedReach.exit_unique (hdet : ∀ a b b', step a b → step a b' → b = b') {a b b' : σ}
    (h : GuardedReach step guard a b) (h' : GuardedReach step guard a b')
    (hb : ¬ guard b) (hb' : ¬ guard b') : b = b' := by
  induction h using Relation.ReflTransGen.head_induction_on with
  | refl =>
    rcases Relation.ReflTransGen.cases_head h' with heq | ⟨y, hy, _⟩
    · exact heq
    · exact absurd hy.2 hb
  | head hxy _ ih =>
    rcases Relation.ReflTransGen.cases_head h' with heq | ⟨y, hy, hrest⟩
    · subst heq
      exact absurd hxy.2 hb'
    · rw [← hdet _ _ _ hxy.1 hy.1] at hrest
      exact ih hrest

end Transition
