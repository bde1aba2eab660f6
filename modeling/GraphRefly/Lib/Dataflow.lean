import Mathlib.Data.Set.Basic

/-!
# Dataflow Equations

Nodes with a list of dependencies and an equation each: the value of a node is
computed from the values of its dependencies. If a rank falls along the
dependencies, the equations have one solution for each choice of values at the
inputs.

## Main definitions

* `Solves`: A valuation satisfies the equations of a set of nodes.

## Theorems

* `Solves.unique`: Two solutions that agree at the inputs agree.
-/

namespace Dataflow

variable {N V : Type*} {deps : N → List N} {f : N → List V → V} {inner : Set N} {u v : N → V}

/-- The valuation satisfies the equations of the nodes in `inner`. -/
def Solves (deps : N → List N) (f : N → List V → V) (inner : Set N) (v : N → V) : Prop :=
  ∀ n ∈ inner, v n = f n ((deps n).map v)

/-- Two solutions that agree at the inputs of a set of nodes closed under
    dependencies agree on all of it. -/
theorem Solves.unique (hu : Solves deps f inner u) (hv : Solves deps f inner v) {A : Set N}
    {r : N → Nat} (hclosed : ∀ n ∈ A, n ∈ inner → ∀ d ∈ deps n, d ∈ A)
    (hrank : ∀ n ∈ A, n ∈ inner → ∀ d ∈ deps n, r d < r n)
    (hinput : ∀ n ∈ A, n ∉ inner → u n = v n) : ∀ n ∈ A, u n = v n := by
  suffices hall : ∀ k n, r n = k → n ∈ A → u n = v n from fun n => hall (r n) n rfl
  intro k
  induction k using Nat.strongRecOn with
  | ind k ih =>
    intro n hk hn
    by_cases hin : n ∈ inner
    · have hdeps : (deps n).map u = (deps n).map v := by
        refine List.map_congr_left ?_
        intro d hd
        exact ih (r d) (hk ▸ hrank n hn hin d hd) d rfl (hclosed n hn hin d hd)
      rw [hu n hin, hv n hin, hdeps]
    · exact hinput n hn hin

end Dataflow
