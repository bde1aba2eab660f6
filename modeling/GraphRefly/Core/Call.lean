import GraphRefly.Core.Machine

/-!
# Calls

The frames on top of the stack are calls waiting to be made. A call returns
when the stack is back to what was below it, and nothing below is looked at in
between, so what a call does can be said without the stack: `Exec env fs c c'`
says that making the calls `fs` in the state of `c` ends in the state of `c'`,
over whatever stack. A call may also end in a panic; `c'` is then unwinding.

## Main definitions

* `Above`: The stack is strictly above a given one.
* `Returns`: A run up to the moment the stack is back.
* `Exec`: The effect of a list of calls.

## Theorems

* `Returns.unique`: A call returns in one state.
* `Exec.enter`, `Exec.unwind`: One step of a call.
* `Exec.append`: One call after another.
-/

namespace GraphRefly

variable {V S : Type}

namespace Config

/-- The stack is strictly above `k`. -/
def Above (k : List (Frame V)) (c : Config V S) : Prop :=
  ∃ f fs, c.stack = f :: (fs ++ k)

/-- A run up to the first moment the stack is back to `k`. -/
def Returns (env : Env V S) (k : List (Frame V)) (c c' : Config V S) : Prop :=
  Transition.GuardedReach (fun a b => a.step env = some b) (Above k) c c' ∧ c'.stack = k

/-- The effect of making the calls `fs`, over whatever stack. -/
def Exec (env : Env V S) (fs : List (Frame V)) (c c' : Config V S) : Prop :=
  ∀ k, Returns env k (c.popTo (fs ++ k)) (c'.popTo k)

variable {env : Env V S} {c c₁ c₂ c' : Config V S} {f : Frame V} {fs gs k : List (Frame V)}

theorem not_above_self (h : c.stack = k) : ¬ c.Above k := by
  rintro ⟨f, fs, hs⟩
  have hlen := congrArg List.length (h.symm.trans hs)
  simp only [List.length_cons, List.length_append] at hlen
  omega

/-- A call returns in one state. -/
theorem Returns.unique (h : Returns env k c c₁) (h' : Returns env k c c₂) : c₁ = c₂ := by
  refine h.1.exit_unique ?_ h'.1 (not_above_self h.2) (not_above_self h'.2)
  intro a b b' hb hb'
  exact Option.some.inj (hb.symm.trans hb')

theorem Returns.trans (fs : List (Frame V)) (h : Returns env (fs ++ k) c c₁)
    (h' : Returns env k c₁ c') :
    Returns env k c c' := by
  refine ⟨Relation.ReflTransGen.trans (h.1.mono ?_) h'.1, h'.2⟩
  rintro a ⟨g, hs, hstack⟩
  exact ⟨g, hs ++ fs, by rw [hstack, List.append_assoc]⟩

theorem Returns.of_run (env : Env V S) (j : Nat) (c : Config V S)
    (h : ∀ i < j, (c.run env i).stack ≠ []) (hj : (c.run env j).stack = []) :
    Returns env [] c (c.run env j) := by
  induction j generalizing c with
  | zero => exact ⟨Relation.ReflTransGen.refl, hj⟩
  | succ j ih =>
    have hstack : c.stack ≠ [] := h 0 (Nat.succ_pos j)
    rcases List.exists_cons_of_ne_nil hstack with ⟨f, fs, hfs⟩
    have habove : Above [] c := ⟨f, fs, by rw [hfs, List.append_nil]⟩
    cases hstep : c.step env with
    | none =>
      unfold step at hstep
      rw [hfs] at hstep
      cases hm : c.mode <;> simp [hm] at hstep
    | some c₁ =>
      have hrun : ∀ i, c.run env (i + 1) = c₁.run env i := by
        intro i
        rw [run, hstep]
      rw [hrun] at hj ⊢
      have hnext := ih c₁ (fun i hi => hrun i ▸ h (i + 1) (Nat.succ_lt_succ hi)) hj
      exact ⟨Relation.ReflTransGen.head ⟨hstep, habove⟩ hnext.1, hj⟩

namespace Exec

theorem nil : Exec env [] c c :=
  fun _ => ⟨Relation.ReflTransGen.refl, rfl⟩

theorem head (hstep : ∀ rest, (c.popTo (f :: rest)).step env = some (c₁.popTo (gs ++ rest)))
    (h : Exec env (gs ++ fs) c₁ c') : Exec env (f :: fs) c c' := by
  intro k
  have hrun := h k
  rw [List.append_assoc] at hrun
  exact ⟨Relation.ReflTransGen.head ⟨hstep (fs ++ k), ⟨f, fs, rfl⟩⟩ hrun.1, rfl⟩

theorem enter (c₁ : Config V S) (gs : List (Frame V)) (hm : c.mode = .running)
    (heq : ∀ rest, (c.popTo rest).enter env f = c₁.popTo (gs ++ rest))
    (h : Exec env (gs ++ fs) c₁ c') : Exec env (f :: fs) c c' := by
  refine head ?_ h
  intro rest
  rw [← heq rest, step]
  simp only [popTo, hm]

theorem unwind (c₁ : Config V S) (gs : List (Frame V)) {p : Payload}
    (hm : c.mode = .unwinding p)
    (heq : ∀ rest, (c.popTo rest).unwind env p f = c₁.popTo (gs ++ rest))
    (h : Exec env (gs ++ fs) c₁ c') : Exec env (f :: fs) c c' := by
  refine head ?_ h
  intro rest
  rw [← heq rest, step]
  simp only [popTo, hm]

theorem append (h : Exec env fs c c₁) (h' : Exec env gs c₁ c') : Exec env (fs ++ gs) c c' := by
  intro k
  have hfirst := h (gs ++ k)
  rw [← List.append_assoc] at hfirst
  exact Returns.trans gs hfirst (h' k)

theorem cons (h : Exec env [f] c c₁) (h' : Exec env fs c₁ c') : Exec env (f :: fs) c c' :=
  append h h'

end Exec

end Config

end GraphRefly
