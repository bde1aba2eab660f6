import GraphRefly.Lib.Earlier

/-!
# Tickets

Keys are issued for values and revoked. The history of both says which keys are current: a
key is current for the value it was last issued for, while it has not been revoked since. When
no key is issued twice, a revoked key never becomes current again.

## Main definitions

* `Ticket`: One entry of a history.
* `Current`: A key was issued for a value and not revoked since.
* `Spent`: A key was issued and revoked later.

## Theorems

* `current_issue`, `current_revoke`: The current keys by the last entry.
* `Unmixed.issue`, `Unmixed.revoke`: No spent key is current if every key issued is new.
-/

namespace GraphRefly.Lib

/-- A key is issued for a value, or revoked. -/
inductive Ticket (K X : Type)
  | issue (k : K) (x : X)
  | revoke (k : K)

namespace Ticket

variable {K X : Type} {history : List (Ticket K X)} {k j : K} {x y : X}

def Issued (history : List (Ticket K X)) (k : K) : Prop := ∃ x, issue k x ∈ history

/-- The key was issued for the value, and it has not been revoked since. -/
def Current (history : List (Ticket K X)) (k : K) (x : X) : Prop :=
  ∃ before e later, history = before ++ e :: later ∧ e = issue k x ∧ revoke k ∉ later

/-- The key was issued and has been revoked since. -/
def Spent (history : List (Ticket K X)) (k : K) : Prop :=
  ∃ before e later, history = before ++ e :: later ∧ (∃ x, e = issue k x) ∧ revoke k ∈ later

theorem not_current_nil : ¬Current ([] : List (Ticket K X)) k x := by
  rintro ⟨before, e, later, heq, -⟩
  exact absurd heq (by simp)

theorem issued_issue : Issued (history ++ [issue j y]) k ↔ Issued history k ∨ k = j := by
  simp [Issued, exists_or]

theorem issued_revoke : Issued (history ++ [revoke j]) k ↔ Issued history k := by
  simp [Issued]

theorem Current.issued (h : Current history k x) : Issued history k := by
  obtain ⟨before, e, later, rfl, rfl, -⟩ := h
  exact ⟨x, by simp⟩

theorem Spent.issued (h : Spent history k) : Issued history k := by
  obtain ⟨before, e, later, rfl, ⟨x, rfl⟩, -⟩ := h
  exact ⟨x, by simp⟩

theorem current_issue :
    Current (history ++ [issue j y]) k x ↔ Current history k x ∨ (k = j ∧ x = y) := by
  rw [Current, exists_split_concat]
  simp [Current, eq_comm]

theorem current_revoke :
    Current (history ++ [revoke j]) k x ↔ Current history k x ∧ k ≠ j := by
  rw [Current, exists_split_concat]
  simp only [List.mem_append, List.mem_singleton, revoke.injEq, not_or, reduceCtorEq, false_and,
    or_false, Current, Ne]
  constructor
  · rintro ⟨before, e, later, heq, he, hlater, hne⟩
    exact ⟨⟨before, e, later, heq, he, hlater⟩, hne⟩
  · rintro ⟨⟨before, e, later, heq, he, hlater⟩, hne⟩
    exact ⟨before, e, later, heq, he, hlater, hne⟩

theorem spent_issue : Spent (history ++ [issue j y]) k ↔ Spent history k := by
  rw [Spent, exists_split_concat]
  simp [Spent]

theorem spent_revoke :
    Spent (history ++ [revoke j]) k ↔ Spent history k ∨ (Issued history k ∧ k = j) := by
  rw [Spent, exists_split_concat]
  simp only [List.mem_append, List.mem_singleton, revoke.injEq, reduceCtorEq, exists_false,
    false_and, or_false, Spent]
  constructor
  · rintro ⟨before, e, later, heq, ⟨x, rfl⟩, hlater | hsame⟩
    · exact Or.inl ⟨before, _, later, heq, ⟨x, rfl⟩, hlater⟩
    · exact Or.inr ⟨⟨x, by simp [heq]⟩, hsame⟩
  · rintro (⟨before, e, later, heq, he, hlater⟩ | ⟨⟨x, hmem⟩, hsame⟩)
    · exact ⟨before, e, later, heq, he, Or.inl hlater⟩
    · obtain ⟨before, later, heq⟩ := List.append_of_mem hmem
      exact ⟨before, _, later, heq, ⟨x, rfl⟩, Or.inr hsame⟩

/-- No key that was revoked is current, and none is current for two values. -/
structure Unmixed (history : List (Ticket K X)) : Prop where
  not_spent : ∀ k x, Current history k x → ¬Spent history k
  unique : ∀ k x y, Current history k x → Current history k y → x = y

theorem Unmixed.nil : Unmixed ([] : List (Ticket K X)) :=
  ⟨fun _ _ h => absurd h not_current_nil, fun _ _ _ h => absurd h not_current_nil⟩

theorem Unmixed.issue (h : Unmixed history) (hnew : ¬Issued history j) :
    Unmixed (history ++ [issue j y]) where
  not_spent k x hcur hspent := by
    rw [spent_issue] at hspent
    rcases current_issue.mp hcur with hcur | ⟨rfl, -⟩
    · exact h.not_spent k x hcur hspent
    · exact hnew hspent.issued
  unique k x x' hx hx' := by
    rcases current_issue.mp hx with hold | ⟨rfl, rfl⟩
    · rcases current_issue.mp hx' with hold' | ⟨rfl, -⟩
      · exact h.unique k x x' hold hold'
      · exact absurd hold.issued hnew
    · rcases current_issue.mp hx' with hold' | ⟨-, rfl⟩
      · exact absurd hold'.issued hnew
      · rfl

theorem Unmixed.revoke (h : Unmixed history) : Unmixed (history ++ [revoke j]) where
  not_spent k x hcur hspent := by
    rw [current_revoke] at hcur
    rcases spent_revoke.mp hspent with hspent | ⟨-, hsame⟩
    · exact h.not_spent k x hcur.1 hspent
    · exact hcur.2 hsame
  unique k x y hx hy := h.unique k x y (current_revoke.mp hx).1 (current_revoke.mp hy).1

end Ticket

end GraphRefly.Lib
