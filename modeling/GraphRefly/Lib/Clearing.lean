import GraphRefly.Lib.Earlier
import Mathlib.Data.Set.Insert

/-!
# Clearing Groups

A set of items that come in groups, and a list of items that are handled one after the
other. Handling an item puts it into the set, or clears its group, or does nothing. An
item is in the set at the end when it was put there and its group was not cleared
afterwards, or was there before and its group was not cleared at all.

## Main definitions

* `Act`: What handling an item does.
* `handle`: One item handled.
* `Kept`: An item put into the set and not cleared afterwards.

## Theorems

* `kept_concat`: Keeping by the last item handled.
* `mem_foldl_handle`: What is in the set at the end.
-/

namespace GraphRefly.Lib

open List

variable {α G : Type}

/-- What handling an item does. -/
inductive Act
  | keep
  | clear
  | skip
  deriving DecidableEq

variable (act : α → Act) (group : α → G)

/-- One item handled. -/
def handle (A : Set α) (a : α) : Set α :=
  match act a with
  | .keep => insert a A
  | .clear => {b ∈ A | group b ≠ group a}
  | .skip => A

/-- Handling an item does not clear another one's group. -/
def Spares (x a : α) : Prop := act x = .clear → group x ≠ group a

/-- An item put into the set and not cleared afterwards. -/
def Kept (items : List α) (a : α) : Prop :=
  ∃ before later, items = before ++ a :: later ∧ act a = .keep ∧
    ∀ x ∈ later, Spares act group x a

variable {act group}

variable {items : List α} {a : α}

theorem kept_concat {x : α} :
    Kept act group (items ++ [x]) a ↔
      x = a ∧ act a = .keep ∨ Kept act group items a ∧ Spares act group x a := by
  constructor
  · rintro ⟨before, later, heq, hact, hlater⟩
    have hsplit : (∃ b y l, items = b ++ y :: l ∧ y = a ∧ ∀ z ∈ l ++ [x], Spares act group z a) ∨
        (x = a ∧ ∀ z ∈ ([] : List α), Spares act group z a) :=
      exists_split_concat (Q := fun _ y l => y = a ∧ ∀ z ∈ l, Spares act group z a) |>.mp
        ⟨before, a, later, heq, rfl, hlater⟩
    rcases hsplit with ⟨b, y, l, hitems, rfl, hall⟩ | ⟨hx, -⟩
    · refine Or.inr ⟨⟨b, l, hitems, hact, fun z hz => ?_⟩, ?_⟩
      · exact hall z (mem_append_left _ hz)
      · exact hall x (mem_append_right _ mem_cons_self)
    · exact Or.inl ⟨hx, hact⟩
  · rintro (⟨rfl, hact⟩ | ⟨⟨before, later, heq, hact, hlater⟩, hx⟩)
    · exact ⟨items, [], rfl, hact, by simp⟩
    · refine ⟨before, later ++ [x], ?_, hact, ?_⟩
      · rw [heq, append_assoc, cons_append]
      · intro z hz
        rcases mem_append.mp hz with hz | hz
        · exact hlater z hz
        · rw [mem_singleton.mp hz]
          exact hx

theorem Kept.of_mem (hmem : a ∈ items) (hact : act a = .keep)
    (hspares : ∀ x ∈ items, Spares act group x a) : Kept act group items a := by
  obtain ⟨before, later, heq⟩ := append_of_mem hmem
  refine ⟨before, later, heq, hact, fun x hx => hspares x ?_⟩
  rw [heq]
  exact mem_append_right _ (mem_cons_of_mem a hx)

theorem Kept.mem (h : Kept act group items a) : a ∈ items := by
  obtain ⟨before, later, heq, -⟩ := h
  rw [heq]
  exact mem_append_right _ mem_cons_self

/-- What is in the set at the end. -/
theorem mem_foldl_handle {A : Set α} :
    a ∈ items.foldl (handle act group) A ↔
      Kept act group items a ∨ a ∈ A ∧ ∀ x ∈ items, Spares act group x a := by
  induction items using List.reverseRecOn with
  | nil => simp [Kept]
  | append_singleton items x ih =>
    rw [foldl_append, foldl_cons, foldl_nil, kept_concat]
    have hspares : (∀ z ∈ items ++ [x], Spares act group z a) ↔
        (∀ z ∈ items, Spares act group z a) ∧ Spares act group x a := by
      simp [or_imp, forall_and]
    rw [hspares, handle]
    -- Only clearing takes an item out, and only keeping puts one in.
    cases hact : act x with
    | keep =>
      have hx : Spares act group x a := fun h => by rw [hact] at h; cases h
      simp only [Set.mem_insert_iff, ih, hx, and_true]
      by_cases ha : x = a
      · simp [← ha, hact]
      · simp [ha, Ne.symm ha]
    | clear =>
      have hx : Spares act group x a ↔ group a ≠ group x :=
        ⟨fun h => (h hact).symm, fun h _ => h.symm⟩
      have hne : ¬ (x = a ∧ act a = .keep) := by
        rintro ⟨rfl, hkeep⟩
        rw [hact] at hkeep
        cases hkeep
      simp only [Set.mem_sep_iff, ih, hx, hne, false_or]
      tauto
    | skip =>
      have hx : Spares act group x a := fun h => by rw [hact] at h; cases h
      have hne : ¬ (x = a ∧ act a = .keep) := by
        rintro ⟨rfl, hkeep⟩
        rw [hact] at hkeep
        cases hkeep
      simp only [ih, hx, hne, false_or, and_true]

end GraphRefly.Lib
