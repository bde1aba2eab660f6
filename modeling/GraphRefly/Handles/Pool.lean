import Mathlib.Algebra.Group.Nat.Defs
import GraphRefly.Lib.Tickets

/-!
# The Slots of a Dispatch Pool

A pool keeps functions in slots. Registering one gives a handle, the number of its slot and the
generation of the slot; the slots of functions that were unregistered are used again, the last
one first. Unregistering raises the generation, so that the old handle no longer fits.

The generation is a `u32` that wraps, and so is the slot's number. While neither wraps, a
handle finds the function it was returned for until this is unregistered, and nothing after
that. When a slot has been used `2 ^ 32` times, its first handle finds the next function.

## Main definitions

* `Pool`, `Pool.register`, `Pool.unregister`, `Pool.get`: The pool.
* `Pool.Wraps`: A call on which a counter wraps.
* `Pool.Run`: The pools that calls reach, with the history of the calls.

## Theorems

* `Pool.Sound.register`, `Pool.Sound.unregister`: What one call preserves.
* `Pool.Run.sound`: What a run without wraps preserves.
* `old_handle_resolves`: The wrap.
-/

namespace GraphRefly.Handles

open Lib Ticket

variable {F : Type}

/-- A function, or none once it is freed, and the generation of the slot. -/
structure Slot (F : Type) where
  f : Option F
  generation : UInt32

/-- The slots and the numbers of the freed ones, the last freed first. -/
structure Pool (F : Type) where
  slots : List (Slot F)
  free : List UInt32

namespace Pool

def new : Pool F := ⟨[], []⟩

/-- The pool with the function in a slot, and its handle; none when a freed number is not that of
a slot, where the code stops. -/
def register (p : Pool F) (f : F) : Option (Pool F × UInt32 × UInt32) :=
  match p.free with
  | id :: free =>
    match p.slots[id.toNat]? with
    | some slot =>
      some (⟨p.slots.set id.toNat ⟨some f, slot.generation⟩, free⟩, id, slot.generation)
    | none => none
  | [] => some (⟨p.slots ++ [⟨some f, 0⟩], []⟩, UInt32.ofNat p.slots.length, 0)

def unregister (p : Pool F) (id generation : UInt32) : Pool F :=
  match p.slots[id.toNat]? with
  | some slot =>
    if slot.generation = generation ∧ slot.f.isSome then
      ⟨p.slots.set id.toNat ⟨none, slot.generation + 1⟩, id :: p.free⟩
    else p
  | none => p

def get (p : Pool F) (id generation : UInt32) : Option F :=
  (p.slots[id.toNat]?.filter fun s => s.generation = generation).bind (·.f)

/-! ### Runs -/

/-- One call on a pool. -/
inductive Call (F : Type)
  | register (f : F)
  | unregister (id generation : UInt32)

/-- The call raises the last generation of a slot, or asks for one slot more than there are
numbers. -/
def Wraps (p : Pool F) : Call F → Prop
  | .register _ => p.free = [] ∧ p.slots.length = 2 ^ 32
  | .unregister id generation => (p.get id generation).isSome ∧ generation.toNat + 1 = 2 ^ 32

/-- A pool that calls reach, all of them allowed, and what they returned and revoked. -/
inductive Run (Allowed : Pool F → Call F → Prop) :
    Pool F → List (Ticket (UInt32 × UInt32) F) → Prop
  | new : Run Allowed new []
  | register {p p' : Pool F} {history : List (Ticket (UInt32 × UInt32) F)}
      {id generation : UInt32} (f : F) : Run Allowed p history → Allowed p (.register f) →
      p.register f = some (p', id, generation) →
      Run Allowed p' (history ++ [.issue (id, generation) f])
  | unregister {p : Pool F} {history : List (Ticket (UInt32 × UInt32) F)}
      (id generation : UInt32) : Run Allowed p history → Allowed p (.unregister id generation) →
      Run Allowed (p.unregister id generation) (history ++ [.revoke (id, generation)])

variable {p p' : Pool F} {history : List (Ticket (UInt32 × UInt32) F)} {id generation : UInt32}
  {f : F}

/-- What holds of a pool and its history while nothing wraps. -/
structure Sound (p : Pool F) (history : List (Ticket (UInt32 × UInt32) F)) : Prop where
  unmixed : Unmixed history
  get_iff : ∀ id generation f, p.get id generation = some f ↔ Current history (id, generation) f
  length_le : p.slots.length ≤ 2 ^ 32
  free_nodup : p.free.Nodup
  free_empty : ∀ id ∈ p.free, ∃ generation, p.slots[id.toNat]? = some ⟨none, generation⟩
  issued_le : ∀ id generation, Issued history (id, generation) → ∃ slot,
    p.slots[id.toNat]? = some slot ∧
      (generation < slot.generation ∨ generation = slot.generation ∧ slot.f.isSome)

theorem get_eq_some :
    p.get id generation = some f ↔ p.slots[id.toNat]? = some ⟨some f, generation⟩ := by
  cases hslot : p.slots[id.toNat]? with
  | none => simp [get, hslot]
  | some slot =>
    obtain ⟨g, current⟩ := slot
    by_cases hgen : current = generation <;> simp [get, hslot, hgen, Option.filter]

theorem getElem?_set (slot : Slot F) {n : UInt32} (hn : n.toNat < p.slots.length) :
    (p.slots.set n.toNat slot)[id.toNat]? =
      if id = n then some slot else p.slots[id.toNat]? := by
  by_cases hid : id = n
  · subst hid
    simp [hn]
  · have hne : n.toNat ≠ id.toNat := fun h => hid (UInt32.toNat_inj.mp h.symm)
    simp [hid, List.getElem?_set_ne hne]

theorem getElem?_lt {slot : Slot F} (h : p.slots[id.toNat]? = some slot) :
    id.toNat < p.slots.length := (List.getElem?_eq_some_iff.mp h).1

/-! ### One call -/

theorem Sound.new : Sound (F := F) new [] where
  unmixed := .nil
  get_iff id generation f := by simp [get, Pool.new, not_current_nil]
  length_le := by simp [Pool.new]
  free_nodup := List.nodup_nil
  free_empty id hid := absurd hid List.not_mem_nil
  issued_le id generation h := by simp [Issued] at h

/-- The last freed slot is used again. -/
theorem Sound.reuse (h : Sound p history) {free : List UInt32} (hfree : p.free = id :: free)
    (hslot : p.slots[id.toNat]? = some ⟨none, generation⟩) :
    Sound ⟨p.slots.set id.toNat ⟨some f, generation⟩, free⟩
      (history ++ [.issue (id, generation) f]) := by
  have hlt := getElem?_lt hslot
  have hnodup := h.free_nodup
  rw [hfree, List.nodup_cons] at hnodup
  have hbelow : ∀ current, Issued history (id, current) → current < generation := by
    intro current hissued
    obtain ⟨slot, hsame, hle⟩ := h.issued_le id current hissued
    rw [hslot, Option.some.injEq] at hsame
    simpa [← hsame] using hle
  have hnew : ¬Issued history (id, generation) := fun hissued =>
    absurd (hbelow generation hissued) (by simp)
  refine ⟨h.unmixed.issue hnew, ?_, by simpa using h.length_le, hnodup.2, ?_, ?_⟩
  · intro i current f'
    rw [get_eq_some, getElem?_set _ hlt, current_issue]
    by_cases hi : i = id
    · subst hi
      have hnone : ¬Current history (i, current) f' := by
        rw [← h.get_iff, get_eq_some, hslot]
        simp
      simp [hnone, eq_comm, and_comm]
    · rw [if_neg hi, ← get_eq_some, h.get_iff]
      simp [hi]
  · intro i hi
    have hne : i ≠ id := fun hsame => hnodup.1 (hsame ▸ hi)
    rw [getElem?_set _ hlt, if_neg hne]
    exact h.free_empty i (by rw [hfree]; exact List.mem_cons_of_mem _ hi)
  · intro i current hissued
    rw [getElem?_set _ hlt]
    by_cases hi : i = id
    · subst hi
      refine ⟨⟨some f, generation⟩, by simp, ?_⟩
      rcases issued_issue.mp hissued with hold | hsame
      · exact Or.inl (hbelow current hold)
      · exact Or.inr ⟨(Prod.mk.inj hsame).2, rfl⟩
    · rw [if_neg hi]
      rcases issued_issue.mp hissued with hold | hsame
      · exact h.issued_le i current hold
      · exact absurd (Prod.mk.inj hsame).1 hi

/-- A new slot is added. -/
theorem Sound.extend (h : Sound p history)
    (hlen : p.slots.length < 2 ^ 32) :
    Sound ⟨p.slots ++ [⟨some f, 0⟩], []⟩
      (history ++ [.issue (UInt32.ofNat p.slots.length, 0) f]) := by
  have hnumber : (UInt32.ofNat p.slots.length).toNat = p.slots.length := by
    rw [UInt32.toNat_ofNat']
    exact Nat.mod_eq_of_lt hlen
  have hget : ∀ i : UInt32, (p.slots ++ [(⟨some f, 0⟩ : Slot F)])[i.toNat]? =
      if i = UInt32.ofNat p.slots.length then some ⟨some f, 0⟩ else p.slots[i.toNat]? := by
    intro i
    by_cases hi : i = UInt32.ofNat p.slots.length
    · rw [if_pos hi, hi, hnumber, List.getElem?_concat_length]
    · have hne : i.toNat ≠ p.slots.length := fun hsame =>
        hi (UInt32.toNat_inj.mp (hsame.trans hnumber.symm))
      rw [if_neg hi]
      by_cases hlt : i.toNat < p.slots.length
      · rw [List.getElem?_append_left hlt]
      · rw [List.getElem?_eq_none (by simp; omega), List.getElem?_eq_none (by omega)]
  have hfresh : ∀ current, ¬Issued history (UInt32.ofNat p.slots.length, current) := by
    intro current hissued
    obtain ⟨slot, hslot, -⟩ := h.issued_le _ current hissued
    have hlt := getElem?_lt hslot
    omega
  refine ⟨h.unmixed.issue (hfresh 0), ?_, by rw [List.length_append]; exact hlen, List.nodup_nil,
    fun i hi => absurd hi List.not_mem_nil, ?_⟩
  · intro i current f'
    rw [get_eq_some, hget, current_issue]
    by_cases hi : i = UInt32.ofNat p.slots.length
    · have hnone : ¬Current history (i, current) f' := fun hcur =>
        hfresh current (hi ▸ hcur.issued)
      simp [hi, hi ▸ hnone, eq_comm, and_comm]
    · rw [if_neg hi, ← get_eq_some, h.get_iff]
      simp [hi]
  · intro i current hissued
    rw [hget]
    rcases issued_issue.mp hissued with hold | hsame
    · have hi : i ≠ UInt32.ofNat p.slots.length := fun hsame => hfresh current (hsame ▸ hold)
      rw [if_neg hi]
      exact h.issued_le i current hold
    · rw [if_pos (Prod.mk.inj hsame).1]
      exact ⟨_, rfl, Or.inr ⟨(Prod.mk.inj hsame).2, rfl⟩⟩

theorem Sound.register (h : Sound p history) (hwrap : ¬p.Wraps (.register f))
    (hreg : p.register f = some (p', id, generation)) :
    Sound p' (history ++ [.issue (id, generation) f]) := by
  cases hfree : p.free with
  | nil =>
    simp only [Pool.register, hfree, Option.some.injEq, Prod.mk.injEq] at hreg
    obtain ⟨rfl, rfl, rfl⟩ := hreg
    have hlen := h.length_le
    exact h.extend (by
      by_contra hge
      exact hwrap ⟨hfree, by omega⟩)
  | cons n free =>
    obtain ⟨current, hslot⟩ := h.free_empty n (by simp [hfree])
    simp only [Pool.register, hfree, hslot, Option.some.injEq, Prod.mk.injEq] at hreg
    obtain ⟨rfl, rfl, rfl⟩ := hreg
    exact h.reuse hfree hslot

/-- A slot is freed, or the handle is an old one. -/
theorem Sound.unregister (h : Sound p history) (hwrap : ¬p.Wraps (.unregister id generation)) :
    Sound (p.unregister id generation) (history ++ [.revoke (id, generation)]) := by
  cases hget : p.get id generation with
  | none =>
    -- the call changes nothing, and the handle was not current before it either
    have hsame : p.unregister id generation = p := by
      unfold Pool.unregister
      cases hslot : p.slots[id.toNat]? with
      | none => rfl
      | some slot =>
        obtain ⟨g, current⟩ := slot
        refine if_neg ?_
        rintro ⟨rfl, hsome⟩
        obtain ⟨f', rfl⟩ := Option.isSome_iff_exists.mp hsome
        rw [get_eq_some.mpr hslot] at hget
        cases hget
    rw [hsame]
    refine ⟨h.unmixed.revoke, ?_, h.length_le, h.free_nodup, h.free_empty,
      fun i current hissued => h.issued_le i current (issued_revoke.mp hissued)⟩
    intro i current f'
    rw [current_revoke, h.get_iff]
    refine (and_iff_left_of_imp fun hcur hkey => ?_).symm
    obtain ⟨rfl, rfl⟩ := Prod.mk.inj hkey
    rw [← h.get_iff, hget] at hcur
    cases hcur
  | some f' =>
    have hslot := get_eq_some.mp hget
    have hlt := getElem?_lt hslot
    have hraise : (generation + 1).toNat = generation.toNat + 1 := by
      have hbound : generation.toNat + 1 ≠ 2 ^ 32 := fun hlast =>
        hwrap ⟨by simp [hget], hlast⟩
      have := generation.toNat_lt
      rw [UInt32.toNat_add]
      simp
      omega
    have hfree : id ∉ p.free := by
      intro hmem
      obtain ⟨current, hempty⟩ := h.free_empty id hmem
      rw [hslot, Option.some.injEq] at hempty
      cases hempty
    simp only [Pool.unregister, hslot, Option.isSome_some, and_self, if_true]
    refine ⟨h.unmixed.revoke, ?_, by simpa using h.length_le,
      List.nodup_cons.mpr ⟨hfree, h.free_nodup⟩, ?_, ?_⟩
    · intro i current g
      rw [get_eq_some, getElem?_set _ hlt, current_revoke, ← h.get_iff]
      by_cases hi : i = id
      · subst hi
        rw [if_pos rfl, get_eq_some, hslot]
        simp
        grind
      · rw [if_neg hi, ← get_eq_some]
        simp [hi]
    · intro i hi
      rw [getElem?_set _ hlt]
      by_cases hsame : i = id
      · exact ⟨_, if_pos hsame⟩
      · rw [if_neg hsame]
        exact h.free_empty i ((List.mem_cons.mp hi).resolve_left hsame)
    · intro i current hissued
      obtain ⟨slot, hold, hle⟩ := h.issued_le i current (issued_revoke.mp hissued)
      rw [getElem?_set _ hlt]
      by_cases hi : i = id
      · subst hi
        rw [hslot, Option.some.injEq] at hold
        refine ⟨_, if_pos rfl, Or.inl ?_⟩
        rw [← hold] at hle
        change current < generation ∨ current = generation ∧ _ at hle
        rw [UInt32.lt_iff_toNat_lt, hraise]
        rcases hle with hlt | ⟨rfl, -⟩
        · rw [UInt32.lt_iff_toNat_lt] at hlt
          omega
        · omega
      · rw [if_neg hi]
        exact ⟨slot, hold, hle⟩

/-- What a run without wraps preserves. -/
theorem Run.sound (h : Run (fun p call => ¬p.Wraps call) p history) : Sound p history := by
  induction h with
  | new => exact .new
  | register f _ hwrap hreg ih => exact ih.register hwrap hreg
  | unregister id generation _ hwrap ih => exact ih.unregister hwrap

theorem Sound.register_ne_none (h : Sound p history) : p.register f ≠ none := by
  cases hfree : p.free with
  | nil => simp [Pool.register, hfree]
  | cons n free =>
    obtain ⟨current, hslot⟩ := h.free_empty n (by simp [hfree])
    simp [Pool.register, hfree, hslot]

/-! ### The wrap -/

/-- A slot registered and freed over and over, with the handle it began with. -/
theorem slot_reused (n : Nat) : ∃ history, Run (fun _ _ => True)
    (⟨[⟨none, UInt32.ofNat (n + 1)⟩], [0]⟩ : Pool Bool) history ∧ Spent history (0, 0) := by
  induction n with
  | zero =>
    have hreg : Run (fun _ _ => True) (⟨[⟨some false, 0⟩], []⟩ : Pool Bool) _ :=
      .register false .new trivial rfl
    exact ⟨_, hreg.unregister 0 0 trivial, spent_revoke.mpr (Or.inr ⟨⟨false, List.mem_singleton.mpr rfl⟩, rfl⟩)⟩
  | succ n ih =>
    obtain ⟨history, hrun, hspent⟩ := ih
    have hreg := hrun.register false trivial rfl
    have hfree := hreg.unregister 0 (UInt32.ofNat (n + 1)) trivial
    have hnext : UInt32.ofNat (n + 1 + 1) = UInt32.ofNat (n + 1) + 1 := by
      rw [UInt32.ofNat_add]
      rfl
    have hspent' := spent_revoke (j := (0, UInt32.ofNat (n + 1))) |>.mpr
      (Or.inl (spent_issue (j := (0, UInt32.ofNat (n + 1))) (y := false) |>.mpr hspent))
    exact ⟨_, by simpa [Pool.unregister, hnext] using hfree, hspent'⟩

/-- After `2 ^ 32` uses of a slot its first handle, freed long ago, finds the next function. -/
theorem old_handle_resolves : ∃ p history,
    Run (F := Bool) (fun _ _ => True) p history ∧ Spent history (0, 0) ∧ p.get 0 0 = some true := by
  obtain ⟨history, hrun, hspent⟩ := slot_reused (2 ^ 32 - 1)
  have hzero : UInt32.ofNat (2 ^ 32 - 1 + 1) = 0 := rfl
  rw [hzero] at hrun
  exact ⟨_, _, hrun.register true trivial rfl, spent_issue.mpr hspent, rfl⟩

end Pool

end GraphRefly.Handles
