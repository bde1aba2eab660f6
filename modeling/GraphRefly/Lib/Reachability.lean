import Mathlib.Algebra.Order.BigOperators.Group.Finset

/-!
# Reachability and Acyclicity

A worklist search that decides reachability in a graph given by successor
lists, restricted to the keys a predicate admits, and the effect of new edges
out of one node on acyclicity.

The search keeps a set of keys it has seen and a stack of keys to look at.
Each turn takes one key off the stack. A key that is expanded puts its
successors on the stack, which it does only once, so the size of the stack and
the successors not yet paid out bound the number of turns.

## Main definitions

* `Acyclic`: No element is above itself.
* `ReachesThrough`: Reachability through admitted keys.
* `search`: The worklist search, by fuel.

## Theorems

* `acyclic_insert`: New edges out of a node none of whose targets reaches it.
* `search_sound`: What the search finds is reachable.
* `search_complete`: With enough fuel it finds what is reachable.
-/

namespace Reachability

open List

variable {α : Type*}

/-! ### Acyclicity -/

/-- No element is above itself. -/
def Acyclic (r : α → α → Prop) : Prop :=
  ∀ a, ¬ Relation.TransGen r a a

variable {r : α → α → Prop}

theorem Acyclic.mono {s : α → α → Prop} (h : Acyclic s) (hrs : ∀ a b, r a b → s a b) :
    Acyclic r := by
  intro a ha
  exact h a (Relation.TransGen.mono hrs a a ha)

variable {n a : α} {D : α → Prop}

/-- A path over old and new edges uses no new edge, or it reaches their source
    over old edges and leaves one of their targets over old edges. -/
theorem transGen_insert {b : α} (h : Relation.TransGen (fun x y => r x y ∨ (x = n ∧ D y)) a b) :
    Relation.TransGen r a b ∨
      (Relation.ReflTransGen r a n ∧ ∃ d, D d ∧ Relation.ReflTransGen r d b) := by
  induction h with
  | single h =>
    rcases h with h | ⟨rfl, hd⟩
    · exact Or.inl (Relation.TransGen.single h)
    · exact Or.inr ⟨Relation.ReflTransGen.refl, _, hd, Relation.ReflTransGen.refl⟩
  | tail _ hlast ih =>
    rcases hlast with hlast | ⟨rfl, hd⟩
    · rcases ih with ih | ⟨hn, d, hd, ih⟩
      · exact Or.inl (ih.tail hlast)
      · exact Or.inr ⟨hn, d, hd, ih.tail hlast⟩
    · rcases ih with ih | ⟨hn, _⟩
      · exact Or.inr ⟨ih.to_reflTransGen, _, hd, Relation.ReflTransGen.refl⟩
      · exact Or.inr ⟨hn, _, hd, Relation.ReflTransGen.refl⟩

/-- New edges out of a node close no cycle when none of their targets reaches
    it. -/
theorem acyclic_insert (hr : Acyclic r) (hD : ∀ d, D d → ¬ Relation.ReflTransGen r d n) :
    Acyclic fun x y => r x y ∨ (x = n ∧ D y) := by
  intro a ha
  rcases transGen_insert ha with h | ⟨hn, d, hd, h⟩
  · exact hr a h
  · exact hD d hd (h.trans hn)

/-! ### The search -/

/-- Reachability along successors through admitted keys. -/
def ReachesThrough (ok : α → Bool) (succ : α → List α) (a b : α) : Prop :=
  ok a = true ∧ Relation.ReflTransGen (fun x y => y ∈ succ x ∧ ok y = true) a b

variable [DecidableEq α]

/-- The worklist search: take a key, skip it when seen or not admitted, answer
    when it is the target, and look at its successors otherwise. -/
def search (ok : α → Bool) (succ : α → List α) (target : α) : ℕ → List α → List α → Bool
  | 0, _, _ => false
  | _ + 1, _, [] => false
  | fuel + 1, seen, key :: rest =>
    if key ∈ seen then search ok succ target fuel seen rest
    else if ¬ ok key then search ok succ target fuel (key :: seen) rest
    else if key = target then true
    else search ok succ target fuel (key :: seen) ((succ key).reverse ++ rest)

variable {ok : α → Bool} {succ : α → List α} {target : α}

/-- What the search finds is reachable from a key on the stack. -/
theorem search_sound (fuel : ℕ) : ∀ seen stack : List α,
    search ok succ target fuel seen stack = true →
      ∃ a ∈ stack, ReachesThrough ok succ a target := by
  induction fuel with
  | zero => intro seen stack h; simp [search] at h
  | succ fuel ih =>
    intro seen stack h
    cases stack with
    | nil => simp [search] at h
    | cons key rest =>
      rw [search] at h
      split_ifs at h with hseen hok htarget
      · rcases ih _ _ h with ⟨a, ha, hr⟩
        exact ⟨a, mem_cons_of_mem key ha, hr⟩
      · exact ⟨key, mem_cons_self, hok, by rw [htarget]⟩
      · rcases ih _ _ h with ⟨a, ha, haok, hr⟩
        rcases mem_append.mp ha with ha | ha
        · have hsucc : a ∈ succ key := mem_reverse.mp ha
          exact ⟨key, mem_cons_self, hok, hr.head ⟨hsucc, haok⟩⟩
        · exact ⟨a, mem_cons_of_mem key ha, haok, hr⟩
      · rcases ih _ _ h with ⟨a, ha, hr⟩
        exact ⟨a, mem_cons_of_mem key ha, hr⟩

/-- The successors an unseen key may still put on the stack. -/
def unpaid (succ : α → List α) (keys : Finset α) (seen : List α) : ℕ :=
  ∑ x ∈ keys.filter (· ∉ seen), (succ x).length

theorem unpaid_cons_le (succ : α → List α) (keys : Finset α) (seen : List α) (key : α) :
    unpaid succ keys (key :: seen) ≤ unpaid succ keys seen := by
  refine Finset.sum_le_sum_of_subset_of_nonneg ?_ (fun _ _ _ => Nat.zero_le _)
  intro x hx
  rw [Finset.mem_filter, mem_cons, not_or] at hx
  exact Finset.mem_filter.mpr ⟨hx.1, hx.2.2⟩

variable {keys : Finset α}

theorem unpaid_cons (succ : α → List α) {seen : List α} {key : α} (hkey : key ∈ keys)
    (hseen : key ∉ seen) :
    unpaid succ keys (key :: seen) + (succ key).length = unpaid succ keys seen := by
  have hmem : key ∈ keys.filter (· ∉ seen) := Finset.mem_filter.mpr ⟨hkey, hseen⟩
  have herase : keys.filter (· ∉ key :: seen) = (keys.filter (· ∉ seen)).erase key := by
    ext x
    simp only [Finset.mem_filter, Finset.mem_erase, mem_cons, not_or]
    tauto
  unfold unpaid
  rw [herase]
  exact Finset.sum_erase_add _ _ hmem

/-- A set of keys that no admitted member leaves and that misses the target. -/
def ClosedOff (ok : α → Bool) (succ : α → List α) (target : α) (C : α → Prop) : Prop :=
  ∀ x, C x → ok x = true → x ≠ target ∧ ∀ y ∈ succ x, C y

/-- A search with enough fuel that finds nothing has seen a closed-off set
    around its stack. The successors of every key seen are seen or still on
    the stack. -/
theorem search_closedOff (hkeys : ∀ x, ok x = true → x ∈ keys) (fuel : ℕ) :
    ∀ seen stack : List α, stack.length + unpaid succ keys seen < fuel →
      (∀ x ∈ seen, ok x = true → x ≠ target ∧ ∀ y ∈ succ x, y ∈ seen ∨ y ∈ stack) →
      search ok succ target fuel seen stack = false →
      ∃ C : α → Prop, (∀ x, x ∈ seen ∨ x ∈ stack → C x) ∧ ClosedOff ok succ target C := by
  induction fuel with
  | zero => intro seen stack hfuel; omega
  | succ fuel ih =>
    intro seen stack hfuel hinv hsearch
    cases stack with
    | nil =>
      refine ⟨fun x => x ∈ seen, ?_, ?_⟩
      · intro x hx
        exact hx.resolve_right not_mem_nil
      · intro x hx hok
        refine ⟨(hinv x hx hok).1, ?_⟩
        intro y hy
        exact ((hinv x hx hok).2 y hy).resolve_right not_mem_nil
    | cons key rest =>
      rw [length_cons] at hfuel
      rw [search] at hsearch
      split_ifs at hsearch with hseen hok htarget
      · -- The key was seen: the rest of the stack and the seen keys cover it.
        have hinv' : ∀ x ∈ seen, ok x = true →
            x ≠ target ∧ ∀ y ∈ succ x, y ∈ seen ∨ y ∈ rest := by
          intro x hx hxok
          refine ⟨(hinv x hx hxok).1, ?_⟩
          intro y hy
          rcases (hinv x hx hxok).2 y hy with hy | hy
          · exact Or.inl hy
          · rcases mem_cons.mp hy with rfl | hy
            · exact Or.inl hseen
            · exact Or.inr hy
        rcases ih seen rest (by omega) hinv' hsearch with ⟨C, hC, hclosed⟩
        refine ⟨C, ?_, hclosed⟩
        intro x hx
        rcases hx with hx | hx
        · exact hC x (Or.inl hx)
        · rcases mem_cons.mp hx with rfl | hx
          · exact hC x (Or.inl hseen)
          · exact hC x (Or.inr hx)
      · -- The key is expanded.
        have hpaid := unpaid_cons succ (hkeys key hok) hseen
        have hinv' : ∀ x ∈ key :: seen, ok x = true →
            x ≠ target ∧ ∀ y ∈ succ x, y ∈ key :: seen ∨ y ∈ (succ key).reverse ++ rest := by
          intro x hx hxok
          rcases mem_cons.mp hx with rfl | hx
          · refine ⟨htarget, ?_⟩
            intro y hy
            exact Or.inr (mem_append_left _ (mem_reverse.mpr hy))
          · refine ⟨(hinv x hx hxok).1, ?_⟩
            intro y hy
            rw [mem_cons, mem_append]
            rcases (hinv x hx hxok).2 y hy with hy | hy
            · exact Or.inl (Or.inr hy)
            · rcases mem_cons.mp hy with rfl | hy
              · exact Or.inl (Or.inl rfl)
              · exact Or.inr (Or.inr hy)
        have hfuel' : ((succ key).reverse ++ rest).length + unpaid succ keys (key :: seen)
            < fuel := by
          rw [length_append, length_reverse]
          omega
        rcases ih _ _ hfuel' hinv' hsearch with ⟨C, hC, hclosed⟩
        refine ⟨C, ?_, hclosed⟩
        intro x hx
        refine hC x ?_
        rw [mem_cons, mem_append]
        rw [mem_cons] at hx
        tauto
      · -- A key that is not admitted has no successors that matter.
        have hle := unpaid_cons_le succ keys seen key
        have hinv' : ∀ x ∈ key :: seen, ok x = true →
            x ≠ target ∧ ∀ y ∈ succ x, y ∈ key :: seen ∨ y ∈ rest := by
          intro x hx hxok
          rcases mem_cons.mp hx with rfl | hx
          · exact absurd hxok hok
          · refine ⟨(hinv x hx hxok).1, ?_⟩
            intro y hy
            rw [mem_cons]
            rcases (hinv x hx hxok).2 y hy with hy | hy
            · exact Or.inl (Or.inr hy)
            · rcases mem_cons.mp hy with rfl | hy
              · exact Or.inl (Or.inl rfl)
              · exact Or.inr hy
        rcases ih (key :: seen) rest (by omega) hinv' hsearch with ⟨C, hC, hclosed⟩
        refine ⟨C, ?_, hclosed⟩
        intro x hx
        refine hC x ?_
        rw [mem_cons] at hx ⊢
        tauto

omit [DecidableEq α] in
theorem ClosedOff.not_reachesThrough {C : α → Prop} (h : ClosedOff ok succ target C)
    (ha : C a) : ¬ ReachesThrough ok succ a target := by
  rintro ⟨haok, hpath⟩
  have hall : ∀ b, Relation.ReflTransGen (fun x y => y ∈ succ x ∧ ok y = true) a b →
      C b ∧ ok b = true := by
    intro b hb
    induction hb with
    | refl => exact ⟨ha, haok⟩
    | tail _ hlast ih => exact ⟨(h _ ih.1 ih.2).2 _ hlast.1, hlast.2⟩
  have htarget := hall target hpath
  exact (h target htarget.1 htarget.2).1 rfl

theorem search_iff (hkeys : ∀ x, ok x = true → x ∈ keys) (start : α)
    (fuel : ℕ) (hfuel : (∑ x ∈ keys, (succ x).length) + 1 < fuel) :
    search ok succ target fuel [] [start] = true ↔ ReachesThrough ok succ start target := by
  constructor
  · intro h
    rcases search_sound fuel _ _ h with ⟨a, ha, hr⟩
    rwa [mem_singleton.mp ha] at hr
  · intro h
    by_contra hne
    rw [Bool.not_eq_true] at hne
    have hunpaid : unpaid succ keys [] = ∑ x ∈ keys, (succ x).length := by
      simp only [unpaid, not_mem_nil, not_false_eq_true, Finset.filter_true]
    have hfuel' : [start].length + unpaid succ keys [] < fuel := by
      rw [hunpaid, length_singleton]
      omega
    rcases search_closedOff hkeys fuel [] [start] hfuel'
      (fun x hx => absurd hx not_mem_nil) hne with ⟨C, hC, hclosed⟩
    exact hclosed.not_reachesThrough (hC start (Or.inr mem_cons_self)) h

end Reachability
