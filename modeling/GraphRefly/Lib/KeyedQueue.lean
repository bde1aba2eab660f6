import Mathlib.Data.List.Sort

/-!
# Queues with Keys

A queue whose entries carry a key and a serial number. Entries arrive at the
back with increasing serials and are served from the front, but an entry at
the front may also be put back instead of being served. What must survive is
the order within each key.

The record of a queue's life is kept as two lists, newest first: what arrived
and what was served, each as a serial with its key.

## Main definitions

* `InOrder`: Entries of one key stand in the order of their serials.
* `Orderly`: A queue in order, together with its record.
* `serials`: The record of one key, oldest first.

## Theorems

* `inOrder_swap`: Two parts of a queue without a common key may change places.
* `Orderly.arrive`, `Orderly.serve`, `Orderly.sublist`: The operations.
* `Orderly.served_sublist`: Serves of one key follow its arrivals.
-/

namespace KeyedQueue

open List

variable {α κ : Type*} (key : α → κ) (serial : α → ℕ)

/-- Entries of one key stand in the order of their serials. -/
def InOrder (queue : List α) : Prop :=
  queue.Pairwise fun a b => key a = key b → serial a < serial b

/-- A queue in order, with everything that arrived and was served so far,
    newest first. What waits is later than what was served of the same key. -/
structure Orderly (next : ℕ) (queue : List α) (arrived served : List (ℕ × κ)) : Prop where
  arrived_desc : arrived.Pairwise fun a b => b.1 < a.1
  arrived_lt : ∀ a ∈ arrived, a.1 < next
  served_desc : served.Pairwise fun a b => a.2 = b.2 → b.1 < a.1
  served_arrived : ∀ a ∈ served, a ∈ arrived
  queue_arrived : ∀ a ∈ queue, (serial a, key a) ∈ arrived
  queue_later : ∀ a ∈ queue, ∀ b ∈ served, b.2 = key a → b.1 < serial a
  inOrder : InOrder key serial queue

variable {key serial}

/-- Two parts of a queue without a common key may change places. -/
theorem inOrder_swap {front back : List α} (h : InOrder key serial (front ++ back))
    (hne : ∀ a ∈ front, ∀ b ∈ back, key a ≠ key b) : InOrder key serial (back ++ front) := by
  unfold InOrder at h ⊢
  rw [pairwise_append] at h ⊢
  refine ⟨h.2.1, h.1, ?_⟩
  intro b hb a ha hkey
  exact absurd hkey.symm (hne a ha b hb)

section Serials

variable [DecidableEq κ]

/-- The serials of one key, oldest first. -/
def serials (events : List (ℕ × κ)) (k : κ) : List ℕ :=
  (events.reverse.filter (·.2 = k)).map (·.1)

variable {events : List (ℕ × κ)} {k : κ}

theorem serials_sorted (h : events.Pairwise fun a b => a.2 = b.2 → b.1 < a.1) :
    (serials events k).Pairwise (· < ·) := by
  unfold serials
  rw [pairwise_map, pairwise_filter, pairwise_reverse]
  refine h.imp ?_
  intro a b hab ha hb
  rw [decide_eq_true_eq] at ha hb
  exact hab (hb.trans ha.symm)

theorem mem_serials {n : ℕ} :
    n ∈ serials events k ↔ (n, k) ∈ events := by
  simp only [serials, mem_map, mem_filter, mem_reverse, decide_eq_true_eq]
  constructor
  · rintro ⟨⟨m, k'⟩, ⟨hmem, rfl⟩, rfl⟩
    exact hmem
  · intro hmem
    exact ⟨(n, k), ⟨hmem, rfl⟩, rfl⟩

end Serials

namespace Orderly

variable {next : ℕ} {queue : List α} {arrived served : List (ℕ × κ)}

theorem empty : Orderly key serial 0 [] [] [] := by
  constructor <;> simp [InOrder]

variable {queue' : List α}

theorem sublist (h : Orderly key serial next queue arrived served)
    (hsub : queue'.Sublist queue) : Orderly key serial next queue' arrived served :=
  { h with
    queue_arrived := fun a ha => h.queue_arrived a (hsub.subset ha)
    queue_later := fun a ha => h.queue_later a (hsub.subset ha)
    inOrder := List.Pairwise.sublist hsub h.inOrder }

theorem reorder (h : Orderly key serial next queue arrived served)
    (hmem : ∀ a ∈ queue', a ∈ queue) (hord : InOrder key serial queue') :
    Orderly key serial next queue' arrived served :=
  { h with
    queue_arrived := fun a ha => h.queue_arrived a (hmem a ha)
    queue_later := fun a ha => h.queue_later a (hmem a ha)
    inOrder := hord }

variable {a : α}

theorem arrive (h : Orderly key serial next queue arrived served) (ha : serial a = next) :
    Orderly key serial (next + 1) (queue ++ [a]) ((next, key a) :: arrived) served where
  arrived_desc := pairwise_cons.mpr ⟨h.arrived_lt, h.arrived_desc⟩
  arrived_lt := by
    intro b hb
    rcases mem_cons.mp hb with rfl | hb
    · exact Nat.lt_succ_self next
    · exact Nat.lt_succ_of_lt (h.arrived_lt b hb)
  served_desc := h.served_desc
  served_arrived := fun b hb => mem_cons_of_mem _ (h.served_arrived b hb)
  queue_arrived := by
    intro b hb
    rcases mem_append.mp hb with hb | hb
    · exact mem_cons_of_mem _ (h.queue_arrived b hb)
    · rw [mem_singleton.mp hb, ha]
      exact mem_cons_self
  queue_later := by
    intro b hb s hs hkey
    rcases mem_append.mp hb with hb | hb
    · exact h.queue_later b hb s hs hkey
    · rw [mem_singleton.mp hb, ha]
      exact h.arrived_lt s (h.served_arrived s hs)
  inOrder := by
    unfold InOrder
    rw [pairwise_append]
    refine ⟨h.inOrder, pairwise_singleton _ _, ?_⟩
    intro b hb b' hb' _
    rw [mem_singleton.mp hb', ha]
    exact h.arrived_lt _ (h.queue_arrived b hb)

theorem serve (h : Orderly key serial next (a :: queue) arrived served) :
    Orderly key serial next queue arrived ((serial a, key a) :: served) where
  arrived_desc := h.arrived_desc
  arrived_lt := h.arrived_lt
  served_desc := by
    refine pairwise_cons.mpr ⟨?_, h.served_desc⟩
    intro b hb hkey
    exact h.queue_later a mem_cons_self b hb hkey.symm
  served_arrived := by
    intro b hb
    rcases mem_cons.mp hb with rfl | hb
    · exact h.queue_arrived a mem_cons_self
    · exact h.served_arrived b hb
  queue_arrived := fun b hb => h.queue_arrived b (mem_cons_of_mem a hb)
  queue_later := by
    intro b hb s hs hkey
    rcases mem_cons.mp hs with rfl | hs
    · exact (pairwise_cons.mp h.inOrder).1 b hb hkey
    · exact h.queue_later b (mem_cons_of_mem a hb) s hs hkey
  inOrder := (pairwise_cons.mp h.inOrder).2

theorem served_sublist [DecidableEq κ] (h : Orderly key serial next queue arrived served) (k : κ) :
    (serials served k).Sublist (serials arrived k) ∧ (serials arrived k).Nodup := by
  have hs : (serials served k).Pairwise (· < ·) := serials_sorted h.served_desc
  have hd : arrived.Pairwise fun a b => a.2 = b.2 → b.1 < a.1 := by
    refine h.arrived_desc.imp ?_
    intro a b hlt _
    exact hlt
  have ha : (serials arrived k).Pairwise (· < ·) := serials_sorted hd
  have hsub : serials served k ⊆ serials arrived k := by
    intro n hn
    exact mem_serials.mpr (h.served_arrived _ (mem_serials.mp hn))
  have hnodup : (serials served k).Nodup := hs.imp Nat.ne_of_lt
  refine ⟨?_, ha.imp Nat.ne_of_lt⟩
  exact sublist_of_subperm_of_pairwise (subperm_of_subset hnodup hsub) hs ha

end Orderly

end KeyedQueue
