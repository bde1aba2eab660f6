import Mathlib.Data.List.Basic

/-!
# Wave Protocol

The message alphabet of the wave engine and its tier table. A wave is a list
of messages that may mix tiers; the engine orders it by tier before it acts on
it, so everything a node does to its cache in one wave happens in the order
control, notification, value, settle, terminal, teardown.

The payload type is a parameter. In the program it is an erased `Rc<dyn Any>`
that the engine only moves around, never inspects, so nothing below may depend
on what it is.

## Main definitions

* `Tier`: The seven tiers and their numbers.
* `Message`: The eleven message kinds.
* `Message.tier`: The tier of a message.
* `Message.isUpAllowed`: Whether a message may travel upstream.
* `sortByTier`: The stable sort of a wave by tier.
* `collapseInvalidate`: A wave with every INVALIDATE but the first removed.

## Theorems

* `mem_sortByTier`: Sorting neither adds nor loses a message.
* `sortByTier_sorted`: The tiers of a sorted wave never decrease.
-/

namespace GraphRefly

/-- Caller-chosen opaque pause-lock identifier. -/
structure LockId where
  id : String
  deriving DecidableEq

/-- Explicit pull demand payload. -/
structure PullDemand (V : Type) where
  pullId : LockId
  params : Option V
  deriving DecidableEq

/-- The seven tiers, ordered by priority and batch timing. -/
inductive Tier
  | start
  | control
  | notification
  | value
  | settle
  | terminal
  | teardown
  deriving DecidableEq

namespace Tier

/-- The tier's number in the constant table. -/
def asU8 : Tier → Nat
  | start => 0
  | control => 1
  | notification => 2
  | value => 3
  | settle => 4
  | terminal => 5
  | teardown => 6

/-- Immediate tiers propagate during the current wave. -/
def isImmediate (t : Tier) : Bool :=
  t.asU8 < Tier.value.asU8

/-- Batch-deferred tiers are held to the batch boundary. -/
def isBatchDeferred (t : Tier) : Bool :=
  !t.isImmediate

/-- Pause buffering holds the settle slice. -/
def isPauseBuffered : Tier → Bool
  | value => true
  | settle => true
  | _ => false

end Tier

/-- One protocol message. The error payload is the error's display text. -/
inductive Message (V : Type)
  | start
  | pause (lock : LockId)
  | resume (lock : LockId)
  | pull (demand : PullDemand V)
  | dirty
  | data (v : V)
  | resolved
  | invalidate
  | complete
  | error (e : String)
  | teardown
  deriving DecidableEq

namespace Message

variable {V : Type}

/-- The tier of a message per the constant table. -/
def tier : Message V → Tier
  | start => .start
  | pause _ => .control
  | resume _ => .control
  | pull _ => .control
  | dirty => .notification
  | data _ => .value
  | resolved => .value
  | invalidate => .settle
  | complete => .terminal
  | error _ => .terminal
  | teardown => .teardown

/-- Whether this kind may travel upstream. -/
def isUpAllowed : Message V → Bool
  | dirty => true
  | pause _ => true
  | resume _ => true
  | pull _ => true
  | invalidate => true
  | teardown => true
  | _ => false

/-- A DATA message. -/
def isData : Message V → Bool
  | data _ => true
  | _ => false

/-- A RESOLVED message. -/
def isResolved : Message V → Bool
  | resolved => true
  | _ => false

/-- An INVALIDATE message. -/
def isInvalidate : Message V → Bool
  | invalidate => true
  | _ => false

/-- A COMPLETE or ERROR message. -/
def isTerminal : Message V → Bool
  | complete => true
  | error _ => true
  | _ => false

end Message

/-- One wave: a list of messages that may mix tiers. -/
abbrev Wave (V : Type) := List (Message V)

section Sorting

variable {V : Type}

section

variable (msgs : Wave V)

/-- The messages of one tier, in arrival order. -/
def tierSlice (t : Nat) : Wave V :=
  msgs.filter (fun m => m.tier.asU8 == t)

/-- The stable sort by tier: the slices of the seven tiers one after the
    other, each in arrival order. -/
def sortByTier : Wave V :=
  (List.range 7).flatMap (tierSlice msgs)

/-- Keep the first INVALIDATE of a wave and drop the later ones. -/
def collapseInvalidate : Wave V → Wave V
  | [] => []
  | m :: ms =>
    if m.isInvalidate then m :: ms.filter (fun x => !x.isInvalidate)
    else m :: collapseInvalidate ms

theorem Tier.asU8_lt (t : Tier) : t.asU8 < 7 := by
  cases t <;> decide

theorem mem_tierSlice (t : Nat) (m : Message V) :
    m ∈ tierSlice msgs t ↔ m ∈ msgs ∧ m.tier.asU8 = t := by
  simp only [tierSlice, List.mem_filter, beq_iff_eq]

/-- Sorting neither adds nor loses a message. -/
theorem mem_sortByTier (m : Message V) :
    m ∈ sortByTier msgs ↔ m ∈ msgs := by
  simp only [sortByTier, List.mem_flatMap, List.mem_range, mem_tierSlice]
  constructor
  · rintro ⟨t, _, hm, _⟩
    exact hm
  · intro hm
    exact ⟨m.tier.asU8, m.tier.asU8_lt, hm, rfl⟩

/-- The tiers of a sorted wave never decrease. The slices come in tier order
    and each slice has a single tier. -/
theorem sortByTier_sorted : (sortByTier msgs).Pairwise (fun a b => a.tier.asU8 ≤ b.tier.asU8) := by
  rw [sortByTier, List.pairwise_flatMap]
  constructor
  · intro t _
    refine List.pairwise_of_forall_mem_list (fun a ha b hb => ?_)
    rw [mem_tierSlice] at ha hb
    omega
  · refine List.Pairwise.imp ?_ List.pairwise_lt_range
    intro t t' hlt a ha b hb
    rw [mem_tierSlice] at ha hb
    omega

theorem collapseInvalidate_sublist : (collapseInvalidate msgs).Sublist msgs := by
  induction msgs with
  | nil => exact List.Sublist.refl []
  | cons m ms ih =>
    unfold collapseInvalidate
    split
    · exact List.Sublist.cons_cons m List.filter_sublist
    · exact List.Sublist.cons_cons m ih

theorem collapse_sort_sorted :
    (collapseInvalidate (sortByTier msgs)).Pairwise (fun a b => a.tier.asU8 ≤ b.tier.asU8) :=
  (sortByTier_sorted msgs).sublist (collapseInvalidate_sublist _)

end

end Sorting

end GraphRefly
