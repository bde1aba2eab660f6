import GraphRefly.Core.Config
import Mathlib.Data.List.Dedup

/-!
# Upstream Reachability

The cycle check of a rewire: a depth-first walk along the dep lists that looks
for the rewiring node. The walk keeps a stack and a set of keys already seen,
and skips keys that are not live.

A key is pushed at most once for the start and once per dep entry of each node
that is expanded, and a node is expanded at most once. One more than the total
number of dep entries is therefore enough fuel, and running out is the same as
an empty stack.

## Main definitions

* `Config.isLive`: A key names a live slot.
* `Config.depEntries`: The total number of dep entries in the arena.
* `Config.reachLoop`: The walk, by fuel.
* `Config.reachableUpstream`: Is `target` upstream of `from`?
* `dedupCores`: A dep list with later repeats dropped.
-/

namespace GraphRefly

/-- Drop every repeat of a dep, keeping first-seen order. -/
def dedupCores (deps : List NodeId) : List NodeId :=
  deps.foldl (fun out d => if d ∈ out then out else out ++ [d]) []

namespace Config

variable {V S : Type}

/-- The key names a live slot of the arena. -/
def isLive (c : Config V S) (n : NodeId) : Bool :=
  n < c.size && (c.nodes n).live

/-- The total number of dep entries in the arena. -/
def depEntries (c : Config V S) : Nat :=
  ((List.range c.size).map fun n => (c.nodes n).deps.length).sum

/-- The walk: pop a key, skip it when seen or dead, answer when it is the
    target, and push its deps otherwise. -/
def reachLoop (c : Config V S) (target : NodeId) :
    Nat → List NodeId → List NodeId → Bool
  | 0, _, _ => false
  | _ + 1, _, [] => false
  | fuel + 1, seen, key :: rest =>
    if key ∈ seen then c.reachLoop target fuel seen rest
    else if ¬ c.isLive key then c.reachLoop target fuel (key :: seen) rest
    else if key = target then true
    else c.reachLoop target fuel (key :: seen) ((c.nodes key).deps.reverse ++ rest)

/-- Is `target` reachable upstream from `start`? -/
def reachableUpstream (c : Config V S) (start target : NodeId) : Bool :=
  c.isLive target && c.reachLoop target (c.depEntries + 2) [] [start]

end Config

end GraphRefly
