import GraphRefly.Lib.Reachability
import GraphRefly.Safety.Plain

/-!
# The Dep Graph Stays Acyclic

A rewire checks that no added dep depends on the rewiring node, and assigns the
new deps some time later. In between it unsubscribes the removed deps, and the
cleanup hooks that fires are user code, which may rewire other nodes. Such a
rewire is checked against the dep lists of that moment, in which the new deps
of the outer rewire are still missing.

With the new deps of every rewire under way counted as edges, each accepted
rewire keeps the graph acyclic, provided that one which is checked while
another is under way also passes the check with those edges counted.

## Main definitions

* `Frame.rewires`, `Frame.pending`: The rewire a frame carries out.
* `Config.withPending`: The arena with the deps of pending rewires counted.
* `Config.RewiresChecked`: The condition on the state before a step.
* `Config.edge`: Deps and pending deps of live nodes.
* `Config.TopoInv`: Handles are alive and the edges are acyclic.

## Theorems

* `reachableUpstream_iff`: The cycle check answers reachability exactly.
* `step_topoInv`: A step that meets the condition preserves the invariant.
* `deps_acyclic`: Runs that meet the condition build no cycle.
* `rewire_closes_cycle`: A run that does not.
-/

namespace GraphRefly

open List

variable {V S : Type}

namespace Config

/-! ### The cycle check -/

/-- `n` is reachable from `d` along dep lists through live nodes. -/
def UpstreamOf (c : Config V S) (d n : NodeId) : Prop :=
  Reachability.ReachesThrough c.isLive (fun a => (c.nodes a).deps) d n

theorem reachLoop_eq_search (c : Config V S) (target : NodeId) (fuel : Nat) :
    ∀ seen stack, c.reachLoop target fuel seen stack =
      Reachability.search c.isLive (fun a => (c.nodes a).deps) target fuel seen stack := by
  induction fuel with
  | zero => intro seen stack; rfl
  | succ fuel ih =>
    intro seen stack
    cases stack with
    | nil => rfl
    | cons key rest =>
      rw [reachLoop, Reachability.search]
      simp only [ih]

theorem depEntries_eq_sum (c : Config V S) :
    c.depEntries = ∑ n ∈ Finset.range c.size, (c.nodes n).deps.length := by
  rw [depEntries, Finset.sum_eq_multiset_sum]
  rfl

/-- The cycle check answers exactly whether the target is reachable through
    live nodes. -/
theorem reachableUpstream_iff (c : Config V S) (d n : NodeId) :
    c.reachableUpstream d n = true ↔ c.UpstreamOf d n := by
  have hkeys : ∀ x, c.isLive x = true → x ∈ Finset.range c.size := by
    intro x hx
    rw [isLive, Bool.and_eq_true, decide_eq_true_eq] at hx
    exact Finset.mem_range.mpr hx.1
  have hfuel : (∑ x ∈ Finset.range c.size, (c.nodes x).deps.length) + 1 < c.depEntries + 2 := by
    rw [depEntries_eq_sum]
    exact Nat.lt_succ_self _
  have hiff : Reachability.search c.isLive (fun a => (c.nodes a).deps) n (c.depEntries + 2)
      [] [d] = true ↔ c.UpstreamOf d n := Reachability.search_iff hkeys d _ hfuel
  rw [reachableUpstream, reachLoop_eq_search, Bool.and_eq_true, hiff]
  constructor
  · exact fun h => h.2
  · intro h
    refine ⟨?_, h⟩
    -- The last node of a path through live nodes is live.
    rcases h with ⟨hd, hpath⟩
    cases hpath with
    | refl => exact hd
    | tail _ hlast => exact hlast.2

end Config

/-! ### Rewires under way -/

/-- The node a frame is about to rewire, with the dep handles it carries. -/
def Frame.rewires : Frame V → Option (NodeId × List NodeId)
  | .externalRewire n req => some (n, req.handles)
  | .rewireInner n newDeps _ _ => some (n, newDeps)
  | .rewireApply n newDeps _ => some (n, newDeps)
  | .rewireRemove n _ newDeps _ _ _ => some (n, newDeps)
  | .rewireAssign n _ newDeps _ _ => some (n, newDeps)
  | _ => none

/-- A rewire that passed its check and has not assigned its deps. -/
def Frame.pending : Frame V → Option (NodeId × List NodeId)
  | .rewireApply n newDeps _ => some (n, newDeps)
  | .rewireRemove n _ newDeps _ _ _ => some (n, newDeps)
  | .rewireAssign n _ newDeps _ _ => some (n, newDeps)
  | _ => none

/-- The new deps that pending rewires are about to give a node. -/
def pendingDeps (stack : List (Frame V)) (n : NodeId) : List NodeId :=
  stack.flatMap fun f => match f.pending with
    | some (m, ds) => if m = n then ds else []
    | none => []

variable {n : NodeId}

theorem mem_pendingDeps {stack : List (Frame V)} {d : NodeId} :
    d ∈ pendingDeps stack n ↔ ∃ f ∈ stack, ∃ ds, f.pending = some (n, ds) ∧ d ∈ ds := by
  rw [pendingDeps, mem_flatMap]
  constructor
  · rintro ⟨f, hf, hd⟩
    cases hp : f.pending with
    | none =>
      rw [hp] at hd
      exact absurd hd not_mem_nil
    | some p =>
      rw [hp] at hd
      dsimp only at hd
      split_ifs at hd with hn
      · subst hn
        exact ⟨f, hf, p.2, hp, hd⟩
      · exact absurd hd not_mem_nil
  · rintro ⟨f, hf, ds, hp, hd⟩
    refine ⟨f, hf, ?_⟩
    rw [hp]
    simp only [↓reduceIte, hd]

variable {f : Frame V}

theorem Frame.rewires_of_pending {p : NodeId × List NodeId}
    (h : f.pending = some p) : f.rewires = some p := by
  cases f <;> first | exact h | cases h

theorem Frame.rewires_of_isPlain (h : f.isPlain = true) : f.rewires = none := by
  cases f <;> first | rfl | cases h

theorem Frame.pending_of_rewires (h : f.rewires = none) : f.pending = none := by
  cases f <;> first | rfl | cases h

theorem Frame.holds_of_rewires {ds : List NodeId}
    (h : f.rewires = some (n, ds)) : f.node? = some n ∧ ∀ d ∈ ds, d ∈ f.depHandles := by
  cases f with
  | externalRewire m req =>
    cases h
    exact ⟨rfl, fun d hd => hd⟩
  | rewireInner m newDeps fn allow =>
    cases h
    exact ⟨rfl, fun d hd => hd⟩
  | rewireApply m newDeps fn =>
    cases h
    exact ⟨rfl, fun d hd => hd⟩
  | rewireRemove m old newDeps act rem dirty =>
    cases h
    exact ⟨rfl, fun d hd => mem_append_right _ hd⟩
  | rewireAssign m old newDeps act dirty =>
    cases h
    exact ⟨rfl, fun d hd => mem_append_right _ hd⟩
  | _ => cases h

namespace Config

/-- The arena with the new deps of pending rewires counted. -/
def withPending (c : Config V S) : Config V S :=
  { c with nodes := fun n =>
      { c.nodes n with deps := (c.nodes n).deps ++ pendingDeps c.stack n } }

/-- A rewire that will be carried out now: it is not held back by a batch and
    passes its checks. -/
def AcceptsRewire (c : Config V S) (n : NodeId) (newDeps : List NodeId) (allow : Bool) : Prop :=
  (if allow then none else c.committedAfterBatch n) = none ∧
    c.rewireReject n (dedupCores newDeps) allow = none

/-- The condition on the state before a step. A rewire that is accepted while
    another one is between its check and the assignment of its deps adds no dep
    that reaches the rewiring node when the pending deps are counted. -/
def RewiresChecked (c : Config V S) : Prop :=
  match c.mode, c.stack with
  | .running, .rewireInner n newDeps _ allow :: _ =>
    (∃ f ∈ c.stack, f.pending.isSome = true) → c.AcceptsRewire n newDeps allow →
      ∀ d ∈ dedupCores newDeps, d ∉ (c.nodes n).deps →
        c.withPending.reachableUpstream d n = false
  | _, _ => True

instance (c : Config V S) (n : NodeId) (newDeps : List NodeId) (allow : Bool) :
    Decidable (c.AcceptsRewire n newDeps allow) :=
  inferInstanceAs (Decidable (_ ∧ _))

instance (c : Config V S) : Decidable c.RewiresChecked := by
  unfold RewiresChecked
  split <;> infer_instance

/-- Deps and pending deps of live nodes. -/
def edge (c : Config V S) (a b : NodeId) : Prop :=
  (c.nodes a).live = true ∧ (b ∈ (c.nodes a).deps ∨ b ∈ pendingDeps c.stack a)

/-- Every dep list, queued request and rewire under way names live nodes, and
    the edges are acyclic. -/
structure TopoInv (c : Config V S) : Prop where
  fresh : ∀ n, c.size ≤ n → (c.nodes n).live = false
  depsLive : ∀ a, (c.nodes a).live = true → ∀ b ∈ (c.nodes a).deps, (c.nodes b).live = true
  framesLive : ∀ f ∈ c.stack, ∀ n ds, f.rewires = some (n, ds) →
    (c.nodes n).live = true ∧ ∀ d ∈ ds, (c.nodes d).live = true
  tasksLive : ∀ t ∈ c.boundary, ∀ d ∈ t.kind.handles, (c.nodes d).live = true
  acyclic : Reachability.Acyclic c.edge

variable {c : Config V S}

theorem TopoInv.isLive_iff (h : c.TopoInv) (n : NodeId) :
    c.isLive n = true ↔ (c.nodes n).live = true := by
  rw [isLive, Bool.and_eq_true, decide_eq_true_eq]
  constructor
  · exact fun hl => hl.2
  · intro hl
    refine ⟨?_, hl⟩
    by_contra hlt
    rw [h.fresh n (Nat.le_of_not_lt hlt)] at hl
    cases hl

variable {a b : NodeId}

theorem TopoInv.edge_live (h : c.TopoInv) (hab : c.edge a b) : (c.nodes b).live = true := by
  rcases hab with ⟨ha, hdep | hpend⟩
  · exact h.depsLive a ha b hdep
  · rcases mem_pendingDeps.mp hpend with ⟨f, hf, ds, hp, hb⟩
    exact (h.framesLive f hf a ds (Frame.rewires_of_pending hp)).2 b hb

/-! ### Steps that leave the graph alone -/

/-- What a step may put on the stack or in the queue without touching the
    graph: rewires that name live nodes, and pending ones that were pending
    before. -/
structure TopoQuiet (c c' : Config V S) : Prop where
  size : c'.size = c.size
  deps : ∀ n, (c'.nodes n).deps = (c.nodes n).deps
  live : ∀ n, (c'.nodes n).live = (c.nodes n).live
  tasks : ∀ t ∈ c'.boundary, t ∈ c.boundary ∨ ∀ d ∈ t.kind.handles, (c.nodes d).live = true
  frames : ∀ f ∈ c'.stack, f ∈ c.stack ∨
    ((∀ n ds, f.rewires = some (n, ds) →
        (c.nodes n).live = true ∧ ∀ d ∈ ds, (c.nodes d).live = true) ∧
      (f.pending = none ∨ ∃ g ∈ c.stack, g.pending = f.pending))

variable {c' : Config V S}

theorem TopoInv.quiet (h : c.TopoInv) (hq : TopoQuiet c c') :
    c'.TopoInv where
  fresh := by
    intro n hn
    rw [hq.live]
    exact h.fresh n (by rwa [hq.size] at hn)
  depsLive := by
    intro a ha b hb
    rw [hq.live] at ha ⊢
    rw [hq.deps] at hb
    exact h.depsLive a ha b hb
  framesLive := by
    intro f hf n ds hr
    simp only [hq.live]
    rcases hq.frames f hf with hold | hnew
    · exact h.framesLive f hold n ds hr
    · exact hnew.1 n ds hr
  tasksLive := by
    intro t ht d hd
    rw [hq.live]
    rcases hq.tasks t ht with hold | hnew
    · exact h.tasksLive t hold d hd
    · exact hnew d hd
  acyclic := by
    refine h.acyclic.mono ?_
    rintro a b ⟨ha, hb⟩
    rw [hq.live] at ha
    rw [hq.deps] at hb
    refine ⟨ha, hb.imp_right ?_⟩
    intro hp
    rcases mem_pendingDeps.mp hp with ⟨f, hf, ds, hpend, hd⟩
    rw [mem_pendingDeps]
    rcases hq.frames f hf with hold | ⟨_, hnone | ⟨g, hg, hgf⟩⟩
    · exact ⟨f, hold, ds, hpend, hd⟩
    · rw [hnone] at hpend
      cases hpend
    · exact ⟨g, hg, ds, by rw [hgf, hpend], hd⟩

namespace TopoQuiet

variable {c c' : Config V S}

theorem of_plain (h : Plain c c') : TopoQuiet c c' where
  size := h.size
  deps := h.deps
  live := h.live
  tasks := fun t ht => Or.inl (by rwa [h.boundary] at ht)
  frames := by
    intro f hf
    rcases h.stack with ⟨fs, hfs, hall⟩
    rw [hfs] at hf
    rcases mem_append.mp hf with hf | hf
    · have hnone := Frame.rewires_of_isPlain (hall f hf)
      refine Or.inr ⟨?_, Or.inl (Frame.pending_of_rewires hnone)⟩
      intro n ds hr
      rw [hnone] at hr
      cases hr
    · exact Or.inl hf

/-- Queue and stack change; the arena does not. -/
theorem of_same (hs : c'.size = c.size) (hn : c'.nodes = c.nodes)
    (ht : ∀ t ∈ c'.boundary, t ∈ c.boundary ∨ ∀ d ∈ t.kind.handles, (c.nodes d).live = true)
    (hf : ∀ f ∈ c'.stack, f ∈ c.stack ∨
      ((∀ n ds, f.rewires = some (n, ds) →
          (c.nodes n).live = true ∧ ∀ d ∈ ds, (c.nodes d).live = true) ∧ f.pending = none)) :
    TopoQuiet c c' where
  size := hs
  deps := fun n => by rw [hn]
  live := fun n => by rw [hn]
  tasks := ht
  frames := by
    intro f hmem
    rcases hf f hmem with h | ⟨h, hp⟩
    · exact Or.inl h
    · exact Or.inr ⟨h, Or.inl hp⟩

/-- The step popped a frame first. -/
theorem of_pop {rest : List (Frame V)}
    (hs : c.stack = f :: rest) (h : TopoQuiet (c.popTo rest) c') : TopoQuiet c c' where
  size := h.size
  deps := h.deps
  live := h.live
  tasks := h.tasks
  frames := by
    have hsub : ∀ g ∈ rest, g ∈ c.stack := by
      intro g hg
      rw [hs]
      exact mem_cons_of_mem f hg
    intro g hg
    rcases h.frames g hg with hold | ⟨hr, hp⟩
    · exact Or.inl (hsub g hold)
    · refine Or.inr ⟨hr, hp.imp_right ?_⟩
      rintro ⟨k, hk, hkg⟩
      exact ⟨k, hsub k hk, hkg⟩

theorem deferBoundary (c : Config V S) (target : NodeId) (kind : TaskKind V)
    (token : Option Nat) (h : ∀ d ∈ kind.handles, (c.nodes d).live = true) :
    TopoQuiet c (c.deferBoundary target kind token) := by
  have hp := (Inert.registerBoundaryRoot c).plain
  refine ⟨hp.size, hp.deps, hp.live, ?_, (of_plain hp).frames⟩
  intro t ht
  simp only [Config.deferBoundary, hp.boundary, mem_append, mem_singleton] at ht
  rcases ht with ht | rfl
  · exact Or.inl ht
  · exact Or.inr h

/-- A new frame that rewires nothing. -/
theorem frame_none (h : f.rewires = none) :
    (∀ n ds, f.rewires = some (n, ds) →
      (c.nodes n).live = true ∧ ∀ d ∈ ds, (c.nodes d).live = true) ∧ f.pending = none := by
  refine ⟨?_, Frame.pending_of_rewires h⟩
  intro n ds hr
  rw [h] at hr
  cases hr

/-- Push frames onto an unchanged arena and queue. -/
theorem push (c : Config V S) (fs : List (Frame V))
    (hf : ∀ f ∈ fs, (∀ n ds, f.rewires = some (n, ds) →
      (c.nodes n).live = true ∧ ∀ d ∈ ds, (c.nodes d).live = true) ∧ f.pending = none) :
    TopoQuiet c (c.push fs) := by
  refine of_same rfl rfl (fun t ht => Or.inl ht) ?_
  intro f hmem
  rcases mem_append.mp hmem with hm | hm
  · exact Or.inr (hf f hm)
  · exact Or.inl hm

/-- Fewer tasks wait. -/
theorem of_boundary_subset (hs : c'.size = c.size) (hn : c'.nodes = c.nodes)
    (ht : ∀ t ∈ c'.boundary, t ∈ c.boundary) (hst : c'.stack = c.stack) : TopoQuiet c c' := by
  refine of_same hs hn (fun t hm => Or.inl (ht t hm)) ?_
  intro f hf
  exact Or.inl (by rwa [hst] at hf)

theorem throw (h : TopoQuiet c c') (p : Payload) :
    TopoQuiet c (c'.throw p) :=
  ⟨h.size, h.deps, h.live, h.tasks, h.frames⟩

theorem closeUncommitted (c : Config V S) (roots : Bool) :
    TopoQuiet c (c.closeUncommitted roots) := by
  unfold Config.closeUncommitted
  dsimp only
  split_ifs
  · exact of_boundary_subset rfl rfl (fun t ht => (mem_filter.mp ht).1) rfl
  · exact of_boundary_subset rfl rfl (fun t ht => ht) rfl

theorem rollbackDone (c : Config V S) (roots : Bool) (payload : Option Payload) :
    TopoQuiet c (c.rollbackDone roots payload) := by
  have h := closeUncommitted c roots
  unfold Config.rollbackDone
  cases payload with
  | none => exact h
  | some p => exact h.throw p

end TopoQuiet

/-- A new node has no edge into it, so its own edges close no cycle. -/
theorem newNode_topoInv (h : c.TopoInv) (spec : NodeSpec V) : (c.newNode spec).TopoInv := by
  unfold newNode
  split
  · exact h.quiet (.of_plain ((Footprint.refl c).panic _))
  split
  swap
  · exact h
  rename_i hok
  rw [Bool.and_eq_true] at hok
  have hdeps : ∀ d ∈ spec.deps, (c.nodes d).live = true := by
    intro d hd
    exact (h.isLive_iff d).mp (all_eq_true.mp hok.1 d hd)
  have hsize : (c.nodes c.size).live = false := h.fresh c.size (Nat.le_refl _)
  have hne : ∀ d, (c.nodes d).live = true → d ≠ c.size := by
    intro d hd heq
    rw [heq, hsize] at hd
    cases hd
  have hlive : ∀ d, (c.nodes d).live = true →
      ((c.setNode c.size (freshNode spec)).nodes d).live = true := by
    intro d hd
    simp only [setNode, Function.update_of_ne (hne d hd), hd]
  refine ⟨?_, ?_, ?_, ?_, ?_⟩
  · intro n hn
    have hn' : c.size < n := hn
    simp only [setNode, Function.update_of_ne (Nat.ne_of_gt hn')]
    exact h.fresh n (Nat.le_of_lt hn')
  · intro a ha b hb
    by_cases hsz : a = c.size
    · subst hsz
      simp only [setNode, Function.update_self, freshNode] at hb
      exact hlive b (hdeps b hb)
    · simp only [setNode, Function.update_of_ne hsz] at ha hb
      exact hlive b (h.depsLive a ha b hb)
  · intro f hf n ds hr
    have hfl := h.framesLive f hf n ds hr
    exact ⟨hlive n hfl.1, fun d hd => hlive d (hfl.2 d hd)⟩
  · intro t ht d hd
    exact hlive d (h.tasksLive t ht d hd)
  · -- The edges of the new arena are the old ones and those of the new node.
    have hins : Reachability.Acyclic fun a b => c.edge a b ∨
        (a = c.size ∧ (b ∈ spec.deps ∨ b ∈ pendingDeps c.stack c.size)) := by
      refine Reachability.acyclic_insert h.acyclic ?_
      intro d hd hpath
      have hdlive : (c.nodes d).live = true := by
        rcases hd with hd | hd
        · exact hdeps d hd
        · rcases mem_pendingDeps.mp hd with ⟨f, hf, ds, hp, hd⟩
          exact (h.framesLive f hf _ ds (Frame.rewires_of_pending hp)).2 d hd
      rcases Relation.ReflTransGen.cases_tail hpath with heq | ⟨x, _, hx⟩
      · exact hne d hdlive heq.symm
      · exact hne c.size (h.edge_live hx) rfl
    refine hins.mono ?_
    rintro a b ⟨ha, hb⟩
    by_cases hsz : a = c.size
    · subst hsz
      simp only [setNode, Function.update_self, freshNode] at hb
      exact Or.inr ⟨rfl, hb⟩
    · simp only [setNode, Function.update_of_ne hsz] at ha hb
      exact Or.inl ⟨ha, hb⟩

/-- A node is dropped only when no dep list, request or frame names it. -/
theorem dropNode_topoInv (h : c.TopoInv) (n : NodeId) :
    (c.dropNode n (c.stack.any (·.holds n))).TopoInv := by
  unfold dropNode
  dsimp only
  split
  swap
  · exact h
  rename_i hok
  rw [Bool.and_eq_true] at hok
  have hun := hok.2
  simp only [unreferenced, Bool.and_eq_true, Bool.not_eq_true'] at hun
  rcases hun with ⟨⟨⟨⟨hdeps, _⟩, _⟩, htasks⟩, hstack⟩
  -- Liveness afterwards: as before, but for the dropped node.
  have hlive : ∀ x : Node V S, x.live = false → ∀ m, m ≠ n →
      ((c.setNode n x).nodes m).live = (c.nodes m).live := by
    intro x _ m hm
    simp only [setNode, Function.update_of_ne hm]
  have hnotdep : ∀ a, (c.nodes a).live = true → n ∉ (c.nodes a).deps := by
    intro a ha hmem
    have hlt : a < c.size := by
      by_contra hge
      rw [h.fresh a (Nat.le_of_not_lt hge)] at ha
      cases ha
    have := all_eq_true.mp hdeps a (mem_range.mpr hlt)
    simp only [ha, Bool.not_true, Bool.false_or, Bool.not_eq_true', contains_eq_mem,
      decide_eq_false_iff_not] at this
    exact this hmem
  have hnotheld : ∀ f ∈ c.stack, f.holds n = false := by
    intro f hf
    exact Bool.eq_false_iff.mpr (any_eq_false.mp hstack f hf)
  have hframe : ∀ f ∈ c.stack, ∀ m ds, f.rewires = some (m, ds) → m ≠ n ∧ ∀ d ∈ ds, d ≠ n := by
    intro f hf m ds hr
    have hh := Frame.holds_of_rewires hr
    have hnot := hnotheld f hf
    simp only [Frame.holds, hh.1, Bool.or_eq_false_iff, beq_eq_false_iff_ne, ne_eq,
      Option.some.injEq, contains_eq_mem, decide_eq_false_iff_not] at hnot
    refine ⟨hnot.1, ?_⟩
    intro d hd heq
    subst heq
    exact hnot.2 (hh.2 d hd)
  -- The pushed frames only detach and clean up.
  have hpushed : ∀ f ∈ unsubFrames (c.nodes n) ++ hookFrames (c.nodes n).aux.onDeactivation,
      f.rewires = none := by
    intro f hf
    refine Frame.rewires_of_isPlain ?_
    rcases mem_append.mp hf with hf | hf
    · exact f.isPlain_of_isSilent (Silent.unsubFrames _ f hf)
    · exact f.isPlain_of_isSilent (Silent.hookFrames _ f hf)
  refine ⟨?_, ?_, ?_, ?_, ?_⟩
  · intro m hm
    by_cases hmn : m = n
    · subst hmn
      simp only [Config.push, setNode, Function.update_self]
    · simp only [Config.push, setNode, Function.update_of_ne hmn]
      exact h.fresh m hm
  · intro a ha b hb
    by_cases han : a = n
    · subst han
      simp only [Config.push, setNode, Function.update_self] at ha
      cases ha
    · simp only [Config.push, setNode, Function.update_of_ne han] at ha hb
      have hbn : b ≠ n := by
        intro heq
        subst heq
        exact hnotdep a ha hb
      simp only [Config.push, setNode, Function.update_of_ne hbn]
      exact h.depsLive a ha b hb
  · intro f hf m ds hr
    rcases mem_append.mp hf with hf | hf
    · rw [hpushed f hf] at hr
      cases hr
    · have hne := hframe f hf m ds hr
      have hfl := h.framesLive f hf m ds hr
      simp only [Config.push, setNode, Function.update_of_ne hne.1]
      refine ⟨hfl.1, ?_⟩
      intro d hd
      simp only [Function.update_of_ne (hne.2 d hd)]
      exact hfl.2 d hd
  · intro t ht d hd
    have hdn : d ≠ n := by
      intro heq
      subst heq
      have := any_eq_false.mp htasks t ht
      simp only [contains_eq_mem, decide_eq_true_eq] at this
      exact this hd
    simp only [Config.push, setNode, Function.update_of_ne hdn]
    exact h.tasksLive t ht d hd
  · refine h.acyclic.mono ?_
    rintro a b ⟨ha, hb⟩
    by_cases han : a = n
    · subst han
      simp only [Config.push, setNode, Function.update_self] at ha
      cases ha
    · simp only [Config.push, setNode, Function.update_of_ne han] at ha hb
      refine ⟨ha, hb.imp_right ?_⟩
      intro hp
      rcases mem_pendingDeps.mp hp with ⟨f, hf, ds, hpend, hd⟩
      rcases mem_append.mp hf with hf | hf
      · rw [Frame.pending_of_rewires (hpushed f hf)] at hpend
        cases hpend
      · exact mem_pendingDeps.mpr ⟨f, hf, ds, hpend, hd⟩

/-- A user operation, with the frame that continues the user code on the
    stack. -/
theorem perform_topoInv (h : c.TopoInv) (cb : Callback V) (o : UserOp V S) :
    (c.perform cb o).TopoInv := by
  have hlive : ∀ {ds : List NodeId}, ds.all c.isLive = true →
      ∀ d ∈ ds, (c.nodes d).live = true := by
    intro ds hds d hd
    exact (h.isLive_iff d).mp (all_eq_true.mp hds d hd)
  cases perform_cases c cb o with
  | inert hs => exact h.quiet (.of_plain hs.plain)
  | created spec _ hc => rw [hc]; exact newNode_topoInv h spec
  | dropped n ho _ => rw [ho]; exact dropNode_topoInv h n
  | rewired n req hn hreq hc =>
    rw [hc]
    refine h.quiet (.push c _ ?_)
    intro f hf
    rw [mem_singleton.mp hf]
    refine ⟨?_, rfl⟩
    intro n' ds hr
    cases hr
    exact ⟨(h.isLive_iff n).mp hn, hlive hreq⟩
  | deferred n kind hkind hc => rw [hc]; exact h.quiet (.deferBoundary c n kind _ (hlive hkind))

theorem stepUser_topoInv (env : Env V S) (h : c.TopoInv) (cb : Callback V)
    (i : Nat) : (c.stepUser env cb i).TopoInv := by
  unfold stepUser
  split
  · exact h
  · exact h.quiet (.of_plain ((Footprint.refl c).throw _))
  · refine perform_topoInv (h.quiet (.of_plain ?_)) cb _
    exact (Footprint.refl c).push (all_eq_true.mp rfl)

/-! ### The boundary drain -/

/-- The deps a request makes of live deps are live. -/
theorem projectDeps_live {current : List NodeId} {req : RewireRequest}
    (hcur : ∀ d ∈ current, (c.nodes d).live = true)
    (hreq : ∀ d ∈ req.handles, (c.nodes d).live = true) :
    ∀ d ∈ req.projectDeps current, (c.nodes d).live = true := by
  intro d hd
  cases req with
  | set deps f => exact hreq d hd
  | add dep f =>
    simp only [RewireRequest.projectDeps] at hd
    split_ifs at hd
    · exact hcur d hd
    · rcases mem_append.mp hd with hd | hd
      · exact hcur d hd
      · exact hreq d hd
  | remove dep f => exact hcur d (mem_filter.mp hd).1

theorem taskFrames_live (h : c.TopoInv) (t : BoundaryTask V)
    (ht : t ∈ c.boundary) (htarget : (c.nodes t.target).live = true) :
    ∀ f ∈ c.taskFrames t, (∀ n ds, f.rewires = some (n, ds) →
      (c.nodes n).live = true ∧ ∀ d ∈ ds, (c.nodes d).live = true) ∧ f.pending = none := by
  intro f hf
  have htask := h.tasksLive t ht
  cases taskFrames_forms hf with
  | inner req allow hreq =>
    refine ⟨fun n ds hr => ?_, rfl⟩
    cases hr
    refine ⟨htarget, projectDeps_live (h.depsLive t.target htarget) ?_⟩
    rcases hreq with hk | hk <;> rwa [hk] at htask
  | catches => exact TopoQuiet.frame_none rfl
  | up msgs towardDep => exact TopoQuiet.frame_none rfl
  | down msgs => exact TopoQuiet.frame_none rfl

theorem drainFinish_quiet (h : TopoQuiet c c') (escaped : Option Payload) :
    TopoQuiet c (c'.drainFinish escaped) := by
  unfold drainFinish
  cases escaped with
  | none => exact ⟨h.size, h.deps, h.live, h.tasks, h.frames⟩
  | some p => exact ⟨h.size, h.deps, h.live, h.tasks, h.frames⟩

theorem drainLoop_quiet (h : c.TopoInv) (blocked : Nat)
    (escaped : Option Payload) : TopoQuiet c (c.drainLoop blocked escaped) := by
  have hself : TopoQuiet c c := .of_plain (Footprint.refl c)
  unfold drainLoop
  split
  · exact drainFinish_quiet hself escaped
  · rename_i t ts hb
    have hts : ∀ t' ∈ ts, t' ∈ c.boundary := by
      intro t' ht'
      rw [hb]
      exact mem_cons_of_mem t ht'
    have ht : t ∈ c.boundary := by
      rw [hb]
      exact mem_cons_self
    have hback : ∀ t' ∈ ts ++ [t], t' ∈ c.boundary := by
      intro t' ht'
      rcases mem_append.mp ht' with ht' | ht'
      · exact hts t' ht'
      · rwa [mem_singleton.mp ht']
    have hloop : ∀ (b : Nat), ∀ f ∈ [(.drainLoop b escaped : Frame V)],
        (∀ n ds, f.rewires = some (n, ds) →
          (c.nodes n).live = true ∧ ∀ d ∈ ds, (c.nodes d).live = true) ∧ f.pending = none := by
      intro b f hf
      rw [mem_singleton.mp hf]
      exact TopoQuiet.frame_none rfl
    dsimp only
    split_ifs with hdrop hwait hexit
    · refine TopoQuiet.of_same rfl rfl (fun t' ht' => Or.inl (hts t' ht')) ?_
      intro f hf
      rcases mem_append.mp hf with hf | hf
      · exact Or.inr (hloop 0 f hf)
      · exact Or.inl hf
    · refine drainFinish_quiet ?_ escaped
      exact TopoQuiet.of_boundary_subset rfl rfl hback rfl
    · refine TopoQuiet.of_same rfl rfl (fun t' ht' => Or.inl (hback t' ht')) ?_
      intro f hf
      rcases mem_append.mp hf with hf | hf
      · exact Or.inr (hloop _ f hf)
      · exact Or.inl hf
    · have htarget : (c.nodes t.target).live = true := by
        rw [Bool.not_eq_true, Bool.or_eq_false_iff, Bool.not_eq_false', Bool.not_eq_false'] at hdrop
        exact hdrop.2
      refine TopoQuiet.of_same rfl rfl (fun t' ht' => Or.inl (hts t' ht')) ?_
      intro f hf
      rcases mem_append.mp hf with hf | hf
      · rcases mem_append.mp hf with hf | hf
        · exact Or.inr (taskFrames_live h t ht htarget f hf)
        · rw [mem_singleton.mp hf]
          exact Or.inr (TopoQuiet.frame_none rfl)
      · exact Or.inl hf

/-! ### Rewires -/

variable {deps : List NodeId} {d : NodeId}

theorem mem_dedupCores (h : d ∈ dedupCores deps) : d ∈ deps := by
  have hgen : ∀ (l out : List NodeId),
      d ∈ l.foldl (fun out d => if d ∈ out then out else out ++ [d]) out → d ∈ out ∨ d ∈ l := by
    intro l
    induction l with
    | nil => intro out hd; exact Or.inl hd
    | cons x xs ih =>
      intro out hd
      rw [foldl_cons] at hd
      rcases ih _ hd with hd | hd
      · split_ifs at hd
        · exact Or.inl hd
        · rcases mem_append.mp hd with hd | hd
          · exact Or.inl hd
          · rw [mem_singleton.mp hd]
            exact Or.inr mem_cons_self
      · exact Or.inr (mem_cons_of_mem x hd)
  exact (hgen deps [] h).resolve_left not_mem_nil

theorem externalRewire_quiet (h : c.TopoInv) (n : NodeId) (req : RewireRequest)
    (hn : (c.nodes n).live = true) (hreq : ∀ d ∈ req.handles, (c.nodes d).live = true) :
    TopoQuiet c (c.externalRewire n req) := by
  unfold externalRewire
  split
  · exact .deferBoundary c _ _ _ hreq
  · refine .push c _ ?_
    intro f hf
    rw [mem_singleton.mp hf]
    refine ⟨?_, rfl⟩
    intro m ds hr
    cases hr
    exact ⟨hn, projectDeps_live (h.depsLive n hn) hreq⟩

variable {n : NodeId} {allow : Bool}

/-- What the checks of a rewire establish about its added deps. -/
theorem not_reachable_of_accepted (h : c.rewireReject n deps allow = none) (hd : d ∈ deps)
    (hnew : d ∉ (c.nodes n).deps) : c.reachableUpstream d n = false := by
  unfold rewireReject at h
  dsimp only at h
  split_ifs at h
  rw [List.findSome?_eq_none_iff] at h
  have := h d (mem_filter.mpr ⟨hd, by simpa using hnew⟩)
  by_contra hreach
  rw [Bool.not_eq_false] at hreach
  rw [if_pos hreach] at this
  cases this

/-- A path along the edges is a path the cycle check follows once the pending
    deps are counted. -/
theorem TopoInv.upstream_of_path (h : c.TopoInv)
    (ha : (c.nodes a).live = true) (hpath : Relation.ReflTransGen c.edge a b) :
    c.withPending.UpstreamOf a b := by
  refine ⟨(h.isLive_iff a).mpr ha, ?_⟩
  induction hpath with
  | refl => exact Relation.ReflTransGen.refl
  | tail _ hlast ih =>
    refine ih.tail ⟨mem_append.mpr hlast.2, ?_⟩
    exact (h.isLive_iff _).mpr (h.edge_live hlast)

/-- Without a pending rewire there is nothing to count. -/
theorem withPending_upstream_iff (hnone : ∀ f ∈ c.stack, f.pending = none)
    (a b : NodeId) : c.withPending.UpstreamOf a b ↔ c.UpstreamOf a b := by
  have hnil : ∀ n, pendingDeps c.stack n = [] := by
    intro n
    rw [eq_nil_iff_forall_not_mem]
    intro d hd
    rcases mem_pendingDeps.mp hd with ⟨f, hf, ds, hp, _⟩
    rw [hnone f hf] at hp
    cases hp
  have hdeps : (fun n => (c.withPending.nodes n).deps) = fun n => (c.nodes n).deps := by
    funext n
    simp only [withPending, hnil, append_nil]
  unfold UpstreamOf
  rw [hdeps]
  rfl

variable {newDeps : List NodeId} {fn : FnId} {rest : List (Frame V)}

/-- An accepted rewire adds edges out of its node whose targets do not reach
    it, the pending deps counted. -/
theorem rewireInner_acyclic (h : c.TopoInv)
    (hs : c.stack = .rewireInner n newDeps fn allow :: rest) (hmode : c.mode = .running)
    (hguard : c.RewiresChecked) (hacc : c.AcceptsRewire n newDeps allow) :
    Reachability.Acyclic fun a b => c.edge a b ∨
      (a = n ∧ (b ∈ dedupCores newDeps ∧ b ∉ (c.nodes n).deps)) := by
  refine Reachability.acyclic_insert h.acyclic ?_
  rintro d ⟨hd, hnew⟩ hpath
  have hfl := h.framesLive _ (by rw [hs]; exact mem_cons_self) n newDeps rfl
  have hdlive : (c.nodes d).live = true := hfl.2 d (mem_dedupCores hd)
  have hup := h.upstream_of_path hdlive hpath
  by_cases hp : ∃ f ∈ c.stack, f.pending.isSome = true
  · -- Another rewire is under way: this is the condition.
    unfold RewiresChecked at hguard
    rw [hmode, hs] at hguard
    dsimp only at hguard
    rw [← hs] at hguard
    have hno := hguard hp hacc d hd hnew
    rw [(reachableUpstream_iff _ d n).mpr hup] at hno
    cases hno
  · -- No other rewire is under way: the check of the code is exact.
    have hnone : ∀ f ∈ c.stack, f.pending = none := by
      intro f hf
      by_contra hne
      exact hp ⟨f, hf, Option.isSome_iff_ne_none.mpr hne⟩
    have hno := not_reachable_of_accepted hacc.2 hd hnew
    rw [(reachableUpstream_iff c d n).mpr ((withPending_upstream_iff hnone d n).mp hup)] at hno
    cases hno

theorem rewireReject_popTo (c : Config V S) (rest : List (Frame V)) (n : NodeId)
    (deps : List NodeId) (allow : Bool) :
    (c.popTo rest).rewireReject n deps allow = c.rewireReject n deps allow := by
  have heq : ∀ d, (c.popTo rest).reachableUpstream d n = c.reachableUpstream d n := by
    intro d
    rw [Bool.eq_iff_iff, reachableUpstream_iff, reachableUpstream_iff]
    rfl
  unfold rewireReject
  simp only [heq]
  rfl

theorem rewireInner_topoInv (h : c.TopoInv)
    (hs : c.stack = .rewireInner n newDeps fn allow :: rest) (hmode : c.mode = .running)
    (hguard : c.RewiresChecked) : ((c.popTo rest).rewireInner n newDeps fn allow).TopoInv := by
  have hfl := h.framesLive _ (by rw [hs]; exact mem_cons_self) n newDeps rfl
  have hdeps : ∀ d ∈ dedupCores newDeps, (c.nodes d).live = true :=
    fun d hd => hfl.2 d (mem_dedupCores hd)
  unfold rewireInner
  dsimp only
  split
  · exact h.quiet (.of_pop hs (.deferBoundary _ _ _ _ hdeps))
  · rename_i hbatch
    split
    · exact h.quiet (.of_pop hs (.of_plain ((Footprint.refl _).panic _)))
    · rename_i hreject
      rw [rewireReject_popTo] at hreject
      have hacyc := rewireInner_acyclic h hs hmode hguard ⟨hbatch, hreject⟩
      -- Whether or not this starts a wave, the stack gains the pending rewire.
      have hkey : ∀ c' : Config V S, c'.size = c.size → c'.nodes = c.nodes →
          c'.boundary = c.boundary →
          (∀ f ∈ c'.stack, f ∈ rest ∨ f = .rewireApply n (dedupCores newDeps) fn ∨
            f.rewires = none) → c'.TopoInv := by
        intro c' hsz hn hb hst
        have hrest : ∀ f ∈ rest, f ∈ c.stack := by
          intro f hf
          rw [hs]
          exact mem_cons_of_mem _ hf
        refine ⟨?_, ?_, ?_, ?_, ?_⟩
        · rw [hsz, hn]
          exact h.fresh
        · rw [hn]
          exact h.depsLive
        · intro f hf m ds hr
          rw [hn]
          rcases hst f hf with hf | rfl | hf
          · exact h.framesLive f (hrest f hf) m ds hr
          · cases hr
            exact ⟨hfl.1, hdeps⟩
          · rw [hf] at hr
            cases hr
        · rw [hn, hb]
          exact h.tasksLive
        · refine hacyc.mono ?_
          rintro a b ⟨ha, hb⟩
          rw [hn] at ha hb
          rcases hb with hb | hb
          · exact Or.inl ⟨ha, Or.inl hb⟩
          · rcases mem_pendingDeps.mp hb with ⟨f, hf, ds, hp, hd⟩
            rcases hst f hf with hf | rfl | hf
            · exact Or.inl ⟨ha, Or.inr (mem_pendingDeps.mpr ⟨f, hrest f hf, ds, hp, hd⟩)⟩
            · cases hp
              by_cases hmem : b ∈ (c.nodes n).deps
              · exact Or.inl ⟨ha, Or.inl hmem⟩
              · exact Or.inr ⟨rfl, hd, hmem⟩
            · rw [Frame.pending_of_rewires hf] at hp
              cases hp
      unfold withWaveOwner
      split_ifs
      · refine hkey _ rfl rfl rfl ?_
        intro f hf
        rcases mem_cons.mp hf with rfl | hf
        · exact Or.inr (Or.inl rfl)
        · exact Or.inl hf
      · refine hkey _ rfl rfl rfl ?_
        intro f hf
        rcases mem_cons.mp hf with rfl | hf
        · exact Or.inr (Or.inl rfl)
        · rcases mem_cons.mp hf with rfl | hf
          · exact Or.inr (Or.inr rfl)
          · exact Or.inl hf

variable {f : Frame V}

/-- The stages between the check and the assignment carry the pending rewire
    on. -/
theorem rewireStage_quiet {p : NodeId × List NodeId} (h : c.TopoInv) (hs : c.stack = f :: rest)
    (hp : f.pending = some p) (hsz : c'.size = c.size)
    (hdeps : ∀ n, (c'.nodes n).deps = (c.nodes n).deps)
    (hlive : ∀ n, (c'.nodes n).live = (c.nodes n).live) (hb : c'.boundary = c.boundary)
    (hst : ∀ g ∈ c'.stack, g ∈ rest ∨ g.rewires = none ∨
      (g.pending = some p ∧ g.rewires = some p)) : TopoQuiet c c' where
  size := hsz
  deps := hdeps
  live := hlive
  tasks := fun t ht => Or.inl (by rwa [hb] at ht)
  frames := by
    intro g hg
    rcases hst g hg with hold | hnone | ⟨hpend, hrew⟩
    · left
      rw [hs]
      exact mem_cons_of_mem f hold
    · have := TopoQuiet.frame_none (c := c) hnone
      exact Or.inr ⟨this.1, Or.inl this.2⟩
    · have hmem : f ∈ c.stack := by
        rw [hs]
        exact mem_cons_self
      refine Or.inr ⟨?_, Or.inr ⟨f, hmem, by rw [hp, hpend]⟩⟩
      intro n ds hr
      rw [hrew, ← Frame.rewires_of_pending hp] at hr
      exact h.framesLive f hmem n ds hr

theorem rewireApply_topoInv (h : c.TopoInv) (hs : c.stack = .rewireApply n newDeps fn :: rest) :
    ((c.popTo rest).rewireApply n newDeps fn).TopoInv := by
  unfold rewireApply
  dsimp only
  split_ifs
  · exact h.quiet (.of_pop hs (.of_plain ((Footprint.refl _).setNode rfl)))
  · have hplain : Plain (c.popTo rest) ((c.popTo rest).setNode n
        { swapFnPreservingPool ((c.popTo rest).nodes n) fn with
          wave := { (swapFnPreservingPool ((c.popTo rest).nodes n) fn).wave with
            inDepMutation := true
            rewireRunPending := false } }) := (Footprint.refl _).setNode rfl
    refine h.quiet (rewireStage_quiet h hs rfl rfl hplain.deps hplain.live rfl ?_)
    intro g hg
    rcases mem_cons.mp hg with rfl | hg
    · exact Or.inr (Or.inr ⟨rfl, rfl⟩)
    · rcases mem_cons.mp hg with rfl | hg
      · exact Or.inr (Or.inl rfl)
      · exact Or.inl hg

variable {oldDeps : List NodeId} {act dirty : Bool}

theorem rewireRemove_topoInv (h : c.TopoInv) {removed : List Nat}
    (hs : c.stack = .rewireRemove n oldDeps newDeps act removed dirty :: rest) :
    ((c.popTo rest).rewireRemove n oldDeps newDeps act removed dirty).TopoInv := by
  cases removed with
  | nil =>
    refine h.quiet (rewireStage_quiet h hs rfl rfl (fun _ => rfl) (fun _ => rfl) rfl ?_)
    intro g hg
    rcases mem_cons.mp hg with rfl | hg
    · exact Or.inr (Or.inr ⟨rfl, rfl⟩)
    · exact Or.inl hg
  | cons i removed =>
    have hplain : Plain (c.popTo rest) ((c.popTo rest).setNode n
        { (c.popTo rest).nodes n with
          dep := if ((c.popTo rest).nodes n).dep.dirty.getD i false then
              { ((c.popTo rest).nodes n).dep with
                pending := ((c.popTo rest).nodes n).dep.pending - 1 }
            else ((c.popTo rest).nodes n).dep
          unsubs := ((c.popTo rest).nodes n).unsubs.set i none }) :=
      (Footprint.refl _).setNode rfl
    refine h.quiet (rewireStage_quiet h hs rfl rfl hplain.deps hplain.live rfl ?_)
    intro g hg
    rcases mem_append.mp hg with hg | hg
    · rcases mem_append.mp hg with hg | hg
      · split at hg
        · rw [mem_singleton.mp hg]
          exact Or.inr (Or.inl rfl)
        · exact absurd hg not_mem_nil
      · rw [mem_singleton.mp hg]
        exact Or.inr (Or.inr ⟨rfl, rfl⟩)
    · exact Or.inl hg

/-- The assignment turns pending deps into deps and drops the old ones. -/
theorem rewireAssign_topoInv (h : c.TopoInv)
    (hs : c.stack = .rewireAssign n oldDeps newDeps act dirty :: rest) :
    ((c.popTo rest).rewireAssign n oldDeps newDeps act dirty).TopoInv := by
  have hmem : (.rewireAssign n oldDeps newDeps act dirty : Frame V) ∈ c.stack := by
    rw [hs]
    exact mem_cons_self
  have hfl := h.framesLive _ hmem n newDeps rfl
  have hrest : ∀ f ∈ rest, f ∈ c.stack := by
    intro f hf
    rw [hs]
    exact mem_cons_of_mem _ hf
  have hframes : ∀ f ∈ ((c.popTo rest).rewireAssign n oldDeps newDeps act dirty).stack,
      f ∈ rest ∨ f.rewires = none := by
    intro f hf
    rcases mem_append.mp hf with hf | hf
    · right
      rcases mem_append.mp hf with hf | hf
      · split at hf
        · rcases mem_map.mp hf with ⟨p, _, rfl⟩
          rfl
        · exact absurd hf not_mem_nil
      · rcases mem_cons.mp hf with rfl | hf
        · rfl
        · rw [mem_singleton.mp hf]
          rfl
    · exact Or.inl hf
  have hlive : ∀ m, (((c.popTo rest).rewireAssign n oldDeps newDeps act dirty).nodes m).live =
      (c.nodes m).live := by
    intro m
    by_cases hm : m = n
    · subst hm
      simp only [rewireAssign, push, setNode, popTo, Function.update_self]
    · simp only [rewireAssign, push, setNode, popTo, Function.update_of_ne hm]
  have hdeps : ∀ m, (((c.popTo rest).rewireAssign n oldDeps newDeps act dirty).nodes m).deps =
      if m = n then newDeps else (c.nodes m).deps := by
    intro m
    by_cases hm : m = n
    · subst hm
      simp only [rewireAssign, push, setNode, popTo, Function.update_self, ↓reduceIte]
    · simp only [rewireAssign, push, setNode, popTo, Function.update_of_ne hm, hm, ↓reduceIte]
  refine ⟨?_, ?_, ?_, ?_, ?_⟩
  · intro m hm
    rw [hlive]
    exact h.fresh m hm
  · intro a ha b hb
    rw [hlive] at ha ⊢
    rw [hdeps] at hb
    split_ifs at hb
    · exact hfl.2 b hb
    · exact h.depsLive a ha b hb
  · intro f hf m ds hr
    simp only [hlive]
    rcases hframes f hf with hf | hf
    · exact h.framesLive f (hrest f hf) m ds hr
    · rw [hf] at hr
      cases hr
  · intro t ht d hd
    rw [hlive]
    exact h.tasksLive t ht d hd
  · refine h.acyclic.mono ?_
    rintro a b ⟨ha, hb⟩
    rw [hlive] at ha
    rw [hdeps] at hb
    rcases hb with hb | hb
    · split_ifs at hb with han
      · subst han
        exact ⟨ha, Or.inr (mem_pendingDeps.mpr ⟨_, hmem, newDeps, rfl, hb⟩)⟩
      · exact ⟨ha, Or.inl hb⟩
    · rcases mem_pendingDeps.mp hb with ⟨f, hf, ds, hp, hd⟩
      rcases hframes f hf with hf | hf
      · exact ⟨ha, Or.inr (mem_pendingDeps.mpr ⟨f, hrest f hf, ds, hp, hd⟩)⟩
      · rw [Frame.pending_of_rewires hf] at hp
        cases hp

/-! ### Runs -/

theorem TopoInv.popTo (h : c.TopoInv) (hs : c.stack = f :: rest) : (c.popTo rest).TopoInv :=
  h.quiet (.of_pop hs (.of_plain (Footprint.refl _)))

theorem enter_topoInv (env : Env V S) (h : c.TopoInv) (hs : c.stack = f :: rest)
    (hmode : c.mode = .running)
    (hguard : c.RewiresChecked) : ((c.popTo rest).enter env f).TopoInv := by
  have hpop := h.popTo hs
  cases hp : f.entersPlain with
  | true => exact hpop.quiet (.of_plain (enter_plain env _ f hp))
  | false =>
    cases f with
    | user cb i => exact stepUser_topoInv env hpop cb i
    | drainBoundary =>
      simp only [enter, drainBoundary]
      split_ifs
      · exact hpop
      · refine hpop.quiet (.of_same rfl rfl (fun t ht => Or.inl ht) ?_)
        intro g hg
        rcases mem_cons.mp hg with rfl | hg
        · exact Or.inr (TopoQuiet.frame_none rfl)
        · exact Or.inl hg
    | drainLoop blocked escaped => exact hpop.quiet (drainLoop_quiet hpop blocked escaped)
    | taskCatch escaped =>
      refine hpop.quiet (.push _ _ ?_)
      intro g hg
      rw [mem_singleton.mp hg]
      exact TopoQuiet.frame_none rfl
    | rollbackDone roots payload => exact hpop.quiet (.rollbackDone _ roots payload)
    | externalRewire n req =>
      have hfl := h.framesLive _ (by rw [hs]; exact mem_cons_self) n req.handles rfl
      exact hpop.quiet (externalRewire_quiet hpop n req hfl.1 hfl.2)
    | rewireInner n deps fn allow => exact rewireInner_topoInv h hs hmode hguard
    | rewireApply n deps fn => exact rewireApply_topoInv h hs
    | rewireRemove n old new act rem dirty => exact rewireRemove_topoInv h hs
    | rewireAssign n old new act dirty => exact rewireAssign_topoInv h hs
    | activateIfNeeded n =>
      have hfoot := Silent.activateIfNeeded_footprint (c.popTo rest) n
      rcases hfoot.stack with ⟨fs, hst, hfs⟩
      refine hpop.quiet ⟨hfoot.size, fun k => congrArg (·.1.1) (hfoot.nodes k),
        fun k => congrArg (·.1.2) (hfoot.nodes k), ?_, ?_⟩
      · intro t ht
        exact Or.inl (hfoot.boundary ▸ ht)
      · intro g hg
        rw [enter, hst] at hg
        rcases mem_append.mp hg with hg | hg
        · refine Or.inr ((TopoQuiet.frame_none ?_).imp_right Or.inl)
          cases g <;> first | rfl | cases hfs _ hg
        · exact Or.inl hg
    | subscribeDep n i d =>
      refine hpop.quiet (.of_same rfl rfl (fun t ht => Or.inl ht) ?_)
      intro g hg
      rcases mem_cons.mp hg with rfl | hg
      · exact Or.inr (TopoQuiet.frame_none rfl)
      · rcases mem_cons.mp hg with rfl | hg
        · exact Or.inr (TopoQuiet.frame_none rfl)
        · exact Or.inl hg
    | _ => cases hp

theorem unwind_topoInv (env : Env V S) (h : c.TopoInv) (p : Payload)
    (f : Frame V) : (c.unwind env p f).TopoInv := by
  rcases unwind_cases env c p f with hs | ⟨rfl, n, rfl⟩ | ⟨escaped, rfl⟩ | ⟨roots, hc⟩
  · exact h.quiet (.of_plain hs.plain)
  · -- The host abort also clears the queue.
    have hreset := h.quiet (.of_plain ((Silent.resetTouched c c.touchedNodes).plain))
    exact hreset.quiet (.of_same rfl rfl (fun t ht => absurd ht not_mem_nil)
      (fun f hf => Or.inl hf))
  · cases p with
    | hostAbort =>
      exact h.quiet (.of_boundary_subset rfl rfl (fun t ht => absurd ht not_mem_nil) rfl)
    | ordinary msg =>
      refine h.quiet (.of_same rfl rfl (fun t ht => Or.inl ht) ?_)
      intro g hg
      rcases mem_cons.mp hg with rfl | hg
      · exact Or.inr (TopoQuiet.frame_none rfl)
      · exact Or.inl hg
  · rw [hc]
    exact h.quiet (.closeUncommitted c roots)

/-- A step that meets the condition preserves the invariant. -/
theorem step_topoInv (hstep : Step c c') (hguard : c.RewiresChecked)
    (h : c.TopoInv) : c'.TopoInv := by
  rcases hstep with ⟨env, hstep⟩
  rcases step_cases hstep with ⟨f, rest, hs, ⟨hmode, rfl⟩ | ⟨p, hmode, rfl⟩⟩
  · exact enter_topoInv env h hs hmode hguard
  · exact unwind_topoInv env (h.popTo hs) p f

theorem initial_topoInv : (initial : Config V S).TopoInv where
  fresh := fun _ _ => rfl
  depsLive := fun _ ha => by cases ha
  framesLive := by
    intro f hf n ds hr
    rw [mem_singleton.mp hf] at hr
    cases hr
  tasksLive := fun _ ht => absurd ht not_mem_nil
  acyclic := by
    intro a ha
    have hno : ∀ x y, ¬ (initial : Config V S).edge x y := by
      rintro x y ⟨hx, _⟩
      cases hx
    rcases Relation.TransGen.head'_iff.mp ha with ⟨b, hb, _⟩
    exact hno a b hb

/-- In a run that meets the condition no live node is reachable from itself
    along dep lists, and the cycle check answers reachability exactly. -/
theorem deps_acyclic (c : Config V S) (hrun : GuardedReach RewiresChecked initial c) :
    (∀ n, (c.nodes n).live = true →
      ¬ Relation.TransGen (fun a b => b ∈ (c.nodes a).deps) n n) ∧
      ∀ d n, c.reachableUpstream d n = true ↔ c.UpstreamOf d n := by
  have hinv : c.TopoInv := by
    refine hrun.invariant ?_ initial_topoInv
    intro a b hstep hguard ha
    exact step_topoInv hstep hguard ha
  refine ⟨?_, reachableUpstream_iff c⟩
  -- Deps of live nodes are live, so a path along deps is a path along edges.
  have hlift : ∀ a b, (c.nodes a).live = true →
      Relation.TransGen (fun a b => b ∈ (c.nodes a).deps) a b →
      Relation.TransGen c.edge a b ∧ (c.nodes b).live = true := by
    intro a b ha hpath
    induction hpath with
    | single hab =>
      exact ⟨Relation.TransGen.single ⟨ha, Or.inl hab⟩, hinv.depsLive a ha _ hab⟩
    | tail _ hlast ih =>
      exact ⟨ih.1.tail ⟨ih.2, Or.inl hlast⟩, hinv.depsLive _ ih.2 _ hlast⟩
  intro n hn hcycle
  exact hinv.acyclic n (hlift n n hn hcycle).1

/-- Node 2 is rewired from node 1 to node 3, with no other rewire under way. -/
def plainRewire : Env Nat Unit := Env.scripted fun cb => match cb with
  | .main => [.newNode { initial := some 1 },
      .newNode { deps := [0], handle := some (0, .sync) },
      .newNode { deps := [1], handle := some (1, .sync) },
      .newNode { deps := [0], handle := some (2, .sync) },
      .subscribe 2 0, .rewire 2 (.set [3] 1)]
  | .fn _ _ => [.ctxDown [.data 5]]
  | _ => []

theorem deps_acyclic_plainRewire :
    ((initial.run plainRewire 200).nodes 2).deps = [3] ∧
      ¬ Relation.TransGen (fun a b => b ∈ ((initial.run plainRewire 200).nodes a).deps) 2 2 := by
  have hrun : GuardedReach RewiresChecked initial (initial.run plainRewire 200) :=
    guardedReach_run plainRewire 200 initial (by decide +kernel)
  exact ⟨by decide +kernel, (deps_acyclic _ hrun).1 2 (by decide +kernel)⟩

/-- As before, but node 1 leaves a cleanup hook that rewires node 3 to depend
    on node 2. -/
def rewireInHook : Env Nat Unit := Env.scripted fun cb => match cb with
  | .main => [.newNode { initial := some 1 },
      .newNode { deps := [0], handle := some (0, .sync) },
      .newNode { deps := [1], handle := some (1, .sync) },
      .newNode { deps := [0], handle := some (2, .sync) },
      .subscribe 2 0, .rewire 2 (.set [3] 1)]
  | .fn 0 _ => [.ctxOnDeactivation 0, .ctxDown [.data 5]]
  | .hook 0 => [.rewire 3 (.set [2] 2)]
  | _ => []

-- The hook runs while node 2 drops node 1, after its own check and before its
-- new dep is assigned, so the check of node 3 does not see the edge 2 → 3.
theorem rewire_closes_cycle :
    ((initial.run rewireInHook 400).nodes 2).live = true ∧
      Relation.TransGen (fun a b => b ∈ ((initial.run rewireInHook 400).nodes a).deps) 2 2 := by
  have h23 : 3 ∈ ((initial.run rewireInHook 400).nodes 2).deps := by decide +kernel
  have h32 : 2 ∈ ((initial.run rewireInHook 400).nodes 3).deps := by decide +kernel
  exact ⟨by decide +kernel, Relation.TransGen.tail (Relation.TransGen.single h23) h32⟩

end Config

end GraphRefly
