import GraphRefly.Core.Call
import Mathlib.Data.List.GetD

/-!
# Pure Networks

The graphs the plain wave law is about: state sources and derived nodes with
default options on the synchronous pool, all active, each derived fn emitting
one DATA computed from the latest values of its deps. Subscriber sinks only
listen.

A fn may fail instead of computing a value, which is how a panicking fn is
described; a network without failures is the special case.

## Main definitions

* `Env.Computes`: User code that computes and listens.
* `DepState.Sound`: The parallel arrays fit and the pending counter counts.
* `Node.shape`, `Node.Tame`: What a wave never changes, and what it has to be.
* `Config.edges`: The dep edges that leave a node.
* `Config.Wired`: Subscriber lists and dep lists describe the same acyclic graph.
* `Config.owed`, `Config.cache`, `Config.Fresh`: Announced, held, up to date.

## Theorems

* `DepState.Sound.pending_eq_zero`: Nothing is pending iff no dep is dirty.
* `latest_setBatch`, `latest_rolled`: What a fn reads of a dep.
-/

namespace GraphRefly

open List

variable {V S : Type}

/-- User code that computes and listens: a fn reads the latest value of every
    dep and emits one DATA, or panics; a sink only listens. -/
structure Env.Computes (env : Env V S) (compute : FnId → List (Option V) → Except String V) :
    Prop where
  emits : ∀ f ctx c v, compute f (ctx.deps.map (·.latest)) = .ok v →
    env.act (.fn f ctx) c 0 = .op (.ctxDown [.data v])
  fails : ∀ f ctx c e, compute f (ctx.deps.map (·.latest)) = .error e →
    env.act (.fn f ctx) c 0 = .panic (.ordinary e)
  returns : ∀ f ctx c, env.act (.fn f ctx) c 1 = .ret
  uncaught : ∀ f ctx c, env.catches (.fn f ctx) c = false
  listens : ∀ s m c, env.act (.sink s m) c 0 = .ret

/-! ### Dep bookkeeping -/

namespace DepState

/-- The arrays fit the dep list and the pending counter counts the dirty
    deps. -/
structure Sound (d : DepState V) (n : Nat) : Prop where
  batch : d.batch.length = n
  dirty : d.dirty.length = n
  prev : d.prev.length = n
  pending : d.pending = d.dirty.count true

/-- Dep `i` has announced a change it has not settled. -/
def dirtyAt (d : DepState V) (i : Nat) : Bool :=
  d.dirty.getD i false

variable {d : DepState V} {n i j : Nat}

theorem Sound.pending_eq_zero (h : d.Sound n) :
    d.pending = 0 ↔ ∀ i, d.dirtyAt i = false := by
  rw [h.pending]
  constructor
  · intro hz i
    have hnot : true ∉ d.dirty := count_eq_zero.mp (by exact_mod_cast hz)
    rw [dirtyAt, getD_eq_getElem?_getD]
    cases hi : d.dirty[i]? with
    | none => rfl
    | some b =>
      cases b with
      | false => rfl
      | true => exact absurd (mem_of_getElem? hi) hnot
  · intro hall
    have hnot : true ∉ d.dirty := by
      intro hmem
      rcases mem_iff_getElem?.mp hmem with ⟨i, hi⟩
      have := hall i
      rw [dirtyAt, getD_eq_getElem?_getD, hi] at this
      cases this
    exact_mod_cast count_eq_zero.mpr hnot

theorem Sound.pending_nonneg (h : d.Sound n) : 0 ≤ d.pending := by
  rw [h.pending]
  omega

theorem Sound.dirtyAt_lt (h : d.Sound n) (hi : d.dirtyAt i = true) : i < n := by
  by_contra hn
  rw [dirtyAt, getD_eq_default _ _ (by rw [h.dirty]; omega)] at hi
  cases hi

theorem dirtyAt_set (b : Bool) (hi : i < d.dirty.length) :
    ({ d with dirty := d.dirty.set i b } : DepState V).dirtyAt j =
      if j = i then b else d.dirtyAt j := by
  unfold dirtyAt
  rw [getD_eq_getElem?_getD, getD_eq_getElem?_getD, List.getElem?_set]
  split_ifs with h1 h2 h2
  · rfl
  · exact absurd h1.symm h2
  · exact absurd h2.symm h1
  · rfl

theorem count_set (l : List Bool) (b : Bool) (hi : i < l.length) (hb : l.getD i false = !b) :
    ((l.set i b).count true : Int) = l.count true + if b then 1 else -1 := by
  have hget : l[i] = !b := by
    rw [← hb, getD_eq_getElem _ _ hi]
  rw [List.count_set hi, hget]
  cases b with
  | true => simp
  | false =>
    have hpos : 0 < l.count true := by
      refine count_pos_iff.mpr ?_
      rw [show true = l[i] by rw [hget]; rfl]
      exact getElem_mem hi
    simp
    omega

/-- The bookkeeping once dep `i` announced a change. -/
def marked (d : DepState V) (i : Nat) : DepState V :=
  { d with
    dirty := d.dirty.set i true
    pending := d.pending + 1
    tier := d.tier.set i 2 }

theorem Sound.marked (h : d.Sound n) (hi : i < n) (hd : d.dirtyAt i = false) :
    (d.marked i).Sound n where
  batch := h.batch
  dirty := by
    unfold DepState.marked
    rw [length_set, h.dirty]
  prev := h.prev
  pending := by
    unfold DepState.marked
    rw [h.pending]
    exact (count_set d.dirty true (by rw [h.dirty]; exact hi) hd).symm

theorem Sound.dirtyAt_marked (h : d.Sound n) (hi : i < n) (j : Nat) :
    (d.marked i).dirtyAt j = if j = i then true else d.dirtyAt j :=
  dirtyAt_set (d := d) true (by rw [h.dirty]; exact hi)

theorem Sound.undirty (h : d.Sound n) : (d.undirty i).Sound n := by
  unfold DepState.undirty
  split_ifs with hd
  · have hi : i < n := h.dirtyAt_lt hd
    refine ⟨h.batch, by rw [length_set, h.dirty], h.prev, ?_⟩
    dsimp only
    rw [count_set d.dirty false (by rw [h.dirty]; exact hi) (by rw [hd]; rfl), h.pending]
    rfl
  · exact h

theorem dirtyAt_undirty (d : DepState V) (i j : Nat) :
    (d.undirty i).dirtyAt j = if j = i then false else d.dirtyAt j := by
  unfold DepState.undirty
  split_ifs with hd hji hji
  · rw [hji]
    by_cases hi : i < d.dirty.length
    · exact (dirtyAt_set (d := d) false hi).trans (if_pos rfl)
    · rw [getD_eq_default _ _ (by omega)] at hd
      cases hd
  · by_cases hi : i < d.dirty.length
    · exact (dirtyAt_set (d := d) false hi).trans (if_neg hji)
    · rw [getD_eq_default _ _ (by omega)] at hd
      cases hd
  · rw [hji]
    exact Bool.not_eq_true _ ▸ hd
  · rfl

theorem latest_undirty (d : DepState V) (i j : Nat) : (d.undirty i).latest j = d.latest j := by
  unfold DepState.undirty
  split_ifs <;> rfl

theorem recordInWave_sound (h : d.Sound n) (deliveryId k : Nat) (items : List (WaveData V)) :
    (d.recordInWave deliveryId k items).Sound n := by
  unfold DepState.recordInWave
  dsimp only
  split_ifs <;> exact ⟨h.batch, h.dirty, h.prev, h.pending⟩

theorem recordInWave_dirtyAt (d : DepState V) (deliveryId k : Nat) (items : List (WaveData V))
    (j : Nat) : (d.recordInWave deliveryId k items).dirtyAt j = d.dirtyAt j := by
  unfold DepState.recordInWave
  dsimp only
  split_ifs <;> rfl

theorem recordInWave_latest (d : DepState V) (deliveryId k : Nat) (items : List (WaveData V))
    (j : Nat) : (d.recordInWave deliveryId k items).latest j = d.latest j := by
  unfold DepState.recordInWave
  dsimp only
  split_ifs <;> rfl

/-- A new value of dep `i` is what a fn reads of it from now on. -/
theorem latest_setBatch (d : DepState V) (i j : Nat) (vs : List V) (v : V)
    (hi : i < d.batch.length) :
    ({ d with batch := d.batch.set i (some (vs ++ [v])) } : DepState V).latest j =
      if j = i then some v else d.latest j := by
  unfold DepState.latest
  dsimp only
  rw [getD_eq_getElem?_getD, List.getElem?_set]
  split_ifs with h1 h2 h2
  · simp
  · exact absurd h1.symm h2
  · exact absurd h2.symm h1
  · rw [← getD_eq_getElem?_getD]

/-- Rolling the wave forward changes nothing a fn reads. -/
theorem latest_rolled (h : d.Sound n) (j : Nat) : d.rolled.latest j = d.latest j := by
  have hbatch : (d.batch.map fun _ => (none : Option (List V))).getD j none = none := by
    rw [getD_eq_getElem?_getD, List.getElem?_map]
    cases d.batch[j]? <;> rfl
  unfold DepState.latest DepState.rolled
  dsimp only
  have hprev : d.prev.getD j none = d.prev[j]?.getD none := getD_eq_getElem?_getD
  rw [hbatch, Option.bind_none, Option.none_or, getD_eq_getElem?_getD, List.getElem?_mapIdx,
    hprev]
  by_cases hj : j < n
  · rw [List.getElem?_eq_getElem (by rw [h.prev]; exact hj), Option.map_some, Option.getD_some,
      Option.getD_some]
  · rw [List.getElem?_eq_none (by rw [h.prev]; omega), Option.map_none, Option.getD_none,
      getD_eq_default _ _ (by rw [h.batch]; omega)]
    rfl

theorem Sound.rolled (h : d.Sound n) : d.rolled.Sound n where
  batch := by
    unfold DepState.rolled
    rw [length_map, h.batch]
  dirty := h.dirty
  prev := by
    unfold DepState.rolled
    rw [length_mapIdx, h.prev]
  pending := h.pending

end DepState

/-! ### Slots -/

namespace Node

/-- What a wave never changes of a slot. -/
def shape (x : Node V S) : Node V S :=
  { x with
    value := { terminal := x.value.terminal }
    wave := { x.wave with
      emittedDirtyThisWave := false
      emittedTier3ThisWave := false
      insideRunWave := false
      batchDirtyOwed := false }
    dep := DepState.new 0
    aux := { x.aux with
      onInvalidate := []
      onDeactivation := []
      pausedDepWaveOccurred := false } }

/-- A state source or a derived node of a pure network: default options, the
    synchronous pool, active, and run once if it has a fn. -/
structure Tame (x : Node V S) : Prop where
  config : x.config = {}
  source : x.deps = [] → x.handle = none
  derived : x.deps ≠ [] → ∃ f, x.handle = some (f, .sync)
  called : x.deps ≠ [] → x.hasCalledFnOnce = true
  running : x.value.terminal = false
  unrestored : ∀ i, x.restoredHandshake.getD i false = false
  steady : x.wave.inDepMutation = false
  buffer : x.aux.pauseBuffer = []
  pullDirty : x.aux.pullDirtyOwed = false

variable {x y : Node V S}

theorem pauseLockset_of_awake (h : x.isPaused = false) : x.aux.pauseLockset = [] := by
  unfold Node.isPaused at h
  simpa using h

theorem Tame.of_shape (h : x.Tame) (hs : y.shape = x.shape) : y.Tame := by
  have hdeps : y.deps = x.deps := (congrArg Node.deps hs :)
  have hhandle : y.handle = x.handle := (congrArg Node.handle hs :)
  have hcalled : y.hasCalledFnOnce = x.hasCalledFnOnce := (congrArg Node.hasCalledFnOnce hs :)
  have hrest : y.restoredHandshake = x.restoredHandshake := (congrArg Node.restoredHandshake hs :)
  refine ⟨(congrArg Node.config hs).trans h.config, ?_, ?_, ?_,
    (congrArg (·.value.terminal) hs).trans h.running, ?_,
    (congrArg (·.wave.inDepMutation) hs).trans h.steady,
    (congrArg (·.aux.pauseBuffer) hs).trans h.buffer,
    (congrArg (·.aux.pullDirtyOwed) hs).trans h.pullDirty⟩
  · rw [hdeps, hhandle]
    exact h.source
  · rw [hdeps, hhandle]
    exact h.derived
  · rw [hdeps, hcalled]
    exact h.called
  · rw [hrest]
    exact h.unrestored

theorem Tame.pullQuiet (h : x.Tame) : x.pullQuiet = false := by
  rw [Node.pullQuiet, h.config]
  rfl

theorem Tame.isAsync (h : x.Tame) : x.isAsync = false := by
  rw [Node.isAsync]
  by_cases hd : x.deps = []
  · rw [h.source hd]
  · rcases h.derived hd with ⟨f, hf⟩
    rw [hf]

theorem Tame.shouldBufferOnPause (h : x.Tame) : x.shouldBufferOnPause = false := by
  have hmode : x.config.pausable = .true := by rw [h.config]
  rw [Node.shouldBufferOnPause, hmode]
  simp only [h.pullQuiet, h.isAsync, Bool.false_and, Bool.and_false, Bool.or_self]

theorem Tame.canFireDemand (h : x.Tame) : x.canFireDemand = false := by
  rw [Node.canFireDemand, h.config]
  rfl

end Node

/-! ### Configurations -/

namespace Config

section

variable (c : Config V S)

/-- The node announced a change it has not emitted yet. -/
def owed (n : NodeId) : Bool :=
  (c.nodes n).wave.emittedDirtyThisWave && !(c.nodes n).wave.emittedTier3ThisWave

/-- The value the node holds. -/
def cache (c : Config V S) (n : NodeId) : Option V :=
  (c.nodes n).value.cache

/-- The node is live and its dep at position `i` is `d`. -/
def DepAt (m : NodeId) (i : Nat) (d : NodeId) : Prop :=
  (c.nodes m).live = true ∧ (c.nodes m).deps[i]? = some d

/-- The dep edges a list of subscriptions delivers on. -/
def edgesOf (subs : List SubscriberEntry) : List (NodeId × Nat) :=
  subs.filterMap fun e => match e.sink with
    | .external _ => none
    | .dep m box => (c.boxes box).map fun i => (m, i)

/-- The dep edges that leave a node. -/
def edges (d : NodeId) : List (NodeId × Nat) :=
  c.edgesOf (c.nodes d).aux.subscribers

/-- The derived node holds what its fn computes from the values its deps
    hold. -/
def Fresh (compute : FnId → List (Option V) → Except String V) (m : NodeId) :
    Prop :=
  ∃ f v, (c.nodes m).handle = some (f, .sync) ∧
    compute f ((c.nodes m).deps.map c.cache) = .ok v ∧ c.cache m = some v

end

/-- The live nodes are the nodes of a pure network, and subscriber lists and
    dep lists describe the same graph, which the rank shows to be acyclic. -/
structure Wired (c : Config V S) (rank : NodeId → Nat) : Prop where
  bounded : ∀ n, (c.nodes n).live = true → n < c.size
  tame : ∀ n, (c.nodes n).live = true → (c.nodes n).Tame
  depsLive : ∀ m i d, c.DepAt m i d → (c.nodes d).live = true
  descends : ∀ m i d, c.DepAt m i d → rank d < rank m
  edge : ∀ d, (c.nodes d).live = true → ∀ m i, (m, i) ∈ c.edges d ↔ c.DepAt m i d
  edgesNodup : ∀ d, (c.nodes d).live = true → (c.edges d).Nodup

/-- What a wave never changes outside the slots. -/
def rim (c : Config V S) : Config V S :=
  { c with
    nodes := fun _ => {}
    wave := none
    depth := 0
    nextDeliveryId := 0
    currentDeliveryId := 0
    deferred := []
    mode := .running
    stack := []
    log := [] }

/-- The same graph, seen at two moments of a wave. -/
structure SameGraph (c c' : Config V S) : Prop where
  rim : c'.rim = c.rim
  shape : ∀ n, (c'.nodes n).shape = (c.nodes n).shape
  wave : c'.wave.isSome = c.wave.isSome

namespace SameGraph

variable {c c' c'' : Config V S}

theorem refl (c : Config V S) : SameGraph c c :=
  ⟨rfl, fun _ => rfl, rfl⟩

theorem trans (h : SameGraph c c') (h' : SameGraph c' c'') : SameGraph c c'' :=
  ⟨h'.rim.trans h.rim, fun n => (h'.shape n).trans (h.shape n), h'.wave.trans h.wave⟩

theorem size (h : SameGraph c c') : c'.size = c.size :=
  (congrArg Config.size h.rim :)

theorem boxes (h : SameGraph c c') : c'.boxes = c.boxes :=
  (congrArg Config.boxes h.rim :)

theorem batch (h : SameGraph c c') : c'.batch = c.batch :=
  (congrArg Config.batch h.rim :)

theorem boundary (h : SameGraph c c') : c'.boundary = c.boundary :=
  (congrArg Config.boundary h.rim :)

theorem live (h : SameGraph c c') (n : NodeId) : (c'.nodes n).live = (c.nodes n).live :=
  (congrArg Node.live (h.shape n) :)

theorem deps (h : SameGraph c c') (n : NodeId) : (c'.nodes n).deps = (c.nodes n).deps :=
  (congrArg Node.deps (h.shape n) :)

theorem handle (h : SameGraph c c') (n : NodeId) : (c'.nodes n).handle = (c.nodes n).handle :=
  (congrArg Node.handle (h.shape n) :)

theorem subscribers (h : SameGraph c c') (n : NodeId) :
    (c'.nodes n).aux.subscribers = (c.nodes n).aux.subscribers :=
  (congrArg (·.aux.subscribers) (h.shape n) :)

theorem pauseLockset (h : SameGraph c c') (n : NodeId) :
    (c'.nodes n).aux.pauseLockset = (c.nodes n).aux.pauseLockset :=
  (congrArg (·.aux.pauseLockset) (h.shape n) :)

theorem edgesOf (h : SameGraph c c') (subs : List SubscriberEntry) :
    c'.edgesOf subs = c.edgesOf subs := by
  unfold Config.edgesOf
  rw [h.boxes]

theorem edges (h : SameGraph c c') (n : NodeId) : c'.edges n = c.edges n := by
  unfold Config.edges
  rw [h.edgesOf, h.subscribers]

theorem depAt (h : SameGraph c c') (m : NodeId) (i : Nat) (d : NodeId) :
    c'.DepAt m i d ↔ c.DepAt m i d := by
  unfold DepAt
  rw [h.live, h.deps]

theorem wired {rank : NodeId → Nat} (h : SameGraph c c') (hw : c.Wired rank) : c'.Wired rank := by
  refine ⟨?_, ?_, ?_, ?_, ?_, ?_⟩
  · intro n hn
    rw [h.live] at hn
    rw [h.size]
    exact hw.bounded n hn
  · intro n hn
    rw [h.live] at hn
    exact (hw.tame n hn).of_shape (h.shape n)
  · intro m i d hd
    rw [h.live]
    exact hw.depsLive m i d ((h.depAt m i d).mp hd)
  · intro m i d hd
    exact hw.descends m i d ((h.depAt m i d).mp hd)
  · intro d hd m i
    rw [h.live] at hd
    rw [h.edges, h.depAt]
    exact hw.edge d hd m i
  · intro d hd
    rw [h.live] at hd
    rw [h.edges]
    exact hw.edgesNodup d hd

end SameGraph

end Config

end GraphRefly
