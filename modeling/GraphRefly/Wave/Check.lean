import GraphRefly.Wave.Source
import GraphRefly.Safety.Acyclic

/-!
# Checking a Pure Network

Whether a configuration is a pure network between operations can be read off
its slots. The check looks at one slot at a time; nodes are numbered in the
order of their construction, so a dep has the smaller number and the numbering
itself is the rank.

## Main definitions

* `Config.Idle`: A pure network between operations.
* `Config.SlotIdle`: One slot of an idle pure network.
* `Env.computing`: User code that plays scripts around computing fns.

## Theorems

* `Idle.of_slots`: A configuration whose slots pass the check is idle.
-/

namespace GraphRefly

variable {V S : Type}

/-- User code whose fns compute, whose sinks listen, and whose other callbacks
    play a script. -/
def Env.computing (compute : FnId → List (Option V) → Except String V)
    (script : Callback V → List (UserOp V S)) : Env V S where
  act cb _ i := match cb, i with
    | .fn f ctx, 0 => match compute f (ctx.deps.map (·.latest)) with
      | .ok v => .op (.ctxDown [.data v])
      | .error e => .panic (.ordinary e)
    | .fn _ _, _ => .ret
    | .sink _ _, _ => .ret
    | cb, i => match (script cb)[i]? with
      | some o => .op o
      | none => .ret
  catches _ _ := false

theorem Env.computing_computes (compute : FnId → List (Option V) → Except String V)
    (script : Callback V → List (UserOp V S)) : (Env.computing compute script).Computes
      compute := by
  refine ⟨?_, ?_, fun _ _ _ => rfl, fun _ _ _ => rfl, fun _ _ _ => rfl⟩
  · intro f ctx c v h
    unfold Env.computing
    simp only [h]
  · intro f ctx c e h
    unfold Env.computing
    simp only [h]

namespace Config

variable {compute : FnId → List (Option V) → Except String V} {c : Config V S}

/-- A pure network between operations: outside any wave and any batch, with
    nothing waiting for the boundary. -/
structure Idle (c : Config V S) (compute : FnId → List (Option V) → Except String V)
    (rank : NodeId → Nat) : Prop where
  resting : c.Resting compute rank
  wave : c.wave = none
  batch : c.batch = none
  boundary : c.boundary = []
  sources : ∀ n, (c.nodes n).live = true → (c.nodes n).deps = [] → c.owed n = false

/-- The options and flags of a slot between operations. -/
def SlotCalm (x : Node V S) : Prop :=
  x.config = {} ∧ (x.deps = [] → x.handle = none) ∧
    (x.deps ≠ [] → x.handle.any (·.2 = .sync) = true ∧ x.hasCalledFnOnce = true) ∧
    x.value.terminal = false ∧ (∀ b ∈ x.restoredHandshake, b = false) ∧
    x.wave.inDepMutation = false ∧ x.aux.pauseBuffer.isEmpty = true ∧ x.aux.pullDirtyOwed = false ∧
    x.wave.emittedDirtyThisWave = false ∧ x.wave.emittedTier3ThisWave = false ∧
    x.wave.insideRunWave = false ∧ x.aux.pausedDepWaveOccurred = false

/-- The dep bookkeeping of a slot between operations: nothing is pending, and
    the latest values are what the deps hold. -/
def SlotRead (c : Config V S) (x : Node V S) : Prop :=
  x.dep.batch.length = x.deps.length ∧ x.dep.dirty.length = x.deps.length ∧
    x.dep.prev.length = x.deps.length ∧ x.dep.pending = 0 ∧ (∀ b ∈ x.dep.dirty, b = false) ∧
    ∀ i < x.deps.length, x.dep.latest i = (x.deps[i]?).bind c.cache

/-- The edges of a slot, seen from both ends. -/
def SlotEdges (c : Config V S) (n : NodeId) : Prop :=
  (∀ i < (c.nodes n).deps.length, (c.nodes n).deps.getD i 0 < n ∧
    (c.nodes ((c.nodes n).deps.getD i 0)).live = true ∧
    (n, i) ∈ c.edges ((c.nodes n).deps.getD i 0)) ∧
    (∀ e ∈ c.edges n, (c.nodes e.1).live = true ∧ (c.nodes e.1).deps[e.2]? = some n) ∧
    (c.edges n).Nodup

/-- The slot holds what its fn computes from what its deps hold. -/
def slotFresh [DecidableEq V] (c : Config V S)
    (compute : FnId → List (Option V) → Except String V) (n : NodeId) : Bool :=
  match (c.nodes n).handle with
  | some (f, _) => match compute f ((c.nodes n).deps.map c.cache) with
    | .ok v => c.cache n = some v
    | .error _ => false
  | none => true

/-- One slot of an idle pure network. -/
def SlotIdle [DecidableEq V] (c : Config V S)
    (compute : FnId → List (Option V) → Except String V) (n : NodeId) : Prop :=
  (c.nodes n).live = true → SlotCalm (c.nodes n) ∧ c.SlotRead (c.nodes n) ∧ c.SlotEdges n ∧
    c.slotFresh compute n = true

instance [DecidableEq V] (c : Config V S)
    (compute : FnId → List (Option V) → Except String V) (n : NodeId) :
    Decidable (c.SlotIdle compute n) := by
  unfold SlotIdle SlotCalm SlotRead SlotEdges
  infer_instance

/-- What the check asks outside the slots. -/
def Outside (c : Config V S) : Prop :=
  c.mode = .running ∧ c.wave.isNone = true ∧ c.batch.isNone = true ∧ c.boundary.isEmpty = true ∧
    c.deferred.isEmpty = true ∧ c.depth = 0

instance (c : Config V S) : Decidable c.Outside := by
  unfold Outside
  infer_instance

theorem tame_of_slotCalm {x : Node V S} (h : SlotCalm x) : x.Tame := by
  rcases h with ⟨hconfig, hsource, hderived, hterm, hrestored, hsteady, hbuffer, hpull, _⟩
  refine ⟨hconfig, hsource, ?_, fun hd => (hderived hd).2, hterm, ?_, hsteady,
    List.isEmpty_iff.mp hbuffer, hpull⟩
  · intro hd
    have hsync := (hderived hd).1
    rcases hh : x.handle with _ | ⟨f, kind⟩
    · rw [hh] at hsync
      cases hsync
    · rw [hh] at hsync
      simp only [Option.any_some, decide_eq_true_eq] at hsync
      exact ⟨f, by rw [hsync]⟩
  · intro i
    rw [List.getD_eq_getElem?_getD]
    rcases hi : x.restoredHandshake[i]? with _ | b
    · rfl
    · exact hrestored b (List.mem_of_getElem? hi)

theorem fresh_of_slotFresh [DecidableEq V] {n : NodeId} (hcalm : SlotCalm (c.nodes n))
    (hd : (c.nodes n).deps ≠ []) (h : c.slotFresh compute n = true) : c.Fresh compute n := by
  rcases (tame_of_slotCalm hcalm).derived hd with ⟨f, hf⟩
  unfold slotFresh at h
  rw [hf] at h
  dsimp only at h
  split at h
  · rename_i v hv
    exact ⟨f, v, hf, hv, of_decide_eq_true h⟩
  · cases h

/-- A configuration whose slots pass the check is idle. -/
theorem Idle.of_slots [DecidableEq V] (hdead : ∀ n, c.size ≤ n → (c.nodes n).live = false)
    (hout : c.Outside) (h : ∀ n < c.size, c.SlotIdle compute n) : c.Idle compute id := by
  rcases hout with ⟨hmode, hwave, hbatch, hboundary, hdeferred, hdepth⟩
  have hlt : ∀ n, (c.nodes n).live = true → n < c.size := by
    intro n hn
    by_contra hge
    rw [hdead n (Nat.le_of_not_lt hge)] at hn
    cases hn
  have hcalm : ∀ n, (c.nodes n).live = true → SlotCalm (c.nodes n) :=
    fun n hn => (h n (hlt n hn) hn).1
  have hread : ∀ n, (c.nodes n).live = true → c.SlotRead (c.nodes n) :=
    fun n hn => (h n (hlt n hn) hn).2.1
  have hedges : ∀ n, (c.nodes n).live = true → c.SlotEdges n :=
    fun n hn => (h n (hlt n hn) hn).2.2.1
  have hclean : ∀ n, (c.nodes n).live = true → ∀ i, (c.nodes n).dep.dirtyAt i = false := by
    intro n hn i
    rw [DepState.dirtyAt, List.getD_eq_getElem?_getD]
    rcases hi : (c.nodes n).dep.dirty[i]? with _ | b
    · rfl
    · exact (hread n hn).2.2.2.2.1 b (List.mem_of_getElem? hi)
  have howed : ∀ n, (c.nodes n).live = true → c.owed n = false := by
    intro n hn
    unfold owed
    rw [(hcalm n hn).2.2.2.2.2.2.2.2.1]
    rfl
  have hat : ∀ m i d, c.DepAt m i d → d < m ∧ (c.nodes d).live = true ∧ (m, i) ∈ c.edges d := by
    intro m i d hd
    have hslot := (hedges m hd.1).1 i (List.getElem?_eq_some_iff.mp hd.2).1
    rw [List.getD_eq_getElem?_getD, hd.2] at hslot
    exact hslot
  have hwired : c.Wired id := by
    refine ⟨hlt, fun n hn => tame_of_slotCalm (hcalm n hn), fun m i d hd => (hat m i d hd).2.1,
      fun m i d hd => (hat m i d hd).1, ?_, fun d hd => (hedges d hd).2.2⟩
    intro d hd m i
    constructor
    · intro hmem
      exact (hedges d hd).2.1 (m, i) hmem
    · intro hd'
      exact (hat m i d hd').2.2
  have hledger : c.Ledger compute [] [] := by
    refine ⟨?_, ?_, ?_, ?_, ?_, ?_, ?_⟩
    · intro m hm
      rcases hread m hm with ⟨hb, hdirty, hprev, hpend, hno, _⟩
      refine ⟨hb, hdirty, hprev, ?_⟩
      have hzero : (c.nodes m).dep.dirty.count true = 0 := by
        rw [List.count_eq_zero]
        intro hmem
        cases hno true hmem
      rw [hpend, hzero]
      rfl
    · intro m i d hd
      rw [hclean m hd.1 i, howed d (hat m i d hd).2.1]
      simp
    · intro m i d hd hdirty
      rw [hclean m hd.1 i] at hdirty
      cases hdirty
    · intro m i d hd _
      have hi := (List.getElem?_eq_some_iff.mp hd.2).1
      rw [(hread m hd.1).2.2.2.2.2 i hi, hd.2]
      rfl
    · intro m hm hd _
      exact fresh_of_slotFresh (hcalm m hm) hd (h m (hlt m hm) hm).2.2.2
    · intro m hm _
      exact (hcalm m hm).2.2.2.2.2.2.2.2.2.2.1
    · intro m hm hf
      rw [(hcalm m hm).2.2.2.2.2.2.2.2.2.2.2] at hf
      cases hf
  refine ⟨⟨hmode, hwired, hledger, ?_, ?_, List.isEmpty_iff.mp hdeferred, hdepth⟩,
    Option.isNone_iff_eq_none.mp hwave, Option.isNone_iff_eq_none.mp hbatch,
    List.isEmpty_iff.mp hboundary, fun n hn _ => howed n hn⟩
  · intro n hn
    exact ⟨(hcalm n hn).2.2.2.2.2.2.2.2.2.1, (hcalm n hn).2.2.2.2.2.2.2.2.2.2.1⟩
  · intro m hr
    have ho := hr.2.2.1
    rw [howed m hr.1] at ho
    cases ho

theorem idle_run [DecidableEq V] (env : Env V S) (k : Nat)
    (hguard : ∀ j < k, (initial.run env j).RewiresChecked) (hout : (initial.run env k).Outside)
    (h : ∀ n < (initial.run env k).size, (initial.run env k).SlotIdle compute n) :
    (initial.run env k).Idle compute id := by
  have hreach := guardedReach_run env k initial hguard
  have hinv : (initial.run env k).TopoInv := by
    refine hreach.invariant ?_ initial_topoInv
    intro a b hstep hg ha
    exact step_topoInv hstep hg ha
  exact Idle.of_slots hinv.fresh hout h

end Config

end GraphRefly
