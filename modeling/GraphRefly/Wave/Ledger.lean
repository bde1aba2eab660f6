import GraphRefly.Wave.Network
import Mathlib.Data.Finset.Card

/-!
# The Ledger of a Wave

What relates the nodes of a pure network while a wave runs through it. A node
that announced a change and has not emitted it is owed; the dirty flag of a dep
edge mirrors whether the dep is owed, up to the edges an emission has not
reached yet. A node that is not owed is up to date with its deps.

The lemmas below say how the three things a wave does to a single node keep
the ledger: it announces a change, it emits a value, it is told on a dep edge.

## Main definitions

* `Ledger`: Dirty flags, latest values and caches agree with what is owed.
* `Ready`, `Held`, `Queue`: The nodes that can run, and where they are kept.

## Theorems

* `Ledger.announce`: A node announces a change.
* `Ledger.emit`: A node emits a value.
* `Ledger.receive`: A node is told on one dep edge.
* `Ledger.all_settled`: Once nothing can run, nothing is owed.
-/

namespace GraphRefly

variable {V S : Type}

namespace Config

/-- Dirty flags, latest values and caches agree with what is owed. The edges in
    `unheard` have not been told DIRTY yet, those in `late` not the new value. -/
structure Ledger (c : Config V S) (compute : FnId → List (Option V) → Except String V)
    (unheard late : List (NodeId × Nat)) : Prop where
  sound : ∀ m, (c.nodes m).live = true → (c.nodes m).dep.Sound (c.nodes m).deps.length
  told : ∀ m i d, c.DepAt m i d → ((c.nodes m).dep.dirtyAt i = true ↔
    (c.owed d = true ∧ (m, i) ∉ unheard) ∨ (m, i) ∈ late)
  heard : ∀ m i d, c.DepAt m i d → (c.nodes m).dep.dirtyAt i = true → c.owed m = true
  latest : ∀ m i d, c.DepAt m i d → (m, i) ∉ late → (c.nodes m).dep.latest i = c.cache d
  coherent : ∀ m, (c.nodes m).live = true → (c.nodes m).deps ≠ [] → c.owed m = false →
    c.Fresh compute m
  idle : ∀ m, (c.nodes m).live = true → c.owed m = true →
    (c.nodes m).wave.insideRunWave = false
  flagged : ∀ m, (c.nodes m).live = true → (c.nodes m).aux.pausedDepWaveOccurred = true →
    (c.nodes m).deps ≠ [] ∧ (c.nodes m).isPaused = true ∧ c.owed m = true

/-- The node is owed and every dep of it has settled. -/
def Ready (c : Config V S) (m : NodeId) : Prop :=
  (c.nodes m).live = true ∧ (c.nodes m).deps ≠ [] ∧ c.owed m = true ∧
    ∀ i, (c.nodes m).dep.dirtyAt i = false

/-- The node is paused and remembers that it skipped a wave. -/
def Held (c : Config V S) (m : NodeId) : Prop :=
  (c.nodes m).isPaused = true ∧ (c.nodes m).aux.pausedDepWaveOccurred = true

/-- Every node that can run is in the list, deferred, or held; nothing is there
    twice. -/
structure Queue (c : Config V S) (todo : List NodeId) : Prop where
  waiting : ∀ m, c.Ready m → m ∈ todo ∨ ⟨.run, m⟩ ∈ c.deferred ∨ c.Held m
  ready : ∀ m ∈ todo, c.Ready m
  runs : ∀ a ∈ c.deferred, a.kind = .run ∧ c.Ready a.target
  nodup : (todo ++ c.deferred.map (·.target)).Nodup

variable {c c' : Config V S} {compute : FnId → List (Option V) → Except String V}
  {rank : NodeId → Nat} {unheard late : List (NodeId × Nat)}

variable {m : NodeId}

/-- Being up to date depends on the graph and the values involved. -/
theorem Fresh.congr (h : c.Fresh compute m) (hg : SameGraph c c')
    (hm : c'.cache m = c.cache m) (hd : ∀ d ∈ (c.nodes m).deps, c'.cache d = c.cache d) :
    c'.Fresh compute m := by
  rcases h with ⟨f, v, hf, hv, hc⟩
  refine ⟨f, v, by rw [hg.handle, hf], ?_, by rw [hm, hc]⟩
  rw [hg.deps, List.map_congr_left hd]
  exact hv

variable {i : Nat}

theorem Wired.irrefl (hw : c.Wired rank) : ¬ c.DepAt m i m := by
  intro h
  exact absurd (hw.descends m i m h) (Nat.lt_irrefl _)

variable {d : NodeId}

theorem Wired.mem_edges (hw : c.Wired rank) (h : c.DepAt m i d) : (m, i) ∈ c.edges d :=
  (hw.edge d (hw.depsLive m i d h) m i).mpr h

/-- An edge leaves one node only. -/
theorem DepAt.unique {d' : NodeId} (h : c.DepAt m i d) (h' : c.DepAt m i d') : d = d' :=
  Option.some.inj (h.2.symm.trans h'.2)

/-- The arrays of a node have an entry for each of its edges. -/
theorem DepAt.hasDepIndex (h : c.DepAt m i d)
    (hs : (c.nodes m).dep.dirty.length = (c.nodes m).deps.length) :
    (c.nodes m).hasDepIndex i = true := by
  rw [Node.hasDepIndex, hs, decide_eq_true_eq]
  exact (List.getElem?_eq_some_iff.mp h.2).1

theorem setNode_self (c : Config V S) (m : NodeId) (y : Node V S) :
    (c.setNode m y).nodes m = y :=
  Function.update_self _ _ _

variable {n : NodeId}

theorem setNode_of_ne (c : Config V S) (y : Node V S) (h : n ≠ m) :
    (c.setNode m y).nodes n = c.nodes n :=
  Function.update_of_ne h _ _

theorem SameGraph.isPaused (h : SameGraph c c') (n : NodeId) :
    (c'.nodes n).isPaused = (c.nodes n).isPaused := by
  unfold Node.isPaused
  rw [h.pauseLockset]

variable {y : Node V S}

/-- Replacing one slot of the same shape keeps the graph. -/
theorem SameGraph.setNode (hy : y.shape = (c.nodes m).shape) : SameGraph c (c.setNode m y) := by
  refine ⟨rfl, ?_, rfl⟩
  intro n
  by_cases hn : n = m
  · rw [hn, setNode_self, hy]
  · rw [setNode_of_ne c y hn]

theorem owed_setNode_of_ne (c : Config V S) (y : Node V S) (h : n ≠ m) :
    (c.setNode m y).owed n = c.owed n := by
  unfold owed
  rw [setNode_of_ne c y h]

theorem cache_setNode_of_ne (c : Config V S) (y : Node V S) (h : n ≠ m) :
    (c.setNode m y).cache n = c.cache n := by
  unfold cache
  rw [setNode_of_ne c y h]

/-! ### Announcing, receiving, emitting -/

/-- A node announces a change: its own edges have still to be told. -/
theorem Ledger.announce (hw : c.Wired rank) (h : c.Ledger compute unheard [])
    (hlive : (c.nodes m).live = true) (hy : y.shape = (c.nodes m).shape)
    (hdep : y.dep = (c.nodes m).dep) (haux : y.aux = (c.nodes m).aux)
      (hcache : y.value.cache = (c.nodes m).value.cache)
    (hin : y.wave.insideRunWave = false) (hbefore : c.owed m = false)
    (howed : (c.setNode m y).owed m = true) :
    (c.setNode m y).Ledger compute (c.edges m ++ unheard) [] := by
  have hg : SameGraph c (c.setNode m y) := .setNode hy
  have hdeps : ∀ n, ((c.setNode m y).nodes n).dep = (c.nodes n).dep := by
    intro n
    by_cases hn : n = m
    · rw [hn, setNode_self, hdep]
    · rw [setNode_of_ne c y hn]
  have hcaches : ∀ n, (c.setNode m y).cache n = c.cache n := by
    intro n
    by_cases hn : n = m
    · rw [hn, cache, setNode_self, hcache]
      rfl
    · rw [cache_setNode_of_ne c y hn]
  have hmono : ∀ n, c.owed n = true → (c.setNode m y).owed n = true := by
    intro n hn
    by_cases hnm : n = m
    · rw [hnm]
      exact howed
    · rw [owed_setNode_of_ne c y hnm, hn]
  refine ⟨?_, ?_, ?_, ?_, ?_, ?_, ?_⟩
  · intro n hn
    rw [hg.live] at hn
    rw [hdeps, hg.deps]
    exact h.sound n hn
  · intro a j d hd
    rw [hg.depAt] at hd
    rw [hdeps, h.told a j d hd]
    by_cases hdm : d = m
    · -- Nothing was owed, and the edge has still to be told.
      subst hdm
      have hmem := hw.mem_edges hd
      simp [hbefore, hmem]
    · have hmem : (a, j) ∉ c.edges m := by
        intro hmem
        exact hdm (hd.unique ((hw.edge m hlive a j).mp hmem))
      rw [owed_setNode_of_ne c y hdm]
      simp [hmem]
  · intro a j d hd hdirty
    rw [hg.depAt] at hd
    rw [hdeps] at hdirty
    exact hmono a (h.heard a j d hd hdirty)
  · intro a j d hd _
    rw [hg.depAt] at hd
    rw [hdeps, hcaches]
    exact h.latest a j d hd List.not_mem_nil
  · intro a hl hne ho
    rw [hg.live] at hl
    rw [hg.deps] at hne
    have ho' : c.owed a = false := by
      by_contra hcon
      rw [hmono a (Bool.not_eq_false _ ▸ hcon)] at ho
      cases ho
    exact (h.coherent a hl hne ho').congr hg (hcaches a) (fun d _ => hcaches d)
  · intro a hl ho
    by_cases ham : a = m
    · rw [ham, setNode_self]
      exact hin
    · rw [setNode_of_ne c y ham] at hl ⊢
      rw [owed_setNode_of_ne c y ham] at ho
      exact h.idle a hl ho
  · intro a hl hf
    rw [hg.live] at hl
    have hsame : ((c.setNode m y).nodes a).aux = (c.nodes a).aux := by
      by_cases ham : a = m
      · rw [ham, setNode_self, haux]
      · rw [setNode_of_ne c y ham]
    rw [hsame] at hf
    have hflag := h.flagged a hl hf
    rw [hg.deps, hg.isPaused]
    exact ⟨hflag.1, hflag.2.1, hmono a hflag.2.2⟩

/-- One dep edge of a node is brought up to date: its flag and the value read
    on it become what the ledger says. -/
theorem Ledger.receive (h : c.Ledger compute unheard late) {d₀ : NodeId}
    {U L : List (NodeId × Nat)} {b : Bool} {l : Option V}
    (hat : c.DepAt m i d₀) (hy : y.shape = (c.nodes m).shape)
    (hvalue : y.value.cache = (c.nodes m).value.cache) (hwave : y.wave = (c.nodes m).wave)
    (hsound : y.dep.Sound (c.nodes m).deps.length)
    (hdirty : ∀ j, y.dep.dirtyAt j = if j = i then b else (c.nodes m).dep.dirtyAt j)
    (hlatest : ∀ j, y.dep.latest j = if j = i then l else (c.nodes m).dep.latest j)
    (hb : b = true ↔ (c.owed d₀ = true ∧ (m, i) ∉ U) ∨ (m, i) ∈ L)
    (hl : (m, i) ∉ L → l = c.cache d₀) (howed : c.owed m = true)
    (hflag : y.aux.pausedDepWaveOccurred = true → (c.nodes m).isPaused = true)
    (hunheard : ∀ e, e ≠ (m, i) → (e ∈ U ↔ e ∈ unheard))
    (hlate : ∀ e, e ≠ (m, i) → (e ∈ L ↔ e ∈ late)) : (c.setNode m y).Ledger compute U L := by
  have hg : SameGraph c (c.setNode m y) := .setNode hy
  have howeds : ∀ n, (c.setNode m y).owed n = c.owed n := by
    intro n
    by_cases hn : n = m
    · rw [hn, owed, setNode_self, hwave]
      rfl
    · rw [owed_setNode_of_ne c y hn]
  have hcaches : ∀ n, (c.setNode m y).cache n = c.cache n := by
    intro n
    by_cases hn : n = m
    · rw [hn, cache, setNode_self, hvalue]
      rfl
    · rw [cache_setNode_of_ne c y hn]
  refine ⟨?_, ?_, ?_, ?_, ?_, ?_, ?_⟩
  · intro n hn
    rw [hg.live] at hn
    rw [hg.deps]
    by_cases hnm : n = m
    · rw [hnm, setNode_self]
      exact hsound
    · rw [setNode_of_ne c y hnm]
      exact h.sound n hn
  · intro a j d hd
    rw [hg.depAt] at hd
    rw [howeds]
    by_cases he : (a, j) = (m, i)
    · cases he
      rw [setNode_self, hdirty, if_pos rfl, hb, hd.unique hat]
    · rw [hunheard _ he, hlate _ he, ← h.told a j d hd]
      by_cases ham : a = m
      · subst ham
        rw [setNode_self, hdirty, if_neg (fun hji => he (by rw [hji]))]
      · rw [setNode_of_ne c y ham]
  · intro a j d hd hdirty'
    rw [hg.depAt] at hd
    rw [howeds]
    by_cases ham : a = m
    · rw [ham]
      exact howed
    · rw [setNode_of_ne c y ham] at hdirty'
      exact h.heard a j d hd hdirty'
  · intro a j d hd hnot
    rw [hg.depAt] at hd
    rw [hcaches]
    by_cases he : (a, j) = (m, i)
    · cases he
      rw [setNode_self, hlatest, if_pos rfl, hd.unique hat]
      exact hl hnot
    · rw [hlate _ he] at hnot
      rw [← h.latest a j d hd hnot]
      by_cases ham : a = m
      · subst ham
        rw [setNode_self, hlatest, if_neg (fun hji => he (by rw [hji]))]
      · rw [setNode_of_ne c y ham]
  · intro a hl hne ho
    rw [hg.live] at hl
    rw [hg.deps] at hne
    rw [howeds] at ho
    exact (h.coherent a hl hne ho).congr hg (hcaches a) (fun d _ => hcaches d)
  · intro a hl ho
    rw [hg.live] at hl
    rw [howeds] at ho
    have hidle := h.idle a hl ho
    by_cases ham : a = m
    · subst ham
      rw [setNode_self, hwave]
      exact hidle
    · rw [setNode_of_ne c y ham]
      exact hidle
  · intro a hl hf
    rw [hg.live] at hl
    rw [hg.deps, hg.isPaused, howeds]
    by_cases ham : a = m
    · subst ham
      rw [setNode_self] at hf
      refine ⟨?_, hflag hf, howed⟩
      intro hnil
      rw [DepAt, hnil] at hat
      cases hat.2
    · rw [setNode_of_ne c y ham] at hf
      exact h.flagged a hl hf

/-- An owed node whose deps have settled emits: it is up to date, and its edges
    have the new value still to come. -/
theorem Ledger.emit (hw : c.Wired rank) (h : c.Ledger compute [] [])
    (hlive : (c.nodes n).live = true) (hy : y.shape = (c.nodes n).shape)
    (hdep : y.dep = (c.nodes n).dep) (haux : y.aux.pausedDepWaveOccurred =
      (c.nodes n).aux.pausedDepWaveOccurred) (howed : c.owed n = true)
    (hawake : (c.nodes n).deps ≠ [] → (c.nodes n).isPaused = false)
    (hafter : (c.setNode n y).owed n = false) (hclean : ∀ i, (c.nodes n).dep.dirtyAt i = false)
    (hfresh : (c.nodes n).deps ≠ [] → ∃ f v, (c.nodes n).handle = some (f, .sync) ∧
      compute f ((c.nodes n).deps.map c.cache) = .ok v ∧ y.value.cache = some v) :
    (c.setNode n y).Ledger compute [] (c.edges n) := by
  have hg : SameGraph c (c.setNode n y) := .setNode hy
  have hdeps : ∀ m, ((c.setNode n y).nodes m).dep = (c.nodes m).dep := by
    intro m
    by_cases hm : m = n
    · rw [hm, setNode_self, hdep]
    · rw [setNode_of_ne c y hm]
  have hedge : ∀ a j d, c.DepAt a j d → ((a, j) ∈ c.edges n ↔ d = n) := by
    intro a j d hd
    rw [hw.edge n hlive]
    constructor
    · intro hn
      exact hd.unique hn
    · intro hn
      rw [← hn]
      exact hd
  have hfrom : ∀ a, ∀ d ∈ (c.nodes a).deps, (c.nodes a).live = true → ∃ j, c.DepAt a j d := by
    intro a d hd hl
    rcases List.mem_iff_getElem?.mp hd with ⟨j, hj⟩
    exact ⟨j, hl, hj⟩
  refine ⟨?_, ?_, ?_, ?_, ?_, ?_, ?_⟩
  · intro m hm
    rw [hg.live] at hm
    rw [hdeps, hg.deps]
    exact h.sound m hm
  · intro a j d hd
    rw [hg.depAt] at hd
    rw [hdeps, h.told a j d hd, hedge a j d hd]
    by_cases hdn : d = n
    · subst hdn
      simp [howed]
    · simp [hdn, owed_setNode_of_ne c y hdn]
  · intro a j d hd hdirty
    rw [hg.depAt] at hd
    rw [hdeps] at hdirty
    by_cases han : a = n
    · subst han
      rw [hclean j] at hdirty
      cases hdirty
    · rw [owed_setNode_of_ne c y han]
      exact h.heard a j d hd hdirty
  · intro a j d hd hlate
    rw [hg.depAt] at hd
    rw [hedge a j d hd] at hlate
    rw [hdeps, cache_setNode_of_ne c y hlate]
    exact h.latest a j d hd List.not_mem_nil
  · intro a hl hne ho
    rw [hg.live] at hl
    rw [hg.deps] at hne
    by_cases han : a = n
    · subst han
      rcases hfresh hne with ⟨f, v, hf, hv, hc⟩
      have hkeep : ∀ d ∈ (c.nodes a).deps, (c.setNode a y).cache d = c.cache d := by
        intro d hd
        rcases hfrom a d hd hl with ⟨j, hj⟩
        refine cache_setNode_of_ne c y ?_
        rintro rfl
        exact hw.irrefl hj
      refine ⟨f, v, by rw [hg.handle, hf], ?_, ?_⟩
      · rw [hg.deps, List.map_congr_left hkeep]
        exact hv
      · rw [cache, setNode_self]
        exact hc
    · rw [owed_setNode_of_ne c y han] at ho
      refine (h.coherent a hl hne ho).congr hg (cache_setNode_of_ne c y han) ?_
      -- A consumer of the node heard of the change, so it is owed itself.
      intro d hd
      refine cache_setNode_of_ne c y ?_
      rintro rfl
      rcases hfrom a d hd hl with ⟨j, hj⟩
      have hdirty := (h.told a j d hj).mpr (Or.inl ⟨howed, List.not_mem_nil⟩)
      rw [h.heard a j d hj hdirty] at ho
      cases ho
  · intro a hl ho
    by_cases han : a = n
    · subst han
      rw [hafter] at ho
      cases ho
    · rw [setNode_of_ne c y han] at hl ⊢
      rw [owed_setNode_of_ne c y han] at ho
      exact h.idle a hl ho
  · intro a hl hf
    rw [hg.live] at hl
    rw [hg.deps, hg.isPaused]
    by_cases han : a = n
    · -- A node that emits holds no lock.
      subst han
      rw [setNode_self, haux] at hf
      have hflag := h.flagged a hl hf
      rw [hawake hflag.1] at hflag
      cases hflag.2.1
    · rw [setNode_of_ne c y han] at hf
      rw [owed_setNode_of_ne c y han]
      exact h.flagged a hl hf

/-- The ledger depends on what is owed, held, marked and read. -/
theorem Ledger.congr (h : c.Ledger compute unheard late) (hg : SameGraph c c')
    (hsound : ∀ n, (c'.nodes n).live = true → (c'.nodes n).dep.Sound (c'.nodes n).deps.length)
    (hdirty : ∀ n i, (c'.nodes n).dep.dirtyAt i = (c.nodes n).dep.dirtyAt i)
    (hlatest : ∀ n i, (c.nodes n).live = true → (c'.nodes n).dep.latest i =
      (c.nodes n).dep.latest i)
    (howed : ∀ n, c'.owed n = c.owed n) (hcache : ∀ n, c'.cache n = c.cache n)
    (hin : ∀ n, c.owed n = true → (c.nodes n).wave.insideRunWave = false →
      (c'.nodes n).wave.insideRunWave = false)
    (hflag : ∀ n, (c'.nodes n).aux.pausedDepWaveOccurred = true →
      (c.nodes n).aux.pausedDepWaveOccurred = true ∨
        ((c.nodes n).deps ≠ [] ∧ (c.nodes n).isPaused = true ∧ c.owed n = true)) :
    c'.Ledger compute unheard late := by
  refine ⟨hsound, ?_, ?_, ?_, ?_, ?_, ?_⟩
  · intro m i d hd
    rw [hg.depAt] at hd
    rw [hdirty, howed]
    exact h.told m i d hd
  · intro m i d hd
    rw [hg.depAt] at hd
    rw [hdirty, howed]
    exact h.heard m i d hd
  · intro m i d hd hlate
    rw [hg.depAt] at hd
    rw [hlatest m i hd.1, hcache]
    exact h.latest m i d hd hlate
  · intro m hl hne ho
    rw [hg.live] at hl
    rw [hg.deps] at hne
    rw [howed] at ho
    exact (h.coherent m hl hne ho).congr hg (hcache m) (fun d _ => hcache d)
  · intro m hl ho
    rw [hg.live] at hl
    rw [howed] at ho
    exact hin m ho (h.idle m hl ho)
  · intro m hl hf
    rw [hg.live] at hl
    rw [hg.deps, hg.isPaused, howed]
    rcases hflag m hf with hf | hf
    · exact h.flagged m hl hf
    · exact hf

/-- Once nothing can run and no source is owed, nothing is owed: among the
    owed nodes one of least rank would have settled deps only. -/
theorem Ledger.all_settled (hw : c.Wired rank) (h : c.Ledger compute [] [])
    (hready : ∀ m, ¬ c.Ready m)
    (hsource : ∀ n, (c.nodes n).live = true → (c.nodes n).deps = [] → c.owed n = false) :
    ∀ n, (c.nodes n).live = true → c.owed n = false := by
  suffices hall : ∀ r n, rank n = r → (c.nodes n).live = true → c.owed n = false from
    fun n => hall (rank n) n rfl
  intro r
  induction r using Nat.strong_induction_on with
  | _ r ih =>
    intro n hr hl
    by_cases hdeps : (c.nodes n).deps = []
    · exact hsource n hl hdeps
    · by_contra ho
      rw [Bool.not_eq_false] at ho
      refine hready n ⟨hl, hdeps, ho, ?_⟩
      intro i
      by_contra hdirty
      rw [Bool.not_eq_false] at hdirty
      have hi := (h.sound n hl).dirtyAt_lt hdirty
      have hat : c.DepAt n i (c.nodes n).deps[i] := ⟨hl, List.getElem?_eq_getElem hi⟩
      have hlow := ih _ (hr ▸ hw.descends n i _ hat) _ rfl (hw.depsLive n i _ hat)
      rw [h.told n i _ hat, hlow] at hdirty
      rcases hdirty with ⟨hfalse, _⟩ | hmem
      · cases hfalse
      · exact absurd hmem List.not_mem_nil

end Config

end GraphRefly
