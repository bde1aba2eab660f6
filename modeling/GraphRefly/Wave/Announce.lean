import GraphRefly.Wave.Ledger

/-!
# Phase One

DIRTY runs through the graph depth first: a node that hears of a change for the
first time in the wave marks the dep, counts it, and tells its own subscribers
before the message goes on to the next subscriber. Each node passes DIRTY on at
most once, so the number of nodes that have not announced anything falls along
the recursion.

## Main definitions

* `received`, `receivedFrames`: One dep message taken in.
* `Downstream`: A node can be reached along dep edges.
* `Announced`: What phase one changes.
* `Announcing`: The invariant of phase one.

## Theorems

* `exec_emit`: The rule for a delivery loop.
* `exec_announce`: Phase one started at a node.
-/

namespace GraphRefly

open List

variable {V S : Type}

/-- A delivery whose node and message meet a condition. -/
def Event.Telling (ok : NodeId → Message V → Prop) : Event V → Prop
  | .delivered n _ _ m => ok n m
  | _ => False

namespace Config

/-! ### Delivering -/

section

variable (c : Config V S) (m : NodeId) (i : Nat) (msg : Message V)

/-- The state after one dep message was taken in. -/
def received : Config V S :=
  (c.waveRegister m).setNode m
    ((c.nodes m).receive c.currentDeliveryId c.deliveryInFlight i msg).1

/-- The calls a dep message leaves to make. -/
def receivedFrames : List (Frame V) :=
  ((c.nodes m).receive c.currentDeliveryId c.deliveryInFlight i msg).2.frames m

/-- Enrolling in the wave changes the touched set only. -/
theorem waveRegister_eq (c : Config V S) (n : NodeId) :
    ∃ w, c.waveRegister n = { c with wave := w } ∧ w.isSome = c.wave.isSome := by
  unfold waveRegister
  split
  · rename_i w hw
    split_ifs
    · exact ⟨c.wave, rfl, rfl⟩
    · exact ⟨_, rfl, by rw [hw]; rfl⟩
  · exact ⟨c.wave, rfl, rfl⟩

theorem waveRegister_popTo (c : Config V S) (n : NodeId) (rest : List (Frame V)) :
    (c.popTo rest).waveRegister n = (c.waveRegister n).popTo rest := by
  unfold waveRegister
  cases hw : c.wave with
  | none => simp [popTo, hw]
  | some w =>
    simp only [popTo, hw]
    split_ifs
    · rw [hw]
    · rfl

theorem receiveFromDep_popTo (rest : List (Frame V)) (hl : (c.nodes m).live = true)
    (hi : (c.nodes m).hasDepIndex i = true) : (c.popTo rest).receiveFromDep m i msg =
      (c.received m i msg).popTo (c.receivedFrames m i msg ++ rest) := by
  have hl' : ((c.popTo rest).nodes m).live = true := hl
  unfold receiveFromDep
  rw [if_pos hl']
  dsimp only
  rw [waveRegister_popTo]
  rcases waveRegister_eq c m with ⟨w, hw, _⟩
  unfold received receivedFrames
  rw [hw]
  have hi' : ((({ c with wave := w } : Config V S).popTo rest).nodes m).hasDepIndex i = true := hi
  rw [hi', Bool.not_true, Bool.and_false, if_neg Bool.false_ne_true]
  rfl

end

variable {env : Env V S} {compute : FnId → List (Option V) → Except String V}

/-- The rule for a delivery loop. Recording a delivery keeps the invariant, and
    each dep edge, once it took the message in, leaves calls that take it off
    the edges still to be told. -/
theorem exec_emit (henv : env.Computes compute) {n : NodeId} {msg : Message V}
    (boxes : BoxId → Option Nat) (P : Config V S → List (NodeId × Nat) → Prop)
    (hmode : ∀ c L, P c L → c.mode = .running) (hboxes : ∀ c L, P c L → c.boxes = boxes)
    (hlive : ∀ c L m i, P c ((m, i) :: L) →
      (c.nodes m).live = true ∧ (c.nodes m).hasDepIndex i = true)
    (hrec : ∀ c L (e : SubscriberEntry), P c L → P (c.record (.delivered n e.id e.sink msg)) L)
    (hdep : ∀ c L m i, P c ((m, i) :: L) → ∃ c', P c' L ∧ (∃ es, c'.log = es ++ c.log) ∧
      Exec env (c.receivedFrames m i msg) (c.received m i msg) c') :
    ∀ (subs : List SubscriberEntry) (c : Config V S) (L : List (NodeId × Nat)),
      P c (c.edgesOf subs ++ L) → ∃ c', P c' L ∧ (∃ es, c'.log = es ++ c.log ∧
        ∀ e ∈ subs, .delivered n e.id e.sink msg ∈ es) ∧ Exec env [.emit n msg subs] c c' := by
  intro subs
  induction subs with
  | nil =>
    intro c L h
    exact ⟨c, h, ⟨[], rfl, fun e he => absurd he not_mem_nil⟩,
      Exec.enter c [] (hmode c _ h) (fun _ => rfl) Exec.nil⟩
  | cons e subs ih =>
    intro c L h
    have hm := hmode c _ h
    set c₁ := c.record (.delivered n e.id e.sink msg) with hc₁
    have hm₁ : c₁.mode = .running := hm
    -- The deliveries to the others, from a state that has recorded this one.
    have hrest : ∀ c₂ : Config V S, c₂.boxes = c.boxes → (∃ es, c₂.log = es ++ c₁.log) →
        P c₂ (c.edgesOf subs ++ L) → ∃ c', P c' L ∧ (∃ es, c'.log = es ++ c.log ∧
          ∀ e' ∈ e :: subs, .delivered n e'.id e'.sink msg ∈ es) ∧
          Exec env [.emit n msg subs] c₂ c' := by
      rintro c₂ hb ⟨es, hes⟩ hp
      have heq : c₂.edgesOf subs = c.edgesOf subs := by
        unfold edgesOf
        rw [hb]
      rcases ih c₂ L (by rw [heq]; exact hp) with ⟨c', hp', ⟨es', hes', htold⟩, hex⟩
      refine ⟨c', hp', ⟨es' ++ (es ++ [.delivered n e.id e.sink msg]), ?_, ?_⟩, hex⟩
      · rw [hes', hes, append_assoc, append_assoc]
        rfl
      · intro e' he'
        rcases mem_cons.mp he' with rfl | he'
        · exact mem_append_right _ (mem_append_right _ mem_cons_self)
        · exact mem_append_left _ (htold e' he')
    cases hsink : e.sink with
    | external s =>
      have hedges : c.edgesOf (e :: subs) = c.edgesOf subs := by
        simp [edgesOf, hsink]
      rw [hedges] at h
      rcases hrest c₁ rfl ⟨[], rfl⟩ (hrec c _ e h) with ⟨c', hp, htold, hex⟩
      refine ⟨c', hp, htold, ?_⟩
      refine Exec.enter c₁ [.user (.sink s msg) 0, .emit n msg subs] hm ?_ ?_
      · intro rest
        simp only [enter, emit, deliver, hsink]
        rw [hc₁, hsink]
        rfl
      · refine Exec.enter c₁ [] hm₁ ?_ hex
        intro rest
        simp only [enter, stepUser, henv.listens]
        rfl
    | dep m box =>
      cases hbox : c.boxes box with
      | none =>
        have hedges : c.edgesOf (e :: subs) = c.edgesOf subs := by
          simp [edgesOf, hsink, hbox]
        rw [hedges] at h
        rcases hrest c₁ rfl ⟨[], rfl⟩ (hrec c _ e h) with ⟨c', hp, htold, hex⟩
        refine ⟨c', hp, htold, Exec.enter c₁ [.emit n msg subs] hm ?_ hex⟩
        intro rest
        have hbox' : (((c.popTo rest).push [.emit n msg subs]).record
            (.delivered n e.id (.dep m box) msg)).boxes box = none := hbox
        simp only [enter, emit, deliver, hsink, hbox']
        rw [hc₁, hsink]
        rfl
      | some i =>
        have hedges : c.edgesOf (e :: subs) = (m, i) :: c.edgesOf subs := by
          simp [edgesOf, hsink, hbox]
        rw [hedges, cons_append] at h
        have h₁ := hrec c _ e h
        rcases hdep c₁ _ m i h₁ with ⟨c₂, hp₂, hlog₂, hex₂⟩
        have hb₂ : c₂.boxes = c.boxes := (hboxes c₂ _ hp₂).trans (hboxes c _ h).symm
        rcases hrest c₂ hb₂ hlog₂ hp₂ with ⟨c', hp, htold, hex⟩
        refine ⟨c', hp, htold, ?_⟩
        refine Exec.enter (c₁.received m i msg)
          (c₁.receivedFrames m i msg ++ [.emit n msg subs]) hm ?_ ?_
        · intro rest
          have hbox' : (((c.popTo rest).push [.emit n msg subs]).record
              (.delivered n e.id (.dep m box) msg)).boxes box = some i := hbox
          have hl₁ := hlive c₁ _ m i h₁
          have heq : ((c.popTo rest).push [.emit n msg subs]).record
              (.delivered n e.id (.dep m box) msg) =
              c₁.popTo ([.emit n msg subs] ++ rest) := by
            rw [hc₁, hsink]
            rfl
          simp only [enter, emit, deliver, hsink, hbox']
          rw [heq, receiveFromDep_popTo c₁ m i msg _ hl₁.1 hl₁.2, append_assoc]
        · rw [append_assoc]
          exact Exec.append hex₂ hex

/-! ### Phase one -/

/-- The node can be reached along dep edges, in any number of steps. -/
def Downstream (c : Config V S) : NodeId → NodeId → Prop :=
  Relation.ReflTransGen fun a b => ∃ i, c.DepAt b i a

/-- The nodes that have not announced anything. -/
def unannounced (c : Config V S) : Finset NodeId :=
  (Finset.range c.size).filter fun n => c.owed n = false

/-- What phase one changes: nodes downstream of the origin become owed. -/
structure Announced (origin : NodeId) (c₀ c : Config V S) : Prop where
  graph : SameGraph c₀ c
  cache : ∀ n, c.cache n = c₀.cache n
  aux : ∀ n, (c.nodes n).aux = (c₀.nodes n).aux
  tier3 : ∀ n, (c.nodes n).wave.emittedTier3ThisWave = (c₀.nodes n).wave.emittedTier3ThisWave
  inside : ∀ n, (c.nodes n).wave.insideRunWave = (c₀.nodes n).wave.insideRunWave
  owed : ∀ n, c₀.owed n = true → c.owed n = true
  fresh : ∀ n, c.owed n = true → c₀.owed n = true ∨ c₀.Downstream origin n
  rest : ∀ n, c.owed n = false → (c.nodes n).value = (c₀.nodes n).value
  deferred : c.deferred = c₀.deferred
  depth : c.depth = c₀.depth
  log : ∃ es, c.log = es ++ c₀.log ∧
    ∀ e ∈ es, e.Telling fun n m => m = .dirty ∧ c₀.Downstream origin n

/-- The invariant of phase one. The edges in the list have still to be told;
    they leave nodes that announced a change. -/
structure Announcing (compute : FnId → List (Option V) → Except String V) (rank : NodeId → Nat)
    (origin : NodeId) (c₀ : Config V S) (fuel : Nat) (c : Config V S)
    (unheard : List (NodeId × Nat)) : Prop where
  running : c.mode = .running
  wired : c.Wired rank
  ledger : c.Ledger compute unheard []
  nodup : unheard.Nodup
  owing : ∀ e ∈ unheard, ∃ d, c.DepAt e.1 e.2 d ∧ c.owed d = true ∧ c₀.Downstream origin d
  calm : ∀ n, (c.nodes n).live = true → (c.nodes n).wave.emittedTier3ThisWave = false ∧
    (c.nodes n).wave.insideRunWave = false
  queue : ∀ m, c.Ready m → c.Held m
  fuel : c.unannounced.card ≤ fuel
  start : c.owed origin = true
  change : Announced origin c₀ c

variable {c : Config V S} {unheard : List (NodeId × Nat)}

/-- The ledger reads the slots only. -/
theorem Ledger.of_nodes {c' : Config V S} {late : List (NodeId × Nat)}
    (h : c.Ledger compute unheard late) (hn : c'.nodes = c.nodes) :
    c'.Ledger compute unheard late := by
  rcases c with ⟨nodes⟩
  rcases c' with ⟨nodes'⟩
  cases (show nodes' = nodes from hn)
  exact ⟨h.sound, h.told, h.heard, h.latest, h.coherent, h.idle, h.flagged⟩

variable {rank : NodeId → Nat} {origin : NodeId} {c₀ : Config V S}

/-- The invariant reads neither the wave scope nor the order of deliveries. -/
theorem Announcing.of_nodes {c' : Config V S} {fuel : Nat}
    (h : Announcing compute rank origin c₀ fuel c unheard) (hg : SameGraph c c')
    (hn : c'.nodes = c.nodes) (hm : c'.mode = c.mode) (hd : c'.deferred = c.deferred)
    (hdepth : c'.depth = c.depth)
    (hl : ∃ es, c'.log = es ++ c.log ∧
      ∀ e ∈ es, e.Telling fun n m => m = .dirty ∧ c₀.Downstream origin n) :
    Announcing compute rank origin c₀ fuel c' unheard := by
  have howed : ∀ n, c'.owed n = c.owed n := fun n => by unfold Config.owed; rw [hn]
  refine ⟨hm.trans h.running, hg.wired h.wired, h.ledger.of_nodes hn, h.nodup, ?_, ?_, ?_, ?_,
    by rw [howed, h.start], ?_⟩
  · intro e he
    rcases h.owing e he with ⟨d, hat, ho, hdown⟩
    exact ⟨d, (hg.depAt _ _ _).mpr hat, by rw [howed, ho], hdown⟩
  · rw [hn]
    exact h.calm
  · intro m hr
    unfold Held
    unfold Ready at hr
    rw [howed] at hr
    rw [hn] at hr ⊢
    exact h.queue m hr
  · have heq : c'.unannounced = c.unannounced := by
      unfold unannounced
      rw [hg.size]
      simp only [howed]
    rw [heq]
    exact h.fuel
  · have hch := h.change
    rcases hch.log with ⟨es, hes, he⟩
    rcases hl with ⟨es', hes', he'⟩
    refine ⟨hch.graph.trans hg, ?_, ?_, ?_, ?_, ?_, ?_, ?_, hd.trans hch.deferred,
      hdepth.trans hch.depth,
      ⟨es' ++ es, by rw [hes', hes, append_assoc], ?_⟩⟩
    · intro n
      rw [← hch.cache n]
      unfold Config.cache
      rw [hn]
    · rw [hn]
      exact hch.aux
    · rw [hn]
      exact hch.tier3
    · rw [hn]
      exact hch.inside
    · intro n ho
      rw [howed]
      exact hch.owed n ho
    · intro n ho
      rw [howed] at ho
      exact hch.fresh n ho
    · intro n ho
      rw [howed] at ho
      rw [hn]
      exact hch.rest n ho
    · intro e hmem
      rcases mem_append.mp hmem with hmem | hmem
      · exact he' e hmem
      · exact he e hmem

variable {i : Nat}

/-- DIRTY from a dep that was not dirty: the dep is marked, and a node that
    hears of a change for the first time passes it on. -/
theorem receive_dirty {x : Node V S} (ht : x.Tame) (hd : x.dep.dirtyAt i = false)
    (deliveryId : Nat) (inFlight : Bool) :
    x.receive deliveryId inFlight i .dirty =
      (let x₁ := { x with dep := x.dep.marked i }
      if x.wave.emittedDirtyThisWave then (x₁, {})
      else ({ x₁ with
        wave := { x₁.wave with emittedDirtyThisWave := true }
        value := { x₁.value with status := .dirty } }, { emitDirty := true })) := by
  have hd' : x.dep.dirty.getD i false = false := hd
  have hq : ({ x with dep := { x.dep with
        dirty := x.dep.dirty.set i true
        pending := x.dep.pending + 1
        tier := x.dep.tier.set i 2 } } : Node V S).pullQuiet = false := ht.pullQuiet
  unfold Node.receive
  rw [ht.running]
  simp only [Bool.false_eq_true, ↓reduceIte, Node.receiveDirty, hd', hq, false_or]
  rfl

variable {m : NodeId} {y : Node V S}

/-- One slot changed, and only its dep marks, its status and its announcement. -/
theorem Announced.setNode (h : Announced origin c₀ c) (hy : y.shape = (c.nodes m).shape)
    (hcache : y.value.cache = (c.nodes m).value.cache) (haux : y.aux = (c.nodes m).aux)
    (htier : y.wave.emittedTier3ThisWave = (c.nodes m).wave.emittedTier3ThisWave)
    (hin : y.wave.insideRunWave = (c.nodes m).wave.insideRunWave)
    (howed : (c.setNode m y).owed m = true)
    (hnew : (c.setNode m y).owed m = true → c.owed m = true ∨ c₀.Downstream origin m) :
    Announced origin c₀ (c.setNode m y) := by
  have hpick : ∀ {τ : Type} (g : Node V S → τ), g y = g (c.nodes m) →
      ∀ n, g ((c.setNode m y).nodes n) = g (c.nodes n) := by
    intro τ g hg n
    by_cases hn : n = m
    · rw [hn, setNode_self, hg]
    · rw [setNode_of_ne c y hn]
  refine ⟨h.graph.trans (.setNode hy), ?_, ?_, ?_, ?_, ?_, ?_, ?_, h.deferred, h.depth, h.log⟩
  · intro n
    exact (hpick (·.value.cache) hcache n).trans (h.cache n)
  · intro n
    exact (hpick (·.aux) haux n).trans (h.aux n)
  · intro n
    exact (hpick (·.wave.emittedTier3ThisWave) htier n).trans (h.tier3 n)
  · intro n
    exact (hpick (·.wave.insideRunWave) hin n).trans (h.inside n)
  · intro n ho
    by_cases hn : n = m
    · subst hn
      exact howed
    · rw [owed_setNode_of_ne c y hn]
      exact h.owed n ho
  · intro n ho
    by_cases hn : n = m
    · subst hn
      exact (hnew ho).elim (h.fresh n) Or.inr
    · rw [owed_setNode_of_ne c y hn] at ho
      exact h.fresh n ho
  · intro n ho
    have hn : n ≠ m := by
      rintro rfl
      rw [howed] at ho
      cases ho
    rw [owed_setNode_of_ne c y hn] at ho
    rw [setNode_of_ne c y hn]
    exact h.rest n ho

section

variable (c : Config V S) (m : NodeId)

theorem setNode_setNode (x y : Node V S) : (c.setNode m x).setNode m y = c.setNode m y := by
  unfold setNode
  rw [Function.update_idem]

/-- An owed node is announced for good: setting a slot that stays owed only
    shrinks the set of the others. -/
theorem unannounced_setNode_le (y : Node V S)
    (h : c.owed m = true → (c.setNode m y).owed m = true) :
    (c.setNode m y).unannounced ⊆ c.unannounced := by
  intro n hn
  unfold unannounced at hn ⊢
  rw [Finset.mem_filter] at hn ⊢
  refine ⟨hn.1, ?_⟩
  by_cases hnm : n = m
  · subst hnm
    by_contra hcon
    rw [h (Bool.not_eq_false _ ▸ hcon)] at hn
    cases hn.2
  · rw [owed_setNode_of_ne c y hnm] at hn
    exact hn.2

theorem unannounced_setNode_lt (y : Node V S) (hm : m < c.size)
    (hbefore : c.owed m = false) (hafter : (c.setNode m y).owed m = true) :
    (c.setNode m y).unannounced.card < c.unannounced.card := by
  refine Finset.card_lt_card (Finset.ssubset_iff_subset_ne.mpr
    ⟨unannounced_setNode_le c m y (fun _ => hafter), ?_⟩)
  intro heq
  have hmem : m ∈ c.unannounced := by
    unfold unannounced
    rw [Finset.mem_filter, Finset.mem_range]
    exact ⟨hm, hbefore⟩
  rw [← heq, unannounced, Finset.mem_filter, hafter] at hmem
  cases hmem.2

end

/-- The ledger once a node was told DIRTY on an edge, having announced the
    change itself if it had not before. -/
theorem Ledger.told_dirty (hw : c.Wired rank) {d : NodeId}
    (h : c.Ledger compute ((m, i) :: unheard) []) (hmem : (m, i) ∉ unheard)
    (hat : c.DepAt m i d) (hd : c.owed d = true)
    (hy : y.shape = (c.nodes m).shape) (hcache : y.value.cache = (c.nodes m).value.cache)
    (haux : y.aux = (c.nodes m).aux) (hdep : y.dep = (c.nodes m).dep.marked i)
    (hwave : y.wave = { (c.nodes m).wave with emittedDirtyThisWave := true })
    (htier : (c.nodes m).wave.emittedTier3ThisWave = false)
    (hin : (c.nodes m).wave.insideRunWave = false) :
    (c.setNode m y).Ledger compute ((if c.owed m then [] else c.edges m) ++ unheard) [] := by
  have hsound := h.sound m hat.1
  have hi : i < (c.nodes m).deps.length := (List.getElem?_eq_some_iff.mp hat.2).1
  have hclean : (c.nodes m).dep.dirtyAt i = false := by
    by_contra hcon
    rw [Bool.not_eq_false, h.told m i d hat] at hcon
    rcases hcon with ⟨_, hnot⟩ | hmem'
    · exact hnot mem_cons_self
    · exact absurd hmem' not_mem_nil
  have hmarked : y.dep.Sound (c.nodes m).deps.length := by
    rw [hdep]
    exact hsound.marked hi hclean
  have hdirty : ∀ j, y.dep.dirtyAt j = if j = i then true else (c.nodes m).dep.dirtyAt j := by
    rw [hdep]
    exact hsound.dirtyAt_marked hi
  have hlatest : ∀ j, y.dep.latest j =
      if j = i then (c.nodes m).dep.latest i else (c.nodes m).dep.latest j := by
    intro j
    rw [hdep]
    split_ifs with hji
    · rw [hji]
      rfl
    · rfl
  have hl : (c.nodes m).dep.latest i = c.cache d := h.latest m i d hat not_mem_nil
  have hflag : y.aux.pausedDepWaveOccurred = true → (c.nodes m).isPaused = true := by
    intro hf
    rw [haux] at hf
    exact (h.flagged m hat.1 hf).2.1
  have hirr : (m, i) ∉ c.edges m := by
    intro he
    exact hw.irrefl ((hw.edge m hat.1 m i).mp he)
  cases ho : c.owed m with
  | true =>
    have hsame : y.wave = (c.nodes m).wave := by
      unfold owed at ho
      rw [Bool.and_eq_true] at ho
      rw [hwave, ← ho.1]
    refine h.receive hat hy hcache hsame hmarked hdirty hlatest ?_ (fun _ => hl) ho
      hflag ?_ (fun e _ => Iff.rfl)
    · simp [hd, hmem]
    · intro e he
      simp [he]
  | false =>
    -- The announcement first, then the mark on the edge.
    set y₀ : Node V S := { y with dep := (c.nodes m).dep } with hy₀
    have howed : (c.setNode m y₀).owed m = true := by
      rw [owed, setNode_self, hy₀]
      simp [hwave, htier]
    have hann := h.announce hw hat.1 (y := y₀) hy rfl haux hcache
      (by rw [hy₀]; simp [hwave, hin]) ho howed
    have hg : SameGraph c (c.setNode m y₀) := .setNode hy
    have hself : (c.setNode m y₀).nodes m = y₀ := setNode_self c m y₀
    have hcaches : (c.setNode m y₀).cache d = c.cache d := by
      by_cases hdm : d = m
      · rw [hdm, cache, hself]
        exact hcache
      · exact cache_setNode_of_ne c y₀ hdm
    have hd' : (c.setNode m y₀).owed d = true := by
      by_cases hdm : d = m
      · rw [hdm]
        exact howed
      · rw [owed_setNode_of_ne c y₀ hdm, hd]
    have hrec := hann.receive (y := y) (U := c.edges m ++ unheard) (L := [])
      (b := true) (l := (c.nodes m).dep.latest i) ((hg.depAt m i d).mpr hat)
      (by rw [hself]; rfl) (by rw [hself]) (by rw [hself])
      (by rw [hg.deps]; exact hmarked) (by rw [hself]; exact hdirty)
        (by rw [hself]; exact hlatest)
      (by simp [hd', hmem, hirr]) (fun _ => by rw [hcaches, hl]) howed
      (by rw [hg.isPaused]; exact hflag)
      (by intro e he; simp [he]) (fun e _ => Iff.rfl)
    rw [setNode_setNode] at hrec
    exact hrec

/-- One edge is told: the node is marked, and its own edges are to be told if
    it announces the change only now. -/
theorem Announcing.receive {fuel k : Nat}
    (h : Announcing compute rank origin c₀ fuel c ((m, i) :: unheard))
    (hy : y.shape = (c.nodes m).shape) (hcache : y.value.cache = (c.nodes m).value.cache)
    (haux : y.aux = (c.nodes m).aux) (hdep : y.dep = (c.nodes m).dep.marked i)
    (hwave : y.wave = { (c.nodes m).wave with emittedDirtyThisWave := true })
    (hfuel : (c.setNode m y).unannounced.card ≤ k) :
    Announcing compute rank origin c₀ k (c.setNode m y)
      ((if c.owed m then [] else c.edges m) ++ unheard) := by
  rcases h.owing (m, i) mem_cons_self with ⟨d, hat, hd, hdown⟩
  have hmem := (nodup_cons.mp h.nodup).1
  have hcalm := h.calm m hat.1
  have hg : SameGraph c (c.setNode m y) := .setNode hy
  have howed : (c.setNode m y).owed m = true := by
    rw [owed, setNode_self]
    simp [hwave, hcalm.1]
  have hmono : ∀ n, c.owed n = true → (c.setNode m y).owed n = true := by
    intro n hn
    by_cases hnm : n = m
    · rw [hnm]
      exact howed
    · rw [owed_setNode_of_ne c y hnm, hn]
  have hedge : c₀.Downstream origin m := by
    refine hdown.tail ⟨i, ?_⟩
    exact (h.change.graph.depAt m i d).mp hat
  have hnew : ∀ e ∈ (if c.owed m then [] else c.edges m), c.DepAt e.1 e.2 m ∧ c.owed m = false := by
    intro e he
    split_ifs at he with ho
    · exact absurd he not_mem_nil
    · exact ⟨(h.wired.edge m hat.1 e.1 e.2).mp he, Bool.not_eq_true _ ▸ ho⟩
  refine ⟨h.running, hg.wired h.wired,
    h.ledger.told_dirty h.wired hmem hat hd hy hcache haux hdep hwave hcalm.1 hcalm.2,
      ?_, ?_, ?_, ?_,
    hfuel, hmono origin h.start, ?_⟩
  · rw [nodup_append]
    refine ⟨?_, (nodup_cons.mp h.nodup).2, ?_⟩
    · split_ifs
      · exact nodup_nil
      · exact h.wired.edgesNodup m hat.1
    · -- The edges still to be told leave nodes that were owed already.
      rintro e he e' he' rfl
      rcases hnew e he with ⟨hat', ho⟩
      rcases h.owing e (mem_cons_of_mem _ he') with ⟨d', hd', ho', _⟩
      rw [hd'.unique hat', ho] at ho'
      cases ho'
  · intro e he
    rcases mem_append.mp he with he | he
    · exact ⟨m, (hg.depAt _ _ _).mpr (hnew e he).1, howed, hedge⟩
    · rcases h.owing e (mem_cons_of_mem _ he) with ⟨d', hd', ho', hdown'⟩
      exact ⟨d', (hg.depAt _ _ _).mpr hd', hmono d' ho', hdown'⟩
  · intro n hn
    rw [hg.live] at hn
    by_cases hnm : n = m
    · rw [hnm, setNode_self, hwave]
      exact hcalm
    · rw [setNode_of_ne c y hnm]
      exact h.calm n hn
  · intro n hr
    by_cases hnm : n = m
    · -- The node has just been marked on an edge.
      subst hnm
      have hfalse := hr.2.2.2 i
      have hi : i < (c.nodes n).deps.length := (List.getElem?_eq_some_iff.mp hat.2).1
      rw [setNode_self, hdep, (h.ledger.sound n hat.1).dirtyAt_marked hi, if_pos rfl] at hfalse
      cases hfalse
    · unfold Ready at hr
      rw [setNode_of_ne c y hnm, owed_setNode_of_ne c y hnm] at hr
      unfold Held
      rw [setNode_of_ne c y hnm]
      exact h.queue n hr
  · refine h.change.setNode hy hcache haux ?_ ?_ howed (fun _ => Or.inr hedge)
    · rw [hwave]
    · rw [hwave]

/-- Phase one: DIRTY goes out on the given subscriptions and everything that
    follows from it is done. -/
theorem exec_dirty (henv : env.Computes compute) (fuel : Nat) :
    ∀ (n : NodeId), c₀.Downstream origin n →
      ∀ (subs : List SubscriberEntry) (c : Config V S) (L : List (NodeId × Nat)),
      Announcing compute rank origin c₀ fuel c (c.edgesOf subs ++ L) →
      ∃ c', Announcing compute rank origin c₀ fuel c' L ∧ (∃ es, c'.log = es ++ c.log ∧
        ∀ e ∈ subs, .delivered n e.id e.sink .dirty ∈ es) ∧
        Exec env [.emit n .dirty subs] c c' := by
  induction fuel using Nat.strong_induction_on with
  | _ fuel ih =>
    intro n hn
    refine exec_emit henv c₀.boxes (Announcing compute rank origin c₀ fuel)
      (fun c L h => h.running) (fun c L h => h.change.graph.boxes) ?_ ?_ ?_
    · intro c L m i h
      rcases h.owing (m, i) mem_cons_self with ⟨d, hat, _⟩
      exact ⟨hat.1, hat.hasDepIndex (h.ledger.sound m hat.1).dirty⟩
    · intro c L e h
      exact h.of_nodes ⟨rfl, fun _ => rfl, rfl⟩ rfl rfl rfl rfl
        ⟨[.delivered n e.id e.sink .dirty], rfl, by simp [Event.Telling, hn]⟩
    · intro c L m i h
      rcases h.owing (m, i) mem_cons_self with ⟨d, hat, hd, _⟩
      have hclean : (c.nodes m).dep.dirtyAt i = false := by
        by_contra hcon
        rw [Bool.not_eq_false, h.ledger.told m i d hat] at hcon
        rcases hcon with ⟨_, hnot⟩ | hmem'
        · exact hnot mem_cons_self
        · exact absurd hmem' not_mem_nil
      have hreceive := receive_dirty (h.wired.tame m hat.1) hclean c.currentDeliveryId
        c.deliveryInFlight
      rcases waveRegister_eq c m with ⟨w, hw, hsome⟩
      have hreg : Announcing compute rank origin c₀ fuel ({ c with wave := w } : Config V S)
          ((m, i) :: L) :=
        h.of_nodes ⟨rfl, fun _ => rfl, hsome⟩ rfl rfl rfl rfl ⟨[], rfl, by simp⟩
      have hcalm := h.calm m hat.1
      unfold received receivedFrames
      rw [hw, hreceive]
      dsimp only
      split_ifs with hem
      · -- It passed DIRTY on earlier in this wave.
        have ho : ({ c with wave := w } : Config V S).owed m = true := by
          unfold owed
          simp [hem, hcalm.1]
        have hnext := hreg.receive (k := fuel)
          (y := { c.nodes m with dep := (c.nodes m).dep.marked i }) rfl rfl rfl rfl
          (by rw [← hem]) (le_trans (Finset.card_le_card
            (unannounced_setNode_le _ m _ (fun _ => by
              rw [owed, setNode_self]
              simp [hem, hcalm.1]))) hreg.fuel)
        rw [ho] at hnext
        exact ⟨_, hnext, ⟨[], rfl⟩, Exec.nil⟩
      · have ho : ({ c with wave := w } : Config V S).owed m = false := by
          unfold owed
          simp [Bool.not_eq_true _ ▸ hem]
        set y : Node V S := { c.nodes m with
          dep := (c.nodes m).dep.marked i
          wave := { (c.nodes m).wave with emittedDirtyThisWave := true }
          value := { (c.nodes m).value with status := .dirty } } with hy
        set c₁ := ({ c with wave := w } : Config V S).setNode m y with hc₁
        have hlt : c₁.unannounced.card < fuel := by
          refine lt_of_lt_of_le (unannounced_setNode_lt _ m y (h.wired.bounded m hat.1) ho ?_)
            hreg.fuel
          rw [owed, setNode_self]
          simp [hy, hcalm.1]
        have hnext := hreg.receive (k := c₁.unannounced.card) (y := y) rfl rfl rfl rfl rfl
          (le_refl _)
        rw [ho] at hnext
        have hsubs : c₁.edgesOf y.aux.subscribers = c.edges m := rfl
        rcases h.owing (m, i) mem_cons_self with ⟨d', hat', _, hdown⟩
        have hm : c₀.Downstream origin m :=
          hdown.tail ⟨i, (h.change.graph.depAt m i d').mp hat'⟩
        rcases ih _ hlt m hm y.aux.subscribers c₁ L (by rw [hsubs]; exact hnext) with
          ⟨c', hp, ⟨es, hes, _⟩, hex⟩
        refine ⟨c', ⟨hp.running, hp.wired, hp.ledger, hp.nodup, hp.owing, hp.calm, hp.queue,
          le_trans hp.fuel (le_of_lt hlt), hp.start, hp.change⟩, ⟨es, hes⟩, ?_⟩
        refine Exec.enter c₁ [.emit m .dirty y.aux.subscribers] h.running ?_ hex
        intro rest
        have hself : (c₁.popTo rest).nodes m = y := setNode_self _ m y
        simp only [enter, emitToSubs, hself]
        rfl

/-- A pure network between operations: no wave is in flight, and whatever could
    run is held by a pause. -/
structure Resting (c : Config V S) (compute : FnId → List (Option V) → Except String V)
    (rank : NodeId → Nat) : Prop where
  running : c.mode = .running
  wired : c.Wired rank
  ledger : c.Ledger compute [] []
  calm : ∀ n, (c.nodes n).live = true → (c.nodes n).wave.emittedTier3ThisWave = false ∧
    (c.nodes n).wave.insideRunWave = false
  held : ∀ m, c.Ready m → c.Held m
  deferred : c.deferred = []
  depth : c.depth = 0

theorem Announced.refl (origin : NodeId) (c : Config V S) : Announced origin c c :=
  ⟨.refl c, fun _ => rfl, fun _ => rfl, fun _ => rfl, fun _ => rfl, fun _ h => h,
    fun _ h => Or.inl h, fun _ _ => rfl, rfl, rfl,
    ⟨[], rfl, fun _ he => absurd he not_mem_nil⟩⟩

/-- A source announces a change, unless it did already. -/
theorem exec_announce (henv : env.Computes compute)
    (h : c.Resting compute rank) {s : NodeId} (hs : (c.nodes s).live = true)
    (hsrc : (c.nodes s).deps = []) :
    ∃ c', Exec env [.emitDirtyOnce s] c c' ∧ c'.Resting compute rank ∧ Announced s c c' ∧
      c'.owed s = true := by
  have hcalm := h.calm s hs
  by_cases hem : (c.nodes s).wave.emittedDirtyThisWave = true
  · refine ⟨c, Exec.enter c [] h.running ?_ Exec.nil, h, .refl s c, ?_⟩
    · intro rest
      have hem' : ((c.popTo rest).nodes s).wave.emittedDirtyThisWave = true := hem
      simp only [enter, emitDirtyOnce, hem', ↓reduceIte]
      rfl
    · unfold owed
      simp [hem, hcalm.1]
  · rw [Bool.not_eq_true] at hem
    set y : Node V S := { c.nodes s with
      wave := { (c.nodes s).wave with emittedDirtyThisWave := true }
      value := { (c.nodes s).value with status := .dirty } } with hy
    set c₁ := c.setNode s y with hc₁
    have hself : c₁.nodes s = y := setNode_self c s y
    have hbefore : c.owed s = false := by
      unfold owed
      simp [hem]
    have howed : c₁.owed s = true := by
      rw [owed, hself]
      simp [hy, hcalm.1]
    have hg : SameGraph c c₁ := .setNode rfl
    have hstart : Announcing compute rank s c c₁.unannounced.card c₁ (c.edges s ++ []) := by
      refine ⟨h.running, hg.wired h.wired,
        h.ledger.announce h.wired hs rfl rfl rfl rfl hcalm.2 hbefore howed, ?_, ?_, ?_,
          ?_, le_refl _,
        howed, (Announced.refl s c).setNode rfl rfl rfl rfl rfl howed
          (fun _ => Or.inr Relation.ReflTransGen.refl)⟩
      · rw [append_nil]
        exact h.wired.edgesNodup s hs
      · intro e he
        rw [append_nil] at he
        exact ⟨s, (hg.depAt _ _ _).mpr ((h.wired.edge s hs e.1 e.2).mp he), howed,
          Relation.ReflTransGen.refl⟩
      · intro n hn
        rw [hg.live] at hn
        by_cases hns : n = s
        · rw [hns, hself]
          exact hcalm
        · rw [hc₁, setNode_of_ne c y hns]
          exact h.calm n hn
      · intro m hr
        by_cases hms : m = s
        · rw [hms] at hr
          exact absurd ((hg.deps s).trans hsrc) hr.2.1
        · unfold Ready at hr
          rw [hc₁, setNode_of_ne c y hms, owed_setNode_of_ne c y hms] at hr
          unfold Held
          rw [hc₁, setNode_of_ne c y hms]
          exact h.held m hr
    rcases exec_dirty henv _ s Relation.ReflTransGen.refl y.aux.subscribers c₁ [] hstart with
      ⟨c', hp, _, hex⟩
    refine ⟨c', ?_, ⟨hp.running, hp.wired, hp.ledger, hp.calm, hp.queue,
      hp.change.deferred.trans h.deferred, hp.change.depth.trans h.depth⟩, hp.change, hp.start⟩
    refine Exec.enter c₁ [.emit s .dirty y.aux.subscribers] h.running ?_ hex
    intro rest
    have hem' : ((c.popTo rest).nodes s).wave.emittedDirtyThisWave = false := hem
    simp only [enter, emitDirtyOnce, hem', Bool.false_eq_true, ↓reduceIte]
    rfl

end Config

end GraphRefly
