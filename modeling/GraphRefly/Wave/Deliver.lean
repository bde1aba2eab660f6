import GraphRefly.Wave.Announce

/-!
# Delivering a Value

The first half of phase two: a node that emitted a value hands it to its
subscribers one by one. A delivery is in flight, so nothing runs yet; a node
whose last pending dep settles is put in the queue of deferred runs.

## Main definitions

* `DepState.took`: The bookkeeping once a value of dep `i` was taken in.
* `Delivered`: What a delivery changes.
* `Delivering`: The invariant of the delivery loop.

## Theorems

* `Queue.setNode`, `Queue.defer`, `Queue.pop`: How the queue changes with a node.
* `exec_deliver`: The delivery loop.
-/

namespace GraphRefly

open List

variable {V S : Type}

namespace DepState

/-- The bookkeeping once a value of dep `i` was taken in. -/
def took (d : DepState V) (deliveryId i : Nat) (v : V) : DepState V :=
  let d₀ := { d with batch := d.batch.set i (some ((d.batch.getD i none).getD [] ++ [v])) }
  let d₁ := d₀.recordWaveData deliveryId i v
  ({ d₁ with hasData := d₁.hasData.set i true, tier := d₁.tier.set i 3 } : DepState V).undirty i

variable {d : DepState V} {n i : Nat}

theorem Sound.took (h : d.Sound n) (deliveryId : Nat) (v : V) :
    (d.took deliveryId i v).Sound n := by
  have h₀ : ({ d with batch := d.batch.set i (some ((d.batch.getD i none).getD [] ++ [v])) } :
      DepState V).Sound n :=
    ⟨by rw [length_set, h.batch], h.dirty, h.prev, h.pending⟩
  have h₁ := recordInWave_sound h₀ deliveryId i [.data v]
  exact Sound.undirty ⟨h₁.batch, h₁.dirty, h₁.prev, h₁.pending⟩

theorem dirtyAt_took (d : DepState V) (deliveryId i : Nat) (v : V) (j : Nat) :
    (d.took deliveryId i v).dirtyAt j = if j = i then false else d.dirtyAt j := by
  unfold took
  dsimp only
  rw [dirtyAt_undirty]
  split_ifs
  · rfl
  · exact recordInWave_dirtyAt _ deliveryId i [.data v] j

theorem latest_took (h : d.Sound n) (hi : i < n) (deliveryId : Nat) (v : V) (j : Nat) :
    (d.took deliveryId i v).latest j = if j = i then some v else d.latest j := by
  unfold took
  dsimp only
  rw [latest_undirty]
  refine (recordInWave_latest _ deliveryId i [.data v] j).trans ?_
  exact latest_setBatch d i j _ v (by rw [h.batch]; exact hi)

end DepState

namespace Config

variable {env : Env V S} {compute : FnId → List (Option V) → Except String V}
  {rank : NodeId → Nat} {c c' : Config V S} {m : NodeId} {y : Node V S} {todo : List NodeId}

/-! ### The queue of deferred runs -/

variable {n : NodeId}

theorem ready_setNode_of_ne (c : Config V S) (y : Node V S) (h : n ≠ m) :
    (c.setNode m y).Ready n ↔ c.Ready n := by
  unfold Ready
  rw [setNode_of_ne c y h, owed_setNode_of_ne c y h]

theorem held_setNode_of_ne (c : Config V S) (y : Node V S) (h : n ≠ m) :
    (c.setNode m y).Held n ↔ c.Held n := by
  unfold Held
  rw [setNode_of_ne c y h]

/-- A node that cannot run, before or after, does not matter. -/
theorem Queue.setNode (h : c.Queue todo) (hm : ¬ c.Ready m) (hm' : ¬ (c.setNode m y).Ready m) :
    (c.setNode m y).Queue todo := by
  have hne : ∀ n, c.Ready n → n ≠ m := by
    rintro n hn rfl
    exact hm hn
  refine ⟨?_, ?_, ?_, h.nodup⟩
  · intro n hn
    have hnm : n ≠ m := by
      rintro rfl
      exact hm' hn
    rw [held_setNode_of_ne c y hnm]
    exact h.waiting n ((ready_setNode_of_ne c y hnm).mp hn)
  · intro n hn
    exact (ready_setNode_of_ne c y (hne n (h.ready n hn))).mpr (h.ready n hn)
  · intro a ha
    have hr := (h.runs a ha).2
    exact ⟨(h.runs a ha).1, (ready_setNode_of_ne c y (hne _ hr)).mpr hr⟩

/-- A node that can run now is deferred. -/
theorem Queue.defer (h : c.Queue todo) (hm : ¬ c.Ready m) (hm' : (c.setNode m y).Ready m) :
    ((c.setNode m y).deferAction ⟨.run, m⟩).Queue todo := by
  have hne : ∀ n, c.Ready n → n ≠ m := by
    rintro n hn rfl
    exact hm hn
  have hnew : ⟨.run, m⟩ ∉ (c.setNode m y).deferred := by
    intro hmem
    exact hm (h.runs _ hmem).2
  have heq : (c.setNode m y).deferAction ⟨.run, m⟩ =
      { c.setNode m y with deferred := c.deferred ++ [⟨.run, m⟩] } := by
    unfold deferAction
    rw [if_neg hnew]
    rfl
  rw [heq]
  refine ⟨?_, ?_, ?_, ?_⟩
  · intro n hn
    by_cases hnm : n = m
    · rw [hnm]
      exact Or.inr (Or.inl (mem_append_right _ mem_cons_self))
    · rcases h.waiting n ((ready_setNode_of_ne c y hnm).mp hn) with ht | hd | hheld
      · exact Or.inl ht
      · exact Or.inr (Or.inl (mem_append_left _ hd))
      · exact Or.inr (Or.inr ((held_setNode_of_ne c y hnm).mpr hheld))
  · intro n hn
    exact (ready_setNode_of_ne c y (hne n (h.ready n hn))).mpr (h.ready n hn)
  · intro a ha
    rcases mem_append.mp ha with ha | ha
    · have hr := (h.runs a ha).2
      exact ⟨(h.runs a ha).1, (ready_setNode_of_ne c y (hne _ hr)).mpr hr⟩
    · rw [mem_singleton.mp ha]
      exact ⟨rfl, hm'⟩
  · dsimp only
    rw [map_append, ← append_assoc, nodup_append]
    refine ⟨h.nodup, by simp, ?_⟩
    intro n hn b hb
    rw [map_cons, map_nil, mem_singleton] at hb
    rw [hb]
    rcases mem_append.mp hn with hn | hn
    · exact hne n (h.ready n hn)
    · rcases mem_map.mp hn with ⟨a, ha, rfl⟩
      exact hne _ (h.runs a ha).2

/-- The node at the head of the list is taken off: it ran, or it is held. -/
theorem Queue.pop (h : c.Queue (m :: todo))
    (hm' : (c.setNode m y).Ready m → (c.setNode m y).Held m) : (c.setNode m y).Queue todo := by
  have hnodup := h.nodup
  rw [cons_append, nodup_cons, mem_append] at hnodup
  refine ⟨?_, ?_, ?_, hnodup.2⟩
  · intro n hn
    by_cases hnm : n = m
    · subst hnm
      exact Or.inr (Or.inr (hm' hn))
    · rw [held_setNode_of_ne c y hnm]
      rcases h.waiting n ((ready_setNode_of_ne c y hnm).mp hn) with ht | hrest
      · exact Or.inl ((mem_cons.mp ht).resolve_left hnm)
      · exact Or.inr hrest
  · intro n hn
    have hnm : n ≠ m := by
      rintro rfl
      exact hnodup.1 (Or.inl hn)
    exact (ready_setNode_of_ne c y hnm).mpr (h.ready n (mem_cons_of_mem _ hn))
  · intro a ha
    have hnm : a.target ≠ m := by
      intro heq
      refine hnodup.1 (Or.inr ?_)
      rw [← heq]
      exact mem_map_of_mem ha
    exact ⟨(h.runs a ha).1, (ready_setNode_of_ne c y hnm).mpr (h.runs a ha).2⟩

/-- The queue reads the slots and the deferred actions only. -/
theorem Queue.of_nodes (h : c.Queue todo) (hn : c'.nodes = c.nodes)
    (hd : c'.deferred = c.deferred) : c'.Queue todo := by
  have hready : ∀ n, c'.Ready n ↔ c.Ready n := by
    intro n
    unfold Ready owed
    rw [hn]
  have hheld : ∀ n, c'.Held n ↔ c.Held n := by
    intro n
    unfold Held
    rw [hn]
  refine ⟨?_, ?_, ?_, ?_⟩
  · intro n hr
    rw [hd, hheld]
    exact h.waiting n ((hready n).mp hr)
  · intro n hmem
    exact (hready n).mpr (h.ready n hmem)
  · intro a ha
    rw [hd] at ha
    exact ⟨(h.runs a ha).1, (hready _).mpr (h.runs a ha).2⟩
  · rw [hd]
    exact h.nodup

/-! ### The delivery loop -/

/-- A value taken in while a delivery is in flight: the decision to run is
    deferred once nothing is pending. -/
theorem receive_data {x : Node V S} (ht : x.Tame) (deliveryId i : Nat) (v : V) :
    x.receive deliveryId true i (.data v) =
      (let x₁ := ({ x with dep := x.dep.took deliveryId i v } : Node V S).noteSkippedWave
      (x₁, if x₁.dep.pending = 0 then { fireDemand := true, deferMaybeRun := true } else {})) := by
  unfold Node.receive
  rw [ht.running]
  simp only [Bool.false_eq_true, ↓reduceIte, Node.receiveData, ht.unrestored i]
  unfold Node.settleReceived
  dsimp only
  rw [show ({ x with dep := x.dep.took deliveryId i v } : Node V S) = _ from rfl]
  unfold DepState.took
  dsimp only
  split_ifs
  · simp only [Node.setMaybeRunAction, ↓reduceIte]
  · rfl

/-- Remembering a skipped wave sets one flag, and only of a paused node. -/
theorem noteSkippedWave_eq {x : Node V S} (hquiet : x.pullQuiet = false) :
    ∃ b, x.noteSkippedWave = { x with aux := { x.aux with pausedDepWaveOccurred := b } } ∧
      (b = true → x.aux.pausedDepWaveOccurred = true ∨ x.isPaused = true) := by
  unfold Node.noteSkippedWave
  split_ifs with h
  · refine ⟨true, rfl, ?_⟩
    intro _
    rcases h.2.2.2 with hp | hp
    · exact Or.inr hp
    · rw [hquiet] at hp
      cases hp
  · exact ⟨x.aux.pausedDepWaveOccurred, rfl, Or.inl⟩

/-- What a delivery changes: dep bookkeeping, skipped-wave flags and the
    deferred actions. -/
structure Delivered (c₁ c : Config V S) : Prop where
  graph : SameGraph c₁ c
  depth : c.depth = c₁.depth
  value : ∀ n, (c.nodes n).value = (c₁.nodes n).value
  wave : ∀ n, (c.nodes n).wave = (c₁.nodes n).wave
  log : ∃ es, c.log = es ++ c₁.log ∧ ∀ e ∈ es, e.Telling fun _ m => m ≠ .dirty

theorem Delivered.owed (h : Delivered c c') (n : NodeId) : c'.owed n = c.owed n := by
  unfold Config.owed
  rw [h.wave]

theorem Delivered.cache (h : Delivered c c') (n : NodeId) : c'.cache n = c.cache n := by
  unfold Config.cache
  rw [h.value]

/-- The invariant of the delivery loop of `n`. -/
structure Delivering (compute : FnId → List (Option V) → Except String V) (rank : NodeId → Nat)
    (n : NodeId) (v : V) (todo : List NodeId) (c₁ c : Config V S)
    (late : List (NodeId × Nat)) : Prop where
  running : c.mode = .running
  wired : c.Wired rank
  ledger : c.Ledger compute [] late
  nodup : late.Nodup
  leaves : ∀ e ∈ late, c.DepAt e.1 e.2 n
  emitted : c.owed n = false
  holds : c.cache n = some v
  queue : c.Queue todo
  inFlight : c.deliveryInFlight = true
  change : Delivered c₁ c

variable {v : V} {c₁ : Config V S}

/-- The invariant does not read the wave scope, and the log only for deliveries. -/
theorem Delivering.of_nodes {late : List (NodeId × Nat)}
    (h : Delivering compute rank n v todo c₁ c late) (hg : SameGraph c c')
    (hn : c'.nodes = c.nodes) (hm : c'.mode = c.mode) (hd : c'.deferred = c.deferred)
    (hdepth : c'.depth = c.depth)
    (hl : ∃ es, c'.log = es ++ c.log ∧ ∀ e ∈ es, e.Telling fun _ m => m ≠ .dirty) :
    Delivering compute rank n v todo c₁ c' late := by
  rcases h.change.log with ⟨es, hes, he⟩
  rcases hl with ⟨es', hes', he'⟩
  refine ⟨hm.trans h.running, hg.wired h.wired, h.ledger.of_nodes hn, h.nodup, ?_, ?_, ?_,
    h.queue.of_nodes hn hd, ?_, ⟨h.change.graph.trans hg, hdepth.trans h.change.depth, ?_, ?_,
      ⟨es' ++ es, by rw [hes', hes, append_assoc], ?_⟩⟩⟩
  · intro e hmem
    exact (hg.depAt _ _ _).mpr (h.leaves e hmem)
  · unfold owed
    rw [hn]
    exact h.emitted
  · unfold cache
    rw [hn]
    exact h.holds
  · unfold deliveryInFlight
    rw [hdepth]
    exact h.inFlight
  · rw [hn]
    exact h.change.value
  · rw [hn]
    exact h.change.wave
  · intro e hmem
    rcases mem_append.mp hmem with hmem | hmem
    · exact he' e hmem
    · exact he e hmem

theorem Delivering.receive {late : List (NodeId × Nat)}
    {i : Nat} {b : Bool} (h : Delivering compute rank n v todo c₁ c ((m, i) :: late))
    (hb : b = true → (c.nodes m).aux.pausedDepWaveOccurred = true ∨ (c.nodes m).isPaused = true) :
    let y : Node V S := { c.nodes m with
      dep := (c.nodes m).dep.took c.currentDeliveryId i v
      aux := { (c.nodes m).aux with pausedDepWaveOccurred := b } }
    Delivering compute rank n v todo c₁
      (if y.dep.pending = 0 then (c.setNode m y).deferAction ⟨.run, m⟩ else c.setNode m y)
      late := by
  intro y
  have hat := h.leaves (m, i) mem_cons_self
  have hmem := (nodup_cons.mp h.nodup).1
  have hsound := h.ledger.sound m hat.1
  have hi : i < (c.nodes m).deps.length := (List.getElem?_eq_some_iff.mp hat.2).1
  have hdirty : (c.nodes m).dep.dirtyAt i = true :=
    (h.ledger.told m i n hat).mpr (Or.inr mem_cons_self)
  have howed : c.owed m = true := h.ledger.heard m i n hat hdirty
  have hsound' : y.dep.Sound (c.nodes m).deps.length := hsound.took _ v
  have hg : SameGraph c (c.setNode m y) := .setNode rfl
  have hwave : ∀ k, ((c.setNode m y).nodes k).wave = (c.nodes k).wave := by
    intro k
    by_cases hk : k = m
    · rw [hk, setNode_self]
    · rw [setNode_of_ne c y hk]
  have hvalue : ∀ k, ((c.setNode m y).nodes k).value = (c.nodes k).value := by
    intro k
    by_cases hk : k = m
    · rw [hk, setNode_self]
    · rw [setNode_of_ne c y hk]
  have howeds : ∀ k, (c.setNode m y).owed k = c.owed k := by
    intro k
    unfold owed
    rw [hwave]
  have hledger : (c.setNode m y).Ledger compute [] late := by
    refine h.ledger.receive (b := false) (l := some v) hat rfl rfl rfl hsound'
      (DepState.dirtyAt_took _ _ i v) (DepState.latest_took hsound hi _ v) ?_ ?_ howed
      ?_ (fun e _ => Iff.rfl) ?_
    · simp [h.emitted, hmem]
    · intro _
      rw [h.holds]
    · intro hf
      rcases hb hf with hf | hf
      · exact (h.ledger.flagged m hat.1 hf).2.1
      · exact hf
    · intro e he
      simp [he]
  have hnot : ¬ c.Ready m := by
    intro hr
    rw [hr.2.2.2 i] at hdirty
    cases hdirty
  -- Everything but the queue is the same in both cases.
  have hmost : ∀ c₂ : Config V S, c₂.Queue todo → c₂.nodes = (c.setNode m y).nodes →
      c₂.mode = c.mode → c₂.depth = c.depth → c₂.log = c.log → SameGraph c c₂ →
      Delivering compute rank n v todo c₁ c₂ late := by
    intro c₂ hq hn hm hdep hlog hg₂
    refine ⟨hm.trans h.running, hg₂.wired h.wired, hledger.of_nodes hn,
      (nodup_cons.mp h.nodup).2, ?_, ?_, ?_, hq, ?_, ⟨h.change.graph.trans hg₂,
      hdep.trans h.change.depth, ?_, ?_, by rw [hlog]; exact h.change.log⟩⟩
    · intro e he
      exact (hg₂.depAt _ _ _).mpr (h.leaves e (mem_cons_of_mem _ he))
    · rw [owed, hn]
      exact (howeds n).trans h.emitted
    · rw [cache, hn, hvalue]
      exact h.holds
    · unfold deliveryInFlight
      rw [hdep]
      exact h.inFlight
    · intro k
      rw [hn, hvalue]
      exact h.change.value k
    · intro k
      rw [hn, hwave]
      exact h.change.wave k
  split_ifs with hp
  · have hready : (c.setNode m y).Ready m := by
      refine ⟨?_, ?_, ?_, ?_⟩
      · rw [hg.live]
        exact hat.1
      · rw [hg.deps]
        intro hnil
        rw [hnil] at hi
        exact absurd hi (Nat.not_lt_zero i)
      · rw [howeds]
        exact howed
      · rw [setNode_self]
        exact hsound'.pending_eq_zero.mp hp
    have hdefer := h.queue.defer hnot hready
    refine hmost _ hdefer ?_ ?_ ?_ ?_ ?_
    all_goals unfold deferAction
    all_goals split_ifs
    all_goals first | rfl | exact ⟨hg.rim, hg.shape, hg.wave⟩
  · refine hmost _ (h.queue.setNode hnot ?_) rfl rfl rfl rfl hg
    intro hr
    refine hp (hsound'.pending_eq_zero.mpr ?_)
    intro j
    have := hr.2.2.2 j
    rw [setNode_self] at this
    exact this

/-- A push node has no demand to serve. -/
theorem exec_fireOwedDemand (hm : c.mode = .running) (ht : (c.nodes m).Tame) :
    Exec env [.fireOwedDemandIfReady m] c c := by
  refine Exec.enter c [] hm ?_ Exec.nil
  intro rest
  have hno : ((c.popTo rest).nodes m).canFireDemand = false := ht.canFireDemand
  simp only [Config.enter, fireOwedDemandIfReady, hno, Bool.not_false, Bool.or_true, ↓reduceIte]
  rfl

/-- The delivery loop: the value goes out on the given subscriptions. -/
theorem exec_deliver (henv : env.Computes compute) :
    ∀ (subs : List SubscriberEntry) (c : Config V S) (L : List (NodeId × Nat)),
      Delivering compute rank n v todo c₁ c (c.edgesOf subs ++ L) →
      ∃ c', Delivering compute rank n v todo c₁ c' L ∧ (∃ es, c'.log = es ++ c.log ∧
        ∀ e ∈ subs, .delivered n e.id e.sink (.data v) ∈ es) ∧
        Exec env [.emit n (.data v) subs] c c' := by
  refine exec_emit henv c₁.boxes (Delivering compute rank n v todo c₁)
    (fun c L h => h.running) (fun c L h => h.change.graph.boxes) ?_ ?_ ?_
  · intro c L m i h
    have hat := h.leaves (m, i) mem_cons_self
    exact ⟨hat.1, hat.hasDepIndex (h.ledger.sound m hat.1).dirty⟩
  · intro c L e h
    exact h.of_nodes ⟨rfl, fun _ => rfl, rfl⟩ rfl rfl rfl rfl
      ⟨[.delivered n e.id e.sink (.data v)], rfl, by simp [Event.Telling]⟩
  · intro c L m i h
    have hat := h.leaves (m, i) mem_cons_self
    have hreceive := receive_data (h.wired.tame m hat.1) c.currentDeliveryId i v
    rcases waveRegister_eq c m with ⟨w, hw, hsome⟩
    have hreg : Delivering compute rank n v todo c₁ ({ c with wave := w } : Config V S)
        ((m, i) :: L) :=
      h.of_nodes ⟨rfl, fun _ => rfl, hsome⟩ rfl rfl rfl rfl ⟨[], rfl, by simp⟩
    have hquiet : ({ c.nodes m with dep := (c.nodes m).dep.took c.currentDeliveryId i v } :
        Node V S).pullQuiet = false := (h.wired.tame m hat.1).pullQuiet
    rcases noteSkippedWave_eq hquiet with ⟨b, hb, hset⟩
    have hnext := hreg.receive (b := b) hset
    dsimp only at hnext
    unfold received receivedFrames
    rw [hw, h.inFlight, hreceive, hb]
    dsimp only
    set y : Node V S := { c.nodes m with
      dep := (c.nodes m).dep.took c.currentDeliveryId i v
      aux := { (c.nodes m).aux with pausedDepWaveOccurred := b } } with hy
    set c₂ := ({ c with wave := w } : Config V S).setNode m y with hc₂
    by_cases hp : y.dep.pending = 0
    · have hframes : (if ((c.nodes m).dep.took c.currentDeliveryId i v).pending = 0 then
          ({ fireDemand := true, deferMaybeRun := true } : ReceiveAction V) else {}).frames m =
          [.deferRun m, .fireOwedDemandIfReady m] := by
        rw [if_pos hp]
        rfl
      rw [if_pos hp] at hnext
      rw [hframes]
      refine ⟨_, hnext, ?_, ?_⟩
      · refine ⟨[], ?_⟩
        unfold deferAction
        split_ifs <;> rfl
      · refine Exec.enter (c₂.deferAction ⟨.run, m⟩) [] h.running ?_ ?_
        · intro rest
          simp only [enter, deferAction]
          have hdef : (c₂.popTo rest).deferred = c₂.deferred := rfl
          rw [hdef]
          split_ifs <;> rfl
        · exact exec_fireOwedDemand hnext.running
            (hnext.wired.tame m ((hnext.change.graph.live m).trans
              ((h.change.graph.live m).symm.trans hat.1)))
    · have hframes : (if ((c.nodes m).dep.took c.currentDeliveryId i v).pending = 0 then
          ({ fireDemand := true, deferMaybeRun := true } : ReceiveAction V) else {}).frames m =
          [] := by
        rw [if_neg hp]
        rfl
      rw [if_neg hp] at hnext
      rw [hframes]
      exact ⟨_, hnext, ⟨[], rfl⟩, Exec.nil⟩

end Config

end GraphRefly
