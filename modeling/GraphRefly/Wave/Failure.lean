import GraphRefly.Wave.Pause

/-!
# A Failing Fn

A fn that panics aborts the whole cascade: the panic unwinds to the wave owner,
which recovers the flags of every node the wave touched, discards the deferred
runs, and emits ERROR from the node whose fn failed. ERROR terminates the
consumers of a node before it reaches theirs, so the number of nodes that are
not terminated falls along the cascade, and nothing outside the nodes
downstream of the failed one changes.

What a sibling branch holds afterwards depends on whether its runs were made
before the panic: those that were made have settled, those still deferred are
discarded.

## Main definitions

* `Errs`: What the ERROR cascade changes.
* `Ruined`: Where it starts.
* `SettledBy`: A node is up to date and has told its sinks.

## Theorems

* `exec_error`: The ERROR cascade.
* `exec_failed`: The recovery of the wave owner.
* `failure_isolated`: What is left after a failing `set`.
-/

namespace GraphRefly

open List

variable {V S : Type}

/-- What an ERROR cascade never changes of a slot; of the bookkeeping, its
    size. -/
def Node.fixed (x : Node V S) : Node V S :=
  { live := x.live
    deps := x.deps
    config := x.config
    handle := x.handle
    dep := DepState.new x.dep.dirty.length
    aux := { subscribers := x.aux.subscribers } }

namespace Config

variable {env : Env V S} {compute : FnId → List (Option V) → Except String V}
  {rank : NodeId → Nat} {c c' c'' : Config V S} {p s : NodeId}

/-- What the ERROR cascade changes: nothing outside the nodes downstream of its
    origin, and nothing a terminated node holds. -/
structure Errs (p : NodeId) (c c' : Config V S) : Prop where
  mode : c'.mode = c.mode
  wave : c'.wave = c.wave
  batch : c'.batch = c.batch
  deferred : c'.deferred = c.deferred
  depth : c'.depth = c.depth
  size : c'.size = c.size
  boxes : c'.boxes = c.boxes
  boundary : c'.boundary = c.boundary
  slot : ∀ n, (c'.nodes n).fixed = (c.nodes n).fixed
  outside : ∀ n, ¬ c.Downstream p n → c'.nodes n = c.nodes n
  stays : ∀ n, (c.nodes n).value.terminal = true → (c'.nodes n).value = (c.nodes n).value
  log : ∃ es, c'.log = es ++ c.log ∧ ∀ e ∈ es, e.Telling fun _ m => m ≠ .dirty

namespace Errs

theorem refl (p : NodeId) (c : Config V S) : Errs p c c :=
  ⟨rfl, rfl, rfl, rfl, rfl, rfl, rfl, rfl, fun _ => rfl, fun _ _ => rfl, fun _ _ => rfl,
    ⟨[], rfl, fun _ he => absurd he not_mem_nil⟩⟩

theorem live (h : Errs p c c') (n : NodeId) : (c'.nodes n).live = (c.nodes n).live :=
  (congrArg Node.live (h.slot n) :)

theorem deps (h : Errs p c c') (n : NodeId) : (c'.nodes n).deps = (c.nodes n).deps :=
  (congrArg Node.deps (h.slot n) :)

theorem dirty_length (h : Errs p c c') (n : NodeId) :
    (c'.nodes n).dep.dirty.length = (c.nodes n).dep.dirty.length := by
  have hslot := (congrArg (·.dep.dirty.length) (h.slot n) :)
  simpa only [Node.fixed, DepState.new, length_replicate] using hslot

theorem depAt (h : Errs p c c') (m : NodeId) (i : Nat) (d : NodeId) :
    c'.DepAt m i d ↔ c.DepAt m i d := by
  unfold DepAt
  rw [h.live, h.deps]

theorem downstream (h : Errs p c c') {n m : NodeId} : c'.Downstream n m ↔ c.Downstream n m := by
  have hsame : (fun a b => ∃ i, c'.DepAt b i a) = fun a b => ∃ i, c.DepAt b i a := by
    funext a b
    exact propext (exists_congr fun i => h.depAt b i a)
  unfold Downstream
  rw [hsame]

theorem edges (h : Errs p c c') (d : NodeId) : c'.edges d = c.edges d := by
  have hsubs : (c'.nodes d).aux.subscribers = (c.nodes d).aux.subscribers :=
    (congrArg (·.aux.subscribers) (h.slot d) :)
  unfold Config.edges edgesOf
  rw [hsubs, h.boxes]

theorem trans (h : Errs p c c') (h' : Errs p c' c'') : Errs p c c'' := by
  refine ⟨h'.mode.trans h.mode, h'.wave.trans h.wave, h'.batch.trans h.batch,
    h'.deferred.trans h.deferred, h'.depth.trans h.depth, h'.size.trans h.size,
    h'.boxes.trans h.boxes, h'.boundary.trans h.boundary,
    fun n => (h'.slot n).trans (h.slot n), ?_, ?_, ?_⟩
  · intro n hn
    rw [h'.outside n (fun hd => hn (h.downstream.mp hd)), h.outside n hn]
  · intro n ht
    have hv := h.stays n ht
    rw [h'.stays n (by rw [hv]; exact ht), hv]
  · rcases h.log with ⟨es, hes, he⟩
    rcases h'.log with ⟨es', hes', he'⟩
    refine ⟨es' ++ es, by rw [hes', hes, append_assoc], ?_⟩
    intro e hmem
    rcases mem_append.mp hmem with hmem | hmem
    · exact he' e hmem
    · exact he e hmem

end Errs

variable {n : NodeId}

/-- Replacing a slot downstream of the origin that is not terminated. -/
theorem Errs.setNode {y : Node V S} (hn : c.Downstream p n) (hy : y.fixed = (c.nodes n).fixed)
    (hv : (c.nodes n).value.terminal = true → y.value = (c.nodes n).value) :
    Errs p c (c.setNode n y) := by
  refine ⟨rfl, rfl, rfl, rfl, rfl, rfl, rfl, rfl, ?_, ?_, ?_,
    ⟨[], rfl, fun _ he => absurd he not_mem_nil⟩⟩
  · intro m
    by_cases hm : m = n
    · rw [hm, setNode_self, hy]
    · rw [setNode_of_ne c y hm]
  · intro m hd
    refine setNode_of_ne c y ?_
    rintro rfl
    exact hd hn
  · intro m ht
    by_cases hm : m = n
    · subst hm
      rw [setNode_self, hv ht]
    · rw [setNode_of_ne c y hm]

/-- Where the ERROR cascade starts: outside any wave and any batch, on default
    nodes of the synchronous pool. -/
structure Ruined (c : Config V S) : Prop where
  running : c.mode = .running
  wave : c.wave = none
  batch : c.batch = none
  deferred : c.deferred = []
  mild : ∀ n, (c.nodes n).live = true → (c.nodes n).config = {} ∧ (c.nodes n).isAsync = false
  edge : ∀ d, (c.nodes d).live = true → ∀ m i, (m, i) ∈ c.edges d → c.DepAt m i d
  bounded : ∀ n, (c.nodes n).live = true → n < c.size
  sized : ∀ n, (c.nodes n).live = true → (c.nodes n).dep.dirty.length = (c.nodes n).deps.length

theorem Ruined.of_errs (h : c.Ruined) (he : Errs p c c') : c'.Ruined := by
  refine ⟨he.mode.trans h.running, he.wave.trans h.wave, he.batch.trans h.batch,
    he.deferred.trans h.deferred, ?_, ?_, ?_, ?_⟩
  · intro n hl
    have hm := h.mild n (by rw [← he.live]; exact hl)
    have hconfig : (c'.nodes n).config = (c.nodes n).config := (congrArg Node.config (he.slot n) :)
    have hhandle : (c'.nodes n).handle = (c.nodes n).handle := (congrArg Node.handle (he.slot n) :)
    unfold Node.isAsync at hm ⊢
    rw [hconfig, hhandle]
    exact hm
  · intro d hl m i hmem
    rw [he.edges] at hmem
    exact (he.depAt m i d).mpr (h.edge d (by rw [← he.live]; exact hl) m i hmem)
  · intro n hl
    rw [he.size]
    exact h.bounded n (by rw [← he.live]; exact hl)
  · intro n hl
    rw [he.dirty_length, he.deps]
    exact h.sized n (by rw [← he.live]; exact hl)

/-- The nodes that are not terminated. -/
def untold (c : Config V S) : Finset NodeId :=
  (Finset.range c.size).filter fun n => (c.nodes n).value.terminal = false

theorem untold_le (h : Errs p c c') : c'.untold.card ≤ c.untold.card := by
  refine Finset.card_le_card ?_
  intro n hn
  unfold untold at hn ⊢
  rw [Finset.mem_filter, h.size] at hn
  rw [Finset.mem_filter]
  refine ⟨hn.1, ?_⟩
  by_contra hcon
  rw [Bool.not_eq_false] at hcon
  have hterm := hn.2
  rw [h.stays n hcon, hcon] at hterm
  cases hterm

theorem untold_lt (h : Errs p c c') (hn : n < c.size)
    (ht : (c.nodes n).value.terminal = false) (ht' : (c'.nodes n).value.terminal = true) :
    c'.untold.card < c.untold.card := by
  refine lt_of_le_of_ne (untold_le h) ?_
  intro heq
  have hsub : c'.untold ⊆ c.untold := by
    intro m hm
    unfold untold at hm ⊢
    rw [Finset.mem_filter, h.size] at hm
    rw [Finset.mem_filter]
    refine ⟨hm.1, ?_⟩
    by_contra hcon
    rw [Bool.not_eq_false] at hcon
    have hterm := hm.2
    rw [h.stays m hcon, hcon] at hterm
    cases hterm
  have hmem : n ∈ c.untold := by
    unfold untold
    rw [Finset.mem_filter, Finset.mem_range]
    exact ⟨hn, ht⟩
  rw [← Finset.eq_of_subset_of_card_le hsub (le_of_eq heq.symm)] at hmem
  unfold untold at hmem
  rw [Finset.mem_filter, ht'] at hmem
  cases hmem.2

/-! ### The ERROR cascade -/

/-- The deliveries of an ERROR wave: the edges in the list have still to be told. -/
structure Telling (p n : NodeId) (k : Nat) (c₀ c : Config V S) (L : List (NodeId × Nat))
    : Prop where
  ruined : c.Ruined
  errs : Errs p c₀ c
  fuel : c.untold.card ≤ k
  edges : ∀ e ∈ L, c.DepAt e.1 e.2 n

theorem Errs.record {sub : Nat} {sink : Sink} {m : Message V} (hm : m ≠ .dirty) :
    Errs p c (c.record (.delivered n sub sink m)) :=
  ⟨rfl, rfl, rfl, rfl, rfl, rfl, rfl, rfl, fun _ => rfl, fun _ _ => rfl, fun _ _ => rfl,
    ⟨[.delivered n sub sink m], rfl, by simpa [Event.Telling] using hm⟩⟩

theorem setNode_same (c : Config V S) (n : NodeId) : c.setNode n (c.nodes n) = c := by
  unfold Config.setNode
  rw [Function.update_eq_self]

/-- A node of default options on the synchronous pool buffers nothing and owes
    no demand. -/
theorem Ruined.plain (h : c.Ruined) (hl : (c.nodes n).live = true) :
    (c.nodes n).shouldBufferOnPause = false ∧ (c.nodes n).canFireDemand = false := by
  rcases h.mild n hl with ⟨hconfig, hsync⟩
  unfold Node.shouldBufferOnPause Node.canFireDemand Node.pullQuiet
  rw [hconfig, hsync]
  simp

/-- Which delivery is in flight does not matter to a cascade. -/
theorem Errs.relevel (h : Errs p c c') (depth id next id' next' : Nat) :
    Errs p { c with depth := depth, currentDeliveryId := id, nextDeliveryId := next }
      { c' with depth := depth, currentDeliveryId := id', nextDeliveryId := next' } :=
  ⟨h.mode, h.wave, h.batch, h.deferred, rfl, h.size, h.boxes, h.boundary, h.slot, h.outside,
    h.stays, h.log⟩

theorem Ruined.down_error (h : c.Ruined) (hl : (c.nodes n).live = true)
    (ht : (c.nodes n).value.terminal = false) (e : String) (rest : List (Frame V)) :
    (c.popTo rest).down n [.error e] = c.popTo
      ([.deliveryScope n [.error e], .downEnd n (c.nodes n).wave.insideRunWave] ++ rest) := by
  have hsort : collapseInvalidate (sortByTier [(Message.error e : Message V)]) = [.error e] := rfl
  have hterm : ((c.popTo rest).nodes n).value.terminal = false := ht
  have hreg : (c.popTo rest).waveRegister n = c.popTo rest := by
    have hw : (c.popTo rest).wave = none := h.wave
    rw [waveRegister, hw]
  have hb : (c.popTo rest).collectingBatch = false := by
    have hbatch : (c.popTo rest).batch = none := h.batch
    rw [collectingBatch, hbatch]
  have hbuf : ((c.popTo rest).nodes n).shouldBufferOnPause = false := (h.plain hl).1
  unfold down downUnbatched downEmit
  simp only [hterm, Bool.false_eq_true, ↓reduceIte, hreg, hb, hsort, Bool.and_false, hbuf]
  simp [Message.isData, Message.isResolved]
  rfl

/-- What ERROR from a dep does to a node of default options. -/
theorem receive_error {x : Node V S} (hconfig : x.config = {}) (id i : Nat) (e : String)
    (inFlight : Bool) : ∃ d : DepState V, d.dirty.length = x.dep.dirty.length ∧
      x.receive id inFlight i (.error e) =
        if x.value.terminal then (x, {})
        else ({ x with dep := d }, { downMsgs := some [.error e], fireDemand := true }) := by
  refine ⟨({ x.dep with
    terminal := x.dep.terminal.set i (some (.error e))
    terminalWave := x.dep.terminalWave.set i (some (.error e)) } : DepState V).undirty i, ?_, ?_⟩
  · unfold DepState.undirty
    split_ifs
    · exact length_set
    · rfl
  unfold Node.receive Node.receiveTerminal
  simp only [hconfig]

/-- ERROR, sent by a node downstream of the origin that is not terminated: it
    terminates the node, and everything else that changes is downstream. The
    induction is on the number of nodes that are not terminated. -/
theorem exec_error (henv : env.Computes compute) (e : String) (k : Nat) :
    ∀ (n : NodeId) (c : Config V S), c.untold.card ≤ k → c.Ruined → (c.nodes n).live = true →
      c.Downstream p n → (c.nodes n).value.terminal = false →
      ∃ c', Exec env [.down n [.error e]] c c' ∧ Errs p c c' ∧
        (c'.nodes n).value.status = .errored ∧ (c'.nodes n).value.terminal = true := by
  induction k using Nat.strong_induction_on with
  | _ k ih =>
    intro n c hk h hl hd ht
    set inside := (c.nodes n).wave.insideRunWave with hinside
    set prev := c.currentDeliveryId with hprev
    -- The state in which the deliveries start: one level deeper, the node terminated.
    set y : Node V S := { c.nodes n with
      value := { (c.nodes n).value with terminal := true, status := .errored }
      aux := Node.sealPull (c.nodes n).aux } with hy
    set c₁ : Config V S := { c with
      currentDeliveryId := c.nextDeliveryId
      nextDeliveryId := max 1 ((c.nextDeliveryId + 1) % 2 ^ 64)
      depth := c.depth + 1 } with hc₁
    set c₂ : Config V S := c₁.setNode n y with hc₂
    have hself : c₂.nodes n = y := setNode_self c₁ n y
    have hset : Errs p c (c.setNode n y) :=
      Errs.setNode hd rfl (fun hterm => by rw [ht] at hterm; cases hterm)
    have hset₁ : Errs p c₁ c₂ := hset.relevel _ _ _ _ _
    have hruined₁ : c₁.Ruined :=
      ⟨h.running, h.wave, h.batch, h.deferred, h.mild, h.edge, h.bounded, h.sized⟩
    have hlt : c₂.untold.card < k := by
      refine lt_of_lt_of_le (untold_lt hset₁ (n := n) (h.bounded n hl) ht ?_) hk
      rw [hself]
    have hedges : ∀ x ∈ c₂.edgesOf y.aux.subscribers ++ [], c₂.DepAt x.1 x.2 n := by
      intro x hx
      rw [append_nil] at hx
      exact (hset₁.depAt _ _ _).mpr (h.edge n hl x.1 x.2 hx)
    have hd₂ : c₂.Downstream p n := hset₁.downstream.mpr hd
    -- The deliveries: a consumer that is not terminated passes the ERROR on.
    have hrecord : ∀ a L (s : SubscriberEntry), Telling p n c₂.untold.card c₂ a L →
        Telling p n c₂.untold.card c₂ (a.record (.delivered n s.id s.sink (.error e))) L := by
      intro a L s htell
      have hrec : Errs p a (a.record (.delivered n s.id s.sink (.error e))) :=
        Errs.record (by simp)
      exact ⟨htell.ruined.of_errs hrec, htell.errs.trans hrec, htell.fuel, htell.edges⟩
    have hedge : ∀ a L m i, Telling p n c₂.untold.card c₂ a ((m, i) :: L) →
        ∃ a', Telling p n c₂.untold.card c₂ a' L ∧ (∃ es, a'.log = es ++ a.log) ∧
          Exec env (a.receivedFrames m i (.error e)) (a.received m i (.error e)) a' := by
      intro a L m i htell
      have hat := htell.edges (m, i) mem_cons_self
      have hrest : ∀ x ∈ L, a.DepAt x.1 x.2 n := fun x hx =>
        htell.edges x (mem_cons_of_mem _ hx)
      have hdm : c₂.Downstream p m :=
        hd₂.tail ⟨i, (htell.errs.depAt m i n).mp hat⟩
      have hda : a.Downstream p m := htell.errs.downstream.mpr hdm
      have hreg : a.waveRegister m = a := by
        rw [waveRegister, htell.ruined.wave]
      rcases receive_error (htell.ruined.mild m hat.1).1 a.currentDeliveryId i e
          a.deliveryInFlight with ⟨d, hsize, hd⟩
      unfold received receivedFrames
      rw [hreg, hd]
      cases hterm : (a.nodes m).value.terminal with
      | true =>
        -- A terminated consumer takes no notice.
        simp only [if_true, setNode_same]
        exact ⟨a, ⟨htell.ruined, htell.errs, htell.fuel, hrest⟩, ⟨[], rfl⟩, Exec.nil⟩
      | false =>
        simp only [Bool.false_eq_true, if_false]
        set a₁ := a.setNode m { a.nodes m with dep := d } with ha₁
        have hfixed : ({ a.nodes m with dep := d } : Node V S).fixed = (a.nodes m).fixed := by
          simp only [Node.fixed, hsize]
        have hmark : Errs p a a₁ := Errs.setNode hda hfixed (fun _ => rfl)
        have hself₁ : (a₁.nodes m).value = (a.nodes m).value := by
          rw [ha₁, setNode_self]
        have hcard : a₁.untold.card ≤ c₂.untold.card :=
          le_trans (untold_le hmark) htell.fuel
        rcases ih _ hlt m a₁ hcard (htell.ruined.of_errs hmark)
            (by rw [hmark.live]; exact hat.1) (hmark.downstream.mpr hda)
            (by rw [hself₁]; exact hterm) with ⟨a₂, hex, herrs, -, -⟩
        have hall : Errs p a a₂ := hmark.trans herrs
        have hruined := htell.ruined.of_errs hall
        refine ⟨a₂, ⟨hruined, htell.errs.trans hall, le_trans (untold_le herrs) hcard, ?_⟩,
          ?_, ?_⟩
        · intro x hx
          exact (hall.depAt _ _ _).mpr (hrest x hx)
        · rcases hall.log with ⟨es, hes, -⟩
          exact ⟨es, hes⟩
        · have hdemand := (hruined.plain (n := m) (by rw [hall.live]; exact hat.1)).2
          have hquiet : Exec env [.fireOwedDemandIfReady m] a₂ a₂ := by
            refine Exec.enter a₂ [] hruined.running ?_ Exec.nil
            intro rest
            have hno : ((a₂.popTo rest).nodes m).canFireDemand = false := hdemand
            simp only [enter, fireOwedDemandIfReady, hno, Bool.not_false, Bool.or_true,
              ↓reduceIte]
            rfl
          exact Exec.append hex hquiet
    rcases exec_emit (n := n) henv c₂.boxes (Telling p n c₂.untold.card c₂)
        (fun a _ ht => ht.ruined.running) (fun a _ ht => ht.errs.boxes)
        (fun a L m i ht => have hat := ht.edges (m, i) mem_cons_self
          ⟨hat.1, hat.hasDepIndex (ht.ruined.sized m hat.1)⟩) hrecord hedge
        y.aux.subscribers c₂ [] ⟨hruined₁.of_errs hset₁, Errs.refl p c₂, le_refl _, hedges⟩ with
      ⟨c₃, htell, _, hex⟩
    set c₄ : Config V S := { c₃ with depth := c.depth, currentDeliveryId := prev } with hc₄
    have herrs : Errs p c c₄ :=
      hset.trans (htell.errs.relevel c.depth c.currentDeliveryId c.nextDeliveryId prev _)
    have hvalue : (c₄.nodes n).value = y.value := by
      have hstays := htell.errs.stays n (by rw [hself])
      rw [hself] at hstays
      exact hstays
    have hleave : c₃.leaveDelivery prev = c₄ := by
      unfold leaveDelivery
      rw [htell.errs.depth]
      rfl
    have hruined₄ : c₄.Ruined := h.of_errs herrs
    -- Leaving the scope drains nothing, since nothing was deferred.
    have hguard : Exec env [.deliveryGuard prev] c₃ c₄ := by
      by_cases hone : c₃.depth = 1
      · refine Exec.enter c₄ [.drainDeferredRuns] htell.ruined.running ?_ ?_
        · intro rest
          have hone' : (c₃.popTo rest).depth = 1 := hone
          simp only [enter, deliveryGuard, hone', ↓reduceIte]
          rw [← hleave]
          rfl
        · refine Exec.enter c₄ [] hruined₄.running ?_ Exec.nil
          intro rest
          have hnone : (c₄.popTo rest).deferred = [] := hruined₄.deferred
          simp only [enter, drainDeferredRuns, hnone, isEmpty_nil, ↓reduceIte]
          rfl
      · refine Exec.enter c₄ [] htell.ruined.running ?_ Exec.nil
        intro rest
        have hone' : ¬ (c₃.popTo rest).depth = 1 := hone
        simp only [enter, deliveryGuard, hone', ↓reduceIte]
        rw [← hleave]
        rfl
    have hbody : ∀ c', Exec env [.downEnd n inside] c₄ c' →
      Exec env [.down n [.error e]] c c' := by
      intro c' hend
      refine Exec.enter c [.deliveryScope n [.error e], .downEnd n inside] h.running
        (h.down_error hl ht e) ?_
      refine Exec.enter c₁ [.downLoop n [.error e], .deliveryGuard prev] h.running
        (fun _ => rfl) ?_
      refine Exec.enter c₂ [.emit n (.error e) y.aux.subscribers, .downLoop n []] h.running ?_ ?_
      · intro rest
        have hterm : ((c₁.popTo rest).nodes n).value.terminal = false := ht
        simp only [enter, downLoop, Node.collectDown, hterm, Bool.false_eq_true, ↓reduceIte]
        rfl
      · refine Exec.cons hex (Exec.enter c₃ [] htell.ruined.running (fun _ => rfl) ?_)
        exact Exec.cons hguard hend
    have hclear : Errs p c₄ (c₄.setNode n { c₄.nodes n with
        wave := { (c₄.nodes n).wave with
          emittedDirtyThisWave := false
          emittedTier3ThisWave := false } }) :=
      Errs.setNode (herrs.downstream.mpr hd) rfl (fun _ => rfl)
    cases hin : inside with
    | true =>
      refine ⟨c₄, hbody c₄ (Exec.enter c₄ [] hruined₄.running ?_ Exec.nil), herrs, ?_, ?_⟩
      · intro rest
        simp only [enter, downEnd, hin, ↓reduceIte]
        rfl
      · rw [hvalue]
      · rw [hvalue]
    | false =>
      refine ⟨_, hbody _ (Exec.enter _ [] hruined₄.running ?_ Exec.nil), herrs.trans hclear,
        ?_, ?_⟩
      · intro rest
        simp only [enter, downEnd, hin, Bool.false_eq_true, ↓reduceIte]
        rfl
      · rw [setNode_self, hvalue]
      · rw [setNode_self, hvalue]

/-! ### The wave owner recovers -/

section

variable (c : Config V S)

/-- The state that the recovery emits in: the touched nodes have their flags
    reset, and the deferred runs are gone. -/
def recovering : Config V S :=
  { c.resetTouched c.touchedNodes with deferred := [], wave := none, mode := .running }

theorem recovering_nodes (n : NodeId) :
    c.recovering.nodes n = c.nodes n ∨ c.recovering.nodes n = (c.nodes n).resetWaveFlags := by
  unfold recovering resetTouched
  dsimp only
  split_ifs
  · exact Or.inr rfl
  · exact Or.inl rfl

/-- The recovery keeps what a node holds, and its place in the graph. -/
theorem recovering_kept (n : NodeId) : (c.recovering.nodes n).value = (c.nodes n).value ∧
      (c.recovering.nodes n).live = (c.nodes n).live ∧
      (c.recovering.nodes n).deps = (c.nodes n).deps ∧
      (c.recovering.nodes n).handle = (c.nodes n).handle ∧
      (c.recovering.nodes n).config = (c.nodes n).config ∧
      (c.recovering.nodes n).aux = (c.nodes n).aux := by
  rcases recovering_nodes c n with h | h <;> rw [h] <;> exact ⟨rfl, rfl, rfl, rfl, rfl, rfl⟩

theorem recovering_dirty_length (n : NodeId) :
    (c.recovering.nodes n).dep.dirty.length = (c.nodes n).dep.dirty.length := by
  rcases recovering_nodes c n with h | h
  · rw [h]
  · rw [h]
    exact length_mapIdx

theorem recovering_depAt (m : NodeId) (i : Nat) (d : NodeId) :
    c.recovering.DepAt m i d ↔ c.DepAt m i d := by
  rcases recovering_kept c m with ⟨-, hlive, hdeps, -⟩
  unfold DepAt
  rw [hlive, hdeps]

theorem recovering_downstream {m : NodeId} :
    c.recovering.Downstream n m ↔ c.Downstream n m := by
  have hsame : (fun a b => ∃ i, c.recovering.DepAt b i a) = fun a b => ∃ i, c.DepAt b i a := by
    funext a b
    exact propext (exists_congr fun i => recovering_depAt c b i a)
  unfold Downstream
  rw [hsame]

end

/-- The ERROR cascade of a pure network starts as it should. -/
theorem ruined_recovering (hw : c.Wired rank) (hbatch : c.batch = none)
    (hsound : ∀ n, (c.nodes n).live = true → (c.nodes n).dep.Sound (c.nodes n).deps.length) :
    c.recovering.Ruined := by
  refine ⟨rfl, rfl, hbatch, rfl, ?_, ?_, ?_, ?_⟩
  · intro n hl
    rcases recovering_kept c n with ⟨-, hlive, -, hhandle, hconfig, -⟩
    rw [hlive] at hl
    have htame := hw.tame n hl
    refine ⟨hconfig.trans htame.config, ?_⟩
    have hasync := htame.isAsync
    unfold Node.isAsync at hasync ⊢
    rw [hhandle]
    exact hasync
  · intro d hl m i hmem
    rcases recovering_kept c d with ⟨-, hlive, -, -, -, haux⟩
    rw [hlive] at hl
    have hedges : c.recovering.edges d = c.edges d := by
      unfold edges edgesOf
      rw [haux]
      rfl
    rw [hedges] at hmem
    exact (recovering_depAt c m i d).mpr ((hw.edge d hl m i).mp hmem)
  · intro n hl
    rw [(recovering_kept c n).2.1] at hl
    exact hw.bounded n hl
  · intro n hl
    rw [(recovering_kept c n).2.1] at hl
    rw [recovering_dirty_length, (recovering_kept c n).2.2.1]
    exact (hsound n hl).dirty

/-- The failed wave ends: the panic reaches the wave owner, which recovers and
    sends ERROR from the node whose fn failed. -/
theorem exec_failed (henv : env.Computes compute) (hw : c.Wired rank)
    (hsound : ∀ n, (c.nodes n).live = true → (c.nodes n).dep.Sound (c.nodes n).deps.length)
    (hbatch : c.batch = none) (hboundary : c.boundary = []) (hwave : c.wave.isSome = true)
      (hf : c.FailedAt compute p) :
    ∃ c', Exec env [.waveExit s] c c' ∧ Errs p c.recovering c' ∧
      (c'.nodes p).value.status = .errored := by
  rcases hf with ⟨hl, -, ⟨f, e, -, -, hmode⟩, hblame⟩
  rcases Option.isSome_iff_exists.mp hwave with ⟨w, hw'⟩
  rcases hblame w hw' with ⟨hblamed, htouched⟩
  have hkept := recovering_kept c p
  have hruined := ruined_recovering hw hbatch hsound
  have hterm : (c.recovering.nodes p).value.terminal = false := by
    rw [hkept.1]
    exact (hw.tame p hl).running
  rcases exec_error henv e _ p c.recovering (le_refl _) hruined (by rw [hkept.2.1]; exact hl)
      Relation.ReflTransGen.refl hterm with ⟨c₁, hex, herrs, hstatus, -⟩
  have hruined₁ := hruined.of_errs herrs
  have hboundary₁ : c₁.boundary = [] := herrs.boundary.trans hboundary
  have howner : c.blamedNode s = p := by
    unfold blamedNode
    rw [hw']
    simp only [hblamed]
    rw [if_pos ⟨htouched, hl⟩]
  refine ⟨c₁, ?_, herrs, hstatus⟩
  refine Exec.unwind c.recovering [.down p [.error e], .recoveryCatch s] hmode ?_ ?_
  · intro rest
    have howner' : (c.popTo rest).blamedNode s = p := howner
    simp only [unwind, waveCaught, howner', Payload.toError]
    rfl
  · refine Exec.cons hex ?_
    refine Exec.enter c₁ [.drainBoundary] hruined₁.running ?_ ?_
    · intro rest
      have hself : ({ c₁ with mode := .running, deferred := [] } : Config V S) = c₁ := by
        rw [← hruined₁.running, ← hruined₁.deferred]
      have hcatch : (c₁.popTo rest).recovered =
          (({ c₁ with mode := .running, deferred := [] } : Config V S).popTo rest).waveTail := rfl
      simp only [enter]
      rw [hcatch, hself]
      have hnone : (c₁.popTo rest).batch = none := hruined₁.batch
      simp only [waveTail, boundaryDrainsBlocked, hnone, Option.isSome_none, Bool.false_eq_true,
        ↓reduceIte]
      rfl
    · refine Exec.enter c₁ [] hruined₁.running ?_ Exec.nil
      intro rest
      simp [enter, drainBoundary, popTo, hboundary₁]

/-! ### Failure isolation -/

/-- A run of the node's fn failed among these events. -/
def RunFailed (c : Config V S) (compute : FnId → List (Option V) → Except String V)
    (es : List (Event V)) (p : NodeId) : Prop :=
  ∃ ctx ls f e, .ran p ctx ls ∈ es ∧ (c.nodes p).handle = some (f, .sync) ∧
    compute f (ctx.deps.map (·.latest)) = .error e

/-- The node is up to date, and has told each sink that heard DIRTY. -/
structure SettledBy (c : Config V S) (compute : FnId → List (Option V) → Except String V)
    (es : List (Event V)) (n : NodeId) : Prop where
  fresh : c.Fresh compute n
  status : (c.nodes n).value.status ≠ .dirty
  told : ∀ e ∈ (c.nodes n).aux.subscribers, .delivered n e.id e.sink .dirty ∈ es →
    ∃ v, .delivered n e.id e.sink (.data v) ∈ es

theorem set_recovers (henv : env.Computes compute) (h : c.Idle compute rank)
    (hs : (c.nodes s).live = true) (hsrc : (c.nodes s).deps = []) (v : V) (cb : Callback V) :
    ∃ q c₁ c₂ c', Returns env c.stack (c.perform cb (.down s [.data v])) (c'.popTo c.stack) ∧
      Announced s { c with wave := some {} } c₁ ∧ Emitted s v q c₁ c₂ ∧
      c₂.Ledger compute [] [] ∧ c'.mode = .running ∧
      (q = none → c' = { c₂ with wave := none }) ∧
      (∀ p, q = some p → c₂.FailedAt compute p ∧ Errs p c₂.recovering c' ∧
        (c'.nodes p).value.status = .errored) := by
  set c₀ : Config V S := { c with wave := some {} } with hc₀
  have hrest₀ : c₀.Resting compute rank := h.resting.of_nodes rfl rfl rfl rfl rfl rfl
  have hcollect : c₀.collectingBatch = false := by
    unfold collectingBatch
    rw [show c₀.batch = none from h.batch]
  rcases exec_down henv hrest₀ hs hsrc hcollect v with
    ⟨q, c₁, c₂, hex, -, hann, -, hemit, hledger, hrest₂, hfail⟩
  have hg : SameGraph c₀ c₂ := hann.graph.trans hemit.graph
  rw [perform_set (h.resting.wired.bounded s hs) h.wave hs]
  cases q with
  | none =>
    have hexit : Exec env [.waveExit s] c₂ { c₂ with wave := none } :=
      exec_waveExit (hrest₂ rfl).running (hg.batch.trans h.batch) (hg.boundary.trans h.boundary)
    exact ⟨none, c₁, c₂, _, Exec.append hex hexit c.stack, hann, hemit, hledger,
      (hrest₂ rfl).running, fun _ => rfl, fun p hp => by cases hp⟩
  | some p =>
    rcases exec_failed (s := s) henv (hg.wired hrest₀.wired) hledger.sound
      (hg.batch.trans h.batch)
        (hg.boundary.trans h.boundary) hg.wave (hfail p rfl) with ⟨c', hexit, herrs, hstatus⟩
    refine ⟨some p, c₁, c₂, c', Exec.append hex hexit c.stack, hann, hemit, hledger,
      herrs.mode, fun hq => (by cases hq), ?_⟩
    intro p' hp
    cases hp
    exact ⟨hfail p rfl, herrs, hstatus⟩

/-- Failure isolation: after a `set` in which the fn of `p` fails, `p` has
    failed. A derived node that is not downstream of `p` is settled if it ran
    before the failure or is not downstream of the source; otherwise its
    deferred run was discarded, and it keeps its value. -/
theorem failure_isolated (henv : env.Computes compute) (h : c.Idle compute rank)
    (hawake : ∀ n, (c.nodes n).live = true → (c.nodes n).isPaused = false)
    (hclean : ∀ n, (c.nodes n).live = true → (c.nodes n).value.status ≠ .dirty)
    (hs : (c.nodes s).live = true) (hsrc : (c.nodes s).deps = []) (v : V) (cb : Callback V) :
    ∃ c' es, Returns env c.stack (c.perform cb (.down s [.data v])) c' ∧ c'.mode = .running ∧
      c'.log = es ++ c.log ∧ ∀ p, c.RunFailed compute es p →
        (c'.nodes p).value.status = .errored ∧
        ∀ n, (c.nodes n).live = true → (c.nodes n).deps ≠ [] → ¬ c.Downstream p n →
          (((∃ ctx ls, .ran n ctx ls ∈ es) ∨ ¬ c.Downstream s n) → c'.SettledBy compute es n) ∧
          (¬ (∃ ctx ls, .ran n ctx ls ∈ es) → c'.cache n = c.cache n) := by
  rcases set_recovers henv h hs hsrc v cb with
    ⟨q, c₁, c₂, c', hret, hann, hemit, hledger, hmode, hplain, hfailed⟩
  have hg : SameGraph { c with wave := some {} } c₂ := hann.graph.trans hemit.graph
  rcases hann.log with ⟨es₁, hes₁, htold⟩
  rcases hemit.log with ⟨es₂, hes₂, hcount, hreads, hnodirty, hsinks⟩
  -- The recovery tells no DIRTY and runs nothing.
  have hrecovery : ∃ es₃, c'.log = es₃ ++ c₂.log ∧ ∀ e ∈ es₃, e.Telling fun _ m => m ≠ .dirty := by
    cases q with
    | none =>
      rw [hplain rfl]
      exact ⟨[], rfl, fun _ he => absurd he not_mem_nil⟩
    | some p => exact (hfailed p rfl).2.1.log
  rcases hrecovery with ⟨es₃, hes₃, herrors⟩
  have hran : ∀ n ctx ls, .ran n ctx ls ∈ es₃ ++ (es₂ ++ es₁) → .ran n ctx ls ∈ es₂ := by
    intro n ctx ls hmem
    rcases mem_append.mp hmem with hmem | hmem
    · exact (herrors _ hmem).elim
    · rcases mem_append.mp hmem with hmem | hmem
      · exact hmem
      · exact (htold _ hmem).elim
  -- What ran before the failure has settled.
  have hdone : ∀ n ctx ls, .ran n ctx ls ∈ es₂ → q ≠ some n →
      c₁.owed n = true ∧ c₂.owed n = false ∧ (c.nodes n).live = true ∧ (c.nodes n).deps ≠ [] := by
    intro n ctx ls hmem hq
    have hpos : 0 < es₂.countP (Event.isRunOf n) :=
      countP_pos_iff.mpr ⟨_, hmem, by simp [Event.isRunOf]⟩
    rw [hcount, if_neg hq, Nat.add_zero] at hpos
    by_cases hrun : n ≠ s ∧ c₁.owed n = true ∧ c₂.owed n = false
    · have hderived := hemit.derived n hrun.1 hrun.2.1 hrun.2.2
      rw [hann.graph.live, hann.graph.deps] at hderived
      exact ⟨hrun.2.1, hrun.2.2, hderived⟩
    · rw [if_neg hrun] at hpos
      exact absurd hpos (lt_irrefl 0)
  refine ⟨c'.popTo c.stack, es₃ ++ (es₂ ++ es₁), hret, hmode, ?_, ?_⟩
  · calc c'.log = es₃ ++ c₂.log := hes₃
      _ = (es₃ ++ (es₂ ++ es₁)) ++ c.log := by rw [hes₂, hes₁, append_assoc, append_assoc]
  intro p hp
  -- The run that failed is the one that ended the wave.
  have hq : q = some p := by
    by_contra hq
    rcases hp with ⟨ctx, ls, f, e, hmem, hhandle, hcompute⟩
    have hmem₂ := hran p ctx ls hmem
    rcases hdone p ctx ls hmem₂ hq with ⟨-, hsettled, hlive, hderived⟩
    rcases hledger.coherent p (by rw [hg.live]; exact hlive) (by rw [hg.deps]; exact hderived)
      hsettled with ⟨f', v', hhandle', hvalue, -⟩
    rw [hg.handle, show (({ c with wave := some {} } : Config V S).nodes p).handle = some (f, .sync)
      from hhandle] at hhandle'
    obtain rfl : f = f' := congrArg Prod.fst (Option.some.inj hhandle')
    rw [(hreads p ctx ls hmem₂).1.1, hvalue] at hcompute
    cases hcompute
  rcases hfailed p hq with ⟨-, herrs, hstatus⟩
  refine ⟨hstatus, ?_⟩
  intro n hl hderived hn
  have hsame : ∀ m, ¬ c.Downstream p m → (c'.nodes m).value = (c₂.nodes m).value ∧
      (c'.nodes m).handle = (c₂.nodes m).handle ∧ (c'.nodes m).deps = (c₂.nodes m).deps ∧
      (c'.nodes m).aux = (c₂.nodes m).aux := by
    intro m hm
    have houtside : c'.nodes m = c₂.recovering.nodes m := by
      refine herrs.outside m ?_
      rw [recovering_downstream, hg.downstream]
      exact hm
    rcases recovering_kept c₂ m with ⟨hvalue, -, hdeps, hhandle, -, haux⟩
    rw [houtside]
    exact ⟨hvalue, hhandle, hdeps, haux⟩
  rcases hsame n hn with ⟨hvalue, hhandle, hdeps, haux⟩
  -- A settled node stays settled: the failure reaches neither it nor its deps.
  have hfresh : c₂.owed n = false → c'.Fresh compute n := by
    intro howed
    rcases hledger.coherent n (by rw [hg.live]; exact hl) (by rw [hg.deps]; exact hderived) howed
      with ⟨f, v', hf, hv, hcache⟩
    have hcaches : (c₂.nodes n).deps.map c'.cache = (c₂.nodes n).deps.map c₂.cache := by
      refine map_congr_left fun d hd => ?_
      have hd' : ¬ c.Downstream p d := by
        intro hdown
        rw [hg.deps] at hd
        rcases mem_iff_getElem?.mp hd with ⟨i, hi⟩
        exact hn (hdown.tail ⟨i, hl, hi⟩)
      unfold cache
      rw [(hsame d hd').1]
    refine ⟨f, v', hhandle.trans hf, ?_, ?_⟩
    · rw [hdeps, hcaches]
      exact hv
    · unfold cache at hcache ⊢
      rw [hvalue]
      exact hcache
  have hbefore : c.owed n = false :=
    h.resting.settled hawake h.sources n hl
  refine ⟨?_, ?_⟩
  · rintro (⟨ctx, ls, hmem⟩ | hupstream)
    · have hne : q ≠ some n := by
        rw [hq]
        rintro hpn
        exact hn (Option.some.inj hpn ▸ Relation.ReflTransGen.refl)
      rcases hdone n ctx ls (hran n ctx ls hmem) hne with ⟨ho₁, ho₂, -, -⟩
      refine ⟨hfresh ho₂, ?_, ?_⟩
      · rw [show ((c'.popTo c.stack).nodes n).value = (c'.nodes n).value from rfl, hvalue,
          hemit.settled n ho₁ ho₂]
        exact fun hcon => by cases hcon
      · intro e he _
        have he' : e ∈ (c₁.nodes n).aux.subscribers := by
          rw [← hemit.graph.subscribers, ← haux]
          exact he
        rcases hsinks n ho₁ ho₂ e he' with ⟨v', hv'⟩
        exact ⟨v', mem_append_right _ (mem_append_left _ hv')⟩
    · have ho₁ : c₁.owed n = false := by
        by_contra hcon
        rw [Bool.not_eq_false] at hcon
        rcases hann.fresh n hcon with hold | hdown
        · rw [show c.owed n = true from hold] at hbefore
          cases hbefore
        · exact hupstream hdown
      have hns : n ≠ s := by
        rintro rfl
        exact hupstream Relation.ReflTransGen.refl
      have ho₂ : c₂.owed n = false := by
        by_contra hcon
        rw [Bool.not_eq_false] at hcon
        rw [hemit.owed n hcon] at ho₁
        cases ho₁
      refine ⟨hfresh ho₂, ?_, ?_⟩
      · rw [show ((c'.popTo c.stack).nodes n).value = (c'.nodes n).value from rfl, hvalue,
          (hemit.kept n hns ho₁).1, hann.rest n ho₁]
        exact hclean n hl
      · -- It was told nothing, and told nothing itself.
        intro e _ hmem
        exfalso
        rcases mem_append.mp hmem with hmem | hmem
        · exact herrors _ hmem rfl
        · rcases mem_append.mp hmem with hmem | hmem
          · exact hnodirty _ _ _ hmem
          · exact hupstream (htold _ hmem).2
  · intro hnorun
    -- Whatever has emitted in this wave has run.
    have hkept : (c₂.nodes n).value.cache = (c₁.nodes n).value.cache := by
      have hns : n ≠ s := by
        rintro rfl
        exact hderived hsrc
      cases ho₁ : c₁.owed n with
      | false => rw [(hemit.kept n hns ho₁).1]
      | true =>
        cases ho₂ : c₂.owed n with
        | true => rw [(hemit.waits n hns ho₂).1]
        | false =>
          exfalso
          have hpos : 0 < es₂.countP (Event.isRunOf n) := by
            rw [hcount, if_pos ⟨hns, ho₁, ho₂⟩]
            omega
          rcases countP_pos_iff.mp hpos with ⟨e, he, hrun⟩
          cases e with
          | ran m ctx ls =>
            obtain rfl : m = n := by simpa [Event.isRunOf] using hrun
            exact hnorun ⟨ctx, ls, mem_append_right _ (mem_append_left _ he)⟩
          | _ => cases hrun
    unfold cache
    rw [show ((c'.popTo c.stack).nodes n).value = (c'.nodes n).value from rfl, hvalue, hkept]
    exact hann.cache n

/-- Sums, except that fn 2 refuses more than five. -/
def limited : FnId → List (Option Nat) → Except String Nat :=
  fun f xs => if f = 2 ∧ 5 < (xs.map (·.getD 0)).sum then .error "too large" else .ok (sums f xs)

/-- Three nodes over source 0, subscribed in the order 1, 2, 3. -/
def fan : Env Nat Unit := Env.computing limited fun cb => match cb with
  | .main => [.newNode { initial := some 1 },
      .newNode { deps := [0], handle := some (1, .sync) },
      .newNode { deps := [0], handle := some (2, .sync) },
      .newNode { deps := [0], handle := some (3, .sync) },
      .subscribe 1 1, .subscribe 2 2, .subscribe 3 3]
  | _ => []

/-- The nodes once the subscriptions are made. -/
def fanIdle : Config Nat Unit :=
  initial.run fan 111

/-- The nodes after a `set` that fn 2 refuses. -/
def fanFailed : Config Nat Unit :=
  (fanIdle.perform .main (.down 0 [.data 7])).run fan 73

theorem fanIdle_eval :
    fanIdle.stack.isEmpty = true ∧ fanIdle.size = 4 ∧
      ((fanIdle.nodes 0).live = true ∧ (fanIdle.nodes 1).live = true) ∧
      ((fanIdle.nodes 0).deps = [] ∧ (fanIdle.nodes 1).deps = [0] ∧
        (fanIdle.nodes 3).deps = [0]) ∧
      (fanIdle.nodes 2).handle = some (2, .sync) ∧
      ∀ n < 4, (fanIdle.nodes n).isPaused = false ∧ (fanIdle.nodes n).value.status ≠ .dirty := by
  decide +kernel

/-- The events of the `set` that fn 2 refuses. -/
def fanEvents : List (Event Nat) :=
  fanFailed.log.take 13

/-- What evaluating that `set` shows: it takes 73 steps, node 1 runs before
    node 2, and node 3 does not run. -/
theorem fanFailed_eval :
    (∀ i < 73, ((fanIdle.perform .main (.down 0 [.data 7])).run fan i).stack.isEmpty = false) ∧
      fanFailed.stack.isEmpty = true ∧ fanFailed.log = fanEvents ++ fanIdle.log ∧
      (fanEvents.any fun e => match e with
        | .ran 2 ctx _ => ctx.deps.map (·.latest) = [some 7]
        | _ => false) = true ∧
      (fanEvents.any fun e => match e with
        | .ran 1 _ _ => true
        | _ => false) = true ∧
      (fanFailed.nodes 3).value.status = .dirty ∧ fanFailed.cache 3 = fanIdle.cache 3 := by
  decide +kernel

theorem fanFailed_returns :
    Returns fan fanIdle.stack (fanIdle.perform .main (.down 0 [.data 7])) fanFailed := by
  have hstack : fanIdle.stack = [] := List.isEmpty_iff.mp fanIdle_eval.1
  have hrun : ∀ i < 73, ((fanIdle.perform .main (.down 0 [.data 7])).run fan i).stack ≠ [] := by
    intro i hi hnil
    have := fanFailed_eval.1 i hi
    rw [hnil] at this
    cases this
  rw [hstack]
  exact Returns.of_run fan 73 _ hrun (List.isEmpty_iff.mp fanFailed_eval.2.1)

theorem fanFailed_log : fanFailed.log = fanEvents ++ fanIdle.log := fanFailed_eval.2.2.1

theorem fan_runFailed : fanIdle.RunFailed limited fanEvents 2 := by
  rcases fanFailed_eval with ⟨-, -, -, hran, -⟩
  rcases any_eq_true.mp hran with ⟨e, he, hrun⟩
  rcases fanIdle_eval with ⟨-, -, -, -, hhandle, -⟩
  split at hrun
  · rename_i ctx ls
    refine ⟨ctx, ls, 2, "too large", he, hhandle, ?_⟩
    rw [of_decide_eq_true hrun]
    rfl
  · cases hrun

theorem fan_not_downstream (hn : n ≠ 2) (hsrc : (fanIdle.nodes n).deps = [0]) :
    ¬ fanIdle.Downstream 2 n := by
  intro h
  cases h with
  | refl => exact hn rfl
  | tail h hedge =>
    rcases hedge with ⟨i, hat⟩
    rcases fanIdle_eval with ⟨-, -, -, ⟨hzero, -⟩, -⟩
    cases i with
    | succ i =>
      rw [DepAt, hsrc] at hat
      cases hat.2
    | zero =>
      rw [DepAt, hsrc] at hat
      obtain rfl := Option.some.inj hat.2
      have heq : 0 = 2 := Downstream.eq_of_source h hzero
      cases heq

theorem fanIdle_idle : fanIdle.Idle limited id :=
  idle_run fan 111 (by decide +kernel) (by decide +kernel) (by decide +kernel)

theorem fanIdle_calm (n : NodeId) (hn : (fanIdle.nodes n).live = true) :
    (fanIdle.nodes n).isPaused = false ∧ (fanIdle.nodes n).value.status ≠ .dirty := by
  rcases fanIdle_eval with ⟨-, hsize, -, -, -, hall⟩
  have hlt := fanIdle_idle.resting.wired.bounded n hn
  rw [hsize] at hlt
  exact hall n hlt

/-- Node 1 ran before node 2 failed. -/
theorem failure_isolated_fan :
    (fanFailed.nodes 2).value.status = .errored ∧ fanFailed.SettledBy limited fanEvents 1 := by
  rcases fanIdle_eval with ⟨-, -, ⟨hs, hlive⟩, ⟨hsrc, hdeps, -⟩, -⟩
  rcases failure_isolated (Env.computing_computes _ _) fanIdle_idle
    (fun n hn => (fanIdle_calm n hn).1)
    (fun n hn => (fanIdle_calm n hn).2) hs hsrc 7 .main with ⟨c', es, hret, _, hlog, hfailed⟩
  obtain rfl : c' = fanFailed := hret.unique fanFailed_returns
  obtain rfl : es = fanEvents := append_cancel_right (hlog.symm.trans fanFailed_log)
  rcases hfailed 2 fan_runFailed with ⟨hstatus, hothers⟩
  rcases fanFailed_eval with ⟨-, -, -, -, hran, -⟩
  rcases any_eq_true.mp hran with ⟨e, he, hrun⟩
  refine ⟨hstatus, (hothers 1 hlive (by rw [hdeps]; exact cons_ne_nil _ _)
    (fan_not_downstream (by decide) hdeps)).1 (Or.inl ?_)⟩
  split at hrun
  · exact ⟨_, _, he⟩
  · cases hrun

/-- Node 3 is not downstream of node 2, but its run was still deferred: it is
    left dirty with its old value. -/
theorem sibling_left_stale :
    Returns fan fanIdle.stack (fanIdle.perform .main (.down 0 [.data 7])) fanFailed ∧
      fanFailed.log = fanEvents ++ fanIdle.log ∧ fanIdle.RunFailed limited fanEvents 2 ∧
      ¬ fanIdle.Downstream 2 3 ∧ ¬ fanFailed.SettledBy limited fanEvents 3 ∧
      (fanFailed.nodes 3).value.status = .dirty ∧ fanFailed.cache 3 = fanIdle.cache 3 := by
  rcases fanIdle_eval with ⟨-, -, -, ⟨-, -, hdeps⟩, -⟩
  rcases fanFailed_eval with ⟨-, -, -, -, -, hdirty, hcache⟩
  exact ⟨fanFailed_returns, fanFailed_log, fan_runFailed,
    fan_not_downstream (by decide) hdeps, fun h => h.status hdirty, hdirty, hcache⟩

end Config

end GraphRefly
