import GraphRefly.Wave.Drain

/-!
# A Source Emits

The outermost emission of a wave. The source has announced its change; the
value goes out in a delivery scope, the drain that ends the scope runs what can
run, and the flags of the source are cleared. Afterwards the network is at rest
again: whatever could still run is held by a pause.

## Main definitions

* `Emitted`: What the emission of a source changes.

## Theorems

* `exec_emission`: The emission.
* `Ledger.owed_downstream`: Everything downstream of an owed node is owed.
-/

namespace GraphRefly

variable {V S : Type}

namespace Config

variable {env : Env V S} {compute : FnId → List (Option V) → Except String V}
  {rank : NodeId → Nat} {c c' c'' : Config V S} {q : Option NodeId} {s : NodeId} {v : V}

/-- What the emission of a source changes: the source holds the value, and some
    owed nodes ran, each once. A run that failed is named. -/
structure Emitted (s : NodeId) (v : V) (q : Option NodeId) (c c' : Config V S) : Prop where
  graph : SameGraph c c'
  depth : c'.depth = c.depth
  holds : c'.cache s = some v
  done : c'.owed s = false
  owed : ∀ n, c'.owed n = true → c.owed n = true
  derived : ∀ n, n ≠ s → c.owed n = true → c'.owed n = false →
    (c.nodes n).live = true ∧ (c.nodes n).deps ≠ []
  kept : ∀ n, n ≠ s → c.owed n = false →
    (c'.nodes n).value = (c.nodes n).value ∧ (c'.nodes n).wave = (c.nodes n).wave
  waits : ∀ n, n ≠ s → c'.owed n = true →
    (c'.nodes n).value = (c.nodes n).value ∧ (c'.nodes n).wave = (c.nodes n).wave
  settled : ∀ n, c.owed n = true → c'.owed n = false → (c'.nodes n).value.status = .settled
  log : ∃ es, c'.log = es ++ c.log ∧
    (∀ n, es.countP (Event.isRunOf n) =
      (if n ≠ s ∧ c.owed n = true ∧ c'.owed n = false then 1 else 0) +
        if q = some n then 1 else 0) ∧
    (∀ n ctx ls, .ran n ctx ls ∈ es → c'.Read n ctx ∧ ls = []) ∧
    (∀ n sub sink, .delivered n sub sink .dirty ∉ es) ∧
    (∀ n, c.owed n = true → c'.owed n = false → ∀ e ∈ (c.nodes n).aux.subscribers,
      ∃ v, .delivered n e.id e.sink (.data v) ∈ es)

/-- Everything downstream of an owed node is owed. -/
theorem Ledger.owed_downstream (h : c.Ledger compute [] []) {n m : NodeId}
    (hn : c.owed n = true) (hd : c.Downstream n m) : c.owed m = true := by
  induction hd with
  | refl => exact hn
  | tail _ hedge ih =>
    rcases hedge with ⟨i, hat⟩
    exact h.heard _ i _ hat ((h.told _ i _ hat).mpr (Or.inl ⟨ih, List.not_mem_nil⟩))

theorem SameGraph.downstream (hg : SameGraph c c') {n m : NodeId} :
    c'.Downstream n m ↔ c.Downstream n m := by
  have hsame : (fun a b => ∃ i, c'.DepAt b i a) = fun a b => ∃ i, c.DepAt b i a := by
    funext a b
    exact propext (exists_congr fun i => hg.depAt b i a)
  unfold Downstream
  rw [hsame]

/-- Resting reads the slots, the queue and the graph only. -/
theorem Resting.of_nodes (h : c.Resting compute rank) (hn : c'.nodes = c.nodes)
    (hm : c'.mode = c.mode) (hs : c'.size = c.size) (hb : c'.boxes = c.boxes)
    (hd : c'.deferred = c.deferred) (hdepth : c'.depth = c.depth) : c'.Resting compute rank := by
  have howed : ∀ n, c'.owed n = c.owed n := by
    intro n
    unfold owed
    rw [hn]
  have hedges : ∀ n, c'.edges n = c.edges n := by
    intro n
    unfold edges edgesOf
    rw [hn, hb]
  have hat : ∀ m i d, c'.DepAt m i d ↔ c.DepAt m i d := by
    intro m i d
    unfold DepAt
    rw [hn]
  refine ⟨hm.trans h.running, ⟨?_, ?_, ?_, ?_, ?_, ?_⟩, h.ledger.of_nodes hn, ?_, ?_,
    hd.trans h.deferred, hdepth.trans h.depth⟩
  · rw [hn, hs]
    exact h.wired.bounded
  · rw [hn]
    exact h.wired.tame
  · intro m i d hd
    rw [hn]
    exact h.wired.depsLive m i d ((hat m i d).mp hd)
  · intro m i d hd
    exact h.wired.descends m i d ((hat m i d).mp hd)
  · intro d hl m i
    rw [hn] at hl
    rw [hedges, hat]
    exact h.wired.edge d hl m i
  · intro d hl
    rw [hn] at hl
    rw [hedges]
    exact h.wired.edgesNodup d hl
  · rw [hn]
    exact h.calm
  · intro m hr
    unfold Ready at hr
    unfold Held
    rw [howed] at hr
    rw [hn] at hr ⊢
    exact h.held m hr

theorem Resting.queue (h : c.Resting compute rank) : c.Queue [] := by
  refine ⟨fun m hr => Or.inr (Or.inr (h.held m hr)), fun m hm => absurd hm List.not_mem_nil, ?_, ?_⟩
  · intro a ha
    rw [h.deferred] at ha
    exact absurd ha List.not_mem_nil
  · rw [h.deferred]
    exact List.nodup_nil

/-- The emission, put together: the source holds the value, the drain advances
    the others, the flags of the source are cleared. -/
theorem Advance.emitted {b : Config V S} (hg : SameGraph c b) (hdepth : b.depth = c.depth)
    (hother : ∀ n, n ≠ s → b.nodes n = c.nodes n) (hb : b.owed s = false)
    (hcache : b.cache s = some v) (hstatus : (b.nodes s).value.status = .settled)
    (hlog : b.log = c.log) (ha : Advance q b c')
    (htold : ∃ es, c'.log = es ++ b.log ∧ ∀ e ∈ (c.nodes s).aux.subscribers,
      .delivered s e.id e.sink (.data v) ∈ es)
    (hg' : SameGraph c' c'') (hdepth' : c''.depth = c'.depth) (hlog' : c''.log = c'.log)
    (hother' : ∀ n, n ≠ s → c''.nodes n = c'.nodes n)
    (hvalue : (c''.nodes s).value = (c'.nodes s).value) (hs' : c''.owed s = false) :
    Emitted s v q c c'' := by
  have ho : ∀ n, n ≠ s → b.owed n = c.owed n := by
    intro n hn
    unfold Config.owed
    rw [hother n hn]
  have ho' : ∀ n, n ≠ s → c''.owed n = c'.owed n := by
    intro n hn
    unfold Config.owed
    rw [hother' n hn]
  have hcache' : ∀ n, c''.cache n = c'.cache n := by
    intro n
    by_cases hn : n = s
    · rw [hn, cache, hvalue]
      rfl
    · unfold cache
      rw [hother' n hn]
  have hm' : c'.owed s = false := by
    by_contra hcon
    rw [Bool.not_eq_false] at hcon
    have := ha.owed s hcon
    rw [hb] at this
    cases this
  have hkept := ha.kept s hb
  refine ⟨(hg.trans ha.graph).trans hg', hdepth'.trans (ha.depth.trans hdepth), ?_, hs', ?_, ?_,
    ?_, ?_, ?_, ?_⟩
  · rw [hcache', cache, hkept.1]
    exact hcache
  · intro n hn
    have hne : n ≠ s := by
      rintro rfl
      rw [hs'] at hn
      cases hn
    rw [ho' n hne] at hn
    rw [← ho n hne]
    exact ha.owed n hn
  · intro n hne hn hn'
    rw [← hother n hne]
    exact ha.derived n (by rw [ho n hne, hn]) (by rw [← ho' n hne, hn'])
  · intro n hne hn
    rw [hother' n hne, ← hother n hne]
    exact ha.kept n (by rw [ho n hne, hn])
  · intro n hne hn
    rw [hother' n hne, ← hother n hne]
    exact ha.waits n (by rw [← ho' n hne, hn])
  · intro n hn hn'
    by_cases hne : n = s
    · rw [hne, hvalue, hkept.1]
      exact hstatus
    · rw [hother' n hne]
      exact ha.settled n (by rw [ho n hne, hn]) (by rw [← ho' n hne, hn'])
  · rcases ha.log with ⟨es, hes, hcount, hreads, hclean, htolds⟩
    rcases htold with ⟨es', hes', hsubs⟩
    have heq : es' = es := List.append_cancel_right (hes'.symm.trans hes)
    rw [heq] at hsubs
    refine ⟨es, by rw [hlog', hes, hlog], ?_, ?_, hclean, ?_⟩
    · intro n
      rw [hcount]
      by_cases hne : n = s
      · rw [hne]
        simp [hb]
      · rw [ho n hne, ho' n hne]
        simp [hne]
    · intro n ctx ls hmem
      have hr := hreads n ctx ls hmem
      refine ⟨⟨?_, ?_⟩, hr.2⟩
      · rw [hr.1.1, hg'.deps]
        exact List.map_congr_left (fun d _ => (hcache' d).symm)
      · intro d hd
        rw [hg'.deps] at hd
        by_cases hds : d = s
        · rw [hds]
          exact hs'
        · rw [ho' d hds]
          exact hr.1.2 d hd
    · intro n hn hn' e he
      by_cases hne : n = s
      · subst hne
        exact ⟨v, hsubs e he⟩
      · rw [← hother n hne] at he
        exact htolds n (by rw [ho n hne, hn]) (by rw [← ho' n hne, hn']) e he

/-- An owed source emits its value. -/
theorem exec_emission (henv : env.Computes compute) (h : c.Resting compute rank)
    (hs : (c.nodes s).live = true) (hsrc : (c.nodes s).deps = []) (ho : c.owed s = true) (v : V) :
    ∃ q c', Exec env [.deliveryScope s [.data v], .downEnd s false] c c' ∧ Emitted s v q c c' ∧
      c'.Ledger compute [] [] ∧ (q = none → c'.Resting compute rank) ∧
      ∀ p, q = some p → c'.FailedAt compute p := by
  have htame := h.wired.tame s hs
  have hcalm := h.calm s hs
  have hflags := owed_flags ho
  set prev := c.currentDeliveryId with hprev
  set y : Node V S := { c.nodes s with
    value := { (c.nodes s).value with cache := some v, hasData := true, status := .settled }
    wave := { (c.nodes s).wave with emittedTier3ThisWave := true } } with hy
  set c₃ : Config V S := { c with
    currentDeliveryId := c.nextDeliveryId
    nextDeliveryId := max 1 ((c.nextDeliveryId + 1) % 2 ^ 64)
    depth := c.depth + 1 } with hc₃
  set c₄ : Config V S := { c.setNode s y with
    currentDeliveryId := c.nextDeliveryId
    nextDeliveryId := max 1 ((c.nextDeliveryId + 1) % 2 ^ 64)
    depth := c.depth + 1 } with hc₄
  have hg₄ : SameGraph c c₄ := ⟨rfl, (SameGraph.setNode (c := c) (m := s) (y := y) rfl).shape, rfl⟩
  have hself₄ : c₄.nodes s = y := setNode_self c s y
  have hnotowed : c₄.owed s = false := by
    rw [owed, hself₄]
    simp [hy]
  have hnotready : ∀ b : Config V S, (b.nodes s).deps = [] → ¬ b.Ready s :=
    fun b hb hr => hr.2.1 hb
  have hdelivering : Delivering compute rank s v [] c₄ c₄ (c₄.edges s) := by
    refine ⟨h.running, hg₄.wired h.wired, ?_, ?_, ?_, hnotowed, ?_, ?_, ?_, .refl c₄⟩
    · rw [hg₄.edges]
      refine (h.ledger.emit h.wired hs (y := y) rfl rfl rfl ho
        (fun hne => absurd hsrc hne) hnotowed ?_ ?_).of_nodes rfl
      · intro i
        by_contra hcon
        rw [Bool.not_eq_false] at hcon
        have hi := (h.ledger.sound s hs).dirtyAt_lt hcon
        rw [hsrc] at hi
        exact absurd hi (Nat.not_lt_zero i)
      · intro hne
        exact absurd hsrc hne
    · rw [hg₄.edges]
      exact h.wired.edgesNodup s hs
    · intro e he
      rw [hg₄.edges] at he
      exact (hg₄.depAt _ _ _).mpr ((h.wired.edge s hs e.1 e.2).mp he)
    · rw [cache, hself₄]
    · exact (h.queue.setNode (hnotready c hsrc) (hnotready _ ((hg₄.deps s).trans hsrc))).of_nodes
        rfl rfl
    · unfold deliveryInFlight
      simp [hc₄]
  set b := c₄.leaveDelivery prev with hb
  have hgb : SameGraph c b := ⟨hg₄.rim, hg₄.shape, hg₄.wave⟩
  have hdepth : c₄.depth = 1 := by
    rw [hc₄]
    simp [h.depth]
  have hdepthb : b.depth = 0 := by
    rw [hb]
    unfold leaveDelivery
    rw [hdepth]
  have hdrain := exec_drain henv rank b.owedNodes.card
  rcases exec_block henv hdrain hdelivering hdepth prev (le_refl _) with ⟨q, c₆, hout, htold, hex⟩
  have hselfb : b.nodes s = y := hself₄
  have hkept := hout.advance.kept s hnotowed
  rw [hselfb] at hkept
  have hs₆ : c₆.owed s = false := by
    unfold owed
    rw [hkept.2]
    simp [hy]
  have hlive₆ : (c₆.nodes s).live = true := by
    rw [hout.advance.graph.live]
    exact (hg₄.live s).trans hs
  have hsrc₆ : (c₆.nodes s).deps = [] := by
    rw [hout.advance.graph.deps]
    exact (hg₄.deps s).trans hsrc
  have hfinish : ∀ c' : Config V S, SameGraph c₆ c' → c'.depth = c₆.depth → c'.log = c₆.log →
      (∀ n, n ≠ s → c'.nodes n = c₆.nodes n) → (c'.nodes s).value = (c₆.nodes s).value →
      c'.owed s = false → Emitted s v q c c' := by
    intro c' hg' hd' hl' ho' hv' hs'
    refine Advance.emitted (b := b) hgb (hdepthb.trans h.depth.symm) ?_ hnotowed ?_ ?_ rfl
      hout.advance ?_ hg' hd' hl' ho' hv' hs'
    · intro n hn
      exact setNode_of_ne c y hn
    · rw [cache, hselfb]
    · rw [hselfb]
    · rcases htold with ⟨es, hes, htold⟩
      refine ⟨es, hes, ?_⟩
      intro e he
      rw [← hg₄.subscribers] at he
      exact htold e he
  have henter : ∀ c' : Config V S, Exec env [.downEnd s false] c₆ c' →
      Exec env [.deliveryScope s [.data v], .downEnd s false] c c' := by
    intro c' hrest
    refine Exec.enter c₃ [.downLoop s [.data v], .deliveryGuard prev] h.running (fun _ => rfl) ?_
    refine Exec.enter c₄ [.emit s (.data v) (c₄.nodes s).aux.subscribers, .downLoop s []]
      h.running ?_ ?_
    · intro rest
      simp only [enter, downLoop, Node.collectDown]
      rw [hself₄]
      rfl
    · exact (Exec.append hex hrest :)
  cases hq : q with
  | none =>
    subst hq
    have hdone := hout.done rfl
    set z : Node V S := { c₆.nodes s with
      wave := { (c₆.nodes s).wave with
        emittedDirtyThisWave := false
        emittedTier3ThisWave := false } } with hz
    have hg' : SameGraph c₆ (c₆.setNode s z) := .setNode rfl
    have hz' : (c₆.setNode s z).owed s = false := by
      rw [owed, setNode_self]
      rfl
    refine ⟨none, c₆.setNode s z, henter _ ?_, ?_, ?_, ?_, fun p hp => by (cases hp)⟩
    · exact Exec.enter _ [] hdone.1 (fun _ => rfl) Exec.nil
    · exact hfinish _ hg' rfl rfl (fun n hn => setNode_of_ne c₆ z hn) (by rw [setNode_self]) hz'
    · exact hout.ledger.run_over hlive₆ hs₆ rfl rfl rfl hz' (Or.inl rfl)
    · intro _
      have hqueue' := hdone.2.2.setNode (y := z) (hnotready c₆ hsrc₆)
        (hnotready _ ((hg'.deps s).trans hsrc₆))
      refine ⟨hdone.1, hg'.wired (hout.advance.graph.wired (hgb.wired h.wired)),
        hout.ledger.run_over hlive₆ hs₆ rfl rfl rfl hz' (Or.inl rfl), ?_, ?_, hdone.2.1, ?_⟩
      · intro n hl
        by_cases hns : n = s
        · rw [hns, setNode_self, hz]
          refine ⟨rfl, ?_⟩
          dsimp only
          rw [hkept.2]
          exact hcalm.2
        · rw [hg'.live, hout.advance.graph.live] at hl
          have hl' : (c.nodes n).live = true := (hg₄.live n).symm.trans hl
          have hwave : (b.nodes n).wave = (c.nodes n).wave := by
            rw [show b.nodes n = c.nodes n from setNode_of_ne c y hns]
          rw [setNode_of_ne c₆ z hns]
          cases hob : b.owed n with
          | false =>
            rw [(hout.advance.kept n hob).2, hwave]
            exact h.calm n hl'
          | true =>
            cases ho₆ : c₆.owed n with
            | true =>
              rw [(hout.advance.waits n ho₆).2, hwave]
              exact h.calm n hl'
            | false =>
              rw [hout.advance.cleared rfl n hob ho₆, hwave]
              exact h.calm n hl'
      · intro m hr
        rcases hqueue'.waiting m hr with hm | hm | hm
        · exact absurd hm List.not_mem_nil
        · rw [show (c₆.setNode s z).deferred = [] from hdone.2.1] at hm
          exact absurd hm List.not_mem_nil
        · exact hm
      · exact hout.advance.depth.trans hdepthb
  | some p =>
    subst hq
    rcases (hout.failed p rfl).2.2.1 with ⟨_, e, _, _, hmode⟩
    refine ⟨some p, c₆, henter _ (exec_pass hmode (fun _ => rfl)), ?_, hout.ledger,
      fun hq => by (cases hq), ?_⟩
    · exact hfinish c₆ (.refl c₆) rfl rfl (fun _ _ => rfl) rfl hs₆
    · intro p' hp
      cases hp
      exact hout.failed p rfl

end Config

end GraphRefly
