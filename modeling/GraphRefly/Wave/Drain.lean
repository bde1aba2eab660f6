import GraphRefly.Wave.Deliver

/-!
# Draining the Deferred Runs

The second half of phase two. The outermost delivery drains the queue of
deferred runs when it ends; a run emits, and that emission drains what it
deferred before the fn returns, so drains nest inside the fns of the nodes they
run. Every run settles one owed node, and the number of owed nodes carries the
induction.

A fn that fails ends everything: the panic unwinds through the drains and runs
it is nested in.

## Main definitions

* `Event.isRunOf`: A run of a node.
* `Advance`: What a drain has done when it ends.
* `FailedAt`: A panic is on its way up.
* `Working`, `Outcome`: Where a drain starts and where it ends.

## Theorems

* `Advance.trans`: One drain after another.
* `exec_drain`: The drain.
-/

namespace GraphRefly

open List

variable {V S : Type}

/-- Clearing flags that are clear does nothing. -/
theorem NodeWaveState.idle_eq {w : NodeWaveState} (hin : w.insideRunWave = false)
    (htier : w.emittedTier3ThisWave = false) :
    { w with insideRunWave := false, emittedTier3ThisWave := false } = w := by
  cases w
  simp_all

/-- A run of the node's fn. -/
def Event.isRunOf (n : NodeId) : Event V → Bool
  | .ran m _ _ => m == n
  | _ => false

variable {ok : NodeId → Message V → Prop}

theorem Event.isRunOf_of_telling {e : Event V}
    (h : e.Telling ok) (n : NodeId) : e.isRunOf n = false := by
  cases e <;> first | rfl | cases h

/-- Deliveries are no runs. -/
theorem Event.countP_isRunOf_of_telling {es : List (Event V)}
    (h : ∀ e ∈ es, e.Telling ok) (n : NodeId) : es.countP (Event.isRunOf n) = 0 := by
  rw [countP_eq_zero]
  intro e he
  rw [Event.isRunOf_of_telling (h e he)]
  exact Bool.false_ne_true

namespace Config

variable {env : Env V S} {compute : FnId → List (Option V) → Except String V}
  {rank : NodeId → Nat} {c c' c'' : Config V S} {q : Option NodeId} {todo : List NodeId}

/-- What the run read of its deps is what they hold, for good. -/
def Read (c : Config V S) (n : NodeId) (ctx : Ctx V) : Prop :=
  ctx.deps.map (·.latest) = (c.nodes n).deps.map c.cache ∧
    ∀ d ∈ (c.nodes n).deps, c.owed d = false

/-- What a drain has done when it ends: some owed nodes ran, each once, and
    nothing else changed. A run that failed is named; its node is still owed. -/
structure Advance (q : Option NodeId) (c c' : Config V S) : Prop where
  graph : SameGraph c c'
  depth : c'.depth = c.depth
  owed : ∀ n, c'.owed n = true → c.owed n = true
  derived : ∀ n, c.owed n = true → c'.owed n = false →
    (c.nodes n).live = true ∧ (c.nodes n).deps ≠ []
  kept : ∀ n, c.owed n = false →
    (c'.nodes n).value = (c.nodes n).value ∧ (c'.nodes n).wave = (c.nodes n).wave
  waits : ∀ n, c'.owed n = true →
    (c'.nodes n).value = (c.nodes n).value ∧ (c'.nodes n).wave = (c.nodes n).wave
  cleared : q = none → ∀ n, c.owed n = true → c'.owed n = false →
    (c'.nodes n).wave = { (c.nodes n).wave with emittedDirtyThisWave := false }
  settled : ∀ n, c.owed n = true → c'.owed n = false → (c'.nodes n).value.status = .settled
  log : ∃ es, c'.log = es ++ c.log ∧
    (∀ n, es.countP (Event.isRunOf n) =
      (if c.owed n = true ∧ c'.owed n = false then 1 else 0) + if q = some n then 1 else 0) ∧
    (∀ n ctx ls, .ran n ctx ls ∈ es → c'.Read n ctx ∧ ls = []) ∧
    (∀ n sub sink, .delivered n sub sink .dirty ∉ es) ∧
    (∀ n, c.owed n = true → c'.owed n = false → ∀ e ∈ (c.nodes n).aux.subscribers,
      ∃ v, .delivered n e.id e.sink (.data v) ∈ es)

/-- A delivery loop advances nothing. -/
theorem Delivered.advance (h : Delivered c c') : Advance none c c' := by
  have hno : ∀ {n : NodeId} {p : Prop}, c.owed n = true → c'.owed n = false → p := by
    intro n p ho ho'
    rw [h.owed, ho] at ho'
    cases ho'
  rcases h.log with ⟨es, hes, he⟩
  refine ⟨h.graph, h.depth, fun n ho => by rwa [h.owed] at ho, fun n ho ho' => hno ho ho',
    fun n _ => ⟨h.value n, h.wave n⟩, fun n _ => ⟨h.value n, h.wave n⟩,
    fun _ n ho ho' => hno ho ho', fun n ho ho' => hno ho ho',
    ⟨es, hes, ?_, ?_, fun n sub sink hmem => he _ hmem rfl, fun n ho ho' => hno ho ho'⟩⟩
  · intro n
    have hzero := Event.countP_isRunOf_of_telling he n
    have hnot : ¬ (c.owed n = true ∧ c'.owed n = false) := fun hboth => hno hboth.1 hboth.2
    rw [hzero, if_neg hnot]
    rfl
  · intro n ctx ls hmem
    cases he _ hmem

theorem Delivered.refl (c : Config V S) : Delivered c c :=
  ⟨.refl c, rfl, fun _ => rfl, fun _ => rfl, ⟨[], rfl, fun _ he => absurd he not_mem_nil⟩⟩

theorem Advance.refl (c : Config V S) : Advance none c c :=
  (Delivered.refl c).advance

variable {n : NodeId}

variable {ctx : Ctx V}

/-- What was read stays what is held: the deps are settled. -/
theorem Read.advance (h : c.Read n ctx) (ha : Advance q c c') :
    c'.Read n ctx := by
  have hdeps := ha.graph.deps n
  refine ⟨?_, ?_⟩
  · rw [h.1, hdeps]
    refine map_congr_left ?_
    intro d hd
    unfold cache
    rw [(ha.kept d (h.2 d hd)).1]
  · intro d hd
    rw [hdeps] at hd
    by_contra hcon
    rw [Bool.not_eq_false] at hcon
    have := ha.owed d hcon
    rw [h.2 d hd] at this
    cases this

/-- One drain after another. -/
theorem Advance.trans (h : Advance none c c') (h' : Advance q c' c'') : Advance q c c'' := by
  -- A node that settles does so in one of the two.
  have hsplit : ∀ n, c.owed n = true → c''.owed n = false →
      (c.owed n = true ∧ c'.owed n = false) ∨ (c'.owed n = true ∧ c''.owed n = false) := by
    intro n ho ho''
    cases hm : c'.owed n with
    | false => exact Or.inl ⟨ho, rfl⟩
    | true => exact Or.inr ⟨rfl, ho''⟩
  have hlive : ∀ n, (c'.nodes n).live = true ∧ (c'.nodes n).deps ≠ [] →
      (c.nodes n).live = true ∧ (c.nodes n).deps ≠ [] := by
    intro n hn
    rw [h.graph.live, h.graph.deps] at hn
    exact hn
  refine ⟨h.graph.trans h'.graph, h'.depth.trans h.depth, fun n ho => h.owed n (h'.owed n ho), ?_,
    ?_, ?_, ?_, ?_, ?_⟩
  · intro n ho ho''
    rcases hsplit n ho ho'' with ⟨_, hm⟩ | ⟨hm, _⟩
    · exact h.derived n ho hm
    · exact hlive n (h'.derived n hm ho'')
  · intro n ho
    have hm : c'.owed n = false := by
      by_contra hcon
      rw [h.owed n (Bool.not_eq_false _ ▸ hcon)] at ho
      cases ho
    exact ⟨(h'.kept n hm).1.trans (h.kept n ho).1, (h'.kept n hm).2.trans (h.kept n ho).2⟩
  · intro n ho
    have hm := h'.owed n ho
    exact ⟨(h'.waits n ho).1.trans (h.waits n hm).1, (h'.waits n ho).2.trans (h.waits n hm).2⟩
  · intro hq n ho ho''
    rcases hsplit n ho ho'' with ⟨_, hm⟩ | ⟨hm, _⟩
    · rw [(h'.kept n hm).2]
      exact h.cleared rfl n ho hm
    · rw [h'.cleared hq n hm ho'', (h.waits n hm).2]
  · intro n ho ho''
    rcases hsplit n ho ho'' with ⟨_, hm⟩ | ⟨hm, _⟩
    · rw [(h'.kept n hm).1]
      exact h.settled n ho hm
    · exact h'.settled n hm ho''
  · rcases h.log with ⟨es, hes, hcount, hread, hclean, htold⟩
    rcases h'.log with ⟨es', hes', hcount', hread', hclean', htold'⟩
    refine ⟨es' ++ es, by rw [hes', hes, append_assoc], ?_, ?_, ?_, ?_⟩
    · intro n
      rw [countP_append, hcount, hcount']
      have hmono := h.owed n
      have hmono' := h'.owed n
      cases ho : c.owed n <;> cases hm : c'.owed n <;> cases ho'' : c''.owed n <;>
        simp_all [Nat.add_comm]
    · intro n ctx ls hmem
      rcases mem_append.mp hmem with hmem | hmem
      · exact hread' n ctx ls hmem
      · have hr := hread n ctx ls hmem
        exact ⟨hr.1.advance h', hr.2⟩
    · intro n sub sink hmem
      rcases mem_append.mp hmem with hmem | hmem
      · exact hclean' n sub sink hmem
      · exact hclean n sub sink hmem
    · intro n ho ho'' e he
      rcases hsplit n ho ho'' with ⟨_, hm⟩ | ⟨hm, _⟩
      · rcases htold n ho hm e he with ⟨v, hv⟩
        exact ⟨v, mem_append_right _ hv⟩
      · rw [← h.graph.subscribers] at he
        rcases htold' n hm ho'' e he with ⟨v, hv⟩
        exact ⟨v, mem_append_left _ hv⟩

/-! ### Outcomes -/

/-- A panic of the node's fn is on its way up, and the wave blames the node. -/
def FailedAt (c : Config V S) (compute : FnId → List (Option V) → Except String V) (p : NodeId) :
    Prop :=
  (c.nodes p).live = true ∧ c.owed p = true ∧
    (∃ f e, (c.nodes p).handle = some (f, .sync) ∧
      compute f ((c.nodes p).deps.map c.cache) = .error e ∧ c.mode = .unwinding (.ordinary e)) ∧
    ∀ w, c.wave = some w → w.blamed = some p ∧ p ∈ w.touched

/-- Where a drain starts. -/
structure Working (compute : FnId → List (Option V) → Except String V) (rank : NodeId → Nat)
    (todo : List NodeId) (c : Config V S) : Prop where
  running : c.mode = .running
  wired : c.Wired rank
  ledger : c.Ledger compute [] []
  queue : c.Queue todo
  depth : c.depth = 0

/-- Where a drain ends: everything that was deferred is done, or a fn failed. -/
structure Outcome (compute : FnId → List (Option V) → Except String V) (todo : List NodeId)
    (q : Option NodeId) (c c' : Config V S) : Prop where
  advance : Advance q c c'
  ledger : c'.Ledger compute [] []
  done : q = none → c'.mode = .running ∧ c'.deferred = [] ∧ c'.Queue todo
  failed : ∀ p, q = some p → c'.FailedAt compute p

/-- The nodes that owe a value. -/
def owedNodes (c : Config V S) : Finset NodeId :=
  (Finset.range c.size).filter fun n => c.owed n = true

theorem owedNodes_le (h : Advance q c c') : c'.owedNodes.card ≤ c.owedNodes.card := by
  refine Finset.card_le_card ?_
  intro n hn
  unfold owedNodes at hn ⊢
  rw [Finset.mem_filter, h.graph.size] at hn
  rw [Finset.mem_filter]
  exact ⟨hn.1, h.owed n hn.2⟩

theorem Outcome.working (h : Outcome compute todo none c c')
    (hw : c.Wired rank) (hd : c.depth = 0) : Working compute rank todo c' :=
  ⟨(h.done rfl).1, h.advance.graph.wired hw, h.ledger, (h.done rfl).2.2,
    h.advance.depth.trans hd⟩

/-- A panic passes a call that is no guard. -/
theorem exec_pass {f : Frame V} {p : Payload} (hm : c.mode = .unwinding p)
    (heq : ∀ rest, (c.popTo rest).unwind env p f = c.popTo rest) : Exec env [f] c c :=
  Exec.unwind c [] hm heq Exec.nil

/-- Two calls in a row: the second is only passed when the first failed. -/
theorem Outcome.bind {fs : List (Frame V)} {c₁ : Config V S} (todo' : List NodeId)
    (gs : List (Frame V))
    (h : Outcome compute todo q c c₁) (hex : Exec env fs c c₁)
    (hnext : q = none → ∃ q' c', Outcome compute todo' q' c₁ c' ∧ Exec env gs c₁ c')
    (hpass : ∀ p, c₁.mode = .unwinding p → Exec env gs c₁ c₁) :
    ∃ q' c', Outcome compute todo' q' c c' ∧ Exec env (fs ++ gs) c c' := by
  cases q with
  | none =>
    rcases hnext rfl with ⟨q', c', h', hex'⟩
    exact ⟨q', c', ⟨h.advance.trans h'.advance, h'.ledger, h'.done, h'.failed⟩,
      Exec.append hex hex'⟩
  | some p =>
    rcases (h.failed p rfl).2.2.1 with ⟨f, e, _, _, hm⟩
    exact ⟨some p, c₁, ⟨h.advance, h.ledger, fun hq => by (cases hq), h.failed⟩,
      Exec.append hex (hpass _ hm)⟩

/-- The drain, for networks that owe at most `N` values. -/
def DrainSpec (env : Env V S) (compute : FnId → List (Option V) → Except String V)
    (rank : NodeId → Nat) (N : Nat) : Prop :=
  ∀ todo (c : Config V S), Working compute rank todo c → c.owedNodes.card ≤ N →
    ∃ q c', Outcome compute todo q c c' ∧ Exec env [.drainDeferredRuns] c c'

/-- A run at the head of the list, for networks that owe at most `N` values. -/
def RunSpec (env : Env V S) (compute : FnId → List (Option V) → Except String V)
    (rank : NodeId → Nat) (N : Nat) : Prop :=
  ∀ m todo (c : Config V S), Working compute rank (m :: todo) c → c.deferred = [] →
    c.owedNodes.card ≤ N →
    ∃ q c', Outcome compute todo q c c' ∧ Exec env [.maybeRun m] c c'

variable {N : Nat}

/-- The deferred runs of a list, one after another. -/
theorem exec_applyDeferred (hrun : RunSpec env compute rank N) :
    ∀ (ms todo : List NodeId) (c : Config V S), Working compute rank (ms ++ todo) c →
      c.deferred = [] → c.owedNodes.card ≤ N →
      ∃ q c', Outcome compute todo q c c' ∧
        Exec env [.applyDeferred (ms.map fun m => ⟨.run, m⟩)] c c' := by
  intro ms
  induction ms with
  | nil =>
    intro todo c h hd _
    exact ⟨none, c, ⟨.refl c, h.ledger, fun _ => ⟨h.running, hd, h.queue⟩, fun _ hq =>
      by cases hq⟩,
      Exec.enter c [] h.running (fun _ => rfl) Exec.nil⟩
  | cons m ms ih =>
    intro todo c h hd hN
    have hready := h.queue.ready m (mem_append_left _ mem_cons_self)
    have htame := h.wired.tame m hready.1
    rcases hrun m (ms ++ todo) c h hd hN with ⟨q, c₁, hout, hex⟩
    have hboth := hout.bind todo [.applyDeferred (ms.map fun m => ⟨.run, m⟩)] hex
      (by
        rintro rfl
        exact ih todo c₁ (hout.working h.wired h.depth) (hout.done rfl).2.1
          (le_trans (owedNodes_le hout.advance) hN))
      (fun p hm => exec_pass hm (fun _ => rfl))
    rcases hboth with ⟨q', c', hout', hex'⟩
    refine ⟨q', c', hout', ?_⟩
    refine Exec.enter c [.maybeRun m, .applyDeferred (ms.map fun m => ⟨.run, m⟩)]
      h.running ?_ hex'
    intro rest
    have hl : ((c.popTo rest).nodes m).live = true := hready.1
    have ht : ((c.popTo rest).nodes m).value.terminal = false := htame.running
    simp only [map_cons, enter, applyDeferred, hl, ht, Bool.not_false, Bool.and_self,
      ↓reduceIte]
    rfl

/-- A drain takes what is deferred and runs it; nested drains leave nothing
    behind, so the second turn finds the queue empty. -/
theorem exec_drain_of_run (hrun : RunSpec env compute rank N) :
    DrainSpec env compute rank N := by
  intro todo c h hN
  by_cases hd : c.deferred = []
  · refine ⟨none, c, ⟨.refl c, h.ledger, fun _ => ⟨h.running, hd, h.queue⟩,
      fun _ hq => by cases hq⟩, Exec.enter c [] h.running ?_ Exec.nil⟩
    intro rest
    have hd' : (c.popTo rest).deferred = [] := hd
    simp only [enter, drainDeferredRuns, hd', isEmpty_nil, ↓reduceIte]
    rfl
  · set ms := c.deferred.map (·.target) with hms
    set c₁ : Config V S := { c with deferred := [] } with hc₁
    have hruns : c.deferred.filter (fun a => decide (a.kind = .run)) =
        ms.map fun m => ⟨.run, m⟩ := by
      rw [hms, map_map, filter_eq_self.mpr]
      · have hsame : ∀ a ∈ c.deferred, (fun m => (⟨.run, m⟩ : DeferredDeliveryAction))
          a.target = a := by
          rintro ⟨kind, target⟩ ha
          rw [show kind = .run from (h.queue.runs _ ha).1]
        exact (map_congr_left hsame).trans (map_id' _) |>.symm
      · intro a ha
        simp [(h.queue.runs a ha).1]
    have hsettles : c.deferred.filter (fun a => decide (a.kind = .absorbedSettle)) = [] := by
      rw [filter_eq_nil_iff]
      intro a ha
      simp [(h.queue.runs a ha).1]
    have hq : c₁.Queue (ms ++ todo) := by
      refine ⟨?_, ?_, fun a ha => absurd ha not_mem_nil, ?_⟩
      · intro m hr
        rcases h.queue.waiting m hr with ht | hdef | hheld
        · exact Or.inl (mem_append_right _ ht)
        · exact Or.inl (mem_append_left _ (mem_map_of_mem hdef))
        · exact Or.inr (Or.inr hheld)
      · intro m hm
        rcases mem_append.mp hm with hm | hm
        · rcases mem_map.mp hm with ⟨a, ha, rfl⟩
          exact (h.queue.runs a ha).2
        · exact h.queue.ready m hm
      · rw [hc₁, map_nil, append_nil]
        exact (perm_append_comm.nodup_iff).mp h.queue.nodup
    have hg : SameGraph c c₁ := ⟨rfl, fun _ => rfl, rfl⟩
    have hwork : Working compute rank (ms ++ todo) c₁ :=
      ⟨h.running, hg.wired h.wired, h.ledger.of_nodes rfl, hq, h.depth⟩
    rcases exec_applyDeferred hrun ms todo c₁ hwork rfl hN with ⟨q, c₂, hout, hex⟩
    have hboth := hout.bind todo [.drainDeferredRuns] hex
      (by
        rintro rfl
        refine ⟨none, c₂, ⟨.refl c₂, hout.ledger, hout.done, fun _ hq => by cases hq⟩,
          Exec.enter c₂ [] (hout.done rfl).1 ?_ Exec.nil⟩
        intro rest
        have hd' : (c₂.popTo rest).deferred = [] := (hout.done rfl).2.1
        simp only [enter, drainDeferredRuns, hd', isEmpty_nil, ↓reduceIte]
        rfl)
      (fun p hm => exec_pass hm (fun _ => rfl))
    rcases hboth with ⟨q', c', hout', hex'⟩
    have hadv : Advance q' c c' := by
      have ha := hout'.advance
      exact ⟨hg.trans ha.graph, ha.depth, ha.owed, ha.derived, ha.kept, ha.waits, ha.cleared,
        ha.settled, ha.log⟩
    refine ⟨q', c', ⟨hadv, hout'.ledger, hout'.done, hout'.failed⟩, ?_⟩
    refine Exec.enter c₁ [.applyDeferred (ms.map fun m => ⟨.run, m⟩), .drainDeferredRuns]
      h.running ?_
      hex'
    intro rest
    have hd' : (c.popTo rest).deferred = c.deferred := rfl
    have hne : c.deferred.isEmpty = false := by
      rw [isEmpty_eq_false_iff]
      exact hd
    simp only [enter, drainDeferredRuns, hd', hne, Bool.false_eq_true, ↓reduceIte, hruns, hsettles,
      append_nil]
    rfl

/-! ### A run -/

variable {v : V}

/-- The value goes out and everything that follows from it is done. -/
theorem exec_block (henv : env.Computes compute) (hdrain : DrainSpec env compute rank N)
    (h : Delivering compute rank n v todo c c (c.edges n))
    (hdepth : c.depth = 1) (prev : Nat) (hN : (c.leaveDelivery prev).owedNodes.card ≤ N) :
    ∃ q c', Outcome compute todo q (c.leaveDelivery prev) c' ∧
      (∃ es, c'.log = es ++ c.log ∧ ∀ e ∈ (c.nodes n).aux.subscribers,
        .delivered n e.id e.sink (.data v) ∈ es) ∧
      Exec env [.emit n (.data v) (c.nodes n).aux.subscribers, .downLoop n [], .deliveryGuard prev]
        c c' := by
  have hstart : Delivering compute rank n v todo c c
      (c.edgesOf (c.nodes n).aux.subscribers ++ []) := by
    rw [append_nil]
    exact h
  rcases exec_deliver henv _ c [] hstart with ⟨c₁, hp, ⟨es, hes, htold⟩, hex⟩
  have hleft : Delivered (c.leaveDelivery prev) (c₁.leaveDelivery prev) := by
    refine ⟨⟨hp.change.graph.rim, hp.change.graph.shape, hp.change.graph.wave⟩, ?_,
      hp.change.value, hp.change.wave, hp.change.log⟩
    unfold leaveDelivery
    rw [hp.change.depth]
  have hadv := hleft.advance
  have hd₁ : c₁.depth = 1 := hp.change.depth.trans hdepth
  have hwork : Working compute rank todo (c₁.leaveDelivery prev) := by
    have hg : SameGraph c₁ (c₁.leaveDelivery prev) := ⟨rfl, fun _ => rfl, rfl⟩
    refine ⟨hp.running, hg.wired hp.wired, hp.ledger.of_nodes rfl, hp.queue.of_nodes rfl rfl, ?_⟩
    unfold leaveDelivery
    rw [hd₁]
  rcases hdrain todo _ hwork (le_trans (owedNodes_le hadv) hN) with ⟨q, c', hout, hex'⟩
  rcases hout.advance.log with ⟨es', hes', _⟩
  refine ⟨q, c', ⟨hadv.trans hout.advance, hout.ledger, hout.done, hout.failed⟩,
    ⟨es' ++ es, ?_, fun e he => mem_append_right _ (htold e he)⟩, ?_⟩
  · rw [hes', append_assoc, ← hes]
    rfl
  · refine Exec.cons hex (Exec.enter c₁ [] hp.running (fun _ => rfl) ?_)
    refine Exec.enter (c₁.leaveDelivery prev) [.drainDeferredRuns] hp.running ?_ hex'
    intro rest
    have hd' : (c₁.popTo rest).depth = 1 := hd₁
    simp only [enter, deliveryGuard, hd', ↓reduceIte]
    rfl

variable {m : NodeId}

variable {b : Config V S}

/-- A run, put together: the node emits, the drain its emission starts advances
    the others, and the node's own flags are cleared. -/
theorem Advance.run (hw : c.Wired rank)
    (hready : c.Ready m) (hg : SameGraph c b) (hdepth : b.depth = c.depth) (hread : c.Read m ctx)
    (hother : ∀ n, n ≠ m → b.nodes n = c.nodes n) (hb : b.owed m = false)
    (hstatus : (b.nodes m).value.status = .settled) (hlog : b.log = .ran m ctx [] :: c.log)
    (ha : Advance q b c')
    (htold : ∃ es, c'.log = es ++ b.log ∧ ∀ e ∈ (c.nodes m).aux.subscribers,
      ∃ v, .delivered m e.id e.sink (.data v) ∈ es)
    (hg' : SameGraph c' c'') (hdepth' : c''.depth = c'.depth) (hlog' : c''.log = c'.log)
    (hother' : ∀ n, n ≠ m → c''.nodes n = c'.nodes n)
    (hvalue : (c''.nodes m).value = (c'.nodes m).value) (hm : c''.owed m = false)
    (hclear : q = none → (c''.nodes m).wave =
      { (c.nodes m).wave with emittedDirtyThisWave := false }) : Advance q c c'' := by
  have howed : ∀ n, n ≠ m → b.owed n = c.owed n := by
    intro n hn
    unfold Config.owed
    rw [hother n hn]
  have howed' : ∀ n, n ≠ m → c''.owed n = c'.owed n := by
    intro n hn
    unfold Config.owed
    rw [hother' n hn]
  have hcache : ∀ n, c''.cache n = c'.cache n := by
    intro n
    by_cases hn : n = m
    · rw [hn, cache, hvalue]
      rfl
    · unfold cache
      rw [hother' n hn]
  -- The deps of the node were settled before the run and stay so.
  have hdeps : ∀ d ∈ (c.nodes m).deps, d ≠ m := by
    rintro d hd rfl
    rcases mem_iff_getElem?.mp hd with ⟨i, hi⟩
    exact hw.irrefl ⟨hready.1, hi⟩
  have hreadb : b.Read m ctx := by
    refine ⟨?_, ?_⟩
    · rw [hread.1, hg.deps]
      refine map_congr_left ?_
      intro d hd
      unfold cache
      rw [hother d (hdeps d hd)]
    · intro d hd
      rw [hg.deps] at hd
      rw [howed d (hdeps d hd)]
      exact hread.2 d hd
  have hread' : ∀ n ctx', c'.Read n ctx' → c''.Read n ctx' := by
    intro n ctx' hr
    refine ⟨?_, ?_⟩
    · rw [hr.1, hg'.deps]
      exact map_congr_left (fun d _ => (hcache d).symm)
    · intro d hd
      rw [hg'.deps] at hd
      by_cases hdm : d = m
      · rw [hdm]
        exact hm
      · rw [howed' d hdm]
        exact hr.2 d hd
  have hm' : c'.owed m = false := by
    by_contra hcon
    rw [Bool.not_eq_false] at hcon
    have := ha.owed m hcon
    rw [hb] at this
    cases this
  refine ⟨(hg.trans ha.graph).trans hg', hdepth'.trans (ha.depth.trans hdepth), ?_, ?_, ?_, ?_, ?_,
    ?_, ?_⟩
  · intro n ho
    by_cases hn : n = m
    · rw [hn]
      exact hready.2.2.1
    · rw [howed' n hn] at ho
      rw [← howed n hn]
      exact ha.owed n ho
  · intro n ho ho''
    by_cases hn : n = m
    · rw [hn]
      exact ⟨hready.1, hready.2.1⟩
    · rw [howed' n hn] at ho''
      rw [← howed n hn] at ho
      have := ha.derived n ho ho''
      rw [hother n hn] at this
      exact this
  · intro n ho
    have hn : n ≠ m := by
      rintro rfl
      rw [hready.2.2.1] at ho
      cases ho
    rw [hother' n hn, ← hother n hn]
    exact ha.kept n (by rw [howed n hn, ho])
  · intro n ho
    have hn : n ≠ m := by
      rintro rfl
      rw [hm] at ho
      cases ho
    rw [hother' n hn, ← hother n hn]
    exact ha.waits n (by rw [← howed' n hn, ho])
  · intro hq n ho ho''
    by_cases hn : n = m
    · rw [hn]
      exact hclear hq
    · rw [hother' n hn, ← hother n hn]
      exact ha.cleared hq n (by rw [howed n hn, ho]) (by rw [← howed' n hn, ho''])
  · intro n ho ho''
    by_cases hn : n = m
    · rw [hn, hvalue, (ha.kept m hb).1]
      exact hstatus
    · rw [hother' n hn]
      exact ha.settled n (by rw [howed n hn, ho]) (by rw [← howed' n hn, ho''])
  · rcases ha.log with ⟨es, hes, hcount, hreads, hclean, htolds⟩
    rcases htold with ⟨es', hes', hsubs⟩
    have heq : es' = es := append_cancel_right (hes'.symm.trans hes)
    rw [heq] at hsubs
    refine ⟨es ++ [.ran m ctx []], ?_, ?_, ?_, ?_, ?_⟩
    · rw [hlog', hes, hlog, append_assoc]
      rfl
    · intro n
      rw [countP_append, hcount, countP_singleton]
      by_cases hn : n = m
      · subst hn
        simp [hb, hready.2.2.1, hm, Event.isRunOf]
        omega
      · simp [howed n hn, howed' n hn, Event.isRunOf, Ne.symm hn]
    · intro n ctx' ls hmem
      rcases mem_append.mp hmem with hmem | hmem
      · have hr := hreads n ctx' ls hmem
        exact ⟨hread' n ctx' hr.1, hr.2⟩
      · cases mem_singleton.mp hmem
        exact ⟨hread' m ctx (hreadb.advance ha), rfl⟩
    · intro n sub sink hmem
      rcases mem_append.mp hmem with hmem | hmem
      · exact hclean n sub sink hmem
      · cases mem_singleton.mp hmem
    · intro n ho ho'' e he
      by_cases hn : n = m
      · subst hn
        rcases hsubs e he with ⟨v, hv⟩
        exact ⟨v, mem_append_left _ hv⟩
      · rw [← hother n hn] at he
        rcases htolds n (by rw [howed n hn, ho]) (by rw [← howed' n hn, ho'']) e he with ⟨v, hv⟩
        exact ⟨v, mem_append_left _ hv⟩

/-- What a run reads: the values the deps hold. -/
theorem Ledger.depRecords (h : c.Ledger compute [] []) (hl : (c.nodes m).live = true) :
    (c.nodes m).depRecords.map (·.latest) = (c.nodes m).deps.map c.cache := by
  unfold Node.depRecords
  rw [map_map]
  refine ext_getElem (by simp) ?_
  intro i hi hi'
  rw [length_map] at hi'
  have hat : c.DepAt m i (c.nodes m).deps[i] := ⟨hl, List.getElem?_eq_getElem hi'⟩
  simp only [getElem_map, getElem_range, Function.comp_apply, DepState.record]
  exact h.latest m i _ hat not_mem_nil

/-- The deps of a node that can run are settled. -/
theorem Ledger.deps_settled (h : c.Ledger compute [] []) (hr : c.Ready m) :
    ∀ d ∈ (c.nodes m).deps, c.owed d = false := by
  intro d hd
  rcases mem_iff_getElem?.mp hd with ⟨i, hi⟩
  by_contra hcon
  rw [Bool.not_eq_false] at hcon
  have hdirty := (h.told m i d ⟨hr.1, hi⟩).mpr (Or.inl ⟨hcon, not_mem_nil⟩)
  rw [hr.2.2.2 i] at hdirty
  cases hdirty

variable {f : FnId}

/-- Entering a run: the node is blamed, its snapshot taken, its fn called. -/
theorem runWave_popTo (c : Config V S)
    (hin : (c.nodes m).wave.insideRunWave = false) (hf : (c.nodes m).handle = some (f, .sync)) :
    ∃ w, w.isSome = c.wave.isSome ∧ (∀ v, w = some v → v.blamed = some m ∧ m ∈ v.touched) ∧
      ∀ rest, (c.popTo rest).runWave m =
        ({ c.setNode m (c.nodes m).runStarted with
          wave := w
          log := .ran m ⟨m, (c.nodes m).depRecords, (c.nodes m).aux.activePull⟩
            (c.nodes m).aux.pauseLockset :: c.log } :
          Config V S).popTo
          ([.user (.fn f ⟨m, (c.nodes m).depRecords, (c.nodes m).aux.activePull⟩) 0, .waveGuard m,
            .runUndirty m false] ++ rest) := by
  have hasync : (c.nodes m).isAsync = false := by
    unfold Node.isAsync
    rw [hf]
  cases hw : c.wave with
  | none =>
    refine ⟨none, rfl, fun v hv => by (cases hv), ?_⟩
    intro rest
    have hreg : (c.popTo rest).waveRegister m = c.popTo rest := by
      unfold waveRegister
      simp only [popTo, hw]
    unfold runWave
    rw [hreg]
    simp only [popTo, hin, Bool.false_eq_true, ↓reduceIte, hf, hasync]
    unfold waveSetBlamed
    simp only [setNode, hw]
    rfl
  | some v =>
    refine ⟨some { v with
      touched := if m ∈ v.touched then v.touched else v.touched ++ [m]
      blamed := some m }, rfl, ?_, ?_⟩
    · intro v' hv'
      cases hv'
      refine ⟨rfl, ?_⟩
      dsimp only
      split_ifs with hmem
      · exact hmem
      · exact mem_append_right _ mem_cons_self
    · intro rest
      have hreg : (c.popTo rest).waveRegister m = ({ c with wave := some { v with
          touched := if m ∈ v.touched then v.touched else v.touched ++ [m] } } :
          Config V S).popTo rest := by
        unfold waveRegister
        simp only [popTo, hw]
        split_ifs
        · rw [← hw]
        · rfl
      unfold runWave
      rw [hreg]
      simp only [popTo, hin, Bool.false_eq_true, ↓reduceIte, hf, hasync]
      rfl

/-- A fn emits its value: no DIRTY is due, the run was announced. -/
theorem down_inside (c : Config V S) (v : V) (ht : (c.nodes m).Tame)
    (hin : (c.nodes m).wave.insideRunWave = true) :
    ∃ w, w.isSome = c.wave.isSome ∧ ∀ rest, (c.popTo rest).down m [.data v] =
      ({ c with wave := w } : Config V S).popTo
        ([.deliveryScope m [.data v], .downEnd m true] ++ rest) := by
  rcases waveRegister_eq c m with ⟨w, hw, hsome⟩
  refine ⟨w, hsome, ?_⟩
  intro rest
  have hsort : collapseInvalidate (sortByTier [Message.data v]) = [.data v] := rfl
  have hterm : ((c.popTo rest).nodes m).value.terminal = false := ht.running
  have hin' : ((c.popTo rest).nodes m).wave.insideRunWave = true := hin
  unfold down
  simp only [hterm, Bool.false_eq_true, ↓reduceIte, hin', Bool.not_true, Bool.false_and,
    waveRegister_popTo, hw, hsort]
  unfold downUnbatched
  have hbuf : ((({ c with wave := w } : Config V S).popTo rest).nodes m).shouldBufferOnPause =
      false := ht.shouldBufferOnPause
  simp only [hbuf, Bool.false_eq_true, ↓reduceIte]
  unfold downEmit
  have hpull : ((({ c with wave := w } : Config V S).popTo rest).nodes m).aux.pullDirtyOwed =
      false := ht.pullDirty
  simp [Message.isData, Message.isResolved, hpull]
  rfl

/-- An owed node has announced and not emitted. -/
theorem owed_flags (h : c.owed n = true) : (c.nodes n).wave.emittedDirtyThisWave = true ∧
      (c.nodes n).wave.emittedTier3ThisWave = false := by
  unfold owed at h
  rw [Bool.and_eq_true, Bool.not_eq_true'] at h
  exact h

/-- Taking the snapshot of a run keeps what the ledger reads. -/
theorem Ledger.snapshot (h : c.Ledger compute [] []) {y : Node V S}
    (hy : y.shape = (c.nodes m).shape) (hdep : y.dep =
      (c.nodes m).dep.taken (c.nodes m).deps.length)
    (hcache : y.value.cache = (c.nodes m).value.cache) (hwave : y.wave = (c.nodes m).wave)
    (hflag : y.aux.pausedDepWaveOccurred = (c.nodes m).aux.pausedDepWaveOccurred) :
    (c.setNode m y).Ledger compute [] [] := by
  have hg : SameGraph c (c.setNode m y) := .setNode hy
  refine h.congr hg ?_ ?_ ?_ ?_ ?_ ?_ ?_
  · intro n hn
    rw [hg.live] at hn
    rw [hg.deps]
    have hs := h.sound n hn
    by_cases hnm : n = m
    · subst hnm
      rw [setNode_self, hdep]
      exact ⟨hs.batch, hs.dirty, hs.prev, hs.pending⟩
    · rw [setNode_of_ne c y hnm]
      exact hs
  · intro n i
    by_cases hnm : n = m
    · rw [hnm, setNode_self, hdep]
      rfl
    · rw [setNode_of_ne c y hnm]
  · intro n i _
    by_cases hnm : n = m
    · rw [hnm, setNode_self, hdep]
      rfl
    · rw [setNode_of_ne c y hnm]
  · intro n
    by_cases hnm : n = m
    · rw [hnm, owed, setNode_self, hwave]
      rfl
    · rw [owed_setNode_of_ne c y hnm]
  · intro n
    by_cases hnm : n = m
    · rw [hnm, cache, setNode_self, hcache]
      rfl
    · rw [cache_setNode_of_ne c y hnm]
  · intro n _ hin
    by_cases hnm : n = m
    · subst hnm
      rw [setNode_self, hwave]
      exact hin
    · rw [setNode_of_ne c y hnm]
      exact hin
  · intro n hf
    by_cases hnm : n = m
    · rw [hnm, setNode_self, hflag] at hf
      rw [hnm]
      exact Or.inl hf
    · rw [setNode_of_ne c y hnm] at hf
      exact Or.inl hf

/-- A run whose fn panics: the panic leaves the run, and the node is owed as
    before. -/
theorem exec_run_fails (henv : env.Computes compute) {e : String}
    (h : Working compute rank (m :: todo) c) (hawake : (c.nodes m).isPaused = false)
    (hf : (c.nodes m).handle = some (f, .sync))
    (hfail : compute f ((c.nodes m).deps.map c.cache) = .error e) :
    ∃ c', Outcome compute todo (some m) c c' ∧ Exec env [.runWave m] c c' := by
  have hready := h.queue.ready m mem_cons_self
  have htame := h.wired.tame m hready.1
  have hin := h.ledger.idle m hready.1 hready.2.2.1
  have hflags := owed_flags hready.2.2.1
  have hrecords := h.ledger.depRecords hready.1
  have hcalled := htame.called hready.2.1
  rcases runWave_popTo c hin hf with ⟨w, hsome, hblame, hrun⟩
  set ctx : Ctx V := ⟨m, (c.nodes m).depRecords, (c.nodes m).aux.activePull⟩ with hctx
  set c₁ : Config V S := { c.setNode m (c.nodes m).runStarted with
    wave := w
    log := .ran m ctx (c.nodes m).aux.pauseLockset :: c.log } with hc₁
  set z : Node V S := { (c.nodes m).runStarted with wave := (c.nodes m).wave } with hz
  set c' : Config V S := { c.setNode m z with
    wave := w
    log := .ran m ctx (c.nodes m).aux.pauseLockset :: c.log
    mode := .unwinding (.ordinary e) } with hc'
  have hshape : z.shape = (c.nodes m).shape := by
    rw [hz]
    unfold Node.shape Node.runStarted
    rw [hcalled]
  have hg : SameGraph c c' := ⟨rfl, (SameGraph.setNode hshape).shape, hsome⟩
  have hnodes : c'.nodes = (c.setNode m z).nodes := rfl
  have hself : c'.nodes m = z := setNode_self c m z
  have hother : ∀ n, n ≠ m → c'.nodes n = c.nodes n := fun n hn => setNode_of_ne c z hn
  have howed : ∀ n, c'.owed n = c.owed n := by
    intro n
    unfold owed
    by_cases hn : n = m
    · rw [hn, hself]
    · rw [hother n hn]
  have hkeep : ∀ n, (c'.nodes n).value = (c.nodes n).value ∧
      (c'.nodes n).wave = (c.nodes n).wave := by
    intro n
    by_cases hn : n = m
    · rw [hn, hself]
      exact ⟨rfl, rfl⟩
    · rw [hother n hn]
      exact ⟨rfl, rfl⟩
  have hcache : ∀ n, c'.cache n = c.cache n := by
    intro n
    unfold cache
    rw [(hkeep n).1]
  have hno : ∀ {n : NodeId} {p : Prop}, c.owed n = true → c'.owed n = false → p := by
    intro n p ho ho'
    rw [howed, ho] at ho'
    cases ho'
  refine ⟨c', ⟨⟨hg, rfl, fun n ho => by rwa [howed] at ho, fun n ho ho' => hno ho ho',
    fun n _ => hkeep n, fun n _ => hkeep n, fun hq => by (cases hq), fun n ho ho' => hno ho ho',
    ⟨[.ran m ctx (c.nodes m).aux.pauseLockset], rfl, ?_, ?_, ?_,
      fun n ho ho' => hno ho ho'⟩⟩, ?_, fun hq => by (cases hq), ?_⟩, ?_⟩
  · intro n
    have hnot : ¬ (c.owed n = true ∧ c'.owed n = false) := fun hboth => hno hboth.1 hboth.2
    rw [countP_singleton, if_neg hnot]
    simp [Event.isRunOf]
  · intro n ctx' ls hmem
    cases mem_singleton.mp hmem
    refine ⟨⟨?_, ?_⟩, Node.pauseLockset_of_awake hawake⟩
    · rw [hctx, hrecords, hg.deps]
      exact map_congr_left (fun d _ => (hcache d).symm)
    · intro d hd
      rw [hg.deps] at hd
      rw [howed]
      exact h.ledger.deps_settled hready d hd
  · intro n sub sink hmem
    cases mem_singleton.mp hmem
  · exact (h.ledger.snapshot hshape rfl rfl rfl rfl).of_nodes hnodes
  · intro p hp
    cases hp
    refine ⟨by rw [hg.live]; exact hready.1, by rw [howed]; exact hready.2.2.1,
      ⟨f, e, by rw [hg.handle, hf], ?_, rfl⟩, hblame⟩
    rw [hg.deps, ← hfail]
    exact congrArg _ (map_congr_left (fun d _ => hcache d))
  · refine Exec.enter c₁ [.user (.fn f ctx) 0, .waveGuard m, .runUndirty m false] h.running hrun ?_
    set c₂ : Config V S := c₁.throw (.ordinary e) with hc₂
    have hact : ∀ d : Config V S, env.act (.fn f ctx) d 0 = .panic (.ordinary e) := by
      intro d
      refine henv.fails f ctx d e ?_
      rw [hctx, hrecords]
      exact hfail
    refine Exec.enter c₂ [] h.running ?_ ?_
    · intro rest
      simp only [enter, stepUser, hact]
      rfl
    · refine Exec.unwind c' [] rfl ?_ (exec_pass rfl (fun _ => rfl))
      intro rest
      have hl : ((c₂.popTo rest).nodes m).live = true := by
        have : (c₂.popTo rest).nodes m = (c.nodes m).runStarted := setNode_self c m _
        rw [this]
        exact hready.1
      have hw : (c₂.popTo rest).waveGuard m = c'.popTo rest := by
        unfold waveGuard
        rw [if_pos hl]
        have hself₂ : (c₂.popTo rest).nodes m = (c.nodes m).runStarted := setNode_self c m _
        rw [hself₂]
        have hzz : ({ (c.nodes m).runStarted with
            wave := { (c.nodes m).runStarted.wave with insideRunWave := false } } : Node V
              S) = z := by
          rw [hz]
          unfold Node.runStarted
          simp only [Node.mk.injEq, true_and, and_true]
          exact NodeWaveState.idle_eq hin hflags.2
        rw [hzz]
        have hset : (c₂.popTo rest).setNode m z = c'.popTo rest := by
          rw [hc', hc₂, hc₁]
          unfold setNode popTo Config.throw
          simp only [Function.update_idem]
        exact hset
      exact hw

/-- The node after its emission: its last flags are cleared when its run ends,
    and the ledger does not notice. -/
theorem Ledger.run_over (h : c.Ledger compute [] []) {z : Node V S}
    (hl : (c.nodes m).live = true) (hm : c.owed m = false)
    (hz : z.shape = (c.nodes m).shape) (hvalue : z.value = (c.nodes m).value)
    (hflag : z.aux.pausedDepWaveOccurred = (c.nodes m).aux.pausedDepWaveOccurred)
    (hz' : (c.setNode m z).owed m = false)
    (hdep : z.dep = (c.nodes m).dep ∨ z.dep = (c.nodes m).dep.rolled) :
    (c.setNode m z).Ledger compute [] [] := by
  have hg : SameGraph c (c.setNode m z) := .setNode hz
  have hs := h.sound m hl
  refine h.congr hg ?_ ?_ ?_ ?_ ?_ ?_ ?_
  · intro n hn
    rw [hg.live] at hn
    rw [hg.deps]
    by_cases hnm : n = m
    · subst hnm
      rw [setNode_self]
      rcases hdep with hdep | hdep
      · rw [hdep]
        exact hs
      · rw [hdep]
        exact hs.rolled
    · rw [setNode_of_ne c z hnm]
      exact h.sound n hn
  · intro n i
    by_cases hnm : n = m
    · rw [hnm, setNode_self]
      rcases hdep with hdep | hdep
      · rw [hdep]
      · rw [hdep]
        rfl
    · rw [setNode_of_ne c z hnm]
  · intro n i _
    by_cases hnm : n = m
    · rw [hnm, setNode_self]
      rcases hdep with hdep | hdep
      · rw [hdep]
      · rw [hdep, DepState.latest_rolled hs]
    · rw [setNode_of_ne c z hnm]
  · intro n
    by_cases hnm : n = m
    · rw [hnm, hz', hm]
    · rw [owed_setNode_of_ne c z hnm]
  · intro n
    by_cases hnm : n = m
    · rw [hnm, cache, setNode_self, hvalue]
      rfl
    · rw [cache_setNode_of_ne c z hnm]
  · intro n ho hin
    have hnm : n ≠ m := by
      rintro rfl
      rw [hm] at ho
      cases ho
    rw [setNode_of_ne c z hnm]
    exact hin
  · intro n hf
    by_cases hnm : n = m
    · rw [hnm, setNode_self, hflag] at hf
      rw [hnm]
      exact Or.inl hf
    · rw [setNode_of_ne c z hnm] at hf
      exact Or.inl hf

theorem owedNodes_lt (hsize : b.size = c.size) (hm : m < c.size)
    (howed : c.owed m = true) (hb : b.owed m = false)
    (hother : ∀ n, n ≠ m → b.owed n = c.owed n) : b.owedNodes.card < c.owedNodes.card := by
  refine Finset.card_lt_card (Finset.ssubset_iff_subset_ne.mpr ⟨?_, ?_⟩)
  · intro n hn
    unfold owedNodes at hn ⊢
    rw [Finset.mem_filter, hsize] at hn
    rw [Finset.mem_filter]
    refine ⟨hn.1, ?_⟩
    by_cases hnm : n = m
    · rw [hnm]
      exact howed
    · rw [← hother n hnm]
      exact hn.2
  · intro heq
    have hmem : m ∈ c.owedNodes := by
      unfold owedNodes
      rw [Finset.mem_filter, Finset.mem_range]
      exact ⟨hm, howed⟩
    rw [← heq, owedNodes, Finset.mem_filter, hb] at hmem
    cases hmem.2

/-- The slot of a node whose fn has just emitted `v`. -/
def emittedNode (x : Node V S) (v : V) : Node V S :=
  { x.runStarted with
    value := { x.value with cache := some v, hasData := true, status := .settled }
    wave := { x.runStarted.wave with emittedTier3ThisWave := true } }

/-- The ledger once a ready node has emitted what it computed. -/
theorem Ledger.emitted (hw : c.Wired rank) (h : c.Ledger compute [] []) (hr : c.Ready m)
    (hawake : (c.nodes m).isPaused = false)
      (hf : (c.nodes m).handle = some (f, .sync))
    (hok : compute f ((c.nodes m).deps.map c.cache) = .ok v) :
    (c.setNode m (emittedNode (c.nodes m) v)).Ledger compute [] (c.edges m) := by
  have hcalled := (hw.tame m hr.1).called hr.2.1
  set x₀ : Node V S := { (c.nodes m).runStarted with wave := (c.nodes m).wave } with hx₀
  have hshape : x₀.shape = (c.nodes m).shape := by
    rw [hx₀]
    unfold Node.shape Node.runStarted
    rw [hcalled]
  have hg : SameGraph c (c.setNode m x₀) := .setNode hshape
  have hself : (c.setNode m x₀).nodes m = x₀ := setNode_self c m x₀
  have hcaches : ∀ n, (c.setNode m x₀).cache n = c.cache n := by
    intro n
    by_cases hn : n = m
    · rw [hn, cache, hself]
      rfl
    · rw [cache_setNode_of_ne c x₀ hn]
  have howed : (c.setNode m x₀).owed m = true := by
    rw [owed, hself]
    exact hr.2.2.1
  have hemit := (h.snapshot hshape rfl rfl rfl rfl).emit (hg.wired hw) (n := m)
    (y := emittedNode (c.nodes m) v) (by rw [hg.live]; exact hr.1) (by rw [hself]; rfl)
    (by rw [hself]; rfl) (by rw [hself]; rfl) howed (fun _ => by rw [hg.isPaused, hawake])
      (by rw [owed, setNode_self]; simp [emittedNode])
    (by rw [hself]; exact hr.2.2.2)
    (by
      intro _
      refine ⟨f, v, by rw [hg.handle, hf], ?_, rfl⟩
      rw [hg.deps, ← hok]
      exact congrArg _ (map_congr_left (fun d _ => hcaches d)))
  rw [setNode_setNode, hg.edges] at hemit
  exact hemit

/-- A run whose fn emits a value. -/
theorem exec_run_emits (henv : env.Computes compute)
    (h : Working compute rank (m :: todo) c) (hawake : (c.nodes m).isPaused = false)
    (hf : (c.nodes m).handle = some (f, .sync))
    (hok : compute f ((c.nodes m).deps.map c.cache) = .ok v)
    (hdrain : ∀ N, N < c.owedNodes.card → DrainSpec env compute rank N) :
    ∃ q c', Outcome compute todo q c c' ∧ Exec env [.runWave m] c c' := by
  have hready := h.queue.ready m mem_cons_self
  have htame := h.wired.tame m hready.1
  have hin := h.ledger.idle m hready.1 hready.2.2.1
  have hflags := owed_flags hready.2.2.1
  have hrecords := h.ledger.depRecords hready.1
  have hcalled := htame.called hready.2.1
  rcases runWave_popTo c hin hf with ⟨w₁, hsome₁, _, hrun⟩
  set ctx : Ctx V := ⟨m, (c.nodes m).depRecords, (c.nodes m).aux.activePull⟩ with hctx
  set c₁ : Config V S := { c.setNode m (c.nodes m).runStarted with
    wave := w₁
    log := .ran m ctx (c.nodes m).aux.pauseLockset :: c.log } with hc₁
  have hself₁ : c₁.nodes m = (c.nodes m).runStarted := setNode_self c m _
  have hshape₁ : (c.nodes m).runStarted.shape = (c.nodes m).shape := by
    unfold Node.shape Node.runStarted
    rw [hcalled]
  have htame₁ : (c₁.nodes m).Tame := by
    rw [hself₁]
    exact htame.of_shape hshape₁
  rcases down_inside c₁ v htame₁ (by rw [hself₁]; rfl) with ⟨w₂, hsome₂, hdown⟩
  -- The delivery scope of the emission.
  set prev := c.currentDeliveryId with hprev
  set y : Node V S := emittedNode (c.nodes m) v with hy
  set c₃ : Config V S := { c₁ with
    wave := w₂
    currentDeliveryId := c.nextDeliveryId
    nextDeliveryId := max 1 ((c.nextDeliveryId + 1) % 2 ^ 64)
    depth := c.depth + 1 } with hc₃
  set c₄ : Config V S := { c.setNode m y with
    wave := w₂
    log := .ran m ctx (c.nodes m).aux.pauseLockset :: c.log
    currentDeliveryId := c.nextDeliveryId
    nextDeliveryId := max 1 ((c.nextDeliveryId + 1) % 2 ^ 64)
    depth := c.depth + 1 } with hc₄
  have hyshape : y.shape = (c.nodes m).shape := hshape₁
  have hg₄ : SameGraph c c₄ := ⟨rfl, (SameGraph.setNode hyshape).shape, hsome₂.trans hsome₁⟩
  have hself₄ : c₄.nodes m = y := setNode_self c m y
  have hsubs : (c₄.nodes m).aux.subscribers = (c.nodes m).aux.subscribers := hg₄.subscribers m
  have hnotowed : c₄.owed m = false := by
    rw [owed, hself₄]
    simp [hy, emittedNode]
  have hdelivering : Delivering compute rank m v todo c₄ c₄ (c₄.edges m) := by
    refine ⟨h.running, hg₄.wired h.wired, ?_, ?_, ?_, hnotowed, ?_, ?_, ?_, ?_⟩
    · rw [hg₄.edges]
      exact (h.ledger.emitted h.wired hready hawake hf hok).of_nodes rfl
    · rw [hg₄.edges]
      exact h.wired.edgesNodup m hready.1
    · intro e he
      rw [hg₄.edges] at he
      exact (hg₄.depAt _ _ _).mpr ((h.wired.edge m hready.1 e.1 e.2).mp he)
    · rw [cache, hself₄]
      rfl
    · refine (h.queue.pop (y := y) ?_).of_nodes rfl rfl
      intro hr
      have hfalse : c₄.owed m = true := hr.2.2.1
      rw [hnotowed] at hfalse
      cases hfalse
    · unfold deliveryInFlight
      simp [hc₄]
    · exact .refl c₄
  set b := c₄.leaveDelivery prev with hb
  have hlt : b.owedNodes.card < c.owedNodes.card := by
    refine owedNodes_lt rfl (h.wired.bounded m hready.1) hready.2.2.1 hnotowed ?_
    intro n hn
    exact owed_setNode_of_ne c y hn
  have hdepth : c₄.depth = 1 := by
    rw [hc₄]
    simp [h.depth]
  rcases exec_block henv (hdrain _ hlt) hdelivering hdepth prev (le_refl _) with
    ⟨q, c₆, hout, htold, hex⟩
  have hkept := hout.advance.kept m hnotowed
  have hselfb : b.nodes m = y := hself₄
  rw [hselfb] at hkept
  have hm₆ : c₆.owed m = false := by
    unfold owed
    rw [hkept.2]
    simp [hy, emittedNode]
  have hlive₆ : (c₆.nodes m).live = true := by
    rw [hout.advance.graph.live]
    exact (hg₄.live m).trans hready.1
  have hread : c.Read m ctx := ⟨hrecords, h.ledger.deps_settled hready⟩
  -- The node's own flags are cleared last; nothing else changes any more.
  have hfinish : ∀ z : Node V S, z.shape = (c₆.nodes m).shape → z.value = (c₆.nodes m).value →
      z.aux.pausedDepWaveOccurred = (c₆.nodes m).aux.pausedDepWaveOccurred →
      (c₆.setNode m z).owed m = false →
      (z.dep = (c₆.nodes m).dep ∨ z.dep = (c₆.nodes m).dep.rolled) →
      (q = none → z.wave = { (c.nodes m).wave with emittedDirtyThisWave := false }) →
      Outcome compute todo q c (c₆.setNode m z) := by
    intro z hz hzv hzf hzo hzd hzw
    have hg₆ : SameGraph c₆ (c₆.setNode m z) := .setNode hz
    refine ⟨?_, hout.ledger.run_over hlive₆ hm₆ hz hzv hzf hzo hzd, ?_, ?_⟩
    · refine Advance.run h.wired hready (b := b) ⟨hg₄.rim, hg₄.shape, hg₄.wave⟩ ?_ hread ?_
        hnotowed (by rw [hselfb]; rfl) ?_ hout.advance ?_ hg₆ rfl rfl
        (fun n hn => setNode_of_ne c₆ z hn) (by rw [setNode_self, hzv]) hzo
        (fun hq => by rw [setNode_self, hzw hq])
      · rw [hb]
        unfold leaveDelivery
        rw [hdepth, h.depth]
      · intro n hn
        exact setNode_of_ne c y hn
      · rw [← Node.pauseLockset_of_awake hawake]
        rfl
      · rcases htold with ⟨es, hes, htold⟩
        refine ⟨es, hes, ?_⟩
        intro e he
        rw [← hsubs] at he
        exact ⟨v, htold e he⟩
    · intro hq
      have hdone := hout.done hq
      refine ⟨hdone.1, hdone.2.1, hdone.2.2.setNode ?_ ?_⟩
      · intro hr
        have ho := hr.2.2.1
        rw [hm₆] at ho
        cases ho
      · intro hr
        have ho := hr.2.2.1
        rw [hzo] at ho
        cases ho
    · intro p hp
      have hfail := hout.failed p hp
      have hpm : p ≠ m := by
        rintro rfl
        have ho := hfail.2.1
        rw [hm₆] at ho
        cases ho
      rcases hfail with ⟨hl, ho, ⟨f', e, hf', he, hmode⟩, hblame⟩
      have hcaches : ∀ n, (c₆.setNode m z).cache n = c₆.cache n := by
        intro n
        by_cases hn : n = m
        · rw [hn, cache, setNode_self, hzv]
          rfl
        · rw [cache_setNode_of_ne c₆ z hn]
      refine ⟨by rw [hg₆.live]; exact hl, by rw [owed_setNode_of_ne c₆ z hpm]; exact ho,
        ⟨f', e, by rw [hg₆.handle, hf'], ?_, hmode⟩, hblame⟩
      rw [hg₆.deps, ← he]
      exact congrArg _ (map_congr_left (fun d _ => hcaches d))
  have henter : ∀ c' : Config V S,
      Exec env [.downEnd m true, .user (.fn f ctx) 1, .waveGuard m, .runUndirty m false] c₆ c' →
      Exec env [.runWave m] c c' := by
    intro c' hrest
    refine Exec.enter c₁ [.user (.fn f ctx) 0, .waveGuard m, .runUndirty m false] h.running hrun ?_
    refine Exec.enter c₁ [.down m [.data v], .user (.fn f ctx) 1] h.running ?_ ?_
    · intro rest
      have hact : env.act (.fn f ctx) (c₁.popTo rest) 0 = .op (.ctxDown [.data v]) := by
        refine henv.emits f ctx _ v ?_
        rw [hctx, hrecords]
        exact hok
      simp only [enter, stepUser, hact]
      rfl
    refine Exec.enter ({ c₁ with wave := w₂ } : Config V S)
      [.deliveryScope m [.data v], .downEnd m true] h.running hdown ?_
    refine Exec.enter c₃ [.downLoop m [.data v], .deliveryGuard prev] h.running (fun _ => rfl) ?_
    refine Exec.enter c₄ [.emit m (.data v) (c₄.nodes m).aux.subscribers, .downLoop m []]
      h.running ?_ ?_
    · intro rest
      have hself₃ : (c₃.popTo rest).nodes m = (c.nodes m).runStarted := hself₁
      simp only [enter, downLoop, hself₃, Node.collectDown]
      rw [hself₄]
      have hset : (c₃.popTo rest).setNode m y = c₄.popTo rest := by
        rw [hc₃, hc₁, hc₄]
        unfold setNode popTo
        simp only [Function.update_idem]
      exact (congrArg (fun b : Config V S =>
        b.push [.emit m (.data v) y.aux.subscribers, .downLoop m []]) hset :)
    · exact (Exec.append hex hrest :)
  cases hq : q with
  | none =>
    subst hq
    have hdone := hout.done rfl
    set z₀ : Node V S := { c₆.nodes m with
      wave := { (c₆.nodes m).wave with insideRunWave := false } } with hz₀
    set z : Node V S := z₀.runRolled false with hz
    refine ⟨none, c₆.setNode m z, hfinish z rfl rfl rfl ?_ (Or.inr rfl) ?_, henter _ ?_⟩
    · rw [owed, setNode_self]
      rfl
    · intro _
      rw [hz, hz₀]
      simp only [Node.runRolled, Bool.false_eq_true, ↓reduceIte, hkept.2]
      have hidle := NodeWaveState.idle_eq hin hflags.2
      rw [← hidle]
      rfl
    · refine Exec.enter c₆ [] hdone.1 (fun _ => rfl) ?_
      refine Exec.enter c₆ [] hdone.1 ?_ ?_
      · intro rest
        simp only [enter, stepUser, henv.returns]
        rfl
      refine Exec.enter (c₆.setNode m z₀) [] hdone.1 ?_ ?_
      · intro rest
        exact if_pos hlive₆
      refine Exec.enter (c₆.setNode m z₀) [.runRoll m false] hdone.1 ?_ ?_
      · intro rest
        have hself : ((c₆.setNode m z₀).popTo rest).nodes m = z₀ := setNode_self c₆ m z₀
        have htier : z₀.wave.emittedTier3ThisWave = true := by
          rw [hz₀]
          simp only [hkept.2]
          rfl
        simp only [enter, runUndirty, hself, htier, Bool.not_true, Bool.and_false,
          Bool.false_and, Bool.false_eq_true, ↓reduceIte]
        rfl
      refine Exec.enter (c₆.setNode m z) [] hdone.1 ?_ Exec.nil
      intro rest
      have hself : ((c₆.setNode m z₀).popTo rest).nodes m = z₀ := setNode_self c₆ m z₀
      simp only [enter, runRoll, hself, Bool.false_and]
      rw [← hz]
      unfold setNode popTo
      simp only [Function.update_idem]
      rfl
  | some p =>
    subst hq
    rcases (hout.failed p rfl).2.2.1 with ⟨_, e, _, _, hmode⟩
    set z : Node V S := { c₆.nodes m with
      wave := { (c₆.nodes m).wave with insideRunWave := false } } with hz
    refine ⟨some p, c₆.setNode m z, hfinish z rfl rfl rfl ?_ (Or.inl rfl) (fun hq => by cases hq),
      henter _ ?_⟩
    · rw [owed, setNode_self]
      exact hm₆
    · refine Exec.cons (exec_pass hmode (fun _ => rfl)) ?_
      refine Exec.cons (exec_pass hmode ?_) ?_
      · intro rest
        simp only [Config.unwind, henv.uncaught, Bool.false_eq_true, ↓reduceIte]
      refine Exec.unwind (c₆.setNode m z) [] hmode ?_ (exec_pass hmode (fun _ => rfl))
      intro rest
      exact if_pos hlive₆

/-- A deferred run: a paused node remembers it, any other runs. -/
theorem exec_maybeRun (henv : env.Computes compute)
    (h : Working compute rank (m :: todo) c) (hd : c.deferred = [])
    (hdrain : ∀ N, N < c.owedNodes.card → DrainSpec env compute rank N) :
    ∃ q c', Outcome compute todo q c c' ∧ Exec env [.maybeRun m] c c' := by
  have hready := h.queue.ready m mem_cons_self
  have htame := h.wired.tame m hready.1
  have hquiet : ∀ rest, (c.popTo rest).deliveryInFlight = false := by
    intro rest
    have hdepth : (c.popTo rest).depth = 0 := h.depth
    unfold deliveryInFlight
    rw [hdepth]
    rfl
  have hmode : (c.nodes m).config.pausable = .true := by rw [htame.config]
  cases hp : (c.nodes m).isPaused with
  | true =>
    set y : Node V S := { c.nodes m with
      aux := { (c.nodes m).aux with pausedDepWaveOccurred := true } } with hy
    have hg : SameGraph c (c.setNode m y) := .setNode rfl
    have hself := setNode_self c m y
    have hother : ∀ n, ((c.setNode m y).nodes n).value = (c.nodes n).value ∧
        ((c.setNode m y).nodes n).wave = (c.nodes n).wave ∧
        ((c.setNode m y).nodes n).dep = (c.nodes n).dep := by
      intro n
      by_cases hn : n = m
      · rw [hn, hself]
        exact ⟨rfl, rfl, rfl⟩
      · rw [setNode_of_ne c y hn]
        exact ⟨rfl, rfl, rfl⟩
    have hdel : Delivered c (c.setNode m y) :=
      ⟨hg, rfl, fun n => (hother n).1, fun n => (hother n).2.1,
        ⟨[], rfl, fun _ he => absurd he not_mem_nil⟩⟩
    have hledger : (c.setNode m y).Ledger compute [] [] := by
      refine h.ledger.congr hg ?_ ?_ ?_ hdel.owed hdel.cache ?_ ?_
      · intro n hn
        rw [hg.live] at hn
        rw [hg.deps, (hother n).2.2]
        exact h.ledger.sound n hn
      · intro n i
        rw [(hother n).2.2]
      · intro n i _
        rw [(hother n).2.2]
      · intro n _ hin
        rw [(hother n).2.1]
        exact hin
      · intro n hf
        by_cases hn : n = m
        · rw [hn]
          exact Or.inr ⟨hready.2.1, hp, hready.2.2.1⟩
        · rw [setNode_of_ne c y hn] at hf
          exact Or.inl hf
    refine ⟨none, c.setNode m y, ⟨hdel.advance, hledger, fun _ => ⟨h.running, hd,
      h.queue.pop ?_⟩, fun _ hq => by (cases hq)⟩, Exec.enter _ [] h.running ?_ Exec.nil⟩
    · intro _
      unfold Held
      rw [hself]
      exact ⟨hp, rfl⟩
    · intro rest
      have hdec : ((c.popTo rest).nodes m).decideMaybeRun = (y, .skip) := by
        have hp' : ((c.popTo rest).nodes m).isPaused = true := hp
        have hsteady : ((c.popTo rest).nodes m).wave.inDepMutation = false := htame.steady
        have hmode' : ((c.popTo rest).nodes m).config.pausable = .true := hmode
        unfold Node.decideMaybeRun
        simp only [hsteady, Bool.false_eq_true, ↓reduceIte, hmode', hp', true_or, and_self]
        rfl
      simp only [enter, maybeRun, hquiet, Bool.false_eq_true, ↓reduceIte, hdec]
      rfl
  | false =>
    rcases htame.derived hready.2.1 with ⟨f, hf⟩
    have hrun : ∃ q c', Outcome compute todo q c c' ∧ Exec env [.runWave m] c c' := by
      cases hres : compute f ((c.nodes m).deps.map c.cache) with
      | error e =>
        rcases exec_run_fails henv h hp hf hres with ⟨c', hout, hex⟩
        exact ⟨some m, c', hout, hex⟩
      | ok v => exact exec_run_emits henv h hp hf hres hdrain
    rcases hrun with ⟨q, c', hout, hex⟩
    refine ⟨q, c', hout, Exec.enter c [.runWave m] h.running ?_ hex⟩
    intro rest
    have hpend : (c.nodes m).dep.pending = 0 :=
      ((h.ledger.sound m hready.1).pending_eq_zero).mpr hready.2.2.2
    have hgate : (c.nodes m).gateOpen = true := by
      unfold Node.gateOpen
      rw [htame.called hready.2.1]
      rfl
    have hdec : (c.nodes m).decideMaybeRun = (c.nodes m, .run) := by
      unfold Node.decideMaybeRun
      simp only [htame.steady, Bool.false_eq_true, ↓reduceIte, hmode, hp, htame.pullQuiet,
        or_self, and_false, hpend, gt_iff_lt, lt_irrefl, hf, Option.isNone_some, hgate,
        not_true_eq_false]
    have hdec' : ((c.popTo rest).nodes m).decideMaybeRun = (c.nodes m, .run) := hdec
    simp only [enter, maybeRun, hquiet, Bool.false_eq_true, ↓reduceIte, hdec']
    unfold setNode popTo push
    simp only [Function.update_eq_self]

/-- The drain. A run settles its node before its own drain starts, so drains
    nest at most as deep as there are owed nodes. -/
theorem exec_drain (henv : env.Computes compute) (rank : NodeId → Nat) (N : Nat) :
    DrainSpec env compute rank N := by
  induction N using Nat.strong_induction_on with
  | _ N ih =>
    refine exec_drain_of_run ?_
    intro m todo c h hd hN
    exact exec_maybeRun henv h hd (fun N' hN' => ih N' (lt_of_lt_of_le hN' hN))

end Config

end GraphRefly
